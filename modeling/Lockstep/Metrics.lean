import Lockstep.Reconciliation
import Lockstep.Text.Decimal

/-!
# Metrics

A run counts what it does. Each thing that is counted is an `Update`, and `Metrics.apply` adds it to
what was counted before. There are counters, which wrap around at 64 bits, gauges, which hold a single
number, and histograms, which keep every number in the order of recording.

`Metrics.summary` lists everything by key.
-/

namespace Lockstep

/-- What a run has counted, by key. Every key occurs once. -/
structure Metrics where
  counters : List (String × UInt64) := []
  gauges : List (String × Float) := []
  histograms : List (String × List Float) := []

/-- How the verification of one program ended. -/
inductive Verdict where
  | pass
  | fail
  | skip
  | error
  deriving DecidableEq, Repr

namespace Metrics

variable {α : Type}

/-! ## Keyed lists -/

def find? (table : List (String × α)) (key : String) : Option α :=
  (table.find? (·.1 == key)).map Prod.snd

/-- Change the value of a key by a function of the value it has. -/
def alter (table : List (String × α)) (key : String) (f : Option α → α) : List (String × α) :=
  match table with
  | [] => [(key, f none)]
  | (k, a) :: rest => if k == key then (k, f (some a)) :: rest else (k, a) :: alter rest key f

theorem find?_alter (table : List (String × α)) (key other : String) (f : Option α → α) :
    find? (alter table key f) other =
      if other = key then some (f (find? table key)) else find? table other := by
  induction table with
  | nil =>
    by_cases h : other = key
    · subst h; simp [alter, find?]
    · have : ¬ key = other := fun e => h e.symm
      simp [alter, find?, h, this]
  | cons entry rest ih =>
    obtain ⟨k, a⟩ := entry
    simp only [find?] at ih
    by_cases hk : k = key
    · subst hk
      by_cases h : other = k
      · subst h; simp [alter, find?]
      · have : ¬ k = other := fun e => h e.symm
        simp [alter, find?, h, this]
    · by_cases h : k = other
      · subst h
        simp [alter, find?, hk]
      · simp [alter, find?, hk, h, ih]

/-- The entries in ascending order of their keys. -/
def sorted (table : List (String × α)) : List (String × α) :=
  table.mergeSort fun a b => decide (a.1 ≤ b.1)

/-! ## Updates -/

/-- One thing that is counted. -/
inductive Update where
  /-- Add to a counter. -/
  | increment (key : String) (amount : UInt64)
  /-- Set a counter. -/
  | absolute (key : String) (value : UInt64)
  /-- Add to a gauge. -/
  | raise (key : String) (amount : Float)
  /-- Take away from a gauge. -/
  | lower (key : String) (amount : Float)
  /-- Set a gauge. -/
  | set (key : String) (value : Float)
  /-- Record a number in a histogram. -/
  | observe (key : String) (value : Float)

/-- Count one thing more. -/
def apply (metrics : Metrics) : Update → Metrics
  | .increment key amount =>
    { metrics with counters := alter metrics.counters key fun old => old.getD 0 + amount }
  | .absolute key value =>
    { metrics with counters := alter metrics.counters key fun _ => value }
  | .raise key amount =>
    { metrics with gauges := alter metrics.gauges key fun old => old.getD 0 + amount }
  | .lower key amount =>
    { metrics with gauges := alter metrics.gauges key fun old => old.getD 0 - amount }
  | .set key value =>
    { metrics with gauges := alter metrics.gauges key fun _ => value }
  | .observe key value =>
    { metrics with
      histograms := alter metrics.histograms key fun old => old.getD [] ++ [value] }

/-- What a list of updates comes to. -/
def ofUpdates (updates : List Update) : Metrics := updates.foldl apply {}

def counter? (metrics : Metrics) (key : String) : Option UInt64 := find? metrics.counters key

def gauge? (metrics : Metrics) (key : String) : Option Float := find? metrics.gauges key

/-! ## What a run counts -/

/-- A name with labels. -/
def labelled (name : String) (labels : List (String × String)) : String :=
  if labels.isEmpty then name
  else
    name ++ "\x7b" ++ String.intercalate "," (labels.map fun (k, v) => k ++ "=" ++ v) ++ "\x7d"

/-- The counter of a verdict. -/
def verdictKey : Verdict → String
  | .pass => "tracesync_binaries_passed_total"
  | .fail => "tracesync_binaries_failed_total"
  | .skip => "tracesync_binaries_skipped_total"
  | .error => "tracesync_binaries_errored_total"

/-- Count the verdict on one program. -/
def ofVerdict (verdict : Verdict) : List Update := [.increment (verdictKey verdict) 1]

/-- A duration in seconds. -/
def seconds (nanoseconds : Nat) : Float :=
  (UInt64.ofNat (nanoseconds / 1000000000)).toFloat +
    (UInt64.ofNat (nanoseconds % 1000000000)).toFloat / 1000000000

/-- Count one verification that was carried out. -/
def ofVerification (stats : Stats) (mismatches nanoseconds : Nat) : List Update :=
  [.increment "tracesync_mismatches_total" (.ofNat mismatches),
   .increment "tracesync_speculative_fetches_total" (.ofNat stats.speculativeFetches),
   .increment "tracesync_synthesized_commits_total" (.ofNat stats.synthesizedCommits),
   .increment "tracesync_reordered_commits_total" (.ofNat stats.reorderedCommits),
   .increment "tracesync_unknown_instructions_total" (.ofNat stats.unknownInstructions),
   .observe "tracesync_verify_duration_seconds" (seconds nanoseconds)]

/-- Tell how many workers a batch has. -/
def ofWorkers (workers : Nat) : List Update :=
  [.set "tracesync_batch_workers" (UInt64.ofNat workers).toFloat]

/-! ## The summary -/

/-- Numbers of the summary have six places. -/
def number (x : Float) : String := Decimal.fixed 6 x

/-- The lesser of two numbers. A number counts for less than what is none. Of two zeros the second one
is taken, which shows in its sign. -/
def least (a b : Float) : Float := if b.isNaN || a < b then a else b

/-- The greater of two numbers. A number counts for more than what is none. Of two zeros the second one
is taken, which shows in its sign. -/
def greatest (a b : Float) : Float := if b.isNaN || b < a then a else b

/-- The count of a histogram, its least and greatest number and the average. The sum is taken in the
order of recording. -/
def histogramText (values : List Float) : String :=
  let inf : Float := 1 / 0
  let average := values.foldl (· + ·) (-0.0) / (UInt64.ofNat values.length).toFloat
  "count=" ++ toString values.length ++
    ", min=" ++ number (values.foldl least inf) ++
    ", max=" ++ number (values.foldl greatest (-inf)) ++
    ", avg=" ++ number average

/-- A section of the summary: a heading and a line for each key. An empty one is left out. -/
def sectionLines (heading : String) (text : α → String) (table : List (String × α)) :
    List String :=
  if table.isEmpty then []
  else ["### " ++ heading] ++ (sorted table).map (fun (k, a) => "  " ++ k ++ ": " ++ text a) ++ [""]

/-- Everything that was counted. -/
def summary (metrics : Metrics) : String :=
  let lines := sectionLines "Counters" (fun n : UInt64 => toString n.toNat) metrics.counters ++
    sectionLines "Gauges" number metrics.gauges ++
    sectionLines "Histograms" histogramText metrics.histograms
  if lines.isEmpty then "No metrics collected.\n"
  else String.intercalate "\n" (["", "## Metrics Summary", ""] ++ lines)

end Metrics

end Lockstep
