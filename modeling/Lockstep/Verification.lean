import Lockstep.Mismatch
import Lockstep.Reconciliation

/-!
# Verification

A device trace is verified by reconciling it with the golden trace and comparing the two. It passes
when no mismatch is left.
-/

namespace Lockstep

/-- The reconciled trace of one program and what is wrong with it. -/
structure Verification where
  reconciliation : Reconciliation
  mismatches : List Mismatch
  deriving DecidableEq, Repr

def Verification.passed (v : Verification) : Bool := v.mismatches.isEmpty

/-- Verify a device trace against a golden trace. -/
def verify (golden : List GoldenEntry) (trace : DeviceTrace) (settings : Settings) :
    Verification :=
  let reconciliation := reconcile golden trace settings
  { reconciliation, mismatches := compareTraces golden reconciliation.entries settings }

/-- Verify a device trace against a golden trace, and tell of it under the name of the program. -/
def verifyWithEvents (name : String) (golden : List GoldenEntry) (trace : DeviceTrace)
    (settings : Settings) : Verification × List Event :=
  let (reconciliation, events) := reconcileWithEvents name golden trace settings
  let mismatches := compareTraces golden reconciliation.entries settings
  ({ reconciliation, mismatches }, events ++ comparisonEvents golden mismatches)

@[simp] theorem verifyWithEvents_fst (name : String) (golden : List GoldenEntry)
    (trace : DeviceTrace) (settings : Settings) :
    (verifyWithEvents name golden trace settings).1 = verify golden trace settings := rfl

end Lockstep
