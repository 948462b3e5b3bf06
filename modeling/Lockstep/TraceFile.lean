import Lockstep.CommitLog
import Lockstep.Error
import Lockstep.TraceFile.Entries
import Lockstep.TraceFile.Header

/-!
# Trace files

The files that a run reads and writes. A trace is JSON, behind a header of comments if there is one; it
is written over several lines. A commit log is read line by line. Each function here names the file in
its error.
-/

namespace Lockstep.TraceFile

def goldenSuffix : String := ".spike.json"

def deviceSuffix : String := ".fragmented.json"

def reconciledSuffix : String := ".final.json"

def mismatchSuffix : String := ".mismatches.json"

def logSuffix : String := ".trace"

/-! ## Reading -/

/-- Read the text of a trace file. -/
def parse {α : Type} (reader : Json.Reader α) (text : String) : Except Json.Fault α :=
  reader.readAll (stripHeader text.toList)

def read {α : Type} (reader : Json.Reader α) (path : String) (files : FileTree) :
    Except Error α := do
  let text ← (files.readText path).mapError (.file path)
  (parse reader text).mapError (.malformedTrace path)

def readGolden : String → FileTree → Except Error (List GoldenEntry) :=
  read (.elements GoldenEntry.reader)

def readDevice : String → FileTree → Except Error DeviceTrace := read DeviceTrace.reader

def readLog (path : String) (files : FileTree) : Except Error (List GoldenEntry) := do
  let bytes ← (files.read path).mapError (.file path)
  (CommitLog.parse bytes.toList).mapError fun (line, fault) => .malformedLog path line fault

/-! ## Writing -/

def write (path : String) (value : Json) (files : FileTree) : Except Error FileTree :=
  (files.write path value.text.toUTF8).mapError (.file path)

def writeGolden (path : String) (entries : List GoldenEntry) : FileTree → Except Error FileTree :=
  write path (.array (entries.map GoldenEntry.json))

end Lockstep.TraceFile
