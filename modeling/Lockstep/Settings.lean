/-!
# Settings of a verification

`Settings` is what a run is told about the device and about the golden log; `LogFilter` says which
part of a raw golden log belongs to the test program. Every setting has a default.
-/

namespace Lockstep

/-- Which entries of a raw golden log are dropped. -/
structure LogFilter where
  /-- The inclusive range of program counters that holds the simulator's own boot code. -/
  debugRom : Option (UInt32 × UInt32) := some (0x1000, 0x2000)
  /-- Cut the log after the clean-up sequence of an architecture test. -/
  stopAtTestCleanup : Bool := true
  deriving DecidableEq, Repr

/-- What every verification of a run is told. -/
structure Settings where
  /-- The device shows store addresses only up to their word, so the low two bits of a golden store
  address are cleared before it is compared. -/
  wordBoundaryStores : Bool := false
  /-- How many register commits, the current one included, are searched for one that retired out of
  order. With 1 none is brought forward. -/
  reorderWindow : Nat := 4
  /-- What every register holds before the first instruction. -/
  shadowResetValue : UInt32 := 0
  /-- The part of a golden log that is kept. -/
  golden : LogFilter := {}
  deriving DecidableEq, Repr

end Lockstep
