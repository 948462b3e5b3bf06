/-!
# Instruction words and what they are seen to do

A 32-bit RISC-V instruction word is read through three of its fields: the major opcode, the
destination register and `funct3`. From these, `Instruction.category` says which effect of the
instruction a device under test can show: a change of the register file, a write on the memory
bus, or nothing. `category` is total: a word outside the recognized subset is `unknown`.

A memory write is seen as a whole bus word; `StoreWidth.narrow` selects the bytes that the store
itself wrote, from the lane that the low two address bits name.
-/

namespace Lockstep

abbrev Instruction := UInt32

/-- How many bytes a store writes. -/
inductive StoreWidth where
  | byte
  | half
  | word
  deriving DecidableEq, Repr

/-- The effect of an instruction that can be observed from outside the core. -/
inductive Category where
  /-- A load: its result lands in the register file. -/
  | load
  | store (width : StoreWidth)
  | branch
  /-- A jump: the return address lands in the register file. -/
  | jump
  /-- An arithmetic instruction, or one that builds a constant. -/
  | registerOp
  | fence
  /-- Anything outside the recognized subset. -/
  | unknown
  deriving DecidableEq, Repr

namespace StoreWidth

/-- The width in bytes. -/
def bytes : StoreWidth → Nat
  | .byte => 1
  | .half => 2
  | .word => 4

/-- The bytes of the bus word `raw` that a store of this width to `address` wrote. A byte or half
store lands in the lane given by the low two address bits; a word store takes the whole bus word. -/
def narrow (width : StoreWidth) (raw address : UInt32) : UInt32 :=
  let shift := 8 * (address &&& 3)
  match width with
  | .byte => (raw >>> shift) &&& 0xFF
  | .half => (raw >>> shift) &&& 0xFFFF
  | .word => raw

@[simp] theorem narrow_word (raw address : UInt32) : narrow .word raw address = raw := rfl

end StoreWidth

namespace Instruction

/-! ## Fields -/

/-- The major opcode, bits 0 to 6. -/
def opcode (word : Instruction) : UInt8 := (word &&& 0x7F).toUInt8

/-- The destination register, bits 7 to 11. -/
def rd (word : Instruction) : UInt8 := ((word >>> 7) &&& 0x1F).toUInt8

/-- The minor opcode, bits 12 to 14. -/
def funct3 (word : Instruction) : UInt8 := ((word >>> 12) &&& 0x7).toUInt8

/-- The destination is the register that always holds zero. A write to it changes nothing, so no
observer of the register file ever sees it. -/
def targetsZero (word : Instruction) : Bool := word.rd == 0

/-! ## Major opcodes -/

namespace Opcode

def load : UInt8 := 0x03

/-- The major opcode of the fences. -/
def miscMem : UInt8 := 0x0F

/-- The major opcode of arithmetic on a register and an immediate. -/
def opImm : UInt8 := 0x13

/-- The major opcode of "add upper immediate to pc". -/
def auipc : UInt8 := 0x17

def store : UInt8 := 0x23

/-- The major opcode of arithmetic on two registers. -/
def op : UInt8 := 0x33

/-- The major opcode of "load upper immediate". -/
def lui : UInt8 := 0x37

def branch : UInt8 := 0x63

/-- The major opcode of the indirect jump. -/
def jalr : UInt8 := 0x67

/-- The major opcode of the direct jump. -/
def jal : UInt8 := 0x6F

end Opcode

/-- The major opcode is that of the loads, whatever the width. -/
def isLoad (word : Instruction) : Bool := word.opcode == Opcode.load

/-- The major opcode is that of the stores, whatever the width. -/
def isStore (word : Instruction) : Bool := word.opcode == Opcode.store

/-! ## Categories -/

/-- The width of a store with the given minor opcode, where it has one. -/
def storeWidth? (funct3 : UInt8) : Option StoreWidth :=
  if funct3 = 0 then some .byte
  else if funct3 = 1 then some .half
  else if funct3 = 2 then some .word
  else none

/-- The observable effect of an instruction word. -/
def category (word : Instruction) : Category :=
  if word.opcode = Opcode.load then .load
  else if word.opcode = Opcode.store then
    match storeWidth? word.funct3 with
    | some width => .store width
    | none => .unknown
  else if word.opcode = Opcode.branch then .branch
  else if word.opcode = Opcode.jal ∨ word.opcode = Opcode.jalr then .jump
  else if word.opcode = Opcode.lui ∨ word.opcode = Opcode.auipc ∨
      word.opcode = Opcode.opImm ∨ word.opcode = Opcode.op then .registerOp
  else if word.opcode = Opcode.miscMem then .fence
  else .unknown

end Instruction

namespace Category

/-- The width of the store, if this is one. -/
def storeWidth? : Category → Option StoreWidth
  | .store width => some width
  | _ => none

/-- The result of such an instruction lands in the register file. -/
def writesRegister : Category → Bool
  | .load | .registerOp | .jump => true
  | _ => false

def text : Category → String
  | .load => "load"
  | .store .byte => "store byte"
  | .store .half => "store half"
  | .store .word => "store word"
  | .branch => "branch"
  | .jump => "jump"
  | .registerOp => "register op"
  | .fence => "fence"
  | .unknown => "unknown"

end Category

/-- Every load is in the category of loads, and nothing else is. -/
theorem Instruction.category_eq_load_iff (word : Instruction) :
    word.category = .load ↔ word.isLoad = true := by
  simp only [category, isLoad, beq_iff_eq]
  constructor
  · intro h
    by_cases hl : word.opcode = Opcode.load
    · exact hl
    · rw [if_neg hl] at h
      split at h
      · split at h <;> exact absurd h (by simp)
      · repeat' split at h
        all_goals exact absurd h (by simp)
  · intro h
    rw [if_pos h]

end Lockstep
