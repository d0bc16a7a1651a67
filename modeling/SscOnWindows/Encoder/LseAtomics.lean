import Mathlib.Data.Nat.Bitwise
import SscOnWindows.Lib.WordMemory

/-!
# The atomic instructions of the blob

The emulator that runs the blob does not know the atomic instructions of Armv8.1.  When it meets
one, `_handle_lse_intr` of `qiling_patches.py` takes the instruction apart, asks the disassembler
for its mnemonic, does what the instruction would do and goes on behind it.  A Python integer
that does not fit is refused by `to_bytes`, and the handler raises an exception.

Beside the handler there are the instructions themselves, with their encoding and their meaning
on a processor.
-/

namespace Ssc

open WordMemory

/-- The registers, the memory and the program counter.  The handler asks the emulator for the
register with a number below 32; the last of them is none of the general ones. -/
structure LseState where
  regs : Fin 32 → BitVec 64
  mem : Memory 64
  pc : BitVec 64

/-! ### The handler -/

def lseCasPrefixes : List (List Char) := ["cas".toList]
def lseSwpPrefixes : List (List Char) := ["swp".toList]
def lseLdaddPrefixes : List (List Char) := ["ldadd".toList]
def lseStaddPrefixes : List (List Char) := ["stadd".toList]
def lseLdclrPrefixes : List (List Char) := ["ldclr".toList]
def lseStclrPrefixes : List (List Char) := ["stclr".toList]
def lseLdeorPrefixes : List (List Char) := ["ldeor".toList]
def lseSteorPrefixes : List (List Char) := ["steor".toList]
def lseLdsetPrefixes : List (List Char) := ["ldset".toList]
def lseStsetPrefixes : List (List Char) := ["stset".toList]

/-- `str.startswith` with a tuple of prefixes. -/
def startsWithAny (prefixes : List (List Char)) (name : List Char) : Bool :=
  prefixes.any (·.isPrefixOf name)

namespace LseState

/-- `regs.read`. -/
def read (s : LseState) (r : Fin 32) : Nat :=
  (s.regs r).toNat

/-- `regs.write`. -/
def write (s : LseState) (r : Fin 32) (value : Nat) : Fin 32 → BitVec 64 :=
  Function.update s.regs r (BitVec.ofNat 64 value)

end LseState

/-- `_store`. -/
def lseStore (mem : Memory 64) (addr : BitVec 64) (size value : Nat) : Option (Memory 64) :=
  if value < 256 ^ size then some (store mem addr size value) else none

/-- The branches of `_handle_lse_intr`: the memory and the registers behind the instruction with
the name. -/
def lseBranches (name : List Char) (s : LseState) (rs rn rt : Fin 32) (size : Nat) :
    Option (Memory 64 × (Fin 32 → BitVec 64)) :=
  let mask := (1 <<< (size * 8)) - 1
  let addr := s.regs rn
  let old := load s.mem addr size
  if startsWithAny lseCasPrefixes name then
    (if old = s.read rs then lseStore s.mem addr size (s.read rt) else some s.mem).map
      (·, s.write rs old)
  else if startsWithAny lseSwpPrefixes name then
    (lseStore s.mem addr size (s.read rt)).map (·, s.write rs old)
  else if startsWithAny lseLdaddPrefixes name then
    (lseStore s.mem addr size ((old + s.read rt) &&& mask)).map (·, s.write rs old)
  else if startsWithAny lseStaddPrefixes name then
    (lseStore s.mem addr size ((old + s.read rt) &&& mask)).map (·, s.regs)
  else if startsWithAny lseLdclrPrefixes name then
    (lseStore s.mem addr size (Nat.ldiff old (s.read rt) &&& mask)).map (·, s.write rs old)
  else if startsWithAny lseStclrPrefixes name then
    (lseStore s.mem addr size (Nat.ldiff old (s.read rt) &&& mask)).map (·, s.regs)
  else if startsWithAny lseLdeorPrefixes name then
    (lseStore s.mem addr size (old ^^^ (s.read rt &&& mask))).map (·, s.write rs old)
  else if startsWithAny lseSteorPrefixes name then
    (lseStore s.mem addr size (old ^^^ (s.read rt &&& mask))).map (·, s.regs)
  else if startsWithAny lseLdsetPrefixes name then
    (lseStore s.mem addr size (old ||| (s.read rt &&& mask))).map (·, s.write rs old)
  else if startsWithAny lseStsetPrefixes name then
    (lseStore s.mem addr size (old ||| (s.read rt &&& mask))).map (·, s.regs)
  else none

/-- `_handle_lse_intr`: the state behind the instruction, `none` for an exception.  The
disassembler is given the instruction and its address. -/
def handleLseIntr (disasm : Nat → BitVec 64 → Option (List Char)) (s : LseState) :
    Option LseState :=
  let insn := load s.mem s.pc 4
  let size := if (insn >>> 30) &&& 0x3 = 0x3 then 8 else 4
  let rs := Fin.ofNat 32 ((insn >>> 16) &&& 0x1F)
  let rn := Fin.ofNat 32 ((insn >>> 5) &&& 0x1F)
  let rt := Fin.ofNat 32 (insn &&& 0x1F)
  match disasm insn s.pc with
  | none => none
  | some name =>
      (lseBranches name s rs rn rt size).map fun (mem, regs) =>
        { regs := regs, mem := mem, pc := s.pc + 4 }

/-! ### The instructions -/

/-- What `LD<op>` and `ST<op>` do with the old value and the operand. -/
inductive AtomicOp where
  | add
  | clr
  | eor
  | set
  deriving DecidableEq

/-- The atomic instructions on words of 32 bits or of 64 (`wide`), with their registers and the
bits for acquire and release.  `ST<op>` is the form of `LD<op>` with 31 for the register of the
result. -/
inductive LseInstr where
  | cas (wide acquire release : Bool) (rs rn rt : Fin 31)
  | swp (wide acquire release : Bool) (rs rn rt : Fin 31)
  | ld (op : AtomicOp) (wide acquire release : Bool) (rs rn rt : Fin 31)
  | st (op : AtomicOp) (wide release : Bool) (rs rn : Fin 31)
  deriving DecidableEq

namespace AtomicOp

def mnemonic : AtomicOp → String
  | add => "add"
  | clr => "clr"
  | eor => "eor"
  | set => "set"

/-- The number of the operation in the instruction. -/
def opc : AtomicOp → Nat
  | add => 0
  | clr => 1
  | eor => 2
  | set => 3

def apply {w : Nat} (op : AtomicOp) (old operand : BitVec w) : BitVec w :=
  match op with
  | add => old + operand
  | clr => old &&& ~~~operand
  | eor => old ^^^ operand
  | set => old ||| operand

end AtomicOp

/-- The ending of a mnemonic. -/
def orderSuffix (acquire release : Bool) : List Char :=
  (if acquire then ['a'] else []) ++ (if release then ['l'] else [])

/-- An instruction word: the size in bits 31 and 30, the fixed bits and those for the order down to
bit 21, the register `Rs`, the bits for the operation, and the registers `Rn` and `Rt`. -/
def lseWord (wide : Bool) (order rs operation rn rt : Nat) : Nat :=
  (if wide then 3 else 2) * 2 ^ 30 + order * 2 ^ 21 + rs * 2 ^ 16 + operation * 2 ^ 10 + rn * 2 ^ 5
    + rt

namespace LseInstr

def mnemonic : LseInstr → List Char
  | cas _ acquire release _ _ _ => "cas".toList ++ orderSuffix acquire release
  | swp _ acquire release _ _ _ => "swp".toList ++ orderSuffix acquire release
  | ld op _ acquire release _ _ _ =>
      "ld".toList ++ op.mnemonic.toList ++ orderSuffix acquire release
  | st op _ release _ _ => "st".toList ++ op.mnemonic.toList ++ orderSuffix false release

def encode : LseInstr → Nat
  | cas wide acquire release rs rn rt =>
      lseWord wide (0b001000101 + acquire.toNat * 2) rs (release.toNat * 32 + 0b011111) rn rt
  | swp wide acquire release rs rn rt =>
      lseWord wide (0b111000001 + acquire.toNat * 4 + release.toNat * 2) rs 0b100000 rn rt
  | ld op wide acquire release rs rn rt =>
      lseWord wide (0b111000001 + acquire.toNat * 4 + release.toNat * 2) rs (op.opc * 4) rn rt
  | st op wide release rs rn =>
      lseWord wide (0b111000001 + release.toNat * 2) rs (op.opc * 4) rn 31

end LseInstr

/-- The bytes of a word. -/
def lseBytes (wide : Bool) : Nat :=
  if wide then 8 else 4

namespace LseState

/-- The word a register holds: its low 32 bits in the narrow form. -/
def operand (s : LseState) (wide : Bool) (r : Fin 32) : BitVec (8 * lseBytes wide) :=
  (s.regs r).setWidth _

/-- The word in the memory at the address in the register. -/
def data (s : LseState) (wide : Bool) (rn : Fin 32) : BitVec (8 * lseBytes wide) :=
  BitVec.ofNat _ (load s.mem (s.regs rn) (lseBytes wide))

/-- The memory with the word at the address in the register. -/
def storeData (s : LseState) (wide : Bool) (rn : Fin 32) (value : BitVec (8 * lseBytes wide)) :
    Memory 64 :=
  store s.mem (s.regs rn) (lseBytes wide) value.toNat

/-- The registers with the word in one of them. -/
def setData (s : LseState) {wide : Bool} (r : Fin 32) (value : BitVec (8 * lseBytes wide)) :
    Fin 32 → BitVec 64 :=
  Function.update s.regs r (value.setWidth 64)

end LseState

namespace LseInstr

/-- What the instruction does on a processor. -/
def execute (s : LseState) : LseInstr → LseState
  | cas wide _ _ rs rn rt =>
      { regs := s.setData rs.castSucc (s.data wide rn.castSucc)
        mem :=
          if s.data wide rn.castSucc = s.operand wide rs.castSucc then
            s.storeData wide rn.castSucc (s.operand wide rt.castSucc)
          else s.mem
        pc := s.pc + 4 }
  | swp wide _ _ rs rn rt =>
      { regs := s.setData rt.castSucc (s.data wide rn.castSucc)
        mem := s.storeData wide rn.castSucc (s.operand wide rs.castSucc)
        pc := s.pc + 4 }
  | ld op wide _ _ rs rn rt =>
      { regs := s.setData rt.castSucc (s.data wide rn.castSucc)
        mem := s.storeData wide rn.castSucc
          (op.apply (s.data wide rn.castSucc) (s.operand wide rs.castSucc))
        pc := s.pc + 4 }
  | st op wide _ rs rn =>
      { s with
        mem := s.storeData wide rn.castSucc
          (op.apply (s.data wide rn.castSucc) (s.operand wide rs.castSucc))
        pc := s.pc + 4 }

/-- The handler takes the registers of the result and of the operand for each other but in `CAS`,
and does not cut off the registers it compares and stores.  That does no harm: in `CAS`, with
words of 64 bits, when the words differ, when both registers fit, or when the comparison fails
for its high bits and the new word is the old one; in `SWP` and `LD<op>`, when both registers are
one, which fits if it is stored as it is, or hold the old word; in `ST<op>`, when the operand and
what is read for register 31 come to the same. -/
def Emulated (s : LseState) : LseInstr → Prop
  | cas wide _ _ rs rn rt =>
      wide = true ∨ s.data wide rn.castSucc ≠ s.operand wide rs.castSucc
        ∨ (s.read rs.castSucc < 2 ^ 32 ∧ s.read rt.castSucc < 2 ^ 32)
        ∨ (2 ^ 32 ≤ s.read rs.castSucc ∧ s.operand wide rt.castSucc = s.data wide rn.castSucc)
  | swp wide _ _ rs rn rt =>
      (rs = rt ∧ s.read rt.castSucc < 256 ^ lseBytes wide)
        ∨ (s.read rs.castSucc = (s.data wide rn.castSucc).toNat
          ∧ s.read rt.castSucc = (s.data wide rn.castSucc).toNat)
  | ld _ wide _ _ rs rn rt =>
      rs = rt ∨ (s.read rs.castSucc = (s.data wide rn.castSucc).toNat
        ∧ s.read rt.castSucc = (s.data wide rn.castSucc).toNat)
  | st op wide _ rs rn =>
      op.apply (s.data wide rn.castSucc) (s.operand wide (Fin.last 31))
        = op.apply (s.data wide rn.castSucc) (s.operand wide rs.castSucc)

end LseInstr

/-- The disassembler names each of the instructions by its mnemonic. -/
def NamesLse (disasm : Nat → BitVec 64 → Option (List Char)) : Prop :=
  ∀ (i : LseInstr) pc, disasm i.encode pc = some i.mnemonic

/-! ### Taking an instruction apart -/

section Fields

variable {wide : Bool} {order rs operation rn rt : Nat}

theorem lseWord_rs (hrs : rs < 32) (hoperation : operation < 64) (hrn : rn < 32) (hrt : rt < 32) :
  (lseWord wide order rs operation rn rt >>> 16) &&& 0x1F = rs
  := by
  have hmask := Nat.and_two_pow_sub_one_eq_mod (lseWord wide order rs operation rn rt >>> 16) 5
  rw [Nat.shiftRight_eq_div_pow] at hmask ⊢
  apply hmask.trans
  rw [lseWord]
  omega

theorem lseWord_rn (hrn : rn < 32) (hrt : rt < 32) :
  (lseWord wide order rs operation rn rt >>> 5) &&& 0x1F = rn
  := by
  have hmask := Nat.and_two_pow_sub_one_eq_mod (lseWord wide order rs operation rn rt >>> 5) 5
  rw [Nat.shiftRight_eq_div_pow] at hmask ⊢
  apply hmask.trans
  rw [lseWord]
  omega

theorem lseWord_rt (hrt : rt < 32) :
  lseWord wide order rs operation rn rt &&& 0x1F = rt
  := by
  apply (Nat.and_two_pow_sub_one_eq_mod (lseWord wide order rs operation rn rt) 5).trans
  rw [lseWord]
  omega

theorem lseWord_size (horder : order < 512) (hrs : rs < 32) (hoperation : operation < 64)
    (hrn : rn < 32) (hrt : rt < 32) :
  (if (lseWord wide order rs operation rn rt >>> 30) &&& 0x3 = 0x3 then 8 else 4) = lseBytes wide
  := by
  have hmask := Nat.and_two_pow_sub_one_eq_mod (lseWord wide order rs operation rn rt >>> 30) 2
  have hsize : (lseWord wide order rs operation rn rt >>> 30) % 2 ^ 2 = if wide then 3 else 2 := by
    rw [Nat.shiftRight_eq_div_pow, lseWord]
    split <;> omega
  rw [hsize] at hmask
  have hfield : (lseWord wide order rs operation rn rt >>> 30) &&& 0x3 = if wide then 3 else 2 :=
    hmask
  rw [hfield, lseBytes]
  cases wide with
  | true => rfl
  | false => rfl

end Fields

section Handler

variable {disasm : Nat → BitVec 64 → Option (List Char)} {s : LseState} {wide : Bool}

theorem ofNat_castSucc (r : Fin 31) :
  Fin.ofNat 32 r = r.castSucc
  := by
  ext
  rw [Fin.val_ofNat, Fin.val_castSucc]
  apply Nat.mod_eq_of_lt
  omega

/-- The handler goes by the fields of the instruction. -/
theorem handleLseIntr_word {name : List Char} {order operation rt : Nat} {rs rn : Fin 31}
    (hname : disasm (load s.mem s.pc 4) s.pc = some name)
    (hfetch : load s.mem s.pc 4 = lseWord wide order rs operation rn rt)
    (horder : order < 512) (hoperation : operation < 64) (hrt : rt < 32) :
  handleLseIntr disasm s
    = (lseBranches name s rs.castSucc rn.castSucc (Fin.ofNat 32 rt) (lseBytes wide)).map
      fun (mem, regs) => { regs := regs, mem := mem, pc := s.pc + 4 }
  := by
  have hrs : (rs : Nat) < 32 := by omega
  have hrn : (rn : Nat) < 32 := by omega
  rw [handleLseIntr, hname, hfetch]
  dsimp only
  rw [lseWord_size horder hrs hoperation hrn hrt, lseWord_rs hrs hoperation hrn hrt,
    lseWord_rn hrn hrt, lseWord_rt hrt, ofNat_castSucc, ofNat_castSucc]

/-! ### The branches -/

/-- What the handler stores for an operation. -/
def AtomicOp.combine (op : AtomicOp) (mask old operand : Nat) : Nat :=
  match op with
  | add => (old + operand) &&& mask
  | clr => Nat.ldiff old operand &&& mask
  | eor => old ^^^ (operand &&& mask)
  | set => old ||| (operand &&& mask)

theorem lseBranches_cas (acquire release : Bool) (rs rn rt : Fin 32) (size : Nat) :
  lseBranches ("cas".toList ++ orderSuffix acquire release) s rs rn rt size
    = (if load s.mem (s.regs rn) size = s.read rs then
          lseStore s.mem (s.regs rn) size (s.read rt)
        else some s.mem).map (·, s.write rs (load s.mem (s.regs rn) size))
  := by
  cases acquire <;> cases release <;> rfl

theorem lseBranches_swp (acquire release : Bool) (rs rn rt : Fin 32) (size : Nat) :
  lseBranches ("swp".toList ++ orderSuffix acquire release) s rs rn rt size
    = (lseStore s.mem (s.regs rn) size (s.read rt)).map
      (·, s.write rs (load s.mem (s.regs rn) size))
  := by
  cases acquire <;> cases release <;> rfl

theorem lseBranches_ld (op : AtomicOp) (acquire release : Bool) (rs rn rt : Fin 32) (size : Nat) :
  lseBranches ("ld".toList ++ op.mnemonic.toList ++ orderSuffix acquire release) s rs rn rt size
    = (lseStore s.mem (s.regs rn) size (op.combine ((1 <<< (size * 8)) - 1)
        (load s.mem (s.regs rn) size) (s.read rt))).map
      (·, s.write rs (load s.mem (s.regs rn) size))
  := by
  cases op <;> cases acquire <;> cases release <;> rfl

theorem lseBranches_st (op : AtomicOp) (release : Bool) (rs rn rt : Fin 32) (size : Nat) :
  lseBranches ("st".toList ++ op.mnemonic.toList ++ orderSuffix false release) s rs rn rt size
    = (lseStore s.mem (s.regs rn) size (op.combine ((1 <<< (size * 8)) - 1)
        (load s.mem (s.regs rn) size) (s.read rt))).map (·, s.regs)
  := by
  cases op <;> cases release <;> rfl

end Handler

/-! ### Words -/

theorem pow_lseBytes (wide : Bool) :
  256 ^ lseBytes wide = 2 ^ (8 * lseBytes wide)
  := by
  cases wide <;> rfl

/-- The operation on Python integers is the one on words. -/
theorem AtomicOp.combine_eq {w : Nat} (op : AtomicOp) (old : BitVec w) (operand : BitVec 64) :
  op.combine (2 ^ w - 1) old.toNat operand.toNat = (op.apply old (operand.setWidth w)).toNat
  := by
  cases op with
  | add =>
      rw [combine, Nat.and_two_pow_sub_one_eq_mod, apply, BitVec.toNat_add, BitVec.toNat_setWidth,
        Nat.add_mod_mod]
  | clr =>
      apply Nat.eq_of_testBit_eq
      intro i
      rw [combine, Nat.testBit_and, Nat.testBit_ldiff, Nat.testBit_two_pow_sub_one, apply,
        BitVec.testBit_toNat, BitVec.testBit_toNat, BitVec.testBit_toNat, BitVec.getLsbD_and,
        BitVec.getLsbD_not, BitVec.getLsbD_setWidth]
      by_cases hi : i < w
      · simp [hi]
      · simp [hi, BitVec.getLsbD_of_ge old i (Nat.le_of_not_lt hi)]
  | eor =>
      rw [combine, Nat.and_two_pow_sub_one_eq_mod, apply, BitVec.toNat_xor, BitVec.toNat_setWidth]
  | set =>
      rw [combine, Nat.and_two_pow_sub_one_eq_mod, apply, BitVec.toNat_or, BitVec.toNat_setWidth]

namespace LseState

variable {s : LseState} {wide : Bool} {rn r r' : Fin 32}

theorem toNat_data :
  (s.data wide rn).toNat = load s.mem (s.regs rn) (lseBytes wide)
  := by
  rw [data, BitVec.toNat_ofNat, ← pow_lseBytes]
  apply Nat.mod_eq_of_lt (load_lt _ _ _)

theorem toNat_lt (value : BitVec (8 * lseBytes wide)) :
  value.toNat < 256 ^ lseBytes wide
  := by
  rw [pow_lseBytes]
  apply value.isLt

theorem bytes_le (wide : Bool) :
  lseBytes wide ≤ 2 ^ 64
  := by
  cases wide <;> decide

/-- A word fits. -/
theorem lseStore_toNat (value : BitVec (8 * lseBytes wide)) :
  lseStore s.mem (s.regs rn) (lseBytes wide) value.toNat = some (s.storeData wide rn value)
  := if_pos (toNat_lt value)

theorem storeData_inj_iff {value other : BitVec (8 * lseBytes wide)} :
  s.storeData wide rn value = s.storeData wide rn other ↔ value = other
  := by
  rw [storeData, storeData, store_inj_iff (bytes_le wide) (toNat_lt _) (toNat_lt _)]
  apply BitVec.toNat_inj

theorem storeData_eq_self_iff {value : BitVec (8 * lseBytes wide)} :
  s.storeData wide rn value = s.mem ↔ value = s.data wide rn
  := by
  rw [storeData, store_eq_self_iff (bytes_le wide) (toNat_lt _), ← toNat_data]
  apply BitVec.toNat_inj

/-- What fits in a word is the word of its register. -/
theorem operand_of_lt (h : s.read r < 256 ^ lseBytes wide) :
  (s.operand wide r).toNat = s.read r
  := by
  rw [pow_lseBytes] at h
  rw [operand, BitVec.toNat_setWidth]
  apply Nat.mod_eq_of_lt h

theorem operand_congr (h : s.read r = s.read r') :
  s.operand wide r = s.operand wide r'
  := by
  rw [operand, BitVec.eq_of_toNat_eq h]
  rfl

/-- A register is stored when it fits. -/
theorem lseStore_read :
  lseStore s.mem (s.regs rn) (lseBytes wide) (s.read r)
    = if s.read r < 256 ^ lseBytes wide then some (s.storeData wide rn (s.operand wide r)) else none
  := by
  rw [lseStore]
  split
  next h => rw [storeData, operand_of_lt h]
  next => rfl

theorem write_data :
  s.write r (load s.mem (s.regs rn) (lseBytes wide)) = s.setData r (s.data wide rn)
  := by
  rw [write, setData, ← toNat_data, BitVec.ofNat_toNat]

theorem regs_eq_iff {value : BitVec (8 * lseBytes wide)} :
  s.regs r = value.setWidth 64 ↔ s.read r = value.toNat
  := by
  have hvalue : (value.setWidth 64).toNat = value.toNat := by
    rw [BitVec.toNat_setWidth]
    apply Nat.mod_eq_of_lt (Nat.lt_of_lt_of_le value.isLt _)
    cases wide <;> decide
  rw [read, ← hvalue]
  apply BitVec.toNat_inj.symm

/-- Two registers are set alike when they are one, or have the word. -/
theorem setData_eq_iff {value : BitVec (8 * lseBytes wide)} :
  s.setData r value = s.setData r' value
    ↔ r = r' ∨ (s.read r = value.toNat ∧ s.read r' = value.toNat)
  := by
  rw [← regs_eq_iff, ← regs_eq_iff]
  constructor
  · intro h
    by_cases heq : r = r'
    · left
      apply heq
    · right
      have hr := congrFun h r
      have hr' := congrFun h r'
      rw [setData, setData, Function.update_self, Function.update_of_ne heq] at hr
      rw [setData, setData, Function.update_self, Function.update_of_ne (Ne.symm heq)] at hr'
      exact ⟨hr.symm, hr'⟩
  · rintro (rfl | ⟨hr, hr'⟩)
    · rfl
    · rw [setData, setData, ← hr, Function.update_eq_self, hr, ← hr', Function.update_eq_self]

end LseState

/-! ### The handler and the processor -/

section Law

variable {disasm : Nat → BitVec 64 → Option (List Char)} {s : LseState}

/-- The mask of a word. -/
theorem lseMask (wide : Bool) :
  (1 <<< (lseBytes wide * 8)) - 1 = 2 ^ (8 * lseBytes wide) - 1
  := by
  rw [Nat.one_shiftLeft, Nat.mul_comm]

/-- The handler stores what the operation makes of the word and the register `Rt`. -/
theorem lseStore_combine (op : AtomicOp) (wide : Bool) (rn rt : Fin 32) :
  lseStore s.mem (s.regs rn) (lseBytes wide) (op.combine ((1 <<< (lseBytes wide * 8)) - 1)
      (load s.mem (s.regs rn) (lseBytes wide)) (s.read rt))
    = some (s.storeData wide rn (op.apply (s.data wide rn) (s.operand wide rt)))
  := by
  have hword := op.combine_eq (s.data wide rn) (s.regs rt)
  rw [LseState.toNat_data] at hword
  rw [lseMask, LseState.read, hword, ← LseState.operand, LseState.lseStore_toNat]

theorem order_lt (acquire release : Bool) :
  0b001000101 + acquire.toNat * 2 < 512 ∧ release.toNat * 32 + 0b011111 < 64
    ∧ 0b111000001 + acquire.toNat * 4 + release.toNat * 2 < 512
  := by
  cases acquire <;> cases release <;> decide

theorem opc_lt (op : AtomicOp) :
  op.opc * 4 < 64
  := by
  cases op <;> decide

theorem LseState.mk_inj_iff {regs regs' : Fin 32 → BitVec 64} {mem mem' : Memory 64}
    {pc : BitVec 64} :
  some (LseState.mk regs mem pc) = some (LseState.mk regs' mem' pc) ↔ regs = regs' ∧ mem = mem'
  := by
  rw [Option.some.injEq, LseState.mk.injEq, and_iff_left rfl]

theorem emulated_ld_iff (op : AtomicOp) (wide : Bool) (rs rn rt : Fin 31) :
  some (LseState.mk (s.setData rs.castSucc (s.data wide rn.castSucc))
      (s.storeData wide rn.castSucc
        (op.apply (s.data wide rn.castSucc) (s.operand wide rt.castSucc))) (s.pc + 4))
    = some (LseState.mk (s.setData rt.castSucc (s.data wide rn.castSucc))
      (s.storeData wide rn.castSucc
        (op.apply (s.data wide rn.castSucc) (s.operand wide rs.castSucc))) (s.pc + 4))
    ↔ rs = rt ∨ (s.read rs.castSucc = (s.data wide rn.castSucc).toNat
        ∧ s.read rt.castSucc = (s.data wide rn.castSucc).toNat)
  := by
  rw [LseState.mk_inj_iff, LseState.setData_eq_iff, LseState.storeData_inj_iff, Fin.castSucc_inj]
  apply and_iff_left_of_imp
  rintro (rfl | ⟨hrs, hrt⟩)
  · rfl
  · rw [LseState.operand_congr (hrt.trans hrs.symm)]

theorem emulated_swp_iff (wide : Bool) (rs rn rt : Fin 31) :
  ((lseStore s.mem (s.regs rn.castSucc) (lseBytes wide) (s.read rt.castSucc)).map fun mem =>
      LseState.mk (s.setData rs.castSucc (s.data wide rn.castSucc)) mem (s.pc + 4))
    = some (LseState.mk (s.setData rt.castSucc (s.data wide rn.castSucc))
      (s.storeData wide rn.castSucc (s.operand wide rs.castSucc)) (s.pc + 4))
    ↔ (rs = rt ∧ s.read rt.castSucc < 256 ^ lseBytes wide)
      ∨ (s.read rs.castSucc = (s.data wide rn.castSucc).toNat
        ∧ s.read rt.castSucc = (s.data wide rn.castSucc).toNat)
  := by
  rw [LseState.lseStore_read]
  split
  next hfits =>
    rw [Option.map_some, LseState.mk_inj_iff, LseState.setData_eq_iff, LseState.storeData_inj_iff,
      Fin.castSucc_inj, and_iff_left hfits]
    apply and_iff_left_of_imp
    rintro (rfl | ⟨hrs, hrt⟩)
    · rfl
    · rw [LseState.operand_congr (hrt.trans hrs.symm)]
  next hlarge =>
    constructor
    · intro h
      cases h
    · rintro (⟨-, hfits⟩ | ⟨-, hrt⟩)
      · apply absurd hfits hlarge
      · rw [hrt] at hlarge
        apply absurd (LseState.toNat_lt _) hlarge

/-- A register fits in a word of its size, or has no high bits. -/
theorem read_lt_iff {wide : Bool} {r : Fin 32} :
  s.read r < 256 ^ lseBytes wide ↔ wide = true ∨ s.read r < 2 ^ 32
  := by
  cases wide with
  | true => exact iff_of_true (s.regs r).isLt (.inl rfl)
  | false => exact (or_iff_right Bool.false_ne_true).symm

/-- A register has the word when it fits and its word is the same. -/
theorem toNat_data_eq_iff {wide : Bool} {rn r : Fin 32} :
  (s.data wide rn).toNat = s.read r
    ↔ s.data wide rn = s.operand wide r ∧ s.read r < 256 ^ lseBytes wide
  := by
  constructor
  · intro h
    have hfits : s.read r < 256 ^ lseBytes wide := by
      rw [← h]
      apply LseState.toNat_lt
    constructor
    · apply BitVec.eq_of_toNat_eq
      rw [LseState.operand_of_lt hfits, h]
    · apply hfits
  · rintro ⟨h, hfits⟩
    rw [h, LseState.operand_of_lt hfits]

theorem emulated_cas_iff (wide : Bool) (rs rn rt : Fin 31) :
  (((if (s.data wide rn.castSucc).toNat = s.read rs.castSucc then
          lseStore s.mem (s.regs rn.castSucc) (lseBytes wide) (s.read rt.castSucc)
        else some s.mem).map fun mem =>
      LseState.mk (s.setData rs.castSucc (s.data wide rn.castSucc)) mem (s.pc + 4))
    = some (LseState.mk (s.setData rs.castSucc (s.data wide rn.castSucc))
      (if s.data wide rn.castSucc = s.operand wide rs.castSucc then
          s.storeData wide rn.castSucc (s.operand wide rt.castSucc)
        else s.mem) (s.pc + 4)))
    ↔ wide = true ∨ s.data wide rn.castSucc ≠ s.operand wide rs.castSucc
      ∨ (s.read rs.castSucc < 2 ^ 32 ∧ s.read rt.castSucc < 2 ^ 32)
      ∨ (2 ^ 32 ≤ s.read rs.castSucc ∧ s.operand wide rt.castSucc = s.data wide rn.castSucc)
  := by
  rw [← Nat.not_lt (a := s.read rs.castSucc)]
  by_cases hsame : s.data wide rn.castSucc = s.operand wide rs.castSucc
  · rw [if_pos hsame]
    by_cases hrs : s.read rs.castSucc < 256 ^ lseBytes wide
    · rw [if_pos (toNat_data_eq_iff.mpr ⟨hsame, hrs⟩), LseState.lseStore_read]
      rw [read_lt_iff] at hrs
      split
      next hrt =>
        rw [read_lt_iff] at hrt
        apply iff_of_true rfl
        tauto
      next hrt =>
        rw [read_lt_iff] at hrt
        apply iff_of_false
        · intro h
          cases h
        · tauto
    · have hread : ¬ (s.data wide rn.castSucc).toNat = s.read rs.castSucc :=
        fun h => hrs (toNat_data_eq_iff.mp h).2
      rw [if_neg hread, Option.map_some, LseState.mk_inj_iff, and_iff_right rfl, eq_comm,
        LseState.storeData_eq_self_iff]
      rw [read_lt_iff] at hrs
      tauto
  · have hread : ¬ (s.data wide rn.castSucc).toNat = s.read rs.castSucc :=
      fun h => hsame (toNat_data_eq_iff.mp h).1
    rw [if_neg hread, if_neg hsame]
    exact iff_of_true rfl (.inr (.inl hsame))

/-- The handler does what the instruction does exactly when `Emulated` holds of the state. -/
theorem handleLseIntr_iff (hdisasm : NamesLse disasm) (i : LseInstr)
    (hfetch : load s.mem s.pc 4 = i.encode) :
  handleLseIntr disasm s = some (i.execute s) ↔ i.Emulated s
  := by
  have hname : disasm (load s.mem s.pc 4) s.pc = some i.mnemonic := by
    rw [hfetch]
    apply hdisasm
  cases i with
  | cas wide acquire release rs rn rt =>
      obtain ⟨horder, hoperation, -⟩ := order_lt acquire release
      rw [handleLseIntr_word hname hfetch horder hoperation (by omega), ofNat_castSucc,
        LseInstr.mnemonic, lseBranches_cas, LseState.write_data, ← LseState.toNat_data,
        Option.map_map]
      apply emulated_cas_iff
  | swp wide acquire release rs rn rt =>
      obtain ⟨-, -, horder⟩ := order_lt acquire release
      rw [handleLseIntr_word hname hfetch horder (by decide) (by omega), ofNat_castSucc,
        LseInstr.mnemonic, lseBranches_swp, LseState.write_data, Option.map_map]
      apply emulated_swp_iff
  | ld op wide acquire release rs rn rt =>
      obtain ⟨-, -, horder⟩ := order_lt acquire release
      rw [handleLseIntr_word hname hfetch horder (opc_lt op) (by omega), ofNat_castSucc,
        LseInstr.mnemonic, lseBranches_ld, LseState.write_data, lseStore_combine]
      apply emulated_ld_iff
  | st op wide release rs rn =>
      obtain ⟨-, -, horder⟩ := order_lt false release
      rw [handleLseIntr_word hname hfetch horder (opc_lt op) (by decide), LseInstr.mnemonic,
        lseBranches_st, lseStore_combine]
      apply LseState.mk_inj_iff.trans
      rw [and_iff_right rfl]
      apply LseState.storeData_inj_iff

end Law

/-! ### A disassembler -/

/-- The name for the fields of an instruction. -/
def lseName (order operation rt : Nat) : Option (List Char) :=
  if (order = 0b001000101 ∨ order = 0b001000111) ∧ operation % 32 = 0b011111 then
    some ("cas".toList ++ orderSuffix (order = 0b001000111) (operation / 32 = 1))
  else if order / 8 = 0b111000 ∧ order % 2 = 1 then
    let acquire : Bool := order / 4 % 2 = 1
    let release : Bool := order / 2 % 2 = 1
    if operation = 0b100000 then some ("swp".toList ++ orderSuffix acquire release)
    else
      ([.add, .clr, .eor, .set].find? fun op : AtomicOp => op.opc * 4 = operation).map fun op =>
        (if rt = 31 ∧ acquire = false then "st".toList else "ld".toList) ++ op.mnemonic.toList
          ++ orderSuffix acquire release
  else none

/-- A disassembler for the atomic instructions. -/
def lseDisasm (insn : Nat) (_ : BitVec 64) : Option (List Char) :=
  lseName (insn / 2 ^ 21 % 2 ^ 9) (insn / 2 ^ 10 % 2 ^ 6) (insn % 2 ^ 5)

theorem lseDisasm_word {wide : Bool} {order rs operation rn rt : Nat} (pc : BitVec 64)
    (horder : order < 512) (hrs : rs < 32) (hoperation : operation < 64) (hrn : rn < 32)
    (hrt : rt < 32) :
  lseDisasm (lseWord wide order rs operation rn rt) pc = lseName order operation rt
  := by
  have horder' : lseWord wide order rs operation rn rt / 2 ^ 21 % 2 ^ 9 = order := by
    rw [lseWord]
    split <;> omega
  have hoperation' : lseWord wide order rs operation rn rt / 2 ^ 10 % 2 ^ 6 = operation := by
    rw [lseWord]
    omega
  have hrt' : lseWord wide order rs operation rn rt % 2 ^ 5 = rt := by
    rw [lseWord]
    omega
  rw [lseDisasm, horder', hoperation', hrt']

theorem namesLse_lseDisasm :
  NamesLse lseDisasm
  := by
  intro i pc
  cases i with
  | cas wide acquire release rs rn rt =>
      obtain ⟨horder, hoperation, -⟩ := order_lt acquire release
      rw [LseInstr.encode, lseDisasm_word pc horder (by omega) hoperation (by omega) (by omega)]
      cases acquire <;> cases release <;> rfl
  | swp wide acquire release rs rn rt =>
      obtain ⟨-, -, horder⟩ := order_lt acquire release
      rw [LseInstr.encode, lseDisasm_word pc horder (by omega) (by decide) (by omega) (by omega)]
      cases acquire <;> cases release <;> rfl
  | ld op wide acquire release rs rn rt =>
      obtain ⟨-, -, horder⟩ := order_lt acquire release
      have hrt : (rt : Nat) ≠ 31 := Nat.ne_of_lt rt.isLt
      rw [LseInstr.encode, lseDisasm_word pc horder (by omega) (opc_lt op) (by omega) (by omega)]
      cases op <;> cases acquire <;> cases release <;> simp [lseName, hrt] <;> rfl
  | st op wide release rs rn =>
      have horder : 0b111000001 + release.toNat * 2 < 512 := (order_lt false release).2.2
      rw [LseInstr.encode, lseDisasm_word pc horder (by omega) (opc_lt op) (by omega) (by omega)]
      cases op <;> cases release <;> rfl

/-- An instruction in front of the processor, the word 5 at the address 256 in `x2`, and `x0`. -/
def lseStart (i : LseInstr) (x0 : BitVec 64) : LseState where
  regs := Function.update (Function.update (fun _ => 0) 2 256) 0 x0
  mem := store (store (fun _ => 0) 256 8 5) 0 4 i.encode
  pc := 0

/-- `ldadd x0, x0, [x2]` adds the register to the word. -/
theorem handleLseIntr_oneRegister :
  handleLseIntr lseDisasm (lseStart (.ld .add true false false 0 2 0) 3)
    = some ((LseInstr.ld .add true false false 0 2 0).execute
      (lseStart (.ld .add true false false 0 2 0) 3))
  := (handleLseIntr_iff namesLse_lseDisasm _ (by decide +kernel)).mpr (.inl rfl)

/-- `ldadd x0, x1, [x2]` with 1 in `x0` gives the old word to the wrong register. -/
theorem not_handleLseIntr_ldadd :
  ¬ ∀ (disasm : Nat → BitVec 64 → Option (List Char)) (i : LseInstr) (s : LseState),
    NamesLse disasm → load s.mem s.pc 4 = i.encode → handleLseIntr disasm s = some (i.execute s)
  := by
  intro h
  have hstep := h lseDisasm (.ld .add true false false 0 2 1)
    (lseStart (.ld .add true false false 0 2 1) 1) namesLse_lseDisasm (by decide +kernel)
  have hregs := congrArg (Option.map fun t => t.regs 1) hstep
  revert hregs
  decide +kernel

end Ssc
