import Mathlib.Algebra.Group.Int.Defs
import SscOnWindows.Lib.ByteStream

/-!
# Packed records

A format lists the fields of a record: byte strings of a fixed size and unsigned integers in
little-endian order.  `pack` writes the values of a format one behind the other, where every integer
is in the range of its field; a byte string is cut or filled with zeros.  `unpackFrom` reads them at
an offset of a buffer, where there are enough bytes.

What has been packed is read back wherever it stands in a buffer, if its byte strings have the sizes
of their fields.
-/

namespace Struct

open ByteStream

/-! ### Unsigned integers -/

/-- The `size` lowest bytes of `n`, the least significant one first. -/
def le : ℕ → ℕ → List UInt8
  | 0, _ => []
  | size + 1, n => UInt8.ofNat n :: le size (n / 256)

@[simp]
theorem length_le (size n : ℕ) :
  (le size n).length = size
  := by
  induction size generalizing n with
  | zero => rfl
  | succ size ih => rw [le, List.length_cons, ih]

theorem ofLe_le (size n : ℕ) :
  ofLe (le size n) = n % 256 ^ size
  := by
  induction size generalizing n with
  | zero => rw [pow_zero, Nat.mod_one, le, ofLe]
  | succ size ih =>
      rw [le, ofLe, ih, UInt8.toNat_ofNat', pow_succ' 256, Nat.mod_mul]
      rfl

/-! ### Fields -/

/-- A byte string of a size, or an unsigned integer of a number of bytes. -/
inductive Field where
  | string (size : ℕ)
  | unsigned (size : ℕ)
  deriving DecidableEq, Repr

namespace Field

/-- The values of a field. -/
@[reducible] def Value : Field → Type
  | string _ => List UInt8
  | unsigned _ => ℤ

/-- The number of bytes of a field. -/
def size : Field → ℕ
  | string size => size
  | unsigned size => size

/-- The value can be packed. -/
def InRange : (f : Field) → f.Value → Prop
  | string _, _ => True
  | unsigned size, i => 0 ≤ i ∧ i < 256 ^ size

instance : (f : Field) → (v : f.Value) → Decidable (f.InRange v)
  | string _, _ => inferInstanceAs (Decidable True)
  | unsigned _, _ => inferInstanceAs (Decidable (_ ∧ _))

/-- A byte string has the size of its field. -/
def Whole : (f : Field) → f.Value → Prop
  | string size, s => s.length = size
  | unsigned _, _ => True

/-- The bytes of a value. -/
def pack : (f : Field) → f.Value → Option (List UInt8)
  | string size, s => some ((s ++ List.replicate size 0).take size)
  | unsigned size, i => if 0 ≤ i ∧ i < 256 ^ size then some (le size i.toNat) else none

/-- The value of the bytes. -/
def unpack : (f : Field) → List UInt8 → f.Value
  | string _, bytes => bytes
  | unsigned _, bytes => ofLe bytes

variable {f : Field} {v : f.Value} {bytes : List UInt8}

theorem length_pack (h : f.pack v = some bytes) :
  bytes.length = f.size
  := by
  cases f with
  | string size =>
      obtain rfl := Option.some.inj h
      simp [Field.size]
  | unsigned size =>
      rw [pack] at h
      split at h
      · obtain rfl := Option.some.inj h
        apply length_le
      · cases h

theorem exists_pack_iff :
  (∃ bytes, f.pack v = some bytes) ↔ f.InRange v
  := by
  cases f with
  | string size => exact ⟨fun _ => trivial, fun _ => ⟨_, rfl⟩⟩
  | unsigned size =>
      rw [pack, InRange]
      split
      next hrange => exact ⟨fun _ => hrange, fun _ => ⟨_, rfl⟩⟩
      next hrange => simp [hrange]

theorem unpack_pack (h : f.pack v = some bytes) (hwhole : f.Whole v) :
  f.unpack bytes = v
  := by
  cases f with
  | string size =>
      obtain rfl := Option.some.inj h
      apply List.take_left' hwhole
  | unsigned size =>
      rw [pack] at h
      split at h
      next hrange =>
        obtain rfl := Option.some.inj h
        obtain ⟨hlow, hhigh⟩ := hrange
        have hlt : v.toNat < 256 ^ size := by
          apply (Int.toNat_lt hlow).mpr
          rw [Nat.cast_pow]
          apply hhigh
        rw [unpack, ofLe_le, Nat.mod_eq_of_lt hlt, Int.toNat_of_nonneg hlow]
      next => cases h

end Field

/-! ### Formats -/

/-- The values of the fields. -/
@[reducible] def Values : List Field → Type
  | [] => Unit
  | f :: fs => f.Value × Values fs

/-- The number of bytes of a format. -/
def calcsize (fs : List Field) : ℕ := (fs.map Field.size).sum

/-- All values can be packed. -/
def InRange : (fs : List Field) → Values fs → Prop
  | [], _ => True
  | f :: fs, (v, vs) => f.InRange v ∧ InRange fs vs

/-- All byte strings have the sizes of their fields. -/
def Whole : (fs : List Field) → Values fs → Prop
  | [], _ => True
  | f :: fs, (v, vs) => f.Whole v ∧ Whole fs vs

/-- The bytes of the values. -/
def pack : (fs : List Field) → Values fs → Option (List UInt8)
  | [], _ => some []
  | f :: fs, (v, vs) => (f.pack v).bind fun bytes => (pack fs vs).map (bytes ++ ·)

/-- The values that begin the bytes. -/
def unpack : (fs : List Field) → List UInt8 → Values fs
  | [], _ => ()
  | f :: fs, bytes => (f.unpack (bytes.take f.size), unpack fs (bytes.drop f.size))

/-- The values at an offset of a buffer, which has to hold all their bytes. -/
def unpackFrom (fs : List Field) (buffer : List UInt8) (offset : ℕ) : Option (Values fs) :=
  if offset + calcsize fs ≤ buffer.length then some (unpack fs (buffer.drop offset)) else none

variable {fs : List Field} {vs : Values fs} {bytes : List UInt8}

theorem length_pack (h : pack fs vs = some bytes) :
  bytes.length = calcsize fs
  := by
  induction fs generalizing bytes with
  | nil =>
      obtain rfl := Option.some.inj h
      rfl
  | cons f fs ih =>
      obtain ⟨first, hfirst, hmap⟩ := Option.bind_eq_some_iff.mp h
      obtain ⟨rest, hrest, rfl⟩ := Option.map_eq_some_iff.mp hmap
      rw [List.length_append, Field.length_pack hfirst, ih hrest]
      rfl

theorem exists_pack_iff :
  (∃ bytes, pack fs vs = some bytes) ↔ InRange fs vs
  := by
  induction fs with
  | nil => exact ⟨fun _ => trivial, fun _ => ⟨[], rfl⟩⟩
  | cons f fs ih =>
      constructor
      · rintro ⟨bytes, h⟩
        obtain ⟨first, hfirst, hmap⟩ := Option.bind_eq_some_iff.mp h
        obtain ⟨rest, hrest, -⟩ := Option.map_eq_some_iff.mp hmap
        exact ⟨Field.exists_pack_iff.mp ⟨first, hfirst⟩, ih.mp ⟨rest, hrest⟩⟩
      · rintro ⟨hvalue, hvalues⟩
        obtain ⟨first, hfirst⟩ := Field.exists_pack_iff.mpr hvalue
        obtain ⟨rest, hrest⟩ := ih.mpr hvalues
        use first ++ rest
        rw [pack, hfirst, hrest]
        rfl

/-- The values are read back in front of anything. -/
theorem unpack_pack (h : pack fs vs = some bytes) (hwhole : Whole fs vs) (after : List UInt8) :
  unpack fs (bytes ++ after) = vs
  := by
  induction fs generalizing bytes with
  | nil => rfl
  | cons f fs ih =>
      obtain ⟨first, hfirst, hmap⟩ := Option.bind_eq_some_iff.mp h
      obtain ⟨rest, hrest, rfl⟩ := Option.map_eq_some_iff.mp hmap
      have hlength := Field.length_pack hfirst
      rw [unpack, List.append_assoc, List.take_left' hlength, List.drop_left' hlength,
        Field.unpack_pack hfirst hwhole.1, ih hrest hwhole.2]

/-- The values are read back wherever they stand. -/
theorem unpackFrom_pack (h : pack fs vs = some bytes) (hwhole : Whole fs vs)
    (before after : List UInt8) :
  unpackFrom fs (before ++ (bytes ++ after)) before.length = some vs
  := by
  have hlength := length_pack h
  rw [unpackFrom, List.drop_left, unpack_pack h hwhole, if_pos]
  rw [List.length_append, List.length_append, hlength]
  omega

end Struct
