import Mathlib.Algebra.Group.Int.Defs
import Mathlib.Data.List.Sort
import Mathlib.Data.String.Basic

/-!
# JSON documents

A document holds its strings as bytes, which need not be UTF-8; the keys of its objects are texts,
in ascending order where the document is built by `mkObject`.  Numbers that are not integers are
of a type `F`.

A `JsonLibrary` prints documents, parses them and reads members of objects.  What a program that
uses one relies on is `JsonLibrary.Lawful`.
-/

/-- A JSON document. -/
inductive Json (F : Type) where
  | null
  | boolean (b : Bool)
  | integer (i : Int)
  | float (x : F)
  | string (s : List UInt8)
  | array (items : List (Json F))
  | object (members : List (String × Json F))

namespace Json

variable {F : Type}

/-! ### Members of objects -/

/-- The object with the members, which have distinct keys. -/
def mkObject (members : List (String × Json F)) : Json F :=
  object (members.insertionSort (fun a b => a.1 ≤ b.1))

/-- The member with the key. -/
def find? (key : String) : Json F → Option (Json F)
  | object members => members.lookup key
  | _ => none

/-- The document is an object. -/
def isObject : Json F → Bool
  | object _ => true
  | _ => false

/-- The value of a key is the one it stands beside, where keys are distinct. -/
theorem lookup_eq_some_iff {members : List (String × Json F)} {key : String} {v : Json F}
    (hkeys : (members.map Prod.fst).Nodup) :
  members.lookup key = some v ↔ (key, v) ∈ members
  := by
  induction members with
  | nil => simp
  | cons m members ih =>
      obtain ⟨k, w⟩ := m
      rw [List.map_cons, List.nodup_cons] at hkeys
      rw [List.lookup_cons, List.mem_cons, Prod.mk.injEq]
      by_cases hk : key = k
      · subst hk
        have hnot : (key, v) ∉ members := by
          intro hmem
          apply hkeys.1
          apply List.mem_map_of_mem hmem
        simp [hnot, eq_comm]
      · rw [show (key == k) = false by simpa using hk]
        simpa [hk] using ih hkeys.2

/-- The members of an object are looked up among those it is made of. -/
theorem find?_mkObject {members : List (String × Json F)}
    (hkeys : (members.map Prod.fst).Nodup) (key : String) :
  (mkObject members).find? key = members.lookup key
  := by
  have hperm := List.perm_insertionSort (fun a b : String × Json F => a.1 ≤ b.1) members
  have hsorted : ((members.insertionSort fun a b => a.1 ≤ b.1).map Prod.fst).Nodup :=
    (hperm.map Prod.fst).nodup_iff.mpr hkeys
  rw [mkObject, find?]
  ext v
  rw [lookup_eq_some_iff hsorted, lookup_eq_some_iff hkeys]
  apply hperm.mem_iff

/-- An object has the members it is made of. -/
theorem find?_mkObject_of_mem {members : List (String × Json F)} {key : String} {v : Json F}
    (hkeys : (members.map Prod.fst).Nodup) (hmem : (key, v) ∈ members) :
  (mkObject members).find? key = some v
  := by
  rw [find?_mkObject hkeys]
  apply (lookup_eq_some_iff hkeys).mpr hmem

/-! ### Properties of every node -/

mutual

/-- Every node of the document has the property. -/
def all (p : Json F → Bool) : Json F → Bool
  | null => p null
  | boolean b => p (boolean b)
  | integer i => p (integer i)
  | float x => p (float x)
  | string s => p (string s)
  | array items => p (array items) && allItems p items
  | object members => p (object members) && allMembers p members

/-- Every node of the documents has the property. -/
def allItems (p : Json F → Bool) : List (Json F) → Bool
  | [] => true
  | item :: items => all p item && allItems p items

/-- Every node of the values has the property. -/
def allMembers (p : Json F → Bool) : List (String × Json F) → Bool
  | [] => true
  | (_, v) :: members => all p v && allMembers p members

end

theorem all_array (p : Json F → Bool) (items : List (Json F)) :
  (array items).all p = (p (array items) && items.all (all p))
  := by
  rw [all]
  congr 1
  induction items with
  | nil => rfl
  | cons item items ih => rw [allItems, List.all_cons, ih]

theorem all_object (p : Json F → Bool) (members : List (String × Json F)) :
  (object members).all p = (p (object members) && members.all (fun m => m.2.all p))
  := by
  rw [all]
  congr 1
  induction members with
  | nil => rfl
  | cons m members ih => rw [allMembers, List.all_cons, ih]

theorem all_mkObject (p : Json F → Bool) (members : List (String × Json F)) :
  (mkObject members).all p = (p (mkObject members) && members.all (fun m => m.2.all p))
  := by
  rw [mkObject, all_object]
  congr 1
  apply (List.perm_insertionSort _ members).all_eq

/-- A member of a document has the properties of its nodes. -/
theorem all_find? {p : Json F → Bool} {j v : Json F} {key : String} (hall : j.all p = true)
    (hfind : j.find? key = some v) :
  v.all p = true
  := by
  cases j with
  | object members =>
      rw [all_object, Bool.and_eq_true, List.all_eq_true] at hall
      obtain ⟨l, r, hsplit, -⟩ := List.lookup_eq_some_iff.mp hfind
      apply hall.2 (key, v)
      rw [hsplit]
      apply List.mem_append_right _ List.mem_cons_self
  | _ => simp [find?] at hfind

/-! ### Documents that can be printed -/

/-- The bytes are UTF-8. -/
def IsUtf8 (bytes : List UInt8) : Prop :=
  (ByteArray.mk bytes.toArray).IsValidUTF8

instance (bytes : List UInt8) : Decidable (IsUtf8 bytes) :=
  inferInstanceAs (Decidable (ByteArray.IsValidUTF8 _))

/-- The bytes of a text. -/
def utf8 (text : String) : List UInt8 :=
  text.toByteArray.data.toList

theorem isUtf8_utf8 (text : String) :
  IsUtf8 (utf8 text)
  := text.isValidUTF8

theorem isUtf8_nil :
  IsUtf8 []
  := ByteArray.isValidUTF8_empty

/-- The strings of the document are UTF-8. -/
def Utf8 (j : Json F) : Prop :=
  j.all (fun
    | string s => decide (IsUtf8 s)
    | _ => true) = true

instance (j : Json F) : Decidable j.Utf8 :=
  inferInstanceAs (Decidable (_ = true))

@[simp]
theorem utf8_string (s : List UInt8) :
  (string s : Json F).Utf8 ↔ IsUtf8 s
  := decide_eq_true_iff

@[simp]
theorem utf8_integer (i : Int) :
  (integer i : Json F).Utf8
  := rfl

@[simp]
theorem utf8_boolean (b : Bool) :
  (boolean b : Json F).Utf8
  := rfl

@[simp]
theorem utf8_array (items : List (Json F)) :
  (array items).Utf8 ↔ ∀ item ∈ items, item.Utf8
  := by
  rw [Utf8, all_array, Bool.true_and, List.all_eq_true]
  rfl

@[simp]
theorem utf8_object (members : List (String × Json F)) :
  (object members).Utf8 ↔ ∀ m ∈ members, m.2.Utf8
  := by
  rw [Utf8, all_object, Bool.true_and, List.all_eq_true]
  rfl

@[simp]
theorem utf8_mkObject (members : List (String × Json F)) :
  (mkObject members).Utf8 ↔ ∀ m ∈ members, m.2.Utf8
  := by
  rw [Utf8, all_mkObject, mkObject, Bool.true_and, List.all_eq_true]
  rfl

theorem Utf8.find? {j v : Json F} {key : String} (h : j.Utf8) (hfind : j.find? key = some v) :
  v.Utf8
  := all_find? h hfind

/-- The document has 64-bit integers as its numbers, and its objects have their keys in ascending
order. -/
def Plain (j : Json F) : Prop :=
  j.all (fun
    | integer i => decide (-2 ^ 63 ≤ i ∧ i < 2 ^ 64)
    | float _ => false
    | object members => decide ((members.map Prod.fst).Pairwise (· < ·))
    | _ => true) = true

@[simp]
theorem plain_string (s : List UInt8) :
  (string s : Json F).Plain
  := rfl

@[simp]
theorem plain_boolean (b : Bool) :
  (boolean b : Json F).Plain
  := rfl

@[simp]
theorem plain_integer (i : Int) :
  (integer i : Json F).Plain ↔ -2 ^ 63 ≤ i ∧ i < 2 ^ 64
  := decide_eq_true_iff

@[simp]
theorem plain_array (items : List (Json F)) :
  (array items).Plain ↔ ∀ item ∈ items, item.Plain
  := by
  rw [Plain, all_array, Bool.true_and, List.all_eq_true]
  rfl

/-- An object that is made of members with distinct keys is plain if they are. -/
theorem plain_mkObject {members : List (String × Json F)}
    (hkeys : (members.map Prod.fst).Nodup) (hmembers : ∀ m ∈ members, m.2.Plain) :
  (mkObject members).Plain
  := by
  rw [Plain, all_mkObject, Bool.and_eq_true, List.all_eq_true]
  constructor
  · have hle := List.pairwise_insertionSort (fun a b : String × Json F => a.1 ≤ b.1) members
    have hperm := List.perm_insertionSort (fun a b : String × Json F => a.1 ≤ b.1) members
    have hnodup : ((members.insertionSort fun a b => a.1 ≤ b.1).map Prod.fst).Nodup :=
      (hperm.map Prod.fst).nodup_iff.mpr hkeys
    have hle' : ((members.insertionSort fun a b => a.1 ≤ b.1).map Prod.fst).Pairwise (· ≤ ·) := by
      rw [List.pairwise_map]
      apply hle
    apply decide_eq_true
    apply (hle'.and hnodup).imp
    rintro a b ⟨hab, hne⟩
    apply lt_of_le_of_ne hab hne
  · apply hmembers

/-! ### Types of values -/

/-- The types a member of an object is read as. -/
inductive ValueType where
  | string
  | boolean
  | uint32
  | int
  deriving DecidableEq

/-- The values of a type. -/
abbrev ValueType.Carrier : ValueType → Type
  | string => List UInt8
  | boolean => Bool
  | uint32 => UInt32
  | int => Int32

/-- A document is read as a value of the type.  For the types of numbers it is a number or a
boolean. -/
def ValueType.admits : ValueType → Json F → Bool
  | string, .string _ => true
  | boolean, .boolean _ => true
  | uint32, .integer _ => true
  | uint32, .float _ => true
  | uint32, .boolean _ => true
  | int, .integer _ => true
  | int, .float _ => true
  | int, .boolean _ => true
  | _, _ => false

/-- The member with the key, if there is one, is read as a value of the type. -/
def admits (j : Json F) (key : String) (type : ValueType) : Bool :=
  (j.find? key).all type.admits

/-- The document is an object, and its members that are listed are of the types. -/
def typed (types : List (String × ValueType)) (j : Json F) : Bool :=
  j.isObject && types.all (fun t => j.admits t.1 t.2)

end Json

/-! ### Libraries -/

open Json

/-- What a JSON library throws. -/
inductive JsonError where
  | parseError
  | typeError
  | outOfRange
  deriving DecidableEq

/-- What a program uses of a JSON library: `parse` of a whole text, `read` of the document a text
starts with, `dump` with an indentation, and the `value` of a member with a default. -/
structure JsonLibrary (F : Type) where
  parse : List UInt8 → Except JsonError (Json F)
  read : List UInt8 → Except JsonError (Json F)
  dump : Json F → Except JsonError (List UInt8)
  value : (type : ValueType) → Json F → String → type.Carrier → Except JsonError type.Carrier

/-- A computation returns if its first step does and then the rest. -/
theorem exists_bind_ok_iff {α β : Type} (x : Except JsonError α) (f : α → Except JsonError β) :
  (∃ b, x >>= f = .ok b) ↔ ∃ a, x = .ok a ∧ ∃ b, f a = .ok b
  := by
  cases x with
  | error e => simp [bind, Except.bind]
  | ok a => simp [bind, Except.bind]

theorem exists_pure_ok {α : Type} (a : α) :
  ∃ b, (pure a : Except JsonError α) = .ok b
  := ⟨a, rfl⟩

namespace JsonLibrary

variable {F : Type}

/-- What a program relies on.  `dump` throws if and only if a string is not UTF-8; what it prints
is parsed and read back, also with a line feed behind it; an empty text is no document, and a
document that is parsed has strings that are UTF-8.  `value` throws if and only if the document is
no object or the member is not of the type, it is the default if there is no member, and a member
that fits the type exactly is kept. -/
structure Lawful (lib : JsonLibrary F) : Prop where
  dump_ok_iff : ∀ j, (∃ text, lib.dump j = .ok text) ↔ j.Utf8
  parse_dump : ∀ j text, j.Plain → lib.dump j = .ok text → lib.parse (text ++ [10]) = .ok j
  read_dump : ∀ j text, j.Plain → lib.dump j = .ok text → lib.read (text ++ [10]) = .ok j
  parse_nil : lib.parse [] = .error .parseError
  read_nil : lib.read [] = .error .parseError
  parse_utf8 : ∀ text j, lib.parse text = .ok j → j.Utf8
  value_ok_iff : ∀ type j key default,
    (∃ v, lib.value type j key default = .ok v) ↔ j.isObject = true ∧ j.admits key type = true
  value_missing : ∀ type j key default, j.isObject = true → j.find? key = none →
    lib.value type j key default = .ok default
  value_string : ∀ j key default s, j.find? key = some (.string s) →
    lib.value .string j key default = .ok s
  value_boolean : ∀ j key default b, j.find? key = some (.boolean b) →
    lib.value .boolean j key default = .ok b
  value_uint32 : ∀ j key default (n : UInt32), j.find? key = some (.integer n.toNat) →
    lib.value .uint32 j key default = .ok n
  value_int : ∀ j key default (n : Int32), j.find? key = some (.integer n.toInt) →
    lib.value .int j key default = .ok n

variable {lib : JsonLibrary F}

/-- A string that is read from a document whose strings are UTF-8 is UTF-8 if the default is. -/
theorem Lawful.isUtf8_value (hlib : lib.Lawful) {j : Json F} (hj : j.Utf8) {key : String}
    {default s : List UInt8} (hdefault : IsUtf8 default)
    (hvalue : lib.value .string j key default = .ok s) :
  IsUtf8 s
  := by
  obtain ⟨hobject, hadmits⟩ := (hlib.value_ok_iff .string j key default).mp ⟨s, hvalue⟩
  cases hfind : j.find? key with
  | none =>
      rw [hlib.value_missing .string j key default hobject hfind] at hvalue
      obtain rfl := Except.ok.inj hvalue
      apply hdefault
  | some v =>
      rw [admits, hfind, Option.all_some] at hadmits
      cases v with
      | string t =>
          rw [hlib.value_string j key default t hfind] at hvalue
          obtain rfl := Except.ok.inj hvalue
          rw [← utf8_string (F := F)]
          apply hj.find? hfind
      | _ => simp [ValueType.admits] at hadmits

/-! A member of an object is read as it is. -/

theorem Lawful.value_string_of_mem (hlib : lib.Lawful) {members : List (String × Json F)}
    (hkeys : (members.map Prod.fst).Nodup) (key : String) (v : List UInt8)
    (hmem : (key, .string v) ∈ members) (default : List UInt8) :
  lib.value .string (mkObject members) key default = .ok v
  := by
  apply hlib.value_string
  apply find?_mkObject_of_mem hkeys hmem

theorem Lawful.value_boolean_of_mem (hlib : lib.Lawful) {members : List (String × Json F)}
    (hkeys : (members.map Prod.fst).Nodup) (key : String) (v : Bool)
    (hmem : (key, .boolean v) ∈ members) (default : Bool) :
  lib.value .boolean (mkObject members) key default = .ok v
  := by
  apply hlib.value_boolean
  apply find?_mkObject_of_mem hkeys hmem

theorem Lawful.value_uint32_of_mem (hlib : lib.Lawful) {members : List (String × Json F)}
    (hkeys : (members.map Prod.fst).Nodup) (key : String) (v : UInt32)
    (hmem : (key, .integer v.toNat) ∈ members) (default : UInt32) :
  lib.value .uint32 (mkObject members) key default = .ok v
  := by
  apply hlib.value_uint32
  apply find?_mkObject_of_mem hkeys hmem

theorem Lawful.value_int_of_mem (hlib : lib.Lawful) {members : List (String × Json F)}
    (hkeys : (members.map Prod.fst).Nodup) (key : String) (v : Int32)
    (hmem : (key, .integer v.toInt) ∈ members) (default : Int32) :
  lib.value .int (mkObject members) key default = .ok v
  := by
  apply hlib.value_int
  apply find?_mkObject_of_mem hkeys hmem

/-- The value of a member, and the default where it cannot be read. -/
def valueOr (lib : JsonLibrary F) (type : ValueType) (j : Json F) (key : String)
    (default : type.Carrier) : type.Carrier :=
  match lib.value type j key default with
  | .ok v => v
  | .error _ => default

/-- A member of the type is read. -/
theorem Lawful.value_eq_ok (hlib : lib.Lawful) {type : ValueType} {j : Json F} {key : String}
    (default : type.Carrier) (hobject : j.isObject = true) (hadmits : j.admits key type = true) :
  lib.value type j key default = .ok (lib.valueOr type j key default)
  := by
  obtain ⟨v, hv⟩ := (hlib.value_ok_iff type j key default).mpr ⟨hobject, hadmits⟩
  rw [valueOr, hv]

/-- A member of a document that has the types is read. -/
theorem Lawful.value_of_typed (hlib : lib.Lawful) {types : List (String × ValueType)}
    {j : Json F} (htyped : j.typed types = true) {type : ValueType} {key : String}
    (hmem : (key, type) ∈ types) (default : type.Carrier) :
  lib.value type j key default = .ok (lib.valueOr type j key default)
  := by
  rw [typed, Bool.and_eq_true, List.all_eq_true] at htyped
  apply hlib.value_eq_ok default htyped.1
  apply htyped.2 _ hmem

/-- A string of a document whose strings are UTF-8 is UTF-8 if the default is. -/
theorem Lawful.isUtf8_valueOr (hlib : lib.Lawful) {j : Json F} (hj : j.Utf8) (key : String)
    {default : List UInt8} (hdefault : IsUtf8 default) :
  IsUtf8 (lib.valueOr .string j key default)
  := by
  rw [valueOr]
  split
  case h_1 s hs => apply hlib.isUtf8_value hj hdefault hs
  case h_2 => apply hdefault

end JsonLibrary
