import Mathlib.Data.Fin.VecNotation
import Mathlib.Data.List.Forall2
import SscOnWindows.Service.KeyCodec

/-!
# The link key in the profiles of its device

When a device is connected its key goes from the database into the profiles.
`persist_link_key` compares the text of each profile with the address of the device as
`format_address` writes it, and leaves at the first profile it finds.  A session finds the
device of its profile by `parse_address`, which reads an address in either case; so a device may
have profiles that do not get its key.
-/

namespace Ssc

/-- The profile names the device. -/
def ConnectionProfile.Names (addr : Fin 6 → UInt8) (p : ConnectionProfile Char) : Prop :=
  parseBthAddr p.deviceAddress = some (List.ofFn addr)

instance (addr : Fin 6 → UInt8) (p : ConnectionProfile Char) : Decidable (p.Names addr) :=
  inferInstanceAs (Decidable (_ = _))

/-- The profile has the key. -/
def ConnectionProfile.Carries (keyHex : List Char) (type : Int32) (p : ConnectionProfile Char) : Prop :=
  p.linkKey = keyHex ∧ p.linkKeyType = type

namespace Profiles

/-- The file behind `persist_link_key`. -/
def persistKey (linkKeyDir : List Char) (db : LinkKeyDb) (addr : Fin 6 → UInt8)
    (file : Profiles Char) : Profiles Char :=
  match getLinkKeyHex linkKeyDir db addr with
  | none => file
  | some (hex, type) =>
      match persistLinkKey file.load (formatBthAddr (List.ofFn addr)) hex type with
      | none => file
      | some pending => pending.updated

/-- The index of the first profile with the text of the address. -/
def textIndex (addr : Fin 6 → UInt8) (profiles : Profiles Char) : Nat :=
  profiles.findIdx fun e => e.profile.deviceAddress = formatBthAddr (List.ofFn addr)

/-- The key of the device is in every profile that names it, and the other profiles are as they
were. -/
def KeyReaches (linkKeyDir : List Char) (db : LinkKeyDb) (addr : Fin 6 → UInt8)
    (file : Profiles Char) : Prop :=
  ∀ hex type, getLinkKeyHex linkKeyDir db addr = some (hex, type) →
    List.Forall₂ (fun e e' : StoredProfile Char =>
        (e.profile.Names addr → e'.profile.Carries hex type) ∧ (¬ e.profile.Names addr → e' = e))
      file.load (file.persistKey linkKeyDir db addr).load

/-- The key is already in every profile that names the device, but for the first one with the
text of its address. -/
def OthersCarry (linkKeyDir : List Char) (db : LinkKeyDb) (addr : Fin 6 → UInt8)
    (file : Profiles Char) : Prop :=
  ∀ hex type, getLinkKeyHex linkKeyDir db addr = some (hex, type) →
    ∀ i e, file.load[i]? = some e → e.profile.Names addr → i ≠ file.load.textIndex addr →
      e.profile.Carries hex type

variable {linkKeyDir : List Char} {db : LinkKeyDb} {addr : Fin 6 → UInt8} {file : Profiles Char}
  {hex : List Char} {type : Int32}

/-- The stored profile with the key. -/
def setKey (hex : List Char) (type : Int32) (e : StoredProfile Char) : StoredProfile Char :=
  { e with profile := e.profile.withKey hex type }

theorem setKey_of_carries {e : StoredProfile Char} (h : e.profile.Carries hex type) :
  setKey hex type e = e
  := by
  obtain ⟨hkey, htype⟩ := h
  rw [setKey, ConnectionProfile.withKey, ← hkey, ← htype]

/-- `persist_link_key` sets the key in the first profile with the text of the address. -/
theorem elim_persistLinkKey (addr : Fin 6 → UInt8) (hex : List Char) (type : Int32)
    (profiles : Profiles Char) :
  (persistLinkKey profiles (formatBthAddr (List.ofFn addr)) hex type).elim profiles
      PendingSave.updated
    = profiles.modify (profiles.textIndex addr) (setKey hex type)
  := by
  rw [persistLinkKey, textIndex]
  generalize formatBthAddr (List.ofFn addr) = address
  split
  next hlt =>
    dsimp only [Fin.getElem_fin]
    split
    next hcarries =>
      apply List.ext_getElem
      · rw [Option.elim_none, List.length_modify]
      · intro i hi hi'
        rw [List.getElem_modify]
        split
        next heq =>
          subst heq
          apply (setKey_of_carries hcarries.2).symm
        next => rfl
    next =>
      apply List.ext_getElem
      · rw [Option.elim_some, PendingSave.updated, List.length_set, List.length_modify]
      · intro i hi hi'
        rw [List.getElem_modify]
        simp only [Option.elim_some, PendingSave.updated]
        rw [List.getElem_set]
        split
        next heq =>
          subst heq
          rfl
        next => rfl
  next hge => rw [Option.elim_none, List.modify_eq_self (Nat.le_of_not_lt hge)]

/-- A key in a profile that is read back leaves it one. -/
theorem load_modify_setKey {profiles : Profiles Char} (h : profiles.load = profiles) (i : Nat) :
  load (profiles.modify i (setKey hex type)) = profiles.modify i (setKey hex type)
  := by
  rw [load, List.filter_eq_self]
  intro e he
  obtain ⟨j, hj, rfl⟩ := List.mem_iff_getElem.mp he
  rw [List.length_modify] at hj
  have hnamed := named_of_mem h (List.getElem_mem hj)
  rw [List.getElem_modify]
  split
  · apply hnamed
  · apply hnamed

/-- Behind `persist_link_key` the first profile with the text of the address has the key. -/
theorem load_persistKey (h : getLinkKeyHex linkKeyDir db addr = some (hex, type)) :
  (file.persistKey linkKeyDir db addr).load
    = file.load.modify (file.load.textIndex addr) (setKey hex type)
  := by
  have hset := elim_persistLinkKey addr hex type file.load
  rw [persistKey, h]
  dsimp only
  split
  next hnone =>
    rw [hnone, Option.elim_none] at hset
    apply hset
  next pending hsome =>
    rw [hsome, Option.elim_some] at hset
    rw [hset, load_modify_setKey (load_load file)]

/-- A profile with the text of the address names the device. -/
theorem names_of_text {p : ConnectionProfile Char}
    (h : p.deviceAddress = formatBthAddr (List.ofFn addr)) :
  p.Names addr
  := by
  have hlength : ((List.ofFn addr).reverse).length = 6 := by simp
  rw [ConnectionProfile.Names, h, parseBthAddr, formatBthAddr, parseAddress_formatAddress hlength,
    Option.map_some, List.reverse_reverse]

/-- The key reaches the profiles of the device exactly when all but the first one with the text
of its address have it already. -/
theorem keyReaches_iff (linkKeyDir : List Char) (db : LinkKeyDb) (addr : Fin 6 → UInt8)
    (file : Profiles Char) :
  KeyReaches linkKeyDir db addr file ↔ OthersCarry linkKeyDir db addr file
  := by
  apply forall₂_congr
  intro hex type
  apply imp_congr_right
  intro h
  rw [load_persistKey h, List.forall₂_iff_get]
  constructor
  · rintro ⟨-, hreaches⟩ i e he hnames hne
    obtain ⟨hi, rfl⟩ := List.getElem?_eq_some_iff.mp he
    have hcarries := (hreaches i hi (by simpa using hi)).1 hnames
    rw [List.get_eq_getElem, List.getElem_modify_ne _ _ hne.symm] at hcarries
    apply hcarries
  · intro hothers
    use (List.length_modify _ _ _).symm
    intro i hi hi'
    rw [List.get_eq_getElem, List.get_eq_getElem]
    by_cases htext : file.load.textIndex addr = i
    · subst htext
      have hfirst := List.findIdx_getElem (w := hi)
      rw [List.getElem_modify_eq]
      constructor
      · intro _
        exact ⟨rfl, rfl⟩
      · intro hnot
        apply absurd _ hnot
        apply names_of_text
        apply of_decide_eq_true hfirst
    · rw [List.getElem_modify_ne _ _ htext]
      constructor
      · intro hnames
        apply hothers i _ (List.getElem?_eq_getElem hi) hnames (Ne.symm htext)
      · intro _
        rfl

/-- A profile with the address of a headset in lower case, as the dialog takes it. -/
def lowerProfile : StoredProfile Char where
  id := 0
  profile := { name := "Buds SSC".toList, deviceAddress := "aa:bb:cc:dd:ee:ff".toList }

/-- The profile does not get the key of the headset. -/
theorem not_keyReaches_lower :
  ¬ KeyReaches ['d']
    ((LinkKeyDb.start none).dbPutLinkKey hexAddrText ![0xAA, 0xBB, 0xCC, 0xDD, 0xEE, 0xFF]
      (fun _ => 0x5A) 4)
    ![0xFF, 0xEE, 0xDD, 0xCC, 0xBB, 0xAA] [lowerProfile]
  := by
  have haddr : bdAddrOf ![0xFF, 0xEE, 0xDD, 0xCC, 0xBB, 0xAA]
      = ![0xAA, 0xBB, 0xCC, 0xDD, 0xEE, 0xFF] := by decide
  have hkey : getLinkKeyHex ['d']
      ((LinkKeyDb.start none).dbPutLinkKey hexAddrText ![0xAA, 0xBB, 0xCC, 0xDD, 0xEE, 0xFF]
        (fun _ => 0x5A) 4) ![0xFF, 0xEE, 0xDD, 0xCC, 0xBB, 0xAA]
      = some (keyHex fun _ => 0x5A, 4) := by
    have hreached : LinkKeyDb.Reached hexAddrText (LinkKeyDb.start none) := ⟨none, [], rfl⟩
    rw [getLinkKeyHex_eq (List.cons_ne_nil _ _), haddr, hreached.shaped.get_put]
    rfl
  intro hreaches
  have hprofiles := hreaches _ _ hkey
  rw [load_persistKey hkey, List.forall₂_iff_get] at hprofiles
  have hcarries := (hprofiles.2 0 (by decide) (by decide)).1 (by decide)
  apply absurd hcarries.1
  decide

end Profiles

end Ssc
