import SscOnWindows.Service.ConfigFiles

/-!
# Loading of damaged configuration files

The texts of both files are arbitrary here.  `ProfileManager::load` catches whatever is thrown, at
the first entry that cannot be read; `AppSettings::load` catches a `parse_error` and nothing else.
-/

namespace Ssc.Config

open Json

variable {F : Type}

/-! ### Entries -/

/-- The document has a string with the key that is not empty. -/
def nonempty (item : Json F) (key : String) : Bool :=
  match item.find? key with
  | some (.string s) => s ≠ []
  | _ => false

/-- The entry is an object whose members have their types, with a name and an address. -/
def wellFormed (item : Json F) : Bool :=
  item.typed ConnectionProfile.fields && nonempty item "name" && nonempty item "device_address"

namespace ProfileManager

open ConnectionProfile

/-- The profiles of the well-formed entries of a text. -/
def wellFormedProfiles (lib : JsonLibrary F) (text : List UInt8) : List (ConnectionProfile UInt8) :=
  ((entries lib text).filter wellFormed).map (ofEntry lib)

variable {lib : JsonLibrary F}

/-- A name or an address is read if and only if there is one. -/
theorem valueOr_ne_nil_iff (hlib : lib.Lawful) {item : Json F} (h : item.typed fields = true)
    (key : String) (hkey : (key, .string) ∈ fields) :
  lib.valueOr .string item key (utf8 "") ≠ [] ↔ nonempty item key = true
  := by
  have hvalue := hlib.value_of_typed h hkey (utf8 "")
  rw [typed, Bool.and_eq_true, List.all_eq_true] at h
  have hadmits := h.2 _ hkey
  cases hfind : item.find? key with
  | none =>
      rw [hlib.value_missing .string item key _ h.1 hfind] at hvalue
      rw [← Except.ok.inj hvalue, nonempty, hfind]
      simp [show utf8 "" = [] from rfl]
  | some v =>
      rw [admits, hfind, Option.all_some] at hadmits
      cases v with
      | string s =>
          rw [hlib.value_string item key _ s hfind] at hvalue
          rw [← Except.ok.inj hvalue, nonempty, hfind]
          simp
      | _ => simp [ValueType.admits] at hadmits

theorem named_ofEntry (hlib : lib.Lawful) {item : Json F} (h : item.typed fields = true) :
  (ofEntry lib item).named = wellFormed item
  := by
  have hname := valueOr_ne_nil_iff hlib h "name" (by decide)
  have haddress := valueOr_ne_nil_iff hlib h "device_address" (by decide)
  rw [wellFormed, h, Bool.true_and, Bool.eq_iff_iff, named, Bool.and_eq_true, Bool.and_eq_true,
    decide_eq_true_iff, decide_eq_true_iff]
  apply and_congr hname haddress

/-- The entries that are loaded are the well-formed ones in front of the first that cannot be
read. -/
theorem loadItems_eq (hlib : lib.Lawful) (items : List (Json F)) :
  loadItems lib items
    = ((items.takeWhile (typed fields)).filter wellFormed).map (ofEntry lib)
  := by
  induction items with
  | nil => rfl
  | cons item items ih =>
      rw [loadItems]
      cases htyped : item.typed fields with
      | true =>
          rw [ofJson_of_typed hlib htyped, List.takeWhile_cons_of_pos htyped, List.filter_cons]
          dsimp only
          rw [named_ofEntry hlib htyped, ih]
          cases wellFormed item with
          | true => rfl
          | false => rfl
      | false =>
          rw [List.takeWhile_cons_of_neg (by simp [htyped])]
          cases hread : ofJson lib item with
          | error e => rfl
          | ok p =>
              rw [(ofJson_ok_iff hlib item).mp ⟨p, hread⟩] at htyped
              cases htyped

/-- All well-formed entries are loaded if and only if none of them is behind an entry that cannot
be read. -/
theorem wellFormedProfiles_sublist_iff (hlib : lib.Lawful) (text : List UInt8) :
  (wellFormedProfiles lib text).Sublist (load lib (some text))
    ↔ ∀ item ∈ (entries lib text).dropWhile (typed fields), wellFormed item = false
  := by
  have hsplit : (entries lib text).filter wellFormed
      = ((entries lib text).takeWhile (typed fields)).filter wellFormed
        ++ ((entries lib text).dropWhile (typed fields)).filter wellFormed := by
    rw [← List.filter_append, List.takeWhile_append_dropWhile]
  rw [load, loadItems_eq hlib, wellFormedProfiles, hsplit, List.map_append]
  constructor
  · intro h
    have hlength := h.length_le
    rw [List.length_append, List.length_map, List.length_map] at hlength
    have hnil : ((entries lib text).dropWhile (typed fields)).filter wellFormed = [] := by
      rw [← List.length_eq_zero_iff]
      omega
    simpa [List.filter_eq_nil_iff] using hnil
  · intro h
    have hnil : ((entries lib text).dropWhile (typed fields)).filter wellFormed = [] := by
      simpa [List.filter_eq_nil_iff] using h
    rw [hnil, List.map_nil, List.append_nil]

/-- Nothing else is loaded. -/
theorem load_sublist (hlib : lib.Lawful) (text : List UInt8) :
  (load lib (some text)).Sublist (wellFormedProfiles lib text)
  := by
  rw [load, loadItems_eq hlib, wellFormedProfiles]
  apply List.Sublist.map
  apply List.Sublist.filter
  apply List.takeWhile_sublist

/-- The entries of a text have strings that are UTF-8. -/
theorem utf8_entries (hlib : lib.Lawful) (text : List UInt8) :
  ∀ item ∈ entries lib text, item.Utf8
  := by
  rw [entries]
  split
  case h_1 => simp
  case h_2 j hparse =>
    split
    case h_1 items hfind =>
      rw [← utf8_array]
      apply (hlib.parse_utf8 text j hparse).find? hfind
    case h_2 => simp

/-- The profiles that are loaded can be saved and loaded again. -/
theorem load_saveable (hlib : lib.Lawful) (text : List UInt8) :
  ∀ p ∈ load lib (some text), p.Utf8 ∧ p.named = true
  := by
  intro p hp
  rw [load, loadItems_eq hlib, List.mem_map] at hp
  obtain ⟨item, hitem, rfl⟩ := hp
  rw [List.mem_filter] at hitem
  obtain ⟨hread, hwell⟩ := hitem
  constructor
  · apply utf8_ofEntry hlib
    apply utf8_entries hlib text item
    apply (List.takeWhile_sublist _).subset hread
  · rw [named_ofEntry hlib (List.all_eq_true.mp (List.all_takeWhile) item hread), hwell]

end ProfileManager

/-! ### Operations -/

/-- `add`, `update` or `remove`, where `persist_link_key` ends with an `update`. -/
inductive Edit where
  | add (p : ConnectionProfile UInt8)
  | update (index : Nat) (p : ConnectionProfile UInt8)
  | remove (index : Nat)

namespace Edit

open ProfileManager

/-- The profiles behind the operation, if it does not return false. -/
def profiles (profiles : List (ConnectionProfile UInt8)) :
    Edit → Option (List (ConnectionProfile UInt8))
  | add p => some (profiles ++ [p])
  | update index p => if profiles.length ≤ index then none else some (profiles.set index p)
  | remove index => if profiles.length ≤ index then none else some (profiles.eraseIdx index)

/-- The file behind the operation. -/
def file (lib : JsonLibrary F) (loaded : List (ConnectionProfile UInt8))
    (file : Option (List UInt8)) (e : Edit) : Option (List UInt8) :=
  match e.profiles loaded with
  | none => file
  | some ps => (save lib ps true file).2

/-- The strings the operation stores are UTF-8, as those of the dialog are. -/
def Utf8 : Edit → Prop
  | add p => p.Utf8
  | update _ p => p.Utf8
  | remove _ => True

/-- The index of the profile that is replaced or removed. -/
def index : Edit → Option Nat
  | add _ => none
  | update index _ => some index
  | remove index => some index

/-- The profiles `kept` are among those behind the operation, but for one that is the loaded profile
the operation is at. -/
def Keeps (e : Edit) (loaded kept behind : List (ConnectionProfile UInt8)) : Prop :=
  kept.Sublist behind
    ∨ ∃ i j, e.index = some i ∧ i < loaded.length ∧ kept[j]? = loaded[i]?
      ∧ (kept.eraseIdx j).Sublist behind

variable {lib : JsonLibrary F}

/-- An operation keeps the other profiles that are loaded. -/
theorem keeps_load (hlib : lib.Lawful) {e : Edit} (he : e.Utf8) (text : List UInt8) :
  e.Keeps (load lib (some text)) (load lib (some text))
    (load lib (e.file lib (load lib (some text)) (some text)))
  := by
  have hloaded := load_saveable hlib text
  generalize hl : load lib (some text) = loaded at hloaded
  have hnamed : ∀ {l : List (ConnectionProfile UInt8)}, l.Sublist loaded →
      l.filter (·.named) = l := by
    intro l hsub
    rw [List.filter_eq_self]
    intro p hp
    apply (hloaded p (hsub.subset hp)).2
  have hkeeps : ∀ {l l' : List (ConnectionProfile UInt8)}, l.Sublist loaded → l.Sublist l' →
      l.Sublist (l'.filter (·.named)) := by
    intro l l' hsub hsub'
    have h := hsub'.filter (·.named)
    rw [hnamed hsub] at h
    apply h
  cases e with
  | add p =>
      left
      rw [file, profiles]
      dsimp only
      rw [load_save hlib]
      · apply hkeeps (List.Sublist.refl _) (List.sublist_append_left _ _)
      · intro q hq
        rw [List.mem_append, List.mem_singleton] at hq
        rcases hq with hq | rfl
        · apply (hloaded q hq).1
        · apply he
  | update i p =>
      rw [file, profiles]
      by_cases hi : loaded.length ≤ i
      · left
        rw [if_pos hi]
        dsimp only
        rw [hl]
      · right
        use i, i, rfl, Nat.lt_of_not_le hi, rfl
        rw [if_neg hi]
        dsimp only
        rw [load_save hlib]
        · apply hkeeps (List.eraseIdx_sublist _ _)
          rw [← List.eraseIdx_set_eq]
          apply List.eraseIdx_sublist
        · intro q hq
          rcases List.mem_or_eq_of_mem_set hq with hq | rfl
          · apply (hloaded q hq).1
          · apply he
  | remove i =>
      rw [file, profiles]
      by_cases hi : loaded.length ≤ i
      · left
        rw [if_pos hi]
        dsimp only
        rw [hl]
      · right
        use i, i, rfl, Nat.lt_of_not_le hi, rfl
        rw [if_neg hi]
        dsimp only
        rw [load_save hlib]
        · apply hkeeps (List.eraseIdx_sublist _ _) (List.Sublist.refl _)
        · intro q hq
          apply (hloaded q (List.mem_of_mem_eraseIdx hq)).1

end Edit

/-! ### Robust loading -/

/-- Both loads return, all well-formed profiles are loaded, and an operation behind the load keeps
them in the file. -/
structure RobustLoad (lib : JsonLibrary F) (profilesText settingsText : List UInt8) : Prop where
  settings : ∀ fresh, ∃ s, AppSettings.load lib fresh (some settingsText) = .ok s
  profiles : (ProfileManager.wellFormedProfiles lib profilesText).Sublist
    (ProfileManager.load lib (some profilesText))
  keeps : ∀ e : Edit, e.Utf8 → e.Keeps (ProfileManager.load lib (some profilesText))
    (ProfileManager.wellFormedProfiles lib profilesText)
    (ProfileManager.load lib
      (e.file lib (ProfileManager.load lib (some profilesText)) (some profilesText)))

/-- The text is no document, or it is an object whose members have their types. -/
def AppSettings.Loadable (lib : JsonLibrary F) (text : List UInt8) : Prop :=
  match lib.read text with
  | .error e => e = .parseError
  | .ok j => j.typed fields = true

variable {lib : JsonLibrary F}

theorem AppSettings.load_returns_iff (hlib : lib.Lawful) (text : List UInt8)
    (fresh : AppSettings) :
  (∃ s, load lib fresh (some text) = .ok s) ↔ Loadable lib text
  := by
  rw [load, Loadable]
  cases lib.read text with
  | error e => cases e <;> simp
  | ok j => apply ofJson_ok_iff hlib

/-- Loading is robust if and only if the settings are no document or an object with members of
their types, and no well-formed entry is behind one that is no object or has a member of another
type. -/
theorem robustLoad_iff (hlib : lib.Lawful) (profilesText settingsText : List UInt8) :
  RobustLoad lib profilesText settingsText
    ↔ AppSettings.Loadable lib settingsText
      ∧ ∀ item ∈ (ProfileManager.entries lib profilesText).dropWhile
          (typed ConnectionProfile.fields), wellFormed item = false
  := by
  constructor
  · intro h
    constructor
    · apply (AppSettings.load_returns_iff hlib settingsText {}).mp (h.settings {})
    · apply (ProfileManager.wellFormedProfiles_sublist_iff hlib profilesText).mp h.profiles
  · rintro ⟨hsettings, hprofiles⟩
    have hsub := (ProfileManager.wellFormedProfiles_sublist_iff hlib profilesText).mpr hprofiles
    have heq := (ProfileManager.load_sublist hlib profilesText).antisymm hsub
    constructor
    · intro fresh
      apply (AppSettings.load_returns_iff hlib settingsText fresh).mpr hsettings
    · apply hsub
    · intro e he
      rw [← heq]
      apply Edit.keeps_load hlib he

/-- Two profiles with an entry that has no address between them, and a member of another type behind
them. -/
def damagedEntries : List (Json Empty) := [
  ConnectionProfile.toJson { name := utf8 "Café", deviceAddress := utf8 "00:11:22:33:44:55" },
  mkObject [("name", .string (utf8 "b")), ("codec", .string (utf8 "aac"))],
  ConnectionProfile.toJson
    { name := utf8 "c", deviceAddress := utf8 "66:77:88:99:AA:BB", linkKeyType := -1 },
  mkObject [("name", .integer 5), ("device_address", .string (utf8 "d"))]]

/-- Settings with some of their members, and one that is not theirs. -/
def someSettings : Json Empty :=
  mkObject [("language", .string (utf8 "es")), ("debug_mode", .boolean true),
    ("bt_chip_pid", .integer 0x8771), ("volume", .integer 80)]

/-- Loading these files is robust. -/
theorem robustLoad_damaged :
  RobustLoad textLibrary (print 0 (mkObject [("profiles", .array damagedEntries)]) ++ [10])
    (print 0 someSettings ++ [10])
  := by
  have hparse : ∀ {j : Json Empty}, j.Utf8 → textLibrary.parse (print 0 j ++ [10]) = .ok j :=
    fun hj => parseText_print hj true
  have hread : ∀ {j : Json Empty}, j.Utf8 → textLibrary.read (print 0 j ++ [10]) = .ok j :=
    fun hj => parseText_print hj false
  have hentries : (mkObject [("profiles", .array damagedEntries)]).find? "profiles"
      = some (.array damagedEntries) := by
    apply find?_mkObject_of_mem (by simp) List.mem_cons_self
  apply (robustLoad_iff textLibrary_lawful _ _).mpr
  constructor
  · have htyped : someSettings.typed AppSettings.fields = true := by decide +kernel
    rw [AppSettings.Loadable, hread (by decide +kernel)]
    apply htyped
  · have hbehind : (damagedEntries.dropWhile (typed ConnectionProfile.fields)).all (!wellFormed ·)
        = true := by
      decide +kernel
    rw [ProfileManager.entries, hparse (by decide +kernel)]
    dsimp only
    rw [hentries]
    simpa using hbehind

/-- A file with one profile, behind a number, and the settings `[]`. -/
theorem not_robustLoad_behindNumber :
  ¬ RobustLoad textLibrary
      (print 0 (mkObject [("profiles", .array [.integer 5,
        mkObject [("name", .string (utf8 "a")), ("device_address", .string (utf8 "b"))]])])) []
    ∧ ¬ RobustLoad textLibrary [] (utf8 "[]")
  := by
  constructor
  · intro h
    have hload := h.profiles.length_le
    revert hload
    decide
  · intro h
    obtain ⟨s, hs⟩ := h.settings {}
    cases hs

end Ssc.Config
