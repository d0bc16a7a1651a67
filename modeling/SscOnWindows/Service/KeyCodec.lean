import SscOnWindows.Service.AddressGrammar
import SscOnWindows.Service.KeyFreshness

/-!
# The text of a link key

A session seeds the key of its device from the text in the profile, and reads it back from the
database as a text.  The text is meant to consist of 32 hexadecimal digits.  `seed_link_key`
reads two characters at a time by `sscanf`, which takes two digits and other pairs: a digit
behind white space or a sign, and a digit with another character behind it.
-/

namespace Ssc

open Scan

/-! ### The calls of the transport -/

/-- The address in the order of `bd_addr_t`. -/
def bdAddrOf (remoteAddr : Fin 6 → UInt8) : BdAddr :=
  fun i => remoteAddr i.rev

/-- `seed_link_key`. -/
def seedLinkKeyCall (bt : AddrText) (linkKeyDir : List Char) (db : LinkKeyDb)
    (remoteAddr : Fin 6 → UInt8) (keyHex : List Char) (type : Int32) : Bool × LinkKeyDb :=
  if linkKeyDir.isEmpty then (false, db)
  else
    match seedLinkKey keyHex type.toInt with
    | none => (false, db)
    | some (key, type) => (true, db.dbPutLinkKey bt (bdAddrOf remoteAddr) key type)

/-- `get_link_key_hex`. -/
def getLinkKeyHex (linkKeyDir : List Char) (db : LinkKeyDb) (remoteAddr : Fin 6 → UInt8) :
    Option (List Char × Int32) :=
  if linkKeyDir.isEmpty then none
  else (db.dbGetLinkKey (bdAddrOf remoteAddr)).map fun (key, type) => (keyHex key, type)

/-- The database is reached from some file by operations and new starts of the program. -/
def LinkKeyDb.Reached (bt : AddrText) (db : LinkKeyDb) : Prop :=
  ∃ (file : Option (List Char)) (ops : List LinkKeyOp),
    db = ops.foldl (LinkKeyDb.step bt) (LinkKeyDb.start file)

/-- What the text promises as the text of a key, with a directory for the keys. -/
structure KeyCodecLaw (bt : AddrText) (text : List Char) : Prop where
  accepts : ∀ linkKeyDir db remoteAddr type, linkKeyDir ≠ [] → LinkKeyDb.Reached bt db →
    ((seedLinkKeyCall bt linkKeyDir db remoteAddr text type).1 = true ↔ IsHexField 32 text)
  refuses : ∀ linkKeyDir db remoteAddr type, linkKeyDir ≠ [] → LinkKeyDb.Reached bt db →
    ¬ IsHexField 32 text → (seedLinkKeyCall bt linkKeyDir db remoteAddr text type).2 = db
  reads : ∀ linkKeyDir db remoteAddr type, linkKeyDir ≠ [] → LinkKeyDb.Reached bt db →
    ∀ db', seedLinkKeyCall bt linkKeyDir db remoteAddr text type = (true, db') →
      getLinkKeyHex linkKeyDir db' remoteAddr = some (text.map Char.toLower, type)
  stores : ∀ linkKeyDir db db' remoteAddr key type, linkKeyDir ≠ [] → LinkKeyDb.Reached bt db →
    LinkKeyDb.Reached bt db' → db.dbGetLinkKey (bdAddrOf remoteAddr) = some (key, type) →
      ∃ hex stored, getLinkKeyHex linkKeyDir db remoteAddr = some (hex, type)
        ∧ seedLinkKeyCall bt linkKeyDir db' remoteAddr hex type = (true, stored)
        ∧ stored.dbGetLinkKey (bdAddrOf remoteAddr) = some (key, type)

/-- `%02x` reads the pair though it is not two digits: a digit behind white space or a sign, or
a digit in front of something else, which does not make it the mark of a number. -/
def IsLoosePair (a b : Char) : Prop :=
  ((isSpace a = true ∨ a = '-' ∨ a = '+') ∧ digitValue b < 16)
    ∨ (digitValue a < 16 ∧ 16 ≤ digitValue b ∧ ¬ (a = '0' ∧ (b = 'x' ∨ b = 'X')))

/-- The pair number `i`. -/
def pairAt (text : List Char) (i : Nat) : List Char :=
  (text.drop (i * 2)).take 2

/-- The text has the length of a key, and it is read as one though not all of its pairs are two
digits. -/
def IsLooseKey (text : List Char) : Prop :=
  text.length = 32
    ∧ (∀ i a b, pairAt text i = [a, b] → IsHexField 2 [a, b] ∨ IsLoosePair a b)
    ∧ ∃ i a b, pairAt text i = [a, b] ∧ IsLoosePair a b

/-! ### Pairs -/

/-- A number is read when it begins with a digit. -/
theorem isSome_natural_iff {s : List Char} :
  (natural 16 s).isSome = true ↔ ∃ c ∈ (dropMark 16 s).head?, digitValue c < 16
  := by
  rw [natural]
  cases dropMark 16 s with
  | nil => simp
  | cons c t =>
      rcases Nat.lt_or_ge (digitValue c) 16 with h | h
      · simp [h]
      · simp [Nat.not_lt.mpr h]

theorem isSome_natural_one {c : Char} :
  (natural 16 [c]).isSome = true ↔ digitValue c < 16
  := by
  rw [isSome_natural_iff, dropMark, if_neg (by simp)]
  simp

theorem isHexField_pair_iff {a b : Char} :
  IsHexField 2 [a, b] ↔ digitValue a < 16 ∧ digitValue b < 16
  := by
  constructor
  · intro h
    simpa using h.digits
  · rintro ⟨ha, hb⟩
    use rfl
    simp [ha, hb]

/-- White space and the signs are not digits. -/
theorem not_digit_of_lead {c : Char} (h : isSpace c = true ∨ c = '-' ∨ c = '+') :
  ¬ digitValue c < 16
  := by
  intro hdigit
  obtain ⟨hspace, hplain⟩ := digit_spec hdigit
  simp only [List.mem_cons, not_or] at hplain
  rcases h with h | h | h
  · rw [h] at hspace
    contradiction
  · apply hplain.1 h
  · apply hplain.2.1 h

/-- A character alone is read when it is a digit. -/
theorem isSome_hexField_one {c : Char} :
  (integer 16 (([c].dropWhile isSpace).take 2)).isSome = true ↔ digitValue c < 16
  := by
  rw [integer, Option.isSome_map]
  cases hspace : isSpace c with
  | true =>
      have hdigit := not_digit_of_lead (.inl hspace)
      rw [List.dropWhile_cons_of_pos hspace]
      simp [hdigit, sign, natural, dropMark]
  | false =>
      rw [List.dropWhile_cons_of_neg (by simp [hspace]), List.take_of_length_le (by simp), sign]
      split
      · rename_i hminus
        have hdigit := not_digit_of_lead (.inr (.inl hminus))
        simp [hdigit, natural, dropMark]
      · split
        · rename_i hplus
          have hdigit := not_digit_of_lead (.inr (.inr hplus))
          simp [hdigit, natural, dropMark]
        · apply isSome_natural_one

/-- A digit behind white space or a sign is read. -/
theorem isSome_hexField_lead {a b : Char} (h : isSpace a = true ∨ a = '-' ∨ a = '+') :
  (hexField 2 [a, b]).isSome = true ↔ digitValue b < 16
  := by
  rcases h with h | rfl | rfl
  · rw [hexField, List.dropWhile_cons_of_pos h]
    apply isSome_hexField_one
  · rw [hexField, integer, Option.isSome_map]
    apply isSome_natural_one
  · rw [hexField, integer, Option.isSome_map]
    apply isSome_natural_one

/-- Two characters are read when they are two digits or a loose pair. -/
theorem isSome_hexField_pair {a b : Char} :
  (hexField 2 [a, b]).isSome = true ↔ IsHexField 2 [a, b] ∨ IsLoosePair a b
  := by
  rw [isHexField_pair_iff, IsLoosePair]
  by_cases hlead : isSpace a = true ∨ a = '-' ∨ a = '+'
  · have hdigit := not_digit_of_lead hlead
    rw [isSome_hexField_lead hlead]
    simp [hlead, hdigit]
  · obtain ⟨hspace, hminus, hplus⟩ : isSpace a ≠ true ∧ a ≠ '-' ∧ a ≠ '+' := by
      simpa only [not_or] using hlead
    have hsign : sign [a, b] = (1, [a, b]) := by
      rw [sign, if_neg hminus, if_neg hplus]
    rw [hexField, List.dropWhile_cons_of_neg hspace, integer, Option.isSome_map,
      List.take_of_length_le (by simp), hsign, isSome_natural_iff, dropMark]
    by_cases hmark : a = '0' ∧ (b = 'x' ∨ b = 'X')
    · have hdigit : ¬ digitValue b < 16 := by
        rcases hmark.2 with rfl | rfl <;> decide
      simp [hmark, hdigit]
    · simp only [List.head?_cons, Option.some.injEq, List.getElem?_cons_succ,
        List.getElem?_cons_zero, hmark, and_false, if_false, Option.mem_some_iff, hlead]
      rcases Nat.lt_or_ge (digitValue b) 16 with hb | hb
      · simp [hb]
      · simp [hb, Nat.not_lt.mpr hb]

/-! ### The database -/

/-- The cache has its slots, and no more of them are in use. -/
structure LinkKeyDb.Shaped (db : LinkKeyDb) : Prop where
  slots : db.entries.length = maxLinkKeys
  count : db.numEntries ≤ maxLinkKeys

section Database

variable {bt : AddrText} {db : LinkKeyDb}

theorem loadLines_shaped {entries : List LinkKeyEntry} {num : Nat} (lines : List (List Char))
    (hslots : entries.length = maxLinkKeys) (hcount : num ≤ maxLinkKeys) :
  (loadLines bt entries num lines).1.length = maxLinkKeys
    ∧ (loadLines bt entries num lines).2 ≤ maxLinkKeys
  := by
  induction lines generalizing entries num with
  | nil => exact ⟨hslots, hcount⟩
  | cons line lines ih =>
      rw [loadLines]
      split
      · split
        · apply ih hslots hcount
        · apply ih
          · rw [List.length_set, hslots]
          · assumption
      · exact ⟨hslots, hcount⟩

/-- The slot for a new address is the last one in use, and the address stays new. -/
theorem LinkKeyDb.Shaped.newSlot (h : db.Shaped) :
  db.newSlot.1.Shaped ∧ db.newSlot.1.numEntries = db.newSlot.2 + 1
    ∧ ∀ e ∈ db.newSlot.1.entries.take db.newSlot.2, e ∈ db.stored
  := by
  have hslots := h.slots
  have hcount := h.count
  rw [LinkKeyDb.newSlot]
  split
  · rename_i hfull
    have hnum : db.numEntries = maxLinkKeys := le_antisymm hcount hfull
    have hpos : 0 < maxLinkKeys := by decide
    have hgap := memmove_gap hpos hslots.ge
    refine ⟨⟨hgap.1.trans hslots, le_rfl⟩, rfl, ?_⟩
    intro e he
    dsimp only at he
    rw [LinkKeyDb.stored, hnum]
    apply List.mem_of_mem_eraseIdx (i := 0)
    rw [← hgap.2]
    apply he
  · rename_i hroom
    exact ⟨⟨hslots, Nat.lt_of_not_le hroom⟩, rfl, fun e he => he⟩

/-- `db_put_link_key` finds or makes a slot in use, and no slot in front of it has the address. -/
theorem LinkKeyDb.Shaped.put_slot (bt : AddrText) (h : db.Shaped) (addr : BdAddr) :
  ∃ (slots : LinkKeyDb) (idx : Nat), slots.Shaped ∧ idx < slots.numEntries
    ∧ (∀ e ∈ slots.entries.take idx, (e.used && e.addr = addr) = false)
    ∧ ∀ key type, db.dbPutLinkKey bt addr key type
      = { slots with entries := slots.entries.set idx ⟨addr, key, type, true⟩ }.saveToFile bt
  := by
  have hslots := h.slots
  cases hfind : db.findEntry addr with
  | some idx =>
      have hget := hfind
      rw [LinkKeyDb.findEntry, List.findIdx?_eq_some_iff_getElem] at hget
      obtain ⟨hlt, -, hbefore⟩ := hget
      rw [List.length_take] at hlt
      use db, idx, h, by omega
      constructor
      · intro e he
        obtain ⟨j, hj, rfl⟩ := List.mem_iff_getElem.mp he
        rw [List.length_take] at hj
        have hfront := hbefore j (by omega)
        rw [List.getElem_take] at hfront ⊢
        simpa using hfront
      · intro key type
        rw [LinkKeyDb.dbPutLinkKey, hfind]
  | none =>
      obtain ⟨hshaped, hnum, hold⟩ := h.newSlot
      use db.newSlot.1, db.newSlot.2, hshaped, by omega
      constructor
      · intro e he
        rw [LinkKeyDb.findEntry, List.findIdx?_eq_none_iff] at hfind
        simpa using hfind e (hold e he)
      · intro key type
        rw [LinkKeyDb.dbPutLinkKey, hfind]

/-- The key of an address is found behind its put. -/
theorem LinkKeyDb.Shaped.get_put (h : db.Shaped) (addr : BdAddr) (key : LinkKey) (type : Int32) :
  (db.dbPutLinkKey bt addr key type).dbGetLinkKey addr = some (key, type)
  := by
  obtain ⟨slots, idx, hshaped, hidx, hfront, hput⟩ := h.put_slot bt addr
  have hcount := hshaped.count
  have hlt : idx < slots.entries.length := by
    rw [hshaped.slots]
    omega
  have hfind : (db.dbPutLinkKey bt addr key type).findEntry addr = some idx := by
    rw [hput, LinkKeyDb.findEntry, LinkKeyDb.saveToFile, List.findIdx?_eq_some_iff_getElem]
    dsimp only
    refine ⟨?_, ?_, ?_⟩
    · rw [List.length_take, List.length_set]
      omega
    · rw [List.getElem_take, List.getElem_set_self]
      simp
    · intro j hj
      rw [List.getElem_take, List.getElem_set_ne (by omega)]
      have hmem : slots.entries[j] ∈ slots.entries.take idx := by
        rw [List.mem_take_iff_getElem]
        use j, by omega
      rw [hfront _ hmem]
      decide
  rw [LinkKeyDb.dbGetLinkKey, hfind]
  dsimp only
  rw [hput, LinkKeyDb.saveToFile]
  dsimp only
  rw [List.getD_eq_getElem?_getD, List.getElem?_set_self hlt]
  rfl

theorem LinkKeyDb.Shaped.step (h : db.Shaped) (op : LinkKeyOp) :
  (db.step bt op).Shaped
  := by
  cases op with
  | restart => exact ⟨List.length_replicate, Nat.zero_le _⟩
  | dbOpen =>
      rw [LinkKeyDb.step, LinkKeyDb.dbOpen, LinkKeyDb.loadFromFile]
      split
      · exact ⟨h.slots, Nat.zero_le _⟩
      · constructor
        · apply (loadLines_shaped _ h.slots (Nat.zero_le maxLinkKeys)).1
        · apply (loadLines_shaped _ h.slots (Nat.zero_le maxLinkKeys)).2
  | dbClose | getLinkKey addr => exact h
  | putLinkKey addr key type =>
      obtain ⟨slots, idx, hshaped, -, -, hput⟩ := h.put_slot bt addr
      rw [LinkKeyDb.step, hput]
      constructor
      · rw [LinkKeyDb.saveToFile, List.length_set, hshaped.slots]
      · apply hshaped.count
  | deleteLinkKey addr =>
      have hslots := h.slots
      have hcount := h.count
      rw [LinkKeyDb.step, LinkKeyDb.dbDeleteLinkKey]
      split
      · apply h
      · rename_i idx hfind
        rw [LinkKeyDb.findEntry, List.findIdx?_eq_some_iff_getElem] at hfind
        obtain ⟨hlt, -⟩ := hfind
        rw [List.length_take] at hlt
        have hbelow : idx < db.numEntries := by omega
        have hgap := memmove_gap (l := db.entries) hbelow (by omega)
        rw [LinkKeyDb.saveToFile]
        constructor
        · dsimp only
          split
          · rw [hgap.1, hslots]
          · apply hslots
        · dsimp only
          omega

theorem LinkKeyDb.Reached.shaped (h : LinkKeyDb.Reached bt db) :
  db.Shaped
  := by
  obtain ⟨file, ops, rfl⟩ := h
  induction ops using List.reverseRecOn with
  | nil => exact ⟨List.length_replicate, Nat.zero_le _⟩
  | append_singleton ops op ih =>
      rw [List.foldl_append]
      apply ih.step op

end Database

/-! ### Keys -/

/-- The pairs make up the text. -/
theorem flatten_pairs {n : Nat} {text : List Char} (h : text.length = 2 * n) :
  (List.ofFn fun i : Fin n => pairAt text i).flatten = text
  := by
  induction n generalizing text with
  | zero =>
      rw [List.length_eq_zero_iff.mp h]
      rfl
  | succ n ih =>
      match text, h with
      | a :: b :: text, h =>
          have hpair : ∀ i : Fin n, pairAt (a :: b :: text) i.succ = pairAt text i := by
            intro i
            rw [pairAt, Fin.val_succ, Nat.succ_mul]
            rfl
          rw [List.ofFn_succ, List.flatten_cons]
          simp only [hpair]
          rw [ih (by simpa [Nat.mul_succ] using h)]
          rfl

theorem mem_of_mem_pairAt {text : List Char} {i : Nat} {c : Char} (h : c ∈ pairAt text i) :
  c ∈ text
  := List.mem_of_mem_drop (List.mem_of_mem_take h)

theorem exists_pair {text : List Char} (hlength : text.length = 32) (i : Fin 16) :
  ∃ a b, pairAt text i = [a, b]
  := by
  apply List.length_eq_two.mp
  rw [pairAt, List.length_take, List.length_drop]
  omega

/-- The text of a key is one of sixteen pairs of digits. -/
theorem isHexField_iff_pairs {text : List Char} (hlength : text.length = 32) :
  IsHexField 32 text ↔ ∀ i : Fin 16, IsHexField 2 (pairAt text i)
  := by
  constructor
  · intro h i
    obtain ⟨a, b, hpair⟩ := exists_pair hlength i
    rw [hpair]
    use rfl
    intro c hc
    rw [← hpair] at hc
    apply h.digits c (mem_of_mem_pairAt hc)
  · intro h
    use hlength
    intro c hc
    rw [← flatten_pairs (n := 16) hlength] at hc
    obtain ⟨pair, hpair, hc⟩ := List.mem_flatten.mp hc
    obtain ⟨i, rfl⟩ := List.mem_ofFn.mp hpair
    apply (h i).digits c hc

/-- What `seed_link_key` takes from a text. -/
theorem seedLinkKey_eq_some_iff {text : List Char} {type : Int} {key : LinkKey} {t : Int32} :
  seedLinkKey text type = some (key, t)
    ↔ text.length = 32 ∧ t = Int32.ofInt type ∧ ∀ i : Fin 16, ∃ value,
      hexField 2 (pairAt text i) = some value ∧ key i = UInt8.ofNat (value % 256).toNat
  := by
  rw [seedLinkKey]
  constructor
  · intro h
    split at h
    · rename_i hlength
      split at h
      · rename_i hread
        obtain ⟨rfl, rfl⟩ := Prod.mk.inj (Option.some.inj h)
        refine ⟨hlength, rfl, ?_⟩
        intro i
        use (hexField 2 (pairAt text i)).get (hread i), (Option.some_get _).symm
        rfl
      · contradiction
    · contradiction
  · rintro ⟨hlength, rfl, hread⟩
    have hsome : ∀ i : Fin 16, (hexField 2 ((text.drop (i * 2)).take 2)).isSome := by
      intro i
      obtain ⟨value, hvalue, -⟩ := hread i
      apply Option.isSome_iff_exists.mpr ⟨value, hvalue⟩
    rw [if_pos hlength, dif_pos hsome]
    congr 2
    funext i
    obtain ⟨value, hvalue, hkey⟩ := hread i
    rw [hkey]
    congr
    apply Option.get_of_eq_some _ hvalue

/-- A text is taken when its pairs are digits or loose. -/
theorem isSome_seedLinkKey_iff {text : List Char} {type : Int} :
  (seedLinkKey text type).isSome = true
    ↔ text.length = 32 ∧ ∀ i a b, pairAt text i = [a, b] → IsHexField 2 [a, b] ∨ IsLoosePair a b
  := by
  rw [Option.isSome_iff_exists]
  constructor
  · rintro ⟨⟨key, t⟩, h⟩
    obtain ⟨hlength, -, hread⟩ := seedLinkKey_eq_some_iff.mp h
    use hlength
    intro i a b hpair
    have hi : i < 16 := by
      have hcount := congrArg List.length hpair
      rw [pairAt, List.length_take, List.length_drop, hlength] at hcount
      simp only [List.length_cons, List.length_nil] at hcount
      omega
    obtain ⟨value, hvalue, -⟩ := hread ⟨i, hi⟩
    apply isSome_hexField_pair.mp
    rw [← hpair, hvalue]
    rfl
  · rintro ⟨hlength, hpairs⟩
    have hread : ∀ i : Fin 16, ∃ value, hexField 2 (pairAt text i) = some value := by
      intro i
      obtain ⟨a, b, hpair⟩ := exists_pair hlength i
      apply Option.isSome_iff_exists.mp
      rw [hpair]
      apply isSome_hexField_pair.mpr (hpairs i a b hpair)
    choose value hvalue using hread
    use (fun i => UInt8.ofNat (value i % 256).toNat, Int32.ofInt type)
    apply seedLinkKey_eq_some_iff.mpr ⟨hlength, rfl, fun i => ⟨value i, hvalue i, rfl⟩⟩

/-- The texts of keys, and the loose ones, are taken. -/
theorem isSome_seedLinkKey {text : List Char} {type : Int} :
  (seedLinkKey text type).isSome = true ↔ IsHexField 32 text ∨ IsLooseKey text
  := by
  rw [isSome_seedLinkKey_iff]
  constructor
  · rintro ⟨hlength, hpairs⟩
    by_cases hloose : ∃ i a b, pairAt text i = [a, b] ∧ IsLoosePair a b
    · right
      exact ⟨hlength, hpairs, hloose⟩
    · left
      apply (isHexField_iff_pairs hlength).mpr
      intro i
      obtain ⟨a, b, hpair⟩ := exists_pair hlength i
      rw [hpair]
      apply (hpairs i a b hpair).resolve_right
      intro h
      apply hloose ⟨i, a, b, hpair, h⟩
  · rintro (h | h)
    · use h.length
      intro i a b hpair
      left
      use rfl
      intro c hc
      rw [← hpair] at hc
      apply h.digits c (mem_of_mem_pairAt hc)
    · exact ⟨h.1, h.2.1⟩

/-- A loose text is not the text of a key. -/
theorem not_isHexField_of_isLooseKey {text : List Char} (h : IsLooseKey text) :
  ¬ IsHexField 32 text
  := by
  obtain ⟨-, -, i, a, b, hpair, hloose⟩ := h
  intro hhex
  have hdigit : ∀ c ∈ [a, b], digitValue c < 16 := by
    intro c hc
    rw [← hpair] at hc
    apply hhex.digits c (mem_of_mem_pairAt hc)
  rcases hloose with ⟨hlead, -⟩ | ⟨-, hb, -⟩
  · apply not_digit_of_lead hlead (hdigit a (by simp))
  · apply Nat.not_lt.mpr hb (hdigit b (by simp))

/-- The digit with the value of a digit is that digit in lower case. -/
theorem digitChar_digitValue {c : Char} (h : digitValue c < 16) :
  Nat.digitChar (digitValue c) = c.toLower
  := by
  have hrange := toNat_of_digit h
  rw [← Char.ofNat_toNat c]
  generalize c.toNat = n at hrange
  rcases hrange with ⟨hlo, hhi⟩ | ⟨hlo, hhi⟩ | ⟨hlo, hhi⟩
  · interval_cases n <;> rfl
  · interval_cases n <;> rfl
  · interval_cases n <;> rfl

/-- The byte of two digits is written by these digits in lower case. -/
theorem hexByte_of_pair {pair : List Char} (h : IsHexField 2 pair) {value : Int}
    (hvalue : hexField 2 pair = some value) :
  hexByte (UInt8.ofNat (value % 256).toNat) = pair.map Char.toLower
  := by
  obtain ⟨a, b, rfl⟩ := List.length_eq_two.mp h.length
  obtain ⟨ha, hb⟩ := isHexField_pair_iff.mp h
  rw [hexField_of_isHexField (by decide) h] at hvalue
  obtain rfl := Option.some.inj hvalue
  have hbyte : (UInt8.ofNat ((ofDigits 16 [a, b] : Int) % 256).toNat).toNat
      = 16 * digitValue a + digitValue b := by
    rw [ofDigits]
    simp
    omega
  have hhi : (16 * digitValue a + digitValue b) / 16 = digitValue a := by omega
  have hlo : (16 * digitValue a + digitValue b) % 16 = digitValue b := by omega
  rw [hexByte, hbyte, hhi, hlo, digitChar_digitValue ha, digitChar_digitValue hb]
  rfl

/-- The key of a text is written as the text in lower case. -/
theorem keyHex_of_seedLinkKey {text : List Char} {type : Int} {key : LinkKey} {t : Int32}
    (h : IsHexField 32 text) (hseed : seedLinkKey text type = some (key, t)) :
  keyHex key = text.map Char.toLower
  := by
  obtain ⟨hlength, -, hread⟩ := seedLinkKey_eq_some_iff.mp hseed
  have hpairs := (isHexField_iff_pairs hlength).mp h
  have hbytes : (List.ofFn key).map hexByte
      = (List.ofFn fun i : Fin 16 => pairAt text i).map (List.map Char.toLower) := by
    rw [List.map_ofFn, List.map_ofFn]
    congr 1
    funext i
    obtain ⟨value, hvalue, hkey⟩ := hread i
    rw [Function.comp_apply, Function.comp_apply, hkey]
    apply hexByte_of_pair (hpairs i) hvalue
  rw [keyHex, List.flatMap_def, hbytes, ← List.map_flatten, flatten_pairs hlength]

/-- The text of a key is taken as that key. -/
theorem seedLinkKey_keyHex (key : LinkKey) (type : Int) :
  seedLinkKey (keyHex key) type = some (key, Int32.ofInt type)
  := by
  apply seedLinkKey_eq_some_iff.mpr
  rw [keyHex, length_flatMap_hexByte, List.length_ofFn]
  refine ⟨rfl, rfl, ?_⟩
  intro i
  have hget : (List.ofFn key)[(i : Nat)]? = some (key i) := by
    rw [List.getElem?_ofFn, dif_pos i.isLt]
  obtain ⟨s, hs⟩ := drop_flatMap_hexByte [] hget
  rw [List.append_nil] at hs
  have hpair : pairAt ((List.ofFn key).flatMap hexByte) i = hexByte (key i) ++ [] := by
    rw [pairAt, hs, List.append_nil]
    rfl
  use (key i).toNat
  rw [hpair, hexField_hexByte]
  use rfl
  have hbyte := (key i).toNat_lt
  have hvalue : (((key i).toNat : Int) % 256).toNat = (key i).toNat := by omega
  rw [hvalue, UInt8.ofNat_toNat]

/-! ### The law -/

section Law

variable {bt : AddrText} {linkKeyDir : List Char} {db : LinkKeyDb}
  {remoteAddr : Fin 6 → UInt8} {text : List Char} {type : Int32}

theorem seedLinkKeyCall_accepts (hdir : linkKeyDir ≠ []) :
  (seedLinkKeyCall bt linkKeyDir db remoteAddr text type).1 = (seedLinkKey text type.toInt).isSome
  := by
  rw [seedLinkKeyCall, if_neg (by simpa using hdir)]
  cases seedLinkKey text type.toInt with
  | none => rfl
  | some key => rfl

theorem getLinkKeyHex_eq (hdir : linkKeyDir ≠ []) :
  getLinkKeyHex linkKeyDir db remoteAddr
    = (db.dbGetLinkKey (bdAddrOf remoteAddr)).map fun (key, type) => (keyHex key, type)
  := if_neg (by simpa using hdir)

/-- The law of the texts of keys holds exactly for the texts that are not loose. -/
theorem keyCodecLaw_iff (bt : AddrText) (text : List Char) :
  KeyCodecLaw bt text ↔ ¬ IsLooseKey text
  := by
  constructor
  · intro hlaw hloose
    have haccepts := hlaw.accepts ['d'] (LinkKeyDb.start none) (fun _ => 0) 0 (List.cons_ne_nil _ _)
      ⟨none, [], rfl⟩
    rw [seedLinkKeyCall_accepts (List.cons_ne_nil _ _), isSome_seedLinkKey] at haccepts
    apply not_isHexField_of_isLooseKey hloose
    apply haccepts.mp (.inr hloose)
  · intro h
    have htaken : ∀ type, (seedLinkKey text type).isSome = true ↔ IsHexField 32 text := by
      intro type
      rw [isSome_seedLinkKey, or_iff_left h]
    constructor
    · intro linkKeyDir db remoteAddr type hdir _
      rw [seedLinkKeyCall_accepts hdir]
      apply htaken
    · intro linkKeyDir db remoteAddr type hdir _ hnot
      rw [← htaken type.toInt, Option.not_isSome_iff_eq_none] at hnot
      rw [seedLinkKeyCall, hnot]
      split <;> rfl
    · intro linkKeyDir db remoteAddr type hdir hreached db' hseed
      rw [seedLinkKeyCall, if_neg (by simpa using hdir)] at hseed
      split at hseed
      · cases hseed
      · rename_i key t hkey
        obtain ⟨-, rfl⟩ := Prod.mk.inj hseed
        have hhex : IsHexField 32 text := by
          rw [← htaken type.toInt, hkey]
          rfl
        obtain ⟨-, rfl, -⟩ := seedLinkKey_eq_some_iff.mp hkey
        rw [getLinkKeyHex_eq hdir, hreached.shaped.get_put, Option.map_some,
          ← keyHex_of_seedLinkKey hhex hkey, Int32.ofInt_toInt]
    · intro linkKeyDir db db' remoteAddr key type hdir _ hreached hget
      use keyHex key, db'.dbPutLinkKey bt (bdAddrOf remoteAddr) key type
      rw [getLinkKeyHex_eq hdir, hget]
      refine ⟨rfl, ?_, hreached.shaped.get_put _ _ _⟩
      rw [seedLinkKeyCall, if_neg (by simpa using hdir), seedLinkKey_keyHex, Int32.ofInt_toInt]

end Law

/-- Thirty-one digits behind a space are taken as a key. -/
theorem not_keyCodecLaw_space :
  ¬ KeyCodecLaw hexAddrText " a0b1c2d3e4f5061728394a5b6c7d8e9".toList
  := by
  intro hlaw
  have haccepts := hlaw.accepts ['d'] (LinkKeyDb.start none) (fun _ => 0) 4
    (List.cons_ne_nil _ _) ⟨none, [], rfl⟩
  have hhex := haccepts.mp (by decide +kernel)
  have hspace := hhex.digits ' ' (by decide)
  contradiction

end Ssc
