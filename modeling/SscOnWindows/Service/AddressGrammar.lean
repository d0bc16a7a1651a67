import SscOnWindows.Lib.HexFields
import SscOnWindows.Service.DeviceAddress

/-!
# The grammar of addresses

The dialog for a profile takes an address only in one form: six pairs of hexadecimal digits
with colons between them.  `parse_address` reads an address by `sscanf`, which takes that form
and others: white space in front of a field, a field of one digit or of a sign and a digit, and
any text behind the sixth field.
-/

namespace Ssc

open Scan

/-- `isxdigit`. -/
def isxdigit (c : Char) : Bool :=
  digitValue c < 16

/-- `ProfileDialog::validate_address`. -/
def validateAddress (addr : List Char) : Bool :=
  if addr.isEmpty then true
  else if addr.length ≠ 17 then false
  else (List.range 17).all fun i =>
    if i % 3 = 2 then addr[i]? = some ':' else (addr[i]?).any isxdigit

/-- `format_address`.  The bytes are in the order of `BTH_ADDR`: the last one comes first in the
text. -/
def formatBthAddr (addr : List UInt8) : List Char :=
  formatAddress addr.reverse

/-- `parse_address`, with the bytes in the order of `BTH_ADDR`. -/
def parseBthAddr (str : List Char) : Option (List UInt8) :=
  (parseAddress str).map List.reverse

/-- The text is accepted by the dialog, and not empty. -/
def IsAddress (s : List Char) : Prop :=
  s ≠ [] ∧ validateAddress s = true

/-- The text is read as an address in another form than the one of the dialog: a field has white
space or a sign in front or only one digit, or there is something behind the sixth field. -/
def IsLoose (s : List Char) : Prop :=
  ∃ fields tail, fields.length = 6 ∧ Numerals ':' 2 fields tail (cString s)
    ∧ (¬ (∀ f ∈ fields, f.Plain 2) ∨ tail ≠ [] ∨ cString s ≠ s)

/-- What the text `s` and the addresses promise. -/
structure AddressLaw (s : List Char) : Prop where
  accepts : (parseBthAddr s).isSome = true ↔ IsAddress s
  formats : ∀ addr, parseBthAddr s = some addr → formatBthAddr addr = s.map Char.toUpper
  parses : ∀ addr : List UInt8, addr.length = 6 → parseBthAddr (formatBthAddr addr) = some addr

/-! ### The form of the dialog -/

/-- The characters at the places of the digits and of the colons make up the fields. -/
theorem exists_fields {n : Nat} {s : List Char} (hlength : s.length = 3 * n + 2)
    (hchars : ∀ i < 3 * n + 2,
      if i % 3 = 2 then s[i]? = some ':' else ∃ c, s[i]? = some c ∧ digitValue c < 16) :
  ∃ texts : List (List Char), texts.length = n + 1 ∧ (∀ t ∈ texts, IsHexField 2 t)
    ∧ s = List.intercalate [':'] texts
  := by
  induction n generalizing s with
  | zero =>
      obtain ⟨a, b, rfl⟩ := List.length_eq_two.mp hlength
      obtain ⟨_, ha, hahex⟩ := hchars 0 (by decide)
      obtain ⟨_, hb, hbhex⟩ := hchars 1 (by decide)
      obtain rfl := Option.some.inj ha
      obtain rfl := Option.some.inj hb
      use [[a, b]], rfl
      constructor
      · intro t ht
        obtain rfl := List.mem_singleton.mp ht
        use rfl
        simp [hahex, hbhex]
      · rw [List.intercalate_singleton]
  | succ n ih =>
      match s, hlength with
      | a :: b :: c :: s, hlength =>
          obtain ⟨_, ha, hahex⟩ := hchars 0 (by omega)
          obtain ⟨_, hb, hbhex⟩ := hchars 1 (by omega)
          obtain rfl := Option.some.inj ha
          obtain rfl := Option.some.inj hb
          have hc : c = ':' := Option.some.inj (hchars 2 (by omega))
          obtain ⟨texts, htexts, hhex, rfl⟩ := ih (s := s)
            (by simp only [List.length_cons] at hlength; omega)
            (by
              intro i hi
              have hchar := hchars (i + 3) (by omega)
              rw [Nat.add_mod_right] at hchar
              simpa only [List.getElem?_cons_succ] using hchar)
          have hne : texts ≠ [] := List.ne_nil_of_length_eq_add_one htexts
          use [a, b] :: texts
          rw [List.length_cons, htexts]
          refine ⟨rfl, ?_, ?_⟩
          · intro t ht
            obtain rfl | ht := List.mem_cons.mp ht
            · use rfl
              simp [hahex, hbhex]
            · apply hhex t ht
          · rw [List.intercalate_cons_of_ne_nil hne, hc]
            rfl

/-- The form of the dialog: six pairs of hexadecimal digits with colons between them. -/
theorem isAddress_iff {s : List Char} :
  IsAddress s ↔ ∃ texts : List (List Char), texts.length = 6 ∧ (∀ t ∈ texts, IsHexField 2 t)
    ∧ s = List.intercalate [':'] texts
  := by
  constructor
  · rintro ⟨hne, hvalid⟩
    rw [validateAddress, if_neg (by simpa using hne)] at hvalid
    split at hvalid
    · contradiction
    · rename_i hlength
      rw [not_not] at hlength
      apply exists_fields (n := 5) hlength
      intro i hi
      have hchar := List.all_eq_true.mp hvalid i (List.mem_range.mpr hi)
      split at hchar
      · rename_i hcolon
        rw [if_pos hcolon]
        simpa using hchar
      · rename_i hdigit
        rw [if_neg hdigit]
        obtain ⟨c, hc, hhex⟩ := (Option.any_eq_true _ _).mp hchar
        use c, hc
        simpa [isxdigit] using hhex
  · rintro ⟨texts, hlength, hhex, rfl⟩
    match texts, hlength with
    | [t₀, t₁, t₂, t₃, t₄, t₅], _ =>
        simp only [List.forall_mem_cons] at hhex
        obtain ⟨h₀, h₁, h₂, h₃, h₄, h₅, -⟩ := hhex
        obtain ⟨a₀, b₀, rfl⟩ := List.length_eq_two.mp h₀.length
        obtain ⟨a₁, b₁, rfl⟩ := List.length_eq_two.mp h₁.length
        obtain ⟨a₂, b₂, rfl⟩ := List.length_eq_two.mp h₂.length
        obtain ⟨a₃, b₃, rfl⟩ := List.length_eq_two.mp h₃.length
        obtain ⟨a₄, b₄, rfl⟩ := List.length_eq_two.mp h₄.length
        obtain ⟨a₅, b₅, rfl⟩ := List.length_eq_two.mp h₅.length
        constructor
        · simp
        · have g₀ := h₀.digits
          have g₁ := h₁.digits
          have g₂ := h₂.digits
          have g₃ := h₃.digits
          have g₄ := h₄.digits
          have g₅ := h₅.digits
          simp only [List.forall_mem_cons] at g₀ g₁ g₂ g₃ g₄ g₅
          simp [validateAddress, List.range_succ, isxdigit, g₀, g₁, g₂, g₃, g₄, g₅]

theorem mem_intercalate {separator c : Char} {texts : List (List Char)}
    (h : c ∈ List.intercalate [separator] texts) :
  c = separator ∨ ∃ t ∈ texts, c ∈ t
  := by
  induction texts with
  | nil => cases h
  | cons t texts ih =>
      rcases eq_or_ne texts [] with rfl | hne
      · rw [List.intercalate_singleton] at h
        right
        use t, List.mem_cons_self, h
      · rw [List.intercalate_cons_of_ne_nil hne, List.mem_append, List.mem_append,
          List.mem_singleton] at h
        rcases h with (h | h) | h
        · right
          use t, List.mem_cons_self, h
        · left
          apply h
        · rcases ih h with h | ⟨u, hu, h⟩
          · left
            apply h
          · right
            use u, List.mem_cons_of_mem t hu, h

/-- Nothing in an address ends a string. -/
theorem cString_of_isAddress {s : List Char} (h : IsAddress s) :
  cString s = s
  := by
  obtain ⟨texts, -, hhex, rfl⟩ := isAddress_iff.mp h
  apply cString_of_plain
  intro c hc
  rcases mem_intercalate hc with rfl | ⟨t, ht, hc⟩
  · decide
  · have hplain := (digit_spec ((hhex t ht).digits c hc)).2
    simp only [List.mem_cons, not_or] at hplain
    apply hplain.2.2.2.2.2.1

/-! ### Reading and writing -/

/-- The byte of a numeral. -/
def numeralByte (n : HexNumeral) : UInt8 :=
  UInt8.ofNat (n.value % 256).toNat

/-- `parse_address` reads six numerals with colons between them, and does not look at what
follows. -/
theorem parseAddress_eq_some_iff {s : List Char} {addr : List UInt8} :
  parseAddress s = some addr
    ↔ ∃ fields tail, fields.length = 6 ∧ Numerals ':' 2 fields tail (cString s)
      ∧ addr = fields.map numeralByte
  := by
  rw [parseAddress, Option.map_eq_some_iff]
  constructor
  · rintro ⟨values, hvalues, rfl⟩
    obtain ⟨fields, tail, hlength, hnumerals, rfl⟩ :=
      (hexFields_eq_some_iff (by decide) (by decide)).mp hvalues
    use fields, tail, hlength, hnumerals
    rw [List.map_map]
    rfl
  · rintro ⟨fields, tail, hlength, hnumerals, rfl⟩
    use fields.map HexNumeral.value
    constructor
    · apply (hexFields_eq_some_iff (by decide) (by decide)).mpr
      use fields, tail
    · rw [List.map_map]
      rfl

/-- Where the hexadecimal digits are among the characters. -/
theorem toNat_of_digit {c : Char} (h : digitValue c < 16) :
  (48 ≤ c.toNat ∧ c.toNat ≤ 57) ∨ (97 ≤ c.toNat ∧ c.toNat ≤ 102) ∨ (65 ≤ c.toNat ∧ c.toNat ≤ 70)
  := by
  rw [digitValue] at h
  split_ifs at h <;> omega

/-- The digit with the value of a digit is that digit, up to its case. -/
theorem toUpper_digitChar_digitValue {c : Char} (h : digitValue c < 16) :
  (Nat.digitChar (digitValue c)).toUpper = c.toUpper
  := by
  have hrange := toNat_of_digit h
  rw [← Char.ofNat_toNat c]
  generalize c.toNat = n at hrange
  rcases hrange with ⟨hlo, hhi⟩ | ⟨hlo, hhi⟩ | ⟨hlo, hhi⟩
  · interval_cases n <;> rfl
  · interval_cases n <;> rfl
  · interval_cases n <;> rfl

/-- The byte of two digits is written by these digits in upper case. -/
theorem upperHexByte_numeralByte {n : HexNumeral} (hlegal : n.Legal 2) (hplain : n.Plain 2) :
  upperHexByte (numeralByte n) = n.text.map Char.toUpper
  := by
  obtain ⟨a, b, hdigits⟩ := List.length_eq_two.mp hplain.digits
  have ha : digitValue a < 16 := hlegal.digits a (by simp [hdigits])
  have hb : digitValue b < 16 := hlegal.digits b (by simp [hdigits])
  have hbyte : (numeralByte n).toNat = 16 * digitValue a + digitValue b := by
    rw [numeralByte, HexNumeral.value, hplain.sign, hdigits, ofDigits]
    simp
    omega
  rw [hplain.text_eq, hdigits, upperHexByte, hexByte, hbyte]
  have hhi : (16 * digitValue a + digitValue b) / 16 = digitValue a := by omega
  have hlo : (16 * digitValue a + digitValue b) % 16 = digitValue b := by omega
  simp only [hhi, hlo, List.map_cons, List.map_nil, toUpper_digitChar_digitValue ha,
    toUpper_digitChar_digitValue hb]

theorem map_intercalate {f : Char → Char} {separator : Char} (hf : f separator = separator)
    (texts : List (List Char)) :
  (List.intercalate [separator] texts).map f
    = List.intercalate [separator] (texts.map (List.map f))
  := by
  induction texts with
  | nil => rfl
  | cons t texts ih =>
      rcases eq_or_ne texts [] with rfl | hne
      · rw [List.intercalate_singleton, List.map_singleton, List.intercalate_singleton]
      · rw [List.intercalate_cons_of_ne_nil hne, List.map_cons,
          List.intercalate_cons_of_ne_nil (by simpa using hne), List.map_append, List.map_append,
          List.map_singleton, hf, ih]

/-- An address read from plain fields is written in upper case. -/
theorem formatAddress_of_plain {s : List Char} {fields : List HexNumeral}
    (hplain : ∀ f ∈ fields, f.Plain 2) (h : Numerals ':' 2 fields [] s) :
  formatAddress (fields.map numeralByte) = s.map Char.toUpper
  := by
  rw [h.text, List.append_nil, map_intercalate rfl, formatAddress, List.map_map, List.map_map]
  congr 1
  apply List.map_congr_left
  intro f hf
  apply upperHexByte_numeralByte (h.legal f hf) (hplain f hf)

/-- The two digits of a byte are a field with that byte. -/
theorem upperHexByte_isHexField (b : UInt8) :
  IsHexField 2 (upperHexByte b)
  := by
  constructor
  · rfl
  · intro c hc
    apply digit_upperHexByte hc

theorem numeralByte_upperHexByte (b : UInt8) :
  numeralByte (HexNumeral.ofField (upperHexByte b)) = b
  := by
  have hb : b.toNat < 256 := b.toNat_lt
  have hhi := digitValue_toUpper_digitChar (d := b.toNat / 16) (by omega)
  have hlo := digitValue_toUpper_digitChar (d := b.toNat % 16) (by omega)
  apply UInt8.toNat_inj.mp
  rw [numeralByte, HexNumeral.value, HexNumeral.ofField, upperHexByte, hexByte, ofDigits]
  simp [hhi, hlo]
  omega

/-- Addresses are read back. -/
theorem parseAddress_formatAddress {addr : List UInt8} (h : addr.length = 6) :
  parseAddress (formatAddress addr) = some addr
  := by
  have hhex : ∀ t ∈ addr.map upperHexByte, IsHexField 2 t := by
    intro t ht
    obtain ⟨b, -, rfl⟩ := List.mem_map.mp ht
    apply upperHexByte_isHexField
  have haddress : IsAddress (formatAddress addr) := by
    apply isAddress_iff.mpr
    use addr.map upperHexByte
    rw [List.length_map, h]
    exact ⟨rfl, hhex, rfl⟩
  apply parseAddress_eq_some_iff.mpr
  use (addr.map upperHexByte).map HexNumeral.ofField, []
  rw [cString_of_isAddress haddress]
  refine ⟨by simpa using h, numerals_ofField ':' (by decide) hhex, ?_⟩
  have hbytes : addr.map (numeralByte ∘ HexNumeral.ofField ∘ upperHexByte) = addr :=
    List.map_id'' numeralByte_upperHexByte addr
  rw [List.map_map, List.map_map, Function.comp_assoc, hbytes]

/-- An address is read from the plain numerals of its digits. -/
theorem exists_numerals_of_isAddress {s : List Char} (h : IsAddress s) :
  ∃ fields, fields.length = 6 ∧ (∀ f ∈ fields, f.Plain 2) ∧ Numerals ':' 2 fields [] (cString s)
  := by
  obtain ⟨texts, hlength, hhex, heq⟩ := isAddress_iff.mp h
  use texts.map HexNumeral.ofField
  rw [cString_of_isAddress h, heq, List.length_map]
  refine ⟨hlength, ?_, numerals_ofField ':' (by decide) hhex⟩
  intro f hf
  obtain ⟨t, ht, rfl⟩ := List.mem_map.mp hf
  apply HexNumeral.ofField_plain (hhex t ht)

/-- An address is not read in another form. -/
theorem not_isLoose_of_isAddress {s : List Char} (h : IsAddress s) :
  ¬ IsLoose s
  := by
  rintro ⟨fields, tail, hlength, hnumerals, hother⟩
  obtain ⟨texts, htexts, hhex, heq⟩ := isAddress_iff.mp h
  rw [cString_of_isAddress h, heq] at hnumerals
  obtain ⟨hplain, htail⟩ := hnumerals.plain (by decide) (by decide) (hlength.trans htexts.symm)
    (List.ne_nil_of_length_eq_add_one hlength) hhex
  rcases hother with hother | hother | hother
  · apply hother hplain
  · apply hother htail
  · apply hother (cString_of_isAddress h)

/-- What is read is an address or another form of one. -/
theorem plain_of_not_isLoose {s : List Char} (h : ¬ IsLoose s) {fields : List HexNumeral}
    {tail : List Char} (hlength : fields.length = 6)
    (hnumerals : Numerals ':' 2 fields tail (cString s)) :
  (∀ f ∈ fields, f.Plain 2) ∧ tail = [] ∧ cString s = s
  := by
  refine ⟨?_, ?_, ?_⟩
  · by_contra hplain
    apply h ⟨fields, tail, hlength, hnumerals, .inl hplain⟩
  · by_contra htail
    apply h ⟨fields, tail, hlength, hnumerals, .inr (.inl htail)⟩
  · by_contra hstring
    apply h ⟨fields, tail, hlength, hnumerals, .inr (.inr hstring)⟩

theorem isAddress_of_plain {s : List Char} {fields : List HexNumeral} (hlength : fields.length = 6)
    (hplain : ∀ f ∈ fields, f.Plain 2) (hnumerals : Numerals ':' 2 fields [] s) :
  IsAddress s
  := by
  apply isAddress_iff.mpr
  use fields.map HexNumeral.text
  refine ⟨by rw [List.length_map, hlength], ?_, ?_⟩
  · intro t ht
    obtain ⟨f, hf, rfl⟩ := List.mem_map.mp ht
    rw [(hplain f hf).text_eq]
    exact ⟨(hplain f hf).digits, (hnumerals.legal f hf).digits⟩
  · rw [hnumerals.text, List.append_nil]

/-- The law of the addresses holds exactly for the texts that are not read in another form. -/
theorem addressLaw_iff (s : List Char) :
  AddressLaw s ↔ ¬ IsLoose s
  := by
  constructor
  · rintro hlaw ⟨fields, tail, hlength, hnumerals, hother⟩
    have haccepted : (parseBthAddr s).isSome = true := by
      rw [parseBthAddr, parseAddress_eq_some_iff.mpr ⟨fields, tail, hlength, hnumerals, rfl⟩]
      rfl
    apply not_isLoose_of_isAddress (hlaw.accepts.mp haccepted)
    use fields, tail
  · intro h
    constructor
    · constructor
      · intro haccepted
        obtain ⟨addr, haddr⟩ := Option.isSome_iff_exists.mp haccepted
        obtain ⟨bytes, hbytes, -⟩ := Option.map_eq_some_iff.mp haddr
        obtain ⟨fields, tail, hlength, hnumerals, -⟩ := parseAddress_eq_some_iff.mp hbytes
        obtain ⟨hplain, rfl, hstring⟩ := plain_of_not_isLoose h hlength hnumerals
        rw [hstring] at hnumerals
        apply isAddress_of_plain hlength hplain hnumerals
      · intro haddress
        obtain ⟨fields, hlength, -, hnumerals⟩ := exists_numerals_of_isAddress haddress
        rw [parseBthAddr, parseAddress_eq_some_iff.mpr ⟨fields, [], hlength, hnumerals, rfl⟩]
        rfl
    · intro addr haddr
      obtain ⟨bytes, hbytes, rfl⟩ := Option.map_eq_some_iff.mp haddr
      obtain ⟨fields, tail, hlength, hnumerals, rfl⟩ := parseAddress_eq_some_iff.mp hbytes
      obtain ⟨hplain, rfl, hstring⟩ := plain_of_not_isLoose h hlength hnumerals
      rw [hstring] at hnumerals
      rw [formatBthAddr, List.reverse_reverse, formatAddress_of_plain hplain hnumerals]
    · intro addr haddr
      rw [formatBthAddr, parseBthAddr, parseAddress_formatAddress (by simpa using haddr),
        Option.map_some, List.reverse_reverse]

/-- Six digits with colons between them are read as an address. -/
theorem not_addressLaw_short :
  ¬ AddressLaw "1:2:3:4:5:6".toList
  := by
  intro hlaw
  have haddress : IsAddress "1:2:3:4:5:6".toList := hlaw.accepts.mp (by decide)
  apply absurd haddress.2
  decide

end Ssc
