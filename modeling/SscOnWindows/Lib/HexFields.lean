import SscOnWindows.Lib.Scan

/-!
# The texts `%x` reads

`%x` with a field of at most `width` characters skips white space and takes a sign, the mark
of a hexadecimal number and as many digits as there are in the field.  A numeral consists of
these parts; a text is read exactly when it begins with a numeral that ends where the field
ends, or in front of a character that does not continue it.  Several fields with a separator
between them are read when the text begins with so many numerals.
-/

namespace Scan

/-- The parts of a number as `%x` reads it. -/
structure HexNumeral where
  spaces : List Char
  sign : List Char
  mark : List Char
  digits : List Char
  deriving DecidableEq, Repr

namespace HexNumeral

variable {width : Nat} {n : HexNumeral} {rest : List Char}

/-- The number of characters that count towards the width of the field. -/
def size (n : HexNumeral) : Nat :=
  n.sign.length + n.mark.length + n.digits.length

/-- The numeral behind its white space. -/
def body (n : HexNumeral) : List Char :=
  n.sign ++ n.mark ++ n.digits

def text (n : HexNumeral) : List Char :=
  n.spaces ++ n.body

def value (n : HexNumeral) : Int :=
  (if n.sign = ['-'] then -1 else 1) * (ofDigits 16 n.digits : Int)

/-- The numeral is written as a field of at most `width` characters. -/
structure Legal (width : Nat) (n : HexNumeral) : Prop where
  spaces : ∀ c ∈ n.spaces, isSpace c = true
  sign : n.sign = [] ∨ n.sign = ['-'] ∨ n.sign = ['+']
  mark : n.mark = [] ∨ n.mark = ['0', 'x'] ∨ n.mark = ['0', 'X']
  digits : ∀ c ∈ n.digits, digitValue c < 16
  digits_ne_nil : n.digits ≠ []
  size_le : n.size ≤ width

/-- What follows the numeral does not continue it: it fills its field, or there is no digit
behind it and no mark that begins with its zero. -/
def Ends (width : Nat) (n : HexNumeral) (rest : List Char) : Prop :=
  n.size < width → ∀ c ∈ rest.head?, 16 ≤ digitValue c
    ∧ (n.mark = [] → n.digits = ['0'] → c ≠ 'x' ∧ c ≠ 'X')

theorem length_body (n : HexNumeral) :
  n.body.length = n.size
  := by
  rw [body, size, List.length_append, List.length_append]

end HexNumeral

/-! ### Taking a numeral apart -/

theorem sign_split (s : List Char) :
  ∃ sg, (sg = [] ∨ sg = ['-'] ∨ sg = ['+']) ∧ s = sg ++ (sign s).2
    ∧ (sign s).1 = if sg = ['-'] then -1 else 1
  := by
  cases s with
  | nil =>
      use [], .inl rfl
      exact ⟨rfl, rfl⟩
  | cons c s =>
      rw [sign]
      split
      · rename_i hminus
        use ['-'], .inr (.inl rfl)
        rw [hminus]
        exact ⟨rfl, rfl⟩
      · split
        · rename_i hplus
          use ['+'], .inr (.inr rfl)
          rw [hplus]
          exact ⟨rfl, rfl⟩
        · use [], .inl rfl
          exact ⟨rfl, rfl⟩

/-- The text begins with the mark of a hexadecimal number. -/
def HasMark (s : List Char) : Prop :=
  s.head? = some '0' ∧ (s[1]? = some 'x' ∨ s[1]? = some 'X')

theorem dropMark_split (s : List Char) :
  ∃ mark, (mark = [] ∨ mark = ['0', 'x'] ∨ mark = ['0', 'X']) ∧ s = mark ++ dropMark 16 s
    ∧ (mark = [] → ¬ HasMark s)
  := by
  by_cases h : HasMark s
  · match s, h with
    | c :: d :: s, ⟨hzero, hx⟩ =>
        obtain rfl := Option.some.inj hzero
        rw [dropMark, if_pos ⟨rfl, rfl, hx⟩]
        rcases hx with hx | hx
        · obtain rfl := Option.some.inj hx
          use ['0', 'x'], .inr (.inl rfl), rfl
          intro hnil
          cases hnil
        · obtain rfl := Option.some.inj hx
          use ['0', 'X'], .inr (.inr rfl), rfl
          intro hnil
          cases hnil
  · rw [dropMark, if_neg (fun hmark => h hmark.2)]
    use [], .inl rfl, rfl
    intro _
    apply h

/-- A number is read when there are digits. -/
theorem natural_eq_some {base : Nat} {s : List Char} {n : Nat} (h : natural base s = some n) :
  (dropMark base s).takeWhile (digitValue · < base) ≠ []
    ∧ n = ofDigits base ((dropMark base s).takeWhile (digitValue · < base))
  := by
  rw [natural] at h
  split at h
  · contradiction
  · rename_i hne
    use hne
    apply (Option.some.inj h).symm

/-- The character behind the digits is none. -/
theorem digit_of_dropWhile {base : Nat} {s r : List Char} {c : Char}
    (h : s.dropWhile (digitValue · < base) = c :: r) :
  base ≤ digitValue c
  := by
  have hnot := List.head?_dropWhile_not (digitValue · < base) s
  rw [h] at hnot
  simpa using hnot

/-- What is read is a numeral. -/
theorem exists_numeral_of_hexFieldRest {width : Nat} {s rest : List Char} {v : Int}
    (h : hexFieldRest width s = some (v, rest)) :
  ∃ n : HexNumeral, n.Legal width ∧ n.Ends width rest ∧ s = n.text ++ rest ∧ v = n.value
  := by
  obtain ⟨value, hvalue, hpair⟩ := Option.map_eq_some_iff.mp h
  obtain ⟨rfl, rfl⟩ := Prod.mk.inj hpair
  obtain ⟨count, hcount, rfl⟩ := Option.map_eq_some_iff.mp hvalue
  obtain ⟨hdigits, rfl⟩ := natural_eq_some hcount
  have hspaces : s = s.takeWhile isSpace ++ s.dropWhile isSpace :=
    List.takeWhile_append_dropWhile.symm
  generalize s.dropWhile isSpace = t at *
  obtain ⟨sg, hsg, hsplit, hsign⟩ := sign_split (t.take width)
  obtain ⟨mark, hmark, hmarked, hnomark⟩ := dropMark_split (sign (t.take width)).2
  rw [hsign]
  rw [numberLength]
  generalize (sign (t.take width)).2 = u at *
  have hbehind : dropMark 16 u = (dropMark 16 u).takeWhile (digitValue · < 16)
      ++ (dropMark 16 u).dropWhile (digitValue · < 16) :=
    List.takeWhile_append_dropWhile.symm
  have hstop := @digit_of_dropWhile 16 (dropMark 16 u)
  have hhex : ∀ c ∈ (dropMark 16 u).takeWhile (digitValue · < 16), digitValue c < 16 := by
    intro c hc
    simpa using List.mem_takeWhile_imp hc
  generalize (dropMark 16 u).takeWhile (digitValue · < 16) = digits at *
  generalize (dropMark 16 u).dropWhile (digitValue · < 16) = r at *
  have hcut : t = t.take width ++ t.drop width := (List.take_append_drop width t).symm
  have hfull : (t.take width).length < width → t.drop width = [] := by
    intro hlt
    rw [List.length_take] at hlt
    apply List.drop_eq_nil_of_le
    omega
  rw [hmarked, hbehind] at hsplit
  rw [hsplit] at hcut hfull ⊢
  generalize t.drop width = d at *
  have hlength : (sg ++ (mark ++ (digits ++ r))).length - r.length
      = (sg ++ mark ++ digits).length := by
    simp only [List.length_append]
    omega
  have hparts : t = (sg ++ mark ++ digits) ++ (r ++ d) := by
    rw [hcut]
    simp only [List.append_assoc]
  have hdrop : t.drop ((sg ++ (mark ++ (digits ++ r))).length - r.length) = r ++ d := by
    rw [hlength, hparts, List.drop_left]
  have hle : (sg ++ mark ++ digits ++ r).length ≤ width := by
    have htake := List.length_take_le width t
    rw [hsplit] at htake
    simpa only [List.append_assoc] using htake
  rw [hdrop]
  use ⟨s.takeWhile isSpace, sg, mark, digits⟩
  constructor
  · constructor
    · intro c hc
      apply List.mem_takeWhile_imp hc
    · apply hsg
    · apply hmark
    · apply hhex
    · apply hdigits
    · simp only [List.length_append] at hle
      simp only [HexNumeral.size]
      omega
  constructor
  · intro hsize c hc
    simp only [HexNumeral.size] at hsize
    cases r with
    | nil =>
        have hnil : d = [] := by
          apply hfull
          simp only [List.length_append, List.length_nil]
          omega
        rw [hnil] at hc
        cases hc
    | cons c' r =>
        obtain rfl : c' = c := Option.some.inj hc
        use hstop rfl
        intro hno hzero
        have hnot := hnomark hno
        dsimp only at hno hzero
        rw [hmarked, hbehind, hno, hzero] at hnot
        constructor
        · rintro rfl
          apply hnot ⟨rfl, .inl rfl⟩
        · rintro rfl
          apply hnot ⟨rfl, .inr rfl⟩
  constructor
  · rw [HexNumeral.text, HexNumeral.body, List.append_assoc, ← hparts]
    apply hspaces
  · rfl

/-! ### Reading a numeral -/

namespace HexNumeral

variable {width : Nat} {n : HexNumeral} {rest : List Char}

/-- The mark and the digits begin with a digit. -/
theorem Legal.exists_digit (h : n.Legal width) :
  ∃ c s, n.mark ++ n.digits = c :: s ∧ digitValue c < 16
  := by
  rcases h.mark with hmark | hmark | hmark
  · cases hdigits : n.digits with
    | nil => apply absurd hdigits h.digits_ne_nil
    | cons c s =>
        use c, s
        rw [hmark]
        use rfl
        apply h.digits
        rw [hdigits]
        apply List.mem_cons_self
  · use '0', 'x' :: n.digits
    rw [hmark]
    exact ⟨rfl, by decide⟩
  · use '0', 'X' :: n.digits
    rw [hmark]
    exact ⟨rfl, by decide⟩

theorem Legal.sign_eq (h : n.Legal width) (s : List Char) :
  Scan.sign (n.sign ++ (n.mark ++ n.digits ++ s))
    = (if n.sign = ['-'] then -1 else 1, n.mark ++ n.digits ++ s)
  := by
  rcases h.sign with hsign | hsign | hsign
  · obtain ⟨c, t, hdigit, hc⟩ := h.exists_digit
    rw [hsign, List.nil_append, hdigit, List.cons_append, sign_digit hc]
    rfl
  · rw [hsign]
    rfl
  · rw [hsign]
    rfl

/-- The white space is skipped. -/
theorem Legal.dropWhile_text (h : n.Legal width) :
  (n.text ++ rest).dropWhile isSpace = n.body ++ rest
  := by
  have hhead : ∃ c s, n.body = c :: s ∧ isSpace c = false := by
    obtain ⟨c, t, hdigit, hc⟩ := h.exists_digit
    rcases h.sign with hsign | hsign | hsign
    · use c, t
      rw [body, List.append_assoc, hsign, List.nil_append]
      exact ⟨hdigit, (digit_spec hc).1⟩
    · use '-', c :: t
      rw [body, List.append_assoc, hsign, hdigit]
      exact ⟨rfl, rfl⟩
    · use '+', c :: t
      rw [body, List.append_assoc, hsign, hdigit]
      exact ⟨rfl, rfl⟩
  obtain ⟨c, s, hbody, hc⟩ := hhead
  rw [text, List.append_assoc, List.dropWhile_append_of_pos h.spaces, hbody, List.cons_append,
    List.dropWhile_cons_of_neg (by simp [hc])]

/-- What follows the numeral does not continue it, when it is cut at the end of the field. -/
theorem Ends.take (h : n.Ends width rest) :
  ∀ c ∈ (rest.take (width - n.size)).head?, 16 ≤ digitValue c
    ∧ (n.mark = [] → n.digits = ['0'] → c ≠ 'x' ∧ c ≠ 'X')
  := by
  intro c hc
  rw [List.head?_take] at hc
  split at hc
  · cases hc
  · apply h (by omega) c hc

/-- The mark is dropped in front of the digits. -/
theorem Legal.dropMark_eq (h : n.Legal width) {s : List Char}
    (hs : ∀ c ∈ s.head?, 16 ≤ digitValue c ∧ (n.mark = [] → n.digits = ['0'] → c ≠ 'x' ∧ c ≠ 'X')) :
  dropMark 16 (n.mark ++ n.digits ++ s) = n.digits ++ s
  := by
  rcases h.mark with hmark | hmark | hmark
  · rw [hmark, List.nil_append, dropMark, if_neg]
    rintro ⟨-, hzero, hx⟩
    rcases hdigits : n.digits with - | ⟨c, - | ⟨d, digits⟩⟩
    · apply h.digits_ne_nil hdigits
    · rw [hdigits] at hzero hx
      obtain rfl := Option.some.inj hzero
      have hnot : ∀ d ∈ s.head?, d ≠ 'x' ∧ d ≠ 'X' := fun d hd => (hs d hd).2 hmark hdigits
      rw [List.singleton_append, List.getElem?_cons_succ, ← List.head?_eq_getElem?] at hx
      rcases hx with hx | hx
      · apply (hnot 'x' hx).1 rfl
      · apply (hnot 'X' hx).2 rfl
    · rw [hdigits] at hx
      have hd := (digit_spec (h.digits d (by simp [hdigits]))).2
      simp only [List.mem_cons, not_or] at hd
      simp [hd.2.2.1, hd.2.2.2.1] at hx
  · rw [hmark]
    rfl
  · rw [hmark]
    rfl

theorem Legal.takeWhile_digits (h : n.Legal width) {s : List Char}
    (hs : ∀ c ∈ s.head?, 16 ≤ digitValue c) :
  (n.digits ++ s).takeWhile (digitValue · < 16) = n.digits
    ∧ (n.digits ++ s).dropWhile (digitValue · < 16) = s
  := by
  have hdigits : ∀ c ∈ n.digits, decide (digitValue c < 16) = true := by
    intro c hc
    apply decide_eq_true (h.digits c hc)
  rw [List.takeWhile_append_of_pos hdigits, List.dropWhile_append_of_pos hdigits]
  cases s with
  | nil => simp
  | cons c s =>
      have hc := hs c rfl
      rw [List.takeWhile_cons_of_neg, List.dropWhile_cons_of_neg, List.append_nil]
      · exact ⟨rfl, rfl⟩
      · simpa using hc
      · simpa using hc

end HexNumeral

/-- A numeral is read when what follows does not continue it. -/
theorem hexFieldRest_numeral {width : Nat} {n : HexNumeral} {rest : List Char}
    (h : n.Legal width) (hends : n.Ends width rest) :
  hexFieldRest width (n.text ++ rest) = some (n.value, rest)
  := by
  have htake : (n.body ++ rest).take width
      = n.sign ++ (n.mark ++ n.digits ++ rest.take (width - n.size)) := by
    rw [List.take_append, n.length_body, List.take_of_length_le, HexNumeral.body]
    · simp only [List.append_assoc]
    · rw [n.length_body]
      apply h.size_le
  obtain ⟨htaken, hdropped⟩ := h.takeWhile_digits (fun c hc => (hends.take c hc).1)
  have hnatural : natural 16 (n.mark ++ n.digits ++ rest.take (width - n.size))
      = some (ofDigits 16 n.digits) := by
    rw [natural, h.dropMark_eq hends.take, htaken, if_neg h.digits_ne_nil]
  have hfield : hexField width (n.text ++ rest) = some n.value := by
    rw [hexField, h.dropWhile_text, htake, integer, h.sign_eq, hnatural]
    rfl
  have hlength : numberLength 16 ((n.body ++ rest).take width) = n.body.length := by
    rw [htake, numberLength, h.sign_eq, h.dropMark_eq hends.take, hdropped, n.length_body,
      HexNumeral.size]
    simp only [List.length_append]
    omega
  rw [hexFieldRest, hfield, Option.map_some, h.dropWhile_text]
  dsimp only
  rw [hlength, List.drop_left]

/-- What `%x` reads: a numeral that ends in front of what it leaves. -/
theorem hexFieldRest_eq_some_iff {width : Nat} {s rest : List Char} {v : Int} :
  hexFieldRest width s = some (v, rest)
    ↔ ∃ n : HexNumeral, n.Legal width ∧ n.Ends width rest ∧ s = n.text ++ rest ∧ v = n.value
  := by
  constructor
  · apply exists_numeral_of_hexFieldRest
  · rintro ⟨n, h, hends, rfl, rfl⟩
    apply hexFieldRest_numeral h hends

/-! ### Several fields -/

/-- The text consists of numerals with the separator between them, and of a tail that the last
of them ends in front of. -/
structure Numerals (separator : Char) (width : Nat) (fields : List HexNumeral)
    (tail s : List Char) : Prop where
  legal : ∀ n ∈ fields, n.Legal width
  text : s = List.intercalate [separator] (fields.map HexNumeral.text) ++ tail
  ends : ∀ n ∈ fields.getLast?, n.Ends width tail

variable {separator : Char} {width : Nat}

theorem intercalate_text_cons (f : HexNumeral) {fields : List HexNumeral} (hne : fields ≠ []) :
  List.intercalate [separator] ((f :: fields).map HexNumeral.text)
    = f.text ++ separator :: List.intercalate [separator] (fields.map HexNumeral.text)
  := by
  rw [List.map_cons, List.intercalate_cons_of_ne_nil]
  · simp only [List.append_assoc, List.singleton_append]
  · simpa using hne

/-- Behind the first of several fields there is a separator. -/
theorem numerals_cons_iff (hdigit : 16 ≤ digitValue separator)
    (hx : separator ≠ 'x' ∧ separator ≠ 'X') {f : HexNumeral} {fields : List HexNumeral}
    {tail s : List Char} (hne : fields ≠ []) :
  Numerals separator width (f :: fields) tail s
    ↔ f.Legal width ∧ ∃ rest, s = f.text ++ separator :: rest
      ∧ f.Ends width (separator :: rest) ∧ Numerals separator width fields tail rest
  := by
  have hlast : (f :: fields).getLast? = fields.getLast? := by
    obtain ⟨g, gs, rfl⟩ := List.exists_cons_of_ne_nil hne
    apply List.getLast?_cons_cons
  constructor
  · rintro ⟨hlegal, htext, hends⟩
    rw [intercalate_text_cons f hne, List.append_assoc, List.cons_append] at htext
    rw [hlast] at hends
    use hlegal f List.mem_cons_self
    refine ⟨_, htext, ?_, ?_, rfl, hends⟩
    · intro _ c hc
      obtain rfl := Option.some.inj hc
      exact ⟨hdigit, fun _ _ => hx⟩
    · intro n hn
      apply hlegal n (List.mem_cons_of_mem f hn)
  · rintro ⟨hf, rest, htext, -, hlegal, rfl, hends⟩
    constructor
    · intro n hn
      obtain rfl | hn := List.mem_cons.mp hn
      · apply hf
      · apply hlegal n hn
    · rw [intercalate_text_cons f hne, htext, List.append_assoc, List.cons_append]
    · rw [hlast]
      apply hends

theorem numerals_singleton_iff {f : HexNumeral} {tail s : List Char} :
  Numerals separator width [f] tail s
    ↔ f.Legal width ∧ s = f.text ++ tail ∧ f.Ends width tail
  := by
  constructor
  · rintro ⟨hlegal, htext, hends⟩
    rw [List.map_singleton, List.intercalate_singleton] at htext
    exact ⟨hlegal f List.mem_cons_self, htext, hends f rfl⟩
  · rintro ⟨hf, htext, hends⟩
    constructor
    · intro n hn
      obtain rfl := List.mem_singleton.mp hn
      apply hf
    · rw [List.map_singleton, List.intercalate_singleton]
      apply htext
    · intro n hn
      obtain rfl := Option.some.inj hn
      apply hends

/-- What several fields read: numerals with the separator between them. -/
theorem hexFields_eq_some_iff (hdigit : 16 ≤ digitValue separator)
    (hx : separator ≠ 'x' ∧ separator ≠ 'X') {n : Nat} {s : List Char} {values : List Int} :
  hexFields separator width (n + 1) s = some values
    ↔ ∃ fields tail, fields.length = n + 1 ∧ Numerals separator width fields tail s
      ∧ values = fields.map HexNumeral.value
  := by
  induction n generalizing s values with
  | zero =>
      rw [hexFields]
      constructor
      · intro h
        split at h
        · contradiction
        · rename_i v rest hfield
          obtain rfl := Option.some.inj h
          obtain ⟨f, hf, hends, htext, rfl⟩ := hexFieldRest_eq_some_iff.mp hfield
          exact ⟨[f], rest, rfl, numerals_singleton_iff.mpr ⟨hf, htext, hends⟩, rfl⟩
      · rintro ⟨fields, tail, hlength, hnumerals, rfl⟩
        obtain ⟨f, rfl⟩ := List.length_eq_one_iff.mp hlength
        obtain ⟨hf, rfl, hends⟩ := numerals_singleton_iff.mp hnumerals
        rw [hexFieldRest_numeral hf hends]
        rfl
  | succ n ih =>
      rw [hexFields]
      constructor
      · intro h
        split at h
        · contradiction
        · rename_i v rest hfield
          rw [if_neg (Nat.succ_ne_zero n)] at h
          split at h
          · rename_i hhead
            obtain ⟨values, hvalues, rfl⟩ := Option.map_eq_some_iff.mp h
            obtain ⟨fields, tail, hlength, hnumerals, rfl⟩ := ih.mp hvalues
            obtain ⟨f, hf, hends, htext, rfl⟩ := hexFieldRest_eq_some_iff.mp hfield
            have hrest : rest = separator :: rest.tail := by
              cases rest with
              | nil => cases hhead
              | cons c rest =>
                  obtain rfl := Option.some.inj hhead
                  rfl
            have hne : fields ≠ [] := List.ne_nil_of_length_eq_add_one hlength
            use f :: fields, tail
            rw [List.length_cons, hlength]
            refine ⟨rfl, ?_, rfl⟩
            rw [numerals_cons_iff hdigit hx hne]
            rw [hrest] at hends htext
            exact ⟨hf, rest.tail, htext, hends, hnumerals⟩
          · contradiction
      · rintro ⟨fields, tail, hlength, hnumerals, rfl⟩
        obtain ⟨f, fields, rfl⟩ := List.exists_cons_of_length_eq_add_one hlength
        rw [List.length_cons, Nat.add_right_cancel_iff] at hlength
        have hne : fields ≠ [] := List.ne_nil_of_length_eq_add_one hlength
        obtain ⟨hf, rest, rfl, hends, hnumerals⟩ :=
          (numerals_cons_iff hdigit hx hne).mp hnumerals
        have hvalues := ih.mpr ⟨fields, tail, hlength, hnumerals, rfl⟩
        rw [hexFieldRest_numeral hf hends]
        dsimp only
        rw [if_neg (Nat.succ_ne_zero n), List.head?_cons, if_pos rfl, List.tail_cons, hvalues]
        rfl

/-! ### Plain numerals -/

/-- The numeral consists of digits only, and they fill its field. -/
structure HexNumeral.Plain (width : Nat) (n : HexNumeral) : Prop where
  spaces : n.spaces = []
  sign : n.sign = []
  mark : n.mark = []
  digits : n.digits.length = width

instance (width : Nat) (n : HexNumeral) : Decidable (n.Plain width) :=
  decidable_of_iff (n.spaces = [] ∧ n.sign = [] ∧ n.mark = [] ∧ n.digits.length = width)
    ⟨fun h => ⟨h.1, h.2.1, h.2.2.1, h.2.2.2⟩, fun h => ⟨h.spaces, h.sign, h.mark, h.digits⟩⟩

/-- The digits of a field. -/
structure IsHexField (width : Nat) (digits : List Char) : Prop where
  length : digits.length = width
  digits : ∀ c ∈ digits, digitValue c < 16

namespace HexNumeral

theorem Plain.text_eq {n : HexNumeral} (h : n.Plain width) :
  n.text = n.digits
  := by
  rw [text, body, h.spaces, h.sign, h.mark]
  rfl

theorem Plain.ends {n : HexNumeral} (h : n.Plain width) (rest : List Char) :
  n.Ends width rest
  := by
  intro hsize
  rw [size, h.sign, h.mark, h.digits] at hsize
  simp at hsize

/-- The numeral of the digits of a field. -/
def ofField (digits : List Char) : HexNumeral where
  spaces := []
  sign := []
  mark := []
  digits := digits

theorem ofField_plain {digits : List Char} (h : IsHexField width digits) :
  (ofField digits).Plain width
  := ⟨rfl, rfl, rfl, h.length⟩

theorem ofField_legal {digits : List Char} (hpos : 0 < width) (h : IsHexField width digits) :
  (ofField digits).Legal width
  := by
  constructor
  · intro c hc
    cases hc
  · left
    rfl
  · left
    rfl
  · apply h.digits
  · rw [← List.length_pos_iff, ofField, h.length]
    apply hpos
  · rw [size, ofField, h.length]
    simp

/-- A numeral of the characters of a field is plain. -/
theorem plain_of_text_eq {n : HexNumeral} {digits : List Char} (hlegal : n.Legal width)
    (h : IsHexField width digits) (htext : n.text = digits) :
  n.Plain width
  := by
  have hdigit : ∀ c ∈ n.text, isSpace c = false ∧ c ∉ ['-', '+', 'x', 'X', '\n', '\x00'] := by
    rw [htext]
    intro c hc
    apply digit_spec (h.digits c hc)
  have hspaces : n.spaces = [] := by
    apply List.eq_nil_iff_forall_not_mem.mpr
    intro c hc
    have hspace := (hdigit c (List.mem_append_left _ hc)).1
    rw [hlegal.spaces c hc] at hspace
    contradiction
  have hno : ∀ c, c ∈ n.sign ++ n.mark → c ∉ ['-', '+', 'x', 'X', '\n', '\x00'] := by
    intro c hc
    apply (hdigit c _).2
    apply List.mem_append_right
    apply List.mem_append_left _ hc
  have hsign : n.sign = [] := by
    rcases hlegal.sign with hsign | hsign | hsign
    · apply hsign
    · apply absurd _ (hno '-' _)
      · decide
      · simp [hsign]
    · apply absurd _ (hno '+' _)
      · decide
      · simp [hsign]
  have hmark : n.mark = [] := by
    rcases hlegal.mark with hmark | hmark | hmark
    · apply hmark
    · apply absurd _ (hno 'x' _)
      · decide
      · simp [hmark]
    · apply absurd _ (hno 'X' _)
      · decide
      · simp [hmark]
  have hall : n.digits = digits := by
    rw [← htext, text, body, hspaces, hsign, hmark]
    rfl
  constructor
  · apply hspaces
  · apply hsign
  · apply hmark
  · rw [hall]
    apply h.length

end HexNumeral

/-- A numeral in front of the characters of a field is plain, and leaves what follows them. -/
theorem plain_of_append_eq {n : HexNumeral} {digits rest rest' : List Char}
    (hlegal : n.Legal width) (hends : n.Ends width rest) (h : IsHexField width digits)
    (heq : n.text ++ rest = digits ++ rest') :
  n.Plain width ∧ rest = rest'
  := by
  have hpos : 0 < width := by
    have hsize := hlegal.size_le
    have hdigits := List.length_pos_iff.mpr hlegal.digits_ne_nil
    rw [HexNumeral.size] at hsize
    omega
  have htext : (HexNumeral.ofField digits).text = digits := (HexNumeral.ofField_plain h).text_eq
  have hread := hexFieldRest_numeral hlegal hends
  have hfield := hexFieldRest_numeral (HexNumeral.ofField_legal hpos h)
    ((HexNumeral.ofField_plain h).ends rest')
  rw [htext, ← heq, hread] at hfield
  obtain ⟨-, rfl⟩ := Prod.mk.inj (Option.some.inj hfield)
  use HexNumeral.plain_of_text_eq hlegal h (List.append_cancel_right heq)

/-- The digits of a field are read as their number. -/
theorem hexField_of_isHexField {digits : List Char} (hpos : 0 < width)
    (h : IsHexField width digits) :
  hexField width digits = some (ofDigits 16 digits : Int)
  := by
  have hplain := HexNumeral.ofField_plain h
  have hread := hexFieldRest_numeral (HexNumeral.ofField_legal hpos h) (hplain.ends [])
  rw [hplain.text_eq, List.append_nil, hexFieldRest, Option.map_eq_some_iff] at hread
  obtain ⟨value, hvalue, hpair⟩ := hread
  obtain ⟨rfl, -⟩ := Prod.mk.inj hpair
  apply hvalue.trans
  rw [HexNumeral.value, HexNumeral.ofField, if_neg (List.cons_ne_nil '-' []).symm, one_mul]

/-- Numerals that make up fields of digits are plain, and there is no tail. -/
theorem Numerals.plain (hdigit : 16 ≤ digitValue separator)
    (hx : separator ≠ 'x' ∧ separator ≠ 'X') {fields : List HexNumeral} {tail : List Char}
    {texts : List (List Char)} (hlength : fields.length = texts.length) (hne : fields ≠ [])
    (htexts : ∀ t ∈ texts, IsHexField width t)
    (h : Numerals separator width fields tail (List.intercalate [separator] texts)) :
  (∀ f ∈ fields, f.Plain width) ∧ tail = []
  := by
  induction fields generalizing texts with
  | nil => apply absurd rfl hne
  | cons f fields ih =>
      obtain ⟨t, texts, rfl⟩ := List.exists_cons_of_length_eq_add_one hlength.symm
      rw [List.length_cons, List.length_cons, Nat.add_right_cancel_iff] at hlength
      have ht := htexts t List.mem_cons_self
      cases fields with
      | nil =>
          obtain rfl := List.length_eq_zero_iff.mp hlength.symm
          rw [numerals_singleton_iff, List.intercalate_singleton] at h
          obtain ⟨hlegal, heq, hends⟩ := h
          rw [← List.append_nil t] at heq
          obtain ⟨hplain, rfl⟩ := plain_of_append_eq hlegal hends ht heq.symm
          constructor
          · intro g hg
            obtain rfl := List.mem_singleton.mp hg
            apply hplain
          · rfl
      | cons g gs =>
          have hne : g :: gs ≠ [] := List.cons_ne_nil g gs
          have htexts_ne : texts ≠ [] := by
            rintro rfl
            cases hlength
          rw [numerals_cons_iff hdigit hx hne, List.intercalate_cons_of_ne_nil htexts_ne,
            List.append_assoc, List.singleton_append] at h
          obtain ⟨hlegal, rest, heq, hends, hrest⟩ := h
          obtain ⟨hplain, hsame⟩ := plain_of_append_eq hlegal hends ht heq.symm
          obtain ⟨-, rfl⟩ := List.cons.inj hsame
          obtain ⟨hall, htail⟩ := ih hlength hne
            (fun t' ht' => htexts t' (List.mem_cons_of_mem t ht')) hrest
          use ?_, htail
          intro f' hf'
          obtain rfl | hf' := List.mem_cons.mp hf'
          · apply hplain
          · apply hall f' hf'

/-- Fields of digits are plain numerals. -/
theorem numerals_ofField (separator : Char) (hpos : 0 < width) {texts : List (List Char)}
    (htexts : ∀ t ∈ texts, IsHexField width t) :
  Numerals separator width (texts.map HexNumeral.ofField) []
    (List.intercalate [separator] texts)
  := by
  have htext : (texts.map HexNumeral.ofField).map HexNumeral.text = texts := by
    rw [List.map_map]
    apply List.map_id'' (fun _ => rfl)
  constructor
  · intro n hn
    obtain ⟨t, ht, rfl⟩ := List.mem_map.mp hn
    apply HexNumeral.ofField_legal hpos (htexts t ht)
  · rw [htext, List.append_nil]
  · intro n hn
    obtain ⟨t, ht, rfl⟩ := List.mem_map.mp (List.mem_of_getLast? hn)
    apply (HexNumeral.ofField_plain (htexts t ht)).ends

end Scan
