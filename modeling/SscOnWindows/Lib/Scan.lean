import Mathlib.Data.List.TakeWhile
import Mathlib.Data.UInt
import Mathlib.Tactic.IntervalCases

/-!
# Text with numbers in it

How the C library writes numbers to a text and reads them back: `%02x` for a byte and
`%d` for an integer, and the lines that a loop of `fgets` reads.  A character is one
byte of the text.
-/

namespace Scan

/-! ### Writing -/

/-- The byte `b` as `%02x` writes it. -/
def hexByte (b : UInt8) : List Char :=
  [Nat.digitChar (b.toNat / 16), Nat.digitChar (b.toNat % 16)]

/-- The integer `i` as `%d` writes it. -/
def decimal (i : Int) : List Char :=
  if i < 0 then '-' :: Nat.toDigits 10 i.natAbs else Nat.toDigits 10 i.natAbs

/-! ### Reading -/

/-- `isspace`. -/
def isSpace (c : Char) : Bool :=
  c.toNat = 32 ∨ (9 ≤ c.toNat ∧ c.toNat ≤ 13)

/-- The value of a digit or of a letter as a digit; 36, which is no digit in any base,
for the other characters. -/
def digitValue (c : Char) : Nat :=
  if 48 ≤ c.toNat ∧ c.toNat ≤ 57 then c.toNat - 48
  else if 97 ≤ c.toNat ∧ c.toNat ≤ 122 then c.toNat - 87
  else if 65 ≤ c.toNat ∧ c.toNat ≤ 90 then c.toNat - 55
  else 36

/-- The number with the given digits. -/
def ofDigits (base : Nat) (digits : List Char) : Nat :=
  digits.foldl (fun value c => base * value + digitValue c) 0

/-- The sign at the front of a number, and what follows it. -/
def sign : List Char → Int × List Char
  | [] => (1, [])
  | c :: s => if c = '-' then (-1, s) else if c = '+' then (1, s) else (1, c :: s)

/-- What follows the mark of a hexadecimal number. -/
def dropMark (base : Nat) (s : List Char) : List Char :=
  if base = 16 ∧ s.head? = some '0' ∧ (s[1]? = some 'x' ∨ s[1]? = some 'X') then s.drop 2 else s

/-- The number in base `base` without a sign at the front of `s`, `none` when there is
no digit. -/
def natural (base : Nat) (s : List Char) : Option Nat :=
  let digits := (dropMark base s).takeWhile (digitValue · < base)
  if digits = [] then none else some (ofDigits base digits)

/-- The number in base `base` at the front of `s`. -/
def integer (base : Nat) (s : List Char) : Option Int :=
  (natural base (sign s).2).map (fun n : Nat => (sign s).1 * n)

/-- `%x` with a field of at most `width` characters. -/
def hexField (width : Nat) (s : List Char) : Option Int :=
  integer 16 ((s.dropWhile isSpace).take width)

/-- `%d`. -/
def decimalField (s : List Char) : Option Int :=
  integer 10 (s.dropWhile isSpace)

/-- How many characters the number in base `base` at the front of `s` has. -/
def numberLength (base : Nat) (s : List Char) : Nat :=
  s.length - ((dropMark base (sign s).2).dropWhile (digitValue · < base)).length

/-- `%x` with a field of at most `width` characters, and what follows it. -/
def hexFieldRest (width : Nat) (s : List Char) : Option (Int × List Char) :=
  (hexField width s).map fun value =>
    let t := s.dropWhile isSpace
    (value, t.drop (numberLength 16 (t.take width)))

/-- `n` times `%x` with a field of at most `width` characters, and `separator` between them. -/
def hexFields (separator : Char) (width : Nat) : Nat → List Char → Option (List Int)
  | 0, _ => some []
  | n + 1, s =>
      match hexFieldRest width s with
      | none => none
      | some (value, rest) =>
          if n = 0 then some [value]
          else if rest.head? = some separator then
            (hexFields separator width n rest.tail).map (value :: ·)
          else none

/-- The lines a loop of `fgets` with a buffer of `size` characters reads from a text,
after `line` at the front of the first. -/
def readLines (size : Nat) : List Char → List Char → List (List Char)
  | line, [] => if line = [] then [] else [line]
  | line, c :: text =>
      if c = '\n' ∨ line.length + 2 = size then (line ++ [c]) :: readLines size [] text
      else readLines size (line ++ [c]) text

/-- The lines a loop of `fgets` reads. -/
def lines (size : Nat) (text : List Char) : List (List Char) :=
  readLines size [] text

/-- What a text is in the file a stream in text mode writes: a carriage return comes before each
end of a line. -/
def toTextFile : List Char → List Char
  | [] => []
  | c :: s => if c = '\n' then '\r' :: '\n' :: toTextFile s else c :: toTextFile s

/-- What a stream in text mode reads from a file: it drops the carriage return before the end of
a line, and takes the character 26 for the end of the file. -/
def fromTextFile : List Char → List Char
  | [] => []
  | '\r' :: '\n' :: s => '\n' :: fromTextFile s
  | c :: s => if c = '\x1a' then [] else c :: fromTextFile s

/-- The string in a buffer ends before its first zero. -/
def cString (s : List Char) : List Char :=
  s.takeWhile (· ≠ '\x00')

/-! ### Reading numbers back -/

/-- A digit in a base up to 16 is no space, no sign, no mark and does not end a line or a
string. -/
theorem digit_spec {c : Char} (h : digitValue c < 16) :
  isSpace c = false ∧ c ∉ ['-', '+', 'x', 'X', '\n', '\x00']
  := by
  constructor
  · simp only [digitValue] at h
    simp only [isSpace, decide_eq_false_iff_not]
    split_ifs at h <;> omega
  · intro hmem
    simp only [List.mem_cons, List.not_mem_nil, or_false] at hmem
    obtain rfl | rfl | rfl | rfl | rfl | rfl := hmem <;> revert h <;> decide

theorem digitValue_digitChar {d : Nat} (h : d < 16) :
  digitValue (Nat.digitChar d) = d
  := by
  interval_cases d <;> rfl

theorem sign_digit {c : Char} (h : digitValue c < 16) (s : List Char) :
  sign (c :: s) = (1, c :: s)
  := by
  have hc := (digit_spec h).2
  simp only [List.mem_cons, not_or] at hc
  rw [sign, if_neg hc.1, if_neg hc.2.1]

/-- A number is read back from its digits. -/
theorem natural_digits {base : Nat} {digits s : List Char} (hne : digits ≠ [])
    (hdigits : ∀ c ∈ digits, digitValue c < base) (hs : ∀ c ∈ s.head?, base ≤ digitValue c)
    (hmark : base = 16 → 2 ≤ digits.length) :
  natural base (digits ++ s) = some (ofDigits base digits)
  := by
  have hdrop : dropMark base (digits ++ s) = digits ++ s := by
    rw [dropMark, if_neg]
    rintro ⟨rfl, -, hx⟩
    match digits, hmark rfl with
    | _ :: c :: digits, _ =>
        have hc := (digit_spec (hdigits c (by simp))).2
        simp only [List.mem_cons, not_or] at hc
        simp [hc.2.2.1, hc.2.2.2.1] at hx
  have htake : (digits ++ s).takeWhile (digitValue · < base) = digits := by
    rw [List.takeWhile_append_of_pos]
    · cases s with
      | nil => simp
      | cons c s =>
          have hc := hs c rfl
          rw [List.takeWhile_cons_of_neg, List.append_nil]
          simpa using hc
    · simpa using hdigits
  rw [natural, hdrop, htake, if_neg hne]

/-- A byte is read back from its two digits. -/
theorem hexField_hexByte (b : UInt8) (s : List Char) :
  hexField 2 (hexByte b ++ s) = some (b.toNat : Int)
  := by
  have hb : b.toNat < 256 := b.toNat_lt
  have hhi := digitValue_digitChar (d := b.toNat / 16) (by omega)
  have hlo := digitValue_digitChar (d := b.toNat % 16) (by omega)
  have hdigits : ∀ c ∈ hexByte b, digitValue c < 16 := by
    intro c hc
    simp only [hexByte, List.mem_cons, List.not_mem_nil, or_false] at hc
    obtain rfl | rfl := hc <;> omega
  have hfield : ((hexByte b ++ s).dropWhile isSpace).take 2 = hexByte b := by
    have hspace := (digit_spec (hdigits _ List.mem_cons_self)).1
    rw [hexByte, List.cons_append, List.dropWhile_cons_of_neg]
    · simp
    · simp [hspace]
  have hnatural : natural 16 (hexByte b) = some b.toNat := by
    have hread : natural 16 (hexByte b ++ []) = some (ofDigits 16 (hexByte b)) := by
      apply natural_digits (List.cons_ne_nil _ _) hdigits
      · simp
      · intro _
        apply le_rfl
    rw [List.append_nil] at hread
    rw [hread]
    simp only [hexByte, ofDigits, List.foldl_cons, List.foldl_nil, hhi, hlo]
    congr 1
    omega
  rw [hexField, hfield, integer, hexByte, sign_digit (hdigits _ List.mem_cons_self), ← hexByte,
    hnatural]
  simp

/-- Decimal digits are digits. -/
theorem digitValue_of_isDigit {c : Char} (h : c.isDigit = true) :
  digitValue c = c.toNat - 48 ∧ digitValue c < 10
  := by
  simp only [Char.isDigit, Bool.and_eq_true, decide_eq_true_eq] at h
  have hlo : 48 ≤ c.toNat := h.1
  have hhi : c.toNat ≤ 57 := h.2
  rw [digitValue, if_pos ⟨hlo, hhi⟩]
  omega

theorem isDigit_of_mem_toDigits {n : Nat} {c : Char} (h : c ∈ Nat.toDigits 10 n) :
  c.isDigit = true
  := Nat.isDigit_of_mem_toDigits (by omega) le_rfl h

theorem ofDigits_toDigits (n : Nat) :
  ofDigits 10 (Nat.toDigits 10 n) = n
  := by
  have h : ofDigits 10 (Nat.toDigits 10 n) = Nat.ofDigitChars 10 (Nat.toDigits 10 n) 0 := by
    rw [ofDigits, Nat.ofDigitChars_eq_foldl]
    apply List.foldl_ext
    intro value c hc
    rw [(digitValue_of_isDigit (isDigit_of_mem_toDigits hc)).1]
    rfl
  rw [h, Nat.ofDigitChars_ten_toDigits]

/-- An integer is read back from its decimal digits. -/
theorem decimalField_decimal (i : Int) {s : List Char} (hs : ∀ c ∈ s.head?, 10 ≤ digitValue c) :
  decimalField (decimal i ++ s) = some i
  := by
  have hdigit : ∀ c ∈ Nat.toDigits 10 i.natAbs, digitValue c < 10 := by
    intro c hc
    apply (digitValue_of_isDigit (isDigit_of_mem_toDigits hc)).2
  have hread := natural_digits Nat.toDigits_ne_nil hdigit hs nofun
  rw [ofDigits_toDigits] at hread
  rw [decimalField, decimal]
  split
  · rename_i hneg
    have hspace : isSpace '-' = false := rfl
    rw [List.cons_append, List.dropWhile_cons_of_neg (by simp [hspace]), integer, sign, if_pos rfl,
      hread, Option.map_some]
    congr 1
    omega
  · rename_i hnonneg
    cases hdigits : Nat.toDigits 10 i.natAbs with
    | nil => exact absurd hdigits Nat.toDigits_ne_nil
    | cons c digits =>
        rw [hdigits] at hdigit hread
        have hc : digitValue c < 16 := by
          have hlt := hdigit c List.mem_cons_self
          omega
        have hspace := (digit_spec hc).1
        rw [List.cons_append, List.dropWhile_cons_of_neg (by simp [hspace]), integer,
          sign_digit hc, ← List.cons_append, hread, Option.map_some]
        congr 1
        omega

/-- A number of several digits has another number in front of its last digit. -/
theorem exists_decimal_eq_append {i : Int} (h : 10 ≤ i.natAbs) :
  ∃ (q : Int) (c : Char), decimal i = decimal q ++ [c] ∧ q.natAbs = i.natAbs / 10
  := by
  have hdigits := Nat.toDigits_of_base_le (by decide) h
  have hpos : 0 < i.natAbs / 10 := Nat.div_pos h (by decide)
  rcases Int.lt_or_le i 0 with hi | hi
  · use -(i.natAbs / 10 : Nat), Nat.digitChar (i.natAbs % 10)
    rw [Int.natAbs_neg, Int.natAbs_natCast, decimal, if_pos hi, hdigits, decimal,
      if_pos (by omega), Int.natAbs_neg, Int.natAbs_natCast]
    exact ⟨rfl, rfl⟩
  · use (i.natAbs / 10 : Nat), Nat.digitChar (i.natAbs % 10)
    rw [Int.natAbs_natCast, decimal, if_neg (by omega), hdigits, decimal, if_neg (by omega),
      Int.natAbs_natCast]
    exact ⟨rfl, rfl⟩

/-- The digits of an integer contain no character that ends a line or a string. -/
theorem plain_of_mem_decimal {i : Int} {c : Char} (h : c ∈ decimal i) :
  c ≠ '\n' ∧ c ≠ '\x00'
  := by
  have hdigit : ∀ c ∈ Nat.toDigits 10 i.natAbs, c ≠ '\n' ∧ c ≠ '\x00' := by
    intro c hc
    have hlt := (digitValue_of_isDigit (isDigit_of_mem_toDigits hc)).2
    have hplain := (digit_spec (c := c) (by omega)).2
    simp only [List.mem_cons, not_or] at hplain
    tauto
  rw [decimal] at h
  split at h
  · obtain rfl | h := List.mem_cons.mp h
    · decide
    · apply hdigit c h
  · apply hdigit c h

theorem plain_of_mem_hexByte {b : UInt8} {c : Char} (h : c ∈ hexByte b) :
  c ≠ '\n' ∧ c ≠ '\x00'
  := by
  have hb : b.toNat < 256 := b.toNat_lt
  have hlt : digitValue c < 16 := by
    simp only [hexByte, List.mem_cons, List.not_mem_nil, or_false] at h
    obtain rfl | rfl := h
    · rw [digitValue_digitChar] <;> omega
    · rw [digitValue_digitChar] <;> omega
  have hplain := (digit_spec hlt).2
  simp only [List.mem_cons, not_or] at hplain
  tauto

/-! ### Reading lines back -/

/-- A line that fits in the buffer is read whole. -/
theorem readLines_line {size : Nat} :
    ∀ {line text rest : List Char}, (∀ c ∈ text, c ≠ '\n') →
      line.length + text.length + 2 ≤ size →
      readLines size line (text ++ '\n' :: rest) = (line ++ text ++ ['\n']) :: lines size rest
  | line, [], rest, _, _ => by
      rw [List.nil_append, readLines, if_pos (Or.inl rfl), List.append_nil]
      rfl
  | line, c :: text, rest, htext, hsize => by
      rw [List.length_cons] at hsize
      rw [List.cons_append, readLines, if_neg, readLines_line, List.append_assoc, List.append_assoc,
        List.append_assoc]
      · rfl
      · intro d hd
        apply htext d (List.mem_cons_of_mem c hd)
      · rw [List.length_append, List.length_singleton]
        omega
      · rintro (rfl | hfull)
        · apply htext '\n' List.mem_cons_self rfl
        · omega

theorem lines_line {size : Nat} {text rest : List Char} (htext : ∀ c ∈ text, c ≠ '\n')
    (hsize : text.length + 2 ≤ size) :
  lines size (text ++ '\n' :: rest) = (text ++ ['\n']) :: lines size rest
  := by
  rw [lines, readLines_line htext (by simpa using hsize), List.nil_append]

/-- A text without an end of line that fits in the buffer is one line. -/
theorem readLines_unended {size : Nat} :
    ∀ {line text : List Char}, (∀ c ∈ text, c ≠ '\n') → line.length + text.length + 1 < size →
      readLines size line text = if line ++ text = [] then [] else [line ++ text]
  | line, [], _, _ => by
      rw [readLines, List.append_nil]
  | line, c :: text, htext, hsize => by
      rw [List.length_cons] at hsize
      rw [readLines, if_neg, readLines_unended, List.append_assoc]
      · rfl
      · intro d hd
        apply htext d (List.mem_cons_of_mem c hd)
      · rw [List.length_append, List.length_singleton]
        omega
      · rintro (rfl | hfull)
        · apply htext '\n' List.mem_cons_self rfl
        · omega

theorem lines_unended {size : Nat} {text : List Char} (htext : ∀ c ∈ text, c ≠ '\n')
    (hsize : text.length + 1 < size) :
  lines size text = if text = [] then [] else [text]
  := by
  rw [lines, readLines_unended htext (by simpa using hsize), List.nil_append]

/-- A part of a line that fits in the buffer is one line. -/
theorem lines_take {size : Nat} {text : List Char} (htext : ∀ c ∈ text, c ≠ '\n')
    (hsize : text.length + 2 ≤ size) {n : Nat} (hn : 0 < n) :
  lines size ((text ++ ['\n']).take n) = [(text ++ ['\n']).take n]
  := by
  rcases Nat.lt_or_ge text.length n with hlt | hge
  · rw [List.take_of_length_le (by rw [List.length_append]; apply hlt), lines_line htext hsize]
    rfl
  · rw [List.take_append_of_le_length hge, lines_unended, if_neg]
    · intro hnil
      rw [← List.length_eq_zero_iff, List.length_take] at hnil
      omega
    · intro c hc
      apply htext c (List.take_subset _ _ hc)
    · rw [List.length_take]
      omega

/-- A text that is written line by line is read line by line. -/
theorem lines_flatMap {α : Type*} {size : Nat} {f : α → List Char} {l : List α}
    (hf : ∀ a ∈ l, (∀ c ∈ f a, c ≠ '\n') ∧ (f a).length + 2 ≤ size) :
  lines size (l.flatMap (fun a => f a ++ ['\n'])) = l.map (fun a => f a ++ ['\n'])
  := by
  induction l with
  | nil => rfl
  | cons a l ih =>
      obtain ⟨hplain, hsize⟩ := hf a List.mem_cons_self
      rw [List.flatMap_cons, List.append_assoc, List.singleton_append, lines_line hplain hsize,
        List.map_cons, ih (fun b hb => hf b (List.mem_cons_of_mem a hb))]

/-- A line that fills the buffer is read without its end. -/
theorem readLines_full {size : Nat} {line text rest : List Char} (htext : ∀ c ∈ text, c ≠ '\n')
    (hne : text ≠ []) (hsize : line.length + text.length + 1 = size) :
  readLines size line (text ++ rest) = (line ++ text) :: lines size rest
  := by
  induction text generalizing line with
  | nil => apply absurd rfl hne
  | cons c text ih =>
      rw [List.length_cons] at hsize
      rw [List.cons_append, readLines]
      rcases eq_or_ne text [] with rfl | htail
      · rw [List.length_nil] at hsize
        rw [if_pos (Or.inr (by omega))]
        rfl
      · have hlength := List.length_pos_iff.mpr htail
        rw [if_neg, ih, List.append_assoc]
        · rfl
        · intro d hd
          apply htext d (List.mem_cons_of_mem c hd)
        · apply htail
        · rw [List.length_append, List.length_singleton]
          omega
        · rintro (rfl | hfull)
          · apply htext '\n' List.mem_cons_self rfl
          · omega

/-- No line that is read is longer than the buffer allows, and its characters are of the text. -/
theorem readLines_spec {size : Nat} (hsize : 2 ≤ size) :
    ∀ {line text : List Char}, line.length + 2 ≤ size →
      ∀ read ∈ readLines size line text,
        read.length + 1 ≤ size ∧ ∀ c ∈ read, c ∈ line ++ text
  | line, [], hline, read, hread => by
      rw [readLines] at hread
      split at hread
      · contradiction
      · obtain rfl := List.mem_singleton.mp hread
        constructor
        · omega
        · intro c hc
          rw [List.append_nil]
          apply hc
  | line, c :: text, hline, read, hread => by
      rw [readLines] at hread
      split at hread
      · rcases List.mem_cons.mp hread with rfl | hread
        · constructor
          · rw [List.length_append, List.length_singleton]
            omega
          · intro d hd
            rw [List.append_cons]
            apply List.mem_append_left _ hd
        · obtain ⟨hlength, hmem⟩ := readLines_spec hsize (by simpa using hsize) read hread
          use hlength
          intro d hd
          have hd := hmem d hd
          rw [List.nil_append] at hd
          apply List.mem_append_right _ (List.mem_cons_of_mem c hd)
      · rename_i hnot
        rw [not_or] at hnot
        have hlength : (line ++ [c]).length + 2 ≤ size := by
          rw [List.length_append, List.length_singleton]
          omega
        obtain ⟨hread, hmem⟩ := readLines_spec hsize hlength read hread
        use hread
        intro d hd
        rw [List.append_cons]
        apply hmem d hd

/-! ### Text mode -/

theorem head?_toTextFile (s : List Char) :
  (toTextFile s).head? ≠ some '\n'
  := by
  cases s with
  | nil => nofun
  | cons c s =>
      rw [toTextFile]
      split
      next => nofun
      next hc =>
        rw [List.head?_cons, Ne, Option.some.injEq]
        apply hc

/-- A text is read back from its file up to the first character 26. -/
theorem fromTextFile_toTextFile (s : List Char) :
  fromTextFile (toTextFile s) = s.takeWhile (· ≠ '\x1a')
  := by
  induction s with
  | nil => rfl
  | cons c s ih =>
      rw [toTextFile]
      split
      next hc =>
        subst hc
        rw [fromTextFile, ih, List.takeWhile_cons_of_pos rfl]
      next hc =>
        rw [fromTextFile]
        · split
          next hend =>
            subst hend
            rw [List.takeWhile_cons_of_neg (by simp)]
          next hend => rw [ih, List.takeWhile_cons_of_pos (by simpa using hend)]
        · rintro t rfl ht
          apply head?_toTextFile s
          rw [ht]
          rfl

/-- A stream in text mode reads no character 26. -/
theorem ne_end_of_mem_fromTextFile {s : List Char} {c : Char} (h : c ∈ fromTextFile s) :
  c ≠ '\x1a'
  := by
  induction s using fromTextFile.induct with
  | case1 => contradiction
  | case2 s ih =>
      rw [fromTextFile] at h
      rcases List.mem_cons.mp h with rfl | h
      · decide
      · apply ih h
  | case3 s hpair =>
      rw [fromTextFile, if_pos rfl] at h
      · contradiction
      · nofun
  | case4 d s hpair hend ih =>
      rw [fromTextFile, if_neg hend] at h
      · rcases List.mem_cons.mp h with rfl | h
        · apply hend
        · apply ih h
      · apply hpair

theorem cString_of_plain {s : List Char} (h : ∀ c ∈ s, c ≠ '\x00') :
  cString s = s
  := by
  rw [cString, List.takeWhile_eq_self_iff]
  simpa using h

end Scan
