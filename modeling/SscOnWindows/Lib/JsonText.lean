import SscOnWindows.Lib.Json
import Mathlib.Data.Nat.Digits.Defs

/-!
# JSON texts

A printer of documents, which puts every member of an array or an object on a line of its own, and
a parser of the texts it prints, where white space may differ.  The numbers are integers.  Together
they are a lawful library.
-/

namespace Json

/-! ### The printer -/

/-- A line break, and the indentation of the next line. -/
def newline (n : Nat) : List UInt8 :=
  10 :: List.replicate n 32

/-- The digit with the value `n`. -/
def hexDigit (n : Nat) : UInt8 :=
  if n < 10 then .ofNat (48 + n) else .ofNat (87 + n)

/-- The bytes that have an escape of one letter, with the letter. -/
def shortEscapes : List (UInt8 × UInt8) :=
  [(34, 34), (92, 92), (8, 98), (12, 102), (10, 110), (13, 114), (9, 116)]

/-- A byte within a string. -/
def escape (b : UInt8) : List UInt8 :=
  match shortEscapes.lookup b with
  | some c => [92, c]
  | none =>
      if b < 32 then [92, 117, 48, 48, hexDigit (b.toNat / 16), hexDigit (b.toNat % 16)] else [b]

def printString (s : List UInt8) : List UInt8 :=
  34 :: s.flatMap escape ++ [34]

def printNat (n : Nat) : List UInt8 :=
  if n = 0 then [48] else (Nat.digits 10 n).reverse.map (fun d => .ofNat (48 + d))

def printInt (i : Int) : List UInt8 :=
  if i < 0 then 45 :: printNat i.natAbs else printNat i.natAbs

mutual

/-- The document, with the indentation of the line it starts on. -/
def print (n : Nat) : Json Empty → List UInt8
  | null => utf8 "null"
  | boolean true => utf8 "true"
  | boolean false => utf8 "false"
  | integer i => printInt i
  | string s => printString s
  | array [] => [91, 93]
  | array (item :: items) =>
      91 :: newline (n + 2) ++ print (n + 2) item ++ printItems (n + 2) items ++ newline n ++ [93]
  | object [] => [123, 125]
  | object (m :: members) =>
      123 :: newline (n + 2) ++ printMember (n + 2) m ++ printMembers (n + 2) members
        ++ newline n ++ [125]

/-- Further items of an array. -/
def printItems (n : Nat) : List (Json Empty) → List UInt8
  | [] => []
  | item :: items => 44 :: newline n ++ print n item ++ printItems n items

/-- A member of an object. -/
def printMember (n : Nat) : String × Json Empty → List UInt8
  | (key, v) => printString (utf8 key) ++ [58, 32] ++ print n v

/-- Further members of an object. -/
def printMembers (n : Nat) : List (String × Json Empty) → List UInt8
  | [] => []
  | m :: members => 44 :: newline n ++ printMember n m ++ printMembers n members

end

/-! ### The parser -/

def isSpace (b : UInt8) : Bool :=
  b = 32 || b = 10 || b = 13 || b = 9

def isDigit (b : UInt8) : Bool :=
  48 ≤ b && b ≤ 57

/-- The text behind its white space. -/
def skip (text : List UInt8) : List UInt8 :=
  text.dropWhile isSpace

/-- The value of a digit. -/
def hexValue (b : UInt8) : Option Nat :=
  if isDigit b then some (b.toNat - 48) else if 97 ≤ b ∧ b ≤ 102 then some (b.toNat - 87) else none

/-- The rest of a string behind its first quote. -/
def parseString : List UInt8 → Option (List UInt8 × List UInt8)
  | [] => none
  | b :: text =>
      if b = 34 then some ([], text)
      else if b = 92 then
        match text with
        | [] => none
        | c :: text =>
            if c = 117 then
              match text with
              | _ :: _ :: high :: low :: text => do
                  let h ← hexValue high
                  let l ← hexValue low
                  let (s, rest) ← parseString text
                  some (.ofNat (16 * h + l) :: s, rest)
              | _ => none
            else do
              let (e, _) ← shortEscapes.find? (fun e => e.2 = c)
              let (s, rest) ← parseString text
              some (e :: s, rest)
      else if b < 32 then none
      else do
        let (s, rest) ← parseString text
        some (b :: s, rest)

/-- A string that is UTF-8, behind its first quote. -/
def parseUtf8 (text : List UInt8) : Option (List UInt8 × List UInt8) :=
  (parseString text).filter (fun r => IsUtf8 r.1)

/-- The text of the bytes. -/
def ofUtf8 (s : List UInt8) : String :=
  if h : IsUtf8 s then .ofByteArray _ h else ""

def parseNat (text : List UInt8) : Option (Nat × List UInt8) :=
  if text.takeWhile isDigit = [] then none
  else some (Nat.ofDigits 10 ((text.takeWhile isDigit).reverse.map (fun b => b.toNat - 48)),
    text.dropWhile isDigit)

/-- A document that starts with the byte and is no string, array or object. -/
def parseScalar (b : UInt8) (text : List UInt8) : Option (Json Empty × List UInt8) :=
  if b = 110 then ((utf8 "ull").isPrefixOf? text).map (fun rest => (null, rest))
  else if b = 116 then ((utf8 "rue").isPrefixOf? text).map (fun rest => (boolean true, rest))
  else if b = 102 then ((utf8 "alse").isPrefixOf? text).map (fun rest => (boolean false, rest))
  else if b = 45 then (parseNat text).map (fun r => (integer (-r.1), r.2))
  else (parseNat (b :: text)).map (fun r => (integer r.1, r.2))

mutual

/-- The document the text starts with, and what is behind it. -/
def parseValue : Nat → List UInt8 → Option (Json Empty × List UInt8)
  | 0, _ => none
  | fuel + 1, text =>
      match skip text with
      | [] => none
      | b :: text =>
          if b = 34 then (parseUtf8 text).map (fun r => (string r.1, r.2))
          else if b = 91 then
            if (skip text).head? = some 93 then some (array [], (skip text).tail)
            else do
              let (item, text) ← parseValue fuel text
              let (items, text) ← parseItems fuel text
              some (array (item :: items), text)
          else if b = 123 then
            if (skip text).head? = some 125 then some (object [], (skip text).tail)
            else do
              let (m, text) ← parseMember fuel text
              let (members, text) ← parseMembers fuel text
              some (object (m :: members), text)
          else parseScalar b text

/-- The rest of an array behind an item. -/
def parseItems : Nat → List UInt8 → Option (List (Json Empty) × List UInt8)
  | 0, _ => none
  | fuel + 1, text =>
      match skip text with
      | [] => none
      | b :: text =>
          if b = 93 then some ([], text)
          else if b = 44 then do
            let (item, text) ← parseValue fuel text
            let (items, text) ← parseItems fuel text
            some (item :: items, text)
          else none

/-- A member of an object. -/
def parseMember : Nat → List UInt8 → Option ((String × Json Empty) × List UInt8)
  | 0, _ => none
  | fuel + 1, text =>
      match skip text with
      | [] => none
      | b :: text =>
          if b = 34 then do
            let (key, text) ← parseUtf8 text
            if (skip text).head? = some 58 then do
              let (v, text) ← parseValue fuel (skip text).tail
              some ((ofUtf8 key, v), text)
            else none
          else none

/-- The rest of an object behind a member. -/
def parseMembers : Nat → List UInt8 → Option (List (String × Json Empty) × List UInt8)
  | 0, _ => none
  | fuel + 1, text =>
      match skip text with
      | [] => none
      | b :: text =>
          if b = 125 then some ([], text)
          else if b = 44 then do
            let (m, text) ← parseMember fuel text
            let (members, text) ← parseMembers fuel text
            some (m :: members, text)
          else none

end

/-! ### Strings are parsed back -/

theorem hexValue_hexDigit :
  ∀ d < 16, hexValue (hexDigit d) = some d
  := by
  decide

theorem find?_shortEscapes :
  ∀ e ∈ shortEscapes, e.2 ≠ 117 ∧ shortEscapes.find? (fun e' => e'.2 = e.2) = some e
  := by
  simp [shortEscapes]

/-- A byte of a string is parsed back. -/
theorem parseString_escape (b : UInt8) (text : List UInt8) :
  parseString (escape b ++ text) = (parseString text).map (fun r => (b :: r.1, r.2))
  := by
  have hmap : ∀ c, (do let (s, rest) ← parseString text; some (c :: s, rest))
      = (parseString text).map (fun r => (c :: r.1, r.2)) := by
    intro c
    cases parseString text with
    | none => rfl
    | some r => rfl
  rw [escape]
  cases hshort : shortEscapes.lookup b with
  | some c =>
      obtain ⟨l, r, hsplit, -⟩ := List.lookup_eq_some_iff.mp hshort
      have hmem : (b, c) ∈ shortEscapes := by
        rw [hsplit]
        apply List.mem_append_right l List.mem_cons_self
      obtain ⟨hu, hfind⟩ := find?_shortEscapes (b, c) hmem
      dsimp only at hu hfind
      rw [List.cons_append, List.cons_append, List.nil_append, parseString.eq_def]
      dsimp only
      rw [if_neg (by decide), if_pos rfl, if_neg hu, hfind]
      apply hmap
  | none =>
      have hne := List.lookup_eq_none_iff.mp hshort
      have hquote : b ≠ 34 := by simpa using hne (34, 34) (by decide)
      have hbackslash : b ≠ 92 := by simpa using hne (92, 92) (by decide)
      dsimp only
      by_cases hlt : b < 32
      · have hlt' : b.toNat < 32 := hlt
        rw [if_pos hlt]
        simp only [List.cons_append, List.nil_append]
        rw [parseString.eq_def]
        dsimp only
        rw [if_neg (by decide), if_pos rfl, if_pos rfl, hexValue_hexDigit _ (by omega),
          hexValue_hexDigit _ (by omega)]
        have hb : UInt8.ofNat (16 * (b.toNat / 16) + b.toNat % 16) = b := by
          rw [Nat.div_add_mod, UInt8.ofNat_toNat]
        simp only [Option.bind_eq_bind, Option.bind_some, hb]
        apply hmap
      · rw [if_neg hlt, List.cons_append, List.nil_append, parseString.eq_def]
        dsimp only
        rw [if_neg hquote, if_neg hbackslash, if_neg hlt]
        apply hmap

/-- A string is parsed back. -/
theorem parseString_printString (s text : List UInt8) :
  parseString (s.flatMap escape ++ 34 :: text) = some (s, text)
  := by
  induction s with
  | nil => simp [parseString.eq_def]
  | cons b s ih =>
      rw [List.flatMap_cons, List.append_assoc, parseString_escape, ih]
      rfl

theorem parseUtf8_printString {s : List UInt8} (hs : IsUtf8 s) (text : List UInt8) :
  parseUtf8 (s.flatMap escape ++ 34 :: text) = some (s, text)
  := by
  rw [parseUtf8, parseString_printString, Option.filter_some, if_pos (by simpa using hs)]

@[simp]
theorem ofUtf8_utf8 (text : String) :
  ofUtf8 (utf8 text) = text
  := by
  rw [ofUtf8, dif_pos (isUtf8_utf8 text)]
  rfl

/-! ### Numbers are parsed back -/

theorem digit_of_lt {d : Nat} (hd : d < 10) :
  isDigit (.ofNat (48 + d)) = true ∧ (UInt8.ofNat (48 + d)).toNat - 48 = d
  := by
  revert d
  decide

theorem printNat_eq (n : Nat) :
  ∃ ds : List Nat, ds ≠ [] ∧ (∀ d ∈ ds, d < 10) ∧ Nat.ofDigits 10 ds = n
    ∧ printNat n = ds.reverse.map (fun d => .ofNat (48 + d))
  := by
  rw [printNat]
  by_cases hn : n = 0
  · subst hn
    use [0]
    simp
  · use Nat.digits 10 n
    rw [if_neg hn]
    refine ⟨Nat.digits_ne_nil_iff_ne_zero.mpr hn, ?_, Nat.ofDigits_digits 10 n, rfl⟩
    intro d hd
    apply Nat.digits_lt_base (by decide) hd

/-- A number is parsed back where no digit is behind it. -/
theorem parseNat_printNat (n : Nat) {text : List UInt8}
    (htext : ∀ b ∈ text.head?, isDigit b = false) :
  parseNat (printNat n ++ text) = some (n, text)
  := by
  obtain ⟨ds, hne, hlt, hvalue, hprint⟩ := printNat_eq n
  have hdigits : ∀ b ∈ printNat n, isDigit b = true := by
    rw [hprint]
    simp only [List.mem_map, List.mem_reverse]
    rintro b ⟨d, hd, rfl⟩
    apply (digit_of_lt (hlt d hd)).1
  have hstop : text.takeWhile isDigit = [] ∧ text.dropWhile isDigit = text := by
    cases text with
    | nil => exact ⟨rfl, rfl⟩
    | cons b text =>
        have hb := htext b rfl
        simp [hb]
  have htake : (printNat n ++ text).takeWhile isDigit = printNat n := by
    rw [List.takeWhile_append_of_pos hdigits, hstop.1, List.append_nil]
  have hdrop : (printNat n ++ text).dropWhile isDigit = text := by
    rw [List.dropWhile_append_of_pos hdigits, hstop.2]
  have hback : (printNat n).reverse.map (fun b => b.toNat - 48) = ds := by
    rw [hprint, ← List.map_reverse, List.reverse_reverse, List.map_map]
    conv_rhs => rw [← List.map_id ds]
    apply List.map_congr_left
    intro d hd
    apply (digit_of_lt (hlt d hd)).2
  rw [parseNat, htake, hdrop, hback, hvalue, if_neg]
  rw [hprint]
  simpa using hne

/-! ### Documents are parsed back -/

/-- White space in front of a text does not matter. -/
theorem skip_newline (n : Nat) (text : List UInt8) :
  skip (newline n ++ text) = skip text
  := by
  rw [skip, List.dropWhile_append_of_pos]
  · rfl
  · intro b hb
    rw [newline, List.mem_cons, List.mem_replicate] at hb
    rcases hb with rfl | ⟨-, rfl⟩
    · rfl
    · rfl

theorem skip_cons {b : UInt8} (hb : isSpace b = false) (text : List UInt8) :
  skip (b :: text) = b :: text
  := by
  rw [skip, List.dropWhile_cons_of_neg (by simp [hb])]

theorem parseValue_congr {s t : List UInt8} (h : skip s = skip t) (fuel : Nat) :
  parseValue fuel s = parseValue fuel t
  := by
  cases fuel with
  | zero => rfl
  | succ fuel => rw [parseValue, parseValue, h]

theorem parseMember_congr {s t : List UInt8} (h : skip s = skip t) (fuel : Nat) :
  parseMember fuel s = parseMember fuel t
  := by
  cases fuel with
  | zero => rfl
  | succ fuel => rw [parseMember, parseMember, h]

theorem printNat_head (n : Nat) :
  ∃ b t, printNat n = b :: t ∧ isDigit b = true
  := by
  obtain ⟨ds, hne, hlt, -, hprint⟩ := printNat_eq n
  rcases List.eq_nil_or_concat ds with rfl | ⟨ds, d, rfl⟩
  · apply absurd rfl hne
  · use .ofNat (48 + d), ds.reverse.map (fun d => .ofNat (48 + d))
    constructor
    · rw [hprint]
      simp
    · apply (digit_of_lt (hlt d (by simp))).1

theorem ne_of_isDigit {b c : UInt8} (hb : isDigit b = true) (hc : isDigit c = false) :
  b ≠ c
  := by
  rintro rfl
  rw [hb] at hc
  cases hc

/-- The first byte of a number is that of a scalar. -/
theorem scalar_of_isDigit {b : UInt8} (hb : b = 45 ∨ isDigit b = true) :
  isSpace b = false ∧ b ≠ 34 ∧ b ≠ 91 ∧ b ≠ 93 ∧ b ≠ 123
  := by
  rcases hb with rfl | hb
  · decide
  · have hne : ∀ c, isDigit c = false → b ≠ c := fun _ hc => ne_of_isDigit hb hc
    simp [isSpace, hne 32 (by decide), hne 10 (by decide), hne 13 (by decide), hne 9 (by decide),
      hne 34 (by decide), hne 91 (by decide), hne 93 (by decide), hne 123 (by decide)]

/-- A number is parsed back where no digit is behind it. -/
theorem parseScalar_printInt (i : Int) {text : List UInt8}
    (htext : ∀ b ∈ text.head?, isDigit b = false) :
  ∃ b t, printInt i = b :: t ∧ (b = 45 ∨ isDigit b = true)
    ∧ parseScalar b (t ++ text) = some (integer i, text)
  := by
  have hnat := parseNat_printNat i.natAbs htext
  rw [printInt]
  by_cases hi : i < 0
  · rw [if_pos hi]
    use 45, printNat i.natAbs, rfl, Or.inl rfl
    rw [parseScalar, if_neg (by decide), if_neg (by decide), if_neg (by decide), if_pos rfl, hnat,
      Option.map_some, show (-(i.natAbs : Int)) = i by omega]
  · obtain ⟨b, t, hprint, hb⟩ := printNat_head i.natAbs
    rw [if_neg hi]
    use b, t, hprint, Or.inr hb
    rw [parseScalar, if_neg (ne_of_isDigit hb (by decide)), if_neg (ne_of_isDigit hb (by decide)),
      if_neg (ne_of_isDigit hb (by decide)), if_neg (ne_of_isDigit hb (by decide)),
      ← List.cons_append, ← hprint, hnat, Option.map_some,
      show (i.natAbs : Int) = i by omega]

/-- A document does not start with white space or the end of an array. -/
theorem print_head (n : Nat) (j : Json Empty) :
  ∃ b t, print n j = b :: t ∧ isSpace b = false ∧ b ≠ 93
  := by
  cases j with
  | null => exact ⟨_, _, rfl, by decide⟩
  | boolean b =>
      cases b with
      | false => exact ⟨_, _, rfl, by decide⟩
      | true => exact ⟨_, _, rfl, by decide⟩
  | integer i =>
      obtain ⟨b, t, hprint, hb, -⟩ := @parseScalar_printInt i [] (by simp)
      obtain ⟨hspace, -, -, h93, -⟩ := scalar_of_isDigit hb
      exact ⟨b, t, hprint, hspace, h93⟩
  | float x => exact x.elim
  | string s => exact ⟨_, _, rfl, by decide⟩
  | array items =>
      cases items with
      | nil => exact ⟨_, _, rfl, by decide⟩
      | cons item items => exact ⟨_, _, rfl, by decide⟩
  | object members =>
      cases members with
      | nil => exact ⟨_, _, rfl, by decide⟩
      | cons m members => exact ⟨_, _, rfl, by decide⟩

/-- Behind an item or a member there is no digit. -/
theorem isDigit_head_items (items : List (Json Empty)) (n m : Nat) (text : List UInt8) :
  ∀ b ∈ (printItems n items ++ newline m ++ text).head?, isDigit b = false
  := by
  cases items with
  | nil => rintro _ ⟨⟩; rfl
  | cons item items => rintro _ ⟨⟩; rfl

theorem isDigit_head_members (members : List (String × Json Empty)) (n m : Nat)
    (text : List UInt8) :
  ∀ b ∈ (printMembers n members ++ newline m ++ text).head?, isDigit b = false
  := by
  cases members with
  | nil => rintro _ ⟨⟩; rfl
  | cons member members => rintro _ ⟨⟩; rfl

mutual

theorem parseValue_print : ∀ (j : Json Empty) (n fuel : Nat) (text : List UInt8), j.Utf8 →
    (print n j).length ≤ fuel → (∀ b ∈ text.head?, isDigit b = false) →
    parseValue fuel (print n j ++ text) = some (j, text)
  | j, n, 0, _, _, hfuel, _ => by
      obtain ⟨b, t, hprint, -⟩ := print_head n j
      rw [hprint] at hfuel
      simp at hfuel
  | .null, n, fuel + 1, text, _, _, _ => by
      rfl
  | .boolean true, n, fuel + 1, text, _, _, _ => by
      rfl
  | .boolean false, n, fuel + 1, text, _, _, _ => by
      rfl
  | .integer i, n, fuel + 1, text, _, _, htext => by
      obtain ⟨b, t, hprint, hb, hscalar⟩ := parseScalar_printInt i htext
      obtain ⟨hspace, h34, h91, -, h123⟩ := scalar_of_isDigit hb
      rw [print, hprint, parseValue, List.cons_append, skip_cons hspace]
      dsimp only
      rw [if_neg h34, if_neg h91, if_neg h123, hscalar]
  | .string s, n, fuel + 1, text, hj, _, _ => by
      rw [print, printString, List.cons_append, List.cons_append, List.append_assoc, parseValue,
        skip_cons rfl]
      dsimp only
      rw [if_pos rfl, List.singleton_append, parseUtf8_printString ((utf8_string s).mp hj)]
      rfl
  | .array [], n, fuel + 1, text, _, _, _ => by
      rfl
  | .array (item :: items), n, fuel + 1, text, hj, hfuel, _ => by
      rw [utf8_array, List.forall_mem_cons] at hj
      simp only [print, newline, List.length_append, List.length_cons, List.length_nil] at hfuel
      obtain ⟨b, t, hprint, hspace, h93⟩ := print_head (n + 2) item
      have hitem := parseValue_print item (n + 2) fuel
        (printItems (n + 2) items ++ newline n ++ 93 :: text) hj.1 (by omega)
        (isDigit_head_items items _ _ _)
      have hitems := parseItems_print items (n + 2) fuel text hj.2 (by omega)
      have happend : print n (.array (item :: items)) ++ text = 91 :: (newline (n + 2)
          ++ (print (n + 2) item ++ (printItems (n + 2) items ++ newline n ++ 93 :: text))) := by
        simp [print]
      rw [happend, parseValue, skip_cons rfl]
      dsimp only
      rw [if_neg (by decide), if_pos rfl, if_neg, parseValue_congr (skip_newline _ _), hitem]
      · rw [Nat.add_sub_cancel] at hitems
        simp only [Option.bind_eq_bind, Option.bind_some, hitems]
      · rw [skip_newline, hprint, List.cons_append, skip_cons hspace, List.head?_cons]
        simpa using h93
  | .object [], n, fuel + 1, text, _, _, _ => by
      rfl
  | .object (m :: members), n, fuel + 1, text, hj, hfuel, _ => by
      rw [utf8_object, List.forall_mem_cons] at hj
      simp only [print, newline, List.length_append, List.length_cons, List.length_nil] at hfuel
      have hm := parseMember_print m (n + 2) fuel
        (printMembers (n + 2) members ++ newline n ++ 125 :: text) hj.1 (by omega)
        (isDigit_head_members members _ _ _)
      have hmembers := parseMembers_print members (n + 2) fuel text hj.2 (by omega)
      have happend : print n (.object (m :: members)) ++ text = 123 :: (newline (n + 2)
          ++ (printMember (n + 2) m
            ++ (printMembers (n + 2) members ++ newline n ++ 125 :: text))) := by
        simp [print]
      rw [happend, parseValue, skip_cons rfl]
      dsimp only
      rw [if_neg (by decide), if_neg (by decide), if_pos rfl, if_neg,
        parseMember_congr (skip_newline _ _), hm]
      · rw [Nat.add_sub_cancel] at hmembers
        simp only [Option.bind_eq_bind, Option.bind_some, hmembers]
      · obtain ⟨key, v⟩ := m
        rw [skip_newline, printMember, printString]
        simp only [List.cons_append]
        rw [skip_cons rfl, List.head?_cons]
        decide

theorem parseItems_print : ∀ (items : List (Json Empty)) (n fuel : Nat) (text : List UInt8),
    (∀ item ∈ items, item.Utf8) → (printItems n items).length + 1 ≤ fuel →
    parseItems fuel (printItems n items ++ newline (n - 2) ++ 93 :: text) = some (items, text)
  | _, _, 0, _, _, hfuel => by
      simp at hfuel
  | [], n, fuel + 1, text, _, _ => by
      rw [printItems, List.nil_append, parseItems, skip_newline]
      rfl
  | item :: items, n, fuel + 1, text, hutf8, hfuel => by
      rw [List.forall_mem_cons] at hutf8
      simp only [printItems, newline, List.length_append, List.length_cons] at hfuel
      have hitem := parseValue_print item n fuel
        (printItems n items ++ newline (n - 2) ++ 93 :: text) hutf8.1 (by omega)
        (isDigit_head_items items _ _ _)
      have hitems := parseItems_print items n fuel text hutf8.2 (by omega)
      have happend : printItems n (item :: items) ++ newline (n - 2) ++ 93 :: text
          = 44 :: (newline n
            ++ (print n item ++ (printItems n items ++ newline (n - 2) ++ 93 :: text))) := by
        simp [printItems]
      rw [happend, parseItems, skip_cons rfl]
      dsimp only
      rw [if_neg (by decide), if_pos rfl, parseValue_congr (skip_newline _ _), hitem]
      simp only [Option.bind_eq_bind, Option.bind_some, hitems]

theorem parseMember_print : ∀ (m : String × Json Empty) (n fuel : Nat) (text : List UInt8),
    m.2.Utf8 → (printMember n m).length ≤ fuel → (∀ b ∈ text.head?, isDigit b = false) →
    parseMember fuel (printMember n m ++ text) = some (m, text)
  | (key, v), _, 0, _, _, hfuel, _ => by
      simp [printMember, printString] at hfuel
  | (key, v), n, fuel + 1, text, hutf8, hfuel, htext => by
      simp only [printMember, printString, List.length_append, List.length_cons] at hfuel
      have hv := parseValue_print v n fuel text hutf8 (by omega) htext
      have happend : printMember n (key, v) ++ text
          = 34 :: ((utf8 key).flatMap escape ++ 34 :: 58 :: 32 :: (print n v ++ text)) := by
        simp [printMember, printString]
      rw [happend, parseMember, skip_cons rfl]
      dsimp only
      rw [if_pos rfl, parseUtf8_printString (isUtf8_utf8 key)]
      simp only [Option.bind_eq_bind, Option.bind_some]
      have hspace : skip (32 :: (print n v ++ text)) = skip (print n v ++ text) := rfl
      rw [skip_cons rfl, List.head?_cons, if_pos rfl, List.tail_cons, parseValue_congr hspace, hv]
      simp

theorem parseMembers_print : ∀ (members : List (String × Json Empty)) (n fuel : Nat)
    (text : List UInt8), (∀ m ∈ members, m.2.Utf8) → (printMembers n members).length + 1 ≤ fuel →
    parseMembers fuel (printMembers n members ++ newline (n - 2) ++ 125 :: text)
      = some (members, text)
  | _, _, 0, _, _, hfuel => by
      simp at hfuel
  | [], n, fuel + 1, text, _, _ => by
      rw [printMembers, List.nil_append, parseMembers, skip_newline]
      rfl
  | m :: members, n, fuel + 1, text, hutf8, hfuel => by
      rw [List.forall_mem_cons] at hutf8
      simp only [printMembers, newline, List.length_append, List.length_cons] at hfuel
      have hm := parseMember_print m n fuel
        (printMembers n members ++ newline (n - 2) ++ 125 :: text) hutf8.1 (by omega)
        (isDigit_head_members members _ _ _)
      have hmembers := parseMembers_print members n fuel text hutf8.2 (by omega)
      have happend : printMembers n (m :: members) ++ newline (n - 2) ++ 125 :: text
          = 44 :: (newline n ++ (printMember n m
            ++ (printMembers n members ++ newline (n - 2) ++ 125 :: text))) := by
        simp [printMembers]
      rw [happend, parseMembers, skip_cons rfl]
      dsimp only
      rw [if_neg (by decide), if_pos rfl, parseMember_congr (skip_newline _ _), hm]
      simp only [Option.bind_eq_bind, Option.bind_some, hmembers]

end

/-! ### What is parsed is UTF-8 -/

theorem isUtf8_of_parseUtf8 {text s rest : List UInt8} (h : parseUtf8 text = some (s, rest)) :
  IsUtf8 s
  := by
  rw [parseUtf8, Option.filter_eq_some_iff] at h
  simpa using h.2

theorem utf8_of_parseScalar {b : UInt8} {text rest : List UInt8} {j : Json Empty}
    (h : parseScalar b text = some (j, rest)) :
  j.Utf8
  := by
  rw [parseScalar] at h
  split_ifs at h
  all_goals
    obtain ⟨r, -, heq⟩ := Option.map_eq_some_iff.mp h
    cases heq
    rfl

/-- The strings of a document that is parsed are UTF-8. -/
theorem utf8_of_parse (fuel : Nat) :
  (∀ text j rest, parseValue fuel text = some (j, rest) → j.Utf8)
    ∧ (∀ text items rest, parseItems fuel text = some (items, rest) → ∀ item ∈ items, item.Utf8)
    ∧ (∀ text m rest, parseMember fuel text = some (m, rest) → m.2.Utf8)
    ∧ ∀ text members rest, parseMembers fuel text = some (members, rest) → ∀ m ∈ members, m.2.Utf8
  := by
  induction fuel with
  | zero => simp [parseValue, parseItems, parseMember, parseMembers]
  | succ fuel ih =>
      obtain ⟨hvalue, hitems, hmember, hmembers⟩ := ih
      refine ⟨?_, ?_, ?_, ?_⟩
      · intro text j rest h
        rw [parseValue] at h
        split at h
        case h_1 => cases h
        case h_2 =>
          split_ifs at h
          · obtain ⟨⟨s, t⟩, hs, heq⟩ := Option.map_eq_some_iff.mp h
            cases heq
            apply (utf8_string s).mpr (isUtf8_of_parseUtf8 hs)
          · cases h
            rfl
          · simp only [Option.bind_eq_bind, Option.bind_eq_some_iff] at h
            obtain ⟨⟨item, t⟩, hitem, ⟨items, t'⟩, hrest, heq⟩ := h
            cases heq
            rw [utf8_array, List.forall_mem_cons]
            apply And.intro (hvalue _ _ _ hitem) (hitems _ _ _ hrest)
          · cases h
            rfl
          · simp only [Option.bind_eq_bind, Option.bind_eq_some_iff] at h
            obtain ⟨⟨m, t⟩, hm, ⟨members, t'⟩, hrest, heq⟩ := h
            cases heq
            rw [utf8_object, List.forall_mem_cons]
            apply And.intro (hmember _ _ _ hm) (hmembers _ _ _ hrest)
          · apply utf8_of_parseScalar h
      · intro text items rest h
        rw [parseItems] at h
        split at h
        case h_1 => cases h
        case h_2 =>
          split_ifs at h
          · cases h
            simp
          · simp only [Option.bind_eq_bind, Option.bind_eq_some_iff] at h
            obtain ⟨⟨item, t⟩, hitem, ⟨items, t'⟩, hrest, heq⟩ := h
            cases heq
            rw [List.forall_mem_cons]
            apply And.intro (hvalue _ _ _ hitem) (hitems _ _ _ hrest)
      · intro text m rest h
        rw [parseMember] at h
        split at h
        case h_1 => cases h
        case h_2 =>
          split_ifs at h
          simp only [Option.bind_eq_bind, Option.bind_eq_some_iff] at h
          obtain ⟨⟨key, t⟩, -, h⟩ := h
          dsimp only at h
          split_ifs at h
          obtain ⟨⟨v, t'⟩, hv, heq⟩ := Option.bind_eq_some_iff.mp h
          cases heq
          apply hvalue _ _ _ hv
      · intro text members rest h
        rw [parseMembers] at h
        split at h
        case h_1 => cases h
        case h_2 =>
          split_ifs at h
          · cases h
            simp
          · simp only [Option.bind_eq_bind, Option.bind_eq_some_iff] at h
            obtain ⟨⟨m, t⟩, hm, ⟨members, t'⟩, hrest, heq⟩ := h
            cases heq
            rw [List.forall_mem_cons]
            apply And.intro (hmember _ _ _ hm) (hmembers _ _ _ hrest)

/-! ### The library -/

/-- The document a text starts with, if nothing but white space is behind it where `strict`. -/
def parseText (strict : Bool) (text : List UInt8) : Except JsonError (Json Empty) :=
  match parseValue text.length text with
  | some (j, rest) => if strict && skip rest ≠ [] then .error .parseError else .ok j
  | none => .error .parseError

/-- A document is read as a value of the type. -/
def readAs : (type : ValueType) → Json Empty → Except JsonError type.Carrier
  | .string, .string s => .ok s
  | .boolean, .boolean b => .ok b
  | .uint32, .integer i => .ok (.ofInt i)
  | .uint32, .boolean b => .ok (if b then 1 else 0)
  | .int, .integer i => .ok (.ofInt i)
  | .int, .boolean b => .ok (if b then 1 else 0)
  | _, _ => .error .typeError

/-- The printer and the parser, with the conversions of numbers and booleans. -/
def textLibrary : JsonLibrary Empty where
  parse := parseText true
  read := parseText false
  dump j := if j.Utf8 then .ok (print 0 j) else .error .typeError
  value type j key default :=
    match j with
    | object members =>
        match members.lookup key with
        | some v => readAs type v
        | none => .ok default
    | _ => .error .typeError

theorem parseText_print {j : Json Empty} (hj : j.Utf8) (strict : Bool) :
  parseText strict (print 0 j ++ [10]) = .ok j
  := by
  have hparse := parseValue_print j 0 (print 0 j ++ [10]).length [10] hj
    (by rw [List.length_append]; apply Nat.le_add_right) (by simp [isDigit])
  rw [parseText, hparse]
  cases strict with
  | false => rfl
  | true => rfl

theorem utf8_of_parseText {strict : Bool} {text : List UInt8} {j : Json Empty}
    (h : parseText strict text = .ok j) :
  j.Utf8
  := by
  rw [parseText] at h
  split at h
  case h_1 j' rest hparse =>
    split_ifs at h
    cases h
    apply (utf8_of_parse _).1 _ _ _ hparse
  case h_2 => cases h

theorem readAs_ok_iff (type : ValueType) (v : Json Empty) :
  (∃ x, readAs type v = .ok x) ↔ type.admits v = true
  := by
  cases v with
  | float x => exact x.elim
  | _ => cases type <;> simp [readAs, ValueType.admits]

theorem value_textLibrary {type : ValueType} {j v : Json Empty} {key : String}
    (default : type.Carrier) (hfind : j.find? key = some v) :
  textLibrary.value type j key default = readAs type v
  := by
  cases j with
  | object members =>
      simp only [find?] at hfind
      simp only [textLibrary, hfind]
  | _ => cases hfind

/-- The printer and the parser do what is relied on. -/
theorem textLibrary_lawful :
  textLibrary.Lawful
  := by
  have hdump : ∀ {j text}, textLibrary.dump j = .ok text → j.Utf8 ∧ text = print 0 j := by
    intro j text h
    simp only [textLibrary] at h
    split_ifs at h with hj
    cases h
    apply And.intro hj rfl
  constructor
  · intro j
    constructor
    · rintro ⟨text, h⟩
      apply (hdump h).1
    · intro hj
      use print 0 j
      apply if_pos hj
  · intro j text _ h
    obtain ⟨hj, rfl⟩ := hdump h
    apply parseText_print hj
  · intro j text _ h
    obtain ⟨hj, rfl⟩ := hdump h
    apply parseText_print hj
  · rfl
  · rfl
  · intro text j
    apply utf8_of_parseText
  · intro type j key default
    cases j with
    | object members =>
        simp only [textLibrary, isObject, admits, find?, true_and]
        cases members.lookup key with
        | none => simp
        | some v => apply readAs_ok_iff
    | _ => simp [textLibrary, isObject]
  · intro type j key default hobject hfind
    cases j with
    | object members =>
        simp only [find?] at hfind
        simp only [textLibrary, hfind]
    | _ => cases hobject
  · intro j key default s hfind
    apply value_textLibrary default hfind
  · intro j key default b hfind
    apply value_textLibrary default hfind
  · intro j key default n hfind
    have hlt := n.toNat_lt
    rw [value_textLibrary default hfind, readAs, UInt32.ofInt,
      Int.emod_eq_of_lt (by omega) (by omega), Int.toNat_natCast, UInt32.ofNat_toNat]
  · intro j key default n hfind
    rw [value_textLibrary default hfind, readAs, Int32.ofInt_toInt]

end Json
