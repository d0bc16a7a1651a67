import Mathlib.Data.List.Infix
import SscOnWindows.Lib.Scan

/-!
# Searching for a text

A text is found in another one when it is an infix of it.  When the text begins with a mark `w`, it
can be found only where the mark is.  A piece is clear of a mark when no occurrence of the mark
starts in it, whatever follows the piece; pieces that are clear of a mark can be skipped in the
search.

The texts of a formatted output with hexadecimal words are made of such pieces.
-/

namespace TextSearch

variable {α : Type*} {c : α} {b w x y : List α}

/-- No occurrence of the mark `w` starts in `x`, whatever follows `x`. -/
def Clear (w x : List α) : Prop :=
  ∀ u ∈ x.tails, u ≠ [] → ¬ u <+: w ∧ ¬ w <+: u

instance [DecidableEq α] (w x : List α) : Decidable (Clear w x) :=
  inferInstanceAs (Decidable (∀ u ∈ x.tails, u ≠ [] → ¬ u <+: w ∧ ¬ w <+: u))

/-! ### Clear pieces -/

theorem clear_cons_iff :
  Clear w (c :: x) ↔ (¬ c :: x <+: w ∧ ¬ w <+: c :: x) ∧ Clear w x
  := by
  simp [Clear]

/-- A piece without the first character of the mark is clear of it. -/
theorem clear_of_not_mem (h : c ∉ x) :
  Clear (c :: w) x
  := by
  intro u hu hne
  obtain ⟨d, u, rfl⟩ := List.exists_cons_of_ne_nil hne
  have hd : c ≠ d := by
    rintro rfl
    apply h (((List.mem_tails _ _).mp hu).subset List.mem_cons_self)
  simp [List.cons_prefix_cons, hd, hd.symm]

/-- Clear pieces can be put together. -/
theorem Clear.append (hx : Clear w x) (hy : Clear w y) :
  Clear w (x ++ y)
  := by
  induction x with
  | nil => apply hy
  | cons d x ih =>
      obtain ⟨⟨hbegins, hmark⟩, hx⟩ := clear_cons_iff.mp hx
      rw [List.cons_append, clear_cons_iff]
      refine ⟨⟨?_, ?_⟩, ih hx⟩
      · intro h
        apply hbegins ((List.prefix_append (d :: x) y).trans h)
      · intro h
        rcases List.prefix_or_prefix_of_prefix h (List.prefix_append (d :: x) y) with h | h
        · apply hmark h
        · apply hbegins h

/-- The search skips a clear piece. -/
theorem Clear.infix_append_iff (h : Clear w x) (b y : List α) :
  w ++ b <:+: x ++ y ↔ w ++ b <:+: y
  := by
  induction x with
  | nil => rfl
  | cons d x ih =>
      obtain ⟨⟨hbegins, hmark⟩, hx⟩ := clear_cons_iff.mp h
      rw [List.cons_append, List.infix_cons_iff, ih hx]
      apply or_iff_right
      intro hfound
      rcases List.prefix_or_prefix_of_prefix ((List.prefix_append w b).trans hfound)
        (List.prefix_append (d :: x) y) with h | h
      · apply hmark h
      · apply hbegins h

/-- Nothing that begins with the mark is found in a clear piece. -/
theorem Clear.not_infix_append (h : Clear (c :: w) x) (b : List α) :
  ¬ (c :: w) ++ b <:+: x
  := by
  rw [← List.append_nil x, h.infix_append_iff]
  simp

/-- What is searched for is found only at the one place where the mark is. -/
theorem infix_mark_iff (hx : Clear (c :: w) x) (hy : Clear (c :: w) (w ++ y)) (b : List α) :
  (c :: w) ++ b <:+: x ++ ((c :: w) ++ y) ↔ b <+: y
  := by
  rw [hx.infix_append_iff]
  change (c :: w) ++ b <:+: c :: (w ++ y) ↔ b <+: y
  rw [List.infix_cons_iff]
  change (c :: w) ++ b <+: (c :: w) ++ y ∨ _ ↔ b <+: y
  rw [List.prefix_append_right_inj]
  apply or_iff_left
  apply hy.not_infix_append

/-- Prefixes that are made of fields of the same length. -/
theorem append_prefix_append_iff {a a' b b' : List α} (h : a.length = a'.length) :
  a ++ b <+: a' ++ b' ↔ a = a' ∧ b <+: b'
  := by
  constructor
  · intro hbegins
    have ha : a = a' := by
      apply List.IsPrefix.eq_of_length _ h
      apply List.prefix_of_prefix_length_le ((List.prefix_append a b).trans hbegins)
        (List.prefix_append a' b') (Nat.le_of_eq h)
    obtain rfl := ha
    exact ⟨rfl, (List.prefix_append_right_inj a).mp hbegins⟩
  · rintro ⟨rfl, hbegins⟩
    rw [List.prefix_append_right_inj]
    apply hbegins

/-! ### Formatted texts -/

/-- The characters of a literal. -/
def chars (s : String) : List Char :=
  s.toList

/-- The word as `%04x` writes it. -/
def hexWord (n : UInt16) : List Char :=
  Scan.hexByte (n >>> 8).toUInt8 ++ Scan.hexByte n.toUInt8

/-- The word as `%04X` writes it. -/
def upperHexWord (n : UInt16) : List Char :=
  (hexWord n).map Char.toUpper

/-- `%02x` writes hexadecimal digits. -/
theorem digit_hexByte {b : UInt8} {c : Char} (h : c ∈ Scan.hexByte b) :
  ∃ d < 16, c = Nat.digitChar d
  := by
  have hlt := b.toNat_lt
  simp only [Scan.hexByte, List.mem_cons, List.not_mem_nil, or_false] at h
  rcases h with rfl | rfl
  · exact ⟨_, by omega, rfl⟩
  · exact ⟨_, by omega, rfl⟩

/-- `%04x` writes hexadecimal digits. -/
theorem digit_hexWord {n : UInt16} {c : Char} (h : c ∈ hexWord n) :
  ∃ d < 16, c = Nat.digitChar d
  := by
  rcases List.mem_append.mp h with h | h
  · apply digit_hexByte h
  · apply digit_hexByte h

/-- A character that is no digit does not occur in a word. -/
theorem not_mem_hexWord {c : Char} (h : ∀ d < 16, c ≠ Nat.digitChar d) (n : UInt16) :
  c ∉ hexWord n
  := by
  intro hc
  obtain ⟨d, hd, rfl⟩ := digit_hexWord hc
  apply h d hd rfl

theorem length_hexWord (n : UInt16) :
  (hexWord n).length = 4
  := rfl

theorem toLower_toUpper_digitChar :
  ∀ d < 16, (Nat.digitChar d).toUpper.toLower = Nat.digitChar d
  := by decide

/-- The capital letters are those of the digits. -/
theorem map_toLower_upperHexWord (n : UInt16) :
  (upperHexWord n).map Char.toLower = hexWord n
  := by
  rw [upperHexWord, List.map_map]
  conv_rhs => rw [← List.map_id (hexWord n)]
  apply List.map_congr_left
  intro c hc
  obtain ⟨d, hd, rfl⟩ := digit_hexWord hc
  apply toLower_toUpper_digitChar d hd

theorem hexByte_inj {a b : UInt8} (h : Scan.hexByte a = Scan.hexByte b) :
  a = b
  := by
  have ha := Scan.hexField_hexByte a []
  rw [h, Scan.hexField_hexByte b []] at ha
  apply UInt8.toNat_inj.mp
  have ha := Option.some.inj ha
  omega

/-- Words are told apart by their digits. -/
theorem hexWord_inj {m n : UInt16} :
  hexWord m = hexWord n ↔ m = n
  := by
  constructor
  · intro h
    obtain ⟨hhigh, hlow⟩ := List.append_inj h rfl
    have hhigh := congrArg UInt8.toNat (hexByte_inj hhigh)
    have hlow := congrArg UInt8.toNat (hexByte_inj hlow)
    have hm := m.toNat_lt
    have hn := n.toNat_lt
    simp only [UInt16.toNat_toUInt8, UInt16.toNat_shiftRight] at hhigh hlow
    simp [Nat.shiftRight_eq_div_pow] at hhigh
    apply UInt16.toNat_inj.mp
    omega
  · rintro rfl
    rfl

/-- `snprintf` to a buffer of `size` characters. -/
def snprintf (size : Nat) (text : List Char) : List Char :=
  text.take (size - 1)

theorem snprintf_eq_self {size : Nat} {text : List Char} (h : text.length < size) :
  snprintf size text = text
  := List.take_of_length_le (by omega)

end TextSearch
