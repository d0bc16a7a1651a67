import Mathlib

/-!
# The values of 32-bit floats

A float is no number, infinite, or has a value that is an integer of at most 24 bits times a
power of two.  Unpacked floats are canonical: the integer has all its bits unless the power is
the least one.  So the order of canonical floats, which looks at the powers first, is the order
of their values.  A float of more bits is a rational here, which is rounded to its bits.
-/

namespace Binary32

open Float.Model

/-- The value of an unpacked float, if it is a number. -/
def unpackedValue : UnpackedFloat → Option ℚ
  | .notANumber => none
  | .infinity _ => none
  | .zero _ => some 0
  | .finite sign mantissa exponent _ => some ((sign.apply mantissa : ℤ) * (2 : ℚ) ^ exponent)

/-- The value of a float, if it is a number. -/
def value (s : Float32) : Option ℚ :=
  unpackedValue s.toModel.unpack

/-- A rational without what is behind the point. -/
def truncate (q : ℚ) : ℤ :=
  if 0 ≤ q then ⌊q⌋ else ⌈q⌉

/-- The integer closest to a rational, and the even one where two are. -/
def roundEven (q : ℚ) : ℤ :=
  if Int.fract q < 1 / 2 ∨ Int.fract q = 1 / 2 ∧ ⌊q⌋ % 2 = 0 then ⌊q⌋ else ⌊q⌋ + 1

/-- The unit in the last place of a number of `bits` bits. -/
def lastPlace (bits : ℕ) (q : ℚ) : ℚ :=
  2 ^ (Int.log 2 |q| + 1 - bits)

/-- A rational in `bits` bits. -/
def roundBits (bits : ℕ) (q : ℚ) : ℚ :=
  roundEven (q / lastPlace bits q) * lastPlace bits q

/-- The integer and the power of a canonical float. -/
structure IsMagnitude (mantissa : ℕ) (exponent : ℤ) : Prop where
  lt : mantissa < 2 ^ 24
  le : -149 ≤ exponent
  full : exponent = -149 ∨ 2 ^ 23 ≤ mantissa

/-- An unpacked float is canonical. -/
def Canonical : UnpackedFloat → Prop
  | .finite _ mantissa exponent _ => IsMagnitude mantissa exponent
  | _ => True

/-! ### Unpacking -/

/-- A bit in front of a mantissa. -/
theorem toNat_append_one (mantissa : BitVec 23) :
  (1#1 ++ mantissa).toNat = 2 ^ 23 + mantissa.toNat
  := by
  rw [BitVec.toNat_append, ← Nat.shiftLeft_add_eq_or_of_lt mantissa.isLt, Nat.shiftLeft_eq]
  rfl

theorem canonical_unpack (b : BitVec 32) :
  Canonical (UnpackedFloat.unpack Format.binary32 b)
  := by
  have hlt : (@UnpackedFloat.unpackMantissa Format.binary32 b).toNat < 2 ^ 23 := BitVec.isLt _
  have hbits : Format.binary32.mantissaBitsWithoutImplicit = 23 := rfl
  have hbias : Format.binary32.exponentBias = 127 := rfl
  rw [UnpackedFloat.unpack]
  split
  · split
    · trivial
    · trivial
  · split
    next hzero =>
      have hexponent := congrArg BitVec.toNat hzero
      rw [BitVec.toNat_zero] at hexponent
      split
      · trivial
      · constructor
        · omega
        · omega
        · left
          omega
    next hpos =>
      have hexponent : (@UnpackedFloat.unpackExponent Format.binary32 b).toNat ≠ 0 :=
        fun h => hpos (BitVec.eq_of_toNat_eq h)
      constructor
      · rw [toNat_append_one]
        omega
      · omega
      · right
        rw [toNat_append_one]
        omega

/-! ### The order of the values -/

/-- Magnitudes are compared by their powers first. -/
theorem magnitude_lt_iff {m n : ℕ} {d e : ℤ} (hm : IsMagnitude m d) (hn : IsMagnitude n e) :
  (m : ℚ) * 2 ^ d < n * 2 ^ e ↔ d < e ∨ d = e ∧ m < n
  := by
  have habove : ∀ {m n : ℕ} {d e : ℤ}, IsMagnitude m d → IsMagnitude n e → d < e →
      (m : ℚ) * 2 ^ d < n * 2 ^ e := by
    intro m n d e hm hn hlt
    have hfull : 2 ^ 23 ≤ n := by
      apply hn.full.resolve_left
      have hle := hm.le
      omega
    calc (m : ℚ) * 2 ^ d < 2 ^ 24 * 2 ^ d := by
          apply mul_lt_mul_of_pos_right _ (by positivity)
          exact_mod_cast hm.lt
      _ = 2 ^ 23 * 2 ^ (d + 1) := by
          rw [zpow_add_one₀ (by norm_num)]
          ring
      _ ≤ 2 ^ 23 * 2 ^ e := by
          gcongr
          · norm_num
          · omega
      _ ≤ n * 2 ^ e := by
          gcongr
          exact_mod_cast hfull
  rcases lt_trichotomy d e with hlt | rfl | hgt
  · simp [hlt, habove hm hn hlt]
  · have hpos : (0 : ℚ) < 2 ^ d := by positivity
    rw [mul_lt_mul_iff_left₀ hpos, Nat.cast_lt]
    simp
  · have hnot := (habove hn hm hgt).le.not_gt
    simp [hnot, hgt.not_gt, hgt.ne']

theorem magnitude_pos {m : ℕ} (hm : 0 < m) (e : ℤ) :
  (0 : ℚ) < m * 2 ^ e
  := by positivity

theorem apply_positive (m : ℕ) :
  ((UnpackedFloat.Sign.positive.apply m : ℤ) : ℚ) = m
  := rfl

theorem apply_negative (m : ℕ) :
  ((UnpackedFloat.Sign.negative.apply m : ℤ) : ℚ) = -m
  := Int.cast_neg (m : ℤ)

/-- Powers and integers are compared one after the other. -/
theorem then_eq_lt_iff {m n : ℕ} {d e : ℤ} :
  (compare d e).then (compare m n) = .lt ↔ d < e ∨ d = e ∧ m < n
  := by
  rw [Ordering.then_eq_lt, compare_lt_iff_lt, compare_eq_iff_eq, compare_lt_iff_lt]

theorem swap_then_eq_lt_iff {m n : ℕ} {d e : ℤ} :
  ((compare d e).then (compare m n)).swap = .lt ↔ e < d ∨ e = d ∧ n < m
  := by
  rw [Ordering.swap_eq_lt, Ordering.then_eq_gt, compare_gt_iff_gt, compare_eq_iff_eq,
    compare_gt_iff_gt, eq_comm]

/-- The order of canonical floats is the one of their values. -/
theorem lt_iff_unpackedValue {x y : UnpackedFloat} {p q : ℚ} (hx : Canonical x) (hy : Canonical y)
    (hp : unpackedValue x = some p) (hq : unpackedValue y = some q) :
  x.lt y = true ↔ p < q
  := by
  rw [UnpackedFloat.lt, beq_iff_eq]
  cases x with
  | notANumber | infinity _ => cases hp
  | zero s =>
      obtain rfl := Option.some.inj hp
      cases y with
      | notANumber | infinity _ => cases hq
      | zero t =>
          obtain rfl := Option.some.inj hq
          simp [UnpackedFloat.compare]
      | finite t n e hn =>
          have hpos := magnitude_pos hn e
          obtain rfl := Option.some.inj hq
          cases t with
          | positive =>
              rw [apply_positive]
              apply iff_of_true rfl hpos
          | negative =>
              rw [apply_negative, neg_mul]
              apply iff_of_false
              · intro h
                cases h
              · linarith
  | finite s m d hm =>
      have hpos := magnitude_pos hm d
      obtain rfl := Option.some.inj hp
      cases y with
      | notANumber | infinity _ => cases hq
      | zero t =>
          obtain rfl := Option.some.inj hq
          cases s with
          | positive =>
              rw [apply_positive]
              apply iff_of_false
              · intro h
                cases h
              · apply hpos.not_gt
          | negative =>
              rw [apply_negative, neg_mul]
              apply iff_of_true rfl
              linarith
      | finite t n e hn =>
          have hpos' := magnitude_pos hn e
          obtain rfl := Option.some.inj hq
          cases s with
          | positive =>
              rw [apply_positive]
              cases t with
              | positive =>
                  rw [apply_positive, UnpackedFloat.compare, Option.some.injEq, then_eq_lt_iff,
                    magnitude_lt_iff hx hy]
              | negative =>
                  rw [apply_negative, neg_mul]
                  apply iff_of_false
                  · intro h
                    cases h
                  · linarith
          | negative =>
              rw [apply_negative, neg_mul]
              cases t with
              | positive =>
                  rw [apply_positive]
                  apply iff_of_true rfl
                  linarith
              | negative =>
                  rw [apply_negative, neg_mul, neg_lt_neg_iff, UnpackedFloat.compare,
                    Option.some.injEq, swap_then_eq_lt_iff, magnitude_lt_iff hy hx]

/-- The order of floats is the one of what they unpack to. -/
theorem lt_iff_unpack (s t : Float32) :
  s < t ↔ s.toModel.unpack.lt t.toModel.unpack = true
  := decide_eq_true_iff

/-- The order of floats is the one of their values. -/
theorem lt_iff_value {s t : Float32} {p q : ℚ} (hp : value s = some p) (hq : value t = some q) :
  s < t ↔ p < q
  := by
  rw [lt_iff_unpack]
  apply lt_iff_unpackedValue (canonical_unpack _) (canonical_unpack _) hp hq

/-! ### Rounding -/

/-- The value of a float has 24 bits. -/
theorem exists_of_value {s : Float32} {q : ℚ} (h : value s = some q) :
  ∃ m e : ℤ, |m| < 2 ^ 24 ∧ q = m * 2 ^ e
  := by
  have hcanonical : Canonical s.toModel.unpack := canonical_unpack _
  rw [value] at h
  cases hs : s.toModel.unpack with
  | notANumber | infinity _ =>
      rw [hs] at h
      cases h
  | zero _ =>
      rw [hs] at h
      obtain rfl := Option.some.inj h
      use 0, 0
      norm_num
  | finite sign mantissa exponent _ =>
      rw [hs] at h hcanonical
      obtain rfl := Option.some.inj h
      use sign.apply mantissa, exponent
      constructor
      · have hlt : (mantissa : ℤ) < 2 ^ 24 := by exact_mod_cast hcanonical.lt
        cases sign with
        | positive => exact (abs_of_nonneg (Int.natCast_nonneg _)).trans_lt hlt
        | negative => exact ((abs_neg _).trans (abs_of_nonneg (Int.natCast_nonneg _))).trans_lt hlt
      · rfl

theorem roundEven_intCast (n : ℤ) :
  roundEven n = n
  := by
  rw [roundEven, Int.fract_intCast, Int.floor_intCast, if_pos (by norm_num)]

theorem lastPlace_pos (bits : ℕ) (q : ℚ) :
  0 < lastPlace bits q
  := by
  rw [lastPlace]
  positivity

/-- The last place of a number lies above the power it is a multiple of. -/
theorem exists_mul_lastPlace {bits : ℕ} {m : ℤ} (hm : |m| < 2 ^ bits) (e : ℤ) :
  ∃ n : ℤ, (m * 2 ^ e : ℚ) = n * lastPlace bits (m * 2 ^ e)
  := by
  by_cases hzero : m = 0
  · use 0
    rw [hzero]
    simp
  · have hpos : 0 < |(m * 2 ^ e : ℚ)| := by positivity
    have hlt : (2 : ℚ) ^ Int.log 2 |(m * 2 ^ e : ℚ)| < 2 ^ (bits + e) :=
      calc (2 : ℚ) ^ Int.log 2 |(m * 2 ^ e : ℚ)| ≤ |(m * 2 ^ e : ℚ)| := by
            exact_mod_cast Int.zpow_log_le_self (by norm_num) hpos
        _ = |(m : ℚ)| * 2 ^ e := by rw [abs_mul, abs_of_pos (a := (2 : ℚ) ^ e) (by positivity)]
        _ < 2 ^ bits * 2 ^ e := by
            gcongr
            exact_mod_cast hm
        _ = 2 ^ (bits + e) := by rw [zpow_add₀ (by norm_num), zpow_natCast]
    have hlog := (zpow_lt_zpow_iff_right₀ (by norm_num : (1 : ℚ) < 2)).mp hlt
    obtain ⟨k, hk⟩ : ∃ k : ℕ, e = k + (Int.log 2 |(m * 2 ^ e : ℚ)| + 1 - bits) := by
      use (e - (Int.log 2 |(m * 2 ^ e : ℚ)| + 1 - bits)).toNat
      omega
    use m * 2 ^ k
    rw [lastPlace]
    generalize Int.log 2 |(m * 2 ^ e : ℚ)| + 1 - bits = place at hk ⊢
    rw [hk, zpow_add₀ (by norm_num), zpow_natCast]
    push_cast
    ring

/-- What has no more than `bits` bits is not rounded. -/
theorem roundBits_eq {bits : ℕ} {m : ℤ} (hm : |m| < 2 ^ bits) (e : ℤ) :
  roundBits bits (m * 2 ^ e) = m * 2 ^ e
  := by
  obtain ⟨n, hn⟩ := exists_mul_lastPlace hm e
  have hquotient : (m * 2 ^ e : ℚ) / lastPlace bits (m * 2 ^ e) = n := by
    rw [div_eq_iff (lastPlace_pos bits _).ne', ← hn]
  rw [roundBits, hquotient, roundEven_intCast, ← hn]

/-- Of ties the even one is taken, on both sides of zero. -/
example : roundBits 2 5 = 4 ∧ roundBits 2 7 = 8 ∧ roundBits 3 (-11 / 4) = -3 := by decide +kernel

/-! ### Floats without a value -/

theorem unpack_of_isNaN {s : Float32} (h : s.isNaN = true) :
  s.toModel.unpack = .notANumber
  := by
  have hnan : s.toModel.unpack.isNaN = true := h
  cases hs : s.toModel.unpack with
  | notANumber => rfl
  | infinity _ | zero _ | finite _ _ _ _ =>
      rw [hs] at hnan
      cases hnan

theorem value_of_isNaN {s : Float32} (h : s.isNaN = true) :
  value s = none
  := by rw [value, unpack_of_isNaN h, unpackedValue]

/-- What is not a number is not less than anything, and nothing is less than it. -/
theorem not_lt_of_isNaN {s : Float32} (h : s.isNaN = true) (t : Float32) :
  ¬ s < t ∧ ¬ t < s
  := by
  rw [lt_iff_unpack, lt_iff_unpack, unpack_of_isNaN h]
  constructor
  · intro hlt
    cases hlt
  · intro hlt
    cases ht : t.toModel.unpack with
    | notANumber | zero _ =>
        rw [ht] at hlt
        cases hlt
    | infinity sign | finite sign _ _ _ =>
        rw [ht] at hlt
        cases sign with | positive | negative => cases hlt

/-- Numbers lie between the infinities. -/
theorem lt_infinity {x : UnpackedFloat} {q : ℚ} (hx : unpackedValue x = some q) :
  (x.lt (.infinity .positive) = true ∧ ¬ (UnpackedFloat.infinity .positive).lt x = true)
    ∧ (UnpackedFloat.infinity .negative).lt x = true ∧ ¬ x.lt (.infinity .negative) = true
  := by
  cases x with
  | notANumber | infinity _ => cases hx
  | zero _ => exact ⟨⟨rfl, Bool.false_ne_true⟩, rfl, Bool.false_ne_true⟩
  | finite sign _ _ _ =>
      cases sign with
      | positive | negative => exact ⟨⟨rfl, Bool.false_ne_true⟩, rfl, Bool.false_ne_true⟩

/-- A float without a value that is not NaN is infinite, and lies above all numbers or below all
of them. -/
theorem infinite_of_value {s : Float32} (h : value s = none) (hnan : s.isNaN = false) :
  (∀ t q, value t = some q → t < s ∧ ¬ s < t) ∨ ∀ t q, value t = some q → s < t ∧ ¬ t < s
  := by
  have hmodel : s.toModel.unpack.isNaN = false := hnan
  rw [value] at h
  cases hs : s.toModel.unpack with
  | notANumber =>
      rw [hs] at hmodel
      cases hmodel
  | zero _ | finite _ _ _ _ =>
      rw [hs] at h
      cases h
  | infinity sign =>
      cases sign with
      | positive =>
          left
          intro t q ht
          rw [lt_iff_unpack, lt_iff_unpack, hs]
          apply (lt_infinity ht).1
      | negative =>
          right
          intro t q ht
          rw [lt_iff_unpack, lt_iff_unpack, hs]
          apply (lt_infinity ht).2

/-! ### Truncation -/

theorem truncate_intCast (n : ℤ) :
  truncate n = n
  := by
  rw [truncate]
  split
  · apply Int.floor_intCast
  · apply Int.ceil_intCast

/-- Truncation stays between integers. -/
theorem truncate_mem {q : ℚ} {n : ℤ} (hlo : (-n : ℚ) ≤ q) (hhi : q ≤ n) :
  -n ≤ truncate q ∧ truncate q ≤ n
  := by
  rw [truncate]
  constructor
  · split
    · rw [Int.le_floor]
      push_cast
      apply hlo
    · apply Int.le_of_lt_add_one
      rw [← Int.sub_lt_iff, Int.lt_ceil]
      push_cast
      linarith
  · split
    · apply Int.le_of_lt_add_one
      rw [Int.floor_lt]
      push_cast
      linarith
    · rw [Int.ceil_le]
      apply hhi

end Binary32
