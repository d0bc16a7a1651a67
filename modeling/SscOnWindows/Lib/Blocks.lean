import Mathlib.Data.List.Basic

/-!
# Blocks of a stream

A stream is cut into blocks of `n` items, with a remainder of fewer.  The blocks of a
stream that arrives in parts are those of the first part, and those of its remainder with
the second part behind it; so it does not matter how the stream is cut into parts.

A map of blocks is applied to one block after the other.  `Framewise a b f` says that `f`
takes frames of `a` items to frames of `b` items, and a stream of whole frames can be given
to it in parts.  Such maps compose, and the maps of blocks are of this kind.
-/

namespace Blocks

variable {α β : Type*} {n m : Nat} {xs ys : List α}

/-- The whole blocks of the stream, in their order. -/
def blocks (n : Nat) (xs : List α) : List (List α) :=
  (List.range (xs.length / n)).map (fun i => (xs.drop (i * n)).take n)

/-- What is left behind the whole blocks. -/
def remainder (n : Nat) (xs : List α) : List α :=
  xs.drop (xs.length / n * n)

/-- A stream is shorter than a block, or begins with one. -/
@[elab_as_elim]
theorem blockInduction {motive : List α → Prop} (hn : 0 < n)
    (short : ∀ xs : List α, xs.length < n → motive xs)
    (long : ∀ xs : List α, n ≤ xs.length → motive (xs.drop n) → motive xs) (xs : List α) :
  motive xs
  := by
  induction hlength : xs.length using Nat.strongRecOn generalizing xs with
  | ind length ih =>
      by_cases hlt : xs.length < n
      · apply short xs hlt
      · apply long xs (Nat.le_of_not_lt hlt)
        apply ih (xs.drop n).length _ _ rfl
        rw [List.length_drop]
        omega

theorem blocks_of_lt (h : xs.length < n) :
  blocks n xs = []
  := by
  rw [blocks, Nat.div_eq_of_lt h]
  rfl

theorem remainder_of_lt (h : xs.length < n) :
  remainder n xs = xs
  := by
  rw [remainder, Nat.div_eq_of_lt h, Nat.zero_mul, List.drop_zero]

theorem blocks_of_le (hn : 0 < n) (h : n ≤ xs.length) :
  blocks n xs = xs.take n :: blocks n (xs.drop n)
  := by
  have hdiv : xs.length / n = (xs.drop n).length / n + 1 := by
    rw [List.length_drop, ← Nat.div_eq_sub_div hn h]
  rw [blocks, hdiv, List.range_succ_eq_map, List.map_cons, List.map_map, Nat.zero_mul,
    List.drop_zero, blocks]
  congr 1
  apply List.map_congr_left
  intro i _
  rw [Function.comp_apply, List.drop_drop, Nat.succ_mul, Nat.add_comm n]

theorem remainder_of_le (hn : 0 < n) (h : n ≤ xs.length) :
  remainder n xs = remainder n (xs.drop n)
  := by
  have hdiv : xs.length / n = (xs.drop n).length / n + 1 := by
    rw [List.length_drop, ← Nat.div_eq_sub_div hn h]
  rw [remainder, hdiv, remainder, List.drop_drop, Nat.succ_mul, Nat.add_comm n]

/-- The remainder is shorter than a block. -/
theorem length_remainder_lt (hn : 0 < n) (xs : List α) :
  (remainder n xs).length < n
  := by
  induction xs using blockInduction hn with
  | short xs h =>
      rw [remainder_of_lt h]
      apply h
  | long xs h ih =>
      rw [remainder_of_le hn h]
      apply ih

theorem length_of_mem_blocks (hn : 0 < n) {block : List α} (h : block ∈ blocks n xs) :
  block.length = n
  := by
  induction xs using blockInduction hn with
  | short xs hlt =>
      rw [blocks_of_lt hlt] at h
      contradiction
  | long xs hle ih =>
      rw [blocks_of_le hn hle] at h
      cases List.mem_cons.mp h with
      | inl hfirst =>
          rw [hfirst]
          apply List.length_take_of_le hle
      | inr hrest => apply ih hrest

/-- The blocks of a stream that arrives in two parts. -/
theorem blocks_append (hn : 0 < n) (xs ys : List α) :
  blocks n (xs ++ ys) = blocks n xs ++ blocks n (remainder n xs ++ ys)
  := by
  induction xs using blockInduction hn with
  | short xs h => rw [blocks_of_lt h, remainder_of_lt h, List.nil_append]
  | long xs h ih =>
      have hle : n ≤ (xs ++ ys).length := by
        rw [List.length_append]
        omega
      rw [blocks_of_le hn hle, blocks_of_le hn h, remainder_of_le hn h, List.cons_append,
        List.take_append_of_le_length h, List.drop_append_of_le_length h, ih]

theorem remainder_append (hn : 0 < n) (xs ys : List α) :
  remainder n (xs ++ ys) = remainder n (remainder n xs ++ ys)
  := by
  induction xs using blockInduction hn with
  | short xs h => rw [remainder_of_lt h]
  | long xs h ih =>
      have hle : n ≤ (xs ++ ys).length := by
        rw [List.length_append]
        omega
      rw [remainder_of_le hn hle, remainder_of_le hn h, List.drop_append_of_le_length h, ih]

/-- Whole blocks leave no remainder. -/
theorem remainder_of_dvd (h : n ∣ xs.length) :
  remainder n xs = []
  := by
  rw [remainder, Nat.div_mul_cancel h, List.drop_length]

theorem length_blocks (n : Nat) (xs : List α) :
  (blocks n xs).length = xs.length / n
  := by
  rw [blocks, List.length_map, List.length_range]

/-! ### Maps of blocks -/

/-- The map `f` is applied to every block. -/
def mapBlocks (n : Nat) (f : List α → List β) (xs : List α) : List β :=
  (blocks n xs).flatMap f

/-- A map takes frames of `a` items to frames of `b` items, one after the other. -/
structure Framewise (a b : Nat) (f : List α → List β) : Prop where
  append : ∀ xs ys, a ∣ xs.length → f (xs ++ ys) = f xs ++ f ys
  length : ∀ q xs, xs.length = q * a → (f xs).length = q * b

/-- A map of blocks whose images are all of one length. -/
theorem mapBlocks_framewise (hn : 0 < n) {f : List α → List β}
    (hf : ∀ block : List α, block.length = n → (f block).length = m) :
  Framewise n m (mapBlocks n f)
  := by
  constructor
  · intro xs ys h
    rw [mapBlocks, blocks_append hn, remainder_of_dvd h, List.nil_append, List.flatMap_append]
    rfl
  · intro q xs h
    have himage : ∀ block ∈ blocks n xs, (f block).length = m := by
      intro block hblock
      apply hf block (length_of_mem_blocks hn hblock)
    rw [mapBlocks, List.length_flatMap, List.map_congr_left himage, List.map_const',
      List.sum_replicate_nat, length_blocks, h, Nat.mul_div_cancel _ hn]

theorem flatMap_eq_iff {f g : α → List β} (h : ∀ x ∈ xs, (f x).length = (g x).length) :
  xs.flatMap f = xs.flatMap g ↔ ∀ x ∈ xs, f x = g x
  := by
  induction xs with
  | nil => simp
  | cons x xs ih =>
      obtain ⟨hx, hrest⟩ := List.forall_mem_cons.mp h
      rw [List.flatMap_cons, List.flatMap_cons, List.forall_mem_cons, ← ih hrest]
      constructor
      · intro heq
        apply List.append_inj heq hx
      · rintro ⟨hfirst, hothers⟩
        rw [hfirst, hothers]

/-- Maps of blocks to images of one length agree when they agree on every block. -/
theorem mapBlocks_eq_iff (hn : 0 < n) {f g : List α → List β}
    (hf : ∀ block : List α, block.length = n → (f block).length = m)
    (hg : ∀ block : List α, block.length = n → (g block).length = m) :
  mapBlocks n f xs = mapBlocks n g xs ↔ ∀ block ∈ blocks n xs, f block = g block
  := by
  apply flatMap_eq_iff
  intro block hblock
  have hlength := length_of_mem_blocks hn hblock
  rw [hf block hlength, hg block hlength]

/-! ### Items of one length -/

/-- The first images of the items of a stream, when all of them have one length. -/
theorem take_flatMap {f : α → List β} (hf : ∀ x, (f x).length = m) (k : Nat) (xs : List α) :
  (xs.flatMap f).take (k * m) = (xs.take k).flatMap f
  := by
  induction k generalizing xs with
  | zero => rw [Nat.zero_mul, List.take_zero, List.take_zero, List.flatMap_nil]
  | succ k ih =>
      cases xs with
      | nil => rw [List.flatMap_nil, List.take_nil, List.take_nil, List.flatMap_nil]
      | cons x xs =>
          rw [List.flatMap_cons, List.take_succ_cons, List.flatMap_cons, ← ih, Nat.succ_mul,
            Nat.add_comm, List.take_add, List.take_left' (hf x), List.drop_left' (hf x)]

theorem drop_flatMap {f : α → List β} (hf : ∀ x, (f x).length = m) (k : Nat) (xs : List α) :
  (xs.flatMap f).drop (k * m) = (xs.drop k).flatMap f
  := by
  induction k generalizing xs with
  | zero => rw [Nat.zero_mul, List.drop_zero, List.drop_zero]
  | succ k ih =>
      cases xs with
      | nil => rw [List.flatMap_nil, List.drop_nil, List.drop_nil, List.flatMap_nil]
      | cons x xs =>
          rw [List.flatMap_cons, List.drop_succ_cons, ← ih, Nat.succ_mul, Nat.add_comm,
            ← List.drop_drop, List.drop_left' (hf x)]

theorem length_flatMap {f : α → List β} (hf : ∀ x, (f x).length = m) (xs : List α) :
  (xs.flatMap f).length = xs.length * m
  := by
  rw [List.length_flatMap, List.map_congr_left (fun x _ => hf x), List.map_const',
    List.sum_replicate_nat]

/-- Blocks of the images are the images of blocks. -/
theorem blocks_flatMap {f : α → List β} (hf : ∀ x, (f x).length = m) (hm : 0 < m) (k : Nat)
    (xs : List α) :
  blocks (k * m) (xs.flatMap f) = (blocks k xs).map (List.flatMap f)
  := by
  rw [blocks, length_flatMap hf, Nat.mul_div_mul_right _ _ hm, blocks, List.map_map]
  apply List.map_congr_left
  intro i _
  rw [Function.comp_apply, ← Nat.mul_assoc, drop_flatMap hf, take_flatMap hf]

/-- The whole blocks of a stream, put together. -/
theorem flatten_blocks (hn : 0 < n) (xs : List α) :
  (blocks n xs).flatten = xs.take (xs.length / n * n)
  := by
  induction xs using blockInduction hn with
  | short xs h =>
      rw [blocks_of_lt h, List.flatten_nil, Nat.div_eq_of_lt h, Nat.zero_mul, List.take_zero]
  | long xs h ih =>
      have hdiv : xs.length / n = (xs.drop n).length / n + 1 := by
        rw [List.length_drop, ← Nat.div_eq_sub_div hn h]
      rw [blocks_of_le hn h, List.flatten_cons, ih, hdiv, Nat.succ_mul, Nat.add_comm _ n,
        List.take_add]

theorem id_framewise (a : Nat) :
  Framewise a a (fun xs : List α => xs)
  := ⟨fun _ _ _ => rfl, fun _ _ h => h⟩

namespace Framewise

variable {γ : Type*} {a b c : Nat} {f : List α → List β} {g : List β → List γ}

theorem dvd_length (hf : Framewise a b f) (h : a ∣ xs.length) :
  b ∣ (f xs).length
  := by
  obtain ⟨q, hq⟩ := h
  rw [hf.length q xs (by rw [hq, Nat.mul_comm])]
  apply Nat.dvd_mul_left

theorem comp (hf : Framewise a b f) (hg : Framewise b c g) :
  Framewise a c (fun xs => g (f xs))
  := by
  constructor
  · intro xs ys h
    rw [hf.append xs ys h, hg.append _ _ (hf.dvd_length h)]
  · intro q xs h
    apply hg.length q
    apply hf.length q xs h

/-- Several frames can be taken for one. -/
theorem mul (hf : Framewise a b f) (k : Nat) :
  Framewise (k * a) (k * b) f
  := by
  constructor
  · intro xs ys h
    apply hf.append xs ys (Nat.dvd_trans (Nat.dvd_mul_left a k) h)
  · intro q xs h
    rw [hf.length (q * k) xs (by rw [h, Nat.mul_assoc]), Nat.mul_assoc]

theorem map_nil (hf : Framewise a b f) :
  f [] = []
  := by
  apply List.eq_nil_of_length_eq_zero
  rw [hf.length 0 [] (Nat.zero_mul a).symm, Nat.zero_mul]

/-- A map of blocks behind a map of frames is a map of blocks. -/
theorem mapBlocks_map (hf : Framewise a b f) (ha : 0 < a) (hb : 0 < b) (g : List β → List γ)
    (h : a ∣ xs.length) :
  mapBlocks b g (f xs) = mapBlocks a (fun frame => g (f frame)) xs
  := by
  induction xs using blockInduction ha with
  | short xs hlt =>
      have hnil : xs = [] := List.eq_nil_of_length_eq_zero (Nat.eq_zero_of_dvd_of_lt h hlt)
      rw [hnil, hf.map_nil, mapBlocks, mapBlocks, blocks_of_lt hb, blocks_of_lt ha]
      rfl
  | long xs hle ih =>
      have htake : (xs.take a).length = 1 * a := by rw [List.length_take_of_le hle, Nat.one_mul]
      have hfirst : (f (xs.take a)).length = b := by rw [hf.length 1 _ htake, Nat.one_mul]
      have hsplit : f xs = f (xs.take a) ++ f (xs.drop a) := by
        rw [← hf.append _ _ (by rw [htake]; apply Nat.dvd_mul_left), List.take_append_drop]
      have hblocks : blocks b (f xs) = f (xs.take a) :: blocks b (f (xs.drop a)) := by
        rw [hsplit, blocks_of_le hb (by rw [List.length_append]; omega),
          List.take_left' hfirst, List.drop_left' hfirst]
      have hrest : a ∣ (xs.drop a).length := by
        rw [List.length_drop]
        apply Nat.dvd_sub h (Nat.dvd_refl a)
      have hlater := ih hrest
      rw [mapBlocks, mapBlocks] at hlater
      rw [mapBlocks, mapBlocks, hblocks, blocks_of_le ha hle, List.flatMap_cons,
        List.flatMap_cons, hlater]

/-- It does not matter how a stream is cut into whole frames. -/
theorem map_flatten (hf : Framewise a b f) {parts : List (List α)}
    (h : ∀ part ∈ parts, a ∣ part.length) :
  f parts.flatten = (parts.map f).flatten
  := by
  induction parts with
  | nil => apply hf.map_nil
  | cons part parts ih =>
      rw [List.flatten_cons, hf.append _ _ (h part List.mem_cons_self), List.map_cons,
        List.flatten_cons, ih]
      intro part' hpart'
      apply h part' (List.mem_cons_of_mem _ hpart')

end Framewise

end Blocks
