import Mathlib.Data.List.Nodup

/-!
# Lists with distinct keys

A list whose elements have distinct keys can be changed at an index or at a key.  The two are
the same: the element at an index is the one with its key.
-/

namespace KeyedList

variable {α κ : Type*} {key : α → κ} {l : List α} {i : Nat}

/-- An index is determined by the key of its element. -/
theorem key_eq_iff (hl : (l.map key).Nodup) (hi : i < l.length) {j : Nat} (hj : j < l.length) :
  key l[j] = key l[i] ↔ j = i
  := by
  rw [← l.length_map (f := key)] at hi hj
  have hinj : (l.map key)[j] = (l.map key)[i] ↔ j = i := hl.getElem_inj_iff
  rw [List.getElem_map, List.getElem_map] at hinj
  apply hinj

variable [DecidableEq κ]

/-- The list with the elements of key `k` changed by `f`. -/
def alter (key : α → κ) (k : κ) (f : α → α) (l : List α) : List α :=
  l.map (fun e => if key e = k then f e else e)

/-- A change at an index is one at the key of its element. -/
theorem set_eq_alter (hl : (l.map key).Nodup) (hi : i < l.length) (f : α → α) :
  l.set i (f l[i]) = alter key (key l[i]) f l
  := by
  rw [alter]
  apply List.ext_getElem
  · rw [List.length_set, List.length_map]
  · intro j hj _
    rw [List.length_set] at hj
    rw [List.getElem_set, List.getElem_map]
    by_cases hij : i = j
    · subst hij
      rw [if_pos rfl, if_pos rfl]
    · rw [if_neg hij, if_neg]
      rw [key_eq_iff hl hi hj]
      apply Ne.symm hij

/-- To erase an index is to erase the key of its element. -/
theorem eraseIdx_eq_filter (hl : (l.map key).Nodup) (hi : i < l.length) :
  l.eraseIdx i = l.filter (fun e => key e ≠ key l[i])
  := by
  have hne : ∀ {j} (hj : j < l.length), j ≠ i → key l[j] ≠ key l[i] := by
    intro j hj hji heq
    apply hji
    apply (key_eq_iff hl hi hj).mp heq
  have hsplit : l = l.take i ++ l[i] :: l.drop (i + 1) := by
    rw [← List.drop_eq_getElem_cons hi, List.take_append_drop]
  generalize hk : key l[i] = k at hne
  conv_rhs => rw [hsplit]
  rw [List.filter_append, List.filter_cons_of_neg (by simp [hk]), List.eraseIdx_eq_take_drop_succ]
  congr 1
  · rw [List.filter_eq_self.mpr]
    intro e he
    obtain ⟨j, hj, rfl⟩ := List.getElem_of_mem he
    rw [List.length_take] at hj
    rw [List.getElem_take, decide_eq_true_iff]
    apply hne
    omega
  · rw [List.filter_eq_self.mpr]
    intro e he
    obtain ⟨j, hj, rfl⟩ := List.getElem_of_mem he
    rw [List.getElem_drop, decide_eq_true_iff]
    apply hne
    omega

/-! ### Changes at a key -/

variable {k : κ} {f g : α → α}

theorem mem_alter {e : α} :
  e ∈ alter key k f l ↔ ∃ d ∈ l, (if key d = k then f d else d) = e
  := by
  rw [alter, List.mem_map]

/-- A change that keeps the keys keeps them in the list. -/
theorem map_key_alter (hf : ∀ e, key (f e) = key e) :
  (alter key k f l).map key = l.map key
  := by
  rw [alter, List.map_map]
  apply List.map_congr_left
  intro e _
  rw [Function.comp_apply]
  split
  · apply hf
  · rfl

/-- Two changes at one key are one. -/
theorem alter_alter (hg : ∀ e, key (g e) = key e) :
  alter key k f (alter key k g l) = alter key k (f ∘ g) l
  := by
  rw [alter, alter, List.map_map, alter]
  apply List.map_congr_left
  intro e _
  rw [Function.comp_apply]
  by_cases he : key e = k
  · rw [if_pos he, if_pos (by rw [hg, he]), if_pos he, Function.comp_apply]
  · rw [if_neg he, if_neg he, if_neg he]

/-- Changes that agree at the key are the same. -/
theorem alter_congr (h : ∀ e ∈ l, key e = k → f e = g e) :
  alter key k f l = alter key k g l
  := by
  apply List.map_congr_left
  intro e he
  split
  next hk => apply h e he hk
  next => rfl

/-! ### Finding by key -/

/-- With different keys an item is found by its key. -/
theorem find?_key (hl : (l.map key).Nodup) {e : α} (he : e ∈ l) :
  l.find? (fun d => key d = key e) = some e
  := by
  induction l with
  | nil => contradiction
  | cons d l ih =>
      rw [List.map_cons, List.nodup_cons] at hl
      rw [List.find?_cons]
      rcases List.mem_cons.mp he with rfl | hrest
      · rw [decide_eq_true rfl]
      · have hne : key d ≠ key e := by
          intro heq
          apply hl.1
          rw [heq]
          apply List.mem_map_of_mem hrest
        rw [decide_eq_false hne]
        apply ih hl.2 hrest

/-- The first item with a key is changed. -/
theorem find?_modify_findIdx {f : α → α} (hf : ∀ e, key (f e) = key e) (k k' : κ) (l : List α) :
  (l.modify (l.findIdx fun e => key e = k) f).find? (fun e => key e = k')
    = if k = k' then (l.find? fun e => key e = k').map f else l.find? fun e => key e = k'
  := by
  induction l with
  | nil => simp
  | cons d l ih =>
      rw [List.findIdx_cons]
      by_cases hd : key d = k
      · rw [decide_eq_true hd, cond_true, List.modify_zero_cons, List.find?_cons, hf, hd,
          List.find?_cons, hd]
        by_cases heq : k = k'
        · rw [decide_eq_true heq, if_pos heq, Option.map_some]
        · rw [decide_eq_false heq, if_neg heq]
      · rw [decide_eq_false hd, cond_false, List.modify_succ_cons, List.find?_cons, List.find?_cons]
        by_cases hk : key d = k'
        · have hne : k ≠ k' := by
            rintro rfl
            apply hd hk
          rw [decide_eq_true hk, if_neg hne]
        · rw [decide_eq_false hk]
          apply ih

/-! ### Adding what is new -/

/-- An item is added unless there is one with its key. -/
def addNew (key : α → κ) (l : List α) (e : α) : List α :=
  if l.any (key · = key e) then l else l ++ [e]

/-- The items added have new keys. -/
theorem nodup_foldl_addNew (hl : (l.map key).Nodup) (es : List α) :
  ((es.foldl (addNew key) l).map key).Nodup
  := by
  induction es generalizing l with
  | nil => apply hl
  | cons e es ih =>
      apply ih
      rw [addNew]
      split
      next => apply hl
      next hnew =>
        rw [List.map_append, List.nodup_append]
        refine ⟨hl, List.nodup_singleton _, ?_⟩
        simpa using hnew

/-- The item with a key is the first one there was. -/
theorem find?_foldl_addNew (es : List α) (k : κ) :
  (es.foldl (addNew key) l).find? (fun e => key e = k) = (l ++ es).find? (fun e => key e = k)
  := by
  induction es generalizing l with
  | nil => rw [List.foldl_nil, List.append_nil]
  | cons e es ih =>
      rw [List.foldl_cons, ih, addNew]
      split
      next hold =>
        -- the item that is not added would not be found either
        rw [List.find?_append, List.find?_append, List.find?_cons]
        by_cases hk : key e = k
        · obtain ⟨d, hd⟩ : ∃ d, l.find? (fun e => key e = k) = some d := by
            rw [← Option.isSome_iff_exists, List.find?_isSome]
            simpa [hk] using hold
          rw [hd, Option.some_or, Option.some_or]
        · rw [decide_eq_false hk]
      next => rw [List.append_assoc, List.singleton_append]

/-- The items are in the order in which they were added. -/
theorem foldl_addNew_sublist (es : List α) :
  List.Sublist (es.foldl (addNew key) l) (l ++ es)
  := by
  induction es generalizing l with
  | nil => rw [List.foldl_nil, List.append_nil]
  | cons e es ih =>
      rw [List.foldl_cons]
      apply ih.trans
      rw [addNew]
      split
      next => apply (List.sublist_cons_self e es).append_left l
      next => rw [List.append_assoc, List.singleton_append]

end KeyedList
