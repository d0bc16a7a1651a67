import Mathlib.Algebra.Ring.Nat
import Mathlib.Data.List.Nodup

/-!
# Bounded maps in the order of insertion

A map with at most `n` entries, kept in the order in which their keys were inserted.  A
put of a key that is there changes its value in place; a put of a new key into a full map
drops the first entry.  `ofHistory` is the map a history of puts and deletes leads to, and
`LatestPut` and `InsertedAt` read the value of a key and the time of its insertion off the
history alone.  A history is given with its last edit first.
-/

/-- A list of entries with distinct keys, at most `n` of them. -/
structure BoundedMap (κ ν : Type*) (n : Nat) where
  entries : List (κ × ν)
  nodup : (entries.map Prod.fst).Nodup
  length_le : entries.length ≤ n

namespace BoundedMap

variable {κ ν : Type*} {n : Nat}

/-- The keys of a map, the oldest one first. -/
def keys (m : BoundedMap κ ν n) : List κ :=
  m.entries.map Prod.fst

/-- The map without entries. -/
def empty : BoundedMap κ ν n where
  entries := []
  nodup := List.nodup_nil
  length_le := Nat.zero_le n

theorem mem_keys {m : BoundedMap κ ν n} {k : κ} :
  k ∈ m.keys ↔ ∃ v, (k, v) ∈ m.entries
  := by
  simp [keys]

/-- The entries of a map before a new key is added: a full map drops the first one. -/
def room (m : BoundedMap κ ν n) : List (κ × ν) :=
  if m.entries.length = n then m.entries.tail else m.entries

theorem room_sublist (m : BoundedMap κ ν n) :
  m.room.Sublist m.entries
  := by
  rw [room]
  split
  · apply List.tail_sublist
  · apply List.Sublist.refl

theorem length_room_lt [NeZero n] (m : BoundedMap κ ν n) :
  m.room.length < n
  := by
  have hn : 0 < n := Nat.pos_of_ne_zero (NeZero.ne n)
  have hle := m.length_le
  rw [room]
  split
  · rw [List.length_tail]
    omega
  · omega

/-- A put of the new key `k` into the map `m` drops the key `k'`. -/
def Evicts (m : BoundedMap κ ν n) (k k' : κ) : Prop :=
  k ∉ m.keys ∧ m.entries.length = n ∧ m.keys.head? = some k'

/-- The keys that are left when room is made for a new key. -/
theorem mem_room {m : BoundedMap κ ν n} {k : κ} (hk : k ∉ m.keys) (e : κ × ν) :
  e ∈ m.room ↔ e ∈ m.entries ∧ ¬ m.Evicts k e.1
  := by
  rw [room]
  split
  · rename_i hfull
    cases hentries : m.entries with
    | nil => simp
    | cons first rest =>
        have hnodup := m.nodup
        rw [hentries, List.map_cons, List.nodup_cons] at hnodup
        have hevicts : m.Evicts k e.1 ↔ first.1 = e.1 := by
          rw [Evicts, keys, hentries, List.map_cons, List.head?_cons, Option.some.injEq]
          constructor
          · intro h
            apply h.2.2
          · intro h
            refine ⟨?_, ?_, h⟩
            · rw [keys, hentries] at hk
              apply hk
            · rw [← hentries]
              apply hfull
        rw [hevicts, List.tail_cons, List.mem_cons]
        constructor
        · intro he
          constructor
          · right
            apply he
          · intro heq
            apply hnodup.1
            rw [heq]
            apply List.mem_map_of_mem he
        · rintro ⟨rfl | he, hne⟩
          · exact absurd rfl hne
          · apply he
  · rename_i hfull
    have hno : ¬ m.Evicts k e.1 := fun h => hfull h.2.1
    simp [hno]

variable [DecidableEq κ]

/-- The value of a key. -/
def lookup (m : BoundedMap κ ν n) (k : κ) : Option ν :=
  (m.entries.find? (fun e => e.1 = k)).map Prod.snd

/-- The entries with the value of `k` changed to `v`. -/
def assign (entries : List (κ × ν)) (k : κ) (v : ν) : List (κ × ν) :=
  entries.map (fun e => if e.1 = k then (k, v) else e)

theorem keys_assign (entries : List (κ × ν)) (k : κ) (v : ν) :
  (assign entries k v).map Prod.fst = entries.map Prod.fst
  := by
  rw [assign, List.map_map]
  apply List.map_congr_left
  intro e _
  simp only [Function.comp]
  split
  · rename_i h
    apply h.symm
  · rfl

/-- Give `k` the value `v`, in its place when `k` is a key and else at the end. -/
def put [NeZero n] (m : BoundedMap κ ν n) (k : κ) (v : ν) : BoundedMap κ ν n :=
  if h : k ∈ m.keys then
    { entries := assign m.entries k v
      nodup := by
        rw [keys_assign]
        apply m.nodup
      length_le := by
        rw [assign, List.length_map]
        apply m.length_le }
  else
    { entries := m.room ++ [(k, v)]
      nodup := by
        rw [List.map_append, List.map_singleton, List.nodup_append]
        refine ⟨(m.room_sublist.map Prod.fst).nodup m.nodup, List.nodup_singleton k, ?_⟩
        intro a ha b hb
        obtain rfl := List.mem_singleton.mp hb
        rintro rfl
        apply h ((m.room_sublist.map Prod.fst).subset ha)
      length_le := by
        rw [List.length_append, List.length_singleton]
        apply m.length_room_lt }

/-- Remove the key `k`. -/
def delete (m : BoundedMap κ ν n) (k : κ) : BoundedMap κ ν n where
  entries := m.entries.filter (fun e => e.1 ≠ k)
  nodup := (List.filter_sublist.map Prod.fst).nodup m.nodup
  length_le := Nat.le_trans (List.length_filter_le _ _) m.length_le

theorem entries_put_old [NeZero n] {m : BoundedMap κ ν n} {k : κ} (h : k ∈ m.keys) (v : ν) :
  (m.put k v).entries = assign m.entries k v
  := by
  rw [put, dif_pos h]

theorem entries_put_new [NeZero n] {m : BoundedMap κ ν n} {k : κ} (h : k ∉ m.keys) (v : ν) :
  (m.put k v).entries = m.room ++ [(k, v)]
  := by
  rw [put, dif_neg h]

/-! ### Slots -/

/-- The value is changed in the slot the key is found in. -/
theorem assign_eq_set {k : κ} (v : ν) :
    ∀ {entries : List (κ × ν)} {i : Nat}, (entries.map Prod.fst).Nodup →
      entries.findIdx? (fun e => e.1 = k) = some i → assign entries k v = entries.set i (k, v)
  | [], _, _, h => by
      simp at h
  | e :: entries, i, hnodup, h => by
      rw [List.map_cons, List.nodup_cons] at hnodup
      rw [List.findIdx?_cons] at h
      by_cases hk : e.1 = k
      · obtain rfl : 0 = i := by simpa [hk] using h
        have hrest : assign entries k v = entries := by
          nth_rewrite 2 [← List.map_id entries]
          apply List.map_congr_left
          intro e' he'
          rw [if_neg, id]
          intro heq
          apply hnodup.1
          rw [hk, ← heq]
          apply List.mem_map_of_mem he'
        rw [assign, List.map_cons, if_pos hk, ← assign, hrest]
        rfl
      · obtain ⟨j, hj, rfl⟩ : ∃ j, entries.findIdx? (fun e => e.1 = k) = some j ∧ j + 1 = i := by
          simpa [hk] using h
        rw [assign, List.map_cons, if_neg hk, ← assign, assign_eq_set v hnodup.2 hj]
        rfl

/-- The entry is removed from the slot its key is found in. -/
theorem filter_eq_eraseIdx {k : κ} :
    ∀ {entries : List (κ × ν)} {i : Nat}, (entries.map Prod.fst).Nodup →
      entries.findIdx? (fun e => e.1 = k) = some i →
      entries.filter (fun e => e.1 ≠ k) = entries.eraseIdx i
  | [], _, _, h => by
      simp at h
  | e :: entries, i, hnodup, h => by
      rw [List.map_cons, List.nodup_cons] at hnodup
      rw [List.findIdx?_cons] at h
      by_cases hk : e.1 = k
      · obtain rfl : 0 = i := by simpa [hk] using h
        rw [List.filter_cons_of_neg (by simpa using hk), List.eraseIdx_cons_zero,
          List.filter_eq_self]
        intro e' he'
        have hne : e'.1 ≠ k := by
          rintro rfl
          apply hnodup.1
          rw [hk]
          apply List.mem_map_of_mem he'
        simpa using hne
      · obtain ⟨j, hj, rfl⟩ : ∃ j, entries.findIdx? (fun e => e.1 = k) = some j ∧ j + 1 = i := by
          simpa [hk] using h
        rw [List.filter_cons_of_pos (by simpa using hk), filter_eq_eraseIdx hnodup.2 hj,
          List.eraseIdx_cons_succ]

/-- A key is found unless it is not there. -/
theorem findIdx?_eq_none_iff {m : BoundedMap κ ν n} {k : κ} :
  m.entries.findIdx? (fun e => e.1 = k) = none ↔ k ∉ m.keys
  := by
  rw [List.findIdx?_eq_none_iff, mem_keys]
  constructor
  · rintro h ⟨v, hv⟩
    have hne := h _ hv
    simp at hne
  · intro h e he
    rw [decide_eq_false_iff_not]
    rintro rfl
    apply h
    use e.2

/-! ### Values -/

/-- The value of a key is the one its entry has. -/
theorem lookup_eq_some_iff {m : BoundedMap κ ν n} {k : κ} {v : ν} :
  m.lookup k = some v ↔ (k, v) ∈ m.entries
  := by
  rw [lookup, Option.map_eq_some_iff]
  constructor
  · rintro ⟨⟨k', v'⟩, hfind, rfl⟩
    have hk := List.find?_some hfind
    obtain rfl : k' = k := by simpa using hk
    apply List.mem_of_find?_eq_some hfind
  · intro hmem
    cases hfind : m.entries.find? (fun e => e.1 = k) with
    | none =>
        have hno := List.find?_eq_none.mp hfind (k, v) hmem
        simp at hno
    | some e =>
        have hk : e.1 = k := by simpa using List.find?_some hfind
        have he := List.mem_of_find?_eq_some hfind
        have heq := List.inj_on_of_nodup_map m.nodup he hmem hk
        use e
        simp [heq]

/-- The value of a key is in the slot the key is found in. -/
theorem lookup_eq_of_findIdx? {m : BoundedMap κ ν n} {k : κ} {i : Nat}
    (h : m.entries.findIdx? (fun e => e.1 = k) = some i) :
  ∃ v, m.entries[i]? = some (k, v) ∧ m.lookup k = some v
  := by
  obtain ⟨hi, hk, -⟩ := List.findIdx?_eq_some_iff_getElem.mp h
  obtain rfl : m.entries[i].1 = k := by simpa using hk
  use m.entries[i].2
  constructor
  · apply List.getElem?_eq_getElem hi
  · apply lookup_eq_some_iff.mpr
    apply List.getElem_mem hi

theorem lookup_eq_none_of_findIdx? {m : BoundedMap κ ν n} {k : κ}
    (h : m.entries.findIdx? (fun e => e.1 = k) = none) :
  m.lookup k = none
  := by
  rw [Option.eq_none_iff_forall_not_mem]
  intro v hv
  apply findIdx?_eq_none_iff.mp h
  apply mem_keys.mpr
  use v
  apply lookup_eq_some_iff.mp hv

/-! ### Histories -/

/-- A change of a map. -/
inductive Edit (κ ν : Type*) where
  | put (k : κ) (v : ν)
  | delete (k : κ)
  deriving DecidableEq, Repr

/-- The map after an edit. -/
def apply [NeZero n] (m : BoundedMap κ ν n) : Edit κ ν → BoundedMap κ ν n
  | .put k v => m.put k v
  | .delete k => m.delete k

/-- The map after a history. -/
def ofHistory [NeZero n] : List (Edit κ ν) → BoundedMap κ ν n
  | [] => empty
  | e :: history => (ofHistory history).apply e

/-- The edit puts, deletes or evicts the key `k'`. -/
def Disturbs (m : BoundedMap κ ν n) (e : Edit κ ν) (k' : κ) : Prop :=
  match e with
  | .put k _ => k' = k ∨ m.Evicts k k'
  | .delete k => k' = k

/-- The entries after an edit are the one it puts and the ones it does not disturb. -/
theorem mem_apply [NeZero n] {m : BoundedMap κ ν n} {e : Edit κ ν} {k : κ} {v : ν} :
  (k, v) ∈ (m.apply e).entries ↔ e = .put k v ∨ ((k, v) ∈ m.entries ∧ ¬ m.Disturbs e k)
  := by
  cases e with
  | put k' v' =>
      rw [apply, Disturbs, Edit.put.injEq]
      by_cases hk' : k' ∈ m.keys
      · have hno : ¬ m.Evicts k' k := fun h => h.1 hk'
        obtain ⟨v₀, hv₀⟩ := mem_keys.mp hk'
        rw [entries_put_old hk', assign, List.mem_map]
        constructor
        · rintro ⟨e, he, heq⟩
          split at heq
          · left
            simpa using heq
          · rename_i hne
            obtain rfl := heq
            right
            simp [he, hno, hne]
        · rintro (⟨rfl, rfl⟩ | ⟨hmem, hne⟩)
          · use (k', v₀), hv₀
            rw [if_pos rfl]
          · use (k, v), hmem
            rw [if_neg]
            simp only [not_or] at hne
            apply hne.1
      · rw [entries_put_new hk', List.mem_append, List.mem_singleton, mem_room hk',
          Prod.mk.injEq]
        have hne : (k, v) ∈ m.entries → k ≠ k' := by
          rintro hmem rfl
          apply hk' (mem_keys.mpr ⟨v, hmem⟩)
        tauto
  | delete k' =>
      rw [apply, Disturbs, delete]
      simp

/-- The history puts `v` for the key `k`, and since then has neither put nor deleted `k`
nor made a full map drop it. -/
inductive LatestPut (n : Nat) [NeZero n] : List (Edit κ ν) → κ → ν → Prop
  | put {history : List (Edit κ ν)} {k : κ} {v : ν} :
      LatestPut n (.put k v :: history) k v
  | kept {history : List (Edit κ ν)} {e : Edit κ ν} {k : κ} {v : ν}
      (h : LatestPut n history k v)
      (hkept : ¬ (ofHistory history : BoundedMap κ ν n).Disturbs e k) :
      LatestPut n (e :: history) k v

/-- The entries after a history are the latest puts. -/
theorem mem_ofHistory_iff [NeZero n] {k : κ} {v : ν} :
    ∀ {history : List (Edit κ ν)},
      (k, v) ∈ (ofHistory history : BoundedMap κ ν n).entries ↔ LatestPut n history k v
  | [] => by
      constructor
      · intro h
        cases h
      · intro h
        cases h
  | e :: history => by
      rw [ofHistory, mem_apply, mem_ofHistory_iff]
      constructor
      · rintro (rfl | ⟨h, hkept⟩)
        · apply LatestPut.put
        · apply LatestPut.kept h hkept
      · intro h
        cases h with
        | put => exact Or.inl rfl
        | kept h hkept => exact Or.inr ⟨h, hkept⟩

/-- The value of a key is the one of its latest put. -/
theorem lookup_ofHistory_iff [NeZero n] {history : List (Edit κ ν)} {k : κ} {v : ν} :
  (ofHistory history : BoundedMap κ ν n).lookup k = some v ↔ LatestPut n history k v
  := by
  rw [lookup_eq_some_iff, mem_ofHistory_iff]

/-- The edit number `i` of the history inserts the key `k`, which has been there since
then. -/
inductive InsertedAt (n : Nat) [NeZero n] : List (Edit κ ν) → Nat → κ → Prop
  | put {history : List (Edit κ ν)} {k : κ} {v : ν}
      (hnew : k ∉ (ofHistory history : BoundedMap κ ν n).keys) :
      InsertedAt n (.put k v :: history) history.length k
  | kept {history : List (Edit κ ν)} {e : Edit κ ν} {i : Nat} {k : κ}
      (h : InsertedAt n history i k)
      (hkept : k ∈ (ofHistory (e :: history) : BoundedMap κ ν n).keys) :
      InsertedAt n (e :: history) i k

theorem InsertedAt.lt_length [NeZero n] {history : List (Edit κ ν)} {i : Nat} {k : κ}
    (h : InsertedAt n history i k) :
  i < history.length
  := by
  induction h with
  | put _ => simp
  | kept _ _ ih =>
      rw [List.length_cons]
      omega

/-- A key that is inserted was put into the map it is a key of. -/
theorem InsertedAt.mem_keys [NeZero n] {history : List (Edit κ ν)} {i : Nat} {k : κ}
    (h : InsertedAt n history i k) :
  k ∈ (ofHistory history : BoundedMap κ ν n).keys
  := by
  cases h with
  | @put history k v hnew =>
      apply BoundedMap.mem_keys.mpr
      use v
      apply mem_apply.mpr
      left
      rfl
  | kept h hkept => apply hkept

/-- Every key was inserted at some time. -/
theorem exists_insertedAt [NeZero n] :
    ∀ {history : List (Edit κ ν)} {k : κ},
      k ∈ (ofHistory history : BoundedMap κ ν n).keys → ∃ i, InsertedAt n history i k
  | [], k, h => by
      cases h
  | e :: history, k, h => by
      by_cases hold : k ∈ (ofHistory history : BoundedMap κ ν n).keys
      · obtain ⟨i, hi⟩ := exists_insertedAt hold
        use i
        apply InsertedAt.kept hi h
      · obtain ⟨v, hv⟩ := mem_keys.mp h
        obtain rfl | ⟨hmem, -⟩ := mem_apply.mp hv
        · use history.length
          apply InsertedAt.put hold
        · exact absurd (mem_keys.mpr ⟨v, hmem⟩) hold

/-- The entries an edit keeps keep their order, and one it inserts comes last. -/
theorem keys_apply [NeZero n] (m : BoundedMap κ ν n) (e : Edit κ ν) :
  (m.apply e).keys.Sublist m.keys
    ∨ ∃ k v l, e = .put k v ∧ k ∉ m.keys ∧ l.Sublist m.keys ∧ (m.apply e).keys = l ++ [k]
  := by
  cases e with
  | put k v =>
      by_cases hk : k ∈ m.keys
      · left
        rw [keys, apply, entries_put_old hk, keys_assign]
        apply List.Sublist.refl
      · right
        use k, v, m.room.map Prod.fst
        refine ⟨rfl, hk, m.room_sublist.map Prod.fst, ?_⟩
        rw [keys, apply, entries_put_new hk, List.map_append, List.map_singleton]
  | delete k =>
      left
      apply List.filter_sublist.map

/-- The keys are in the order of their insertion. -/
theorem keys_sorted [NeZero n] :
    ∀ (history : List (Edit κ ν)),
      (ofHistory history : BoundedMap κ ν n).keys.Pairwise
        (fun a b => ∀ i j, InsertedAt n history i a → InsertedAt n history j b → i < j)
  | [] => List.Pairwise.nil
  | e :: history => by
      have hkept : ∀ l : List κ, l.Sublist (ofHistory history : BoundedMap κ ν n).keys →
          l.Pairwise (fun a b =>
            ∀ i j, InsertedAt n (e :: history) i a → InsertedAt n (e :: history) j b → i < j) := by
        intro l hl
        have hold : ∀ a ∈ l, ∀ i, InsertedAt n (e :: history) i a → InsertedAt n history i a := by
          intro a ha i hi
          cases hi with
          | put hnew => exact absurd (hl.subset ha) hnew
          | kept h _ => exact h
        apply ((keys_sorted history).sublist hl).imp_of_mem
        intro a b ha hb h i j hi hj
        apply h i j (hold a ha i hi) (hold b hb j hj)
      obtain hsub | ⟨k, v, l, rfl, hnew, hl, hkeys⟩ :=
        keys_apply (ofHistory history : BoundedMap κ ν n) e
      · apply hkept _ hsub
      · rw [ofHistory, hkeys, List.pairwise_append]
        refine ⟨hkept l hl, List.pairwise_singleton _ _, ?_⟩
        intro a ha b hb i j hi hj
        obtain rfl := List.mem_singleton.mp hb
        cases hj with
        | put _ =>
            cases hi with
            | put hnew' => exact absurd (hl.subset ha) hnew'
            | kept h _ => exact h.lt_length
        | kept h _ => exact absurd h.mem_keys hnew

/-- A put of a new key into a full map drops the key that was inserted first and keeps the
other entries in their order. -/
theorem put_full [NeZero n] {history : List (Edit κ ν)} {k : κ}
    (hnew : k ∉ (ofHistory history : BoundedMap κ ν n).keys)
    (hfull : (ofHistory history : BoundedMap κ ν n).entries.length = n) (v : ν) :
  ∃ oldest rest i, (ofHistory history : BoundedMap κ ν n).entries = oldest :: rest
    ∧ ((ofHistory history : BoundedMap κ ν n).put k v).entries = rest ++ [(k, v)]
    ∧ InsertedAt n history i oldest.1
    ∧ ∀ e ∈ rest, ∃ j, i < j ∧ InsertedAt n history j e.1
  := by
  have hsorted := keys_sorted (n := n) history
  have hinserted : ∀ e ∈ (ofHistory history : BoundedMap κ ν n).entries,
      ∃ i, InsertedAt n history i e.1 := by
    intro e he
    apply exists_insertedAt
    apply List.mem_map_of_mem he
  have hput := entries_put_new hnew v
  rw [room, if_pos hfull] at hput
  cases hentries : (ofHistory history : BoundedMap κ ν n).entries with
  | nil =>
      rw [hentries] at hfull
      exact absurd hfull.symm (NeZero.ne n)
  | cons oldest rest =>
      rw [hentries] at hput hinserted
      rw [keys, hentries, List.map_cons, List.pairwise_cons] at hsorted
      obtain ⟨i, hi⟩ := hinserted oldest List.mem_cons_self
      use oldest, rest, i
      refine ⟨rfl, hput, hi, ?_⟩
      intro e he
      obtain ⟨j, hj⟩ := hinserted e (List.mem_cons_of_mem oldest he)
      use j
      constructor
      · apply hsorted.1 e.1 (List.mem_map_of_mem he) i j hi hj
      · apply hj

end BoundedMap
