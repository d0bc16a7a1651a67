import Mathlib.Data.List.Induction

/-!
# The latest of some values

Some of the events of a history carry a value.  A field of a state that every such event sets to
its value, and no other event changes, is at the end of the history the latest of the values, or
what it was in the beginning.
-/

namespace Latest

variable {ε σ α β : Type*}

/-- The value of the last event that carries one. -/
def latest (f : ε → Option α) (events : List ε) : Option α :=
  (events.filterMap f).getLast?

variable {f : ε → Option α}

theorem latest_append (before after : List ε) :
  latest f (before ++ after) = (latest f after).or (latest f before)
  := by rw [latest, List.filterMap_append, List.getLast?_append, latest, latest]

theorem latest_concat (before : List ε) (e : ε) :
  latest f (before ++ [e]) = (f e).or (latest f before)
  := by
  rw [latest_append]
  congr 1
  cases h : f e with
  | none => simp [latest, h]
  | some a => simp [latest, h]

theorem latest_concat_of_some {e : ε} {a : α} (before : List ε) (h : f e = some a) :
  latest f (before ++ [e]) = some a
  := by rw [latest_concat, h, Option.some_or]

theorem latest_concat_of_none {e : ε} (before : List ε) (h : f e = none) :
  latest f (before ++ [e]) = latest f before
  := by rw [latest_concat, h, Option.none_or]

theorem latest_map (g : α → β) (events : List ε) :
  latest (fun e => (f e).map g) events = (latest f events).map g
  := by rw [latest, latest, ← List.getLast?_map, List.map_filterMap]

/-- A field that is set by the events with a value is the latest one. -/
theorem field_foldl {step : σ → ε → σ} (field : σ → α)
    (h : ∀ s e, field (step s e) = (f e).getD (field s)) (s : σ) (events : List ε) :
  field (events.foldl step s) = (latest f events).getD (field s)
  := by
  induction events using List.reverseRecOn with
  | nil => rfl
  | append_singleton before e ih =>
      rw [List.foldl_append, List.foldl_cons, List.foldl_nil, h, ih, latest_concat]
      cases f e with
      | none => rw [Option.getD_none, Option.none_or]
      | some a => rw [Option.getD_some, Option.some_or, Option.getD_some]

end Latest
