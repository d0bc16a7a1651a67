import Mathlib.Data.List.Basic

/-!
# Labelled machines and their runs

A machine is given by its partial step function `next : σ → α → Option σ`: `next s a` is
the state after the step `a`, when that step can be taken from `s`.  A run is a list of
steps; `Run next C s as t` says that the steps `as` lead from `s` to `t` and that each
of them was taken from a state in which `C` allows it.  With `C` always true these are
all the runs of the machine.

The invariant rules come in three forms: for the runs whose steps satisfy a condition,
for all runs, and for a property that holds along a run exactly when its steps satisfy
the condition.
-/

namespace Machine

variable {σ α : Type*} {next : σ → α → Option σ} {C D : σ → α → Prop}

/-- The steps `as` lead from the first state to the second, each taken from a state in
which `C` allows it. -/
inductive Run (next : σ → α → Option σ) (C : σ → α → Prop) : σ → List α → σ → Prop
  | nil (s : σ) : Run next C s [] s
  | cons {s t u : σ} {a : α} {as : List α} (hC : C s a) (hstep : next s a = some t)
      (hrest : Run next C t as u) : Run next C s (a :: as) u

/-- The condition every step satisfies. -/
def always : σ → α → Prop := fun _ _ => True

/-- The state after the steps `as`, when all of them can be taken. -/
def exec (next : σ → α → Option σ) : σ → List α → Option σ
  | s, [] => some s
  | s, a :: as => (next s a).bind (fun t => exec next t as)

/-- The states a machine started in `s` can reach. -/
def Reachable (next : σ → α → Option σ) (s t : σ) : Prop :=
  ∃ as, Run next always s as t

/-! ### Runs and execution -/

theorem run_of_exec :
    ∀ {s u : σ} {as : List α}, exec next s as = some u → Run next always s as u
  | s, u, [], h => by
      obtain rfl := Option.some.inj h
      apply Run.nil
  | s, u, a :: as, h => by
      obtain ⟨t, ht, hu⟩ := Option.bind_eq_some_iff.mp h
      apply Run.cons trivial ht (run_of_exec hu)

/-- A run is an execution. -/
theorem Run.exec_eq {s u : σ} {as : List α} (h : Run next C s as u) :
  exec next s as = some u
  := by
  induction h with
  | nil s => rfl
  | cons hC hstep hrest ih =>
      rw [exec, hstep]
      apply ih

/-- Executions compose. -/
theorem exec_append (s : σ) (as bs : List α) :
  exec next s (as ++ bs) = (exec next s as).bind fun t => exec next t bs
  := by
  induction as generalizing s with
  | nil => rfl
  | cons a as ih =>
      rw [List.cons_append, exec, exec, Option.bind_assoc]
      congr
      ext t : 1
      apply ih

theorem exec_singleton (s : σ) (a : α) :
  exec next s [a] = next s a
  := by
  rw [exec]
  cases next s a with
  | none => rfl
  | some t => rfl

/-- A run is determined by its first state and its steps. -/
theorem Run.unique {s t u : σ} {as : List α} (ht : Run next C s as t) (hu : Run next D s as u) :
  t = u
  := by
  apply Option.some.inj
  rw [← ht.exec_eq, hu.exec_eq]

/-- A run whose steps satisfy `C` satisfies every weaker condition. -/
theorem Run.mono {s u : σ} {as : List α} (h : Run next C s as u)
    (hCD : ∀ s a, C s a → D s a) :
  Run next D s as u
  := by
  induction h with
  | nil s => apply Run.nil
  | cons hC hstep hrest ih => apply Run.cons (hCD _ _ hC) hstep ih

theorem Run.toAlways {s u : σ} {as : List α} (h : Run next C s as u) :
  Run next always s as u
  := h.mono (fun _ _ _ => trivial)

/-- Runs compose. -/
theorem Run.append {s t u : σ} {as bs : List α} (h₁ : Run next C s as t)
    (h₂ : Run next C t bs u) :
  Run next C s (as ++ bs) u
  := by
  induction h₁ with
  | nil s => apply h₂
  | cons hC hstep hrest ih => apply Run.cons hC hstep (ih h₂)

/-- One more step at the end of a run. -/
theorem Run.snoc {s t u : σ} {as : List α} {a : α} (h : Run next C s as t) (hC : C t a)
    (hstep : next t a = some u) :
  Run next C s (as ++ [a]) u
  := h.append (Run.cons hC hstep (Run.nil u))

/-- A run splits at every point of its list of steps. -/
theorem Run.split :
    ∀ {s u : σ} {as bs : List α}, Run next C s (as ++ bs) u →
      ∃ t, Run next C s as t ∧ Run next C t bs u
  | s, _, [], _, h => ⟨s, Run.nil s, h⟩
  | _, _, a :: as, bs, .cons hC hstep hrest => by
      obtain ⟨t, h₁, h₂⟩ := hrest.split
      use t
      constructor
      · apply Run.cons hC hstep h₁
      · apply h₂

/-- The machine that takes only the steps a decidable condition allows. -/
def guarded (next : σ → α → Option σ) (C : σ → α → Prop) [∀ s a, Decidable (C s a)] :
    σ → α → Option σ :=
  fun s a => if C s a then next s a else none

/-- An execution of the guarded machine is a run whose steps the condition allows. -/
theorem run_of_exec_guarded [∀ s a, Decidable (C s a)] :
    ∀ {s u : σ} {as : List α}, exec (guarded next C) s as = some u → Run next C s as u
  | s, u, [], h => by
      obtain rfl := Option.some.inj h
      apply Run.nil
  | s, u, a :: as, h => by
      obtain ⟨t, ht, hu⟩ := Option.bind_eq_some_iff.mp h
      obtain ⟨hC, hstep⟩ := Option.ite_none_right_eq_some.mp ht
      apply Run.cons hC hstep (run_of_exec_guarded hu)

/-- There is a run whose steps the condition allows when the guarded machine is not stuck. -/
theorem exists_run_of_exec_guarded [∀ s a, Decidable (C s a)] {s : σ} {as : List α}
    (h : (exec (guarded next C) s as).isSome = true) :
  ∃ u, Run next C s as u
  := by
  obtain ⟨u, hu⟩ := Option.isSome_iff_exists.mp h
  use u
  apply run_of_exec_guarded hu

/-! ### Invariants -/

/-- What holds at the start and is preserved by every step `C` allows holds at the end
of every run whose steps `C` allows. -/
theorem Run.invariant {I : σ → Prop} {s u : σ} {as : List α} (h : Run next C s as u)
    (hs : I s) (hpres : ∀ s a t, I s → C s a → next s a = some t → I t) :
  I u
  := by
  induction h with
  | nil s => apply hs
  | cons hC hstep hrest ih => apply ih (hpres _ _ _ hs hC hstep)

/-- What holds at the start and is preserved by every step holds in every reachable
state. -/
theorem Reachable.invariant {I : σ → Prop} {s u : σ} (h : Reachable next s u)
    (hs : I s) (hpres : ∀ s a t, I s → next s a = some t → I t) :
  I u
  := by
  obtain ⟨as, hrun⟩ := h
  apply hrun.invariant hs
  intro s a t hI _ hstep
  apply hpres s a t hI hstep

/-- The state `t` is passed by the steps `as` taken from `s`. -/
def Passes (next : σ → α → Option σ) (s : σ) (as : List α) (t : σ) : Prop :=
  ∃ bs, bs <+: as ∧ Run next always s bs t

/-- A state passed by a run whose steps satisfy `C` is reached by steps that satisfy
`C`. -/
theorem Run.of_passes {s t u : σ} {as : List α} (h : Run next C s as u)
    (hpasses : Passes next s as t) :
  ∃ bs, Run next C s bs t
  := by
  obtain ⟨bs, ⟨cs, rfl⟩, ht⟩ := hpasses
  obtain ⟨t', ht', -⟩ := h.split
  obtain rfl := ht.unique ht'
  use bs

/-- A property `P` of states holds in every state a run passes exactly when its steps
satisfy `C`, provided an invariant `I` carries `P`, is preserved by the steps that
satisfy `C`, and is enough for a step that does not satisfy `C` to lead to a state
without `P`. -/
theorem passes_iff {I P : σ → Prop} {s u : σ} {as : List α} (h : Run next always s as u)
    (hs : I s) (hP : ∀ s, I s → P s)
    (hpres : ∀ s a t, I s → C s a → next s a = some t → I t)
    (hbreak : ∀ s a t, I s → ¬ C s a → next s a = some t → ¬ P t) :
  (∀ t, Passes next s as t → P t) ↔ Run next C s as u
  := by
  constructor
  · intro hall
    induction h with
    | nil s => apply Run.nil
    | @cons s t u a as _ hstep hrest ih =>
        have hC : C s a := by
          by_contra hC
          apply hbreak s a t hs hC hstep
          apply hall t
          use [a]
          constructor
          · use as
            rfl
          · apply Run.cons trivial hstep (Run.nil t)
        apply Run.cons hC hstep
        apply ih (hpres s a t hs hC hstep)
        rintro v ⟨bs, ⟨cs, rfl⟩, hv⟩
        apply hall v
        use a :: bs
        constructor
        · use cs
          rfl
        · apply Run.cons trivial hstep hv
  · intro hrun t hpasses
    obtain ⟨bs, ht⟩ := hrun.of_passes hpasses
    apply hP t (ht.invariant hs hpres)

/-- A run ends in a state with the property `P` exactly when its steps satisfy `C`,
provided an invariant `I` is preserved by the steps that satisfy `C`, and every other step
leads to a loss `L` that no later step makes good. -/
theorem ends_iff {I L P : σ → Prop} {s u : σ} {as : List α} (h : Run next always s as u)
    (hs : I s) (hpres : ∀ s a t, I s → C s a → next s a = some t → I t)
    (hbreak : ∀ s a t, I s → ¬ C s a → next s a = some t → L t)
    (hlost : ∀ s a t, L s → next s a = some t → L t)
    (hP : I u → P u) (hL : L u → ¬ P u) :
  P u ↔ Run next C s as u
  := by
  constructor
  · intro hPu
    induction h with
    | nil s => apply Run.nil
    | @cons s t u a as _ hstep hrest ih =>
        by_cases hC : C s a
        · apply Run.cons hC hstep
          apply ih (hpres s a t hs hC hstep) hP hL hPu
        · have hu : L u :=
            hrest.invariant (hbreak s a t hs hC hstep)
              (fun s a t hL _ hstep => hlost s a t hL hstep)
          apply absurd hPu (hL hu)
  · intro hrun
    apply hP
    apply hrun.invariant hs hpres

/-- Among the steps `as` taken from `s` there is the step `a` from `t` to `u`. -/
def Takes (next : σ → α → Option σ) (s : σ) (as : List α) (t : σ) (a : α) (u : σ) : Prop :=
  ∃ bs cs, as = bs ++ a :: cs ∧ Run next always s bs t ∧ next t a = some u

/-- The first step of a run is one of its steps. -/
theorem takes_head {s t : σ} {a : α} {as : List α} (hstep : next s a = some t) :
  Takes next s (a :: as) s a t
  := ⟨[], as, rfl, Run.nil s, hstep⟩

/-- The steps of the rest of a run are steps of the run. -/
theorem Takes.cons {s t v w : σ} {a b : α} {as : List α} (hstep : next s a = some t)
    (h : Takes next t as v b w) :
  Takes next s (a :: as) v b w
  := by
  obtain ⟨bs, cs, rfl, hrun, hb⟩ := h
  use a :: bs, cs
  constructor
  · rfl
  · constructor
    · apply Run.cons trivial hstep hrun
    · apply hb

/-- A step of a run whose steps satisfy `C` satisfies `C`, and is taken from a state that
is reached by steps that satisfy `C`. -/
theorem Run.of_takes {s t u v : σ} {a : α} {as : List α} (h : Run next C s as u)
    (htakes : Takes next s as t a v) :
  (∃ bs, Run next C s bs t) ∧ C t a ∧ next t a = some v
  := by
  obtain ⟨bs, cs, rfl, hbs, hstep⟩ := htakes
  obtain ⟨t', hbs', hrest⟩ := h.split
  obtain rfl := hbs.unique hbs'
  cases hrest with
  | cons hC _ _ => exact ⟨⟨bs, hbs'⟩, hC, hstep⟩

/-- A property `Q` of single steps holds of every step of a run exactly when the steps
satisfy `C`, provided the two agree under an invariant `I` of the steps that satisfy `C`. -/
theorem takes_iff_of_kept {I : σ → Prop} {Q : σ → α → σ → Prop} {s u : σ} {as : List α}
    (h : Run next always s as u) (hs : I s)
    (hpres : ∀ s a t, I s → C s a → next s a = some t → I t)
    (hQ : ∀ s a t, I s → next s a = some t → (Q s a t ↔ C s a)) :
  (∀ t a v, Takes next s as t a v → Q t a v) ↔ Run next C s as u
  := by
  constructor
  · intro hall
    induction h with
    | nil s => apply Run.nil
    | @cons s t u a as _ hstep hrest ih =>
        have hC : C s a := by
          apply (hQ s a t hs hstep).mp
          apply hall s a t (takes_head hstep)
        apply Run.cons hC hstep
        apply ih (hpres s a t hs hC hstep)
        intro v b w hv
        apply hall v b w (hv.cons hstep)
  · intro hrun t a v htakes
    obtain ⟨⟨bs, hbs⟩, hC, hstep⟩ := hrun.of_takes htakes
    apply (hQ t a v (hbs.invariant hs hpres) hstep).mpr hC

/-- A property `Q` of single steps holds of every step of a run exactly when the steps
satisfy `C`, provided the two agree under an invariant `I` of all steps. -/
theorem takes_iff {I : σ → Prop} {Q : σ → α → σ → Prop} {s u : σ} {as : List α}
    (h : Run next always s as u) (hs : I s)
    (hpres : ∀ s a t, I s → next s a = some t → I t)
    (hQ : ∀ s a t, I s → next s a = some t → (Q s a t ↔ C s a)) :
  (∀ t a v, Takes next s as t a v → Q t a v) ↔ Run next C s as u
  := takes_iff_of_kept h hs (fun s a t hI _ hstep => hpres s a t hI hstep) hQ

/-! ### What is going to happen -/

/-- Whatever steps are taken, a state that satisfies `P` is reached, and up to then there
is always a step to take. -/
inductive Inevitable (next : σ → α → Option σ) (P : σ → Prop) : σ → Prop
  | now {s : σ} (h : P s) : Inevitable next P s
  | later {s : σ} (hcan : ∃ a t, next s a = some t)
      (hall : ∀ a t, next s a = some t → Inevitable next P t) : Inevitable next P s

/-- A state that satisfies `P` is going to be reached when every state has a rank, the
machine is never stuck before, and every step leads to a state with a smaller rank. -/
theorem inevitable_of_rank {ρ : Type*} {r : ρ → ρ → Prop} (hwf : WellFounded r)
    {R : ρ → σ → Prop} {P : σ → Prop}
    (hcan : ∀ n s, R n s → ¬ P s → ∃ a t, next s a = some t)
    (hdec : ∀ n s a t, R n s → ¬ P s → next s a = some t → ∃ m, r m n ∧ R m t) (n : ρ) (s : σ)
    (hs : R n s) :
  Inevitable next P s
  := by
  induction n using hwf.induction generalizing s with
  | h n ih =>
      by_cases hP : P s
      · apply Inevitable.now hP
      · apply Inevitable.later (hcan n s hs hP)
        intro a t hstep
        obtain ⟨m, hm, ht⟩ := hdec n s a t hs hP hstep
        apply ih m hm t ht

/-- A state that satisfies `P` is going to be reached when the machine is never stuck
before and every step makes a measure smaller. -/
theorem inevitable_of_measure {I P : σ → Prop} (m : σ → Nat)
    (hpres : ∀ s a t, I s → next s a = some t → I t)
    (hcan : ∀ s, I s → ¬ P s → ∃ a t, next s a = some t)
    (hdec : ∀ s a t, I s → ¬ P s → next s a = some t → m t < m s) (s : σ) (hs : I s) :
  Inevitable next P s
  := by
  refine inevitable_of_rank (R := fun n s => I s ∧ m s = n) Nat.lt_wfRel.wf ?_ ?_ (m s) s ⟨hs, rfl⟩
  · rintro n s ⟨hs, -⟩ hP
    apply hcan s hs hP
  · rintro n s a t ⟨hs, rfl⟩ hP hstep
    use m t
    constructor
    · apply hdec s a t hs hP hstep
    · exact ⟨hpres s a t hs hstep, rfl⟩

end Machine
