import Mathlib.Logic.Function.Basic
import SscOnWindows.Lib.Loan

/-!
# A flag on loan

A program sets one flag of a family and clears one flag later, each time the one that a pointer
shows at that moment; the pointer is moved by others, and may show none.  The program remembers
that it has set a flag, and nothing else.  It goes through the phases of a loan.
`flags_restored_iff` says in which of its runs all flags are at the end what they were at the start.
-/

namespace Loan

open Machine

variable {ι σ α : Type*} [DecidableEq ι]

/-- The flags, the pointer, and the flag the program has set. -/
structure Flags (ι : Type*) where
  flag : ι → Bool
  pointer : Option ι
  held : Option ι := none

/-- The flag a call writes, which is the one the pointer shows if the call succeeds. -/
def Flags.written (l : Flags ι) (ok : Bool) : Option ι :=
  if ok then l.pointer else none

/-- The flags after an operation of the program; it clears a flag only if it has set one. -/
def Flags.apply (l : Flags ι) : Op → Flags ι
  | .keep => l
  | .switch ok =>
      match l.written ok with
      | some i => { l with flag := Function.update l.flag i true, held := some i }
      | none => l
  | .restore ok =>
      match l.held, l.written ok with
      | some _, some i => { l with flag := Function.update l.flag i false }
      | _, _ => l

/-- A step of others, who move the pointer, or of the program. -/
inductive FlagStep (ι α : Type*) where
  | move (pointer : Option ι)
  | step (a : α)

/-- A flag that has been set comes back to what it was at the start, and so does the one that is
cleared, if there is one. -/
def Returns (begun : ι → Bool) (i : ι) : Option ι → Prop
  | none => begun i = true
  | some j => if j = i then begun i = false else begun i = true ∧ begun j = false

instance (begun : ι → Bool) (i : ι) : (written : Option ι) → Decidable (Returns begun i written)
  | none => inferInstanceAs (Decidable (_ = _))
  | some j => inferInstanceAs (Decidable (if j = i then _ else _))

namespace Program

/-- A step along with the flags. -/
def nextFlags (P : Program σ α) (s : σ × Flags ι) : FlagStep ι α → Option (σ × Flags ι)
  | .move pointer => some (s.1, { s.2 with pointer := pointer })
  | .step a => (P.step s.1 a).map fun t => (t, s.2.apply (P.op s.1 a))

/-- A step that ends the loan with all flags as they were at the start. -/
def Careful (P : Program σ α) (begun : ι → Bool) (s : σ × Flags ι) : FlagStep ι α → Prop
  | .move _ => True
  | .step a => ∀ i ∈ s.2.held,
      (P.forgets s.1 a = true → Returns begun i none)
        ∧ ∀ ok, P.op s.1 a = .restore ok → Returns begun i (s.2.written ok)

instance (P : Program σ α) (begun : ι → Bool) (s : σ × Flags ι) :
    (a : FlagStep ι α) → Decidable (P.Careful begun s a)
  | .move _ => inferInstanceAs (Decidable True)
  | .step _ => inferInstanceAs (Decidable (∀ i ∈ s.2.held, _))

variable {P : Program σ α} {I : σ → Prop} {begun : ι → Bool}

/-- The flags while one of them is on loan, if one is. -/
def lent (begun : ι → Bool) : Option ι → ι → Bool
  | none => begun
  | some i => Function.update begun i true

/-- No flag has been set, or only the one on loan, or all are as they were. -/
def FlagsKept (P : Program σ α) (begun : ι → Bool) (s : σ × Flags ι) : Prop :=
  match P.phase s.1 with
  | .before => s.2.flag = begun ∧ s.2.held = none
  | .away => s.2.flag = lent begun s.2.held
  | .after => s.2.flag = begun

/-- The loan is over, and a flag is not as it was. -/
def FlagsLost (P : Program σ α) (begun : ι → Bool) (s : σ × Flags ι) : Prop :=
  P.phase s.1 = .after ∧ s.2.flag ≠ begun

end Program

/-- The loan of a flag is well ended by clearing it, if it was clear at the start, or by clearing
another one that was clear, if it was set. -/
theorem update_eq_iff_returns {begun : ι → Bool} {i j : ι} :
  Function.update (Function.update begun i true) j false = begun ↔ Returns begun i (some j)
  := by
  rw [Returns]
  split
  next h =>
    subst h
    rw [Function.update_idem, Function.update_eq_self_iff, eq_comm]
  next h =>
    constructor
    · intro heq
      constructor
      · rw [← heq, Function.update_of_ne (Ne.symm h), Function.update_self]
      · rw [← heq, Function.update_self]
    · rintro ⟨hi, hj⟩
      have hsame : Function.update begun i true = begun := Function.update_eq_self_iff.mpr hi.symm
      rw [hsame, Function.update_eq_self_iff, hj]

namespace Program

variable {P : Program σ α} {I : σ → Prop} {begun : ι → Bool} {s t : σ × Flags ι}
  {a : FlagStep ι α}

/-- What a step does: the pointer moves, or the program makes a move in its phase. -/
theorem Orderly.nextFlags_cases (hP : P.Orderly I) (hs : I s.1) (h : P.nextFlags s a = some t) :
  I t.1 ∧ ((∃ pointer, a = .move pointer ∧ t = (s.1, { s.2 with pointer := pointer }))
    ∨ ∃ b, a = .step b ∧ t.2 = s.2.apply (P.op s.1 b)
      ∧ Moves (P.phase s.1) (P.op s.1 b) (P.forgets s.1 b) (P.phase t.1))
  := by
  cases a with
  | move pointer =>
      obtain rfl := Option.some.inj h
      exact ⟨hs, .inl ⟨pointer, rfl, rfl⟩⟩
  | step b =>
      obtain ⟨u, hu, rfl⟩ := Option.map_eq_some_iff.mp h
      exact ⟨hP.keeps s.1 b u hs hu, .inr ⟨b, rfl, rfl, hP.moves s.1 b u hs hu⟩⟩

/-- A pointer that moves changes no flag. -/
theorem flagsKept_move (h : P.FlagsKept begun s) (pointer : Option ι) :
  P.FlagsKept begun (s.1, { s.2 with pointer := pointer })
  := h

theorem careful_step {b : α} :
  P.Careful begun s (.step b) ↔ ∀ i ∈ s.2.held,
    (P.forgets s.1 b = true → Returns begun i none)
      ∧ ∀ ok, P.op s.1 b = .restore ok → Returns begun i (s.2.written ok)
  := Iff.rfl

/-- A careful step keeps the flags, and no other does. -/
theorem Orderly.flags_next (hP : P.Orderly I) (hs : I s.1) (hkept : P.FlagsKept begun s)
    (h : P.nextFlags s a = some t) :
  (P.Careful begun s a → P.FlagsKept begun t) ∧ (¬ P.Careful begun s a → P.FlagsLost begun t)
  := by
  obtain ⟨-, ⟨pointer, rfl, rfl⟩ | ⟨b, rfl, hflags, hmoves⟩⟩ := hP.nextFlags_cases hs h
  · constructor
    · intro _
      apply flagsKept_move hkept
    · intro hcareful
      exact absurd trivial hcareful
  · unfold FlagsLost
    unfold FlagsKept at hkept ⊢
    rw [hflags, careful_step]
    generalize P.phase s.1 = p, P.phase t.1 = q, P.op s.1 b = o, P.forgets s.1 b = f at *
    cases hmoves with
    | keep p =>
        constructor
        · intro _
          apply hkept
        · intro hcareful
          simp at hcareful
    | switch ok =>
        obtain ⟨hflag, hheld⟩ := hkept
        constructor
        · intro _
          simp only [Flags.apply]
          cases s.2.written ok with
          | none =>
              simp only [hheld, lent, hflag]
          | some i =>
              simp only [lent, hflag]
        · intro hcareful
          simp [hheld] at hcareful
    | restore ok =>
        simp only [Flags.apply]
        cases hheld : s.2.held with
        | none =>
            simp only [hheld, lent] at hkept
            simp [hkept]
        | some i =>
            simp only [hheld, lent] at hkept
            cases hwritten : s.2.written ok with
            | none =>
                simp [hkept, hwritten, Returns]
            | some j =>
                simp [hkept, update_eq_iff_returns, hwritten]
    | forget =>
        simp only [Flags.apply]
        cases hheld : s.2.held with
        | none =>
            simp only [hheld, lent] at hkept
            simp [hkept]
        | some i =>
            simp only [hheld, lent] at hkept
            simp [hkept, Returns]

/-- What is lost stays lost. -/
theorem Orderly.flagsLost_next (hP : P.Orderly I) (hs : I s.1) (hlost : P.FlagsLost begun s)
    (h : P.nextFlags s a = some t) :
  P.FlagsLost begun t
  := by
  obtain ⟨-, ⟨pointer, rfl, rfl⟩ | ⟨b, rfl, hflags, hmoves⟩⟩ := hP.nextFlags_cases hs h
  · apply hlost
  · unfold FlagsLost at hlost ⊢
    rw [hflags]
    generalize P.phase s.1 = p, P.phase t.1 = q, P.op s.1 b = o, P.forgets s.1 b = f at *
    obtain ⟨rfl, hflag⟩ := hlost
    cases hmoves with
    | keep p => exact ⟨rfl, hflag⟩

/-- At the end of a run of an orderly program all flags are what they were at the start exactly
when every step of the run was careful. -/
theorem Orderly.flags_restored_iff (hP : P.Orderly I) {as : List (FlagStep ι α)} (hs : I s.1)
    (hbefore : P.phase s.1 = .before) (hheld : s.2.held = none) (hback : P.phase t.1 ≠ .away)
    (h : Run P.nextFlags always s as t) :
  t.2.flag = s.2.flag ↔ Run P.nextFlags (P.Careful s.2.flag) s as t
  := by
  apply ends_iff h (I := fun u => I u.1 ∧ P.FlagsKept s.2.flag u)
    (L := fun u => I u.1 ∧ P.FlagsLost s.2.flag u) (P := fun u => u.2.flag = s.2.flag)
  · use hs
    rw [FlagsKept, hbefore]
    exact ⟨rfl, hheld⟩
  · rintro u a v ⟨hu, hkept⟩ hcareful hstep
    exact ⟨(hP.nextFlags_cases hu hstep).1, (hP.flags_next hu hkept hstep).1 hcareful⟩
  · rintro u a v ⟨hu, hkept⟩ hcareful hstep
    exact ⟨(hP.nextFlags_cases hu hstep).1, (hP.flags_next hu hkept hstep).2 hcareful⟩
  · rintro u a v ⟨hu, hlost⟩ hstep
    exact ⟨(hP.nextFlags_cases hu hstep).1, hP.flagsLost_next hu hlost hstep⟩
  · rintro ⟨-, hkept⟩
    unfold FlagsKept at hkept
    cases hphase : P.phase t.1 with
    | away => contradiction
    | before =>
        simp only [hphase] at hkept
        apply hkept.1
    | after => simpa only [hphase] using hkept
  · rintro ⟨-, -, hlost⟩
    apply hlost

end Program

end Loan
