import SscOnWindows.Lib.Machine

/-!
# A setting on loan

A program switches a setting that is not its own to a value it chose, and switches it back
when it is done.  Before it switches it reads the setting and remembers the answer; there may
be none, because the question failed or because there was nothing to read.  What the program can
read need not be the whole setting, and what it writes need not have been there before.

The program goes through three phases: before the switch, away from what it found, and
after.  It comes from the second to the third by restoring the setting, or by forgetting to.
`restored_iff` says in which of its runs the setting is at the end what it was at the start.
-/

namespace Loan

open Machine

variable {ρ β σ α : Type*}

/-- How a program gets at a setting: it reads back what it has written. -/
structure Access (ρ β : Type*) where
  read : β → Option ρ
  write : ρ → β
  read_write : ∀ value, read (write value) = some value

/-- The setting, and the value the program remembers. -/
structure Setting (ρ β : Type*) where
  current : β
  original : Option ρ := none
  deriving DecidableEq

/-- What a step of the program does to the setting. -/
inductive Op where
  | keep
  | switch (answered : Bool)
  | restore (clears : Bool)
  deriving DecidableEq

/-- The setting once the remembered value is written back, if there is one. -/
def Setting.restored (A : Access ρ β) (l : Setting ρ β) : β :=
  (l.original.map A.write).getD l.current

/-- The setting after an operation of a program that switches to `value`. -/
def Setting.apply (A : Access ρ β) (value : ρ) (l : Setting ρ β) : Op → Setting ρ β
  | .keep => l
  | .switch answered =>
      { current := A.write value, original := if answered then A.read l.current else none }
  | .restore clears =>
      { current := l.restored A, original := if clears then none else l.original }

/-- A switch remembers the setting when the question for it is answered, with a value that is
written back as the setting was. -/
def Op.Remembers (A : Access ρ β) (l : Setting ρ β) : Op → Prop
  | .switch answered => answered = true ∧ (A.read l.current).map A.write = some l.current
  | _ => True

instance [DecidableEq β] (A : Access ρ β) (l : Setting ρ β) : ∀ o, Decidable (Op.Remembers A l o)
  | .switch _ => inferInstanceAs (Decidable (_ ∧ _))
  | .keep | .restore _ => inferInstanceAs (Decidable True)

/-- The phases of a program. -/
inductive Phase where
  | before
  | away
  | after
  deriving DecidableEq

/-- A program with its effect on the setting: the steps, what each of them does, the phase of
each state, and the steps by which it leaves the setting switched. -/
structure Program (σ α : Type*) where
  step : σ → α → Option σ
  op : σ → α → Op
  phase : σ → Phase
  forgets : σ → α → Bool

/-- What a step may do in each phase. -/
inductive Moves : Phase → Op → Bool → Phase → Prop
  | keep (p : Phase) : Moves p .keep false p
  | switch (answered : Bool) : Moves .before (.switch answered) false .away
  | restore (clears : Bool) : Moves .away (.restore clears) false .after
  | forget : Moves .away .keep true .after

namespace Program

/-- The steps of the program that keep `I` do what they may do in their phase. -/
structure Orderly (P : Program σ α) (I : σ → Prop) : Prop where
  keeps : ∀ s a t, I s → P.step s a = some t → I t
  moves : ∀ s a t, I s → P.step s a = some t →
    Moves (P.phase s) (P.op s a) (P.forgets s a) (P.phase t)

/-- A step of the program along with the setting. -/
def next (P : Program σ α) (A : Access ρ β) (value : ρ) (s : σ × Setting ρ β) (a : α) :
    Option (σ × Setting ρ β) :=
  (P.step s.1 a).map fun t => (t, s.2.apply A value (P.op s.1 a))

/-- A step that does not forget the setting, and that remembers what it switches away. -/
def Mindful (P : Program σ α) (A : Access ρ β) (s : σ × Setting ρ β) (a : α) : Prop :=
  P.forgets s.1 a = false ∧ (P.op s.1 a).Remembers A s.2

instance [DecidableEq β] (P : Program σ α) (A : Access ρ β) (s : σ × Setting ρ β) (a : α) :
    Decidable (P.Mindful A s a) :=
  inferInstanceAs (Decidable (_ ∧ _))

variable {P : Program σ α} {A : Access ρ β} {I : σ → Prop} {value : ρ} {begun : β}
  {s t : σ × Setting ρ β} {a : α} {as : List α}

/-- The program has not touched the setting, can still bring it back, or has. -/
def Kept (P : Program σ α) (A : Access ρ β) (value : ρ) (begun : β) (s : σ × Setting ρ β) : Prop :=
  match P.phase s.1 with
  | .before => s.2.current = begun
  | .away => s.2.current = A.write value ∧ s.2.restored A = begun
  | .after => s.2.current = begun

/-- The setting is not what it was, and is not going to be. -/
def Lost (P : Program σ α) (A : Access ρ β) (begun : β) (s : σ × Setting ρ β) : Prop :=
  match P.phase s.1 with
  | .before => False
  | .away => s.2.current ≠ begun ∧ s.2.restored A ≠ begun
  | .after => s.2.current ≠ begun

/-- The program switches to the value that is in force anyway. -/
def Same (P : Program σ α) (A : Access ρ β) (value : ρ) (s : σ × Setting ρ β) : Prop :=
  s.2.current = A.write value ∧ (P.phase s.1 = .away → s.2.restored A = A.write value)

/-- What a step of the program does to the setting. -/
theorem Orderly.next_cases (hP : P.Orderly I) (hs : I s.1) (h : P.next A value s a = some t) :
  I t.1 ∧ t.2 = s.2.apply A value (P.op s.1 a)
    ∧ Moves (P.phase s.1) (P.op s.1 a) (P.forgets s.1 a) (P.phase t.1)
  := by
  obtain ⟨v, hv, rfl⟩ := Option.map_eq_some_iff.mp h
  exact ⟨hP.keeps s.1 a v hs hv, rfl, hP.moves s.1 a v hs hv⟩

/-- What a switch that remembers the setting writes back. -/
theorem restored_switch {l : Setting ρ β} {answered : Bool}
    (h : (Op.switch answered).Remembers A l) :
  (l.apply A value (.switch answered)).restored A = l.current
  := by
  obtain ⟨rfl, hread⟩ := h
  simp only [Setting.restored, Setting.apply, if_true, hread, Option.getD_some]

/-- What a switch that does not remember the setting writes back. -/
theorem restored_switch_ne {l : Setting ρ β} {answered : Bool}
    (h : ¬ (Op.switch answered).Remembers A l) (hvalue : l.current ≠ A.write value) :
  (l.apply A value (.switch answered)).restored A ≠ l.current
  := by
  simp only [Setting.restored, Setting.apply]
  cases answered with
  | false => apply hvalue.symm
  | true =>
      rw [if_pos rfl]
      cases hread : A.read l.current with
      | none => apply hvalue.symm
      | some v =>
          intro hwrite
          apply h
          constructor
          · rfl
          · rw [hread]
            apply congrArg some hwrite

/-- A mindful step loses nothing. -/
theorem Orderly.kept_next (hP : P.Orderly I) (hs : I s.1) (hkept : P.Kept A value begun s)
    (hmindful : P.Mindful A s a) (h : P.next A value s a = some t) :
  P.Kept A value begun t
  := by
  obtain ⟨-, hsetting, hmoves⟩ := hP.next_cases hs h
  obtain ⟨hforgets, hremembers⟩ := hmindful
  unfold Kept at hkept ⊢
  rw [hsetting]
  generalize P.phase s.1 = p, P.phase t.1 = q, P.op s.1 a = o, P.forgets s.1 a = f at *
  cases hmoves with
  | keep p => apply hkept
  | switch answered =>
      constructor
      · rfl
      · rw [restored_switch hremembers]
        apply hkept
  | restore clears => apply hkept.2
  | forget => contradiction

/-- A step that is not mindful loses a setting other than the program's own. -/
theorem Orderly.lost_of_not_mindful (hP : P.Orderly I) (hvalue : begun ≠ A.write value)
    (hs : I s.1) (hkept : P.Kept A value begun s) (hmindful : ¬ P.Mindful A s a)
    (h : P.next A value s a = some t) :
  P.Lost A begun t
  := by
  obtain ⟨-, hsetting, hmoves⟩ := hP.next_cases hs h
  unfold Mindful at hmindful
  unfold Kept at hkept
  unfold Lost
  rw [hsetting]
  generalize P.phase s.1 = p, P.phase t.1 = q, P.op s.1 a = o, P.forgets s.1 a = f at *
  cases hmoves with
  | keep p => simp [Op.Remembers] at hmindful
  | switch answered =>
      obtain rfl := hkept
      constructor
      · apply hvalue.symm
      · apply restored_switch_ne _ hvalue
        intro hremembers
        apply hmindful ⟨rfl, hremembers⟩
  | restore clears => simp [Op.Remembers] at hmindful
  | forget =>
      change s.2.current ≠ begun
      rw [hkept.1]
      apply hvalue.symm

/-- What is lost stays lost. -/
theorem Orderly.lost_next (hP : P.Orderly I) (hs : I s.1) (hlost : P.Lost A begun s)
    (h : P.next A value s a = some t) :
  P.Lost A begun t
  := by
  obtain ⟨-, hsetting, hmoves⟩ := hP.next_cases hs h
  unfold Lost at hlost ⊢
  rw [hsetting]
  generalize P.phase s.1 = p, P.phase t.1 = q, P.op s.1 a = o, P.forgets s.1 a = f at *
  cases hmoves with
  | keep p => apply hlost
  | switch answered => contradiction
  | restore clears => apply hlost.2
  | forget => apply hlost.1

theorem Orderly.same_next (hP : P.Orderly I) (hs : I s.1) (hsame : P.Same A value s)
    (h : P.next A value s a = some t) :
  P.Same A value t
  := by
  obtain ⟨-, hsetting, hmoves⟩ := hP.next_cases hs h
  obtain ⟨hcurrent, hrestored⟩ := hsame
  unfold Same
  rw [hsetting]
  generalize P.phase s.1 = p, P.phase t.1 = q, P.op s.1 a = o, P.forgets s.1 a = f at *
  cases hmoves with
  | keep p => exact ⟨hcurrent, hrestored⟩
  | switch answered =>
      constructor
      · rfl
      · intro _
        simp only [Setting.restored, Setting.apply, hcurrent, A.read_write]
        cases answered <;> rfl
  | restore clears =>
      constructor
      · apply hrestored rfl
      · nofun
  | forget =>
      constructor
      · apply hcurrent
      · nofun

/-- A program that switches to the value in force never changes the setting. -/
theorem Orderly.same_of_run (hP : P.Orderly I) (hs : I s.1) (hsame : P.Same A value s)
    (h : Run (P.next A value) always s as t) :
  P.Same A value t
  := by
  apply And.right
  apply h.invariant (I := fun s => I s.1 ∧ P.Same A value s) ⟨hs, hsame⟩
  rintro s a t ⟨hs, hsame⟩ - hstep
  constructor
  · apply (hP.next_cases hs hstep).1
  · apply hP.same_next hs hsame hstep

/-- At the end of a run of an orderly program the setting is what it was at the start exactly
when the program switched to the value in force anyway, or every step of the run was mindful:
none left the setting switched, and the switch remembered all of it. -/
theorem Orderly.restored_iff (hP : P.Orderly I) (hs : I s.1) (hbefore : P.phase s.1 = .before)
    (hback : P.phase t.1 ≠ .away) (h : Run (P.next A value) always s as t) :
  t.2.current = s.2.current
    ↔ s.2.current = A.write value ∨ Run (P.next A value) (P.Mindful A) s as t
  := by
  by_cases hvalue : s.2.current = A.write value
  · have hsame : P.Same A value t := by
      apply hP.same_of_run hs _ h
      constructor
      · apply hvalue
      · rw [hbefore]
        nofun
    simp only [hvalue, hsame.1, true_or]
  · rw [or_iff_right hvalue]
    apply ends_iff h (I := fun u => I u.1 ∧ P.Kept A value s.2.current u)
      (L := fun u => I u.1 ∧ P.Lost A s.2.current u)
      (P := fun u => u.2.current = s.2.current)
    · constructor
      · apply hs
      · rw [Kept, hbefore]
    · rintro u a v ⟨hu, hkept⟩ hmindful hstep
      constructor
      · apply (hP.next_cases hu hstep).1
      · apply hP.kept_next hu hkept hmindful hstep
    · rintro u a v ⟨hu, hkept⟩ hmindful hstep
      constructor
      · apply (hP.next_cases hu hstep).1
      · apply hP.lost_of_not_mindful hvalue hu hkept hmindful hstep
    · rintro u a v ⟨hu, hlost⟩ hstep
      constructor
      · apply (hP.next_cases hu hstep).1
      · apply hP.lost_next hu hlost hstep
    · rintro ⟨-, hkept⟩
      unfold Kept at hkept
      cases hphase : P.phase t.1 with
      | away => contradiction
      | before | after => simpa only [hphase] using hkept
    · rintro ⟨-, hlost⟩ hcurrent
      unfold Lost at hlost
      cases hphase : P.phase t.1 with
      | away => contradiction
      | before => simp only [hphase] at hlost
      | after =>
          simp only [hphase] at hlost
          apply hlost hcurrent

end Program

end Loan
