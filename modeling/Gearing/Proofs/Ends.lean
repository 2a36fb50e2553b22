import Gearing.Outcome

/-!
How a program ends, as a predicate on its answer and on its halt, each with the state that it leaves.
One equation for each way of building a program takes the predicate apart.
-/
namespace Gearing

def Halt.relabel {ε ε' : Type} (f : ε → ε') : Halt ε → Halt ε'
  | .refused cause => .refused (f cause)
  | .trapped trap => .trapped trap

namespace Action
variable {ε ε' σ τ α β : Type}

section Runs
variable (s : σ)

theorem run_get : (get : Action ε σ σ) s = .ok s s := rfl

theorem run_set (t : σ) : (set t : Action ε σ PUnit) s = .ok ⟨⟩ t := rfl

theorem run_modify (f : σ → σ) : (modify f : Action ε σ PUnit) s = .ok ⟨⟩ (f s) := rfl

theorem run_bind (act : Action ε σ α) (f : α → Action ε σ β) : (act >>= f) s =
    match act s with
    | .ok a t => f a t
    | .error e t => .error e t := by
  show EStateM.bind act f s = _
  unfold EStateM.bind
  cases act s <;> rfl

end Runs

/-- Started in `s`, the program ends in `P` if it answers and in `E` if it halts. -/
def Ends (act : Action ε σ α) (P : α → σ → Prop) (E : Halt ε → σ → Prop) (s : σ) : Prop :=
  match act s with
  | .ok a t => P a t
  | .error e t => E e t

section Equations
variable {P : α → σ → Prop} {E : Halt ε → σ → Prop} {s : σ}

theorem Ends.of_ok {act : Action ε σ α} {a : α} {t : σ} (h : act.Ends P E s)
    (hact : act s = .ok a t) : P a t := by
  simpa only [Ends, hact] using h

theorem Ends.of_error {act : Action ε σ α} {e : Halt ε} {t : σ} (h : act.Ends P E s)
    (hact : act s = .error e t) : E e t := by
  simpa only [Ends, hact] using h

theorem Ends.mono {act : Action ε σ α} {P' : α → σ → Prop} {E' : Halt ε → σ → Prop}
    (h : act.Ends P E s) (hP : ∀ a t, P a t → P' a t) (hE : ∀ e t, E e t → E' e t) :
    act.Ends P' E' s := by
  unfold Ends at h ⊢
  split at h
  · exact hP _ _ h
  · exact hE _ _ h

theorem Ends.and {act : Action ε σ α} {P' : α → σ → Prop} {E' : Halt ε → σ → Prop}
    (h : act.Ends P E s) (h' : act.Ends P' E' s) :
    act.Ends (fun a t => P a t ∧ P' a t) (fun e t => E e t ∧ E' e t) s := by
  unfold Ends at h h' ⊢
  cases hact : act s with
  | ok a t =>
    rw [hact] at h h'
    exact ⟨h, h'⟩
  | error e t =>
    rw [hact] at h h'
    exact ⟨h, h'⟩

theorem Ends.of_run {act : Action ε σ α} (hP : ∀ a t, act s = .ok a t → P a t)
    (hE : ∀ e t, act s = .error e t → E e t) : act.Ends P E s := by
  unfold Ends
  split
  · exact hP _ _ ‹_›
  · exact hE _ _ ‹_›

theorem Ends.of_forall {act : Action ε σ α} (hP : ∀ a t, P a t) (hE : ∀ e t, E e t) : act.Ends P E s :=
  .of_run (fun a t _ => hP a t) (fun e t _ => hE e t)

theorem ends_pure (a : α) : Ends (pure a : Action ε σ α) P E s ↔ P a s := Iff.rfl

theorem ends_get (P : σ → σ → Prop) : Ends (get : Action ε σ σ) P E s ↔ P s s := Iff.rfl

theorem ends_set (P : PUnit → σ → Prop) (t : σ) :
    Ends (set t : Action ε σ PUnit) P E s ↔ P ⟨⟩ t := Iff.rfl

theorem ends_modify (P : PUnit → σ → Prop) (f : σ → σ) :
    Ends (modify f : Action ε σ PUnit) P E s ↔ P ⟨⟩ (f s) := Iff.rfl

theorem ends_bind {Q : β → σ → Prop} (act : Action ε σ α) (f : α → Action ε σ β) :
    Ends (act >>= f) Q E s ↔ act.Ends (fun a t => (f a).Ends Q E t) E s := by
  rw [Ends, Ends, run_bind]
  cases act s <;> rfl

theorem ends_ofTrap (r : Except Trap α) : Ends (ofTrap r : Action ε σ α) P E s ↔
    (∀ a, r = .ok a → P a s) ∧ (∀ t, r = .error t → E (.trapped t) s) := by
  cases r with
  | ok a =>
    have h : Ends (ofTrap (.ok a) : Action ε σ α) P E s ↔ P a s := Iff.rfl
    simp [h]
  | error t =>
    have h : Ends (ofTrap (.error t) : Action ε σ α) P E s ↔ E (.trapped t) s := Iff.rfl
    simp [h]

theorem ends_ofExcept (r : Except (Halt ε) α) : Ends (ofExcept r : Action ε σ α) P E s ↔
    (∀ a, r = .ok a → P a s) ∧ (∀ e, r = .error e → E e s) := by
  cases r with
  | ok a =>
    have h : Ends (ofExcept (.ok a) : Action ε σ α) P E s ↔ P a s := Iff.rfl
    simp [h]
  | error e =>
    have h : Ends (ofExcept (.error e) : Action ε σ α) P E s ↔ E e s := Iff.rfl
    simp [h]

theorem ends_attempt {P : Except ε α → σ → Prop} {E : Halt ε' → σ → Prop} (act : Action ε σ α) :
    Ends (attempt act) P E s ↔ act.Ends (fun a t => P (.ok a) t)
      (fun e t => match e with
        | .refused cause => P (.error cause) t
        | .trapped trap => E (.trapped trap) t) s := by
  simp only [Ends, attempt]
  rcases act s with ⟨a, t⟩ | ⟨_ | _, t⟩ <;> rfl

theorem ends_relabel {E : Halt ε' → σ → Prop} (f : ε → ε') (act : Action ε σ α) :
    Ends (act.relabel f) P E s ↔ act.Ends P (fun e t => E (e.relabel f) t) s := by
  simp only [Ends, relabel]
  rcases act s with ⟨a, t⟩ | ⟨_ | _, t⟩ <;> rfl

theorem ends_focus {P : α → τ → Prop} {E : Halt ε → τ → Prop} {t : τ} (view : τ → σ)
    (put : τ → σ → τ) (act : Action ε σ α) :
    Ends (focus view put act) P E t ↔
      act.Ends (fun a s => P a (put t s)) (fun e s => E e (put t s)) (view t) := by
  simp only [Ends, focus]
  cases act (view t) <;> rfl

end Equations

def answer (act : Action ε σ α) (s : σ) : Except (Halt ε) α :=
  match act s with
  | .ok a _ => .ok a
  | .error e _ => .error e

/-- The state that a program leaves, however it ends. -/
def final (act : Action ε σ α) (s : σ) : σ :=
  match act s with
  | .ok _ t => t
  | .error _ t => t

theorem final_of_ok {act : Action ε σ α} {s t : σ} {a : α} (h : act s = .ok a t) : act.final s = t := by
  rw [final, h]

theorem final_of_error {act : Action ε σ α} {s t : σ} {e : Halt ε} (h : act s = .error e t) :
    act.final s = t := by
  rw [final, h]

theorem answer_of_ok {act : Action ε σ α} {s t : σ} {a : α} (h : act s = .ok a t) :
    act.answer s = .ok a := by
  rw [answer, h]

theorem answer_of_error {act : Action ε σ α} {s t : σ} {e : Halt ε} (h : act s = .error e t) :
    act.answer s = .error e := by
  rw [answer, h]

theorem eq_ok_of_answer {act : Action ε σ α} {s : σ} {a : α} (h : act.answer s = .ok a) :
    act s = .ok a (act.final s) := by
  unfold answer at h
  unfold final
  cases hact : act s with
  | ok b t => rw [hact] at h; cases h; rfl
  | error e t => rw [hact] at h; cases h

theorem exists_ok_of_map_answer {act : Action ε σ α} {s : σ} {f : α → β} {b : β}
    (h : (act.answer s).map f = .ok b) : ∃ a, act s = .ok a (act.final s) ∧ f a = b := by
  cases hact : act.answer s with
  | ok a =>
    rw [hact] at h
    exact ⟨a, eq_ok_of_answer hact, Except.ok.inj h⟩
  | error e =>
    rw [hact] at h
    cases h

theorem eq_error_of_answer {act : Action ε σ α} {s : σ} {e : Halt ε} (h : act.answer s = .error e) :
    act s = .error e (act.final s) := by
  unfold answer at h
  unfold final
  cases hact : act s with
  | ok b t => rw [hact] at h; cases h
  | error e' t => rw [hact] at h; cases h; rfl

end Action
end Gearing
