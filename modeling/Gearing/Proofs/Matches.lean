import Gearing.Proofs.Ends

/-!
Two programs side by side, each from a state of its own: whether the second one ends as the first one does.
One rule for each way of building a program takes the question apart, as for a single program.
-/
namespace Gearing.Action
variable {ε ε' σ σ' τ τ' α α' β β' : Type}

/-- The second program, started in `s'`, ends as the first one does in `s`: with answers and states in `R`,
or with the same halt. Where the halt of the first one is excused, the second may end in any way. -/
def Matches (excused : Halt ε → Prop) (act : Action ε σ α) (act' : Action ε σ' α')
    (R : α → σ → α' → σ' → Prop) (s : σ) (s' : σ') : Prop :=
  act.Ends (fun a t => ∃ a' t', act' s' = .ok a' t' ∧ R a t a' t')
    (fun e _ => excused e ∨ ∃ t', act' s' = .error e t') s

section Rules
variable {excused : Halt ε → Prop} {R : α → σ → α' → σ' → Prop} {s : σ} {s' : σ'}

theorem matches_of_ok {act : Action ε σ α} {act' : Action ε σ' α'} {a : α} {t : σ} {a' : α'} {t' : σ'}
    (h : act s = .ok a t) (h' : act' s' = .ok a' t') (hR : R a t a' t') :
    Matches excused act act' R s s' := by
  rw [Matches, Ends, h]
  exact ⟨a', t', h', hR⟩

theorem matches_of_error {act : Action ε σ α} {act' : Action ε σ' α'} {e : Halt ε} {t : σ} {t' : σ'}
    (h : act s = .error e t) (h' : act' s' = .error e t') : Matches excused act act' R s s' := by
  rw [Matches, Ends, h]
  exact .inr ⟨t', h'⟩

theorem matches_of_excused {act : Action ε σ α} {act' : Action ε σ' α'} {e : Halt ε} {t : σ}
    (h : act s = .error e t) (he : excused e) : Matches excused act act' R s s' := by
  rw [Matches, Ends, h]
  exact .inl he

theorem Matches.mono {act : Action ε σ α} {act' : Action ε σ' α'} {R' : α → σ → α' → σ' → Prop}
    (h : Matches excused act act' R s s') (hR : ∀ a t a' t', R a t a' t' → R' a t a' t') :
    Matches excused act act' R' s s' := by
  refine Ends.mono h (fun a t ha => ?_) (fun _ _ he => he)
  obtain ⟨a', t', hact', ha⟩ := ha
  exact ⟨a', t', hact', hR a t a' t' ha⟩

theorem Matches.and {act : Action ε σ α} {act' : Action ε σ' α'} {P : α → σ → Prop}
    {P' : α' → σ' → Prop} {E : Halt ε → σ → Prop} {E' : Halt ε → σ' → Prop}
    (h : Matches excused act act' R s s') (hact : act.Ends P E s) (hact' : act'.Ends P' E' s') :
    Matches excused act act' (fun a t a' t' => R a t a' t' ∧ P a t ∧ P' a' t') s s' := by
  refine (Ends.and h hact).mono (fun a t ha => ?_) (fun _ _ he => he.1)
  obtain ⟨⟨a', t', hok, ha⟩, hP⟩ := ha
  exact ⟨a', t', hok, ha, hP, hact'.of_ok hok⟩

theorem Matches.bind {Q : β → σ → β' → σ' → Prop} {act : Action ε σ α} {act' : Action ε σ' α'}
    {f : α → Action ε σ β} {f' : α' → Action ε σ' β'} (h : Matches excused act act' R s s')
    (hf : ∀ a t a' t', R a t a' t' → Matches excused (f a) (f' a') Q t t') :
    Matches excused (act >>= f) (act' >>= f') Q s s' := by
  rw [Matches, ends_bind]
  refine Ends.mono h (fun a t ha => ?_) (fun e t he => ?_)
  · obtain ⟨a', t', hact', ha⟩ := ha
    rw [run_bind, hact']
    exact hf a t a' t' ha
  · exact he.imp_right (Exists.imp fun t' hact' => by rw [run_bind, hact'])

theorem matches_pure {a : α} {a' : α'} (h : R a s a' s') :
    Matches excused (pure a) (pure a') R s s' :=
  ⟨a', s', rfl, h⟩

theorem matches_refuse {cause : ε} :
    Matches excused (refuse cause : Action ε σ α) (refuse cause : Action ε σ' α') R s s' :=
  .inr ⟨s', rfl⟩

theorem matches_get_bind {Q : β → σ → β' → σ' → Prop} {f : σ → Action ε σ β} {f' : σ' → Action ε σ' β'}
    (h : Matches excused (f s) (f' s') Q s s') : Matches excused (get >>= f) (get >>= f') Q s s' :=
  Matches.bind (R := fun a t a' t' => (a = s ∧ t = s) ∧ a' = s' ∧ t' = s')
    ⟨s', s', rfl, ⟨rfl, rfl⟩, rfl, rfl⟩ (by rintro _ _ _ _ ⟨⟨rfl, rfl⟩, rfl, rfl⟩; exact h)

theorem matches_set_bind {Q : β → σ → β' → σ' → Prop} {t : σ} {t' : σ'} {f : PUnit → Action ε σ β}
    {f' : PUnit → Action ε σ' β'} (h : Matches excused (f ⟨⟩) (f' ⟨⟩) Q t t') :
    Matches excused (set t >>= f) (set t' >>= f') Q s s' :=
  h

theorem matches_modify {R : PUnit → σ → PUnit → σ' → Prop} {f : σ → σ} {f' : σ' → σ'}
    (h : R ⟨⟩ (f s) ⟨⟩ (f' s')) :
    Matches excused (modify f : Action ε σ PUnit) (modify f' : Action ε σ' PUnit) R s s' :=
  ⟨⟨⟩, f' s', rfl, h⟩

theorem matches_ofTrap_bind {Q : β → σ → β' → σ' → Prop} {r : Except Trap α} {f : α → Action ε σ β}
    {f' : α → Action ε σ' β'} (h : ∀ a, r = .ok a → Matches excused (f a) (f' a) Q s s') :
    Matches excused (ofTrap r >>= f) (ofTrap r >>= f') Q s s' := by
  cases r with
  | ok a => exact h a rfl
  | error t => exact .inr ⟨s', rfl⟩

theorem matches_ofExcept_bind {Q : β → σ → β' → σ' → Prop} {r : Except (Halt ε) α}
    {f : α → Action ε σ β} {f' : α → Action ε σ' β'}
    (h : ∀ a, r = .ok a → Matches excused (f a) (f' a) Q s s') :
    Matches excused (ofExcept r >>= f) (ofExcept r >>= f') Q s s' := by
  cases r with
  | ok a => exact h a rfl
  | error e => exact .inr ⟨s', rfl⟩

theorem Matches.relabel {excused' : Halt ε' → Prop} {act : Action ε σ α} {act' : Action ε σ' α'}
    (f : ε → ε') (h : Matches excused act act' R s s') (he : ∀ e, excused e → excused' (e.relabel f)) :
    Matches excused' (act.relabel f) (act'.relabel f) R s s' := by
  rw [Matches, ends_relabel]
  refine Ends.mono h (fun a t ha => ?_) (fun e t hexcused => ?_)
  · obtain ⟨a', t', hact', ha⟩ := ha
    exact ⟨a', t', by rw [Action.relabel, hact'], ha⟩
  · refine hexcused.imp (he e) (Exists.imp fun t' hact' => ?_)
    rw [Action.relabel, hact']
    cases e with
    | refused cause => rfl
    | trapped trap => rfl

theorem Matches.focus {R : α → σ → α' → σ' → Prop} {act : Action ε σ α} {act' : Action ε σ' α'}
    {view : τ → σ} {put : τ → σ → τ} {view' : τ' → σ'} {put' : τ' → σ' → τ'} {t : τ} {t' : τ'}
    {Q : α → τ → α' → τ' → Prop} (h : Matches excused act act' R (view t) (view' t'))
    (hQ : ∀ a s a' s', R a s a' s' → Q a (put t s) a' (put' t' s')) :
    Matches excused (Action.focus view put act) (Action.focus view' put' act') Q t t' := by
  rw [Matches, ends_focus]
  refine Ends.mono h (fun a s ha => ?_) (fun e s he => ?_)
  · obtain ⟨a', s', hact', ha⟩ := ha
    exact ⟨a', put' t' s', by rw [Action.focus, hact'], hQ a s a' s' ha⟩
  · obtain he | ⟨s', hact'⟩ := he
    · exact .inl he
    · exact .inr ⟨put' t' s', by rw [Action.focus, hact']⟩

end Rules
end Gearing.Action
