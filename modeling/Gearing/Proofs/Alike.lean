import Gearing.Proofs.Ends

/-!
Programs that do not see a part of their state. Started in states that differ in that part alone, such a program
answers or halts alike, and the states it leaves differ in that part alone.
-/
namespace Gearing.Action
variable {ε ε' σ τ α β : Type} {R : σ → σ → Prop} {S : α → α → Prop} {s s' : σ}

def Alike (R : σ → σ → Prop) (S : α → α → Prop) (act act' : Action ε σ α) (s s' : σ) : Prop :=
  act.Ends (fun a t => ∃ a' t', act' s' = .ok a' t' ∧ S a a' ∧ R t t')
    (fun e t => ∃ t', act' s' = .error e t' ∧ R t t') s

/-- The program does not see what `R` leaves open. -/
class Blind (R : σ → σ → Prop) (act : Action ε σ α) : Prop where
  alike : ∀ {s s'}, R s s' → Alike R Eq act act s s'

section Rules

theorem alike_of_ok {act act' : Action ε σ α} {a a' : α} {t t' : σ} (h : act s = .ok a t)
    (h' : act' s' = .ok a' t') (hS : S a a') (hR : R t t') : Alike R S act act' s s' := by
  rw [Alike, Ends, h]
  exact ⟨a', t', h', hS, hR⟩

theorem alike_of_error {act act' : Action ε σ α} {e : Halt ε} {t t' : σ} (h : act s = .error e t)
    (h' : act' s' = .error e t') (hR : R t t') : Alike R S act act' s s' := by
  rw [Alike, Ends, h]
  exact ⟨t', h', hR⟩

theorem alike_set {t t' : σ} (hR : R t t') :
    Alike R Eq (set t : Action ε σ PUnit) (set t') s s' :=
  alike_of_ok rfl rfl rfl hR

theorem Alike.bind {Q : β → β → Prop} {act act' : Action ε σ α} {f f' : α → Action ε σ β}
    (h : Alike R S act act' s s') (hf : ∀ {a a' t t'}, S a a' → R t t' → Alike R Q (f a) (f' a') t t') :
    Alike R Q (act >>= f) (act' >>= f') s s' := by
  rw [Alike, ends_bind]
  refine Ends.mono h (fun a t ha => ?_) (fun e t he => ?_)
  · obtain ⟨a', t', hact', hS, hR⟩ := ha
    rw [run_bind, hact']
    exact hf hS hR
  · obtain ⟨t', hact', hR⟩ := he
    exact ⟨t', by rw [run_bind, hact'], hR⟩

theorem alike_get_bind {Q : β → β → Prop} {f f' : σ → Action ε σ β}
    (h : Alike R Q (f s) (f' s') s s') : Alike R Q (get >>= f) (get >>= f') s s' :=
  h

theorem alike_ite {c : Prop} [Decidable c] {yes yes' no no' : Action ε σ α}
    (h : c → Alike R S yes yes' s s') (h' : ¬ c → Alike R S no no' s s') :
    Alike R S (if c then yes else no) (if c then yes' else no') s s' := by
  split
  · exact h ‹c›
  · exact h' ‹¬ c›

end Rules

section Instances

instance (a : α) : Blind R (pure a : Action ε σ α) := ⟨alike_of_ok rfl rfl rfl⟩

instance (cause : ε) : Blind R (refuse cause : Action ε σ α) := ⟨alike_of_error rfl rfl⟩

instance (r : Except Trap α) : Blind R (ofTrap r : Action ε σ α) := by
  cases r with
  | ok a => exact ⟨alike_of_ok rfl rfl rfl⟩
  | error t => exact ⟨alike_of_error rfl rfl⟩

instance (r : Except (Halt ε) α) : Blind R (ofExcept r : Action ε σ α) := by
  cases r with
  | ok a => exact ⟨alike_of_ok rfl rfl rfl⟩
  | error e => exact ⟨alike_of_error rfl rfl⟩

instance (act : Action ε σ α) (f : α → Action ε σ β) [hact : Blind R act] [hf : ∀ a, Blind R (f a)] :
    Blind R (act >>= f) :=
  ⟨fun hR => (hact.alike hR).bind fun heq hR => heq ▸ (hf _).alike hR⟩

instance (c : Prop) [Decidable c] (act act' : Action ε σ α) [Blind R act] [Blind R act'] :
    Blind R (if c then act else act') := by
  split <;> infer_instance

instance (f : ε → ε') (act : Action ε σ α) [hact : Blind R act] : Blind R (act.relabel f) where
  alike hR := by
    rw [Alike, ends_relabel]
    refine Ends.mono (hact.alike hR) (fun a t ha => ?_) (fun e t he => ?_)
    · obtain ⟨a', t', hact', ha⟩ := ha
      exact ⟨a', t', by rw [relabel, hact'], ha⟩
    · obtain ⟨t', hact', hR⟩ := he
      refine ⟨t', ?_, hR⟩
      rw [relabel, hact']
      cases e <;> rfl

instance (act : Action ε σ α) [hact : Blind R act] :
    Blind R (attempt act : Action ε' σ (Except ε α)) where
  alike hR := by
    rw [Alike, ends_attempt]
    refine Ends.mono (hact.alike hR) (fun a t ha => ?_) (fun e t he => ?_)
    · obtain ⟨a', t', hact', rfl, hR⟩ := ha
      exact ⟨.ok a, t', by rw [attempt, hact'], rfl, hR⟩
    · obtain ⟨t', hact', hR⟩ := he
      cases e with
      | refused cause => exact ⟨.error cause, t', by rw [attempt, hact'], rfl, hR⟩
      | trapped trap => exact ⟨t', by rw [attempt, hact'], hR⟩

theorem blind_modify {f : σ → σ} (h : ∀ {s s'}, R s s' → R (f s) (f s')) :
    Blind R (modify f : Action ε σ PUnit) :=
  ⟨fun {_ s'} hR => ⟨⟨⟩, f s', rfl, rfl, h hR⟩⟩

theorem blind_get_bind {f : σ → Action ε σ β} (h : ∀ {s s'}, R s s' → Alike R Eq (f s) (f s') s s') :
    Blind R (get >>= f) :=
  ⟨fun hR => alike_get_bind (h hR)⟩

theorem Blind.focus {Q : τ → τ → Prop} {view : τ → σ} {put : τ → σ → τ} {act : Action ε σ α}
    (h : Blind R act) (hview : ∀ {t t'}, Q t t' → R (view t) (view t'))
    (hput : ∀ {t t' s s'}, Q t t' → R s s' → Q (put t s) (put t' s')) :
    Blind Q (Action.focus view put act) where
  alike hQ := by
    rw [Alike, ends_focus]
    refine Ends.mono (h.alike (hview hQ)) (fun a s ha => ?_) (fun e s he => ?_)
    · obtain ⟨a', s', hact', rfl, hR⟩ := ha
      exact ⟨a, _, by rw [Action.focus, hact'], rfl, hput hQ hR⟩
    · obtain ⟨s', hact', hR⟩ := he
      exact ⟨_, by rw [Action.focus, hact'], hput hQ hR⟩

end Instances

section Reading
variable {act act' : Action ε σ α}

theorem Alike.answer_eq (h : Alike R Eq act act' s s') :
    act'.answer s' = act.answer s ∧ R (act.final s) (act'.final s') := by
  cases hact : act s with
  | ok a t =>
    obtain ⟨a', t', hact', rfl, hR⟩ := Ends.of_ok h hact
    rw [answer_of_ok hact, answer_of_ok hact', final_of_ok hact, final_of_ok hact']
    exact ⟨rfl, hR⟩
  | error e t =>
    obtain ⟨t', hact', hR⟩ := Ends.of_error h hact
    rw [answer_of_error hact, answer_of_error hact', final_of_error hact, final_of_error hact']
    exact ⟨rfl, hR⟩

end Reading
end Gearing.Action
