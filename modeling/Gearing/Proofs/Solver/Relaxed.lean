import Gearing.Proofs.Solver

/-!
The same target under wider bounds. Two bisections of one loop count take the same path until one of them
stops, and a wider window or a longer budget only lets it stop earlier with a ratio or go on where the
other gave up. The search over the loop counts starts where the limit first reaches the target, which
no bound moves, so wider bounds never lose a plan and never make it deeper.
-/
namespace Gearing.Solver
open Leverage

theorem bisect_relaxed {ε ε' target loops budget budget' lo hi r : Nat} {miss : Miss} (miss' : Miss)
    (hwindow : ε ≤ ε') (hbudget : budget ≤ budget')
    (h : bisect ε target loops budget lo hi miss = .ok r) :
    ∃ r', bisect ε' target loops budget' lo hi miss' = .ok r' := by
  induction budget generalizing budget' lo hi miss miss' with
  | zero => cases h
  | succ budget ih =>
    obtain ⟨rest, rfl⟩ : ∃ rest, budget' = rest + 1 := ⟨budget' - 1, by omega⟩
    have hrest : budget ≤ rest := Nat.le_of_succ_le_succ hbudget
    generalize hmid : lo + (hi - lo) / 2 = mid
    simp only [bisect, hmid] at h ⊢
    by_cases hin : distance (leverage loops mid) target ≤ ε'
    · exact ⟨mid, if_pos hin⟩
    · -- outside the wider window both take the same half
      rw [if_neg (by omega)] at h ⊢
      split_ifs at h ⊢ with hlow hlast hzero hfirst
      · exact ih _ hrest h
      · exact ih _ hrest h

section Search
variable {b b' : Bounds} {target maxLtv : Nat} {plan : Plan}

theorem ratio_relaxed {loops r : Nat} (hwindow : b.epsilon ≤ b'.epsilon)
    (hbudget : b.maxIterations ≤ b'.maxIterations) (h : ratio b target maxLtv loops = .ok r) :
    ∃ r', ratio b' target maxLtv loops = .ok r' :=
  bisect_relaxed _ hwindow hbudget h

theorem search_relaxed {count count' n : Nat} {t : Tally} (t' : Tally)
    (hwindow : b.epsilon ≤ b'.epsilon) (hbudget : b.maxIterations ≤ b'.maxIterations)
    (hcount : count ≤ count') (h : search b target maxLtv count n t = .ok plan) :
    ∃ plan', search b' target maxLtv count' n t' = .ok plan' ∧
      plan'.loopCount ≤ plan.loopCount := by
  induction count generalizing count' n t t' with
  | zero => cases h
  | succ count ih =>
    obtain ⟨rest, rfl⟩ : ∃ rest, count' = rest + 1 := ⟨count' - 1, by omega⟩
    have hrest : count ≤ rest := Nat.le_of_succ_le_succ hcount
    have hdepth : n ≤ plan.loopCount := (search_sound h).1
    cases hratio' : ratio b' target maxLtv n with
    | ok r' => exact ⟨⟨n, r'⟩, by simp only [search, hratio'], hdepth⟩
    | error miss' =>
      cases hratio : ratio b target maxLtv n with
      | ok r =>
        obtain ⟨r', hok⟩ := ratio_relaxed hwindow hbudget hratio
        rw [hratio'] at hok
        cases hok
      | error miss =>
        simp only [search, hratio] at h
        simp only [search, hratio']
        exact ih _ hrest h

theorem search_deeper {count count' n : Nat} {t : Tally} (hwindow : b'.epsilon = b.epsilon)
    (hbudget : b'.maxIterations = b.maxIterations) (hcount : count ≤ count')
    (h : search b target maxLtv count n t = .ok plan) :
    search b' target maxLtv count' n t = .ok plan := by
  induction count generalizing count' n t with
  | zero => cases h
  | succ count ih =>
    obtain ⟨rest, rfl⟩ : ∃ rest, count' = rest + 1 := ⟨count' - 1, by omega⟩
    have hrest : count ≤ rest := Nat.le_of_succ_le_succ hcount
    have hratio : ratio b' target maxLtv n = ratio b target maxLtv n := by
      rw [ratio, ratio, hwindow, hbudget]
    simp only [search] at h
    simp only [search, hratio]
    split at h
    case h_1 r hr =>
      cases h
      rfl
    case h_2 miss hmiss => exact ih hrest h

theorem firstReaching_of_le {count count' n first : Nat} (hcount : count ≤ count')
    (h : firstReaching target maxLtv count n = some first) :
    firstReaching target maxLtv count' n = some first := by
  induction count generalizing count' n with
  | zero => cases h
  | succ count ih =>
    obtain ⟨rest, rfl⟩ : ∃ rest, count' = rest + 1 := ⟨count' - 1, by omega⟩
    simp only [firstReaching] at h ⊢
    split_ifs at h ⊢ with hreach
    · exact h
    · exact ih (Nat.le_of_succ_le_succ hcount) h

end Search

section Solve
variable {b : Bounds} {target maxLtv : Nat} {plan : Plan}

theorem solve_ok_iff (hltv : maxLtv < scale) (hlow : scale + maxLtv < target) :
    solve b target maxLtv = .ok plan ↔
      ∃ first, firstReaching target maxLtv (b.maxLoopCount - 1) 2 = some first ∧
        search b target maxLtv (b.maxLoopCount + 1 - first) first ⟨0, none⟩ = .ok plan := by
  rw [solve_beyond b hltv hlow]
  cases hfirst : firstReaching target maxLtv (b.maxLoopCount - 1) 2 with
  | none => simp
  | some first =>
    cases hsearch : search b target maxLtv (b.maxLoopCount + 1 - first) first ⟨0, none⟩ with
    | ok found => simp [hsearch]
    | error t => simp [hsearch]

end Solve

/-- Bounds that allow at least as many loops, as wide a window and as many steps keep every plan that was
found, at no more loops, and it is the same plan where only the loop bound was raised. -/
theorem solve_relaxed (b b' : Bounds) {target maxLtv : Nat} {plan : Plan}
    (hloops : b.maxLoopCount ≤ b'.maxLoopCount) (hwindow : b.epsilon ≤ b'.epsilon)
    (hbudget : b.maxIterations ≤ b'.maxIterations) (h : solve b target maxLtv = .ok plan) :
    (∃ plan', solve b' target maxLtv = .ok plan' ∧ plan'.loopCount ≤ plan.loopCount) ∧
      (b'.epsilon = b.epsilon → b'.maxIterations = b.maxIterations →
        solve b' target maxLtv = .ok plan) := by
  by_cases hclosed : scale ≤ maxLtv ∨ target ≤ scale + maxLtv
  · rw [solve_closed b b' hclosed] at h
    exact ⟨⟨plan, h, le_rfl⟩, fun _ _ => h⟩
  · obtain ⟨hltv, hlow⟩ : maxLtv < scale ∧ scale + maxLtv < target := by omega
    obtain ⟨first, hfirst, hsearch⟩ := (solve_ok_iff hltv hlow).mp h
    have hcount : b.maxLoopCount + 1 - first ≤ b'.maxLoopCount + 1 - first := by omega
    have hfirst' : firstReaching target maxLtv (b'.maxLoopCount - 1) 2 = some first :=
      firstReaching_of_le (by omega) hfirst
    constructor
    · obtain ⟨plan', hsearch', hdepth⟩ :=
        search_relaxed ⟨0, none⟩ hwindow hbudget hcount hsearch
      exact ⟨plan', (solve_ok_iff hltv hlow).mpr ⟨first, hfirst', hsearch'⟩, hdepth⟩
    · intro hsame hsteps
      have hsearch' := search_deeper hsame hsteps hcount hsearch
      exact (solve_ok_iff hltv hlow).mpr ⟨first, hfirst', hsearch'⟩

/-- Under a narrow window the plan takes thirty-seven loops, the most that are allowed. Three more allowed
loops change nothing, and a wider window finds a plan of at most as many. -/
theorem solve_relaxed_steep : solve (Bounds.mk 37 100 13) 166854 9500 = .ok ⟨37, 9480⟩ ∧
    (∃ plan', solve (Bounds.mk 40 150 100) 166854 9500 = .ok plan' ∧ plan'.loopCount ≤ 37) ∧
    solve (Bounds.mk 40 100 13) 166854 9500 = .ok ⟨37, 9480⟩ := by
  have hsolve : solve (Bounds.mk 37 100 13) 166854 9500 = .ok ⟨37, 9480⟩ := by decide +kernel
  have hwider := solve_relaxed _ (Bounds.mk 40 150 100) (by decide) (by decide) (by decide) hsolve
  have hdeeper := solve_relaxed _ (Bounds.mk 40 100 13) (by decide) (by decide) (by decide) hsolve
  exact ⟨hsolve, hwider.1, hdeeper.2 rfl rfl⟩

end Gearing.Solver
