import Gearing.Proofs.Leverage
import Gearing.Solver
import Mathlib.Order.Bounds.Basic
import Mathlib.Tactic.SplitIfs

/-!
What the solver finds. The leverage is monotone in the ratio, so the half that a bisection drops holds
nothing nearer to the target than the middle that it looked at, and fourteen steps exhaust every ratio
below `scale`. A loop count is therefore passed over only when no ratio within the limit serves it.
-/
namespace Gearing.Solver
open Leverage

/-- Some ratio within the limit puts `n` loops inside the window around the target. -/
def Reaches (ε target maxLtv n : Nat) : Prop :=
  ∃ r ≤ maxLtv, distance (leverage n r) target ≤ ε

theorem bisect_ok {ε target loops budget lo hi r : Nat} {miss : Miss} (h : lo ≤ hi)
    (hr : bisect ε target loops budget lo hi miss = .ok r) :
    r ≤ hi ∧ distance (leverage loops r) target ≤ ε := by
  induction budget generalizing lo hi miss with
  | zero => cases hr
  | succ budget ih =>
    simp only [bisect] at hr
    split_ifs at hr with hwin hlow hlast hzero hfirst
    · cases hr
      exact ⟨by omega, hwin⟩
    · exact ih (by omega) hr
    · obtain ⟨hle, hin⟩ := ih (by omega) hr
      exact ⟨by omega, hin⟩

theorem distance_le_of_below {a c target : Nat} (hac : a ≤ c) (hc : c ≤ target) :
    distance c target ≤ distance a target := by
  simp only [distance]
  omega

theorem distance_le_of_above {a c target : Nat} (ha : target ≤ a) (hac : a ≤ c) :
    distance a target ≤ distance c target := by
  simp only [distance]
  omega

theorem nearer_eq (target closest value : Nat) :
    nearer target closest value = closest ∨ nearer target closest value = value := by
  unfold nearer
  split
  · exact .inr rfl
  · exact .inl rfl

theorem distance_nearer (target closest value : Nat) :
    distance (nearer target closest value) target ≤ distance closest target ∧
      distance (nearer target closest value) target ≤ distance value target := by
  unfold nearer
  split <;> omega

/-- A miss after one more leverage was looked at. -/
def Miss.probe (target : Nat) (miss : Miss) (value : Nat) : Miss :=
  ⟨miss.iterations + 1, nearer target miss.closest value⟩

/-- A look at `mid` leaves the bracket from `lo'` to `hi'` of the one from `lo` to `hi`: at most half of it,
and no ratio that it drops is nearer to the target than `mid`. -/
structure Halves (target loops mid lo hi lo' hi' : Nat) : Prop where
  hi_le : hi' ≤ hi
  size_le : 2 * (hi' + 1 - lo') ≤ hi + 1 - lo
  kept_or_farther : ∀ r, lo ≤ r → r ≤ hi → (lo' ≤ r ∧ r ≤ hi') ∨
    distance (leverage loops mid) target ≤ distance (leverage loops r) target

section Halves
variable {target loops mid lo hi : Nat}

theorem halves_above (hle : lo ≤ hi) (hmid : mid = lo + (hi - lo) / 2)
    (hlow : leverage loops mid < target) : Halves target loops mid lo hi (mid + 1) hi := by
  refine ⟨le_rfl, by omega, fun r _ hr => ?_⟩
  rcases Nat.lt_or_ge mid r with hlt | hge
  · exact .inl ⟨hlt, hr⟩
  · exact .inr (distance_le_of_below (leverage_mono le_rfl hge) hlow.le)

theorem halves_below (hmid : mid = lo + (hi - lo) / 2) (hlo : lo < mid)
    (hhigh : target ≤ leverage loops mid) : Halves target loops mid lo hi lo (mid - 1) := by
  refine ⟨by omega, by omega, fun r hr _ => ?_⟩
  rcases Nat.lt_or_ge r mid with hlt | hge
  · exact .inl ⟨hr, by omega⟩
  · exact .inr (distance_le_of_above hhigh (leverage_mono le_rfl hge))

theorem halves_none (hle : lo ≤ hi) (hmid : mid = lo) (hhigh : target ≤ leverage loops mid) :
    Halves target loops mid lo hi (lo + 1) lo := by
  subst hmid
  refine ⟨hle, by omega, fun r hr _ => .inr ?_⟩
  exact distance_le_of_above hhigh (leverage_mono le_rfl hr)

end Halves

/-- A step outside the window halves the bracket, on the side that the leverage at the middle tells, and
ends the search where nothing is left of it. -/
theorem bisect_missed {ε target loops budget lo hi : Nat} {miss miss' : Miss} (hle : lo ≤ hi)
    (h : bisect ε target loops (budget + 1) lo hi miss = .error miss') :
    ∃ mid ≤ hi, ε < distance (leverage loops mid) target ∧
      ∃ lo' hi', Halves target loops mid lo hi lo' hi' ∧
        ((hi' < lo' ∧ miss' = miss.probe target (leverage loops mid)) ∨
          (lo' ≤ hi' ∧ bisect ε target loops budget lo' hi'
            (miss.probe target (leverage loops mid)) = .error miss')) := by
  obtain ⟨mid, hmid⟩ : ∃ mid, mid = lo + (hi - lo) / 2 := ⟨_, rfl⟩
  simp only [bisect, ← hmid] at h
  refine ⟨mid, by omega, ?_⟩
  split_ifs at h with hwin hside hlast hzero hfirst
  all_goals refine ⟨Nat.lt_of_not_le hwin, ?_⟩
  · cases h
    exact ⟨mid + 1, hi, halves_above hle hmid hside, .inl ⟨hlast, rfl⟩⟩
  · exact ⟨mid + 1, hi, halves_above hle hmid hside, .inr ⟨Nat.le_of_not_lt hlast, h⟩⟩
  all_goals have hhigh : target ≤ leverage loops mid := Nat.le_of_not_lt hside
  · cases h
    exact ⟨lo + 1, lo, halves_none hle (by omega) hhigh, .inl ⟨Nat.lt_succ_self lo, rfl⟩⟩
  · cases h
    exact ⟨lo + 1, lo, halves_none hle (by omega) hhigh, .inl ⟨Nat.lt_succ_self lo, rfl⟩⟩
  · exact ⟨lo, mid - 1, halves_below hmid (by omega) hhigh, .inr ⟨Nat.le_of_not_lt hfirst, h⟩⟩

/-- A bisection that runs its bracket down has looked, for every ratio in it, at one that is as near to
the target, and the miss keeps the nearest of all of them. -/
theorem bisect_exhausted {ε target loops budget lo hi : Nat} {miss miss' : Miss} (hle : lo ≤ hi)
    (hbudget : hi + 1 - lo < 2 ^ budget)
    (h : bisect ε target loops budget lo hi miss = .error miss') :
    (miss'.closest = miss.closest ∨ ∃ r ≤ hi, leverage loops r = miss'.closest) ∧
      distance miss'.closest target ≤ distance miss.closest target ∧
      ∀ r, lo ≤ r → r ≤ hi → ε < distance (leverage loops r) target ∧
        distance miss'.closest target ≤ distance (leverage loops r) target := by
  induction budget generalizing lo hi miss with
  | zero => omega
  | succ budget ih =>
    obtain ⟨mid, hmid, hwin, lo', hi', hhalf, hrest⟩ := bisect_missed hle h
    have hsize : hi' + 1 - lo' < 2 ^ budget := by
      have hhalved := hhalf.size_le
      rw [Nat.pow_succ] at hbudget
      omega
    obtain ⟨hkept, hprobed⟩ := distance_nearer target miss.closest (leverage loops mid)
    have hsource : (miss.probe target (leverage loops mid)).closest = miss.closest ∨
        ∃ r ≤ hi, leverage loops r = (miss.probe target (leverage loops mid)).closest :=
      (nearer_eq target miss.closest (leverage loops mid)).imp_right
        fun hnew => ⟨mid, hmid, hnew.symm⟩
    rcases hrest with ⟨hempty, rfl⟩ | ⟨hle', hrec⟩
    · refine ⟨hsource, hkept, fun r hlo hr => ?_⟩
      obtain hin | hfar := hhalf.kept_or_farther r hlo hr
      · omega
      · exact ⟨hwin.trans_le hfar, hprobed.trans hfar⟩
    · obtain ⟨hfound, hnear, hall⟩ := ih hle' hsize hrec
      refine ⟨?_, hnear.trans hkept, fun r hlo hr => ?_⟩
      · obtain heq | ⟨r, hr, hr'⟩ := hfound
        · rwa [heq]
        · exact .inr ⟨r, hr.trans hhalf.hi_le, hr'⟩
      · obtain ⟨hlo', hr'⟩ | hfar := hhalf.kept_or_farther r hlo hr
        · exact hall r hlo' hr'
        · exact ⟨hwin.trans_le hfar, hnear.trans (hprobed.trans hfar)⟩

theorem ratio_ok {b : Bounds} {target maxLtv loops r : Nat}
    (h : ratio b target maxLtv loops = .ok r) :
    r ≤ maxLtv ∧ distance (leverage loops r) target ≤ b.epsilon :=
  bisect_ok (Nat.zero_le maxLtv) h

/-- Fourteen steps are enough: there are fewer than `2 ^ 14` ratios below `scale`. -/
theorem ratio_error {b : Bounds} {target maxLtv loops : Nat} {miss : Miss}
    (hltv : maxLtv < scale) (hbudget : 14 ≤ b.maxIterations)
    (h : ratio b target maxLtv loops = .error miss) :
    (∃ r ≤ maxLtv, leverage loops r = miss.closest) ∧
      ∀ r ≤ maxLtv, b.epsilon < distance (leverage loops r) target ∧
        distance miss.closest target ≤ distance (leverage loops r) target := by
  have hs : scale = 10000 := rfl
  have hpow : 2 ^ 14 ≤ 2 ^ b.maxIterations := Nat.pow_le_pow_right (by omega) hbudget
  have hsize : maxLtv + 1 - 0 < 2 ^ b.maxIterations := by omega
  obtain ⟨hsource, -, hall⟩ := bisect_exhausted (Nat.zero_le maxLtv) hsize h
  refine ⟨?_, fun r hr => hall r (Nat.zero_le r) hr⟩
  obtain hstart | hfound := hsource
  · exact ⟨0, Nat.zero_le maxLtv, (leverage_ratio_zero loops).trans hstart.symm⟩
  · exact hfound

theorem not_reaches_of_ratio {b : Bounds} {target maxLtv loops : Nat} {miss : Miss}
    (hltv : maxLtv < scale) (hbudget : 14 ≤ b.maxIterations)
    (h : ratio b target maxLtv loops = .error miss) :
    ¬ Reaches b.epsilon target maxLtv loops := by
  intro ⟨r, hle, hr⟩
  obtain ⟨hwin, -⟩ := (ratio_error hltv hbudget h).2 r hle
  omega

theorem firstReaching_some {target maxLtv count n first : Nat}
    (h : firstReaching target maxLtv count n = some first) :
    n ≤ first ∧ first < n + count ∧ target ≤ leverage first maxLtv ∧
      ∀ m, n ≤ m → m < first → leverage m maxLtv < target := by
  induction count generalizing n with
  | zero => cases h
  | succ count ih =>
    simp only [firstReaching] at h
    split_ifs at h with hn
    · cases h
      exact ⟨by omega, by omega, hn, by omega⟩
    · obtain ⟨hle, hlt, hreach, hmin⟩ := ih h
      refine ⟨by omega, by omega, hreach, fun m hnm hm => ?_⟩
      by_cases he : m = n
      · subst he
        omega
      · exact hmin m (by omega) hm

theorem isLeast_of_firstReaching {target maxLtv count first : Nat}
    (h : firstReaching target maxLtv count 2 = some first) :
    IsLeast {n | 2 ≤ n ∧ target ≤ leverage n maxLtv} first := by
  obtain ⟨hle, -, hreach, hmin⟩ := firstReaching_some h
  refine ⟨⟨hle, hreach⟩, fun n ⟨hn, ht⟩ => ?_⟩
  by_contra hlt
  have hbelow := hmin n hn (Nat.lt_of_not_le hlt)
  omega

theorem firstReaching_none {target maxLtv count n m : Nat}
    (h : firstReaching target maxLtv count n = none) (hn : n ≤ m) (hm : m < n + count) :
    leverage m maxLtv < target := by
  induction count generalizing n with
  | zero => omega
  | succ count ih =>
    simp only [firstReaching] at h
    split_ifs at h with hreach
    by_cases he : m = n
    · subst he
      omega
    · exact ih h (by omega) (by omega)

section Search
variable {b : Bounds} {target maxLtv : Nat}

theorem search_sound {count n : Nat} {t : Tally} {plan : Plan}
    (h : search b target maxLtv count n t = .ok plan) :
    n ≤ plan.loopCount ∧ plan.loopCount < n + count ∧ plan.borrowRatio ≤ maxLtv ∧
      distance plan.leverage target ≤ b.epsilon := by
  induction count generalizing n t with
  | zero => cases h
  | succ count ih =>
    simp only [search] at h
    split at h
    case h_1 r hr =>
      cases h
      obtain ⟨hle, hin⟩ := ratio_ok hr
      exact ⟨le_rfl, Nat.lt_add_of_pos_right (Nat.succ_pos count), hle, hin⟩
    case h_2 miss hmiss =>
      obtain ⟨hle, hlt, hrest⟩ := ih h
      exact ⟨by omega, by omega, hrest⟩

theorem not_reaches_of_passed {count n m : Nat} {t : Tally} {answer : Except Tally Plan}
    (hltv : maxLtv < scale) (hbudget : 14 ≤ b.maxIterations)
    (h : search b target maxLtv count n t = answer) (hn : n ≤ m) (hm : m < n + count)
    (hpassed : ∀ plan, answer = .ok plan → m < plan.loopCount) :
    ¬ Reaches b.epsilon target maxLtv m := by
  induction count generalizing n t with
  | zero => omega
  | succ count ih =>
    simp only [search] at h
    split at h
    case h_1 r hr =>
      have hlt : m < n := hpassed ⟨n, r⟩ h.symm
      omega
    case h_2 miss hmiss =>
      by_cases he : m = n
      · subst he
        exact not_reaches_of_ratio hltv hbudget hmiss
      · exact ih h (by omega) (by omega)

theorem solve_beyond (b : Bounds) (hltv : maxLtv < scale) (hlow : scale + maxLtv < target) :
    solve b target maxLtv =
      match firstReaching target maxLtv (b.maxLoopCount - 1) 2 with
      | none => .error (.leverageTooHigh target (maxAchievable b maxLtv) b.maxLoopCount)
      | some first =>
        match search b target maxLtv (b.maxLoopCount + 1 - first) first ⟨0, none⟩ with
        | .ok plan => .ok plan
        | .error t =>
          let (loops, closest) := t.nearest.getD (first, scale)
          .error (.convergence target loops t.iterations closest) := by
  have hbelow : ¬ target < scale := by omega
  have hone : ¬ target = scale := by omega
  have hclosed : ¬ target ≤ scale + maxLtv := by omega
  unfold solve
  exact (if_neg (Nat.not_le_of_lt hltv)).trans
    ((if_neg hbelow).trans ((if_neg hone).trans (if_neg hclosed)))

theorem solve_closed (b b' : Bounds) (h : scale ≤ maxLtv ∨ target ≤ scale + maxLtv) :
    solve b target maxLtv = solve b' target maxLtv := by
  unfold solve
  split_ifs with hltv hbelow hone hclosed
  · rfl
  · rfl
  · rfl
  · rfl
  · omega

theorem beyond_of_error {e : EngineError} (h : solve b target maxLtv = .error e)
    (hvalid : ∀ cause, e ≠ .invalid cause) : maxLtv < scale ∧ scale + maxLtv < target := by
  unfold solve at h
  split_ifs at h with hltv hbelow hone hclosed
  · cases h
    exact absurd rfl (hvalid _)
  · cases h
    exact absurd rfl (hvalid _)
  · exact ⟨by omega, by omega⟩

theorem solve_eq_search (hltv : maxLtv < scale) (hlow : scale + maxLtv < target)
    (hhigh : target ≤ leverage b.maxLoopCount maxLtv) :
    ∃ first, IsLeast {n | 2 ≤ n ∧ target ≤ leverage n maxLtv} first ∧ first ≤ b.maxLoopCount ∧
      solve b target maxLtv =
        match search b target maxLtv (b.maxLoopCount + 1 - first) first ⟨0, none⟩ with
        | .ok plan => .ok plan
        | .error t =>
          let (loops, closest) := t.nearest.getD (first, scale)
          .error (.convergence target loops t.iterations closest) := by
  have htwo : 2 ≤ b.maxLoopCount := by
    by_contra h
    have hle : leverage b.maxLoopCount maxLtv ≤ leverage 1 maxLtv := leverage_mono (by omega) le_rfl
    rw [leverage_one hltv] at hle
    omega
  cases hfirst : firstReaching target maxLtv (b.maxLoopCount - 1) 2 with
  | none =>
    have := firstReaching_none hfirst htwo (by omega)
    omega
  | some first =>
    obtain ⟨-, hlt, -⟩ := firstReaching_some hfirst
    exact ⟨first, isLeast_of_firstReaching hfirst, by omega, by rw [solve_beyond b hltv hlow, hfirst]⟩

end Search

/-- What the solver answers beyond the closed forms: the fewest loops from the first useful count on
that some ratio brings inside the window, or a failure to converge when there are none. -/
theorem solve_search (b : Bounds) (target maxLtv : Nat) (hltv : maxLtv < scale)
    (hbudget : 14 ≤ b.maxIterations) (hlow : scale + maxLtv < target)
    (hhigh : target ≤ leverage b.maxLoopCount maxLtv) :
    ∃ first, IsLeast {n | 2 ≤ n ∧ target ≤ leverage n maxLtv} first ∧
      ((∃ plan, solve b target maxLtv = .ok plan ∧
          IsLeast {n | first ≤ n ∧ n ≤ b.maxLoopCount ∧ Reaches b.epsilon target maxLtv n}
            plan.loopCount) ∨
        (∃ loops iterations closest,
          solve b target maxLtv = .error (.convergence target loops iterations closest)) ∧
          ∀ n, first ≤ n → n ≤ b.maxLoopCount → ¬ Reaches b.epsilon target maxLtv n) := by
  obtain ⟨first, hleast, hbound, hsolve⟩ := solve_eq_search hltv hlow hhigh
  refine ⟨first, hleast, ?_⟩
  cases hsearch : search b target maxLtv (b.maxLoopCount + 1 - first) first ⟨0, none⟩ with
  | ok plan =>
    obtain ⟨hle, hlt, hratio, hwindow⟩ := search_sound hsearch
    refine .inl ⟨plan, by rw [hsolve, hsearch],
      ⟨hle, by omega, plan.borrowRatio, hratio, hwindow⟩, ?_⟩
    intro n ⟨hn, hmax, hr⟩
    by_contra h
    refine not_reaches_of_passed hltv hbudget hsearch hn (by omega) (fun plan' hplan' => ?_) hr
    cases hplan'
    exact Nat.lt_of_not_le h
  | error t =>
    refine .inr ⟨⟨_, _, _, by rw [hsolve, hsearch]⟩, fun n hn hm => ?_⟩
    exact not_reaches_of_passed hltv hbudget hsearch hn (by omega) (fun _ => nofun)

/-- A leverage that `n` loops have at a ratio within the limit is solved exactly at `n` loops or fewer,
however narrow the window. -/
theorem solve_leverage (b : Bounds) {maxLtv n r : Nat} (hltv : maxLtv < scale)
    (hbudget : 14 ≤ b.maxIterations) (hn : n ≤ b.maxLoopCount) (hr : r ≤ maxLtv) :
    ∃ plan, solve b (leverage n r) maxLtv = .ok plan ∧ plan.loopCount ≤ n := by
  have hbase : scale ≤ leverage n r := scale_le_leverage n r
  by_cases hone : leverage n r ≤ scale + maxLtv
  · by_cases hz : leverage n r = scale
    · exact ⟨⟨0, 0⟩, by simp only [solve, if_neg (Nat.not_le_of_lt hltv),
        if_neg (Nat.not_lt_of_le hbase), if_pos hz], Nat.zero_le n⟩
    · refine ⟨⟨1, leverage n r - scale⟩, by simp only [solve, if_neg (Nat.not_le_of_lt hltv),
        if_neg (Nat.not_lt_of_le hbase), if_neg hz, if_pos hone], ?_⟩
      cases n with
      | zero => exact absurd (leverage_zero r) hz
      | succ n => exact Nat.succ_le_succ (Nat.zero_le n)
  · obtain ⟨first, hleast, h⟩ := solve_search b (leverage n r) maxLtv hltv hbudget (by omega)
      (leverage_mono hn hr)
    have htwo : 2 ≤ n := by
      by_contra hlt
      have hle : leverage n r ≤ leverage 1 maxLtv := leverage_mono (by omega) hr
      rw [leverage_one hltv] at hle
      omega
    have hfirst : first ≤ n := hleast.2 ⟨htwo, leverage_mono le_rfl hr⟩
    have hreach : Reaches b.epsilon (leverage n r) maxLtv n := ⟨r, hr, by simp [distance]⟩
    obtain ⟨plan, hok, hmin⟩ | ⟨_, hnone⟩ := h
    · exact ⟨plan, hok, hmin.2 ⟨hfirst, hn, hreach⟩⟩
    · exact absurd hreach (hnone n hfirst hn)

/-- A target beyond the closed forms is solved exactly when some ratio serves it at some loop count from
the first useful one on, with the least such count; and every leverage that exists within the limits
is a target that is solved. -/
theorem solve_exact (b : Bounds) (maxLtv : Nat) (hltv : maxLtv < scale)
    (hbudget : 14 ≤ b.maxIterations) :
    (∀ target, scale + maxLtv < target → target ≤ leverage b.maxLoopCount maxLtv →
      ∃ first, IsLeast {n | 2 ≤ n ∧ target ≤ leverage n maxLtv} first ∧
        ((∃ plan, solve b target maxLtv = .ok plan) ↔
          ∃ n, first ≤ n ∧ n ≤ b.maxLoopCount ∧ Reaches b.epsilon target maxLtv n) ∧
        (∀ plan, solve b target maxLtv = .ok plan →
          IsLeast {n | first ≤ n ∧ n ≤ b.maxLoopCount ∧ Reaches b.epsilon target maxLtv n}
            plan.loopCount) ∧
        ((¬ ∃ plan, solve b target maxLtv = .ok plan) → ∃ loops iterations closest,
          solve b target maxLtv = .error (.convergence target loops iterations closest))) ∧
      ∀ n ≤ b.maxLoopCount, ∀ r ≤ maxLtv,
        ∃ plan, solve b (leverage n r) maxLtv = .ok plan ∧ plan.loopCount ≤ n := by
  refine ⟨fun target hlow hhigh => ?_, fun n hn r hr => solve_leverage b hltv hbudget hn hr⟩
  obtain ⟨first, hleast, h⟩ := solve_search b target maxLtv hltv hbudget hlow hhigh
  refine ⟨first, hleast, ?_⟩
  obtain ⟨plan, hok, hmin⟩ | ⟨⟨loops, iterations, closest, herr⟩, hnone⟩ := h
  · refine ⟨⟨fun _ => ⟨_, hmin.1⟩, fun _ => ⟨plan, hok⟩⟩, fun plan' hok' => ?_, ?_⟩
    · rw [hok] at hok'
      cases hok'
      exact hmin
    · exact fun hno => absurd ⟨plan, hok⟩ hno
  · have hno : ¬ ∃ plan, solve b target maxLtv = .ok plan := by
      rintro ⟨plan, hok⟩
      rw [herr] at hok
      cases hok
    refine ⟨⟨fun h => absurd h hno, ?_⟩, fun plan hok => absurd ⟨plan, hok⟩ hno, ?_⟩
    · rintro ⟨n, hn, hm, hr⟩
      exact absurd hr (hnone n hn hm)
    · exact fun _ => ⟨loops, iterations, closest, herr⟩

theorem solve_exact_eighty : 8000 < scale ∧ 14 ≤ ({ epsilon := 0 } : Bounds).maxIterations ∧
    scale + 8000 < 30000 ∧ 30000 ≤ leverage ({ epsilon := 0 } : Bounds).maxLoopCount 8000 ∧
    (∃ first, IsLeast {n | 2 ≤ n ∧ 30000 ≤ leverage n 8000} first ∧
      ∀ plan, solve { epsilon := 0 } 30000 8000 = .ok plan →
        IsLeast {n | first ≤ n ∧ n ≤ 40 ∧ Reaches 0 30000 8000 n} plan.loopCount) ∧
    ∃ plan, solve { epsilon := 0 } (leverage 7 7999) 8000 = .ok plan ∧ plan.loopCount ≤ 7 := by
  have hltv : 8000 < scale := by decide
  have hbudget : 14 ≤ ({ epsilon := 0 } : Bounds).maxIterations := by decide
  have hlow : scale + 8000 < 30000 := by decide
  have hhigh : 30000 ≤ leverage ({ epsilon := 0 } : Bounds).maxLoopCount 8000 := by decide +kernel
  have h := solve_exact { epsilon := 0 } 8000 hltv hbudget
  obtain ⟨first, hleast, -, hmin, -⟩ := h.1 30000 hlow hhigh
  exact ⟨hltv, hbudget, hlow, hhigh, ⟨first, hleast, hmin⟩,
    h.2 7 (by decide) 7999 (by decide)⟩

section Sound
variable {b : Bounds} {target maxLtv : Nat} {plan : Plan}

theorem solve_ok (h : solve b target maxLtv = .ok plan) :
    maxLtv < scale ∧
      ((target = scale ∧ plan = ⟨0, 0⟩) ∨
        (scale < target ∧ target ≤ scale + maxLtv ∧ plan = ⟨1, target - scale⟩) ∨
        (scale + maxLtv < target ∧ ∃ first t, first ≤ b.maxLoopCount ∧
          search b target maxLtv (b.maxLoopCount + 1 - first) first t = .ok plan)) := by
  unfold solve at h
  split_ifs at h with hltv hbelow hone hclosed
  · cases h
    exact ⟨by omega, .inl ⟨hone, rfl⟩⟩
  · cases h
    exact ⟨by omega, .inr (.inl ⟨by omega, hclosed, rfl⟩)⟩
  · split at h
    · cases h
    · rename_i first hfirst
      obtain ⟨hle, hlt, -⟩ := firstReaching_some hfirst
      split at h
      · rename_i found hsearch
        cases h
        exact ⟨by omega, .inr (.inr ⟨by omega, first, _, by omega, hsearch⟩)⟩
      · cases h

theorem borrowRatio_le_of_solve (h : solve b target maxLtv = .ok plan) :
    plan.borrowRatio ≤ maxLtv := by
  obtain ⟨-, ⟨-, rfl⟩ | ⟨hlow, hhigh, rfl⟩ | ⟨-, first, t, -, hsearch⟩⟩ := solve_ok h
  · exact Nat.zero_le maxLtv
  · show target - scale ≤ maxLtv
    omega
  · exact (search_sound hsearch).2.2.1

theorem loopCount_le_of_solve (hloops : 1 ≤ b.maxLoopCount) (h : solve b target maxLtv = .ok plan) :
    plan.loopCount ≤ b.maxLoopCount := by
  obtain ⟨-, ⟨-, rfl⟩ | ⟨-, -, rfl⟩ | ⟨-, first, t, hfirst, hsearch⟩⟩ := solve_ok h
  · exact Nat.zero_le b.maxLoopCount
  · exact hloops
  · have hlt := (search_sound hsearch).2.1
    omega

theorem leverage_eq_of_solve (h : solve b target maxLtv = .ok plan)
    (hclosed : target ≤ scale + maxLtv) : plan.leverage = target := by
  obtain ⟨hltv, ⟨rfl, rfl⟩ | ⟨hlow, -, rfl⟩ | ⟨hhigh, -⟩⟩ := solve_ok h
  · exact leverage_zero 0
  · have hratio : target - scale < scale := by omega
    have hone : Plan.leverage ⟨1, target - scale⟩ = scale + (target - scale) := leverage_one hratio
    omega
  · omega

theorem distance_le_of_solve (h : solve b target maxLtv = .ok plan) :
    distance plan.leverage target ≤ b.epsilon := by
  by_cases hclosed : target ≤ scale + maxLtv
  · have hexact := leverage_eq_of_solve h hclosed
    simp [distance, hexact]
  · obtain ⟨-, ⟨hone, -⟩ | ⟨-, hhigh, -⟩ | ⟨-, first, t, -, hsearch⟩⟩ := solve_ok h
    · omega
    · omega
    · exact (search_sound hsearch).2.2.2

/-- Every plan that is answered keeps both bounds and lies inside the window, however small the window
and the budget, and a closed form hits its target. -/
theorem solve_sound (hloops : 1 ≤ b.maxLoopCount) (h : solve b target maxLtv = .ok plan) :
    plan.borrowRatio ≤ maxLtv ∧ plan.loopCount ≤ b.maxLoopCount ∧
      distance plan.leverage target ≤ b.epsilon ∧
      (target ≤ scale + maxLtv → plan.leverage = target) :=
  ⟨borrowRatio_le_of_solve h, loopCount_le_of_solve hloops h, distance_le_of_solve h,
    leverage_eq_of_solve h⟩

/-- Thirty-five loops reach this target at the limit, but no ratio brings them into the window. -/
theorem solve_sound_steep : 1 ≤ ({} : Bounds).maxLoopCount ∧
    solve {} 166854 9500 = .ok ⟨37, 9480⟩ ∧ 9480 ≤ 9500 ∧ 37 ≤ ({} : Bounds).maxLoopCount ∧
    distance (Plan.leverage ⟨37, 9480⟩) 166854 ≤ ({} : Bounds).epsilon := by
  have hloops : 1 ≤ ({} : Bounds).maxLoopCount := by decide
  have hsolve : solve {} 166854 9500 = .ok ⟨37, 9480⟩ := by decide +kernel
  obtain ⟨hratio, hcount, hwindow, -⟩ := solve_sound hloops hsolve
  exact ⟨hloops, hsolve, hratio, hcount, hwindow⟩

end Sound

end Gearing.Solver
