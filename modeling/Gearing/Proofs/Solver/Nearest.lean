import Gearing.Proofs.Solver

/-!
What a failure to converge reports. Every bisection hands over the leverage of its loop count that is
nearest to the target, and the tally lets a later loop count take over only when it is strictly nearer.
So the report names the nearest leverage of the whole range, at the fewest loops that have it.
-/
namespace Gearing.Solver
open Leverage

/-- `value` is a leverage of `n` loops within the limit, and none of them is nearer to the target. -/
structure NearestAt (target maxLtv n value : Nat) : Prop where
  attained : ∃ r ≤ maxLtv, leverage n r = value
  least : ∀ r ≤ maxLtv, distance value target ≤ distance (leverage n r) target

/-- Of the loop counts from `first` up to `next`, not included, `loops` is the first that comes as near to
the target as any of them does, and `closest` is a leverage by which it does. -/
structure FirstNearest (target maxLtv first next loops closest : Nat) : Prop where
  first_le : first ≤ loops
  lt_next : loops < next
  attained : ∃ r ≤ maxLtv, leverage loops r = closest
  least : ∀ n, first ≤ n → n < next → ∀ r ≤ maxLtv,
    distance closest target ≤ distance (leverage n r) target
  strict : ∀ n, first ≤ n → n < loops → ∀ r ≤ maxLtv,
    distance closest target < distance (leverage n r) target

section Nearest
variable {target maxLtv first next loops closest value : Nat}

theorem NearestAt.start (h : NearestAt target maxLtv first value) :
    FirstNearest target maxLtv first (first + 1) first value where
  first_le := le_rfl
  lt_next := Nat.lt_succ_self first
  attained := h.attained
  least := by
    intro n hn hlt r hr
    obtain rfl : n = first := by omega
    exact h.least r hr
  strict := by
    intro n hn hlt
    omega

theorem FirstNearest.keep (h : FirstNearest target maxLtv first next loops closest)
    (hnext : NearestAt target maxLtv next value)
    (hfarther : ¬ distance value target < distance closest target) :
    FirstNearest target maxLtv first (next + 1) loops closest where
  first_le := h.first_le
  lt_next := Nat.lt_succ_of_lt h.lt_next
  attained := h.attained
  least := by
    intro n hn hlt r hr
    by_cases hlast : n = next
    · subst hlast
      exact (Nat.le_of_not_lt hfarther).trans (hnext.least r hr)
    · exact h.least n hn (by omega) r hr
  strict := h.strict

theorem FirstNearest.replace (h : FirstNearest target maxLtv first next loops closest)
    (hnext : NearestAt target maxLtv next value)
    (hnearer : distance value target < distance closest target) :
    FirstNearest target maxLtv first (next + 1) next value := by
  have hstrict : ∀ n, first ≤ n → n < next → ∀ r ≤ maxLtv,
      distance value target < distance (leverage n r) target :=
    fun n hn hlt r hr => hnearer.trans_le (h.least n hn hlt r hr)
  refine ⟨h.first_le.trans h.lt_next.le, Nat.lt_succ_self next, hnext.attained, ?_, hstrict⟩
  intro n hn hlt r hr
  by_cases hlast : n = next
  · subst hlast
    exact hnext.least r hr
  · exact (hstrict n hn (by omega) r hr).le

end Nearest

theorem nearestAt_of_ratio {b : Bounds} {target maxLtv loops : Nat} {miss : Miss}
    (hltv : maxLtv < scale) (hbudget : 14 ≤ b.maxIterations)
    (h : ratio b target maxLtv loops = .error miss) :
    NearestAt target maxLtv loops miss.closest := by
  obtain ⟨hvalue, hall⟩ := ratio_error hltv hbudget h
  exact ⟨hvalue, fun r hr => (hall r hr).2⟩

/-- A failed bisection takes at most `k` steps on a bracket of fewer than `2 ^ k` ratios, however many it
was allowed. -/
theorem iterations_le_of_bisect {ε target loops budget lo hi k : Nat} {miss miss' : Miss}
    (hle : lo ≤ hi) (hsize : hi + 1 - lo < 2 ^ k)
    (h : bisect ε target loops budget lo hi miss = .error miss') :
    miss'.iterations ≤ miss.iterations + k := by
  induction budget generalizing lo hi miss k with
  | zero =>
    cases h
    exact Nat.le_add_right _ _
  | succ budget ih =>
    obtain ⟨mid, -, -, lo', hi', hhalf, hrest⟩ := bisect_missed hle h
    have hhalved := hhalf.size_le
    cases k with
    | zero => omega
    | succ k =>
      have hprobe : (miss.probe target (leverage loops mid)).iterations = miss.iterations + 1 := rfl
      rcases hrest with ⟨-, rfl⟩ | ⟨hle', hrec⟩
      · omega
      · have hsize' : hi' + 1 - lo' < 2 ^ k := by
          rw [Nat.pow_succ] at hsize
          omega
        have hsteps := ih hle' hsize' hrec
        omega

/-- The tally of the loop counts from `first` up to `next`: at most fourteen steps for each, and the first
of them that comes nearest to the target. -/
structure Tally.Covers (target maxLtv first next : Nat) (t : Tally) : Prop where
  iterations_le : t.iterations ≤ 14 * (next - first)
  nearest :
    match t.nearest with
    | none => next = first
    | some (loops, closest) => FirstNearest target maxLtv first next loops closest

section Covers
variable {b : Bounds} {target maxLtv first next : Nat} {t t' : Tally}

theorem Tally.covers_empty : Tally.Covers target maxLtv first first ⟨0, none⟩ :=
  ⟨Nat.zero_le _, rfl⟩

theorem Tally.Covers.add {miss : Miss} (hltv : maxLtv < scale) (hbudget : 14 ≤ b.maxIterations)
    (ht : t.Covers target maxLtv first next) (hfirst : first ≤ next)
    (hmiss : ratio b target maxLtv next = .error miss) :
    (t.add target next miss).Covers target maxLtv first (next + 1) := by
  have hscale : scale = 10000 := rfl
  have hsteps : miss.iterations ≤ 0 + 14 :=
    iterations_le_of_bisect (Nat.zero_le maxLtv) (by omega) hmiss
  have htaken := ht.iterations_le
  have hsum : (t.add target next miss).iterations = t.iterations + miss.iterations := rfl
  have hnext := nearestAt_of_ratio hltv hbudget hmiss
  have hbest := ht.nearest
  refine ⟨by omega, ?_⟩
  cases hnearest : t.nearest with
  | none =>
    simp only [hnearest] at hbest
    subst hbest
    simp only [Tally.add, hnearest]
    exact hnext.start
  | some best =>
    simp only [hnearest] at hbest
    simp only [Tally.add, hnearest]
    by_cases hnearer : distance miss.closest target < distance best.2 target
    · simp only [if_pos hnearer]
      exact hbest.replace hnext hnearer
    · simp only [if_neg hnearer]
      exact hbest.keep hnext hnearer

theorem search_covers {count : Nat} (hltv : maxLtv < scale) (hbudget : 14 ≤ b.maxIterations)
    (ht : t.Covers target maxLtv first next) (hfirst : first ≤ next)
    (h : search b target maxLtv count next t = .error t') :
    t'.Covers target maxLtv first (next + count) := by
  induction count generalizing next t with
  | zero =>
    cases h
    exact ht
  | succ count ih =>
    simp only [search] at h
    split at h
    case h_1 r hr => cases h
    case h_2 miss hmiss =>
      have hnext := ht.add hltv hbudget hfirst hmiss
      rw [Nat.add_comm count 1, ← Nat.add_assoc]
      exact ih hnext (Nat.le_succ_of_le hfirst) h

end Covers

theorem search_of_convergence {b : Bounds} {target maxLtv t loops iterations closest : Nat}
    (h : solve b target maxLtv = .error (.convergence t loops iterations closest)) :
    maxLtv < scale ∧ t = target ∧ ∃ first tally,
      IsLeast {n | 2 ≤ n ∧ target ≤ leverage n maxLtv} first ∧ first ≤ b.maxLoopCount ∧
      search b target maxLtv (b.maxLoopCount + 1 - first) first ⟨0, none⟩ = .error tally ∧
      tally.iterations = iterations ∧ tally.nearest.getD (first, scale) = (loops, closest) := by
  obtain ⟨hltv, hlow⟩ := beyond_of_error h (fun _ => nofun)
  rw [solve_beyond b hltv hlow] at h
  split at h
  · cases h
  · rename_i first hfirst
    obtain ⟨hle, hlt, -⟩ := firstReaching_some hfirst
    split at h
    · cases h
    · rename_i tally hsearch
      cases h
      exact ⟨hltv, rfl, first, tally, isLeast_of_firstReaching hfirst, by omega, hsearch, rfl, rfl⟩

/-- A failure to converge reports the nearest miss: no ratio within the limit brings any loop count from
the first useful one on nearer to the target, no smaller one of them comes as near, and fourteen steps
were spent on each at most. -/
theorem solve_convergence {b : Bounds} {target maxLtv t loops iterations closest : Nat}
    (hbudget : 14 ≤ b.maxIterations)
    (h : solve b target maxLtv = .error (.convergence t loops iterations closest)) :
    t = target ∧ ∃ first, IsLeast {n | 2 ≤ n ∧ target ≤ leverage n maxLtv} first ∧
      (∃ r ≤ maxLtv, closest = leverage loops r) ∧
      IsLeast {d | ∃ n r, first ≤ n ∧ n ≤ b.maxLoopCount ∧ r ≤ maxLtv ∧
        d = distance (leverage n r) target} (distance closest target) ∧
      IsLeast {n | first ≤ n ∧ n ≤ b.maxLoopCount ∧ ∃ r ≤ maxLtv,
        distance (leverage n r) target = distance closest target} loops ∧
      iterations ≤ 14 * (b.maxLoopCount - first + 1) := by
  obtain ⟨hltv, rfl, first, tally, hleast, hbound, hsearch, rfl, hreport⟩ := search_of_convergence h
  have hcovers := search_covers hltv hbudget Tally.covers_empty le_rfl hsearch
  have hnext : first + (b.maxLoopCount + 1 - first) = b.maxLoopCount + 1 := by omega
  rw [hnext] at hcovers
  have hnearest : FirstNearest t maxLtv first (b.maxLoopCount + 1) loops closest := by
    have hbest := hcovers.nearest
    cases hnearest : tally.nearest with
    | none =>
      simp only [hnearest] at hbest
      omega
    | some best =>
      rw [hnearest, Option.getD_some] at hreport
      subst hreport
      simpa only [hnearest] using hbest
  obtain ⟨ratio, hratio, hvalue⟩ := hnearest.attained
  have hloops : loops ≤ b.maxLoopCount := Nat.le_of_lt_succ hnearest.lt_next
  refine ⟨rfl, first, hleast, ⟨ratio, hratio, hvalue.symm⟩, ⟨?_, ?_⟩, ⟨?_, ?_⟩, ?_⟩
  · exact ⟨loops, ratio, hnearest.first_le, hloops, hratio, by rw [hvalue]⟩
  · rintro d ⟨n, r, hn, hmax, hr, rfl⟩
    exact hnearest.least n hn (Nat.lt_succ_of_le hmax) r hr
  · exact ⟨hnearest.first_le, hloops, ratio, hratio, by rw [hvalue]⟩
  · rintro n ⟨hn, -, r, hr, hsame⟩
    by_contra hlt
    have hfar := hnearest.strict n hn (Nat.lt_of_not_le hlt) r hr
    omega
  · have hsteps := hcovers.iterations_le
    omega

/-- Three loops reach this target at the limit, but the nearest leverage is one of four. -/
theorem solve_convergence_fourth : 14 ≤ (Bounds.mk 4 0 100).maxIterations ∧
    solve (Bounds.mk 4 0 100) 27763 8572 = .error (.convergence 27763 4 27 27764) ∧
    ∃ first, IsLeast {n | 2 ≤ n ∧ 27763 ≤ leverage n 8572} first ∧
      IsLeast {n | first ≤ n ∧ n ≤ 4 ∧ ∃ r ≤ 8572,
        distance (leverage n r) 27763 = distance 27764 27763} 4 ∧
      27 ≤ 14 * (4 - first + 1) := by
  have hbudget : 14 ≤ (Bounds.mk 4 0 100).maxIterations := by decide
  have hsolve : solve (Bounds.mk 4 0 100) 27763 8572 =
      .error (.convergence 27763 4 27 27764) := by decide +kernel
  obtain ⟨-, first, hleast, -, -, hloops, hsteps⟩ := solve_convergence hbudget hsolve
  exact ⟨hbudget, hsolve, first, hleast, hloops, hsteps⟩

end Gearing.Solver
