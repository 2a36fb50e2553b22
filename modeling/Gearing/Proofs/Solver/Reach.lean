import Gearing.Proofs.Series

/-!
When a target is out of reach. The search for the first useful loop count starts at two, since the closed
forms serve what fewer loops reach, and the leverage rises with the loops, so nothing is found exactly
when the loop bound at the limit itself stays below the target.
-/
namespace Gearing.Solver
open Leverage

/-- The target is refused as out of reach, whatever the refusal names. -/
def OutOfReach (b : Bounds) (target maxLtv : Nat) : Prop :=
  ∃ t most loops, solve b target maxLtv = .error (.leverageTooHigh t most loops)

section Reach
variable {b : Bounds} {target maxLtv : Nat}

theorem solve_outOfReach (hltv : maxLtv < scale) (hlow : scale + maxLtv < target)
    (h : leverage b.maxLoopCount maxLtv < target) :
    solve b target maxLtv =
      .error (.leverageTooHigh target (leverage b.maxLoopCount maxLtv) b.maxLoopCount) := by
  have hfirst : firstReaching target maxLtv (b.maxLoopCount - 1) 2 = none := by
    cases hfound : firstReaching target maxLtv (b.maxLoopCount - 1) 2 with
    | none => rfl
    | some first =>
      obtain ⟨hle, hlt, hreach, -⟩ := firstReaching_some hfound
      have hmono : leverage first maxLtv ≤ leverage b.maxLoopCount maxLtv :=
        leverage_mono (by omega) le_rfl
      omega
  rw [solve_beyond b hltv hlow, hfirst, maxAchievable]

theorem lt_of_outOfReach {t most loops : Nat} (hloops : 1 ≤ b.maxLoopCount)
    (h : solve b target maxLtv = .error (.leverageTooHigh t most loops)) :
    leverage b.maxLoopCount maxLtv < target ∧
      t = target ∧ most = leverage b.maxLoopCount maxLtv ∧ loops = b.maxLoopCount := by
  obtain ⟨hltv, hlow⟩ := beyond_of_error h (fun _ => nofun)
  rw [solve_beyond b hltv hlow] at h
  split at h
  · rename_i hfirst
    cases h
    refine ⟨?_, rfl, rfl, rfl⟩
    by_cases htwo : 2 ≤ b.maxLoopCount
    · exact firstReaching_none hfirst htwo (by omega)
    · have hone : b.maxLoopCount = 1 := by omega
      rwa [hone, leverage_one hltv]
  · split at h
    · cases h
    · cases h

theorem outOfReach_iff (hltv : maxLtv < scale) (hloops : 1 ≤ b.maxLoopCount) :
    OutOfReach b target maxLtv ↔ leverage b.maxLoopCount maxLtv < target := by
  constructor
  · intro ⟨t, most, loops, h⟩
    exact (lt_of_outOfReach hloops h).1
  · intro h
    have hone : leverage 1 maxLtv ≤ leverage b.maxLoopCount maxLtv := leverage_mono hloops le_rfl
    rw [leverage_one hltv] at hone
    exact ⟨_, _, _, solve_outOfReach hltv (by omega) h⟩

end Reach

/-- A target is refused as out of reach exactly when it lies above what the loop bound attains at the limit,
and the refusal names that leverage. Above the limit of the series this holds of every loop bound, and
no plan within the bounds has a leverage that is refused so. -/
theorem solve_refuses_beyond (b : Bounds) {maxLtv : Nat} (hltv : maxLtv < scale)
    (hloops : 1 ≤ b.maxLoopCount) :
    (∀ target, OutOfReach b target maxLtv ↔ leverage b.maxLoopCount maxLtv < target) ∧
      (∀ target t most loops, solve b target maxLtv = .error (.leverageTooHigh t most loops) →
        t = target ∧ most = leverage b.maxLoopCount maxLtv ∧ loops = b.maxLoopCount) ∧
      (∃ bound, asymptote maxLtv = some bound ∧ ∀ (b' : Bounds) (target : Nat), bound < target →
        solve b' target maxLtv = .error
          (.leverageTooHigh target (leverage b'.maxLoopCount maxLtv) b'.maxLoopCount)) ∧
      ∀ plan : Plan, plan.loopCount ≤ b.maxLoopCount → plan.borrowRatio ≤ maxLtv →
        ¬ OutOfReach b plan.leverage maxLtv := by
  have hasymptote : asymptote maxLtv = some (scale * scale / (scale - maxLtv)) :=
    if_neg (Nat.not_le_of_lt hltv)
  refine ⟨fun target => outOfReach_iff hltv hloops,
    fun target t most loops h => (lt_of_outOfReach hloops h).2, ⟨_, hasymptote, ?_⟩, ?_⟩
  · intro b' target htarget
    have hbound := leverage_le_asymptote hasymptote b'.maxLoopCount
    have hone := leverage_le_asymptote hasymptote 1
    rw [leverage_one hltv] at hone
    exact solve_outOfReach hltv (by omega) (by omega)
  · intro plan hcount hratio hrefused
    have hlt := (outOfReach_iff hltv hloops).mp hrefused
    have hle : plan.leverage ≤ leverage b.maxLoopCount maxLtv := leverage_mono hcount hratio
    omega

/-- Four fifths are worth five times the principal at most, and forty loops come close to it. -/
theorem solve_refuses_beyond_fivefold : 8000 < scale ∧ 1 ≤ ({} : Bounds).maxLoopCount ∧
    (∃ t most loops, solve {} 50000 8000 = .error (.leverageTooHigh t most loops) ∧
      t = 50000 ∧ most = 49929 ∧ loops = 40) ∧
    ¬ OutOfReach {} 49929 8000 ∧
    solve { maxLoopCount := 200 } 50001 8000 =
      .error (.leverageTooHigh 50001 (leverage 200 8000) 200) ∧
    ¬ OutOfReach {} (Plan.leverage ⟨40, 8000⟩) 8000 := by
  have hltv : 8000 < scale := by decide
  have hloops : 1 ≤ ({} : Bounds).maxLoopCount := by decide
  have hmost : leverage ({} : Bounds).maxLoopCount 8000 = 49929 := by decide +kernel
  obtain ⟨hiff, hnames, ⟨bound, hbound, hrefused⟩, hplans⟩ := solve_refuses_beyond {} hltv hloops
  obtain ⟨t, most, loops, hsolve⟩ := (hiff 50000).mpr (by omega)
  obtain ⟨ht, hreport, hcount⟩ := hnames 50000 t most loops hsolve
  have hfivefold : bound = 50000 := Option.some.inj (hbound.symm.trans (by decide))
  refine ⟨hltv, hloops, ⟨t, most, loops, hsolve, ht, hreport.trans hmost, hcount⟩, fun h => ?_,
    hrefused { maxLoopCount := 200 } 50001 (by omega), hplans ⟨40, 8000⟩ (by decide) (by decide)⟩
  have hlt := (hiff 49929).mp h
  omega

end Gearing.Solver
