import Gearing.Leverage
import Mathlib.Order.Monotone.Basic

/-!
Order of the leverage: more loops, a higher ratio, a larger tranche or total never lower it. The
early exit at a tranche of zero costs nothing, since every later tranche would be zero too, and a
product or a sum that stops at the limit stops where the larger one does.
-/
namespace Gearing.Leverage

theorem scale_le_limit : scale ≤ limit := by decide

theorem nextTranche_mono {r r' e e' : Nat} (hr : r ≤ r') (he : e ≤ e') :
    nextTranche r e ≤ nextTranche r' e' := by
  have h : e * r ≤ e' * r' := Nat.mul_le_mul he hr
  exact Nat.div_le_div_right (by omega)

theorem le_grow (r n e t : Nat) (ht : t ≤ limit) : t ≤ grow r n e t := by
  induction n generalizing e t with
  | zero => exact le_rfl
  | succ n ih =>
    simp only [grow]
    split
    · exact le_rfl
    · have hstep : t ≤ min (t + nextTranche r e) limit := by omega
      exact hstep.trans (ih _ _ (min_le_right _ _))

theorem grow_mono {r r' n n' e e' t t' : Nat} (hr : r ≤ r') (hn : n ≤ n') (he : e ≤ e')
    (ht : t ≤ t') (hl : t' ≤ limit) : grow r n e t ≤ grow r' n' e' t' := by
  induction n generalizing n' e e' t t' with
  | zero => exact ht.trans (le_grow r' n' e' t' hl)
  | succ n ih =>
    obtain ⟨m, rfl⟩ : ∃ m, n' = m + 1 := ⟨n' - 1, by omega⟩
    have hnext : nextTranche r e ≤ nextTranche r' e' := nextTranche_mono hr he
    simp only [grow]
    by_cases hz : nextTranche r e = 0
    · rw [if_pos hz]
      exact ht.trans (le_grow r' (m + 1) e' t' hl)
    · rw [if_neg hz, if_neg (by omega)]
      exact ih (by omega) hnext (by omega) (min_le_right _ _)

theorem leverage_mono {n n' r r' : Nat} (hn : n ≤ n') (hr : r ≤ r') :
    leverage n r ≤ leverage n' r' :=
  grow_mono hr hn le_rfl le_rfl scale_le_limit

theorem scale_le_leverage (n r : Nat) : scale ≤ leverage n r :=
  le_grow r n scale scale scale_le_limit

theorem grow_le_limit (r n e : Nat) {t : Nat} (ht : t ≤ limit) : grow r n e t ≤ limit := by
  induction n generalizing e t with
  | zero => exact ht
  | succ n ih =>
    simp only [grow]
    split
    · exact ht
    · exact ih _ (min_le_right _ _)

/-- The leverage rises with the loops and with the ratio together, whatever is cut off at the limit or
left out at a tranche of zero, and it is a 64-bit number that never falls below `scale`. -/
theorem monotone_leverage : Monotone (Function.uncurry leverage) ∧
    ∀ n r, scale ≤ leverage n r ∧ leverage n r ≤ limit := by
  refine ⟨fun p p' hp => ?_, fun n r => ?_⟩
  · obtain ⟨hn, hr⟩ := Prod.le_def.mp hp
    exact leverage_mono hn hr
  · exact ⟨scale_le_leverage n r, grow_le_limit r n scale scale_le_limit⟩

theorem leverage_ratio_zero (n : Nat) : leverage n 0 = scale := by
  cases n with
  | zero => rfl
  | succ n => rfl

theorem leverage_one {r : Nat} (h : r < scale) : leverage 1 r = scale + r := by
  have hs : scale = 10000 := rfl
  have hl : limit = 18446744073709551615 := rfl
  have hnext : nextTranche r scale = r := by
    simp only [nextTranche, hs, hl]
    omega
  simp only [leverage, grow, hnext]
  split <;> omega

end Gearing.Leverage
