import Gearing.FixedPoint
import Gearing.Proofs.Word

/-!
What an amount is worth in whole numbers, and how far the valuation in words is from it. A product that wraps only
loses value, so the word is never too large as long as the power of ten that it is divided by is a word.
-/
namespace Gearing.FixedPoint

/-- Value of `amount` base units with 18 decimals. -/
def worth (amount price decimals : Nat) : Nat := amount * price * 10 ^ 18 / 10 ^ (decimals + 8)

theorem worth_of_le {amount price decimals : Nat} (h : decimals ≤ 10) :
    worth amount price decimals = amount * price * 10 ^ (10 - decimals) := by
  have hsplit : 10 ^ 18 = 10 ^ (10 - decimals) * 10 ^ (decimals + 8) := by
    rw [← Nat.pow_add]
    congr 1
    omega
  rw [worth, hsplit, ← Nat.mul_assoc, Nat.mul_div_cancel _ (Nat.pow_pos (by decide))]

theorem worth_of_lt {amount price decimals : Nat} (h : 10 < decimals) :
    worth amount price decimals = amount * price / 10 ^ (decimals - 10) := by
  have hsplit : 10 ^ (decimals + 8) = 10 ^ (decimals - 10) * 10 ^ 18 := by
    rw [← Nat.pow_add]
    congr 1
    omega
  rw [worth, hsplit, Nat.mul_div_mul_right _ _ (Nat.pow_pos (by decide))]

/-- Valuing the amount does not wrap. -/
def ExactValue (amount price : Word) (decimals : Nat) : Prop :=
  amount.toNat * price.toNat * 10 ^ (10 - decimals) < 2 ^ 256

instance (amount price : Word) (decimals : Nat) : Decidable (ExactValue amount price decimals) :=
  inferInstanceAs (Decidable (_ < _))

/-- At this price each amount is worth a whole number. -/
def ExactPrice (price : Word) (decimals : Nat) : Prop :=
  decimals ≤ 10 ∨ decimals ≤ 87 ∧ 10 ^ (decimals - 10) ∣ price.toNat

instance (price : Word) (decimals : Nat) : Decidable (ExactPrice price decimals) :=
  inferInstanceAs (Decidable (_ ∨ _))

section Words
variable {amount price : Word} {decimals : Nat}

theorem toNat_pow10_le (e : Nat) : (pow10 e).toNat ≤ 10 ^ e := by
  rw [pow10, BitVec.toNat_ofNat]
  exact Nat.mod_le _ _

/-- The last power of ten that is a word is the 77th. -/
theorem toNat_pow10 {e : Nat} (h : e ≤ 77) : (pow10 e).toNat = 10 ^ e := by
  have hpow : 10 ^ e ≤ 10 ^ 77 := Nat.pow_le_pow_right (by decide) h
  exact toNat_ofNat_of_lt (hpow.trans_lt (by decide))

/-- Up to ten decimals nothing is divided, so nothing is lost. -/
theorem toNat_value {amount price : Word} {decimals : Nat} (hdecimals : decimals ≤ 10)
    (h : ExactValue amount price decimals) :
    (value amount price decimals).toNat = amount.toNat * price.toNat * 10 ^ (10 - decimals) := by
  unfold ExactValue at h
  unfold value
  split
  · rename_i hzero
    rcases hzero with rfl | rfl
    · simp
    · simp
  · have hone : 0 < 10 ^ (10 - decimals) := Nat.pow_pos (by decide)
    have hten : 10 ^ (10 - decimals) ≤ 10 ^ 10 := Nat.pow_le_pow_right (by decide) (by omega)
    have hpow : (pow10 (10 - decimals)).toNat = 10 ^ (10 - decimals) :=
      toNat_ofNat_of_lt (by omega)
    have hproduct : amount.toNat * price.toNat < 2 ^ 256 :=
      (Nat.le_mul_of_pos_right _ hone).trans_lt h
    have hfirst : (amount * price).toNat = amount.toNat * price.toNat := toNat_mul_of_lt hproduct
    rw [toNat_mul_of_lt (by rw [hfirst, hpow]; exact h), hfirst, hpow]

theorem value_le_worth (hdecimals : decimals ≤ 87) :
    (value amount price decimals).toNat ≤ worth amount.toNat price.toNat decimals := by
  have hproduct := toNat_mul_le amount price
  unfold value
  split
  · exact Nat.zero_le _
  split
  · rename_i hle
    rw [worth_of_le hle]
    exact (toNat_mul_le _ _).trans (Nat.mul_le_mul hproduct (toNat_pow10_le _))
  · rename_i hlt
    rw [worth_of_lt (by omega), BitVec.toNat_udiv, toNat_pow10 (by omega)]
    exact Nat.div_le_div_right hproduct

theorem worth_le_value (h : ExactValue amount price decimals) :
    worth amount.toNat price.toNat decimals ≤ (value amount price decimals).toNat := by
  by_cases hle : decimals ≤ 10
  · rw [worth_of_le hle, toNat_value hle h]
  · have hfits : amount.toNat * price.toNat < 2 ^ 256 := by
      have hnone : 10 - decimals = 0 := by omega
      rw [ExactValue, hnone] at h
      omega
    rw [worth_of_lt (by omega), value]
    split
    · rename_i hzero
      rcases hzero with rfl | rfl <;> simp
    · rw [BitVec.toNat_udiv, toNat_mul_of_lt hfits]
      by_cases hpow : 10 ^ (decimals - 10) < 2 ^ 256
      · rw [pow10, toNat_ofNat_of_lt hpow]
      · -- The divisor is past every product, whatever its word is.
        rw [Nat.div_eq_of_lt (by omega)]
        exact Nat.zero_le _

theorem ExactValue.of_le {smaller : Word} (h : ExactValue amount price decimals) (hle : smaller ≤ amount) :
    ExactValue smaller price decimals :=
  (Nat.mul_le_mul_right _ (Nat.mul_le_mul_right _ (BitVec.le_def.mp hle))).trans_lt h

theorem toNat_value_mono {smaller : Word} (hle : smaller ≤ amount) (h : ExactValue amount price decimals) :
    (value smaller price decimals).toNat ≤ (value amount price decimals).toNat := by
  have hnat := BitVec.le_def.mp hle
  have hsmaller := h.of_le hle
  by_cases hdecimals : decimals ≤ 10
  · rw [toNat_value hdecimals h, toNat_value hdecimals hsmaller]
    exact Nat.mul_le_mul_right _ (Nat.mul_le_mul_right _ hnat)
  · have hnone : 10 - decimals = 0 := by omega
    rw [ExactValue, hnone, Nat.pow_zero, Nat.mul_one] at h hsmaller
    unfold value
    split
    · exact Nat.zero_le _
    rename_i hsome
    rw [if_neg]
    · rw [BitVec.toNat_udiv, BitVec.toNat_udiv, toNat_mul_of_lt h, toNat_mul_of_lt hsmaller]
      exact Nat.div_le_div_right (Nat.mul_le_mul_right _ hnat)
    · rintro (rfl | hprice)
      · exact hsome (.inl (BitVec.le_zero_iff.mp hle))
      · exact hsome (.inr hprice)

theorem toNat_value_eq_worth (hdecimals : decimals ≤ 87) (h : ExactValue amount price decimals) :
    (value amount price decimals).toNat = worth amount.toNat price.toNat decimals :=
  Nat.le_antisymm (value_le_worth hdecimals) (worth_le_value h)

namespace ExactPrice

theorem decimals_le (h : ExactPrice price decimals) : decimals ≤ 87 := by
  unfold ExactPrice at h
  omega

theorem worth_eq_mul (h : ExactPrice price decimals) (n : Nat) :
    worth n price.toNat decimals = n * worth 1 price.toNat decimals := by
  by_cases hle : decimals ≤ 10
  · rw [worth_of_le hle, worth_of_le hle, Nat.one_mul, Nat.mul_assoc]
  · have hdvd := (h.resolve_left hle).2
    rw [worth_of_lt (by omega), worth_of_lt (by omega), Nat.one_mul, Nat.mul_div_assoc _ hdvd]

theorem worth_one_pos (h : ExactPrice price decimals) (hprice : price ≠ 0) :
    0 < worth 1 price.toNat decimals := by
  have hpos : 0 < price.toNat := Nat.pos_of_ne_zero fun hzero => hprice (BitVec.eq_of_toNat_eq hzero)
  by_cases hle : decimals ≤ 10
  · rw [worth_of_le hle, Nat.one_mul]
    exact Nat.mul_pos hpos (Nat.pow_pos (by decide))
  · have hdvd := (h.resolve_left hle).2
    rw [worth_of_lt (by omega), Nat.one_mul]
    exact Nat.div_pos (Nat.le_of_dvd hpos hdvd) (Nat.pow_pos (by decide))

end ExactPrice

theorem toNat_value_eq_mul (hprice : ExactPrice price decimals) (h : ExactValue amount price decimals) :
    (value amount price decimals).toNat = amount.toNat * worth 1 price.toNat decimals := by
  rw [toNat_value_eq_worth hprice.decimals_le h, hprice.worth_eq_mul]

end Words

end Gearing.FixedPoint
