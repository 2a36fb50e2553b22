import Gearing.Word
import Mathlib.Tactic.Linarith

/-!
Words as the numbers that they stand for, as long as nothing leaves the 256 bits.
-/
namespace Gearing

theorem toNat_add_of_lt {a b : Word} (h : a.toNat + b.toNat < 2 ^ 256) :
    (a + b).toNat = a.toNat + b.toNat := by
  rw [BitVec.toNat_add, Nat.mod_eq_of_lt h]

theorem toNat_mul_le (a b : Word) : (a * b).toNat ≤ a.toNat * b.toNat := by
  rw [BitVec.toNat_mul]
  exact Nat.mod_le _ _

theorem toNat_mul_of_lt {a b : Word} (h : a.toNat * b.toNat < 2 ^ 256) :
    (a * b).toNat = a.toNat * b.toNat := by
  rw [BitVec.toNat_mul, Nat.mod_eq_of_lt h]

theorem toNat_ofNat_of_lt {n : Nat} (h : n < 2 ^ 256) : (BitVec.ofNat 256 n).toNat = n := by
  rw [BitVec.toNat_ofNat, Nat.mod_eq_of_lt h]

theorem toNat_mul_ofNat_of_lt {a : Word} {n : Nat} (h : a.toNat * n < 2 ^ 256) :
    (a * BitVec.ofNat 256 n).toNat = a.toNat * n := by
  by_cases hzero : a.toNat = 0
  · have ha : a = 0 := BitVec.eq_of_toNat_eq hzero
    simp [ha]
  · have hn : n < 2 ^ 256 := (Nat.le_mul_of_pos_left n (Nat.pos_of_ne_zero hzero)).trans_lt h
    have hword := toNat_ofNat_of_lt hn
    rw [toNat_mul_of_lt (by rw [hword]; exact h), hword]

namespace Word

theorem le_greatest (a : Word) : a ≤ greatest := by
  have hgreatest : greatest.toNat = 2 ^ 256 - 1 := BitVec.toNat_allOnes
  rw [BitVec.le_def, hgreatest]
  exact Nat.le_sub_one_of_lt a.isLt

theorem le_add_iff {a b : Word} : a ≤ a + b ↔ a.toNat + b.toNat < 2 ^ 256 := by
  have ha := a.isLt
  have hb := b.isLt
  rw [BitVec.le_def, BitVec.toNat_add]
  omega

theorem toNat_foldl_add (ws : List Word) (a : Word)
    (h : a.toNat + (ws.map BitVec.toNat).sum < 2 ^ 256) :
    (ws.foldl (· + ·) a).toNat = a.toNat + (ws.map BitVec.toNat).sum := by
  induction ws generalizing a with
  | nil => rfl
  | cons w ws ih =>
    rw [List.map_cons, List.sum_cons] at h ⊢
    have hsum : (a + w).toNat = a.toNat + w.toNat := toNat_add_of_lt (by omega)
    rw [List.foldl_cons, ih (a + w) (by omega), hsum, Nat.add_assoc]

theorem toNat_sum {ws : List Word} (h : (ws.map BitVec.toNat).sum < 2 ^ 256) :
    (sum ws).toNat = (ws.map BitVec.toNat).sum := by
  have hzero : (0 : Word).toNat = 0 := rfl
  rw [sum, toNat_foldl_add ws 0 (by omega), hzero, Nat.zero_add]

theorem mul?_of_lt {a b : Word} (h : a.toNat * b.toNat < 2 ^ 256) : mul? a b = some (a * b) :=
  if_pos h

theorem exists_mul?_of_le {a b c x : Word} (hle : b ≤ a) (h : mul? a c = some x) :
    ∃ y, mul? b c = some y ∧ y ≤ x := by
  have hx := toNat_mul? h
  have hbound := x.isLt
  have hmul : b.toNat * c.toNat ≤ a.toNat * c.toNat := Nat.mul_le_mul_right _ (BitVec.le_def.mp hle)
  have hfits : b.toNat * c.toNat < 2 ^ 256 := by omega
  refine ⟨b * c, mul?_of_lt hfits, ?_⟩
  rw [BitVec.le_def, toNat_mul_of_lt hfits, hx]
  exact hmul

/-- The word is the number modulo `2 ^ 256`, and so the number itself exactly where that fits. -/
def Holds (a : Word) (n : Nat) : Prop := a.toNat = n % 2 ^ 256 ∧ (a.toNat = n ↔ n < 2 ^ 256)

theorem Holds.le {a : Word} {n : Nat} (h : a.Holds n) : a.toNat ≤ n :=
  h.1 ▸ Nat.mod_le _ _

theorem holds_of_mod {a : Word} {n : Nat} (h : a.toNat = n % 2 ^ 256) : a.Holds n :=
  ⟨h, by omega⟩

theorem holds_foldl_add (ws : List Word) (a : Word) :
    (ws.foldl (· + ·) a).Holds (a.toNat + (ws.map BitVec.toNat).sum) := by
  apply holds_of_mod
  induction ws generalizing a with
  | nil => simpa using (Nat.mod_eq_of_lt a.isLt).symm
  | cons w ws ih =>
    rw [List.foldl_cons, ih, BitVec.toNat_add, Nat.mod_add_mod, List.map_cons, List.sum_cons,
      Nat.add_assoc]

theorem holds_sum (ws : List Word) : (sum ws).Holds (ws.map BitVec.toNat).sum := by
  have h := holds_foldl_add ws 0
  rwa [show (0 : Word).toNat = 0 from rfl, Nat.zero_add] at h

theorem sum_perm {ws ws' : List Word} (h : ws.Perm ws') : sum ws = sum ws' := by
  apply BitVec.eq_of_toNat_eq
  rw [(holds_sum ws).1, (holds_sum ws').1, (h.map BitVec.toNat).sum_nat]

end Word
end Gearing
