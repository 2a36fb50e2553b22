import Gearing.Schedule
import Gearing.Proofs.Word
import Mathlib.Data.List.Chain

/-!
The tranches of a plan as numbers. Each of them is a share of the one before it, so they fall, and together
they stay below the same share of all that is supplied before the last one.
-/
namespace Gearing.Schedule

def amounts (ratio : Nat) : Nat → Nat → List Nat
  | 0, _ => []
  | loops + 1, each => each * ratio / scale :: amounts ratio loops (each * ratio / scale)

theorem length_amounts (ratio loops each : Nat) : (amounts ratio loops each).length = loops := by
  induction loops generalizing each with
  | zero => rfl
  | succ loops ih => simp [amounts, ih]

theorem sum_amounts_zero (ratio loops : Nat) : (amounts ratio loops 0).sum = 0 := by
  induction loops with
  | zero => rfl
  | succ loops ih => simp [amounts, ih]

theorem scale_mul_sum_amounts (ratio loops each : Nat) :
    scale * (amounts ratio loops each).sum ≤ ratio * (each + (amounts ratio loops each).sum) := by
  induction loops generalizing each with
  | zero => simp [amounts]
  | succ loops ih =>
    have hnext : scale * (each * ratio / scale) ≤ each * ratio := Nat.mul_div_le _ _
    have hrest := ih (each * ratio / scale)
    simp only [amounts, List.sum_cons, Nat.mul_add] at hrest ⊢
    have hcomm : each * ratio = ratio * each := Nat.mul_comm each ratio
    omega

theorem sum_amounts_le_mul {ratio : Nat} (hratio : ratio ≤ scale) (loops each : Nat) :
    (amounts ratio loops each).sum ≤ loops * each := by
  induction loops generalizing each with
  | zero => simp [amounts]
  | succ loops ih =>
    have hnext : each * ratio / scale ≤ each :=
      Nat.div_le_of_le_mul (Nat.mul_comm each ratio ▸ Nat.mul_le_mul_right _ hratio)
    have hrest := (ih (each * ratio / scale)).trans (Nat.mul_le_mul_left loops hnext)
    rw [amounts, List.sum_cons, Nat.succ_mul]
    omega

theorem sum_amounts_le {ratio : Nat} (hratio : ratio < scale) (loops each : Nat) :
    (amounts ratio loops each).sum ≤ ratio * each := by
  have hsum := scale_mul_sum_amounts ratio loops each
  have hscale : (ratio + 1) * (amounts ratio loops each).sum ≤
      scale * (amounts ratio loops each).sum := Nat.mul_le_mul_right _ hratio
  rw [Nat.mul_add] at hsum
  rw [Nat.add_mul, Nat.one_mul] at hscale
  omega

section Words
variable {ratio loops : Nat} {each each' : Word} {borrows borrows' : List Word}

theorem tail?_succ (h : tail? ratio (loops + 1) each = some borrows) :
    ∃ product rest, Word.mul? each (BitVec.ofNat 256 ratio) = some product ∧
      tail? ratio loops (product / FixedPoint.bps) = some rest ∧
      borrows = product / FixedPoint.bps :: rest := by
  simp only [tail?] at h
  split at h
  · cases h
  · rename_i product hproduct
    obtain ⟨rest, hrest, hborrows⟩ := Option.map_eq_some_iff.mp h
    exact ⟨product, rest, hproduct, hrest, hborrows.symm⟩

theorem toNat_next {product : Word} (hratio : ratio < 2 ^ 256)
    (h : Word.mul? each (BitVec.ofNat 256 ratio) = some product) :
    (product / FixedPoint.bps).toNat = each.toNat * ratio / scale := by
  have hbps : FixedPoint.bps.toNat = scale := rfl
  rw [BitVec.toNat_udiv, Word.toNat_mul? h, toNat_ofNat_of_lt hratio, hbps]

theorem map_toNat_tail? (hratio : ratio < 2 ^ 256) (h : tail? ratio loops each = some borrows) :
    borrows.map BitVec.toNat = amounts ratio loops each.toNat := by
  induction loops generalizing each borrows with
  | zero =>
    cases h
    rfl
  | succ loops ih =>
    obtain ⟨product, rest, hproduct, hrest, rfl⟩ := tail?_succ h
    rw [List.map_cons, ih hrest, toNat_next hratio hproduct, amounts]

theorem isChain_tail? (hratio : ratio ≤ scale) (h : tail? ratio loops each = some borrows) :
    (each :: borrows).IsChain (fun a b => b ≤ a) := by
  induction loops generalizing each borrows with
  | zero =>
    cases h
    exact .singleton each
  | succ loops ih =>
    obtain ⟨product, rest, hproduct, hrest, rfl⟩ := tail?_succ h
    have hscale : scale = 10000 := rfl
    have hnext := toNat_next (by omega) hproduct
    have hle : each.toNat * ratio / scale ≤ each.toNat :=
      Nat.div_le_of_le_mul (Nat.mul_comm each.toNat ratio ▸ Nat.mul_le_mul_right _ hratio)
    exact List.isChain_cons_cons.mpr ⟨BitVec.le_def.mpr (by omega), ih hrest⟩

theorem le_of_isChain (h : (each :: borrows).IsChain (fun a b => b ≤ a)) {a : Word}
    (ha : a ∈ borrows) : a ≤ each := by
  have htrans : Trans (fun a b : Word => b ≤ a) (fun a b => b ≤ a) (fun a b => b ≤ a) :=
    ⟨fun h h' => BitVec.le_trans h' h⟩
  exact h.rel_cons ha

theorem exists_tail?_of_le (hle : each ≤ each') (h : tail? ratio loops each' = some borrows') :
    ∃ borrows, tail? ratio loops each = some borrows ∧
      (borrows.map BitVec.toNat).sum ≤ (borrows'.map BitVec.toNat).sum := by
  induction loops generalizing each each' borrows' with
  | zero => exact ⟨[], rfl, Nat.zero_le _⟩
  | succ loops ih =>
    obtain ⟨product', rest', hproduct', hrest', rfl⟩ := tail?_succ h
    obtain ⟨product, hproduct, hproducts⟩ := Word.exists_mul?_of_le hle hproduct'
    have hnext : product / FixedPoint.bps ≤ product' / FixedPoint.bps := by
      rw [BitVec.le_def, BitVec.toNat_udiv, BitVec.toNat_udiv]
      exact Nat.div_le_div_right (BitVec.le_def.mp hproducts)
    obtain ⟨rest, hrest, hsum⟩ := ih hnext hrest'
    refine ⟨product / FixedPoint.bps :: rest, ?_, ?_⟩
    · simp only [tail?, hproduct, hrest, Option.map_some]
    · simp only [List.map_cons, List.sum_cons]
      exact Nat.add_le_add (BitVec.le_def.mp hnext) hsum

theorem sum_tail?_mul_scale_le (h : tail? ratio loops each = some borrows) :
    (borrows.map BitVec.toNat).sum * scale ≤ loops * (2 ^ 256 - 1) := by
  induction loops generalizing each borrows with
  | zero =>
    cases h
    simp
  | succ loops ih =>
    obtain ⟨product, rest, -, hrest, rfl⟩ := tail?_succ h
    have hbps : FixedPoint.bps.toNat = scale := rfl
    have hbound := product.isLt
    have hnext : (product / FixedPoint.bps).toNat * scale ≤ product.toNat := by
      rw [BitVec.toNat_udiv, hbps]
      exact Nat.div_mul_le_self _ _
    have htail := ih hrest
    rw [List.map_cons, List.sum_cons, Nat.add_mul, Nat.succ_mul]
    omega

theorem exists_tail? (hratio : ratio ≤ scale) (loops : Nat) (h : each.toNat * ratio < 2 ^ 256) :
    ∃ borrows, tail? ratio loops each = some borrows := by
  induction loops generalizing each with
  | zero => exact ⟨[], rfl⟩
  | succ loops ih =>
    have hscale : scale = 10000 := rfl
    have hproduct := Word.mul?_of_lt (a := each) (b := BitVec.ofNat 256 ratio)
      (by rwa [toNat_ofNat_of_lt (by omega)])
    have hnext := toNat_next (by omega) hproduct
    have hle : each.toNat * ratio / scale ≤ each.toNat :=
      Nat.div_le_of_le_mul (Nat.mul_comm each.toNat ratio ▸ Nat.mul_le_mul_right _ hratio)
    obtain ⟨rest, hrest⟩ := ih (hnext ▸ (Nat.mul_le_mul_right ratio hle).trans_lt h)
    refine ⟨each * BitVec.ofNat 256 ratio / FixedPoint.bps :: rest, ?_⟩
    simp only [tail?, hproduct, hrest, Option.map_some]

theorem tail?_zero (ratio loops : Nat) : tail? ratio loops 0 = some (List.replicate loops 0) := by
  induction loops with
  | zero => rfl
  | succ loops ih =>
    have hproduct : Word.mul? 0 (BitVec.ofNat 256 ratio) = some 0 := by simp [Word.mul?]
    have hnext : (0 : Word) / FixedPoint.bps = 0 := by decide
    simp only [tail?, hproduct, hnext, ih, Option.map_some, List.replicate_succ]

end Words

section Totals
variable {s : Schedule}

theorem toNat_totalBorrow (h : (s.tranches.map BitVec.toNat).sum < 2 ^ 256) :
    s.totalBorrow.toNat = (s.borrows.map BitVec.toNat).sum := by
  simp only [tranches, List.map_cons, List.sum_cons] at h
  exact Word.toNat_sum (by omega)

theorem toNat_totalDeposit (h : (s.tranches.map BitVec.toNat).sum < 2 ^ 256) :
    s.totalDeposit.toNat = s.principal.toNat + (s.borrows.map BitVec.toNat).sum := by
  have hborrow := toNat_totalBorrow h
  simp only [tranches, List.map_cons, List.sum_cons] at h
  rw [totalDeposit, toNat_add_of_lt (by omega), hborrow]

/-- The fee is exact where the product fits. Without a fee the sum of the borrows may even wrap. -/
theorem toNat_flashFee {rate : Nat} (h : (s.borrows.map BitVec.toNat).sum * rate < 2 ^ 256) :
    (s.flashFee rate).toNat = (s.borrows.map BitVec.toNat).sum * rate / scale := by
  have hbps : FixedPoint.bps.toNat = scale := rfl
  rw [flashFee, FixedPoint.applyBps, BitVec.toNat_udiv, hbps]
  rcases Nat.eq_zero_or_pos rate with rfl | hrate
  · simp
  · have htotal : s.totalBorrow.toNat = (s.borrows.map BitVec.toNat).sum :=
      Word.toNat_sum ((Nat.le_mul_of_pos_right _ hrate).trans_lt h)
    rw [toNat_mul_ofNat_of_lt (by rw [htotal]; exact h), htotal]

end Totals

theorem ofPlan_eq_ok {principal : Word} {plan : Plan} {borrows : List Word}
    (h : tail? plan.borrowRatio plan.loopCount principal = some borrows) :
    ofPlan principal plan = .ok ⟨principal, borrows⟩ := by
  rw [ofPlan, h]

theorem ofPlan_ok {principal : Word} {plan : Plan} {s : Schedule}
    (h : ofPlan principal plan = .ok s) :
    s.principal = principal ∧ tail? plan.borrowRatio plan.loopCount principal = some s.borrows := by
  unfold ofPlan at h
  split at h
  · rename_i borrows hborrows
    cases h
    exact ⟨rfl, hborrows⟩
  · cases h

theorem loopCount_of_plan {principal : Word} {plan : Plan} {s : Schedule}
    (hratio : plan.borrowRatio < 2 ^ 256) (h : ofPlan principal plan = .ok s) :
    s.loopCount = plan.loopCount := by
  have hborrows := map_toNat_tail? hratio (ofPlan_ok h).2
  have hlength := congrArg List.length hborrows
  rw [List.length_map, length_amounts] at hlength
  exact hlength

end Gearing.Schedule
