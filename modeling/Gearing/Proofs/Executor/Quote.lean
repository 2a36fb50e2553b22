import Gearing.Executor.Native
import Gearing.Proofs.Schedule
import Mathlib.Algebra.BigOperators.Group.List.Basic

/-!
The value that a native run attaches, and the way back from it.

The fee never falls as the principal grows, so a quote grows by at least as much as its principal, and what is
quoted for a principal is quoted for every smaller one. The bisection therefore ends at the greatest principal
whose quote fits, and no quote lies between its own and that of the next principal. As long as the rates of
all loops together are at most one, the borrow is only summed up where no sum wraps.
-/
namespace Gearing

namespace Executor
variable {feeBps : Nat} {plan : Plan} {attached p q v w : Word}

theorem quote_of_tail? {borrows : List Word}
    (h : Schedule.tail? plan.borrowRatio plan.loopCount p = some borrows) : quote feeBps p plan =
      match Word.add? p (Schedule.flashFee ⟨p, borrows⟩ feeBps) with
      | some v => .ok v
      | none => .error (.invalid .attachedOverflow) := by
  rw [quote, Schedule.ofPlan_eq_ok h]
  show (match Word.add? p (Schedule.flashFee ⟨p, borrows⟩ feeBps) with
    | some v => pure v
    | none => throw (EngineError.invalid .attachedOverflow)) = _
  cases Word.add? p (Schedule.flashFee ⟨p, borrows⟩ feeBps) <;> rfl

theorem quote_eq_ok_iff (hrate : plan.loopCount * feeBps ≤ scale) : quote feeBps p plan = .ok v ↔
    ∃ borrows, Schedule.tail? plan.borrowRatio plan.loopCount p = some borrows ∧
      v.toNat = p.toNat + (borrows.map BitVec.toNat).sum * feeBps / scale := by
  have hfee : ∀ borrows, Schedule.tail? plan.borrowRatio plan.loopCount p = some borrows →
      (Schedule.flashFee ⟨p, borrows⟩ feeBps).toNat = (borrows.map BitVec.toNat).sum * feeBps / scale := by
    intro borrows htail
    refine Schedule.toNat_flashFee (s := ⟨p, borrows⟩) ?_
    have hsum := Schedule.sum_tail?_mul_scale_le htail
    refine Nat.lt_of_mul_lt_mul_right (a := scale) ?_
    calc (borrows.map BitVec.toNat).sum * feeBps * scale
        = (borrows.map BitVec.toNat).sum * scale * feeBps := Nat.mul_right_comm ..
      _ ≤ plan.loopCount * (2 ^ 256 - 1) * feeBps := Nat.mul_le_mul_right _ hsum
      _ = plan.loopCount * feeBps * (2 ^ 256 - 1) := Nat.mul_right_comm ..
      _ ≤ scale * (2 ^ 256 - 1) := Nat.mul_le_mul_right _ hrate
      _ < 2 ^ 256 * scale := by decide
  constructor
  · intro h
    cases htail : Schedule.tail? plan.borrowRatio plan.loopCount p with
    | none =>
      rw [quote, Schedule.ofPlan, htail] at h
      cases h
    | some borrows =>
      rw [quote_of_tail? htail] at h
      refine ⟨borrows, rfl, ?_⟩
      cases hadd : Word.add? p (Schedule.flashFee ⟨p, borrows⟩ feeBps) with
      | none =>
        rw [hadd] at h
        cases h
      | some value =>
        rw [hadd] at h
        cases h
        rw [Word.toNat_add? hadd, hfee borrows htail]
  · rintro ⟨borrows, htail, hv⟩
    have hbound := v.isLt
    have hvalue := hfee borrows htail
    have hfits : p.toNat + (Schedule.flashFee ⟨p, borrows⟩ feeBps).toNat < 2 ^ 256 := by omega
    have hadd : Word.add? p (Schedule.flashFee ⟨p, borrows⟩ feeBps) = some v := by
      rw [Word.add?, if_pos hfits]
      congr 1
      apply BitVec.eq_of_toNat_eq
      rw [toNat_add_of_lt hfits, hvalue, hv]
    rw [quote_of_tail? htail, hadd]

theorem le_of_quote (hrate : plan.loopCount * feeBps ≤ scale) (h : quote feeBps p plan = .ok v) : p ≤ v := by
  obtain ⟨borrows, -, hv⟩ := (quote_eq_ok_iff hrate).mp h
  rw [BitVec.le_def, hv]
  exact Nat.le_add_right _ _

/-- What is quoted for a principal is quoted for every smaller one, and the quotes are at least as far apart
as the principals. -/
theorem exists_quote_of_le (hrate : plan.loopCount * feeBps ≤ scale) (hle : p ≤ q)
    (h : quote feeBps q plan = .ok w) :
    ∃ v, quote feeBps p plan = .ok v ∧ v.toNat + q.toNat ≤ w.toNat + p.toNat := by
  obtain ⟨borrows', htail', hw⟩ := (quote_eq_ok_iff hrate).mp h
  obtain ⟨borrows, htail, hsum⟩ := Schedule.exists_tail?_of_le hle htail'
  have hbound := w.isLt
  have hprincipal := BitVec.le_def.mp hle
  have hfee : (borrows.map BitVec.toNat).sum * feeBps / scale ≤
      (borrows'.map BitVec.toNat).sum * feeBps / scale :=
    Nat.div_le_div_right (Nat.mul_le_mul_right _ hsum)
  have hnat : (BitVec.ofNat 256 (p.toNat + (borrows.map BitVec.toNat).sum * feeBps / scale)).toNat =
      p.toNat + (borrows.map BitVec.toNat).sum * feeBps / scale := toNat_ofNat_of_lt (by omega)
  exact ⟨_, (quote_eq_ok_iff hrate).mpr ⟨borrows, htail, hnat⟩, by omega⟩

theorem quote_lt_quote (hrate : plan.loopCount * feeBps ≤ scale) (hlt : p < q)
    (hp : quote feeBps p plan = .ok v) (hq : quote feeBps q plan = .ok w) : v < w := by
  have hlt := BitVec.lt_def.mp hlt
  obtain ⟨v', hv', hapart⟩ := exists_quote_of_le hrate (BitVec.le_def.mpr hlt.le) hq
  obtain rfl : v' = v := Except.ok.inj (hv'.symm.trans hp)
  rw [BitVec.lt_def]
  omega

theorem principal_unique (hrate : plan.loopCount * feeBps ≤ scale) (hp : quote feeBps p plan = .ok v)
    (hq : quote feeBps q plan = .ok v) : q = p := by
  rcases Nat.lt_trichotomy q.toNat p.toNat with hlt | heq | hlt
  · exact absurd (quote_lt_quote hrate (BitVec.lt_def.mpr hlt) hq hp) (BitVec.lt_irrefl v)
  · exact BitVec.eq_of_toNat_eq heq
  · exact absurd (quote_lt_quote hrate (BitVec.lt_def.mpr hlt) hp hq) (BitVec.lt_irrefl v)

theorem quote_zero (hrate : plan.loopCount * feeBps ≤ scale) : quote feeBps 0 plan = .ok 0 := by
  refine (quote_eq_ok_iff hrate).mpr ⟨_, Schedule.tail?_zero _ _, ?_⟩
  simp [List.sum_replicate]

section Bisection

theorem fits_iff : fits feeBps plan attached p ↔ ∃ v, quote feeBps p plan = .ok v ∧ v ≤ attached := by
  unfold fits
  cases quote feeBps p plan with
  | ok v => simp
  | error cause => simp

theorem fits_of_le (hrate : plan.loopCount * feeBps ≤ scale) (hle : p ≤ q)
    (h : fits feeBps plan attached q) : fits feeBps plan attached p := by
  obtain ⟨w, hw, hfits⟩ := fits_iff.mp h
  obtain ⟨v, hv, hapart⟩ := exists_quote_of_le hrate hle hw
  have hprincipal := BitVec.le_def.mp hle
  have hattached := BitVec.le_def.mp hfits
  exact fits_iff.mpr ⟨v, hv, BitVec.le_def.mpr (by omega)⟩

/-- Bisection keeps `lo` among the principals that fit and leaves none of them past `hi`. -/
theorem greatestFit_spec (hrate : plan.loopCount * feeBps ≤ scale) {lo hi : Word} (hle : lo ≤ hi)
    (hlo : fits feeBps plan attached lo) (hhi : ∀ p, fits feeBps plan attached p → p ≤ hi) :
    fits feeBps plan attached (greatestFit feeBps plan attached lo hi) ∧
      ∀ p, fits feeBps plan attached p → p ≤ greatestFit feeBps plan attached lo hi := by
  fun_induction greatestFit feeBps plan attached lo hi with
  | case1 lo hi h mid hmid ih =>
    have hnat : mid.toNat = lo.toNat + (hi.toNat - lo.toNat) / 2 + 1 := toNat_middle h
    have hlt := BitVec.lt_def.mp h
    exact ih (BitVec.le_def.mpr (by omega)) hmid hhi
  | case2 lo hi h mid hmid ih =>
    have hnat : (mid - 1).toNat = lo.toNat + (hi.toNat - lo.toNat) / 2 := toNat_middle_pred h
    have hmiddle : mid.toNat = lo.toNat + (hi.toNat - lo.toNat) / 2 + 1 := toNat_middle h
    refine ih (BitVec.le_def.mpr (by omega)) hlo fun p hp => ?_
    -- The middle does not fit, so nothing from there on does.
    have hbelow : ¬ mid ≤ p := fun hge => hmid (fits_of_le hrate hge hp)
    rw [BitVec.le_def] at hbelow ⊢
    omega
  | case3 lo hi h =>
    have heq : lo = hi := BitVec.eq_of_toNat_eq (by
      have hge := BitVec.le_def.mp (BitVec.not_lt.mp h)
      have hle := BitVec.le_def.mp hle
      omega)
    exact ⟨hlo, fun p hp => heq ▸ hhi p hp⟩

variable (feeBps plan attached) in
def greatest : Word := greatestFit feeBps plan attached 0 attached

variable (feeBps plan attached) in
def nextQuote : Option Word :=
  (Word.add? (greatest feeBps plan attached) 1).bind fun q => (quote feeBps q plan).toOption

theorem greatest_spec (hrate : plan.loopCount * feeBps ≤ scale) (attached : Word) :
    ∃ below, quote feeBps (greatest feeBps plan attached) plan = .ok below ∧ below ≤ attached ∧
      ∀ p v, quote feeBps p plan = .ok v → v ≤ attached → p ≤ greatest feeBps plan attached ∧ v ≤ below := by
  have hzero : (0 : Word) ≤ attached := BitVec.le_def.mpr (Nat.zero_le _)
  have hstart : fits feeBps plan attached 0 := fits_iff.mpr ⟨0, quote_zero hrate, hzero⟩
  have hend : ∀ p, fits feeBps plan attached p → p ≤ attached := by
    intro p hp
    obtain ⟨v, hv, hle⟩ := fits_iff.mp hp
    exact BitVec.le_trans (le_of_quote hrate hv) hle
  obtain ⟨hfits, hgreatest⟩ := greatestFit_spec hrate hzero hstart hend
  obtain ⟨below, hbelow, hle⟩ := fits_iff.mp hfits
  refine ⟨below, hbelow, hle, fun p v hv hattached => ?_⟩
  have hp := hgreatest p (fits_iff.mpr ⟨v, hv, hattached⟩)
  obtain ⟨v', hv', hapart⟩ := exists_quote_of_le hrate hp hbelow
  obtain rfl : v' = v := Except.ok.inj (hv'.symm.trans hv)
  have hprincipal := BitVec.le_def.mp hp
  exact ⟨hp, BitVec.le_def.mpr (by omega)⟩

theorem nextQuote_spec (hrate : plan.loopCount * feeBps ≤ scale) (attached : Word) :
    (∀ above, nextQuote feeBps plan attached = some above →
      attached < above ∧ ∃ p, quote feeBps p plan = .ok above) ∧
    ∀ p v, quote feeBps p plan = .ok v → attached < v →
      ∃ above, nextQuote feeBps plan attached = some above ∧ above ≤ v := by
  obtain ⟨below, hbelow, hle, hgreatest⟩ := greatest_spec hrate attached
  have hone : (1 : Word).toNat = 1 := rfl
  constructor
  · intro above habove
    obtain ⟨q, hq, hquote⟩ := Option.bind_eq_some_iff.mp habove
    have hnext := Word.toNat_add? hq
    have hok : quote feeBps q plan = .ok above := by
      cases hresult : quote feeBps q plan with
      | ok v => rw [hresult] at hquote; exact congrArg Except.ok (Option.some.inj hquote)
      | error cause => rw [hresult] at hquote; cases hquote
    refine ⟨BitVec.not_le.mp fun hfits => ?_, q, hok⟩
    have hq := BitVec.le_def.mp (hgreatest q above hok hfits).1
    omega
  · intro p v hv hattached
    have hpast : greatest feeBps plan attached < p := by
      refine BitVec.not_le.mp fun hp => ?_
      obtain ⟨v', hv', hapart⟩ := exists_quote_of_le hrate hp hbelow
      obtain rfl : v' = v := Except.ok.inj (hv'.symm.trans hv)
      have hprincipal := BitVec.le_def.mp hp
      have hfits := BitVec.le_def.mp hle
      rw [BitVec.lt_def] at hattached
      omega
    have hpast := BitVec.lt_def.mp hpast
    have hbound := p.isLt
    have hroom : (greatest feeBps plan attached).toNat + (1 : Word).toNat < 2 ^ 256 := by omega
    have hadd : Word.add? (greatest feeBps plan attached) 1 = some (greatest feeBps plan attached + 1) :=
      if_pos hroom
    have hnext := Word.toNat_add? hadd
    have hqp : greatest feeBps plan attached + 1 ≤ p := BitVec.le_def.mpr (by omega)
    obtain ⟨above, habove, hapart⟩ := exists_quote_of_le hrate hqp hv
    refine ⟨above, ?_, BitVec.le_def.mpr (by omega)⟩
    rw [nextQuote, hadd, Option.bind_some, habove]
    rfl

theorem principalFor_eq {below : Word}
    (h : quote feeBps (greatest feeBps plan attached) plan = .ok below) :
    principalFor feeBps plan attached =
      if below = attached then .ok (greatest feeBps plan attached)
      else .error (.invalid (.unmatchedValue attached
        (nearestQuote attached below (nextQuote feeBps plan attached)))) := by
  unfold principalFor
  show (quote feeBps (greatest feeBps plan attached) plan >>= _) = _
  rw [h]
  rfl

theorem principalFor_of_quote (hrate : plan.loopCount * feeBps ≤ scale)
    (h : quote feeBps p plan = .ok attached) : principalFor feeBps plan attached = .ok p := by
  obtain ⟨below, hbelow, hle, hgreatest⟩ := greatest_spec hrate attached
  obtain ⟨hp, hge⟩ := hgreatest p attached h (BitVec.le_refl attached)
  obtain rfl : below = attached := BitVec.le_antisymm hle hge
  rw [principalFor_eq hbelow, if_pos rfl, principal_unique hrate h hbelow]

theorem quote_of_principalFor (hrate : plan.loopCount * feeBps ≤ scale)
    (h : principalFor feeBps plan attached = .ok p) : quote feeBps p plan = .ok attached := by
  obtain ⟨below, hbelow, -⟩ := greatest_spec hrate attached
  rw [principalFor_eq hbelow] at h
  split_ifs at h with hquoted
  cases h
  rw [hbelow, hquoted]

end Bisection

/-- A quote, and none is nearer to the attached value; of two at the same distance it is the lower one. -/
structure ClosestQuote (feeBps : Nat) (plan : Plan) (attached v : Word) : Prop where
  quoted : ∃ p, quote feeBps p plan = .ok v
  nearest : ∀ p w, quote feeBps p plan = .ok w →
    Solver.distance v.toNat attached.toNat ≤ Solver.distance w.toNat attached.toNat
  lower : ∀ p w, quote feeBps p plan = .ok w →
    Solver.distance w.toNat attached.toNat = Solver.distance v.toNat attached.toNat → v ≤ w

theorem closest_nearestQuote (hrate : plan.loopCount * feeBps ≤ scale) {below : Word}
    (h : quote feeBps (greatest feeBps plan attached) plan = .ok below) :
    ClosestQuote feeBps plan attached (nearestQuote attached below (nextQuote feeBps plan attached)) := by
  obtain ⟨below', hbelow', hle, hgreatest⟩ := greatest_spec hrate attached
  obtain rfl : below' = below := Except.ok.inj (hbelow'.symm.trans h)
  obtain ⟨hnext, hleast⟩ := nextQuote_spec hrate attached
  have hfits := BitVec.le_def.mp hle
  -- A quote is at most the one below, or at least the one above.
  have hquotes : ∀ p w, quote feeBps p plan = .ok w → w.toNat ≤ below'.toNat ∨
      ∃ above, nextQuote feeBps plan attached = some above ∧ above.toNat ≤ w.toNat := by
    intro p w hw
    by_cases hattached : w ≤ attached
    · exact .inl (BitVec.le_def.mp (hgreatest p w hw hattached).2)
    · obtain ⟨above, habove, hge⟩ := hleast p w hw (BitVec.not_le.mp hattached)
      exact .inr ⟨above, habove, BitVec.le_def.mp hge⟩
  cases hquote : nextQuote feeBps plan attached with
  | none =>
    have hbelow : ∀ p w, quote feeBps p plan = .ok w → w.toNat ≤ below'.toNat := by
      intro p w hw
      rcases hquotes p w hw with hw | ⟨above, habove, -⟩
      · exact hw
      · rw [hquote] at habove
        cases habove
    refine ⟨⟨_, h⟩, fun p w hw => ?_, fun p w hw => ?_⟩
    all_goals
      have hw := hbelow p w hw
      simp only [nearestQuote, Solver.distance, BitVec.le_def]
      omega
  | some above =>
    obtain ⟨hpast, q, hq⟩ := hnext above hquote
    have hpast := BitVec.lt_def.mp hpast
    have hover : (above - attached).toNat = above.toNat - attached.toNat :=
      BitVec.toNat_sub_of_le (BitVec.le_def.mpr hpast.le)
    have hunder : (attached - below').toNat = attached.toNat - below'.toNat := BitVec.toNat_sub_of_le hle
    have hsides : ∀ p w, quote feeBps p plan = .ok w →
        w.toNat ≤ below'.toNat ∨ above.toNat ≤ w.toNat := by
      intro p w hw
      refine (hquotes p w hw).imp_right fun ⟨above', habove', hge⟩ => ?_
      obtain rfl : above = above' := Option.some.inj (hquote.symm.trans habove')
      exact hge
    simp only [nearestQuote, BitVec.lt_def, hover, hunder]
    split
    all_goals
      refine ⟨⟨_, by assumption⟩, fun p w hw => ?_, fun p w hw => ?_⟩
      all_goals
        have hw := hsides p w hw
        simp only [Solver.distance, BitVec.le_def]
        omega

/-- Every value that is attached either is the quote of one principal, which is found, or is refused with the
closest one. -/
theorem principalFor_inverts (feeBps : Nat) (plan : Plan) (hrate : plan.loopCount * feeBps ≤ scale)
    (attached : Word) :
    (∀ p, quote feeBps p plan = .ok attached →
      (∀ q, quote feeBps q plan = .ok attached → q = p) ∧
      principalFor feeBps plan attached = .ok p) ∧
    ((∀ p, quote feeBps p plan ≠ .ok attached) →
      ∃ v, principalFor feeBps plan attached = .error (.invalid (.unmatchedValue attached v)) ∧
        ClosestQuote feeBps plan attached v) := by
  refine ⟨fun p hp => ⟨fun q => principal_unique hrate hp, principalFor_of_quote hrate hp⟩, fun hnone => ?_⟩
  obtain ⟨below, hbelow, -⟩ := greatest_spec hrate attached
  have hmissed : below ≠ attached := fun heq => hnone _ (heq ▸ hbelow)
  refine ⟨_, ?_, closest_nearestQuote hrate hbelow⟩
  rw [principalFor_eq hbelow, if_neg hmissed]

/-- At a fee of 50 basis points on two loops no principal is quoted at 1014: the quotes of 1008 and of 1009 are
1013 and 1015. Of these two the lower one is named. -/
theorem principalFor_inverts_tie : 2 * 50 ≤ scale ∧ principalFor 50 ⟨2, 7000⟩ 1015 = .ok 1009 ∧
    principalFor 50 ⟨2, 7000⟩ 1014 = .error (.invalid (.unmatchedValue 1014 1013)) ∧
    ClosestQuote 50 ⟨2, 7000⟩ 1014 1013 := by
  have hrate : (⟨2, 7000⟩ : Plan).loopCount * 50 ≤ scale := by decide
  have hbelow : quote 50 1008 ⟨2, 7000⟩ = .ok 1013 := by decide +kernel
  have habove : quote 50 1009 ⟨2, 7000⟩ = .ok 1015 := by decide +kernel
  have hnone : ∀ p, quote 50 p ⟨2, 7000⟩ ≠ .ok 1014 := by
    intro p hp
    have hafter : ¬ p ≤ 1008 := fun hle => by
      obtain ⟨v, hv, hapart⟩ := exists_quote_of_le hrate hle hbelow
      obtain rfl : 1014 = v := Except.ok.inj (hp.symm.trans hv)
      have hprincipal : p.toNat ≤ 1008 := BitVec.le_def.mp hle
      have hapart : 1014 + 1008 ≤ 1013 + p.toNat := hapart
      omega
    have hbefore : ¬ 1009 ≤ p := fun hle => by
      obtain ⟨v, hv, hapart⟩ := exists_quote_of_le hrate hle hp
      obtain rfl : 1015 = v := Except.ok.inj (habove.symm.trans hv)
      have hprincipal : 1009 ≤ p.toNat := BitVec.le_def.mp hle
      have hapart : 1015 + p.toNat ≤ 1014 + 1009 := hapart
      omega
    have hlow : 1008 < p.toNat := BitVec.not_le.mp hafter
    have hhigh : p.toNat < 1009 := BitVec.not_le.mp hbefore
    omega
  have hnamed : principalFor 50 ⟨2, 7000⟩ 1014 = .error (.invalid (.unmatchedValue 1014 1013)) := by
    decide +kernel
  obtain ⟨v, hv, hclosest⟩ := (principalFor_inverts 50 ⟨2, 7000⟩ hrate 1014).2 hnone
  have hsame : (1013 : Word) = v := by
    rw [hnamed] at hv
    cases hv
    rfl
  exact ⟨hrate, ((principalFor_inverts 50 ⟨2, 7000⟩ hrate 1015).1 1009 habove).2, hnamed,
    hsame ▸ hclosest⟩

end Executor
end Gearing
