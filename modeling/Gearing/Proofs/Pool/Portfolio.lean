import Gearing.Proofs.Pool.Snapshot
import Gearing.Proofs.Pool.Sound
import Mathlib.Data.List.Induction

/-!
That the snapshot of an account shows all that there is: the assets on which the account has a
balance, in listing order, each with the totals of the position on it.

No balance is on an asset that is not listed, and a deposit without the collateral flag is none, so
whoever judges an account by its snapshot misses nothing.
-/
namespace Gearing.Pool
open Gearing.Action FixedPoint

def Op.listing? : Op → Option Address
  | .list r => some r.asset
  | _ => none

/-- Whether there is a balance of the account on the asset, before the indices. -/
def Holds (p : Pool) (account asset : Address) : Prop :=
  (p.balance account asset).deposit ≠ 0 ∨ (p.balance account asset).debt ≠ 0

instance (p : Pool) (account asset : Address) : Decidable (p.Holds account asset) :=
  inferInstanceAs (Decidable (_ ∨ _))

def Unlisted (p : Pool) : Prop :=
  ∀ account asset, asset ∉ p.assets → p.balance account asset = {}

section Listing
variable {p q : Pool} {op : Op} {a : Answer}

theorem list_of_not_mem {p : Pool} {r : Reserve} (h : r.asset ∉ p.assets) :
    p.list r = { p with reserves := p.reserves ++ [r] } := by
  have hnone : ¬ (p.reserve? r.asset).isSome := mt (p.isSome_reserve? r.asset).mp h
  exact if_neg hnone

theorem assets_list (p : Pool) (r : Reserve) :
    (p.list r).assets = if r.asset ∈ p.assets then p.assets else p.assets ++ [r.asset] := by
  by_cases h : r.asset ∈ p.assets
  · have hsome := (p.isSome_reserve? r.asset).mpr h
    rw [if_pos h, list, if_pos hsome]
    exact p.assets_mapReserve r.asset (fun _ => r) fun _ _ => rfl
  · rw [if_neg h, list_of_not_mem h]
    exact List.map_append

theorem assets_after (hlisted : p.LoansListed) (op : Op) :
    (p.after op).assets = p.assets ++ (op.listing?.toList.removeAll p.assets).eraseDups := by
  cases op with
  | list r =>
    rw [after_of_effect (.list r), assets_list]
    by_cases h : r.asset ∈ p.assets
    · simp [Op.listing?, List.removeAll, h]
    · simp [Op.listing?, List.removeAll, h, List.eraseDups_cons]
  | _ =>
    simp only [Op.listing?, Option.toList_none, List.removeAll, List.filter_nil, List.eraseDups_nil,
      List.append_nil]
    rcases after_cases _ hlisted with ⟨a, heffect⟩ | hsame
    · exact heffect.assets_eq (by simp)
    · exact congrArg assets hsame

/-- The listed assets are those that were listed once, each at the place of its first listing. -/
theorem assets_history (feeBps : Nat) (wrappedNative : Address) (ops : List Op) :
    (history { feeBps, wrappedNative } ops).assets = (ops.filterMap Op.listing?).eraseDups := by
  induction ops using List.reverseRecOn with
  | nil => rfl
  | append_singleton ops op ih =>
    have hsound := (sound_empty feeBps wrappedNative).history ops
    have hop : [op].filterMap Op.listing? = op.listing?.toList := by
      cases op <;> rfl
    have hnew : ∀ as bs : List Address, as.removeAll bs.eraseDups = as.removeAll bs := by
      intro as bs
      simp [List.removeAll]
    rw [history_append, List.filterMap_append, List.eraseDups_append, hop, ← hnew, ← ih]
    exact assets_after hsound.loansListed op

theorem Effect.assets_subset (h : p.Effect op a q) : p.assets ⊆ q.assets := by
  cases op with
  | list r =>
    cases h
    rw [assets_list]
    split
    · exact List.Subset.refl _
    · exact List.subset_append_left _ _
  | _ => exact (h.assets_eq (by simp)) ▸ List.Subset.refl _

/-- Balances are written on listed assets only, and undoing leaves an empty balance empty. -/
theorem Effect.balance_empty {account asset : Address} (h : p.Effect op a q)
    (hasset : asset ∉ p.assets) (hempty : p.balance account asset = {}) :
    q.balance account asset = {} := by
  have hother : ∀ {c r other}, p.reserve? c = some r → (other, c) ≠ (account, asset) :=
    fun hr hk => hasset ((Prod.mk.inj hk).2 ▸ mem_assets_of_reserve? hr)
  cases h with
  | list r =>
    rw [list_eq]
    exact hempty
  | deposit listed =>
    rw [credit, balance_record, balance_setBalance, if_neg (hother listed)]
    exact hempty
  | borrow listed =>
    rw [debit, balance_record, balance_setBalance, if_neg (hother listed)]
    exact hempty
  | borrowFor listed =>
    rw [debit, balance_record, balance_setBalance, if_neg (hother listed)]
    exact hempty
  | acquire => exact (balance_record ..).trans hempty
  | repay => exact (balance_record ..).trans hempty
  | @revert id j =>
    have hundo : ∀ es : List Entry,
        es.foldl (fun b e => e.undoAt (account, asset) b) ({} : Balance) = {} := by
      intro es
      induction es with
      | nil => rfl
      | cons e es ih =>
        have he : e.undoAt (account, asset) {} = {} := by
          cases e <;> simp [Entry.undoAt, Word.clampSub]
        rw [List.foldl_cons, he, ih]
    rw [balance_undoAll]
    exact hempty ▸ hundo j.entries
  | _ => exact hempty

theorem Sound.unlisted_history (hsound : p.Sound) (h : p.Unlisted) (ops : List Op) :
    (p.history ops).Unlisted := by
  induction ops generalizing p with
  | nil => exact h
  | cons op ops ih =>
    refine ih (hsound.after op) ?_
    rcases after_cases op hsound.loansListed with ⟨a, heffect⟩ | hsame
    · intro account asset hasset
      have hbefore : asset ∉ p.assets := fun hmem => hasset (heffect.assets_subset hmem)
      exact heffect.balance_empty hbefore (h account asset hbefore)
    · rw [hsame]
      exact h

end Listing

section Snapshot
variable {p : Pool} {account asset : Address}

theorem holding?_eq_none_iff {r : Reserve} :
    p.holding? account r = none ↔ ¬ p.Holds account r.asset := by
  simp [holding?, Holds]

theorem asset_of_holding? {r : Reserve} {h : Holding} (hh : p.holding? account r = some h) :
    h.asset = r.asset := by
  rw [holding?] at hh
  split at hh
  · cases hh
  · cases hh
    rfl

theorem totals_of_holding? {r : Reserve} {h : Holding} (hh : p.holding? account r = some h) :
    h.collateral = (p.totals account r).1 ∧ h.debt = (p.totals account r).2 := by
  rw [holding?] at hh
  split at hh
  · cases hh
  · cases hh
    exact ⟨rfl, rfl⟩

theorem collateralEnabled_of_holding? {r : Reserve} {h : Holding}
    (hh : p.holding? account r = some h) :
    h.collateralEnabled = (p.balance account h.asset).collateral := by
  rw [asset_of_holding? hh]
  rw [holding?] at hh
  split at hh
  · cases hh
  · cases hh
    rfl

theorem totals_of_not_holds {r : Reserve} (h : ¬ p.Holds account r.asset) :
    (p.totals account r).1 = 0 ∧ (p.totals account r).2 = 0 := by
  obtain ⟨hdeposit, hdebt⟩ := not_or.mp h
  simp only [totals, not_not.mp hdeposit, not_not.mp hdebt]
  exact ⟨rayMul_zero _, rayMul_zero _⟩

theorem assets_snapshot (p : Pool) (account : Address) :
    (p.snapshot account).holdings.map (·.asset) = p.assets.filter (p.Holds account ·) := by
  show (p.reserves.filterMap (p.holding? account)).map (·.asset) =
    (p.reserves.map (·.asset)).filter (p.Holds account ·)
  induction p.reserves with
  | nil => rfl
  | cons r rs ih =>
    rw [List.map_cons]
    by_cases hholds : p.Holds account r.asset
    · obtain ⟨h, hh⟩ := Option.ne_none_iff_exists'.mp (holding?_eq_none_iff.not_left.mpr hholds)
      rw [List.filterMap_cons_some hh, List.filter_cons_of_pos (by simpa using hholds), List.map_cons,
        asset_of_holding? hh, ih]
    · rw [List.filterMap_cons_none (holding?_eq_none_iff.mpr hholds),
        List.filter_cons_of_neg (by simpa using hholds), ih]

theorem holding?_snapshot {r : Reserve} (hnodup : p.assets.Nodup) (hr : p.reserve? asset = some r) :
    (p.snapshot account).holding? asset = p.holding? account r := by
  have hasset := asset_of_reserve? hr
  -- A holding under the asset can only be the one on `r`.
  have hunique : ∀ h ∈ (p.snapshot account).holdings, h.asset = asset →
      p.holding? account r = some h := by
    intro h hmem hh
    obtain ⟨s, hs, hsh⟩ := List.mem_filterMap.mp hmem
    have hsr : s = r := eq_of_mem_reserves hnodup hs (mem_of_reserve? hr)
      ((asset_of_holding? hsh).symm.trans (hh.trans hasset.symm))
    exact hsr ▸ hsh
  cases hfound : (p.snapshot account).holding? asset with
  | some h =>
    exact (hunique h (List.mem_of_find?_eq_some hfound) (by simpa using List.find?_some hfound)).symm
  | none =>
    cases hh : p.holding? account r with
    | none => rfl
    | some h =>
      have hmem : h ∈ (p.snapshot account).holdings :=
        List.mem_filterMap.mpr ⟨r, mem_of_reserve? hr, hh⟩
      have hne := List.find?_eq_none.mp hfound h hmem
      exact absurd ((asset_of_holding? hh).trans hasset) (by simpa using hne)

theorem position_of_listed {r : Reserve} (hr : p.reserve? asset = some r) :
    position account asset p =
      .ok ⟨account, asset, (p.totals account r).1, (p.totals account r).2⟩ p := by
  simp only [position, run_bind, reserve_of_listed hr, run_get]
  rfl

end Snapshot

/-- The snapshot of an account hides nothing: its holdings are the assets with a balance, each one
once and in the order of listing, and they show what the positions show. Where they show nothing,
there is nothing. -/
theorem snapshot_complete {feeBps : Nat} {wrappedNative : Address} {ops : List Op} {p : Pool}
    (hp : p = history { feeBps, wrappedNative } ops) (account : Address) :
    p.assets = (ops.filterMap Op.listing?).eraseDups ∧ p.assets.Nodup ∧
      (p.snapshot account).holdings.map (·.asset) = p.assets.filter (p.Holds account ·) ∧
      (∀ asset, p.Holds account asset → asset ∈ p.assets) ∧
      (∀ asset ∈ p.assets, ∃ x, position account asset p = .ok x p ∧
        if p.Holds account asset then
          ∃ h, (p.snapshot account).holding? asset = some h ∧
            h.collateral = x.deposited ∧ h.debt = x.borrowed
        else
          (p.snapshot account).holding? asset = none ∧ x.deposited = 0 ∧ x.borrowed = 0) ∧
      ∀ h ∈ (p.snapshot account).holdings,
        (p.balance account h.asset).deposit ≠ 0 → h.collateralEnabled := by
  have hempty := sound_empty feeBps wrappedNative
  have hsound : p.Sound := hp ▸ hempty.history ops
  have hunlisted : p.Unlisted := hp ▸ hempty.unlisted_history (fun _ _ _ => rfl) ops
  refine ⟨hp ▸ assets_history feeBps wrappedNative ops, hsound.assets, assets_snapshot p account,
    fun asset hholds => ?_, fun asset hasset => ?_, fun h hmem hdeposit => ?_⟩
  · by_contra hasset
    rw [Holds, hunlisted account asset hasset] at hholds
    exact hholds.elim (· rfl) (· rfl)
  · obtain ⟨r, hr⟩ := Option.isSome_iff_exists.mp ((p.isSome_reserve? asset).mpr hasset)
    have hr' := asset_of_reserve? hr
    refine ⟨_, position_of_listed hr, ?_⟩
    rw [holding?_snapshot hsound.assets hr]
    split
    · rename_i hholds
      obtain ⟨h, hh⟩ := Option.ne_none_iff_exists'.mp
        (holding?_eq_none_iff.not_left.mpr (hr'.symm ▸ hholds))
      exact ⟨h, hh, totals_of_holding? hh⟩
    · rename_i hnot
      rw [← hr'] at hnot
      obtain ⟨hdeposit, hdebt⟩ := totals_of_not_holds hnot
      exact ⟨holding?_eq_none_iff.mpr hnot, hdeposit, hdebt⟩
  · obtain ⟨r, -, hh⟩ := List.mem_filterMap.mp hmem
    have hflagged := hsound.flagged account h.asset
    rw [collateralEnabled_of_holding? hh]
    by_contra hcollateral
    exact hdeposit (hflagged (by simpa using hcollateral))

/-- A reserve that is replaced while it is in use, and a deposit that is reverted. -/
def sampleListings : List Op := [
  .list { asset := ⟨1⟩, symbol := "A", decimals := 18 },
  .list { asset := ⟨2⟩, symbol := "B", decimals := 6 },
  .supply ⟨1⟩ 1000,
  .deposit ⟨1⟩ 100 ⟨7⟩,
  .checkpoint ⟨7⟩,
  .deposit ⟨2⟩ 5 ⟨7⟩,
  .borrow ⟨1⟩ 50 ⟨7⟩ ⟨7⟩,
  .list { asset := ⟨1⟩, symbol := "A", decimals := 18, liquidityIndex := ray + ray },
  .revert 1]

theorem snapshot_complete_replaced :
    let p := history { feeBps := 9 } sampleListings
    p.assets = [⟨1⟩, ⟨2⟩] ∧
      (p.snapshot ⟨7⟩).holdings.map (fun h => (h.asset, h.collateral)) = [(⟨1⟩, 200)] ∧
      (p.snapshot ⟨7⟩).holdings.map (·.asset) = p.assets.filter (p.Holds ⟨7⟩ ·) ∧
      ∀ h ∈ (p.snapshot ⟨7⟩).holdings, (p.balance ⟨7⟩ h.asset).deposit ≠ 0 → h.collateralEnabled := by
  have h := snapshot_complete (p := history { feeBps := 9 } sampleListings) rfl ⟨7⟩
  exact ⟨by decide +kernel, by decide +kernel, h.2.2.1, h.2.2.2.2.2⟩

end Gearing.Pool
