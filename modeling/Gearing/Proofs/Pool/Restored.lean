import Gearing.Proofs.Pool.Log
import Gearing.Proofs.Pool.Rollback

/-!
A checkpoint that is reverted after its reserves changed under it.

An entry holds the amounts as they were written to the books, so a price, an index or a flag that changes
later does not change what is undone. Liquidity that was supplied in the meantime lies on top of what the
entries give back and take away, and is still there in the end.
-/
namespace Gearing.Pool

/-- Operations that concern no account: supplies, and changes of a reserve that leave its liquidity alone. -/
def Op.Outside : Op → Prop
  | .supply _ _ => True
  | .updateReserve _ c => c.liquidity = none
  | _ => False

instance (op : Op) : Decidable op.Outside :=
  match op with
  | .supply .. => inferInstanceAs (Decidable True)
  | .updateReserve .. => inferInstanceAs (Decidable (_ = _))
  | .list _ | .approve .. | .deposit .. | .borrow .. | .checkpoint _ | .revert _ | .commit _
  | .acquire .. | .repay .. | .wrap _ | .unwrap _ => inferInstanceAs (Decidable False)

/-- What the operation supplies to an asset from outside. -/
def Op.supplies (c : Address) : Op → Nat
  | .supply asset amount => if asset = c then amount.toNat else 0
  | _ => 0

def suppliedTo (c : Address) (ds : List Deed) : Nat := (ds.map fun d => d.op.supplies c).sum

theorem suppliedTo_concat (c : Address) (ds : List Deed) (d : Deed) :
    suppliedTo c (ds ++ [d]) = suppliedTo c ds + d.op.supplies c := by
  simp [suppliedTo]

theorem Op.supplies_own {op : Op} {account : Address} {n : Nat} (h : op.Own account n) (c : Address) :
    op.supplies c = 0 := by
  cases op with
  | supply => cases h
  | _ => rfl

section Reserves
variable (p : Pool) (reserves : List Reserve)

theorem undo_reserves (e : Entry) : ∃ reserves',
    ({ p with reserves } : Pool).undo e = { p.undo e with reserves := reserves' } := by
  cases e with
  | deposit | acquire | repay => exact ⟨_, rfl⟩
  | borrow =>
    simp only [undo]
    split
    · exact ⟨_, rfl⟩
    · exact ⟨_, rfl⟩

theorem undoAll_reserves (es : List Entry) : ∃ reserves',
    ({ p with reserves } : Pool).undoAll es = { p.undoAll es with reserves := reserves' } := by
  induction es generalizing p reserves with
  | nil => exact ⟨reserves, rfl⟩
  | cons e es ih =>
    obtain ⟨rs, hundo⟩ := undo_reserves p reserves e
    obtain ⟨rs', hundoAll⟩ := ih (p.undo e) rs
    exact ⟨rs', (congrArg (·.undoAll es) hundo).trans hundoAll⟩

end Reserves

theorem Undoable.mapReserve {p₀ p : Pool} {reserves : List Reserve} {id : Nat} {account : Address}
    {es : List Entry} (h : Undoable { p₀ with reserves } id account es p) (asset : Address)
    (f : Reserve → Reserve) :
    ∃ reserves', Undoable { p₀ with reserves := reserves' } id account es (p.mapReserve asset f) := by
  obtain ⟨rs, hundo⟩ :=
    undoAll_reserves (p.close id account) (p.mapReserve asset f).reserves es
  have hbooks : (((p.mapReserve asset f).close id account).undoAll es).SameBooks
      { p₀ with reserves := rs } :=
    hundo ▸ { h.books with reserves := rfl }
  exact ⟨rs, ⟨h.issued, h.since, h.own, h.others⟩, h.journal, hbooks⟩

/-- Undoing the journal of the checkpoint that was opened on `p₀` leads back there, but for the reserves;
and on each of them to the liquidity of `p₀` with the supplies since, whatever else lies on top. -/
structure Rewinds (p₀ : Pool) (account : Address) (es : List Entry) (ds : List Deed) (p : Pool) :
    Prop where
  undoable : ∃ reserves, Undoable { p₀ with reserves } (p₀.lastCheckpoint + 1) account es p
  liquidity : ∀ c r₀, p₀.reserve? c = some r₀ → ∃ r, p.reserve? c = some r ∧
    ∀ t, unwound c es (r.liquidity.toNat + t) = r₀.liquidity.toNat + suppliedTo c ds + t

namespace Rewinds
variable {p₀ p q : Pool} {account : Address} {es : List Entry} {ds : List Deed} {op : Op} {a : Answer}

theorem start (hp : p₀.Sound) (hclosed : p₀.opened.get? account = none) :
    Rewinds p₀ account [] [] (p₀.openJournal account) where
  undoable := ⟨p₀.reserves, .start hp hclosed⟩
  liquidity _ r₀ hr₀ := ⟨r₀, hr₀, fun _ => rfl⟩

theorem own (h : Rewinds p₀ account es ds p) (hp₀ : p₀.Sound) (hp : p.Sound)
    (hop : op.Own account p₀.lastTicket) (heffect : p.Effect op a q) (hexact : op.Exact p) :
    ∃ e, Rewinds p₀ account (e :: es) (ds ++ [⟨p, op⟩]) q := by
  obtain ⟨reserves, hundo⟩ := h.undoable
  obtain ⟨e, hentry, hundo'⟩ := hundo.step hp (fun _ => hp₀.loans_fresh) hop heffect hexact
  refine ⟨e, ⟨reserves, hundo'⟩, fun c r₀ hr₀ => ?_⟩
  obtain ⟨r, hr, hunwound⟩ := h.liquidity c r₀ hr₀
  obtain ⟨l, hl, hback⟩ := (heffect.counted hexact hentry).back hr
  refine ⟨_, hl, fun t => ?_⟩
  rw [suppliedTo_concat, Op.supplies_own hop, Nat.add_zero, ← hunwound, unwound, hback]

theorem outside (h : Rewinds p₀ account es ds p) (hop : op.Outside) (heffect : p.Effect op a q)
    (hexact : op.Exact p) : Rewinds p₀ account es (ds ++ [⟨p, op⟩]) q := by
  obtain ⟨reserves, hundo⟩ := h.undoable
  cases heffect with
  | @supply asset amount _ listed =>
    refine ⟨hundo.mapReserve asset _, fun c r₀ hr₀ => ?_⟩
    obtain ⟨r, hr, hunwound⟩ := h.liquidity c r₀ hr₀
    refine ⟨_, by rw [addLiquidity, reserve?_mapLiquidity, hr, Option.map_some], fun t => ?_⟩
    rw [suppliedTo_concat, Op.supplies, asset_of_reserve? hr]
    by_cases hc : c = asset
    · subst hc
      rw [if_pos rfl, if_pos rfl, toNat_add_of_lt (hexact r hr), Nat.add_assoc, hunwound]
      omega
    · rw [if_neg hc, if_neg (Ne.symm hc), Nat.add_zero]
      exact hunwound t
  | @updateReserve asset c _ listed =>
    refine ⟨hundo.mapReserve asset _, fun c' r₀ hr₀ => ?_⟩
    obtain ⟨r, hr, hunwound⟩ := h.liquidity c' r₀ hr₀
    have hliquidity : (if r.asset = asset then r.patch c else r).liquidity = r.liquidity := by
      split
      · exact congrArg (·.getD r.liquidity) hop
      · rfl
    refine ⟨_, by rw [reserve?_mapReserve _ _ _ fun r hr => (r.asset_patch c).trans hr, hr,
      Option.map_some], fun t => ?_⟩
    rw [hliquidity, suppliedTo_concat]
    exact hunwound t
  | _ => cases hop

end Rewinds

/-- What a pool holds for accounts is as it was in `p₀`, and what was supplied since has come on top of the
liquidity. -/
structure Restored (p₀ : Pool) (ds : List Deed) (q : Pool) : Prop where
  balance : ∀ account asset, q.balance account asset = p₀.balance account asset
  allowance : ∀ account delegatee asset,
    q.allowance account delegatee asset = p₀.allowance account delegatee asset
  loans : ∀ t, q.loans.get? t = p₀.loans.get? t
  feesCollected : ∀ asset, q.feesCollected asset = p₀.feesCollected asset
  liquidity : ∀ c r₀, p₀.reserve? c = some r₀ → ∃ r, q.reserve? c = some r ∧
    r.liquidity.toNat = r₀.liquidity.toNat + suppliedTo c ds

theorem Rewinds.restored {p₀ p : Pool} {account : Address} {es : List Entry} {ds : List Deed}
    (h : Rewinds p₀ account es ds p) (hp₀ : p₀.Sound) (hfits : p.RevertFits (p₀.lastCheckpoint + 1)) :
    ∃ q, p.Effect (.revert (p₀.lastCheckpoint + 1)) .done q ∧ Restored p₀ ds q := by
  obtain ⟨reserves, hundo⟩ := h.undoable
  have heffect := Effect.revert hundo.journal
  obtain ⟨hbooks, hloans⟩ := hundo.revert (fun _ => hp₀.loans_fresh) heffect
  refine ⟨_, heffect, hbooks.balance, hbooks.allowance, hloans, hbooks.feesCollected,
    fun c r₀ hr₀ => ?_⟩
  obtain ⟨r, hr, hunwound⟩ := h.liquidity c r₀ hr₀
  obtain ⟨l, hl, hvalue⟩ := reserve?_undoAll (p := p.close (p₀.lastCheckpoint + 1) account) hr
    (hfits _ hundo.journal)
  exact ⟨_, hl, hvalue.trans (hunwound 0)⟩

/-- Done for one account, own and delegated, while the indices double and triple, liquidity is supplied, and
the reserve is paused in the end. Two of the operations are refused. -/
def reshaped : List Op :=
  [.deposit ⟨1⟩ 1000 ⟨7⟩,
    .updateReserve ⟨1⟩ { liquidityIndex := some (2 * FixedPoint.ray)
                         borrowIndex := some (3 * FixedPoint.ray) },
    .borrow ⟨1⟩ 120 ⟨8⟩ ⟨7⟩, .borrow ⟨1⟩ 900 ⟨8⟩ ⟨7⟩, .supply ⟨1⟩ 5000, .acquire ⟨1⟩ 10000 ⟨7⟩,
    .deposit ⟨1⟩ 40 ⟨7⟩, .repay 1 10009, .updateReserve ⟨1⟩ { active := some false },
    .deposit ⟨1⟩ 7 ⟨7⟩]

end Gearing.Pool
