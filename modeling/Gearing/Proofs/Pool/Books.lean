import Gearing.Proofs.Pool.Restored
import Gearing.Proofs.Pool.Snapshot
import Gearing.Proofs.Pool.Totals

/-!
The books of a reserve balance: its tokens, free, out at flash or owed, are what accounts have deposited, the
fees, and what was supplied from outside.

The difference between the two sides is followed as one integer. Every operation that is noted down moves
both sides alike, as long as nothing wraps and the indices are one, so that an amount counts for itself.
-/
namespace Gearing

/-- What the entry lends at flash. -/
def Entry.lent : Entry → Nat
  | .acquire _ _ amount => amount.toNat
  | _ => 0

/-- What of a flash loan the entry returns, without the fee. -/
def Entry.returned : Entry → Nat
  | .repay _ amount _ => amount.toNat
  | _ => 0

namespace Pool
open FixedPoint

/-- What the tokens of a reserve come to beyond its deposits and fees. -/
def surplus (p : Pool) (c : Address) : Int :=
  (p.free c + p.outstanding c + p.totalDebt c : Nat) - (p.totalDeposit c + (p.feesCollected c).toNat : Nat)

def UnitIndices (p : Pool) : Prop :=
  ∀ r ∈ p.reserves, r.liquidityIndex = ray ∧ r.borrowIndex = ray

instance (p : Pool) : Decidable p.UnitIndices := inferInstanceAs (Decidable (∀ r ∈ _, _))

theorem share_of_unit {a index : Word} (hindex : index = ray)
    (h : a.toNat * ray.toNat + (index / 2).toNat < 2 ^ 256) : share a index = a := by
  subst hindex
  exact rayMul_ray h

/-- Neither lists nor changes a reserve, and reverts nothing. -/
def Op.Plain : Op → Prop
  | .list _ | .updateReserve .. | .revert _ => False
  | _ => True

section
variable {p q : Pool} {op : Op} {a : Answer} {account asset c : Address} {e : Entry}

theorem Effect.outstanding_issued {amount : Word} (h : p.Effect (.acquire asset amount account) a q)
    (hp : p.Sound) (c : Address) :
    q.outstanding c = p.outstanding c + if asset = c then amount.toNat else 0 := by
  have hfresh : p.loans.weight (fun _ loan => lentOn c loan) (p.lastTicket + 1) = 0 := by
    rw [Table.weight, hp.loans_fresh (Nat.lt_succ_self _)]
    rfl
  have hset := Table.total_set (w := fun _ loan => lentOn c loan) (t := p.loans) (p.lastTicket + 1)
    ⟨asset, amount, p.flashFee amount, account⟩
  rw [hfresh, Nat.add_zero] at hset
  rw [outstanding, h.loans_acquire, hset]
  rfl

theorem Effect.outstanding_repaid {ticket : Nat} {paid : Word} {loan : Loan}
    (h : p.Effect (.repay ticket paid) a q) (hloan : p.loans.get? ticket = some loan) (c : Address) :
    q.outstanding c + (if loan.asset = c then loan.amount.toNat else 0) = p.outstanding c := by
  have herase := Table.total_erase (w := fun _ loan => lentOn c loan) (t := p.loans) ticket
  rw [Table.weight, hloan] at herase
  rw [outstanding, h.loans_repay]
  exact herase

theorem Effect.outstanding_noted (h : p.Effect op a q) (hp : p.Sound)
    (hentry : op.entry? p = some (account, e)) (c : Address) :
    q.outstanding c + (if e.asset = c then e.returned else 0) =
      p.outstanding c + if e.asset = c then e.lent else 0 := by
  have heffect := h
  cases h with
  | deposit listed =>
    rw [Op.entry?, listed] at hentry
    cases hentry
    exact congrArg (· + _) (outstanding_congr (fun t => congrArg (·.get? t) heffect.loans_deposit) c)
  | borrow listed | borrowFor listed =>
    rw [Op.entry?, listed] at hentry
    cases hentry
    exact congrArg (· + _) (outstanding_congr (fun t => congrArg (·.get? t) heffect.loans_borrow) c)
  | acquire =>
    cases hentry
    show _ + ite _ 0 0 = _
    rw [ite_self]
    exact heffect.outstanding_issued hp c
  | repay out =>
    rw [Op.entry?, out] at hentry
    cases hentry
    show _ = _ + ite _ 0 0
    rw [ite_self]
    exact heffect.outstanding_repaid out c
  | _ => cases hentry

/-- Where an amount counts for itself, what is noted down moves both sides alike. -/
theorem Effect.flow_balanced (h : p.Effect op a q) (hunit : p.UnitIndices) (hexact : op.Exact p)
    (hentry : op.entry? p = some (account, e)) :
    e.flow.paidIn + e.flow.owed + e.lent =
      e.flow.paidOut + e.flow.supplied + e.flow.fees + e.returned := by
  cases h with
  | deposit listed =>
    have hshare := share_of_unit (hunit _ (mem_of_reserve? listed)).1 (hexact _ listed).2.1
    rw [Op.entry?, listed] at hentry
    cases hentry
    simp [Entry.flow, Entry.lent, Entry.returned, hshare]
  | borrow listed | borrowFor listed =>
    have hshare := share_of_unit (hunit _ (mem_of_reserve? listed)).2 (hexact _ listed).1
    rw [Op.entry?, listed] at hentry
    cases hentry
    simp [Entry.flow, Entry.lent, Entry.returned, hshare]
  | acquire =>
    cases hentry
    simp [Entry.flow, Entry.lent, Entry.returned]
  | repay out =>
    have howed := toNat_add_of_lt (hexact _ out).1
    rw [Op.entry?, out] at hentry
    cases hentry
    simp only [Entry.flow, Entry.lent, Entry.returned, howed]
    omega
  | _ => cases hentry

theorem Effect.surplus_noted (h : p.Effect op a q) (hp : p.Sound) (hunit : p.UnitIndices)
    (hexact : op.Exact p) (hentry : op.entry? p = some (account, e)) (hc : c ∈ p.assets) :
    q.surplus c = p.surplus c := by
  have hconcerns := (h.noted hp hentry).concerns
  have hcounted := h.counted hexact hentry
  have hfree := hcounted.free hc
  have hdeposit := hcounted.totalDeposit hconcerns c
  have hdebt := hcounted.totalDebt hconcerns c
  have hfees := hcounted.fees c
  have hout := h.outstanding_noted hp hentry c
  have hflow := h.flow_balanced hunit hexact hentry
  rw [e.paidIn_eq, e.paidOut_eq] at hfree
  rw [e.feeOn_eq] at hfees
  unfold surplus
  by_cases hasset : e.asset = c
  · simp only [hasset, if_true] at hfree hdeposit hdebt hfees hout
    omega
  · simp only [hasset, if_false] at hfree hdeposit hdebt hfees hout
    omega

theorem free_supply {amount : Word} (hexact : (Op.supply asset amount).Exact p) (hc : c ∈ p.assets) :
    (p.addLiquidity asset amount).free c = p.free c + (Op.supply asset amount).supplies c := by
  obtain ⟨r, hr⟩ := Option.isSome_iff_exists.mp ((p.isSome_reserve? c).mpr hc)
  have hreserve := p.reserve?_mapLiquidity asset (· + amount) c
  rw [hr, Option.map_some, asset_of_reserve? hr] at hreserve
  rw [free_of_reserve? hr, addLiquidity, free_of_reserve? hreserve, Op.supplies]
  by_cases hasset : c = asset
  · subst hasset
    simpa using toNat_add_of_lt (hexact r hr)
  · simp [hasset, Ne.symm hasset]

theorem Op.supplies_of_entry {n : Address × Entry} (h : op.entry? p = some n) (c : Address) :
    op.supplies c = 0 := by
  cases op with
  | supply => cases h
  | _ => rfl

theorem Effect.surplus_eq (h : p.Effect op a q) (hop : op.Plain) (hp : p.Sound) (hunit : p.UnitIndices)
    (hexact : op.Exact p) (hc : c ∈ p.assets) : q.surplus c = p.surplus c + (op.supplies c : Nat) := by
  cases hentry : op.entry? p with
  | some n =>
    rw [Op.supplies_of_entry hentry, h.surplus_noted hp hunit hexact hentry hc]
    exact (Int.add_zero _).symm
  | none =>
    cases h with
    | list | updateReserve | revert => exact hop.elim
    | deposit listed | borrow listed | borrowFor listed =>
      rw [Op.entry?, listed] at hentry
      cases hentry
    | acquire => cases hentry
    | repay out =>
      rw [Op.entry?, out] at hentry
      cases hentry
    | @supply asset amount _ _ =>
      have hfree := free_supply hexact hc
      have hrest : (p.addLiquidity asset amount).surplus c =
        ((p.addLiquidity asset amount).free c + p.outstanding c + p.totalDebt c : Nat) -
          (p.totalDeposit c + (p.feesCollected c).toNat : Nat) := rfl
      rw [hrest, hfree, surplus]
      omega
    | approve | checkpoint | commit | wrap | unwrap => exact (Int.add_zero _).symm

theorem Effect.reserves_eq (h : p.Effect op a q) (hop : op.Plain) :
    ∃ asset f, q.reserves = (p.mapLiquidity asset f).reserves := by
  have hid : p.reserves = (p.mapLiquidity .zero id).reserves := by rw [mapLiquidity_id]
  cases h with
  | list | updateReserve | revert => exact hop.elim
  | @supply asset amount => exact ⟨asset, (· + amount), rfl⟩
  | @deposit asset amount => exact ⟨asset, (· + amount), record_reserves ..⟩
  | @borrow asset amount => exact ⟨asset, (· - amount), record_reserves ..⟩
  | @borrowFor asset amount => exact ⟨asset, (· - amount), record_reserves ..⟩
  | @acquire asset amount => exact ⟨asset, (· - amount), record_reserves ..⟩
  | @repay _ _ loan => exact ⟨loan.asset, (· + (loan.amount + loan.fee)), record_reserves ..⟩
  | approve | checkpoint | commit | wrap | unwrap => exact ⟨.zero, id, hid⟩

theorem Effect.unitIndices (h : p.Effect op a q) (hop : op.Plain) (hunit : p.UnitIndices) :
    q.UnitIndices := by
  obtain ⟨asset, f, hreserves⟩ := h.reserves_eq hop
  intro r hr
  rw [hreserves] at hr
  obtain ⟨r₀, hr₀, rfl⟩ := List.mem_map.mp hr
  split
  · exact hunit r₀ hr₀
  · exact hunit r₀ hr₀

end

/-- From `p` to `q` the books have gained what was supplied from outside and are in balance otherwise; what
this rests on is still there. -/
structure Gains (supplied : Address → Nat) (p q : Pool) : Prop where
  sound : q.Sound
  unit : q.UnitIndices
  assets : q.assets = p.assets
  surplus : ∀ c ∈ p.assets, q.surplus c = p.surplus c + (supplied c : Nat)

namespace Gains
variable {p q r : Pool} {supplied supplied' : Address → Nat}

theorem refl (hsound : p.Sound) (hunit : p.UnitIndices) : Gains (fun _ => 0) p p :=
  ⟨hsound, hunit, rfl, fun _ _ => (Int.add_zero _).symm⟩

theorem cast (h : Gains supplied p q) (hsame : ∀ c, supplied c = supplied' c) : Gains supplied' p q :=
  (funext hsame : supplied = supplied') ▸ h

theorem trans (h : Gains supplied p q) (h' : Gains supplied' q r) :
    Gains (fun c => supplied c + supplied' c) p r where
  sound := h'.sound
  unit := h'.unit
  assets := h'.assets.trans h.assets
  surplus c hc := by
    rw [h'.surplus c (h.assets ▸ hc), h.surplus c hc]
    omega

theorem of_effect {op : Op} {a : Answer} (h : p.Effect op a q) (hop : op.Plain) (hsound : p.Sound)
    (hunit : p.UnitIndices) (hexact : op.Exact p) : Gains (fun c => op.supplies c) p q where
  sound := h.sound hsound
  unit := h.unitIndices hop hunit
  assets := h.assets_eq fun r hr => by rw [hr] at hop; exact hop
  surplus _ hc := h.surplus_eq hop hsound hunit hexact hc

theorem of_carried {ops : List Op} (h : p.Carried ops q) (hops : ∀ op ∈ ops, op.Plain)
    (hsound : p.Sound) (hunit : p.UnitIndices) (hexact : p.Exact ops) :
    Gains (fun c => (ops.map (Op.supplies c)).sum) p q := by
  induction h with
  | nil p => exact .refl hsound hunit
  | cons head tail ih =>
    have hhead := of_effect head (hops _ List.mem_cons_self) hsound hunit hexact.1
    have hrest := hexact.2
    rw [after_of_effect head] at hrest
    have htail := ih (fun op hop => hops op (List.mem_cons_of_mem _ hop)) hhead.sound hhead.unit hrest
    simpa using hhead.trans htail

theorem of_sameState (h : q.SameState p) (hsound : q.Sound) (hunit : p.UnitIndices) :
    Gains (fun _ => 0) p q where
  sound := hsound
  unit r hr := hunit r (h.reserves ▸ hr)
  assets := by rw [Pool.assets, h.reserves]; rfl
  surplus c _ := by
    have hdebt : q.totalDebt c = p.totalDebt c :=
      column_congr rfl (fun a c' => congrArg (·.debt.toNat) (h.balance a c')) c
    have hdeposit : q.totalDeposit c = p.totalDeposit c :=
      column_congr rfl (fun a c' => congrArg (·.deposit.toNat) (h.balance a c')) c
    rw [Pool.surplus, Pool.surplus, free_eq_of_reserves h.reserves, outstanding_congr h.loans, hdebt,
      hdeposit, h.feesCollected]
    exact (Int.add_zero _).symm

end Gains
end Pool
end Gearing
