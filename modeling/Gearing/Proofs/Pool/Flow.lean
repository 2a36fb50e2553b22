import Gearing.Proofs.Pool.Exact
import Gearing.Proofs.Word

/-!
What operations move for one account on one reserve, counted without wrapping: scaled balances, tokens in
and out of the reserve, allowance of one delegatee and fees. Flows add up along a stretch of operations,
and everything that is not counted stays as it is.
-/
namespace Gearing.Pool
open FixedPoint

/-- Amounts that a stretch of operations moves; the balances are scaled. -/
@[ext]
structure Flow where
  supplied : Nat := 0
  owed : Nat := 0
  paidIn : Nat := 0
  paidOut : Nat := 0
  /-- Of the allowance. -/
  spent : Nat := 0
  fees : Nat := 0

namespace Flow

instance : Add Flow where
  add f g := ⟨f.supplied + g.supplied, f.owed + g.owed, f.paidIn + g.paidIn, f.paidOut + g.paidOut,
    f.spent + g.spent, f.fees + g.fees⟩

section
variable (f g : Flow)

@[simp] theorem add_supplied : (f + g).supplied = f.supplied + g.supplied := rfl
@[simp] theorem add_owed : (f + g).owed = f.owed + g.owed := rfl
@[simp] theorem add_paidIn : (f + g).paidIn = f.paidIn + g.paidIn := rfl
@[simp] theorem add_paidOut : (f + g).paidOut = f.paidOut + g.paidOut := rfl
@[simp] theorem add_spent : (f + g).spent = f.spent + g.spent := rfl
@[simp] theorem add_fees : (f + g).fees = f.fees + g.fees := rfl

end
end Flow

section
variable (operator account asset : Address)

/-- `f` is moved between `p` and `q` for the account on the reserve of the asset, out of its operator's
allowance, and nothing else happens to the balances, the allowances, the reserves and the fees. -/
structure Moves (f : Flow) (p q : Pool) : Prop where
  reserves : ∃ g, q.reserves = (p.mapLiquidity asset g).reserves ∧
    ∀ r, p.reserve? asset = some r → (g r.liquidity).toNat + f.paidOut = r.liquidity.toNat + f.paidIn
  deposit : (q.balance account asset).deposit.toNat =
    (p.balance account asset).deposit.toNat + f.supplied
  debt : (q.balance account asset).debt.toNat = (p.balance account asset).debt.toNat + f.owed
  collateral : (p.balance account asset).collateral → (q.balance account asset).collateral
  balances : ∀ a c, (account, asset) ≠ (a, c) → q.balance a c = p.balance a c
  allowance : (q.allowance account operator asset).toNat + f.spent =
    (p.allowance account operator asset).toNat
  allowances : ∀ a d c, (account, operator, asset) ≠ (a, d, c) → q.allowance a d c = p.allowance a d c
  fees : (q.feesCollected asset).toNat = (p.feesCollected asset).toNat + f.fees
  otherFees : ∀ c, asset ≠ c → q.feesCollected c = p.feesCollected c
  opened : q.opened = p.opened
  journals : ∀ id, p.opened.get? account ≠ some id → q.journals.get? id = p.journals.get? id
  wrapped : q.wrapped = p.wrapped

variable {operator account asset} {p q r : Pool} {f g : Flow}

/-- The asset is listed, and its reserve has these indices. -/
def Indexed (p : Pool) (asset : Address) (liquidityIndex borrowIndex : Word) : Prop :=
  ∃ r, p.reserve? asset = some r ∧ r.liquidityIndex = liquidityIndex ∧ r.borrowIndex = borrowIndex

theorem reserve?_of_reserves (h : q.reserves = p.reserves) (a : Address) :
    q.reserve? a = p.reserve? a := by
  rw [reserve?, reserve?, h]

namespace Moves

theorem reserve? (h : Moves operator account asset f p q) {s : Reserve}
    (hs : p.reserve? asset = some s) :
    ∃ l : Word, q.reserve? asset = some { s with liquidity := l } ∧
      l.toNat + f.paidOut = s.liquidity.toNat + f.paidIn := by
  obtain ⟨g, hg, hliquidity⟩ := h.reserves
  refine ⟨g s.liquidity, ?_, hliquidity s hs⟩
  rw [reserve?_of_reserves hg, reserve?_mapLiquidity, hs, Option.map_some,
    if_pos (asset_of_reserve? hs)]

theorem mem_reserves (h : Moves operator account asset f p q) (hnodup : p.assets.Nodup) {s : Reserve}
    (hs : p.reserve? asset = some s) {c : Reserve} (hc : c ∈ q.reserves) :
    (∃ l, c = { s with liquidity := l }) ∨ (c.asset ≠ asset ∧ c ∈ p.reserves) := by
  obtain ⟨g, hreserves, -⟩ := h.reserves
  rw [hreserves] at hc
  obtain ⟨c₀, hc₀, rfl⟩ := List.mem_map.mp hc
  by_cases hasset : c₀.asset = asset
  · have hown : c₀ = s :=
      eq_of_mem_reserves hnodup hc₀ (mem_of_reserve? hs) (hasset.trans (asset_of_reserve? hs).symm)
    rw [if_pos hasset, hown]
    exact .inl ⟨_, rfl⟩
  · rw [if_neg hasset]
    exact .inr ⟨hasset, hc₀⟩

theorem indexed (h : Moves operator account asset f p q) {liquidityIndex borrowIndex : Word}
    (hp : p.Indexed asset liquidityIndex borrowIndex) : q.Indexed asset liquidityIndex borrowIndex := by
  obtain ⟨s, hs, hli, hbi⟩ := hp
  obtain ⟨l, hq, -⟩ := h.reserve? hs
  exact ⟨_, hq, hli, hbi⟩

theorem cast (h : Moves operator account asset f p q) (hf : f = g) :
    Moves operator account asset g p q := hf ▸ h

theorem trans (h : Moves operator account asset f p q) (h' : Moves operator account asset g q r) :
    Moves operator account asset (f + g) p r where
  reserves := by
    obtain ⟨m, hm, hliquidity⟩ := h.reserves
    obtain ⟨m', hm', hliquidity'⟩ := h'.reserves
    refine ⟨m' ∘ m, ?_, fun s hs => ?_⟩
    · rw [← mapLiquidity_mapLiquidity, hm']
      simp only [mapLiquidity, mapReserve] at hm ⊢
      rw [hm]
    · have hq : q.reserve? asset = some { s with liquidity := m s.liquidity } := by
        rw [reserve?_of_reserves hm, reserve?_mapLiquidity, hs, Option.map_some,
          if_pos (asset_of_reserve? hs)]
      have h₁ := hliquidity s hs
      have h₂ : (m' (m s.liquidity)).toNat + g.paidOut = (m s.liquidity).toNat + g.paidIn :=
        hliquidity' _ hq
      simp only [Function.comp, Flow.add_paidOut, Flow.add_paidIn]
      omega
  deposit := by
    rw [h'.deposit, h.deposit, Flow.add_supplied, Nat.add_assoc]
  debt := by
    rw [h'.debt, h.debt, Flow.add_owed, Nat.add_assoc]
  collateral hp := h'.collateral (h.collateral hp)
  balances a c hne := (h'.balances a c hne).trans (h.balances a c hne)
  allowance := by
    have h₁ := h.allowance
    have h₂ := h'.allowance
    rw [Flow.add_spent]
    omega
  allowances a d c hne := (h'.allowances a d c hne).trans (h.allowances a d c hne)
  fees := by
    rw [h'.fees, h.fees, Flow.add_fees, Nat.add_assoc]
  otherFees c hne := (h'.otherFees c hne).trans (h.otherFees c hne)
  opened := h'.opened.trans h.opened
  journals id hid := (h'.journals id (h.opened ▸ hid)).trans (h.journals id hid)
  wrapped := h'.wrapped.trans h.wrapped

end Moves

theorem reserves_same (h : q.reserves = p.reserves) : ∃ g, q.reserves = (p.mapLiquidity asset g).reserves ∧
    ∀ r, p.reserve? asset = some r → (g r.liquidity).toNat + 0 = r.liquidity.toNat + 0 :=
  ⟨id, by rw [mapLiquidity_id, h], fun _ _ => rfl⟩

section Writes

theorem moves_liquidity (g : Word → Word) (paidIn paidOut : Nat)
    (h : ∀ r, p.reserve? asset = some r → (g r.liquidity).toNat + paidOut = r.liquidity.toNat + paidIn) :
    Moves operator account asset { paidIn, paidOut } p (p.mapLiquidity asset g) where
  reserves := ⟨g, rfl, h⟩
  deposit := rfl
  debt := rfl
  collateral hp := hp
  balances _ _ _ := rfl
  allowance := rfl
  allowances _ _ _ _ := rfl
  fees := rfl
  otherFees _ _ := rfl
  opened := rfl
  journals _ _ := rfl
  wrapped := rfl

theorem moves_paidIn {amount : Word}
    (h : ∀ r, p.reserve? asset = some r → r.liquidity.toNat + amount.toNat < 2 ^ 256) :
    Moves operator account asset { paidIn := amount.toNat } p (p.addLiquidity asset amount) := by
  refine moves_liquidity (· + amount) _ 0 fun r hr => ?_
  exact toNat_add_of_lt (h r hr)

theorem moves_paidOut {amount : Word} (h : ∀ r, p.reserve? asset = some r → amount ≤ r.liquidity) :
    Moves operator account asset { paidOut := amount.toNat } p (p.takeLiquidity asset amount) := by
  refine moves_liquidity (· - amount) 0 _ fun r hr => ?_
  have hle := BitVec.le_def.mp (h r hr)
  rw [BitVec.toNat_sub_of_le (h r hr)]
  omega

theorem moves_balance {b : Balance} (supplied owed : Nat)
    (hdeposit : b.deposit.toNat = (p.balance account asset).deposit.toNat + supplied)
    (hdebt : b.debt.toNat = (p.balance account asset).debt.toNat + owed)
    (hcollateral : (p.balance account asset).collateral → b.collateral) :
    Moves operator account asset { supplied, owed } p (p.setBalance account asset b) where
  reserves := reserves_same rfl
  deposit := by rw [balance_setBalance, if_pos rfl, hdeposit]
  debt := by rw [balance_setBalance, if_pos rfl, hdebt]
  collateral hp := by rw [balance_setBalance, if_pos rfl]; exact hcollateral hp
  balances a c hne := by rw [balance_setBalance, if_neg hne]
  allowance := rfl
  allowances _ _ _ _ := rfl
  fees := rfl
  otherFees _ _ := rfl
  opened := rfl
  journals _ _ := rfl
  wrapped := rfl

theorem moves_credit {scaled : Word}
    (h : (p.balance account asset).deposit.toNat + scaled.toNat < 2 ^ 256) :
    Moves operator account asset { supplied := scaled.toNat } p
      (p.setBalance account asset ((p.balance account asset).credit scaled)) :=
  moves_balance _ 0 (toNat_add_of_lt h) rfl fun hp => Bool.or_eq_true_iff.mpr (.inl hp)

theorem moves_debit {scaled : Word}
    (h : (p.balance account asset).debt.toNat + scaled.toNat < 2 ^ 256) :
    Moves operator account asset { owed := scaled.toNat } p
      (p.setBalance account asset ((p.balance account asset).debit scaled)) :=
  moves_balance 0 _ rfl (toNat_add_of_lt h) fun hp => hp

theorem moves_allowance {amount : Word} (spent : Nat)
    (h : amount.toNat + spent = (p.allowance account operator asset).toNat) :
    Moves operator account asset { spent } p (p.setAllowance account operator asset amount) where
  reserves := reserves_same rfl
  deposit := rfl
  debt := rfl
  collateral hp := hp
  balances _ _ _ := rfl
  allowance := by
    rw [allowance, setAllowance, Table.getD_set, if_pos rfl]
    exact h
  allowances a d c hne := by rw [allowance, setAllowance, Table.getD_set, if_neg hne]; rfl
  fees := rfl
  otherFees _ _ := rfl
  opened := rfl
  journals _ _ := rfl
  wrapped := rfl

theorem moves_fees {amount : Word} (fees : Nat)
    (h : amount.toNat = (p.feesCollected asset).toNat + fees) :
    Moves operator account asset { fees } p { p with fees := p.fees.set asset amount } where
  reserves := reserves_same rfl
  deposit := rfl
  debt := rfl
  collateral hp := hp
  balances _ _ _ := rfl
  allowance := rfl
  allowances _ _ _ _ := rfl
  fees := by rw [feesCollected, Table.getD_set, if_pos rfl, h]
  otherFees c hne := by rw [feesCollected, Table.getD_set, if_neg hne]; rfl
  opened := rfl
  journals _ _ := rfl
  wrapped := rfl

theorem moves_loans (loans : Table Nat Loan) (lastTicket : Nat) :
    Moves operator account asset {} p { p with loans, lastTicket } where
  reserves := reserves_same rfl
  deposit := rfl
  debt := rfl
  collateral hp := hp
  balances _ _ _ := rfl
  allowance := rfl
  allowances _ _ _ _ := rfl
  fees := rfl
  otherFees _ _ := rfl
  opened := rfl
  journals _ _ := rfl
  wrapped := rfl

theorem moves_record (e : Entry) : Moves operator account asset {} p (p.record account e) where
  reserves := reserves_same (record_reserves ..)
  deposit := by rw [balance_record]; rfl
  debt := by rw [balance_record]; rfl
  collateral hp := by rw [balance_record]; exact hp
  balances _ _ _ := balance_record ..
  allowance := by rw [allowance_record]; rfl
  allowances _ _ _ _ := allowance_record ..
  fees := by rw [feesCollected_record]; rfl
  otherFees _ _ := feesCollected_record ..
  opened := record_opened ..
  journals id hid := by rw [record_journals, get?_noted, if_neg hid]
  wrapped := record_wrapped ..

end Writes

section Operations
variable {amount liquidityIndex borrowIndex : Word} {a : Answer}

theorem Effect.moves_deposit (operator : Address)
    (h : p.Effect (.deposit asset amount account) a q)
    (hindexed : p.Indexed asset liquidityIndex borrowIndex)
    (hexact : Op.Exact (.deposit asset amount account) p) :
    Moves operator account asset
      { supplied := (share amount liquidityIndex).toNat, paidIn := amount.toNat } p q := by
  obtain ⟨s, hs, rfl, -⟩ := hindexed
  have hdeposit := (hexact s hs).2.2
  cases h with
  | deposit listed =>
    rw [hs] at listed
    cases listed
    have hpaid : Moves operator account asset { paidIn := amount.toNat } p (p.addLiquidity asset amount) :=
      moves_paidIn fun r hr => (hexact r hr).1
    exact ((hpaid.trans (moves_credit hdeposit)).trans (moves_record _)).cast (by ext <;> simp)

theorem Effect.moves_borrow (h : p.Effect (.borrow asset amount operator account) a q)
    (hindexed : p.Indexed asset liquidityIndex borrowIndex)
    (hexact : Op.Exact (.borrow asset amount operator account) p) :
    Moves operator account asset
      { owed := (share amount borrowIndex).toNat, paidOut := amount.toNat
        spent := if account = operator then 0 else amount.toNat } p q := by
  obtain ⟨s, hs, -, rfl⟩ := hindexed
  have hdebt := (hexact s hs).2
  have hpaid : ∀ p' : Pool, p'.reserves = p.reserves → amount ≤ s.liquidity →
      Moves operator account asset { paidOut := amount.toNat } p' (p'.takeLiquidity asset amount) := by
    intro p' hreserves hliquid
    refine moves_paidOut fun r hr => ?_
    rw [reserve?_of_reserves hreserves, hs] at hr
    cases hr
    exact hliquid
  cases h with
  | borrow listed active enabled liquid =>
    rw [hs] at listed
    cases listed
    exact (((hpaid p rfl liquid).trans (moves_debit hdebt)).trans (moves_record _)).cast
      (by ext <;> simp)
  | borrowFor listed active enabled liquid index foreign allowed =>
    rw [hs] at listed
    cases listed
    have hspent : Moves operator account asset { spent := amount.toNat } p
        (p.setAllowance account operator asset (p.allowance account operator asset - amount)) := by
      refine moves_allowance _ ?_
      rw [BitVec.toNat_sub_of_le allowed]
      have := BitVec.le_def.mp allowed
      omega
    exact (((hspent.trans (hpaid _ rfl liquid)).trans (moves_debit hdebt)).trans (moves_record _)).cast
      (by ext <;> simp [Ne.symm foreign])

theorem Effect.moves_acquire (operator : Address)
    (h : p.Effect (.acquire asset amount account) a q) :
    Moves operator account asset { paidOut := amount.toNat } p q := by
  cases h with
  | acquire listed active liquid =>
    have hpaid : Moves operator account asset { paidOut := amount.toNat } p
        (p.takeLiquidity asset amount) := by
      refine moves_paidOut fun r hr => ?_
      rw [hr] at listed
      cases listed
      exact liquid
    exact ((hpaid.trans (moves_loans _ _)).trans (moves_record _)).cast (by ext <;> simp)

theorem Effect.moves_repay (operator : Address) {ticket : Nat} {paid fee : Word}
    (h : p.Effect (.repay ticket paid) a q)
    (hloan : p.loans.get? ticket = some ⟨asset, amount, fee, account⟩)
    (hexact : Op.Exact (.repay ticket paid) p) :
    Moves operator account asset { paidIn := amount.toNat + fee.toNat, fees := fee.toNat } p q := by
  obtain ⟨howed, hfees, hliquidity⟩ := hexact _ hloan
  cases h with
  | repay out =>
    rw [hloan] at out
    cases out
    have hpaid : Moves operator account asset { paidIn := amount.toNat + fee.toNat }
        { p with loans := p.loans.erase ticket }
        (({ p with loans := p.loans.erase ticket } : Pool).addLiquidity asset (amount + fee)) := by
      rw [← toNat_add_of_lt howed]
      exact moves_paidIn hliquidity
    have hkept : Moves operator account asset { fees := fee.toNat }
        (({ p with loans := p.loans.erase ticket } : Pool).addLiquidity asset (amount + fee)) _ :=
      moves_fees _ (toNat_add_of_lt hfees)
    exact ((((moves_loans _ _).trans hpaid).trans hkept).trans (moves_record _)).cast
      (by ext <;> simp)

theorem Effect.loans_deposit (h : p.Effect (.deposit asset amount account) a q) : q.loans = p.loans := by
  cases h with
  | deposit => exact record_loans ..

theorem Effect.loans_borrow (h : p.Effect (.borrow asset amount operator account) a q) :
    q.loans = p.loans := by
  cases h with
  | borrow => exact record_loans ..
  | borrowFor => exact record_loans ..

theorem Effect.loans_acquire (h : p.Effect (.acquire asset amount account) a q) :
    q.loans = p.loans.set (p.lastTicket + 1) ⟨asset, amount, p.flashFee amount, account⟩ := by
  cases h with
  | acquire => exact record_loans ..

theorem Effect.loans_repay {ticket : Nat} {paid : Word} (h : p.Effect (.repay ticket paid) a q) :
    q.loans = p.loans.erase ticket := by
  cases h with
  | repay => exact record_loans ..

def Op.issued : Op → Nat
  | .acquire .. => 1
  | _ => 0

theorem Effect.lastTicket_eq {op : Op} (h : p.Effect op a q) :
    q.lastTicket = p.lastTicket + op.issued := by
  cases h with
  | list r =>
    rw [list_eq]
    rfl
  | deposit => exact record_lastTicket ..
  | borrow => exact record_lastTicket ..
  | borrowFor => exact record_lastTicket ..
  | revert => exact undoAll_lastTicket ..
  | acquire => exact record_lastTicket ..
  | repay => exact record_lastTicket ..
  | _ => rfl

end Operations

end
end Gearing.Pool
