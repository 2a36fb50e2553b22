import Gearing.Proofs.Pool.Flow

/-!
Entries as numbers. An operation that moves something for an account notes an entry down; the entry adds to
the balances and the fees, takes from an allowance and moves tokens in or out of a reserve. Undoing it
takes the same numbers back, with the clamps at zero.
-/
namespace Gearing
open Pool FixedPoint

namespace Entry

/-- What the entry adds to the scaled deposit under a key. -/
def supplied (k : Address × Address) : Entry → Nat
  | .deposit asset account scaled _ _ => if (account, asset) = k then scaled.toNat else 0
  | _ => 0

def owed (k : Address × Address) : Entry → Nat
  | .borrow asset account scaled _ _ _ => if (account, asset) = k then scaled.toNat else 0
  | _ => 0

/-- What the entry takes from the allowance under a key. -/
def spent (k : Address × Address × Address) : Entry → Nat
  | .borrow asset account _ _ delegatee used =>
    if (account, delegatee, asset) = k then used.toNat else 0
  | _ => 0

def feeOn (asset : Address) : Entry → Nat
  | .repay a _ fee => if a = asset then fee.toNat else 0
  | _ => 0

/-- Tokens that the entry brought into the reserve of an asset. -/
def paidIn (asset : Address) : Entry → Nat
  | .deposit a _ _ amount _ => if a = asset then amount.toNat else 0
  | .repay a amount fee => if a = asset then (amount + fee).toNat else 0
  | _ => 0

def paidOut (asset : Address) : Entry → Nat
  | .borrow a _ _ amount _ _ | .acquire _ a amount => if a = asset then amount.toNat else 0
  | _ => 0

def Supplies (k : Address × Address) : Entry → Prop
  | .deposit asset account .. => (account, asset) = k
  | _ => False

/-- The deposit under a key that set the collateral flag. -/
def Enables (k : Address × Address) : Entry → Prop
  | .deposit asset account _ _ enabledCollateral => (account, asset) = k ∧ enabledCollateral
  | _ => False

/-- All that the entry moves, for whatever account and asset it is. -/
def flow : Entry → Flow
  | .deposit _ _ scaled amount _ => { supplied := scaled.toNat, paidIn := amount.toNat }
  | .borrow _ _ scaled amount _ used =>
    { owed := scaled.toNat, paidOut := amount.toNat, spent := used.toNat }
  | .acquire _ _ amount => { paidOut := amount.toNat }
  | .repay _ amount fee => { paidIn := (amount + fee).toNat, fees := fee.toNat }

section
variable (e : Entry) {account : Address}

theorem supplied_eq (he : e.Concerns account) (k : Address × Address) :
    e.supplied k = if (account, e.asset) = k then e.flow.supplied else 0 := by
  cases e with
  | deposit => cases he; rfl
  | borrow | acquire | repay => exact (ite_self 0).symm

theorem owed_eq (he : e.Concerns account) (k : Address × Address) :
    e.owed k = if (account, e.asset) = k then e.flow.owed else 0 := by
  cases e with
  | borrow => cases he; rfl
  | deposit | acquire | repay => exact (ite_self 0).symm

theorem feeOn_eq (asset : Address) :
    e.feeOn asset = if e.asset = asset then e.flow.fees else 0 := by
  cases e with
  | repay => rfl
  | deposit | borrow | acquire => exact (ite_self 0).symm

theorem paidIn_eq (asset : Address) :
    e.paidIn asset = if e.asset = asset then e.flow.paidIn else 0 := by
  cases e with
  | deposit | repay => rfl
  | borrow | acquire => exact (ite_self 0).symm

theorem paidOut_eq (asset : Address) :
    e.paidOut asset = if e.asset = asset then e.flow.paidOut else 0 := by
  cases e with
  | borrow | acquire => rfl
  | deposit | repay => exact (ite_self 0).symm

theorem paidIn_or_paidOut (asset : Address) : e.paidIn asset = 0 ∨ e.paidOut asset = 0 := by
  cases e with
  | deposit | repay => exact .inr rfl
  | borrow | acquire => exact .inl rfl

theorem not_supplies_other (he : e.Concerns account) {a : Address} (ha : a ≠ account) (c : Address) :
    ¬ e.Supplies (a, c) := by
  intro h
  cases e with
  | deposit => exact ha ((congrArg Prod.fst h).symm.trans he)
  | borrow | acquire | repay => exact h

theorem spent_other (he : e.Concerns account) {a : Address} (ha : a ≠ account) (d c : Address) :
    e.spent (a, d, c) = 0 := by
  cases e with
  | borrow =>
    cases he
    exact if_neg fun h => ha (congrArg Prod.fst h).symm
  | deposit | acquire | repay => rfl

theorem supplies_of_enables {k : Address × Address} (h : e.Enables k) : e.Supplies k := by
  cases e with
  | deposit => exact h.1
  | borrow | acquire | repay => exact h

end

section Undo
variable (e : Entry)

theorem undoAt_deposit (k : Address × Address) (b : Balance) :
    (e.undoAt k b).deposit.toNat = b.deposit.toNat - e.supplied k := by
  cases e <;> simp only [undoAt, supplied, Nat.sub_zero]
  all_goals split
  all_goals simp [Word.toNat_clampSub]

theorem undoAt_debt (k : Address × Address) (b : Balance) :
    (e.undoAt k b).debt.toNat = b.debt.toNat - e.owed k := by
  cases e <;> simp only [undoAt, owed, Nat.sub_zero]
  all_goals split
  all_goals simp [Word.toNat_clampSub]

theorem undoAt_collateral (k : Address × Address) (b : Balance) :
    (e.undoAt k b).collateral ↔ b.collateral ∧ ¬ e.Enables k := by
  cases e <;> simp only [undoAt, Enables, not_false_eq_true, and_true]
  all_goals split
  all_goals simp_all

theorem undoAllowance_eq (k : Address × Address × Address) (w : Word) :
    e.undoAllowance k w = w + BitVec.ofNat 256 (e.spent k) := by
  cases e <;> simp only [undoAllowance, spent]
  all_goals try split
  all_goals simp

theorem toNat_undoFee (asset : Address) (w : Word) :
    (e.undoFee asset w).toNat = w.toNat - e.feeOn asset := by
  cases e <;> simp only [undoFee, feeOn, Nat.sub_zero]
  split
  all_goals simp [Word.toNat_clampSub]

/-- Back goes what was paid out; what was paid in is taken back as far as it is there. -/
theorem toNat_undoLiquidity (w : Word)
    (h : w.toNat - e.paidIn e.asset + e.paidOut e.asset < 2 ^ 256) :
    (e.undoLiquidity w).toNat = w.toNat - e.paidIn e.asset + e.paidOut e.asset := by
  cases e <;> simp only [undoLiquidity, paidIn, paidOut, Entry.asset, if_true, Nat.add_zero,
    Nat.sub_zero] at h ⊢
  case deposit => exact Word.toNat_clampSub ..
  case borrow => exact toNat_add_of_lt h
  case acquire => exact toNat_add_of_lt h
  case repay => exact Word.toNat_clampSub ..

end Undo
end Entry

theorem Balance.eq_of_toNat {b c : Balance} (hdeposit : b.deposit.toNat = c.deposit.toNat)
    (hdebt : b.debt.toNat = c.debt.toNat) (hcollateral : b.collateral ↔ c.collateral) : b = c := by
  obtain ⟨deposit, debt, collateral⟩ := b
  obtain ⟨deposit', debt', collateral'⟩ := c
  obtain rfl : deposit = deposit' := BitVec.eq_of_toNat_eq hdeposit
  obtain rfl : debt = debt' := BitVec.eq_of_toNat_eq hdebt
  obtain rfl : collateral = collateral' := Bool.eq_iff_iff.mpr hcollateral
  rfl

namespace Pool

section UndoAll
variable (p : Pool) (es : List Entry)

/-- What every undone entry lowers by its number, an undone journal lowers by the sum. -/
theorem undoAll_lowers (read : Pool → Nat) (w : Entry → Nat)
    (h : ∀ p e, read (p.undo e) = read p - w e) : read (p.undoAll es) = read p - (es.map w).sum := by
  induction es generalizing p with
  | nil => rfl
  | cons e es ih => rw [List.map_cons, List.sum_cons, ← Nat.sub_sub, ← h]; exact ih (p.undo e)

theorem deposit_undoAll (a c : Address) : ((p.undoAll es).balance a c).deposit.toNat =
    (p.balance a c).deposit.toNat - (es.map (Entry.supplied (a, c))).sum :=
  undoAll_lowers p es (fun p => (p.balance a c).deposit.toNat) _ fun p e => by
    rw [balance_undo, Entry.undoAt_deposit]

theorem debt_undoAll (a c : Address) : ((p.undoAll es).balance a c).debt.toNat =
    (p.balance a c).debt.toNat - (es.map (Entry.owed (a, c))).sum :=
  undoAll_lowers p es (fun p => (p.balance a c).debt.toNat) _ fun p e => by
    rw [balance_undo, Entry.undoAt_debt]

theorem feesCollected_undoAll (c : Address) : ((p.undoAll es).feesCollected c).toNat =
    (p.feesCollected c).toNat - (es.map (Entry.feeOn c)).sum :=
  undoAll_lowers p es (fun p => (p.feesCollected c).toNat) _ fun p e => by
    rw [feesCollected_undo, Entry.toNat_undoFee]

/-- Allowances have no clamp: what was spent comes back, and wraps if it must. -/
theorem allowance_undoAll (a d c : Address) : (p.undoAll es).allowance a d c =
    p.allowance a d c + BitVec.ofNat 256 (es.map (Entry.spent (a, d, c))).sum := by
  induction es generalizing p with
  | nil => exact (BitVec.add_zero _).symm
  | cons e es ih =>
    rw [List.map_cons, List.sum_cons, BitVec.ofNat_add, ← BitVec.add_assoc,
      ← Entry.undoAllowance_eq, ← allowance_undo]
    exact ih (p.undo e)

theorem collateral_undoAll (a c : Address) : ((p.undoAll es).balance a c).collateral ↔
    (p.balance a c).collateral ∧ ∀ e ∈ es, ¬ e.Enables (a, c) := by
  induction es generalizing p with
  | nil => simp [undoAll]
  | cons e es ih =>
    refine (ih (p.undo e)).trans ?_
    rw [balance_undo, Entry.undoAt_collateral, List.forall_mem_cons, and_assoc]

end UndoAll

/-- For whom the operation is noted down when it is carried out on the pool, and how. -/
def Op.entry? (op : Op) (p : Pool) : Option (Address × Entry) :=
  match op with
  | .deposit asset amount account => (p.reserve? asset).map fun r =>
    (account, .deposit asset account (share amount r.liquidityIndex) amount
      (p.balance account asset).enables)
  | .borrow asset amount delegatee account => (p.reserve? asset).map fun r =>
    (account, .borrow asset account (share amount r.borrowIndex) amount delegatee
      (if delegatee = account then 0 else amount))
  | .acquire asset amount account => some (account, .acquire (p.lastTicket + 1) asset amount)
  | .repay ticket _ => (p.loans.get? ticket).map fun loan =>
    (loan.account, .repay loan.asset loan.amount loan.fee)
  | _ => none

/-- An entry was noted down for the account between `p` and `q`. -/
structure Noted (account : Address) (e : Entry) (p q : Pool) : Prop where
  concerns : e.Concerns account
  journals : q.journals = p.noted account e
  opened : q.opened = p.opened
  lastCheckpoint : q.lastCheckpoint = p.lastCheckpoint
  allowance : ∀ a d c, (q.allowance a d c).toNat + e.spent (a, d, c) = (p.allowance a d c).toNat
  lastTicket : p.lastTicket ≤ q.lastTicket
  ticket : ∀ t ∈ e.ticket?, p.lastTicket < t ∧ t ≤ q.lastTicket
  loans : ∀ t loan, q.loans.get? t = some loan →
    p.loans.get? t = some loan ∨ p.lastTicket < t ∧ loan.account = account
  /-- A deposit leaves the flag set, and only the one that set it takes it away. -/
  collateral : ∀ a c, (q.balance a c).collateral ↔ (p.balance a c).collateral ∨ e.Supplies (a, c)
  enabled : ∀ a c, (p.balance a c).collateral ↔ (q.balance a c).collateral ∧ ¬ e.Enables (a, c)
  assets : q.assets = p.assets
  wrapped : q.wrapped = p.wrapped
  feeBps : q.feeBps = p.feeBps
  wrappedNative : q.wrappedNative = p.wrappedNative

theorem Noted.journal_before {p q : Pool} {account : Address} {e : Entry} (h : Noted account e p q)
    {id : Nat} {j : Journal} (hj : q.journals.get? id = some j) :
    ∃ j', p.journals.get? id = some j' ∧
      j = if p.opened.get? account = some id then { j' with entries := e :: j'.entries } else j' := by
  rw [h.journals, get?_noted] at hj
  split at hj
  · obtain ⟨j', hj', rfl⟩ := Option.map_eq_some_iff.mp hj
    exact ⟨j', hj', (if_pos ‹_›).symm⟩
  · exact ⟨j, hj, (if_neg ‹_›).symm⟩

theorem Noted.journal_own {p q : Pool} {account : Address} {e : Entry} {es : List Entry}
    (h : Noted account e p q) (hp : p.Sound) {id : Nat}
    (hj : p.journals.get? id = some ⟨account, es⟩) :
    q.journals.get? id = some ⟨account, e :: es⟩ := by
  rw [h.journals, get?_noted, if_pos (hp.account_eq hj), hj]
  rfl

section
variable {p q : Pool} {account asset : Address} {amount scaled : Word}

theorem noted_credit (hp : p.Sound) :
    Noted account (.deposit asset account scaled amount (p.balance account asset).enables) p
      (p.credit asset amount scaled account) where
  concerns := rfl
  journals := record_journals ..
  opened := record_opened ..
  lastCheckpoint := record_lastCheckpoint ..
  allowance a d c := congrArg (fun t => (t.getD (a, d, c) 0).toNat) (record_allowances ..)
  lastTicket := Nat.le_of_eq (Eq.symm (record_lastTicket _ account _))
  ticket t ht := by cases ht
  loans t loan hloan := .inl ((congrArg (·.get? t) (record_loans ..)).symm.trans hloan)
  collateral a c := by
    rw [credit, balance_record, balance_setBalance]
    by_cases hk : (account, asset) = (a, c)
    · simp [Entry.Supplies, hk, Balance.flagged_credit _ scaled (hp.flagged account asset)]
    · rw [if_neg hk]
      exact ⟨.inl, fun h => h.resolve_right hk⟩
  enabled a c := by
    rw [credit, balance_record, balance_setBalance]
    by_cases hk : (account, asset) = (a, c)
    · cases hk
      cases hcollateral : (p.balance account asset).collateral <;>
        simp [Entry.Enables, Balance.credit, Balance.enables, hcollateral]
    · rw [if_neg hk]
      exact ⟨fun h => ⟨h, fun he => hk he.1⟩, fun h => h.1⟩
  assets := assets_credit ..
  wrapped := record_wrapped ..
  feeBps := record_feeBps ..
  wrappedNative := record_wrappedNative ..

theorem noted_debit {delegatee : Address} {used : Word}
    {allowances : Table (Address × Address × Address) Word}
    (hallowances : ∀ a d c, (allowances.getD (a, d, c) 0).toNat +
      (if (account, delegatee, asset) = (a, d, c) then used.toNat else 0) =
        (p.allowance a d c).toNat) :
    Noted account (.borrow asset account scaled amount delegatee used) p
      (({ p with allowances } : Pool).debit asset amount scaled delegatee account used) := by
  have hcollateral : ∀ a c,
      ((({ p with allowances } : Pool).debit asset amount scaled delegatee account used).balance
        a c).collateral = (p.balance a c).collateral := by
    intro a c
    rw [debit, balance_record, balance_setBalance]
    by_cases hk : (account, asset) = (a, c)
    · cases hk
      rw [if_pos rfl]
      rfl
    · rw [if_neg hk]
      rfl
  exact {
    concerns := rfl
    journals := record_journals ..
    opened := record_opened ..
    lastCheckpoint := record_lastCheckpoint ..
    allowance := fun a d c => by
      rw [allowance, debit, record_allowances]
      exact hallowances a d c
    lastTicket := Nat.le_of_eq (Eq.symm (record_lastTicket _ account _))
    ticket := fun t ht => by cases ht
    loans := fun t loan hloan => .inl ((congrArg (·.get? t) (record_loans ..)).symm.trans hloan)
    collateral := fun a c => by
      rw [hcollateral]
      exact ⟨.inl, fun h => h.resolve_right id⟩
    enabled := fun a c => by
      rw [hcollateral]
      exact ⟨fun h => ⟨h, id⟩, fun h => h.1⟩
    assets := assets_debit ..
    wrapped := record_wrapped ..
    feeBps := record_feeBps ..
    wrappedNative := record_wrappedNative .. }

theorem noted_flash {e : Entry} (he : e.Concerns account) (hnone : ∀ k, ¬ e.Supplies k)
    (hspent : ∀ k, e.spent k = 0) (hjournals : q.journals = p.noted account e)
    (hopened : q.opened = p.opened) (hcheckpoint : q.lastCheckpoint = p.lastCheckpoint)
    (hbalances : q.balances = p.balances) (hallowances : q.allowances = p.allowances)
    (hlast : p.lastTicket ≤ q.lastTicket)
    (hticket : ∀ t ∈ e.ticket?, p.lastTicket < t ∧ t ≤ q.lastTicket)
    (hloans : ∀ t loan, q.loans.get? t = some loan →
      p.loans.get? t = some loan ∨ p.lastTicket < t ∧ loan.account = account)
    (hassets : q.assets = p.assets) (hwrapped : q.wrapped = p.wrapped) (hfeeBps : q.feeBps = p.feeBps)
    (hnative : q.wrappedNative = p.wrappedNative) : Noted account e p q := by
  have hbalance : ∀ a c, q.balance a c = p.balance a c := fun a c => by rw [balance, hbalances]; rfl
  refine ⟨he, hjournals, hopened, hcheckpoint, fun a d c => ?_, hlast, hticket, hloans,
    fun a c => ?_, fun a c => ?_, hassets, hwrapped, hfeeBps, hnative⟩
  · rw [hspent, allowance, hallowances]
    rfl
  · rw [hbalance]
    exact ⟨.inl, fun h => h.resolve_right (hnone _)⟩
  · have henables : ¬ e.Enables (a, c) := fun h => hnone (a, c) (e.supplies_of_enables h)
    rw [hbalance]
    exact ⟨fun h => ⟨h, henables⟩, fun h => h.1⟩

theorem noted_issue : Noted account (.acquire (p.lastTicket + 1) asset amount) p
    (p.issue (p.nextTicket asset amount) account) := by
  have hlast : (p.issue (p.nextTicket asset amount) account).lastTicket = p.lastTicket + 1 :=
    record_lastTicket ..
  refine noted_flash trivial (fun _ h => h) (fun _ => rfl) (record_journals ..) (record_opened ..)
    (record_lastCheckpoint ..) (record_balances ..) (record_allowances ..) (by omega)
    (fun t ht => ?_) (fun t loan hloan => ?_) (assets_issue ..) (record_wrapped ..) (record_feeBps ..)
    (record_wrappedNative ..)
  · cases ht
    omega
  · have hset : (p.loans.set (p.lastTicket + 1) ⟨asset, amount, p.flashFee amount, account⟩).get? t =
        some loan := (congrArg (·.get? t) (record_loans ..)).symm.trans hloan
    rw [Table.get?_set] at hset
    split at hset
    · cases hset
      exact .inr ⟨by omega, rfl⟩
    · exact .inl hset

theorem noted_redeem (ticket : Nat) (loan : Loan) :
    Noted loan.account (.repay loan.asset loan.amount loan.fee) p
      ({ p with loans := p.loans.erase ticket }.redeem loan) := by
  refine noted_flash trivial (fun _ h => h) (fun _ => rfl) (record_journals ..) (record_opened ..)
    (record_lastCheckpoint ..) (record_balances ..) (record_allowances ..)
    (Nat.le_of_eq (Eq.symm (record_lastTicket _ loan.account _)))
    (fun t ht => by cases ht) (fun t l hl => ?_) (assets_redeem ..) (record_wrapped ..)
    (record_feeBps ..) (record_wrappedNative ..)
  have herase : (p.loans.erase ticket).get? t = some l :=
    (congrArg (·.get? t) (record_loans ..)).symm.trans hl
  rw [Table.get?_erase] at herase
  split at herase
  · cases herase
  · exact .inl herase

theorem Effect.noted {op : Op} {a : Answer} {e : Entry} (h : p.Effect op a q) (hp : p.Sound)
    (hentry : op.entry? p = some (account, e)) : Noted account e p q := by
  cases h with
  | deposit listed =>
    rw [Op.entry?, listed] at hentry
    cases hentry
    exact noted_credit hp
  | borrow listed =>
    rw [Op.entry?, listed, Option.map_some, if_pos rfl] at hentry
    cases hentry
    refine noted_debit fun a d c => ?_
    rw [show (0 : Word).toNat = 0 from rfl, ite_self]
    rfl
  | borrowFor listed active enabled liquid index foreign allowed =>
    rw [Op.entry?, listed, Option.map_some, if_neg foreign] at hentry
    cases hentry
    refine noted_debit fun a d c => ?_
    rw [Table.getD_set]
    split
    · rename_i hk
      cases hk
      rw [BitVec.toNat_sub_of_le allowed]
      exact Nat.sub_add_cancel (BitVec.le_def.mp allowed)
    · rfl
  | acquire =>
    cases hentry
    exact noted_issue
  | repay out =>
    rw [Op.entry?, out] at hentry
    cases hentry
    exact noted_redeem _ _
  | _ => cases hentry

end

/-- The numbers of the entry were added between `p` and `q`, and nothing wrapped. -/
structure Counted (e : Entry) (p q : Pool) : Prop where
  deposit : ∀ a c,
    (q.balance a c).deposit.toNat = (p.balance a c).deposit.toNat + e.supplied (a, c)
  debt : ∀ a c, (q.balance a c).debt.toNat = (p.balance a c).debt.toNat + e.owed (a, c)
  fees : ∀ c, (q.feesCollected c).toNat = (p.feesCollected c).toNat + e.feeOn c
  liquidity : ∀ c r, p.reserve? c = some r →
    ∃ l : Word, q.reserve? c = some { r with liquidity := l } ∧
      l.toNat + e.paidOut c = r.liquidity.toNat + e.paidIn c

section
variable {p q : Pool} {operator account : Address} {e : Entry}

theorem Moves.counted (h : Moves operator account e.asset e.flow p q) (he : e.Concerns account) :
    Counted e p q where
  deposit a c := by
    rw [e.supplied_eq he]
    split
    · rename_i hk
      cases hk
      exact h.deposit
    · rename_i hk
      rw [h.balances a c hk, Nat.add_zero]
  debt a c := by
    rw [e.owed_eq he]
    split
    · rename_i hk
      cases hk
      exact h.debt
    · rename_i hk
      rw [h.balances a c hk, Nat.add_zero]
  fees c := by
    rw [e.feeOn_eq]
    split
    · rename_i hc
      cases hc
      exact h.fees
    · rename_i hc
      rw [h.otherFees c hc, Nat.add_zero]
  liquidity c r hr := by
    rw [e.paidIn_eq, e.paidOut_eq]
    by_cases hc : e.asset = c
    · subst hc
      simpa only [if_true] using h.reserve? hr
    · have hother : r.asset ≠ e.asset := fun hasset => hc (hasset.symm.trans (asset_of_reserve? hr))
      obtain ⟨g, hg, -⟩ := h.reserves
      refine ⟨r.liquidity, ?_, by rw [if_neg hc, if_neg hc]⟩
      rw [reserve?_of_reserves hg, reserve?_mapLiquidity, hr, Option.map_some, if_neg hother]

theorem Effect.counted {op : Op} {a : Answer} (h : p.Effect op a q) (hexact : op.Exact p)
    (hentry : op.entry? p = some (account, e)) : Counted e p q := by
  cases h with
  | deposit listed active index =>
    have hmoves := (Effect.deposit listed active index).moves_deposit account
      ⟨_, listed, rfl, rfl⟩ hexact
    rw [Op.entry?, listed] at hentry
    cases hentry
    exact hmoves.counted rfl
  | borrow listed active enabled liquid index =>
    have hmoves := (Effect.borrow listed active enabled liquid index).moves_borrow
      ⟨_, listed, rfl, rfl⟩ hexact
    rw [Op.entry?, listed, Option.map_some, if_pos rfl] at hentry
    cases hentry
    exact (hmoves.cast (by simp [Entry.flow])).counted rfl
  | borrowFor listed active enabled liquid index foreign allowed =>
    have hmoves := (Effect.borrowFor listed active enabled liquid index foreign allowed).moves_borrow
      ⟨_, listed, rfl, rfl⟩ hexact
    rw [Op.entry?, listed, Option.map_some, if_neg foreign] at hentry
    cases hentry
    exact (hmoves.cast (by simp [Entry.flow, Ne.symm foreign])).counted rfl
  | acquire listed active liquid =>
    cases hentry
    exact ((Effect.acquire listed active liquid).moves_acquire account).counted trivial
  | @repay ticket paid loan r out enough listed =>
    have hmoves := (Effect.repay out enough listed).moves_repay loan.account out hexact
    rw [Op.entry?, out] at hentry
    cases hentry
    refine (hmoves.cast ?_).counted trivial
    rw [Entry.flow, toNat_add_of_lt (hexact _ out).1]
  | _ => cases hentry

end

/-- A change that no journal, balance, loan or fee shows. -/
structure Aside (op : Op) (p q : Pool) : Prop where
  balances : q.balances = p.balances
  loans : q.loans = p.loans
  fees : q.fees = p.fees
  journals : q.journals = p.journals
  opened : q.opened = p.opened
  lastTicket : q.lastTicket = p.lastTicket
  lastCheckpoint : q.lastCheckpoint = p.lastCheckpoint
  allowance : ∀ a d c, (∀ amount, op ≠ .approve a d c amount) → q.allowance a d c = p.allowance a d c

/-- An operation that was carried out, as the journals see it. -/
inductive Turn (p : Pool) : Op → Pool → Prop
  | noted {op q account e} (entry : op.entry? p = some (account, e)) (noted : Noted account e p q) :
    Turn p op q
  | opened {account} (closed : p.opened.get? account = none) :
    Turn p (.checkpoint account) (p.openJournal account)
  | reverted {id j} (journal : p.journals.get? id = some j) :
    Turn p (.revert id) ((p.close id j.account).undoAll j.entries)
  | committed {id j} (journal : p.journals.get? id = some j) :
    Turn p (.commit id) (p.close id j.account)
  | aside {op q} (entry : op.entry? p = none) (revert : ∀ id, op ≠ .revert id)
      (aside : Aside op p q) : Turn p op q

theorem Effect.turn {p q : Pool} {op : Op} {a : Answer} (h : p.Effect op a q) (hp : p.Sound) :
    p.Turn op q := by
  cases hentry : op.entry? p with
  | some n => exact .noted hentry (h.noted hp hentry)
  | none =>
    cases h with
    | deposit listed | borrow listed | borrowFor listed =>
      rw [Op.entry?, listed] at hentry
      cases hentry
    | acquire => cases hentry
    | repay out =>
      rw [Op.entry?, out] at hentry
      cases hentry
    | checkpoint closed => exact .opened closed
    | revert journal => exact .reverted journal
    | commit journal => exact .committed journal
    | list r =>
      rw [list_eq]
      exact .aside hentry (fun _ => Op.noConfusion)
        ⟨rfl, rfl, rfl, rfl, rfl, rfl, rfl, fun _ _ _ _ => rfl⟩
    | approve account delegatee asset amount =>
      refine .aside hentry (fun _ => Op.noConfusion)
        ⟨rfl, rfl, rfl, rfl, rfl, rfl, rfl, fun a d c hne => ?_⟩
      rw [allowance, setAllowance, Table.getD_set, if_neg fun hk => ?_]
      · rfl
      · cases hk
        exact hne amount rfl
    | updateReserve | supply | wrap | unwrap =>
      exact .aside hentry (fun _ => Op.noConfusion)
        ⟨rfl, rfl, rfl, rfl, rfl, rfl, rfl, fun _ _ _ _ => rfl⟩

end Pool
end Gearing
