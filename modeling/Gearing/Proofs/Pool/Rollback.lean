import Gearing.Proofs.Pool.Unwound

/-!
A revert gives back the pool that its checkpoint was opened on.

Each entry is the exact inverse of the operation that wrote it, as long as the arithmetic of the operation
was exact: then no undone sum clamps. A repayment alone does not come back in full, because undoing it
does not bring the loan back; but its ticket was given out under the same checkpoint, and undoing that
takes the ticket back anyhow. The loans are therefore followed apart from the books.
-/
namespace Gearing
open Pool FixedPoint

namespace Pool

/-- The same in everything that can be asked, but for the loans that are out. The numbers that the next
ticket and the next checkpoint get may differ. -/
structure SameBooks (p q : Pool) : Prop where
  reserves : p.reserves = q.reserves
  balance : ∀ account asset, p.balance account asset = q.balance account asset
  allowance : ∀ account delegatee asset,
    p.allowance account delegatee asset = q.allowance account delegatee asset
  feesCollected : ∀ asset, p.feesCollected asset = q.feesCollected asset
  journals : ∀ id, p.journals.get? id = q.journals.get? id
  opened : ∀ account, p.opened.get? account = q.opened.get? account
  wrapped : p.wrapped = q.wrapped
  feeBps : p.feeBps = q.feeBps
  wrappedNative : p.wrappedNative = q.wrappedNative

/-- The same but for the numbers that come next. -/
structure SameState (p q : Pool) : Prop extends SameBooks p q where
  loans : ∀ t, p.loans.get? t = q.loans.get? t

namespace SameBooks
variable {p q r : Pool}

theorem refl (p : Pool) : p.SameBooks p :=
  ⟨rfl, fun _ _ => rfl, fun _ _ _ => rfl, fun _ => rfl, fun _ => rfl, fun _ => rfl, rfl, rfl, rfl⟩

theorem trans (h : p.SameBooks q) (h' : q.SameBooks r) : p.SameBooks r where
  reserves := h.reserves.trans h'.reserves
  balance account asset := (h.balance account asset).trans (h'.balance account asset)
  allowance account delegatee asset :=
    (h.allowance account delegatee asset).trans (h'.allowance account delegatee asset)
  feesCollected asset := (h.feesCollected asset).trans (h'.feesCollected asset)
  journals id := (h.journals id).trans (h'.journals id)
  opened account := (h.opened account).trans (h'.opened account)
  wrapped := h.wrapped.trans h'.wrapped
  feeBps := h.feeBps.trans h'.feeBps
  wrappedNative := h.wrappedNative.trans h'.wrappedNative

theorem undo (h : p.SameBooks q) (e : Entry) : (p.undo e).SameBooks (q.undo e) where
  reserves := by
    rw [reserves_undo, reserves_undo, mapLiquidity, mapLiquidity, mapReserve, mapReserve]
    rw [h.reserves]
  balance account asset := by rw [balance_undo, balance_undo, h.balance]
  allowance account delegatee asset := by rw [allowance_undo, allowance_undo, h.allowance]
  feesCollected asset := by rw [feesCollected_undo, feesCollected_undo, h.feesCollected]
  journals id := by rw [undo_journals, undo_journals, h.journals]
  opened account := by rw [undo_opened, undo_opened, h.opened]
  wrapped := by rw [undo_wrapped, undo_wrapped, h.wrapped]
  feeBps := by rw [undo_feeBps, undo_feeBps, h.feeBps]
  wrappedNative := by rw [undo_wrappedNative, undo_wrappedNative, h.wrappedNative]

theorem undoAll (h : p.SameBooks q) (es : List Entry) :
    (p.undoAll es).SameBooks (q.undoAll es) := by
  induction es generalizing p q with
  | nil => exact h
  | cons e es ih => exact ih (h.undo e)

end SameBooks

theorem reserves_ext {p q : Pool} (hnodup : p.assets.Nodup) (hassets : q.assets = p.assets)
    (h : ∀ c r, p.reserve? c = some r → q.reserve? c = some r) : q.reserves = p.reserves := by
  have hlength : q.reserves.length = p.reserves.length := by
    simpa [assets] using congrArg List.length hassets
  refine List.ext_getElem hlength fun i hi hi' => ?_
  have hasset : q.reserves[i].asset = p.reserves[i].asset := by
    simpa [assets, hi, hi'] using congrArg (·[i]?) hassets
  have hfound := reserve?_eq_of_mem (hassets ▸ hnodup) (List.getElem_mem hi)
  rw [hasset, h _ _ (reserve?_eq_of_mem hnodup (List.getElem_mem hi'))] at hfound
  exact (Option.some.inj hfound).symm

section Inverse
variable {p q : Pool} {id : Nat} {account : Address} {e : Entry}

theorem Counted.fits (hcounted : Counted e p q) (hassets : q.assets = p.assets) :
    ∀ r ∈ q.reserve? e.asset, r.liquidity.toNat - e.paidIn e.asset + e.paidOut e.asset < 2 ^ 256 := by
  intro r hr
  have hlisted : (p.reserve? e.asset).isSome :=
    (p.isSome_reserve? e.asset).mpr (hassets ▸ mem_assets_of_reserve? hr)
  obtain ⟨r₀, hr₀⟩ := Option.isSome_iff_exists.mp hlisted
  obtain ⟨l, hl, hback⟩ := hcounted.back hr₀
  rw [hr] at hl
  cases hl
  exact (hback 0).trans_lt r₀.liquidity.isLt

/-- What is noted down is undone by its note, as long as the numbers are exact. -/
theorem SameBooks.undone (hp : p.Sound) (hid : p.opened.get? account = some id)
    (hnoted : Noted account e p q) (hcounted : Counted e p q) :
    ((q.close id account).undo e).SameBooks (p.close id account) where
  reserves := by
    refine reserves_ext (p := p.close id account) hp.assets ((undo_assets ..).trans hnoted.assets)
      fun c r hr => ?_
    obtain ⟨l, hl, hback⟩ := hcounted.back hr
    obtain ⟨l', hl', hvalue⟩ :=
      reserve?_undo (p := q.close id account) hl (hcounted.fits hnoted.assets)
    have hsame : l' = r.liquidity := BitVec.eq_of_toNat_eq (hvalue.trans (hback 0))
    rw [hl', hsame]
  balance a c := by
    refine (balance_undo (q.close id account) e a c).trans (Balance.eq_of_toNat ?_ ?_ ?_)
    · rw [Entry.undoAt_deposit]
      exact Nat.sub_eq_of_eq_add (hcounted.deposit a c)
    · rw [Entry.undoAt_debt]
      exact Nat.sub_eq_of_eq_add (hcounted.debt a c)
    · exact (e.undoAt_collateral (a, c) _).trans (hnoted.enabled a c).symm
  allowance a d c := by
    refine (allowance_undo (q.close id account) e a d c).trans (BitVec.eq_of_toNat_eq ?_)
    rw [Entry.undoAllowance_eq, BitVec.toNat_add, BitVec.toNat_ofNat, Nat.add_mod_mod]
    exact (congrArg (· % 2 ^ 256) (hnoted.allowance a d c)).trans (Nat.mod_eq_of_lt (BitVec.isLt _))
  feesCollected c := by
    refine (feesCollected_undo (q.close id account) e c).trans (BitVec.eq_of_toNat_eq ?_)
    rw [Entry.toNat_undoFee]
    exact Nat.sub_eq_of_eq_add (hcounted.fees c)
  journals i := by
    rw [undo_journals]
    show (q.journals.erase id).get? i = (p.journals.erase id).get? i
    rw [hnoted.journals, Table.get?_erase, Table.get?_erase, get?_noted, hid]
    by_cases hi : id = i
    · rw [if_pos hi, if_pos hi]
    · rw [if_neg hi, if_neg hi, if_neg fun h => hi (Option.some.inj h)]
  opened a := by
    rw [undo_opened]
    show (q.opened.erase account).get? a = (p.opened.erase account).get? a
    rw [hnoted.opened]
  wrapped := (undo_wrapped (q.close id account) e).trans hnoted.wrapped
  feeBps := (undo_feeBps (q.close id account) e).trans hnoted.feeBps
  wrappedNative := (undo_wrappedNative (q.close id account) e).trans hnoted.wrappedNative

end Inverse

/-- Operations for one account, and repayments of tickets numbered past `tickets`. -/
def Op.Own (account : Address) (tickets : Nat) : Op → Prop
  | .deposit _ _ a | .borrow _ _ _ a | .acquire _ _ a => a = account
  | .repay ticket _ => tickets < ticket
  | _ => False

instance (op : Op) (account : Address) (tickets : Nat) : Decidable (op.Own account tickets) :=
  match op with
  | .deposit .. | .borrow .. | .acquire .. => inferInstanceAs (Decidable (_ = _))
  | .repay .. => inferInstanceAs (Decidable (_ < _))
  | .list _ | .updateReserve .. | .supply .. | .approve .. | .checkpoint _ | .revert _ | .commit _
  | .wrap _ | .unwrap _ => inferInstanceAs (Decidable False)

theorem isSome_record (p : Pool) (account : Address) (e : Entry) (id : Nat) :
    ((p.record account e).journals.get? id).isSome = (p.journals.get? id).isSome := by
  rw [record_journals, get?_noted]
  split
  · exact Option.isSome_map
  · rfl

theorem Effect.isSome_journal {p q : Pool} {op : Op} {a : Answer} (h : p.Effect op a q)
    {account : Address} {n : Nat} (hop : op.Own account n) (id : Nat) :
    (q.journals.get? id).isSome = (p.journals.get? id).isSome := by
  cases h with
  | deposit => exact isSome_record ..
  | borrow => exact isSome_record ..
  | borrowFor => exact isSome_record ..
  | acquire => exact isSome_record ..
  | repay => exact isSome_record ..
  | _ => cases hop

theorem Carried.isSome_journal {p q : Pool} {ops : List Op} (h : p.Carried ops q)
    {account : Address} {n : Nat} (hops : ∀ op ∈ ops, op.Own account n) (id : Nat) :
    (q.journals.get? id).isSome = (p.journals.get? id).isSome := by
  induction h with
  | nil p => rfl
  | cons head tail ih =>
    exact (ih fun op hop => hops op (List.mem_cons_of_mem _ hop)).trans
      (head.isSome_journal (hops _ List.mem_cons_self) id)

/-- The loans of `p` are those of `p₀` but for the tickets of the entries, which are younger than `p₀` and
belong to the account. -/
structure Lent (p₀ : Pool) (account : Address) (es : List Entry) (p : Pool) : Prop where
  issued : p₀.lastTicket ≤ p.lastTicket
  since : ∀ t ∈ es.filterMap Entry.ticket?, p₀.lastTicket < t
  own : ∀ t ∈ es.filterMap Entry.ticket?, ∀ loan, p.loans.get? t = some loan → loan.account = account
  others : ∀ t, t ∉ es.filterMap Entry.ticket? → p.loans.get? t = p₀.loans.get? t

namespace Lent
variable {p₀ p q : Pool} {account : Address} {es : List Entry}

theorem push_same (h : Lent p₀ account es p) {e : Entry} (hnone : e.ticket? = none)
    (hticket : q.lastTicket = p.lastTicket) (hloans : q.loans = p.loans) :
    Lent p₀ account (e :: es) q := by
  have hissued := h.issued
  have htickets : (e :: es).filterMap Entry.ticket? = es.filterMap Entry.ticket? :=
    List.filterMap_cons_none hnone
  refine ⟨by omega, ?_, ?_, ?_⟩
  · rw [htickets]
    exact h.since
  · rw [htickets, hloans]
    exact h.own
  · rw [htickets, hloans]
    exact h.others

theorem issue (h : Lent p₀ account es p) (asset : Address) (amount : Word) :
    Lent p₀ account (.acquire (p.lastTicket + 1) asset amount :: es)
      (p.issue (p.nextTicket asset amount) account) := by
  have hissued := h.issued
  have hlast : (p.issue (p.nextTicket asset amount) account).lastTicket = p.lastTicket + 1 :=
    record_lastTicket ..
  have hloans : (p.issue (p.nextTicket asset amount) account).loans =
      p.loans.set (p.lastTicket + 1) ⟨asset, amount, p.flashFee amount, account⟩ := record_loans ..
  have htickets : (Entry.acquire (p.lastTicket + 1) asset amount :: es).filterMap Entry.ticket? =
      (p.lastTicket + 1) :: es.filterMap Entry.ticket? := rfl
  refine ⟨by omega, ?_, ?_, ?_⟩
  · intro t ht
    rcases List.mem_cons.mp (htickets ▸ ht) with rfl | ht
    · omega
    · exact h.since t ht
  · intro t ht loan hloan
    rw [hloans, Table.get?_set] at hloan
    split at hloan
    · cases hloan
      rfl
    · rename_i hne
      rcases List.mem_cons.mp (htickets ▸ ht) with rfl | ht
      · exact absurd rfl hne
      · exact h.own t ht loan hloan
  · intro t ht
    have hne : p.lastTicket + 1 ≠ t := fun heq => ht (htickets ▸ heq ▸ List.mem_cons_self)
    rw [hloans, Table.get?_set, if_neg hne]
    exact h.others t fun hmem => ht (htickets ▸ List.mem_cons_of_mem _ hmem)

theorem mem_tickets (h : Lent p₀ account es p) (hfresh : ∀ t, p₀.lastTicket < t → p₀.loans.get? t = none)
    {ticket : Nat} {loan : Loan} (hticket : p₀.lastTicket < ticket)
    (hloan : p.loans.get? ticket = some loan) : ticket ∈ es.filterMap Entry.ticket? := by
  by_contra hmem
  rw [h.others ticket hmem, hfresh ticket hticket] at hloan
  cases hloan

theorem redeem (h : Lent p₀ account es p) {ticket : Nat} (loan : Loan)
    (hmem : ticket ∈ es.filterMap Entry.ticket?) :
    Lent p₀ account (.repay loan.asset loan.amount loan.fee :: es)
      ({ p with loans := p.loans.erase ticket }.redeem loan) := by
  have hissued := h.issued
  have hlast : ({ p with loans := p.loans.erase ticket }.redeem loan).lastTicket = p.lastTicket :=
    record_lastTicket ..
  have hloans : ({ p with loans := p.loans.erase ticket }.redeem loan).loans = p.loans.erase ticket :=
    record_loans ..
  refine ⟨by omega, h.since, fun t ht l hl => ?_, fun t ht => ?_⟩
  · rw [hloans, Table.get?_erase] at hl
    split at hl
    · cases hl
    · exact h.own t ht l hl
  · have hne : ticket ≠ t := fun heq => ht (heq ▸ hmem)
    rw [hloans, Table.get?_erase, if_neg hne]
    exact h.others t ht

theorem step (h : Lent p₀ account es p) (hfresh : ∀ t, p₀.lastTicket < t → p₀.loans.get? t = none)
    {op : Op} {a : Answer} (hop : op.Own account p₀.lastTicket) (heffect : p.Effect op a q) :
    ∃ e, op.entry? p = some (account, e) ∧ Lent p₀ account (e :: es) q := by
  cases heffect with
  | deposit listed =>
    cases hop
    exact ⟨_, by rw [Op.entry?, listed]; rfl,
      h.push_same rfl (record_lastTicket ..) (record_loans ..)⟩
  | borrow listed =>
    cases hop
    exact ⟨_, by rw [Op.entry?, listed]; rfl,
      h.push_same rfl (record_lastTicket ..) (record_loans ..)⟩
  | borrowFor listed =>
    cases hop
    exact ⟨_, by rw [Op.entry?, listed]; rfl,
      h.push_same rfl (record_lastTicket ..) (record_loans ..)⟩
  | acquire =>
    cases hop
    exact ⟨_, rfl, h.issue _ _⟩
  | @repay ticket paid loan r out =>
    have hmem := h.mem_tickets hfresh hop out
    obtain rfl : loan.account = account := h.own ticket hmem loan out
    exact ⟨_, by rw [Op.entry?, out]; rfl, h.redeem loan hmem⟩
  | _ => cases hop

end Lent

/-- Undoing the open journal `id` of the account leads from `p` back to `p₀`, whose tickets are older than
those of the journal. -/
structure Undoable (p₀ : Pool) (id : Nat) (account : Address) (es : List Entry) (p : Pool) : Prop
    extends Lent p₀ account es p where
  journal : p.journals.get? id = some ⟨account, es⟩
  books : ((p.close id account).undoAll es).SameBooks p₀

namespace Undoable
variable {p₀ p q : Pool} {id : Nat} {account : Address} {es : List Entry}

theorem start (h : p.Sound) (hclosed : p.opened.get? account = none) :
    Undoable p (p.lastCheckpoint + 1) account [] (p.openJournal account) where
  journal := Table.get?_set_self ..
  books := by
    refine ⟨rfl, fun _ _ => rfl, fun _ _ _ => rfl, fun _ => rfl, fun id => ?_, fun a => ?_, rfl, rfl,
      rfl⟩
    · show ((p.journals.set _ _).erase _).get? id = p.journals.get? id
      rw [Table.get?_erase, Table.get?_set]
      split
      · rename_i hid
        exact (h.journals_fresh (by omega)).symm
      · rfl
    · show ((p.opened.set account _).erase account).get? a = p.opened.get? a
      rw [Table.get?_erase, Table.get?_set]
      split
      · rename_i ha
        rw [← ha, hclosed]
      · rfl
  issued := Nat.le_refl _
  since _ ht := by cases ht
  own _ ht := by cases ht
  others _ _ := rfl

theorem step (h : Undoable p₀ id account es p) (hp : p.Sound)
    (hfresh : ∀ t, p₀.lastTicket < t → p₀.loans.get? t = none) {op : Op} {a : Answer}
    (hop : op.Own account p₀.lastTicket) (heffect : p.Effect op a q) (hexact : op.Exact p) :
    ∃ e, op.entry? p = some (account, e) ∧ Undoable p₀ id account (e :: es) q := by
  obtain ⟨e, hentry, hlent⟩ := h.toLent.step hfresh hop heffect
  have hnoted := heffect.noted hp hentry
  have hundone := SameBooks.undone hp (hp.account_eq h.journal) hnoted (heffect.counted hexact hentry)
  exact ⟨e, hentry, hlent, hnoted.journal_own hp h.journal, (hundone.undoAll es).trans h.books⟩

theorem carried (h : Undoable p₀ id account es p) (hp : p.Sound) (hp₀ : p₀.Sound) {ops : List Op}
    (hops : ∀ op ∈ ops, op.Own account p₀.lastTicket) (hcarried : p.Carried ops q)
    (hexact : p.Exact ops) : ∃ es', Undoable p₀ id account es' q := by
  induction hcarried generalizing es with
  | nil p => exact ⟨es, h⟩
  | @cons p q r op a ops head tail ih =>
    obtain ⟨e, -, h'⟩ := h.step hp (fun t => hp₀.loans_fresh) (hops op List.mem_cons_self) head hexact.1
    refine ih h' (head.sound hp) (fun op' hop' => hops op' (List.mem_cons_of_mem op hop')) ?_
    have hrest := hexact.2
    rwa [after_of_effect head] at hrest

theorem revert (h : Undoable p₀ id account es p)
    (hfresh : ∀ t, p₀.lastTicket < t → p₀.loans.get? t = none) {a : Answer}
    (heffect : p.Effect (.revert id) a q) : q.SameState p₀ := by
  cases heffect with
  | revert journal =>
    rw [h.journal] at journal
    cases journal
    refine ⟨h.books, fun t => ?_⟩
    rw [get?_loans_undoAll]
    split
    · rename_i ht
      exact (hfresh t (h.since t ht)).symm
    · rename_i ht
      exact h.others t ht

end Undoable

end Pool
end Gearing
