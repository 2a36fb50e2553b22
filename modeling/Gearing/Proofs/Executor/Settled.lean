import Gearing.Proofs.Executor.Atomic
import Gearing.Proofs.Pool.Flow

/-!
What a settled run changes, exactly, and that it changes nothing else.

The tranches are supplied and borrowed one after the other, and what they move adds up by induction over
the schedule. The flash liquidity goes out before them and comes back with its fee after them, so of the
tokens only the principal and the fee remain.
-/
namespace Gearing
open Gearing.Action Pool FixedPoint

namespace Pool
variable {operator account asset : Address} {p q : Pool} {a : Answer} {amount : Word}

theorem Effect.collateral_deposit (h : p.Effect (.deposit asset amount account) a q) (hp : p.Sound) :
    (q.balance account asset).collateral := by
  cases h with
  | deposit =>
    rw [credit, balance_record, balance_setBalance, if_pos rfl]
    exact Balance.flagged_credit _ _ (hp.flagged account asset)

end Pool

namespace Executor

section Tranches
variable (operator account asset : Address)

/-- What the tranches move, where `supplied` and `owed` say what an amount counts for. -/
def trancheFlow (supplied owed : Word → Nat) (each : Word) (borrows : List Word) : Flow where
  supplied := ((each :: borrows).map supplied).sum
  owed := (borrows.map owed).sum
  paidIn := ((each :: borrows).map BitVec.toNat).sum
  paidOut := (borrows.map BitVec.toNat).sum
  spent := if account = operator then 0 else (borrows.map BitVec.toNat).sum

theorem trancheFlow_nil (supplied owed : Word → Nat) (each : Word) :
    trancheFlow operator account supplied owed each [] =
      { supplied := supplied each, paidIn := each.toNat } := by
  ext <;> simp [trancheFlow]

theorem trancheFlow_cons (supplied owed : Word → Nat) (each next : Word) (rest : List Word) :
    trancheFlow operator account supplied owed each (next :: rest) =
      { supplied := supplied each, paidIn := each.toNat } +
      { owed := owed next, paidOut := next.toNat
        spent := if account = operator then 0 else next.toNat } +
      trancheFlow operator account supplied owed next rest := by
  ext
  case spent =>
    simp only [trancheFlow, Flow.add_spent, List.map_cons, List.sum_cons]
    split
    · rfl
    · rw [Nat.zero_add]
  all_goals simp [trancheFlow]

variable {operator account asset}

theorem loans_tranches {each : Word} {borrows : List Word} {p q : Pool}
    (h : p.Carried (roundOps operator account asset each borrows ++
      [.deposit asset (lastTranche each borrows) account]) q) : q.loans = p.loans := by
  induction borrows generalizing each p with
  | nil =>
    cases h with
    | cons deposit tail =>
      cases tail
      exact deposit.loans_deposit
  | cons next rest ih =>
    cases h with
    | cons deposit h =>
      cases h with
      | cons borrow h => exact (ih h).trans (borrow.loans_borrow.trans deposit.loans_deposit)

theorem moves_tranches {liquidityIndex borrowIndex each : Word} {borrows : List Word} {p q : Pool}
    (hindexed : p.Indexed asset liquidityIndex borrowIndex) (hp : p.Sound)
    (h : p.Carried (roundOps operator account asset each borrows ++
      [.deposit asset (lastTranche each borrows) account]) q)
    (hexact : p.Exact (roundOps operator account asset each borrows ++
      [.deposit asset (lastTranche each borrows) account])) :
    Moves operator account asset
        (trancheFlow operator account (fun a => (share a liquidityIndex).toNat)
          (fun a => (share a borrowIndex).toNat) each borrows) p q ∧
      (q.balance account asset).collateral := by
  induction borrows generalizing each p with
  | nil =>
    cases h with
    | cons head tail =>
      cases tail
      have hmoves := head.moves_deposit operator hindexed hexact.1
      rw [trancheFlow_nil]
      exact ⟨hmoves, head.collateral_deposit hp⟩
  | cons next rest ih =>
    cases h with
    | cons deposit h =>
      cases h with
      | cons borrow h =>
        obtain ⟨hexact₁, hexact⟩ := hexact
        rw [after_of_effect deposit] at hexact
        obtain ⟨hexact₂, hexact⟩ := hexact
        rw [after_of_effect borrow] at hexact
        have hmoves₁ := deposit.moves_deposit operator hindexed hexact₁
        have hmoves₂ := borrow.moves_borrow (hmoves₁.indexed hindexed) hexact₂
        obtain ⟨hmoves, hcollateral⟩ := ih (hmoves₂.indexed (hmoves₁.indexed hindexed))
          (borrow.sound (deposit.sound hp)) h hexact
        rw [trancheFlow_cons]
        exact ⟨(hmoves₁.trans hmoves₂).trans hmoves, hcollateral⟩

theorem divides_tranches {liquidityIndex borrowIndex each : Word} {borrows : List Word} {p q : Pool}
    (hindexed : p.Indexed asset liquidityIndex borrowIndex)
    (h : p.Carried (roundOps operator account asset each borrows ++
      [.deposit asset (lastTranche each borrows) account]) q)
    (hexact : p.Exact (roundOps operator account asset each borrows ++
      [.deposit asset (lastTranche each borrows) account])) :
    (∀ a ∈ each :: borrows, Divides liquidityIndex a) ∧ ∀ a ∈ borrows, Divides borrowIndex a := by
  induction borrows generalizing each p with
  | nil =>
    obtain ⟨r, hr, rfl, rfl⟩ := hindexed
    cases h with
    | cons deposit => exact ⟨List.forall_mem_singleton.mpr (deposit.divides_deposit hr hexact.1), nofun⟩
  | cons next rest ih =>
    cases h with
    | cons deposit h =>
      cases h with
      | cons borrow h =>
        obtain ⟨hexact₁, hexact⟩ := hexact
        rw [after_of_effect deposit] at hexact
        obtain ⟨hexact₂, hexact⟩ := hexact
        rw [after_of_effect borrow] at hexact
        have hindexed₁ := (deposit.moves_deposit operator hindexed hexact₁).indexed hindexed
        have hindexed₂ := (borrow.moves_borrow hindexed₁ hexact₂).indexed hindexed₁
        obtain ⟨hdeposits, hborrows⟩ := ih hindexed₂ h hexact
        obtain ⟨r, hr, rfl, -⟩ := hindexed
        obtain ⟨r₁, hr₁, -, rfl⟩ := hindexed₁
        exact ⟨List.forall_mem_cons.mpr ⟨deposit.divides_deposit hr hexact₁, hdeposits⟩,
          List.forall_mem_cons.mpr ⟨borrow.divides_borrow hr₁ hexact₂, hborrows⟩⟩

end Tranches

/-- What a settled run of the schedule makes of `p`, where `r` is the reserve of the asset: every change,
and that there is no other. -/
structure SettledBy (x : Executor) (account asset : Address) (s : Schedule) (r : Reserve) (fee : Word)
    (p q : Pool) : Prop where
  deposit : (q.balance account asset).deposit.toNat = (p.balance account asset).deposit.toNat +
    (s.tranches.map fun a => (share a r.liquidityIndex).toNat).sum
  debt : (q.balance account asset).debt.toNat = (p.balance account asset).debt.toNat +
    (s.borrows.map fun a => (share a r.borrowIndex).toNat).sum
  collateral : (q.balance account asset).collateral
  balances : ∀ a c, (account, asset) ≠ (a, c) → q.balance a c = p.balance a c
  liquidity : ∃ l : Word, q.reserve? asset = some { r with liquidity := l } ∧
    l.toNat = r.liquidity.toNat + s.principal.toNat + fee.toNat
  reserves : ∀ c, c ≠ asset → q.reserve? c = p.reserve? c
  assets : q.assets = p.assets
  fees : (q.feesCollected asset).toNat = (p.feesCollected asset).toNat + fee.toNat
  otherFees : ∀ c, asset ≠ c → q.feesCollected c = p.feesCollected c
  allowance : account ≠ x.operator → (q.allowance account x.operator asset).toNat +
    (s.borrows.map BitVec.toNat).sum = (p.allowance account x.operator asset).toNat
  allowances : ∀ a d c, (account = x.operator ∨ (account, x.operator, asset) ≠ (a, d, c)) →
    q.allowance a d c = p.allowance a d c
  loans : ∀ t, q.loans.get? t = p.loans.get? t
  opened : ∀ a, q.opened.get? a = p.opened.get? a
  journals : ∀ id, q.journals.get? id = p.journals.get? id
  wrapped : q.wrapped = p.wrapped

section Parts
variable {x : Executor} {account asset : Address} {s : Schedule} {p q : Pool}

theorem carried_wholeScript (h : p.Carried (wholeScript x account asset s p) q) :
    ∃ a p₁ p₂ b p₃ c,
      (p.openJournal account).Effect (.acquire asset s.totalBorrow account) a p₁ ∧
      p₁.Carried (roundOps x.operator account asset s.principal s.borrows ++
        [.deposit asset (lastTranche s.principal s.borrows) account]) p₂ ∧
      p₂.Effect (.repay (p.lastTicket + 1) (p.nextTicket asset s.totalBorrow).owed) b p₃ ∧
      (p.openJournal account).Carried
        (script x.operator account asset s (p.nextTicket asset s.totalBorrow)) p₃ ∧
      p₃.Effect (.commit (p.lastCheckpoint + 1)) c q := by
  obtain ⟨p₃, hscript, hcommit⟩ := h.opened.2.split
  have hwhole := hscript
  cases hscript with
  | cons acquire hrest =>
    rw [List.append_cons] at hrest
    obtain ⟨p₂, htranches, hrepay⟩ := hrest.split
    cases hrepay with
    | cons repay tail =>
      cases tail
      cases hcommit with
      | cons commit tail =>
        cases tail
        exact ⟨_, _, _, _, _, _, acquire, htranches, repay, hwhole, commit⟩

theorem exact_wholeScript (hclosed : p.opened.get? account = none)
    (h : p.Exact (wholeScript x account asset s p)) :
    (p.openJournal account).Exact
      (script x.operator account asset s (p.nextTicket asset s.totalBorrow)) := by
  have htail := h.2
  rw [after_of_effect (.checkpoint hclosed)] at htail
  exact ((exact_append _ _ _).mp htail).1

theorem loan_out {a : Answer} {p₁ p₂ : Pool}
    (hacquire : (p.openJournal account).Effect (.acquire asset s.totalBorrow account) a p₁)
    (htranches : p₁.Carried (roundOps x.operator account asset s.principal s.borrows ++
      [.deposit asset (lastTranche s.principal s.borrows) account]) p₂) :
    p₂.loans.get? (p.lastTicket + 1) = some ⟨asset, s.totalBorrow, p.flashFee s.totalBorrow, account⟩ := by
  rw [loans_tranches htranches, hacquire.loans_acquire]
  exact Table.get?_set_self ..

theorem moves_judged {r : Reserve} {a : Answer} {p₁ p₂ : Pool} (hp : p.Sound)
    (hclosed : p.opened.get? account = none) (hr : p.reserve? asset = some r)
    (hacquire : (p.openJournal account).Effect (.acquire asset s.totalBorrow account) a p₁)
    (htranches : p₁.Carried (roundOps x.operator account asset s.principal s.borrows ++
      [.deposit asset (lastTranche s.principal s.borrows) account]) p₂)
    (hexact : p.Exact (wholeScript x account asset s p)) :
    Moves x.operator account asset
        ({ paidOut := s.totalBorrow.toNat } +
          trancheFlow x.operator account (fun a => (share a r.liquidityIndex).toNat)
            (fun a => (share a r.borrowIndex).toNat) s.principal s.borrows)
        (p.openJournal account) p₂ ∧
      (p₂.balance account asset).collateral ∧
      p₂.Exact [.repay (p.lastTicket + 1) (p.nextTicket asset s.totalBorrow).owed] := by
  obtain ⟨-, hexact⟩ := exact_wholeScript hclosed hexact
  rw [after_of_effect hacquire, List.append_cons, exact_append, htranches.history_eq] at hexact
  have hindexed : (p.openJournal account).Indexed asset r.liquidityIndex r.borrowIndex :=
    ⟨r, hr, rfl, rfl⟩
  have hmoves₁ := hacquire.moves_acquire x.operator
  obtain ⟨hmoves₂, hcollateral⟩ := moves_tranches (hmoves₁.indexed hindexed)
    (hacquire.sound (hp.openJournal hclosed)) htranches hexact.1
  exact ⟨hmoves₁.trans hmoves₂, hcollateral, hexact.2⟩

theorem moves_script {r : Reserve} (hp : p.Sound) (hr : p.reserve? asset = some r)
    (h : p.Carried (wholeScript x account asset s p) q)
    (hexact : p.Exact (wholeScript x account asset s p)) :
    ∃ p₃ c, p₃.Effect (.commit (p.lastCheckpoint + 1)) c q ∧
      (∃ es, Undoable p (p.lastCheckpoint + 1) account es p₃) ∧
      Moves x.operator account asset
        ({ paidOut := s.totalBorrow.toNat } +
          trancheFlow x.operator account (fun a => (share a r.liquidityIndex).toNat)
            (fun a => (share a r.borrowIndex).toNat) s.principal s.borrows +
          { paidIn := s.totalBorrow.toNat + (p.flashFee s.totalBorrow).toNat
            fees := (p.flashFee s.totalBorrow).toNat })
        (p.openJournal account) p₃ ∧
      (p₃.balance account asset).collateral ∧ ∀ t, p₃.loans.get? t = p.loans.get? t := by
  have hclosed := h.opened.1
  obtain ⟨a, p₁, p₂, b, p₃, c, hacquire, htranches, hrepay, hscript, hcommit⟩ := carried_wholeScript h
  have hundo := (Undoable.start hp hclosed).carried (hp.openJournal hclosed) hp
    (script_own x.operator account asset s (Nat.lt_succ_self p.lastTicket)) hscript
    (exact_wholeScript hclosed hexact)
  obtain ⟨hmoves, hcollateral, hrepaid, -⟩ := moves_judged hp hclosed hr hacquire htranches hexact
  have hmoves₃ := hrepay.moves_repay x.operator (loan_out hacquire htranches) hrepaid
  refine ⟨p₃, c, hcommit, hundo, hmoves.trans hmoves₃, hmoves₃.collateral hcollateral, fun t => ?_⟩
  -- The ticket of the run is the only loan that changes, and it is gone in the end.
  rw [hrepay.loans_repay, loans_tranches htranches, hacquire.loans_acquire, Table.get?_erase, Table.get?_set]
  show (if p.lastTicket + 1 = t then none else if p.lastTicket + 1 = t then _ else p.loans.get? t) = p.loans.get? t
  by_cases ht : p.lastTicket + 1 = t
  · subst ht
    rw [if_pos rfl]
    exact (hp.loans_fresh (Nat.lt_succ_self p.lastTicket)).symm
  · rw [if_neg ht, if_neg ht]

theorem SettledBy.of_moves {r : Reserve} {fee : Word} {p₃ : Pool} (hp : p.Sound)
    (hclosed : p.opened.get? account = none) (hr : p.reserve? asset = some r)
    (hmoves : Moves x.operator account asset
      ({ paidOut := s.totalBorrow.toNat } +
        trancheFlow x.operator account (fun a => (share a r.liquidityIndex).toNat)
          (fun a => (share a r.borrowIndex).toNat) s.principal s.borrows +
        { paidIn := s.totalBorrow.toNat + fee.toNat, fees := fee.toNat })
      (p.openJournal account) p₃)
    (hcollateral : (p₃.balance account asset).collateral)
    (hloans : ∀ t, p₃.loans.get? t = p.loans.get? t) :
    SettledBy x account asset s r fee p (p₃.close (p.lastCheckpoint + 1) account) where
  deposit := by
    have h := hmoves.deposit
    simp only [Flow.add_supplied, trancheFlow, Nat.zero_add, Nat.add_zero] at h
    exact h
  debt := by
    have h := hmoves.debt
    simp only [Flow.add_owed, trancheFlow, Nat.zero_add, Nat.add_zero] at h
    exact h
  collateral := hcollateral
  balances := hmoves.balances
  liquidity := by
    obtain ⟨l, hl, hsum⟩ := hmoves.reserve? (s := r) hr
    refine ⟨l, hl, ?_⟩
    simp only [Flow.add_paidOut, Flow.add_paidIn, trancheFlow, List.map_cons, List.sum_cons] at hsum
    omega
  reserves c hc := by
    obtain ⟨g, hg, -⟩ := hmoves.reserves
    show p₃.reserve? c = p.reserve? c
    rw [reserve?_of_reserves hg, reserve?_mapLiquidity]
    show (p.reserve? c).map _ = _
    cases h : p.reserve? c with
    | none => rfl
    | some r' =>
      rw [Option.map_some, if_neg fun h' => hc ((asset_of_reserve? h).symm.trans h')]
  assets := by
    obtain ⟨g, hg, -⟩ := hmoves.reserves
    show p₃.reserves.map (·.asset) = _
    rw [hg]
    exact assets_mapLiquidity ..
  fees := by
    have h := hmoves.fees
    simp only [Flow.add_fees, trancheFlow, Nat.zero_add] at h
    exact h
  otherFees := hmoves.otherFees
  allowance hne := by
    have h := hmoves.allowance
    simp only [Flow.add_spent, trancheFlow, if_neg hne, Nat.zero_add, Nat.add_zero] at h
    exact h
  allowances a d c hother := by
    by_cases hk : (account, x.operator, asset) = (a, d, c)
    · cases hk
      have hself : account = x.operator := hother.resolve_right fun hne => hne rfl
      have h := hmoves.allowance
      simp only [Flow.add_spent, trancheFlow, if_pos hself, Nat.add_zero] at h
      exact BitVec.eq_of_toNat_eq h
    · exact hmoves.allowances a d c hk
  loans := hloans
  opened a := by
    show (p₃.opened.erase account).get? a = p.opened.get? a
    rw [hmoves.opened]
    show ((p.opened.set account _).erase account).get? a = p.opened.get? a
    rw [Table.get?_erase, Table.get?_set]
    by_cases ha : account = a
    · subst ha
      rw [if_pos rfl, hclosed]
    · rw [if_neg ha, if_neg ha]
  journals id := by
    show (p₃.journals.erase (p.lastCheckpoint + 1)).get? id = p.journals.get? id
    rw [Table.get?_erase]
    by_cases hid : p.lastCheckpoint + 1 = id
    · subst hid
      rw [if_pos rfl]
      exact (hp.journals_fresh (Nat.lt_succ_self p.lastCheckpoint)).symm
    · have hother : (p.openJournal account).opened.get? account ≠ some id := by
        show (p.opened.set account _).get? account ≠ some id
        rw [Table.get?_set_self]
        exact fun h => hid (Option.some.inj h)
      rw [if_neg hid, hmoves.journals id hother]
      show (p.journals.set _ _).get? id = p.journals.get? id
      rw [Table.get?_set, if_neg hid]
  wrapped := hmoves.wrapped

end Parts

/-- Exact as long as nothing wraps: neither what the run carries out nor the sum of its tranches. -/
theorem serve_settled (x : Executor) (account asset : Address) (request : Request) {v w : Venue}
    {receipt : Receipt} (hpool : v.pool.Reachable)
    (hrun : serve x account asset request v = .ok receipt w) (hexact : v.pool.Exact (v.since w))
    (htotal : (receipt.schedule.tranches.map BitVec.toNat).sum < 2 ^ 256) :
    request.schedule? = some receipt.schedule ∧
    (∃ r, v.pool.reserve? asset = some r ∧
      SettledBy x account asset receipt.schedule r (v.pool.flashFee receipt.schedule.totalBorrow)
        v.pool w.pool) ∧
    receipt.schedule.totalDeposit.toNat = receipt.schedule.principal.toNat +
      (receipt.schedule.borrows.map BitVec.toNat).sum ∧
    receipt.schedule.totalBorrow.toNat = (receipt.schedule.borrows.map BitVec.toNat).sum ∧
    receipt.flashFee = v.pool.flashFee receipt.schedule.totalBorrow := by
  have hsound := hpool.sound
  obtain ⟨s, hrequest, hsettles⟩ := (serve_ends x account asset request v).of_ok hrun
  rw [hsettles.schedule] at htotal ⊢
  rw [Venue.since_eq hsettles.done] at hexact
  obtain ⟨r, hr, -⟩ := hsettles.admitted.borrowable
  obtain ⟨p₃, c, hcommit, ⟨es, hundo⟩, hmoves, hcollateral, hloans⟩ :=
    moves_script hsound hr hsettles.carried hexact
  have hw : w.pool = p₃.close (v.pool.lastCheckpoint + 1) account := by
    generalize w.pool = q at hcommit
    cases hcommit with
    | commit journal =>
      rw [hundo.journal] at journal
      cases journal
      rfl
  have hborrows : s.totalBorrow.toNat = (s.borrows.map BitVec.toNat).sum := by
    refine Word.toNat_sum ?_
    simp only [Schedule.tranches, List.map_cons, List.sum_cons] at htotal
    omega
  refine ⟨hrequest, ⟨r, hr, ?_⟩, ?_, hborrows, hsettles.flashFee.trans hsettles.fee⟩
  · rw [hw]
    exact .of_moves hsound hsettles.carried.opened.1 hr hmoves hcollateral hloans
  · have hdeposit : s.totalDeposit.toNat = s.principal.toNat + s.totalBorrow.toNat := by
      refine toNat_add_of_lt ?_
      simp only [Schedule.tranches, List.map_cons, List.sum_cons] at htotal
      omega
    rw [hdeposit, hborrows]

/-- The pool of the samples, after another account's allowance for the executor. -/
def delegatedVenue : Venue where
  pool := history { feeBps := 9, wrappedNative := ⟨1⟩ }
    [.list { asset := ⟨1⟩, symbol := "A", decimals := 18, ltvBps := 8000,
             liquidationThresholdBps := 8500 },
     .supply ⟨1⟩ 1000000, .approve ⟨8⟩ ⟨7⟩ ⟨1⟩ 900]

def delegatedRun : ExecM Receipt := serve { operator := ⟨7⟩ } ⟨8⟩ ⟨1⟩ (.single 1000 600)

/-- Of the allowance of 900 there are 300 left. -/
theorem serve_settled_delegated :
    ((delegatedRun.final delegatedVenue).pool.allowance ⟨8⟩ ⟨7⟩ ⟨1⟩).toNat + 600 = 900 := by
  have hpool : delegatedVenue.pool.Reachable := ⟨9, ⟨1⟩, _, rfl⟩
  have hanswer : (delegatedRun.answer delegatedVenue).map (·.schedule) = .ok (.single 1000 600) := by
    decide +kernel
  obtain ⟨receipt, hrun, hschedule⟩ : ∃ receipt, delegatedRun.answer delegatedVenue = .ok receipt ∧
      receipt.schedule = .single 1000 600 := by
    cases h : delegatedRun.answer delegatedVenue with
    | ok receipt =>
      rw [h] at hanswer
      exact ⟨receipt, rfl, Except.ok.inj hanswer⟩
    | error _ =>
      rw [h] at hanswer
      cases hanswer
  have hexact : delegatedVenue.pool.Exact
      (delegatedVenue.since (delegatedRun.final delegatedVenue)) := by
    decide +kernel
  have htotal : (receipt.schedule.tranches.map BitVec.toNat).sum < 2 ^ 256 := by
    rw [hschedule]
    decide +kernel
  obtain ⟨-, ⟨r, -, hsettled⟩, -⟩ := serve_settled { operator := ⟨7⟩ } ⟨8⟩ ⟨1⟩ (.single 1000 600) hpool
    (eq_ok_of_answer hrun) hexact htotal
  rw [hschedule] at hsettled
  exact hsettled.allowance (by decide)

end Executor
end Gearing
