import Gearing.Proofs.Pool.Log

/-!
The books of a pool are the sums over its live notes: what was done under a checkpoint that was reverted
counts as if it had never been done, whatever other accounts did meanwhile.

The sums come out because a journal is a part of the log and its sum is a part of theirs, so that no undone
subtraction clamps. The collateral flag is not a sum. It is set by the first live deposit, and a revert
clears it if that deposit is in its journal; so the flag without an open journal must tell of the live
deposits outside of that journal.
-/
namespace Gearing.Pool

/-- The books of the pool are what the notes add up to. -/
structure Tallied (ns : List Note) (p : Pool) : Prop where
  deposit : ∀ a c, (p.balance a c).deposit.toNat = total (Entry.supplied (a, c)) ns
  debt : ∀ a c, (p.balance a c).debt.toNat = total (Entry.owed (a, c)) ns
  collateral : ∀ a c, (p.balance a c).collateral ↔ ∃ n ∈ ns, n.entry.Supplies (a, c)
  fees : ∀ c, (p.feesCollected c).toNat = total (Entry.feeOn c) ns

theorem tallied_empty (feeBps : Nat) (wrappedNative : Address) :
    Tallied [] { feeBps, wrappedNative } where
  deposit _ _ := rfl
  debt _ _ := rfl
  collateral _ _ := by
    constructor
    · intro h
      cases h
    · rintro ⟨n, hn, -⟩
      cases hn
  fees _ := rfl

/-- Without the entries of an open journal, the flags of its account tell of the live deposits outside
of that journal. -/
def FlagsTold (ds : List Deed) (p : Pool) : Prop :=
  ∀ id j, p.journals.get? id = some j → ∀ c,
    ((p.balance j.account c).collateral ∧ ∀ e ∈ j.entries, ¬ e.Enables (j.account, c)) ↔
      ∃ n ∈ live ds, n.under ≠ some id ∧ n.entry.Supplies (j.account, c)

section Step
variable {ds : List Deed} {p q : Pool} {op : Op}

theorem not_under_of_supplies (hlog : Logged ds p) (hp : p.Sound) {id : Nat} {j : Journal}
    (hj : p.journals.get? id = some j) {n : Note} (hn : n ∈ live ds) {a c : Address}
    (ha : a ≠ j.account) (hsupplies : n.entry.Supplies (a, c)) : n.under ≠ some id := by
  intro hunder
  have hmem : n ∈ under id (log ds) :=
    List.mem_filter.mpr ⟨List.mem_of_mem_filter hn, decide_eq_true hunder⟩
  have hentry : n.entry ∈ j.entries := by
    rw [hlog.journal id j hj]
    exact List.mem_reverse.mpr (List.mem_map_of_mem hmem)
  exact n.entry.not_supplies_other (hp.own id j hj _ hentry) ha c hsupplies

theorem Tallied.noted (h : Tallied (live ds) p) (hlog : Logged ds p) (hp : p.Sound)
    {account : Address} {e : Entry} (hentry : op.entry? p = some (account, e))
    (hnoted : Noted account e p q) (hcounted : Counted e p q) :
    Tallied (live (ds ++ [⟨p, op⟩])) q := by
  rw [live_noted hentry (hlog.opened_not_reverted hp account)]
  refine ⟨fun a c => ?_, fun a c => ?_, fun a c => ?_, fun c => ?_⟩
  · rw [hcounted.deposit, h.deposit, total_append, total_singleton]
  · rw [hcounted.debt, h.debt, total_append, total_singleton]
  · rw [hnoted.collateral, h.collateral]
    simp only [List.mem_append, List.mem_singleton, or_and_right, exists_or, exists_eq_left]
  · rw [hcounted.fees, h.fees, total_append, total_singleton]

theorem FlagsTold.noted (h : FlagsTold ds p) (hlog : Logged ds p) (hp : p.Sound)
    {account : Address} {e : Entry} (hentry : op.entry? p = some (account, e))
    (hnoted : Noted account e p q) : FlagsTold (ds ++ [⟨p, op⟩]) q := by
  intro id j hj c
  rw [live_noted hentry (hlog.opened_not_reverted hp account)]
  rw [hnoted.journals, get?_noted] at hj
  split at hj
  · -- The note goes into this journal: it is taken away on the left and does not count on the right.
    rename_i hid
    obtain ⟨j', hj', rfl⟩ := Option.map_eq_some_iff.mp hj
    obtain ⟨es, hes⟩ := (hp.opened account id).mp hid
    have haccount : j'.account = account := by
      rw [hj'] at hes
      cases hes
      rfl
    subst haccount
    have hbefore := hnoted.enabled j'.account c
    rw [List.forall_mem_cons, ← and_assoc, ← hbefore, h id j' hj' c]
    simp [List.mem_append, or_and_right, exists_or, hid]
  · rename_i hid
    have hother : j.account ≠ account := fun ha => hid (ha ▸ hp.account_eq hj)
    have hnone := e.not_supplies_other hnoted.concerns hother c
    rw [hnoted.collateral, or_iff_left hnone, h id j hj c]
    simp [List.mem_append, or_and_right, exists_or, hnone]

theorem Tallied.reverted (h : Tallied (live ds) p) (hflags : FlagsTold ds p) (hlog : Logged ds p)
    (hp : p.Sound) {id : Nat} {j : Journal} (hj : p.journals.get? id = some j) :
    Tallied (live (ds ++ [⟨p, .revert id⟩])) ((p.close id j.account).undoAll j.entries) := by
  have htotal : ∀ w, total w (live ds) =
      total w (live (ds ++ [⟨p, .revert id⟩])) + (j.entries.map w).sum := fun w => by
    rw [hlog.sum_journal hj]
    exact total_live_reverted (hlog.not_reverted hj) w
  refine ⟨fun a c => ?_, fun a c => ?_, fun a c => ?_, fun c => ?_⟩
  · have hsum := h.deposit a c
    rw [htotal] at hsum
    exact (deposit_undoAll ..).trans (Nat.sub_eq_of_eq_add hsum)
  · have hsum := h.debt a c
    rw [htotal] at hsum
    exact (debt_undoAll ..).trans (Nat.sub_eq_of_eq_add hsum)
  · have hlive : (∃ n ∈ live (ds ++ [⟨p, .revert id⟩]), n.entry.Supplies (a, c)) ↔
        ∃ n ∈ live ds, n.under ≠ some id ∧ n.entry.Supplies (a, c) := by
      simp [live_reverted, List.mem_filter, and_assoc]
    rw [collateral_undoAll, hlive]
    by_cases ha : a = j.account
    · subst ha
      exact hflags id j hj c
    · have hnone : ∀ e ∈ j.entries, ¬ e.Enables (a, c) := fun e he henables =>
        e.not_supplies_other (hp.own id j hj e he) ha c (e.supplies_of_enables henables)
      refine (and_iff_left hnone).trans ((h.collateral a c).trans ?_)
      constructor
      · rintro ⟨n, hn, hs⟩
        exact ⟨n, hn, not_under_of_supplies hlog hp hj hn ha hs, hs⟩
      · rintro ⟨n, hn, -, hs⟩
        exact ⟨n, hn, hs⟩
  · have hsum := h.fees c
    rw [htotal] at hsum
    exact (feesCollected_undoAll ..).trans (Nat.sub_eq_of_eq_add hsum)

theorem FlagsTold.reverted (h : FlagsTold ds p) (hlog : Logged ds p) (hp : p.Sound) {id : Nat}
    {j : Journal} (hj : p.journals.get? id = some j) :
    FlagsTold (ds ++ [⟨p, .revert id⟩]) ((p.close id j.account).undoAll j.entries) := by
  intro i j' hj' c
  rw [undoAll_journals] at hj'
  have herase : (p.journals.erase id).get? i = some j' := hj'
  rw [Table.get?_erase] at herase
  split at herase
  · cases herase
  · rename_i hne
    have hother : j'.account ≠ j.account := fun ha => hne (hp.id_eq hj herase ha.symm)
    have hbalance : ((p.close id j.account).undoAll j.entries).balance j'.account c =
        p.balance j'.account c := balance_undoAll_other _ j.entries (hp.own id j hj) hother c
    rw [hbalance, h i j' herase c]
    simp only [live_reverted, List.mem_filter, decide_eq_true_eq]
    constructor
    · rintro ⟨n, hn, hunder, hs⟩
      exact ⟨n, ⟨hn, not_under_of_supplies hlog hp hj hn hother hs⟩, hunder, hs⟩
    · rintro ⟨n, ⟨hn, -⟩, hunder, hs⟩
      exact ⟨n, hn, hunder, hs⟩

theorem FlagsTold.opened (h : FlagsTold ds p) (htally : Tallied (live ds) p) (hlog : Logged ds p)
    (account : Address) : FlagsTold (ds ++ [⟨p, .checkpoint account⟩]) (p.openJournal account) := by
  intro id j hj c
  rw [live_unnoted rfl fun _ => Op.noConfusion]
  have hset : (p.journals.set (p.lastCheckpoint + 1) { account }).get? id = some j := hj
  rw [Table.get?_set] at hset
  split at hset
  · rename_i hid
    cases hset
    have hnew : ∀ n ∈ live ds, n.under ≠ some id := by
      intro n hn hunder
      have := hlog.issued n (List.mem_of_mem_filter hn) id hunder
      omega
    have hnone : ∀ e ∈ (Journal.mk account []).entries, ¬ e.Enables (account, c) := by
      intro e he
      cases he
    refine (and_iff_left hnone).trans ((htally.collateral account c).trans ?_)
    constructor
    · rintro ⟨n, hn, hs⟩
      exact ⟨n, hn, hnew n hn, hs⟩
    · rintro ⟨n, hn, -, hs⟩
      exact ⟨n, hn, hs⟩
  · exact h id j hset c

/-- Books and flags, one carried-out operation later. -/
theorem tallied_step (h : Tallied (live ds) p) (hflags : FlagsTold ds p) (hlog : Logged ds p)
    (hp : p.Sound) {a : Answer} (heffect : p.Effect op a q) (hexact : op.Exact p) :
    Tallied (live (ds ++ [⟨p, op⟩])) q ∧ FlagsTold (ds ++ [⟨p, op⟩]) q := by
  cases heffect.turn hp with
  | noted hentry hnoted =>
    exact ⟨h.noted hlog hp hentry hnoted (heffect.counted hexact hentry),
      hflags.noted hlog hp hentry hnoted⟩
  | @opened account =>
    refine ⟨?_, hflags.opened h hlog account⟩
    rw [live_unnoted rfl fun _ => Op.noConfusion]
    exact ⟨h.deposit, h.debt, h.collateral, h.fees⟩
  | reverted hj => exact ⟨h.reverted hflags hlog hp hj, hflags.reverted hlog hp hj⟩
  | @committed id j hj =>
    rw [FlagsTold, live_unnoted rfl fun _ => Op.noConfusion]
    refine ⟨⟨h.deposit, h.debt, h.collateral, h.fees⟩, fun i j' hj' => ?_⟩
    have herase : (p.journals.erase id).get? i = some j' := hj'
    rw [Table.get?_erase] at herase
    split at herase
    · cases herase
    · exact hflags i j' herase
  | aside hentry hrevert haside =>
    have hbalance : ∀ a c, q.balance a c = p.balance a c := fun a c => by
      rw [balance, haside.balances]
      rfl
    have hfees : ∀ c, q.feesCollected c = p.feesCollected c := fun c => by
      rw [feesCollected, haside.fees]
      rfl
    rw [FlagsTold, live_unnoted hentry hrevert, haside.journals]
    simp only [hbalance]
    exact ⟨⟨fun a c => by rw [hbalance, h.deposit], fun a c => by rw [hbalance, h.debt],
      fun a c => by rw [hbalance, h.collateral], fun c => by rw [hfees, h.fees]⟩, hflags⟩

end Step

/-- What belongs to accounts other than this one is the same in `q` as in `p`. -/
structure OthersKept (account : Address) (p q : Pool) : Prop where
  balance : ∀ a c, a ≠ account → q.balance a c = p.balance a c
  allowance : ∀ a d c, a ≠ account → q.allowance a d c = p.allowance a d c
  loans : ∀ t loan, loan.account ≠ account →
    (q.loans.get? t = some loan ↔ p.loans.get? t = some loan)
  opened : ∀ a, a ≠ account → q.opened.get? a = p.opened.get? a

theorem Logged.othersKept {ds : List Deed} {p : Pool} (h : Logged ds p) (hp : p.Sound) {id : Nat}
    {j : Journal} (hj : p.journals.get? id = some j) :
    OthersKept j.account p ((p.close id j.account).undoAll j.entries) where
  balance a c ha := balance_undoAll_other _ j.entries (hp.own id j hj) ha c
  allowance a d c ha := by
    have hzero : (j.entries.map (Entry.spent (a, d, c))).sum = 0 :=
      List.sum_eq_zero_iff_forall_eq_nat.mpr fun n hn => by
        obtain ⟨e, he, rfl⟩ := List.mem_map.mp hn
        exact e.spent_other (hp.own id j hj e he) ha d c
    rw [allowance_undoAll, hzero]
    exact BitVec.add_zero _
  loans t loan hother := by
    rw [get?_loans_undoAll]
    split
    · rename_i ht
      -- A ticket of the journal was given out to the account itself.
      obtain ⟨e, he, hticket⟩ := List.mem_filterMap.mp ht
      have hgone : ∀ loan, p.loans.get? t = some loan → loan.account = j.account :=
        (h.tickets _ (h.note_of_entry hj he) t hticket).2
      exact ⟨fun hloan => (by cases hloan), fun hloan => absurd (hgone loan hloan) hother⟩
    · rfl
  opened a ha := by
    rw [undoAll_opened]
    show (p.opened.erase j.account).get? a = p.opened.get? a
    rw [Table.get?_erase, if_neg (Ne.symm ha)]

/-- After any history whose arithmetic was exact, the books are the sums over the live notes; and reverting
an account's checkpoint, which is never refused, leaves alone what belongs to others. -/
theorem history_tallied (feeBps : Nat) (wrappedNative : Address) (ops : List Op)
    (hexact : ∀ d ∈ deeds { feeBps, wrappedNative } ops, d.Exact) :
    let p := history { feeBps, wrappedNative } ops
    Tallied (live (deeds { feeBps, wrappedNative } ops)) p ∧
      ∀ account id, p.opened.get? account = some id →
        ∃ q, p.Effect (.revert id) .done q ∧ OthersKept account p q := by
  intro p
  have hempty := sound_empty feeBps wrappedNative
  have hp : p.Sound := hempty.history ops
  have hlog : Logged (deeds { feeBps, wrappedNative } ops) p :=
    (logged_empty feeBps wrappedNative).history hempty ops
  constructor
  · have hrun := history_induction hempty (motive := fun ds q => Logged ds q ∧
      ((∀ d ∈ ds, d.Exact) → Tallied (live ds) q ∧ FlagsTold ds q)) ?_ ?_ ops
    · exact (hrun.2 hexact).1
    · exact ⟨logged_empty .., fun _ => ⟨tallied_empty .., fun _ _ hj => (by cases hj)⟩⟩
    · rintro ds q op a r hq ⟨hds, htold⟩ heffect
      refine ⟨hds.step hq (heffect.turn hq), fun hall => ?_⟩
      obtain ⟨htally, hflags⟩ := htold fun d hd => hall d (List.mem_append_left _ hd)
      exact tallied_step htally hflags hds hq heffect
        (hall ⟨q, op⟩ (List.mem_append_right _ List.mem_cons_self))
  · intro account id hid
    obtain ⟨es, hes⟩ := (hp.opened account id).mp hid
    exact ⟨_, .revert hes, hlog.othersKept hp hes⟩

/-- Two accounts under checkpoints of their own, and indices that change in between. The first account is
rolled back and deposits again. -/
def tangle : List Op :=
  [.list { asset := ⟨1⟩, symbol := "A", decimals := 18 }, .supply ⟨1⟩ 1000000,
    .approve ⟨7⟩ ⟨9⟩ ⟨1⟩ 500, .checkpoint ⟨7⟩, .deposit ⟨1⟩ 1000 ⟨7⟩, .checkpoint ⟨8⟩,
    .deposit ⟨1⟩ 700 ⟨8⟩,
    .updateReserve ⟨1⟩ { liquidityIndex := some (2 * FixedPoint.ray)
                         borrowIndex := some (3 * FixedPoint.ray) },
    .borrow ⟨1⟩ 300 ⟨9⟩ ⟨7⟩, .acquire ⟨1⟩ 100000 ⟨8⟩, .deposit ⟨1⟩ 400 ⟨8⟩, .repay 1 100090,
    .revert 1, .deposit ⟨1⟩ 50 ⟨7⟩]

theorem history_tallied_tangle :
    let p := history { feeBps := 9 } tangle
    let notes := live (deeds { feeBps := 9 } tangle)
    (Tallied notes p ∧ total (Entry.supplied (⟨7⟩, ⟨1⟩)) notes = 25 ∧
      total (Entry.owed (⟨7⟩, ⟨1⟩)) notes = 0 ∧ total (Entry.supplied (⟨8⟩, ⟨1⟩)) notes = 900 ∧
      total (Entry.feeOn ⟨1⟩) notes = 90) ∧
    ∃ q, p.Effect (.revert 2) .done q ∧ OthersKept ⟨8⟩ p q := by
  have htold := history_tallied 9 .zero tangle (by decide +kernel)
  refine ⟨⟨htold.1, ?_, ?_, ?_, ?_⟩, htold.2 ⟨8⟩ 2 (by decide +kernel)⟩
  all_goals decide +kernel

end Gearing.Pool
