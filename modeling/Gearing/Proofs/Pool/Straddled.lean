import Gearing.Proofs.Pool.Log
import Gearing.Proofs.Pool.Rollback
import Gearing.Proofs.Pool.Totals

/-!
Reverting a checkpoint under which older loans were repaid.

Undoing a repayment takes its tokens and its fee back out of the reserve, but its entry does not know the
ticket, so the loan stays gone. A loan that is younger than the checkpoint vanishes anyhow, together with
its acquisition; an older one is out after the revert unless it was repaid.
-/
namespace Gearing.Pool

/-- What was done is noted down for the account. -/
def Deed.For (account : Address) (d : Deed) : Prop :=
  (d.op.entry? d.found).map Prod.fst = some account

instance (account : Address) (d : Deed) : Decidable (d.For account) :=
  inferInstanceAs (Decidable (_ = _))

def Deed.repaid? (d : Deed) : Option Nat :=
  match d.op with
  | .repay ticket _ => some ticket
  | _ => none

def repaid (ds : List Deed) : List Nat := ds.filterMap Deed.repaid?

theorem mem_repaid_append {ds : List Deed} {d : Deed} {t : Nat} :
    t ∈ repaid (ds ++ [d]) ↔ t ∈ repaid ds ∨ d.repaid? = some t :=
  mem_filterMap_snoc

theorem Effect.loans_noted {p q : Pool} {op : Op} {a : Answer} (h : p.Effect op a q)
    {account : Address} {e : Entry} (hentry : op.entry? p = some (account, e)) {t : Nat}
    (ht : e.ticket? ≠ some t) :
    q.loans.get? t = if Deed.repaid? ⟨p, op⟩ = some t then none else p.loans.get? t := by
  have hnone : (none : Option Nat) ≠ some t := fun h => by cases h
  have heffect := h
  cases h with
  | deposit => exact (congrArg (·.get? t) (record_loans ..)).trans (if_neg hnone).symm
  | borrow => exact (congrArg (·.get? t) (record_loans ..)).trans (if_neg hnone).symm
  | borrowFor => exact (congrArg (·.get? t) (record_loans ..)).trans (if_neg hnone).symm
  | acquire =>
    have hloans := heffect.loans_acquire
    cases hentry
    have hne : p.lastTicket + 1 ≠ t := fun heq => ht (congrArg some heq)
    simp [hloans, Deed.repaid?, Table.get?_set, hne]
  | repay =>
    have hloans := heffect.loans_repay
    simp [hloans, Deed.repaid?, Table.get?_erase]
  | _ => cases hentry

/-- From `p₀` to `p` the account has an open checkpoint with the entries `es`: its loans by age, and what
undoing the entries leads to. -/
structure Straddled (p₀ : Pool) (account : Address) (ds : List Deed) (es : List Entry) (p : Pool) :
    Prop where
  journal : p.journals.get? (p₀.lastCheckpoint + 1) = some ⟨account, es⟩
  issued : p₀.lastTicket ≤ p.lastTicket
  since : ∀ t ∈ es.filterMap Entry.ticket?, p₀.lastTicket < t
  loans : ∀ t, t ∉ es.filterMap Entry.ticket? →
    p.loans.get? t = if t ∈ repaid ds then none else p₀.loans.get? t
  books : (∀ d ∈ ds, d.Exact) →
    ((p.close (p₀.lastCheckpoint + 1) account).undoAll es).SameBooks p₀

namespace Straddled
variable {p₀ p q : Pool} {account : Address} {ds : List Deed} {es : List Entry}

theorem start (hp : p₀.Sound) (hclosed : p₀.opened.get? account = none) :
    Straddled p₀ account [] [] (p₀.openJournal account) where
  journal := (Undoable.start hp hclosed).journal
  issued := Nat.le_refl _
  since _ ht := by cases ht
  loans _ _ := rfl
  books _ := (Undoable.start hp hclosed).books

theorem step (h : Straddled p₀ account ds es p) (hp : p.Sound) {op : Op} {a : Answer}
    (heffect : p.Effect op a q) (hfor : Deed.For account ⟨p, op⟩) :
    ∃ e, Straddled p₀ account (ds ++ [⟨p, op⟩]) (e :: es) q := by
  obtain ⟨⟨account', e⟩, hentry, haccount⟩ := Option.map_eq_some_iff.mp hfor
  obtain rfl : account' = account := haccount
  have hentry : op.entry? p = some (account', e) := hentry
  have hnoted := heffect.noted hp hentry
  refine ⟨e, hnoted.journal_own hp h.journal, h.issued.trans hnoted.lastTicket, fun t ht => ?_,
    fun t ht => ?_, fun hexact => ?_⟩
  · have hissued := h.issued
    obtain ⟨e', he', hticket⟩ := List.mem_filterMap.mp ht
    rcases List.mem_cons.mp he' with rfl | he'
    · exact hissued.trans_lt (hnoted.ticket t hticket).1
    · exact h.since t (List.mem_filterMap.mpr ⟨e', he', hticket⟩)
  · -- A ticket that the note does not give out changes only where it is the one taken back.
    have hnew : e.ticket? ≠ some t := fun he =>
      ht (List.mem_filterMap.mpr ⟨e, List.mem_cons_self, he⟩)
    have hold : t ∉ es.filterMap Entry.ticket? := fun hmem =>
      ht ((List.sublist_cons_self e es).filterMap Entry.ticket? |>.subset hmem)
    rw [heffect.loans_noted hentry hnew, h.loans t hold]
    by_cases hlast : Deed.repaid? ⟨p, op⟩ = some t
    · rw [if_pos hlast, if_pos (mem_repaid_append.mpr (.inr hlast))]
    · simp [mem_repaid_append, hlast]
  · have hexact' : ∀ d ∈ ds, d.Exact := fun d hd => hexact d (List.mem_append_left _ hd)
    have hop : op.Exact p := hexact ⟨p, op⟩ (List.mem_append_right _ List.mem_cons_self)
    have hundone := SameBooks.undone hp (hp.account_eq h.journal) hnoted (heffect.counted hop hentry)
    exact (hundone.undoAll es).trans (h.books hexact')

theorem history (hp : p₀.Sound) (hclosed : p₀.opened.get? account = none) (ops : List Op)
    (hfor : ∀ d ∈ (p₀.openJournal account).deeds ops, d.For account) :
    ∃ es, Straddled p₀ account ((p₀.openJournal account).deeds ops) es
      ((p₀.openJournal account).history ops) := by
  refine history_induction (hp.openJournal hclosed)
    (motive := fun ds q => (∀ d ∈ ds, d.For account) → ∃ es, Straddled p₀ account ds es q)
    (fun _ => ⟨[], start hp hclosed⟩) (fun ds p op a q hp h heffect hall => ?_) ops hfor
  obtain ⟨es, h⟩ := h fun d hd => hall d (List.mem_append_left _ hd)
  obtain ⟨e, h⟩ := h.step hp heffect (hall _ (List.mem_append_right _ List.mem_cons_self))
  exact ⟨e :: es, h⟩

/-- After the revert an older loan is out unless it was repaid, and a younger one is not. -/
theorem loans_undoAll (h : Straddled p₀ account ds es p) (hp : p₀.Sound) (t : Nat) :
    ((p.close (p₀.lastCheckpoint + 1) account).undoAll es).loans.get? t =
      if t ∈ repaid ds then none else p₀.loans.get? t := by
  rw [get?_loans_undoAll]
  split
  · rename_i ht
    rw [hp.loans_fresh (h.since t ht), ite_self]
  · rename_i ht
    exact h.loans t ht

end Straddled

/-- Reverting the checkpoint of an account, whatever was done for the account under it. The tickets that are
out are those of the checkpoint but for the ones that were repaid, however old they were; so they are the
same exactly where no older ticket was repaid. Where no sum wrapped, the liquidity of every reserve is that
of the checkpoint, and what its liquidity and the tickets out on it have lost is what was repaid. -/
theorem revert_straddled {p : Pool} (hpool : p.Reachable) {account : Address}
    (hclosed : p.opened.get? account = none) (ops : List Op)
    (hfor : ∀ d ∈ (p.after (.checkpoint account)).deeds ops, d.For account) :
    let ds := (p.after (.checkpoint account)).deeds ops
    ∃ q, ((p.after (.checkpoint account)).history ops).Effect (.revert (p.lastCheckpoint + 1)) .done q ∧
      (∀ t, q.loans.get? t = if t ∈ repaid ds then none else p.loans.get? t) ∧
      ((∀ t, q.loans.get? t = p.loans.get? t) ↔ ∀ t ∈ repaid ds, p.loans.get? t = none) ∧
      ((∀ d ∈ ds, d.Exact) → ∀ c, q.free c = p.free c ∧
        q.free c + q.outstanding c + p.outstandingAmong (repaid ds) c = p.free c + p.outstanding c) := by
  intro ds
  have hp := hpool.sound
  have hopened : p.after (.checkpoint account) = p.openJournal account :=
    after_of_effect (.checkpoint hclosed)
  rw [hopened] at hfor ⊢
  obtain ⟨es, h⟩ := Straddled.history hp hclosed ops hfor
  have hds : ds = (p.openJournal account).deeds ops := by rw [← hopened]
  rw [← hds] at h
  have hloans := h.loans_undoAll hp
  refine ⟨_, .revert h.journal, hloans, ⟨fun hsame t ht => ?_, fun hnone t => ?_⟩, fun hexact c => ?_⟩
  · rw [← hsame t, hloans t, if_pos ht]
  · rw [hloans t]
    split
    · exact (hnone t ‹_›).symm
    · rfl
  · have hfree := free_eq_of_reserves (h.books hexact).reserves c
    have hout := outstanding_of_gone hloans c
    exact ⟨hfree, by rw [hfree, Nat.add_assoc, hout]⟩

/-- A pool with a ticket of 100 out for an account that has no checkpoint. -/
def lentPool : Pool :=
  history { feeBps := 9 } [.list { asset := ⟨1⟩, symbol := "A", decimals := 18 }, .supply ⟨1⟩ 1000,
    .acquire ⟨1⟩ 100 ⟨7⟩]

/-- A second ticket is given out under the checkpoint, and both are repaid. The revert gives neither back. -/
theorem revert_straddled_both :
    let q := ((lentPool.after (.checkpoint ⟨7⟩)).history
      [.acquire ⟨1⟩ 50 ⟨7⟩, .repay 2 50, .repay 1 100]).after (.revert 1)
    q.loans.get? 1 = none ∧ q.loans.get? 2 = none ∧ q.free ⟨1⟩ = lentPool.free ⟨1⟩ := by
  intro q
  have hpool : lentPool.Reachable := ⟨9, .zero, _, rfl⟩
  have hclosed : lentPool.opened.get? ⟨7⟩ = none := by decide +kernel
  obtain ⟨q', heffect, hloans, -, hbooks⟩ := revert_straddled hpool hclosed
    [.acquire ⟨1⟩ 50 ⟨7⟩, .repay 2 50, .repay 1 100] (by decide +kernel)
  have hq : q = q' := after_of_effect heffect
  rw [hq]
  refine ⟨(hloans 1).trans ?_, (hloans 2).trans ?_, (hbooks (by decide +kernel) ⟨1⟩).1⟩
  · decide +kernel
  · decide +kernel

/-- A ticket that was out at the checkpoint and is repaid under it is gone after the revert, although its
tokens are taken back. -/
theorem repaid_loan_lost :
    let q := ((lentPool.after (.checkpoint ⟨7⟩)).history [.repay 1 100]).after (.revert 1)
    (lentPool.loans.get? 1).isSome ∧ q.loans.get? 1 = none ∧
      lentPool.free ⟨1⟩ + lentPool.outstanding ⟨1⟩ = 1000 ∧ q.free ⟨1⟩ + q.outstanding ⟨1⟩ = 900 := by
  decide +kernel

end Gearing.Pool
