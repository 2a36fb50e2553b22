import Gearing.Proofs.Pool.Straddled

/-!
The numbers of checkpoints and of tickets. Both are given out in order, from one on, and none of them twice. A
checkpoint is open from the operation that opened it to the one that reverts or commits it, and its number opens
nothing ever after; a ticket that was repaid is never out again.
-/
namespace Gearing.Pool
open Gearing.Action

def Deed.opened? (d : Deed) : Option Nat :=
  match d.op with
  | .checkpoint _ => some (d.found.lastCheckpoint + 1)
  | _ => none

/-- The checkpoint that was closed, with or without what was done under it. -/
def Deed.closed? (d : Deed) : Option Nat :=
  match d.op with
  | .revert id | .commit id => some id
  | _ => none

def Deed.issued? (d : Deed) : Option Nat :=
  match d.op with
  | .acquire .. => some (d.found.lastTicket + 1)
  | _ => none

def openings (ds : List Deed) : List Nat := ds.filterMap Deed.opened?

def closings (ds : List Deed) : List Nat := ds.filterMap Deed.closed?

def tickets (ds : List Deed) : List Nat := ds.filterMap Deed.issued?

section Step
variable {p q : Pool} {op : Op} {a : Answer}

theorem Effect.range_lastCheckpoint (h : p.Effect op a q) : List.range' 1 q.lastCheckpoint =
    List.range' 1 p.lastCheckpoint ++ (Deed.opened? ⟨p, op⟩).toList := by
  have hsame : q.lastCheckpoint = p.lastCheckpoint → List.range' 1 q.lastCheckpoint =
      List.range' 1 p.lastCheckpoint ++ [] := fun hlast => by rw [hlast, List.append_nil]
  cases h with
  | checkpoint closed =>
    refine List.range'_1_concat.trans ?_
    rw [Nat.add_comm]
    rfl
  | list r => exact hsame (by rw [list_eq])
  | deposit => exact hsame (record_lastCheckpoint ..)
  | borrow => exact hsame (record_lastCheckpoint ..)
  | borrowFor => exact hsame (record_lastCheckpoint ..)
  | revert => exact hsame (undoAll_lastCheckpoint ..)
  | acquire => exact hsame (record_lastCheckpoint ..)
  | repay => exact hsame (record_lastCheckpoint ..)
  | _ => exact hsame rfl

theorem Effect.range_lastTicket (h : p.Effect op a q) : List.range' 1 q.lastTicket =
    List.range' 1 p.lastTicket ++ (Deed.issued? ⟨p, op⟩).toList := by
  rw [h.lastTicket_eq]
  cases op with
  | acquire =>
    refine List.range'_1_concat.trans ?_
    rw [Nat.add_comm]
    rfl
  | _ => exact (List.append_nil _).symm

theorem Effect.isSome_journal_iff (h : p.Effect op a q) (id : Nat) : (q.journals.get? id).isSome ↔
    ((p.journals.get? id).isSome ∨ Deed.opened? ⟨p, op⟩ = some id) ∧ Deed.closed? ⟨p, op⟩ ≠ some id := by
  have hsame : (q.journals.get? id).isSome = (p.journals.get? id).isSome →
      ((q.journals.get? id).isSome ↔
        ((p.journals.get? id).isSome ∨ (none : Option Nat) = some id) ∧ (none : Option Nat) ≠ some id) :=
    fun hsome => by simp [hsome]
  have hclosed : ∀ i j, q.journals = p.journals.erase i → p.journals.get? i = some j →
      ((q.journals.get? id).isSome ↔
        ((p.journals.get? id).isSome ∨ (none : Option Nat) = some id) ∧ some i ≠ some id) :=
    fun i j hjournals hj => by
      rw [hjournals, Table.get?_erase]
      by_cases hid : i = id <;> simp [hid]
  cases h with
  | @checkpoint account closed =>
    show ((p.journals.set (p.lastCheckpoint + 1) { account }).get? id).isSome ↔ _
    rw [Table.get?_set]
    by_cases hid : p.lastCheckpoint + 1 = id <;> simp [Deed.opened?, Deed.closed?, hid]
  | revert journal => exact hclosed _ _ (undoAll_journals ..) journal
  | commit journal => exact hclosed _ _ rfl journal
  | list r => exact hsame (by rw [list_eq])
  | deposit => exact hsame (isSome_record ..)
  | borrow => exact hsame (isSome_record ..)
  | borrowFor => exact hsame (isSome_record ..)
  | acquire => exact hsame (isSome_record ..)
  | repay => exact hsame (isSome_record ..)
  | _ => exact hsame rfl

theorem Effect.isSome_closed (h : p.Effect op a q) {id : Nat} (hid : Deed.closed? ⟨p, op⟩ = some id) :
    (p.journals.get? id).isSome := by
  cases h with
  | revert journal =>
    cases hid
    exact Option.isSome_of_mem journal
  | commit journal =>
    cases hid
    exact Option.isSome_of_mem journal
  | _ => cases hid

theorem Effect.isSome_repaid (h : p.Effect op a q) {t : Nat} (ht : Deed.repaid? ⟨p, op⟩ = some t) :
    (p.loans.get? t).isSome := by
  cases h with
  | repay out =>
    cases ht
    exact Option.isSome_of_mem out
  | _ => cases ht

theorem Effect.loans_gone (h : p.Effect op a q) (hp : p.Sound) {t : Nat} (ht : t ≤ p.lastTicket)
    (hgone : p.loans.get? t = none ∨ Deed.repaid? ⟨p, op⟩ = some t) : q.loans.get? t = none := by
  rcases hgone with hnone | hrepaid
  · cases hloan : q.loans.get? t with
    | none => rfl
    | some loan =>
      have hbefore : p.loans.get? t = some loan ∨ p.lastTicket < t := by
        cases h.turn hp with
        | noted entry noted => exact (noted.loans t loan hloan).imp_right And.left
        | opened closed => exact .inl hloan
        | reverted journal =>
          rw [get?_loans_undoAll] at hloan
          split at hloan
          · cases hloan
          · exact .inl hloan
        | committed journal => exact .inl hloan
        | aside entry revert aside => exact .inl (aside.loans ▸ hloan)
      rcases hbefore with hbefore | hlt
      · rw [hnone] at hbefore
        cases hbefore
      · omega
  · cases h with
    | repay out enough listed =>
      cases hrepaid
      rw [(Effect.repay out enough listed).loans_repay]
      exact Table.get?_erase_self ..
    | _ => cases hrepaid

end Step

/-- The numbers given out and taken back so far, and which of them are in the pool. -/
structure Enumerated (ds : List Deed) (p : Pool) : Prop where
  checkpoints : openings ds = List.range' 1 p.lastCheckpoint
  journals : ∀ id, (p.journals.get? id).isSome ↔ id ∈ openings ds ∧ id ∉ closings ds
  closed : ∀ id ∈ closings ds, id ∈ openings ds
  issued : tickets ds = List.range' 1 p.lastTicket
  gone : ∀ t ∈ repaid ds, t ≤ p.lastTicket ∧ p.loans.get? t = none
  repaidOnce : (repaid ds).Nodup

theorem enumerated_empty (feeBps : Nat) (wrappedNative : Address) :
    Enumerated [] { feeBps, wrappedNative } where
  checkpoints := rfl
  journals _ := ⟨fun h => (by cases h), fun h => (by cases h.1)⟩
  closed _ h := by cases h
  issued := rfl
  gone _ h := by cases h
  repaidOnce := List.nodup_nil

namespace Enumerated
variable {ds : List Deed} {p q : Pool} {op : Op} {a : Answer}

theorem not_closed_of_opened (h : Enumerated ds p) {id : Nat} (hid : Deed.opened? ⟨p, op⟩ = some id) :
    id ∉ closings ds := by
  intro hclosed
  have hmem := h.closed id hclosed
  rw [h.checkpoints, List.mem_range'_1] at hmem
  cases op with
  | checkpoint account =>
    obtain rfl : p.lastCheckpoint + 1 = id := Option.some.inj hid
    omega
  | _ => cases hid

theorem step (h : Enumerated ds p) (hp : p.Sound) (heffect : p.Effect op a q) :
    Enumerated (ds ++ [⟨p, op⟩]) q where
  checkpoints := by rw [heffect.range_lastCheckpoint, ← h.checkpoints]; exact filterMap_snoc ..
  issued := by rw [heffect.range_lastTicket, ← h.issued]; exact filterMap_snoc ..
  journals id := by
    have hopenings : id ∈ openings (ds ++ [⟨p, op⟩]) ↔ id ∈ openings ds ∨ Deed.opened? ⟨p, op⟩ = some id :=
      mem_filterMap_snoc
    have hclosings : id ∈ closings (ds ++ [⟨p, op⟩]) ↔ id ∈ closings ds ∨ Deed.closed? ⟨p, op⟩ = some id :=
      mem_filterMap_snoc
    rw [heffect.isSome_journal_iff, h.journals, hopenings, hclosings]
    constructor
    · rintro ⟨⟨hopen, hnot⟩ | hnew, hnow⟩
      · exact ⟨.inl hopen, fun hclosed => hclosed.elim hnot hnow⟩
      · exact ⟨.inr hnew, fun hclosed => hclosed.elim (h.not_closed_of_opened hnew) hnow⟩
    · rintro ⟨hopen, hnot⟩
      exact ⟨hopen.imp_left fun hopen => ⟨hopen, fun hclosed => hnot (.inl hclosed)⟩,
        fun hclosed => hnot (.inr hclosed)⟩
  closed id hid := by
    refine mem_filterMap_snoc.mpr (.inl ?_)
    rcases mem_filterMap_snoc.mp hid with hid | hid
    · exact h.closed id hid
    · exact ((h.journals id).mp (heffect.isSome_closed hid)).1
  gone t ht := by
    have hlast := heffect.lastTicket_eq
    have hold : t ≤ p.lastTicket ∧ (p.loans.get? t = none ∨ Deed.repaid? ⟨p, op⟩ = some t) := by
      rcases mem_filterMap_snoc.mp ht with ht | ht
      · exact ⟨(h.gone t ht).1, .inl (h.gone t ht).2⟩
      · obtain ⟨loan, hloan⟩ := Option.isSome_iff_exists.mp (heffect.isSome_repaid ht)
        exact ⟨(hp.loans t loan hloan).2.1, .inr ht⟩
    exact ⟨by omega, heffect.loans_gone hp hold.1 hold.2⟩
  repaidOnce := by
    rw [repaid, filterMap_snoc, List.nodup_append]
    refine ⟨h.repaidOnce, Option.toList_nodup _, fun t ht u hu htu => ?_⟩
    -- A ticket that was repaid before is not out, so it is not the one that is repaid now.
    subst htu
    have hout := heffect.isSome_repaid (Option.mem_toList.mp hu)
    rw [(h.gone t ht).2] at hout
    cases hout

theorem history (h : Enumerated ds p) (hp : p.Sound) (ops : List Op) :
    Enumerated (ds ++ p.deeds ops) (p.history ops) := by
  refine history_induction hp (motive := fun ds' q => Enumerated (ds ++ ds') q) ?_ ?_ ops
  · rwa [List.append_nil]
  · intro ds' q op a r hq hds' heffect
    rw [← List.append_assoc]
    exact hds'.step hq heffect

theorem journals_history (h : Enumerated ds p) (hp : p.Sound) {id : Nat} (hid : id ∈ closings ds)
    (ops : List Op) : (p.history ops).journals.get? id = none := by
  have hclosed : id ∈ closings (ds ++ p.deeds ops) := by
    rw [closings, List.filterMap_append]
    exact List.mem_append_left _ hid
  rw [← Option.not_isSome_iff_eq_none, (h.history hp ops).journals]
  exact fun hopen => hopen.2 hclosed

theorem loans_history (h : Enumerated ds p) (hp : p.Sound) {t : Nat} (ht : t ∈ repaid ds)
    (ops : List Op) : (p.history ops).loans.get? t = none := by
  have hrepaid : t ∈ repaid (ds ++ p.deeds ops) := by
    rw [repaid, List.filterMap_append]
    exact List.mem_append_left _ ht
  exact ((h.history hp ops).gone t hrepaid).2

end Enumerated

section Refusals
variable {p : Pool}

theorem apply_revert_unknown {id : Nat} (h : p.journals.get? id = none) :
    apply (.revert id) p = .error (.refused (.unknownCheckpoint id)) p := by
  simp only [apply, revert, run_bind, run_get, h]
  rfl

theorem apply_commit_unknown {id : Nat} (h : p.journals.get? id = none) :
    apply (.commit id) p = .error (.refused (.unknownCheckpoint id)) p := by
  simp only [apply, commit, run_bind, run_get, h]
  rfl

theorem apply_repay_unknown {t : Nat} (h : p.loans.get? t = none) (paid : Word) :
    apply (.repay t paid) p = .error (.refused (.unknownTicket t)) p := by
  simp only [apply, repay, run_bind, run_get, h]
  rfl

theorem apply_checkpoint_open {account : Address} {id : Nat} (h : p.opened.get? account = some id) :
    apply (.checkpoint account) p = .error (.refused (.checkpointOpen account)) p := by
  have hcontains : p.opened.contains account := by
    rw [Table.contains, h]
    rfl
  simp only [apply, checkpoint, run_bind, run_get, if_pos hcontains]
  rfl

end Refusals

/-- The open checkpoints, the journals and the loans of a pool are in order. -/
structure Registered (ds : List Deed) (p : Pool) : Prop where
  opened : ∀ account id, p.opened.get? account = some id ↔
    ∃ j, p.journals.get? id = some j ∧ j.account = account
  /-- What a journal holds was done for its account while its checkpoint was open. -/
  own : ∀ id j, p.journals.get? id = some j → ∀ e ∈ j.entries,
    e.Concerns j.account ∧ ⟨j.account, e, some id⟩ ∈ log ds
  checkpoints : ∀ id j, p.journals.get? id = some j → 1 ≤ id ∧ id ≤ p.lastCheckpoint
  loans : ∀ t loan, p.loans.get? t = some loan → 1 ≤ t ∧ t ≤ p.lastTicket
  /-- The tickets that a journal names are no other account's. -/
  tickets : ∀ id j, p.journals.get? id = some j → ∀ e ∈ j.entries, ∀ t ∈ e.ticket?,
    (1 ≤ t ∧ t ≤ p.lastTicket) ∧ ∀ loan, p.loans.get? t = some loan → loan.account = j.account

theorem ticket?_of_note {d : Deed} {n : Note} (h : d.note? = some n) : n.entry.ticket? = d.issued? := by
  obtain ⟨⟨account, e⟩, hentry, rfl⟩ := Option.map_eq_some_iff.mp h
  obtain ⟨p, op⟩ := d
  cases op with
  | deposit | borrow | repay =>
    obtain ⟨x, -, hx⟩ := Option.map_eq_some_iff.mp hentry
    cases hx
    rfl
  | acquire =>
    cases hentry
    rfl
  | _ => cases hentry

theorem mem_tickets_of_log {ds : List Deed} {n : Note} (hn : n ∈ log ds) {t : Nat}
    (ht : n.entry.ticket? = some t) : t ∈ tickets ds := by
  obtain ⟨d, hd, hnote⟩ := List.mem_filterMap.mp hn
  exact List.mem_filterMap.mpr ⟨d, hd, (ticket?_of_note hnote).symm.trans ht⟩

theorem Enumerated.registered {ds : List Deed} {p : Pool} (h : Enumerated ds p) (hlog : Logged ds p)
    (hp : p.Sound) : Registered ds p where
  opened account id := by
    rw [hp.opened]
    constructor
    · rintro ⟨es, hes⟩
      exact ⟨_, hes, rfl⟩
    · rintro ⟨j, hj, rfl⟩
      exact ⟨j.entries, hj⟩
  own id j hj e he := ⟨hp.own id j hj e he, hlog.note_of_entry hj he⟩
  checkpoints := hp.checkpoints
  loans t loan hloan := ⟨(hp.loans t loan hloan).1, (hp.loans t loan hloan).2.1⟩
  tickets id j hj e he t ht := by
    have hnote := hlog.note_of_entry hj he
    have hissued := mem_tickets_of_log hnote ht
    rw [h.issued, List.mem_range'_1] at hissued
    exact ⟨by omega, (hlog.tickets _ hnote t ht).2⟩

/-- After any history the checkpoints, journals and tickets are in order, and their numbers are those that
were given out, one after the other from one on; so they fit 64 bits as long as fewer than `2 ^ 64` are.
There is a journal for what was opened and not closed. Whatever is done later, a checkpoint that was closed
once is unknown, a ticket that was repaid once is unknown, and so no ticket is repaid twice. An account has
one open checkpoint at most, and is refused another. -/
theorem history_registered (feeBps : Nat) (wrappedNative : Address) (ops : List Op) :
    let p := history { feeBps, wrappedNative } ops
    let ds := deeds { feeBps, wrappedNative } ops
    Registered ds p ∧
      (openings ds = List.range' 1 p.lastCheckpoint ∧ tickets ds = List.range' 1 p.lastTicket) ∧
      (∀ id, (p.journals.get? id).isSome ↔ id ∈ openings ds ∧ id ∉ closings ds) ∧
      (∀ id ∈ closings ds, ∀ later, let q := p.history later
        apply (.revert id) q = .error (.refused (.unknownCheckpoint id)) q ∧
          apply (.commit id) q = .error (.refused (.unknownCheckpoint id)) q) ∧
      (∀ t ∈ repaid ds, ∀ later paid, let q := p.history later
        apply (.repay t paid) q = .error (.refused (.unknownTicket t)) q) ∧
      (repaid ds).Nodup ∧
      (∀ id id' j j', p.journals.get? id = some j → p.journals.get? id' = some j' →
        j.account = j'.account → id = id') ∧
      ∀ account id, p.opened.get? account = some id →
        apply (.checkpoint account) p = .error (.refused (.checkpointOpen account)) p := by
  intro p ds
  have hempty := sound_empty feeBps wrappedNative
  have hp : p.Sound := hempty.history ops
  have hlog : Logged ds p := (logged_empty feeBps wrappedNative).history hempty ops
  have h : Enumerated ds p := (enumerated_empty feeBps wrappedNative).history hempty ops
  refine ⟨h.registered hlog hp, ⟨h.checkpoints, h.issued⟩, h.journals, fun id hid later => ?_,
    fun t ht later paid => ?_, h.repaidOnce, fun id id' j j' hj hj' => hp.id_eq hj hj',
    fun account id hid => apply_checkpoint_open hid⟩
  · have hnone := h.journals_history hp hid later
    exact ⟨apply_revert_unknown hnone, apply_commit_unknown hnone⟩
  · exact apply_repay_unknown (h.loans_history hp ht later) paid

/-- The first repayment is too small and the third one too late, and the checkpoint is closed only once. -/
example :
    let ds := deeds { feeBps := 9 } [.list { asset := ⟨1⟩, symbol := "A", decimals := 18 },
      .supply ⟨1⟩ 100000, .checkpoint ⟨7⟩, .acquire ⟨1⟩ 10000 ⟨7⟩, .repay 1 10000, .repay 1 10009,
      .repay 1 10009, .revert 1, .commit 1, .checkpoint ⟨7⟩]
    openings ds = [1, 2] ∧ closings ds = [1] ∧ tickets ds = [1] ∧ repaid ds = [1] := by
  decide +kernel

end Gearing.Pool
