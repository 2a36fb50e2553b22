import Gearing.Proofs.Pool.Noted

/-!
The log of a history: which operations were carried out, what each of them noted down, and under which open
checkpoint of its account. A note is live as long as that checkpoint is not reverted; a note under no
checkpoint, or under one that was committed, stays live for good.

The journal of an open checkpoint is the part of the log under it, latest note first.
-/
namespace Gearing.Pool

/-- An operation that was carried out, with the pool that it found. -/
structure Deed where
  found : Pool
  op : Op

/-- The operations of the list that are carried out. -/
def deeds (p : Pool) : List Op → List Deed
  | [] => []
  | op :: ops =>
    match apply op p with
    | .ok _ q => ⟨p, op⟩ :: q.deeds ops
    | .error _ q => q.deeds ops

/-- The arithmetic of the operation stayed within 256 bits. -/
def Deed.Exact (d : Deed) : Prop := d.op.Exact d.found

instance (d : Deed) : Decidable d.Exact := inferInstanceAs (Decidable (d.op.Exact d.found))

structure Note where
  account : Address
  entry : Entry
  /-- The checkpoint that was open for the account. -/
  under : Option Nat
  deriving DecidableEq, Repr

def Deed.note? (d : Deed) : Option Note :=
  (d.op.entry? d.found).map fun (account, entry) => ⟨account, entry, d.found.opened.get? account⟩

def Deed.reverted? (d : Deed) : Option Nat :=
  match d.op with
  | .revert id => some id
  | _ => none

/-- All that was noted down, oldest first. -/
def log (ds : List Deed) : List Note := ds.filterMap Deed.note?

def reverted (ds : List Deed) : List Nat := ds.filterMap Deed.reverted?

/-- The notes that no revert has taken back. -/
def live (ds : List Deed) : List Note :=
  (log ds).filter fun n => ∀ id ∈ n.under, id ∉ reverted ds

def under (id : Nat) (ns : List Note) : List Note := ns.filter fun n => n.under = some id

def total (w : Entry → Nat) (ns : List Note) : Nat := (ns.map fun n => w n.entry).sum

section Lists
variable {p : Pool} {ds : List Deed} {op : Op}

theorem op_mem_of_deeds {d : Deed} {ops : List Op} (h : d ∈ p.deeds ops) : d.op ∈ ops := by
  induction ops generalizing p with
  | nil => cases h
  | cons op ops ih =>
    rw [deeds] at h
    split at h
    · rcases List.mem_cons.mp h with rfl | h
      · exact List.mem_cons_self
      · exact List.mem_cons_of_mem _ (ih h)
    · exact List.mem_cons_of_mem _ (ih h)

theorem length_deeds_le (p : Pool) (ops : List Op) : (p.deeds ops).length ≤ ops.length := by
  induction ops generalizing p with
  | nil => exact Nat.le_refl 0
  | cons op ops ih =>
    rw [deeds]
    split
    · exact Nat.succ_le_succ (ih _)
    · exact Nat.le_succ_of_le (ih _)

theorem carried_of_deeds {p : Pool} (hp : p.Sound) {ops : List Op}
    (h : (p.deeds ops).length = ops.length) : p.Carried ops (p.history ops) := by
  induction ops generalizing p with
  | nil => exact .nil p
  | cons op ops ih =>
    rw [deeds] at h
    split at h
    · rename_i a q happly
      have heffect := (apply_does op p).of_ok happly
      have htail := ih (heffect.sound hp) (Nat.succ.inj h)
      rw [← after_of_effect heffect] at htail
      exact .cons (after_of_effect heffect ▸ heffect) htail
    · rename_i e q happly
      have hle := length_deeds_le q ops
      rw [h] at hle
      exact absurd hle (Nat.not_succ_le_self _)

theorem filterMap_snoc {α : Type} (f : Deed → Option α) (ds : List Deed) (d : Deed) :
    (ds ++ [d]).filterMap f = ds.filterMap f ++ (f d).toList := by
  rw [List.filterMap_append, List.filterMap_cons, List.filterMap_nil]
  cases f d <;> rfl

theorem mem_filterMap_snoc {α : Type} {f : Deed → Option α} {ds : List Deed} {d : Deed} {x : α} :
    x ∈ (ds ++ [d]).filterMap f ↔ x ∈ ds.filterMap f ∨ f d = some x := by
  rw [filterMap_snoc, List.mem_append, Option.mem_toList]

theorem log_append (ds ds' : List Deed) : log (ds ++ ds') = log ds ++ log ds' :=
  List.filterMap_append

theorem reverted_append (ds ds' : List Deed) : reverted (ds ++ ds') = reverted ds ++ reverted ds' :=
  List.filterMap_append

theorem log_noted {account : Address} {e : Entry} (h : op.entry? p = some (account, e)) :
    log (ds ++ [⟨p, op⟩]) = log ds ++ [⟨account, e, p.opened.get? account⟩] := by
  simp [log, Deed.note?, h]

theorem mem_log_noted {account : Address} {e : Entry} (h : op.entry? p = some (account, e)) {n : Note} :
    n ∈ log (ds ++ [⟨p, op⟩]) ↔ n ∈ log ds ∨ n = ⟨account, e, p.opened.get? account⟩ := by
  simp [log_noted h]

theorem log_unnoted (h : op.entry? p = none) : log (ds ++ [⟨p, op⟩]) = log ds := by
  simp [log, Deed.note?, h]

theorem reverted_revert (id : Nat) : reverted (ds ++ [⟨p, .revert id⟩]) = reverted ds ++ [id] := by
  simp [reverted, Deed.reverted?]

theorem reverted_other (h : ∀ id, op ≠ .revert id) : reverted (ds ++ [⟨p, op⟩]) = reverted ds := by
  have hnone : Deed.reverted? ⟨p, op⟩ = none := by
    unfold Deed.reverted?
    split
    · rename_i id hop
      exact absurd hop (h id)
    · rfl
  simp [reverted, hnone]

theorem not_revert_of_entry {n : Address × Entry} (h : op.entry? p = some n) (id : Nat) :
    op ≠ .revert id := by
  rintro rfl
  cases h

theorem under_append (id : Nat) (ns ns' : List Note) :
    under id (ns ++ ns') = under id ns ++ under id ns' :=
  List.filter_append ..

@[simp] theorem total_append (w : Entry → Nat) (ns ns' : List Note) :
    total w (ns ++ ns') = total w ns + total w ns' := by
  simp [total]

@[simp] theorem total_singleton (w : Entry → Nat) (n : Note) : total w [n] = w n.entry := by
  simp [total]

theorem total_filter (w : Entry → Nat) (c : Note → Prop) [DecidablePred c] (ns : List Note) :
    total w ns = total w (ns.filter fun n => ¬ c n) + total w (ns.filter fun n => c n) := by
  induction ns with
  | nil => rfl
  | cons n ns ih =>
    by_cases hn : c n
    · simp [total, hn] at ih ⊢
      omega
    · simp [total, hn] at ih ⊢
      omega

end Lists

/-- What holds at first, and after each operation that is carried out, holds after a history. -/
theorem history_induction {p : Pool} (hp : p.Sound) {motive : List Deed → Pool → Prop}
    (start : motive [] p)
    (step : ∀ ds q op a r, q.Sound → motive ds q → q.Effect op a r → motive (ds ++ [⟨q, op⟩]) r)
    (ops : List Op) : motive (p.deeds ops) (p.history ops) := by
  suffices h : ∀ ds q, q.Sound → motive ds q → motive (ds ++ q.deeds ops) (q.history ops) from
    h [] p hp start
  induction ops with
  | nil =>
    intro ds q _ hds
    rwa [deeds, List.append_nil]
  | cons op ops ih =>
    intro ds q hq hds
    have hdoes := apply_does op q
    simp only [deeds, history, List.foldl_cons, after]
    cases happly : apply op q with
    | ok a r =>
      have heffect := hdoes.of_ok happly
      have htail := ih (ds ++ [⟨q, op⟩]) r (heffect.sound hq) (step ds q op a r hq hds heffect)
      rwa [List.append_assoc] at htail
    | error e r =>
      have hsame : r = q := hdoes.of_error happly hq.loansListed
      subst hsame
      exact ih ds r hq hds

/-- The pool and the log of what led to it tell the same of the open journals. -/
structure Logged (ds : List Deed) (p : Pool) : Prop where
  journal : ∀ id j, p.journals.get? id = some j →
    j.entries = ((under id (log ds)).map (·.entry)).reverse
  account : ∀ n ∈ log ds, ∀ id ∈ n.under, ∀ j, p.journals.get? id = some j → n.account = j.account
  issued : ∀ n ∈ log ds, ∀ id ∈ n.under, id ≤ p.lastCheckpoint
  closed : ∀ id ∈ reverted ds, id ≤ p.lastCheckpoint ∧ p.journals.get? id = none
  tickets : ∀ n ∈ log ds, ∀ t ∈ n.entry.ticket?, t ≤ p.lastTicket ∧
    ∀ loan, p.loans.get? t = some loan → loan.account = n.account

theorem logged_empty (feeBps : Nat) (wrappedNative : Address) :
    Logged [] { feeBps, wrappedNative } where
  journal _ _ h := by cases h
  account _ h := by cases h
  issued _ h := by cases h
  closed _ h := by cases h
  tickets _ h := by cases h

namespace Logged
variable {ds : List Deed} {p q : Pool} {op : Op}

theorem noted (h : Logged ds p) (hp : p.Sound) {account : Address} {e : Entry}
    (hentry : op.entry? p = some (account, e)) (hnoted : Noted account e p q) :
    Logged (ds ++ [⟨p, op⟩]) q := by
  have hopened : ∀ id, p.opened.get? account = some id →
      ∃ es, p.journals.get? id = some ⟨account, es⟩ := fun id => (hp.opened account id).mp
  refine ⟨fun id j hj => ?_, fun n hn id hid j hj => ?_, fun n hn id hid => ?_, fun id hid => ?_,
    fun n hn t ht => ?_⟩
  · obtain ⟨j', hj', rfl⟩ := hnoted.journal_before hj
    rw [log_noted hentry, under_append]
    split
    · rename_i hid
      simp [under, hid, h.journal id j' hj']
    · rename_i hid
      simp [under, hid, h.journal id j' hj']
  · obtain ⟨j', hj', rfl⟩ := hnoted.journal_before hj
    have haccount : n.account = j'.account := by
      rcases (mem_log_noted hentry).mp hn with hn | rfl
      · exact h.account n hn id hid j' hj'
      · obtain ⟨es, hes⟩ := hopened id hid
        rw [hj'] at hes
        cases hes
        rfl
    rw [haccount]
    split
    · rfl
    · rfl
  · rw [hnoted.lastCheckpoint]
    rcases (mem_log_noted hentry).mp hn with hn | rfl
    · exact h.issued n hn id hid
    · obtain ⟨es, hes⟩ := hopened id hid
      exact (hp.checkpoints id _ hes).2
  · rw [reverted_other (not_revert_of_entry hentry)] at hid
    obtain ⟨hle, hnone⟩ := h.closed id hid
    refine ⟨hnoted.lastCheckpoint ▸ hle, ?_⟩
    rw [hnoted.journals, get?_noted, hnone]
    split
    · rfl
    · rfl
  · have hlast := hnoted.lastTicket
    rcases (mem_log_noted hentry).mp hn with hn | rfl
    · obtain ⟨hle, hloans⟩ := h.tickets n hn t ht
      refine ⟨by omega, fun loan hloan => ?_⟩
      rcases hnoted.loans t loan hloan with hloan | ⟨hlt, -⟩
      · exact hloans loan hloan
      · omega
    · obtain ⟨hlt, hle⟩ := hnoted.ticket t ht
      refine ⟨hle, fun loan hloan => ?_⟩
      rcases hnoted.loans t loan hloan with hloan | ⟨-, haccount⟩
      · rw [hp.loans_fresh hlt] at hloan
        cases hloan
      · exact haccount

theorem opened (h : Logged ds p) {account : Address} :
    Logged (ds ++ [⟨p, .checkpoint account⟩]) (p.openJournal account) := by
  have hlog : log (ds ++ [⟨p, .checkpoint account⟩]) = log ds := log_unnoted rfl
  have hget : ∀ id, (p.openJournal account).journals.get? id =
      if p.lastCheckpoint + 1 = id then some { account } else p.journals.get? id :=
    fun id => Table.get?_set ..
  have hlast : (p.openJournal account).lastCheckpoint = p.lastCheckpoint + 1 := rfl
  -- Nothing in the log is under the number that is given out only now.
  have hnew : ∀ n ∈ log ds, n.under ≠ some (p.lastCheckpoint + 1) := by
    intro n hn hunder
    have := h.issued n hn _ hunder
    omega
  refine ⟨fun id j hj => ?_, fun n hn id hid j hj => ?_, fun n hn id hid => ?_, fun id hid => ?_,
    fun n hn => h.tickets n (hlog ▸ hn)⟩
  · rw [hlog]
    rw [hget] at hj
    split at hj
    · rename_i hid
      cases hj
      have hnone : under id (log ds) = [] :=
        List.filter_eq_nil_iff.mpr fun n hn => by simpa [hid] using hnew n hn
      rw [hnone]
      rfl
    · exact h.journal id j hj
  · rw [hlog] at hn
    have hne : p.lastCheckpoint + 1 ≠ id := fun heq => hnew n hn (heq ▸ hid)
    rw [hget, if_neg hne] at hj
    exact h.account n hn id hid j hj
  · have := h.issued n (hlog ▸ hn) id hid
    omega
  · rw [reverted_other fun _ => Op.noConfusion] at hid
    obtain ⟨hle, hnone⟩ := h.closed id hid
    exact ⟨by omega, by rw [hget, if_neg (by omega), hnone]⟩

theorem erased (h : Logged ds p) (hp : p.Sound) {id : Nat} {j : Journal}
    (hj : p.journals.get? id = some j) (hentry : op.entry? p = none)
    (hreverted : ∀ i ∈ reverted (ds ++ [⟨p, op⟩]), i ∈ reverted ds ∨ i = id)
    (hjournals : q.journals = p.journals.erase id)
    (hcheckpoint : q.lastCheckpoint = p.lastCheckpoint) (hticket : q.lastTicket = p.lastTicket)
    (hloans : ∀ t loan, q.loans.get? t = some loan → p.loans.get? t = some loan) :
    Logged (ds ++ [⟨p, op⟩]) q := by
  have hlog : log (ds ++ [⟨p, op⟩]) = log ds := log_unnoted hentry
  have hget : ∀ i j', q.journals.get? i = some j' → p.journals.get? i = some j' := by
    intro i j' hj'
    rw [hjournals, Table.get?_erase] at hj'
    split at hj'
    · cases hj'
    · exact hj'
  refine ⟨fun i j' hj' => ?_, fun n hn i hi j' hj' => ?_, fun n hn i hi => ?_, fun i hi => ?_,
    fun n hn t ht => ?_⟩
  · rw [hlog]
    exact h.journal i j' (hget i j' hj')
  · exact h.account n (hlog ▸ hn) i hi j' (hget i j' hj')
  · exact hcheckpoint ▸ h.issued n (hlog ▸ hn) i hi
  · rw [hcheckpoint, hjournals, Table.get?_erase]
    rcases hreverted i hi with hi | rfl
    · obtain ⟨hle, hnone⟩ := h.closed i hi
      exact ⟨hle, by rw [hnone, ite_self]⟩
    · exact ⟨(hp.checkpoints i j hj).2, if_pos rfl⟩
  · obtain ⟨hle, haccount⟩ := h.tickets n (hlog ▸ hn) t ht
    exact ⟨hticket ▸ hle, fun loan hloan => haccount loan (hloans t loan hloan)⟩

theorem aside (h : Logged ds p) (hentry : op.entry? p = none) (hrevert : ∀ id, op ≠ .revert id)
    (haside : Aside op p q) : Logged (ds ++ [⟨p, op⟩]) q := by
  have hlog : log (ds ++ [⟨p, op⟩]) = log ds := log_unnoted hentry
  have hreverted : reverted (ds ++ [⟨p, op⟩]) = reverted ds := reverted_other hrevert
  refine ⟨?_, ?_, ?_, ?_, ?_⟩
  · rw [hlog, haside.journals]
    exact h.journal
  · rw [hlog, haside.journals]
    exact h.account
  · rw [hlog, haside.lastCheckpoint]
    exact h.issued
  · rw [hreverted, haside.journals, haside.lastCheckpoint]
    exact h.closed
  · rw [hlog, haside.lastTicket, haside.loans]
    exact h.tickets

theorem step (h : Logged ds p) (hp : p.Sound) (hturn : p.Turn op q) :
    Logged (ds ++ [⟨p, op⟩]) q := by
  cases hturn with
  | noted hentry hnoted => exact h.noted hp hentry hnoted
  | opened => exact h.opened
  | @reverted id j hj =>
    refine h.erased hp hj rfl (fun i hi => ?_) (undoAll_journals ..) (undoAll_lastCheckpoint ..)
      (undoAll_lastTicket ..) (fun t loan hloan => ?_)
    · rw [reverted_revert] at hi
      exact (List.mem_append.mp hi).imp_right List.mem_singleton.mp
    · rw [get?_loans_undoAll] at hloan
      split at hloan
      · cases hloan
      · exact hloan
  | @committed id j hj =>
    refine h.erased hp hj rfl (fun i hi => ?_) rfl rfl rfl fun _ _ hloan => hloan
    rw [reverted_other fun _ => Op.noConfusion] at hi
    exact .inl hi
  | aside hentry hrevert haside => exact h.aside hentry hrevert haside

theorem history (h : Logged ds p) (hp : p.Sound) (ops : List Op) :
    Logged (ds ++ p.deeds ops) (p.history ops) := by
  refine history_induction hp (motive := fun ds' q => Logged (ds ++ ds') q) ?_ ?_ ops
  · rwa [List.append_nil]
  · intro ds' q op a r hq hds' heffect
    rw [← List.append_assoc]
    exact hds'.step hq (heffect.turn hq)

end Logged

theorem Logged.note_of_entry {ds : List Deed} {p : Pool} (h : Logged ds p) {id : Nat} {j : Journal}
    (hj : p.journals.get? id = some j) {e : Entry} (he : e ∈ j.entries) :
    ⟨j.account, e, some id⟩ ∈ log ds := by
  rw [h.journal id j hj] at he
  obtain ⟨n, hn, rfl⟩ := List.mem_map.mp (List.mem_reverse.mp he)
  obtain ⟨hn, hunder⟩ := List.mem_filter.mp hn
  have hunder : n.under = some id := of_decide_eq_true hunder
  rw [← h.account n hn id hunder j hj, ← hunder]
  exact hn

section Live
variable {ds : List Deed} {p : Pool} {op : Op}

theorem Logged.not_reverted (h : Logged ds p) {id : Nat} {j : Journal}
    (hj : p.journals.get? id = some j) : id ∉ reverted ds := by
  intro hreverted
  rw [(h.closed id hreverted).2] at hj
  cases hj

theorem Logged.opened_not_reverted (h : Logged ds p) (hp : p.Sound) (account : Address) :
    ∀ id ∈ p.opened.get? account, id ∉ reverted ds := by
  intro id hid
  obtain ⟨es, hes⟩ := (hp.opened account id).mp hid
  exact h.not_reverted hes

theorem live_noted {account : Address} {e : Entry} (hentry : op.entry? p = some (account, e))
    (hopen : ∀ id ∈ p.opened.get? account, id ∉ reverted ds) :
    live (ds ++ [⟨p, op⟩]) = live ds ++ [⟨account, e, p.opened.get? account⟩] := by
  rw [live, live, log_noted hentry, reverted_other (not_revert_of_entry hentry),
    List.filter_append, List.filter_cons_of_pos (by simpa using hopen), List.filter_nil]

theorem live_unnoted (hentry : op.entry? p = none) (hrevert : ∀ id, op ≠ .revert id) :
    live (ds ++ [⟨p, op⟩]) = live ds := by
  rw [live, live, log_unnoted hentry, reverted_other hrevert]

theorem live_reverted (id : Nat) :
    live (ds ++ [⟨p, .revert id⟩]) = (live ds).filter fun n => ¬ n.under = some id := by
  have hlog : log (ds ++ [⟨p, .revert id⟩]) = log ds := log_unnoted rfl
  rw [live, live, hlog, reverted_revert, List.filter_filter]
  refine List.filter_congr fun n _ => ?_
  cases hunder : n.under <;> simp [and_comm]

theorem under_live {id : Nat} (hid : id ∉ reverted ds) : under id (live ds) = under id (log ds) := by
  rw [live, under, List.filter_filter]
  refine List.filter_congr fun n _ => ?_
  by_cases hunder : n.under = some id
  · simp [hunder, hid]
  · simp [hunder]

theorem total_live_reverted {id : Nat} (hid : id ∉ reverted ds) (w : Entry → Nat) :
    total w (live ds) = total w (live (ds ++ [⟨p, .revert id⟩])) + total w (under id (log ds)) := by
  rw [total_filter w (fun n => n.under = some id) (live ds), ← live_reverted, ← under_live hid]
  rfl

/-- The sum over an open journal is the sum over the log under it. -/
theorem Logged.sum_journal (h : Logged ds p) {id : Nat} {j : Journal}
    (hj : p.journals.get? id = some j) (w : Entry → Nat) :
    (j.entries.map w).sum = total w (under id (log ds)) := by
  rw [h.journal id j hj, List.map_reverse, List.sum_reverse, List.map_map]
  rfl

end Live

end Gearing.Pool
