import Gearing.Proofs.Pool.Log
import Gearing.Proofs.Pool.Unwound

/-!
An account that is rolled back while others go on, against the others on their own.

The two runs go in step. Alone, the others get their tickets under other numbers, so what they do is their
part of the operations with the tickets renumbered. On every reserve the runs are apart by what the open
journal has brought in and taken out. The rollback takes that back entry by entry, and where the tokens
of an inflow are not there any more it falls short: by so much the reserve ends up with more than the others
alone would have left.
-/
namespace Gearing.Pool

/-- Deposits, borrows and acquisitions of any account, and repayments of tickets numbered past `tickets`. -/
def Op.Lending (tickets : Nat) : Op → Prop
  | .deposit .. | .borrow .. | .acquire .. => True
  | .repay ticket _ => tickets < ticket
  | _ => False

instance (tickets : Nat) (op : Op) : Decidable (op.Lending tickets) :=
  match op with
  | .deposit .. | .borrow .. | .acquire .. => inferInstanceAs (Decidable True)
  | .repay .. => inferInstanceAs (Decidable (_ < _))
  | .list _ | .updateReserve .. | .supply .. | .approve .. | .checkpoint _ | .revert _ | .commit _
  | .wrap _ | .unwrap _ => inferInstanceAs (Decidable False)

/-- Ticket numbers of two runs, the second one without the operations of some account. -/
structure Numbering where
  last : Nat
  lastAlone : Nat
  /-- The number in the second run of a ticket that others got in the first. -/
  renamed : Table Nat Nat := .empty

namespace Numbering

def start (p : Pool) : Numbering := { last := p.lastTicket, lastAlone := p.lastTicket }

def next (n : Numbering) (account : Address) : Op → Numbering
  | .acquire _ _ a =>
    if a = account then { n with last := n.last + 1 }
    else ⟨n.last + 1, n.lastAlone + 1, n.renamed.set (n.last + 1) (n.lastAlone + 1)⟩
  | _ => n

end Numbering

/-- The operation in the run without the account, if it is another's. -/
def Op.alone (n : Numbering) (account : Address) : Op → Option Op
  | .deposit asset amount a => if a = account then none else some (.deposit asset amount a)
  | .borrow asset amount delegatee a =>
    if a = account then none else some (.borrow asset amount delegatee a)
  | .acquire asset amount a => if a = account then none else some (.acquire asset amount a)
  | .repay ticket paid => (n.renamed.get? ticket).map (.repay · paid)
  | op => some op

theorem Op.eq_of_alone {n : Numbering} {account : Address} {op op' : Op}
    (hrepay : ∀ ticket paid, op ≠ .repay ticket paid) (h : op.alone n account = some op') : op' = op := by
  cases op with
  | deposit | borrow | acquire =>
    rw [Op.alone] at h
    split at h
    · cases h
    · exact (Option.some.inj h).symm
  | repay => exact absurd rfl (hrepay _ _)
  | _ => exact (Option.some.inj h).symm

/-- What the others do alone. -/
def without (account : Address) : Numbering → List Op → List Op
  | _, [] => []
  | n, op :: ops => (op.alone n account).toList ++ without account (n.next account op) ops

/-- The tickets of a run from `s` to `p`, and of the run to `r` that leaves the account out. -/
structure Numbered (s : Pool) (account : Address) (n : Numbering) (p r : Pool) : Prop where
  last : p.lastTicket = n.last
  lastAlone : r.lastTicket = n.lastAlone
  bounded : ∀ t u, n.renamed.get? t = some u → t ≤ n.last ∧ u ≤ n.lastAlone
  injective : ∀ t t' u, n.renamed.get? t = some u → n.renamed.get? t' = some u → t = t'
  others : ∀ t u, n.renamed.get? t = some u → ∀ loan, p.loans.get? t = some loan →
    loan.account ≠ account ∧ r.loans.get? u = some loan
  own : ∀ t, s.lastTicket < t → n.renamed.get? t = none →
    ∀ loan, p.loans.get? t = some loan → loan.account = account

namespace Numbered
variable {s p q r r' : Pool} {account : Address} {n : Numbering} {op op' : Op} {a a' : Answer}

theorem start (hs : s.Sound) : Numbered s account (.start s) (s.openJournal account) s where
  last := rfl
  lastAlone := rfl
  bounded _ _ h := by cases h
  injective _ _ _ h := by cases h
  others _ _ h := by cases h
  own t ht _ loan hloan := by
    have hfresh : s.loans.get? t = some loan := hloan
    rw [hs.loans_fresh ht] at hfresh
    cases hfresh

theorem same (h : Numbered s account n p r) (hlast : q.lastTicket = p.lastTicket)
    (hloans : ∀ t loan, q.loans.get? t = some loan → p.loans.get? t = some loan)
    (hlast' : r'.lastTicket = r.lastTicket) (hloans' : r'.loans = r.loans) :
    Numbered s account n q r' where
  last := hlast.trans h.last
  lastAlone := hlast'.trans h.lastAlone
  bounded := h.bounded
  injective := h.injective
  others t u hu loan hloan := hloans' ▸ h.others t u hu loan (hloans t loan hloan)
  own t ht hnone loan hloan := h.own t ht hnone loan (hloans t loan hloan)

theorem issuedOwn (h : Numbered s account n p r) {loan : Loan} (hown : loan.account = account)
    (hlast : q.lastTicket = n.last + 1) (hloans : q.loans = p.loans.set (n.last + 1) loan) :
    Numbered s account { n with last := n.last + 1 } q r := by
  refine ⟨hlast, h.lastAlone, fun t u hu => ?_, h.injective, fun t u hu l hl => ?_,
    fun t ht hnone l hl => ?_⟩
  · obtain ⟨hle, hle'⟩ := h.bounded t u hu
    exact ⟨Nat.le_succ_of_le hle, hle'⟩
  · have hle := (h.bounded t u hu).1
    rw [hloans, Table.get?_set, if_neg (by omega)] at hl
    exact h.others t u hu l hl
  · rw [hloans, Table.get?_set] at hl
    split at hl
    · cases hl
      exact hown
    · exact h.own t ht hnone l hl

theorem issued (h : Numbered s account n p r) {loan : Loan} (hother : loan.account ≠ account)
    (hlast : q.lastTicket = n.last + 1) (hloans : q.loans = p.loans.set (n.last + 1) loan)
    (hlast' : r'.lastTicket = n.lastAlone + 1)
    (hloans' : r'.loans = r.loans.set (n.lastAlone + 1) loan) :
    Numbered s account ⟨n.last + 1, n.lastAlone + 1, n.renamed.set (n.last + 1) (n.lastAlone + 1)⟩
      q r' := by
  refine ⟨hlast, hlast', fun t u hu => ?_, fun t t' u hu hu' => ?_, fun t u hu l hl => ?_,
    fun t ht hnone l hl => ?_⟩
  · show t ≤ n.last + 1 ∧ u ≤ n.lastAlone + 1
    rw [Table.get?_set] at hu
    split at hu
    · cases hu
      omega
    · have := h.bounded t u hu
      omega
  · -- The number that is new alone is not the one of an older ticket.
    rw [Table.get?_set] at hu hu'
    split at hu
    · split at hu'
      · omega
      · cases hu
        have := (h.bounded t' _ hu').2
        omega
    · split at hu'
      · cases hu'
        have := (h.bounded t _ hu).2
        omega
      · exact h.injective t t' u hu hu'
  · rw [hloans, Table.get?_set] at hl
    rw [Table.get?_set] at hu
    rw [hloans', Table.get?_set]
    split at hu
    · cases hu
      rw [if_pos ‹_›] at hl
      cases hl
      exact ⟨hother, if_pos rfl⟩
    · have hle := (h.bounded t u hu).2
      rw [if_neg ‹_›] at hl
      rw [if_neg (by omega)]
      exact h.others t u hu l hl
  · rw [Table.get?_set] at hnone
    split at hnone
    · cases hnone
    · rw [hloans, Table.get?_set, if_neg ‹_›] at hl
      exact h.own t ht hnone l hl

theorem repaid (h : Numbered s account n p r) {ticket u : Nat} (hu : n.renamed.get? ticket = some u)
    (hlast : q.lastTicket = p.lastTicket) (hloans : q.loans = p.loans.erase ticket)
    (hlast' : r'.lastTicket = r.lastTicket) (hloans' : r'.loans = r.loans.erase u) :
    Numbered s account n q r' := by
  have hleft : ∀ t loan, q.loans.get? t = some loan → ticket ≠ t ∧ p.loans.get? t = some loan := by
    intro t loan hloan
    rw [hloans, Table.get?_erase] at hloan
    split at hloan
    · cases hloan
    · exact ⟨‹_›, hloan⟩
  refine ⟨hlast.trans h.last, hlast'.trans h.lastAlone, h.bounded, h.injective,
    fun t u' hu' loan hloan => ?_, fun t ht hnone loan hloan => ?_⟩
  · obtain ⟨hne, hloan⟩ := hleft t loan hloan
    have hne' : u ≠ u' := fun heq => hne (h.injective ticket t u' (heq ▸ hu) hu')
    rw [hloans', Table.get?_erase, if_neg hne']
    exact h.others t u' hu' loan hloan
  · exact h.own t ht hnone loan (hleft t loan hloan).2

theorem alone_eq_none_iff (h : Numbered s account n p r) (hop : op.Lending s.lastTicket)
    {b : Address} {e : Entry} (hentry : op.entry? p = some (b, e)) :
    op.alone n account = none ↔ b = account := by
  cases op with
  | deposit asset amount c =>
    obtain ⟨_, -, heq⟩ := Option.map_eq_some_iff.mp hentry
    cases heq
    simp [Op.alone]
  | borrow asset amount delegatee c =>
    obtain ⟨_, -, heq⟩ := Option.map_eq_some_iff.mp hentry
    cases heq
    simp [Op.alone]
  | acquire asset amount c =>
    cases hentry
    simp [Op.alone]
  | repay ticket paid =>
    obtain ⟨loan, hloan, heq⟩ := Option.map_eq_some_iff.mp hentry
    cases heq
    cases hu : n.renamed.get? ticket with
    | none => simpa [Op.alone, hu] using h.own ticket hop hu loan hloan
    | some u => simpa [Op.alone, hu] using (h.others ticket u hu loan hloan).1
  | _ => cases hop

theorem leftOut (h : Numbered s account n p r) (hop : op.Lending s.lastTicket)
    (halone : op.alone n account = none) (heffect : p.Effect op a q) :
    Numbered s account (n.next account op) q r := by
  have hlast := heffect.lastTicket_eq
  cases op with
  | deposit asset amount b =>
    exact h.same hlast (fun t loan hloan => heffect.loans_deposit ▸ hloan) rfl rfl
  | borrow asset amount delegatee b =>
    exact h.same hlast (fun t loan hloan => heffect.loans_borrow ▸ hloan) rfl rfl
  | acquire asset amount b =>
    obtain rfl : b = account := by simpa [Op.alone] using halone
    have hloans := heffect.loans_acquire
    rw [h.last] at hlast hloans
    rw [Numbering.next, if_pos rfl]
    exact h.issuedOwn rfl hlast hloans
  | repay ticket paid =>
    refine h.same hlast (fun t loan hloan => ?_) rfl rfl
    rw [heffect.loans_repay, Table.get?_erase] at hloan
    split at hloan
    · cases hloan
    · exact hloan
  | _ => cases hop

theorem kept (h : Numbered s account n p r) (hop : op.Lending s.lastTicket)
    (halone : op.alone n account = some op') (hfee : r.feeBps = p.feeBps) (heffect : p.Effect op a q)
    (heffect' : r.Effect op' a' r') : Numbered s account (n.next account op) q r' := by
  have hlast := heffect.lastTicket_eq
  have hlast' := heffect'.lastTicket_eq
  cases op with
  | deposit =>
    obtain rfl := Op.eq_of_alone (fun _ _ => Op.noConfusion) halone
    exact h.same hlast (fun t loan hloan => heffect.loans_deposit ▸ hloan) hlast' heffect'.loans_deposit
  | borrow =>
    obtain rfl := Op.eq_of_alone (fun _ _ => Op.noConfusion) halone
    exact h.same hlast (fun t loan hloan => heffect.loans_borrow ▸ hloan) hlast' heffect'.loans_borrow
  | acquire asset amount b =>
    obtain rfl := Op.eq_of_alone (fun _ _ => Op.noConfusion) halone
    have hb : b ≠ account := by
      rintro rfl
      simp [Op.alone] at halone
    have hloans := heffect.loans_acquire
    have hloans' := heffect'.loans_acquire
    have hflash : r.flashFee amount = p.flashFee amount := by rw [flashFee, hfee]; rfl
    rw [h.last] at hlast hloans
    rw [h.lastAlone] at hlast' hloans'
    rw [hflash] at hloans'
    rw [Numbering.next, if_neg hb]
    exact h.issued hb hlast hloans hlast' hloans'
  | repay ticket paid =>
    obtain ⟨u, hu, rfl⟩ := Option.map_eq_some_iff.mp halone
    exact h.repaid hu hlast heffect.loans_repay hlast' heffect'.loans_repay
  | _ => cases hop

end Numbered

section Entries
variable {p q r r' : Pool} {op op' : Op} {a a' : Answer} {b b' : Address} {e e' : Entry}

theorem Effect.exists_entry {n : Nat} (heffect : p.Effect op a q) (hop : op.Lending n) :
    ∃ b e, op.entry? p = some (b, e) := by
  cases heffect with
  | deposit listed | borrow listed | borrowFor listed =>
    exact ⟨_, _, by rw [Op.entry?, listed]; rfl⟩
  | acquire => exact ⟨_, _, rfl⟩
  | repay out => exact ⟨_, _, by rw [Op.entry?, out]; rfl⟩
  | _ => cases hop

theorem Op.tokens_eq (hrepay : ∀ ticket paid, op ≠ .repay ticket paid)
    (hentry : op.entry? p = some (b, e)) (hentry' : op.entry? r = some (b', e')) (c : Address) :
    e'.paidIn c = e.paidIn c ∧ e'.paidOut c = e.paidOut c := by
  cases op with
  | deposit | borrow =>
    obtain ⟨_, -, heq⟩ := Option.map_eq_some_iff.mp hentry
    obtain ⟨_, -, heq'⟩ := Option.map_eq_some_iff.mp hentry'
    cases heq
    cases heq'
    exact ⟨rfl, rfl⟩
  | acquire =>
    cases hentry
    cases hentry'
    exact ⟨rfl, rfl⟩
  | repay => exact absurd rfl (hrepay _ _)
  | _ => cases hentry

theorem Numbered.entry_alone {s : Pool} {account : Address} {n : Numbering}
    (h : Numbered s account n p r) (hop : op.Lending s.lastTicket)
    (halone : op.alone n account = some op') (hentry : op.entry? p = some (b, e))
    (heffect : r.Effect op' a' r') : ∃ b' e', op'.entry? r = some (b', e') ∧
      ∀ c, e'.paidIn c = e.paidIn c ∧ e'.paidOut c = e.paidOut c := by
  cases op with
  | repay ticket paid =>
    obtain ⟨u, hu, rfl⟩ := Option.map_eq_some_iff.mp halone
    obtain ⟨loan, hloan, heq⟩ := Option.map_eq_some_iff.mp hentry
    cases heq
    refine ⟨loan.account, _, ?_, fun c => ⟨rfl, rfl⟩⟩
    rw [Op.entry?, (h.others ticket u hu loan hloan).2]
    rfl
  | _ =>
    obtain rfl := Op.eq_of_alone (fun _ _ => Op.noConfusion) halone
    obtain ⟨b', e', hentry'⟩ := heffect.exists_entry hop
    exact ⟨b', e', hentry', Op.tokens_eq (fun _ _ => Op.noConfusion) hentry hentry'⟩

end Entries

/-- The run from `s` to `p` with the journal of the account open, and the run to `r` without the account. -/
structure Beside (s : Pool) (account : Address) (n : Numbering) (es : List Entry) (p r : Pool) : Prop
    extends Numbered s account n p r where
  journal : p.journals.get? (s.lastCheckpoint + 1) = some ⟨account, es⟩
  feeBps : r.feeBps = p.feeBps
  liquidity : ∀ c r₀, s.reserve? c = some r₀ → ∃ r₁ r₂, p.reserve? c = some r₁ ∧
    r.reserve? c = some r₂ ∧ r₁.liquidity.toNat + (es.map (Entry.paidOut c)).sum =
      r₂.liquidity.toNat + (es.map (Entry.paidIn c)).sum

namespace Beside
variable {s p q r r' : Pool} {account : Address} {n : Numbering} {es : List Entry} {op op' : Op}
  {a a' : Answer}

theorem start (hs : s.Sound) : Beside s account (.start s) [] (s.openJournal account) s where
  toNumbered := .start hs
  journal := Table.get?_set_self ..
  feeBps := rfl
  liquidity _ r₀ hr₀ := ⟨r₀, r₀, hr₀, hr₀, rfl⟩

theorem leftOut (h : Beside s account n es p r) (hp : p.Sound) (hop : op.Lending s.lastTicket)
    (halone : op.alone n account = none) (heffect : p.Effect op a q) (hexact : op.Exact p) :
    ∃ e, Beside s account (n.next account op) (e :: es) q r := by
  obtain ⟨b, e, hentry⟩ := heffect.exists_entry hop
  obtain rfl : b = account := (h.alone_eq_none_iff hop hentry).mp halone
  have hnoted := heffect.noted hp hentry
  refine ⟨e, h.toNumbered.leftOut hop halone heffect, hnoted.journal_own hp h.journal,
    h.feeBps.trans heffect.feeBps_eq.symm, fun c r₀ hr₀ => ?_⟩
  obtain ⟨r₁, r₂, hr₁, hr₂, hapart⟩ := h.liquidity c r₀ hr₀
  obtain ⟨l, hl, hsum⟩ := (heffect.counted hexact hentry).liquidity c r₁ hr₁
  refine ⟨_, r₂, hl, hr₂, ?_⟩
  simp only [List.map_cons, List.sum_cons]
  omega

theorem kept (h : Beside s account n es p r) (hp : p.Sound) (hop : op.Lending s.lastTicket)
    (halone : op.alone n account = some op') (heffect : p.Effect op a q) (hexact : op.Exact p)
    (heffect' : r.Effect op' a' r') (hexact' : op'.Exact r) :
    Beside s account (n.next account op) es q r' := by
  obtain ⟨b, e, hentry⟩ := heffect.exists_entry hop
  obtain ⟨b', e', hentry', htokens⟩ := h.entry_alone hop halone hentry heffect'
  have hnoted := heffect.noted hp hentry
  -- Another's note goes into another journal, or into none.
  have hother : p.opened.get? b ≠ some (s.lastCheckpoint + 1) := by
    intro hid
    obtain ⟨es', hes'⟩ := (hp.opened b _).mp hid
    rw [h.journal] at hes'
    cases hes'
    rw [(h.alone_eq_none_iff hop hentry).mpr rfl] at halone
    cases halone
  refine ⟨h.toNumbered.kept hop halone h.feeBps heffect heffect', ?_,
    heffect'.feeBps_eq.trans (h.feeBps.trans heffect.feeBps_eq.symm), fun c r₀ hr₀ => ?_⟩
  · rw [hnoted.journals, get?_noted, if_neg hother]
    exact h.journal
  · obtain ⟨r₁, r₂, hr₁, hr₂, hapart⟩ := h.liquidity c r₀ hr₀
    obtain ⟨l, hl, hsum⟩ := (heffect.counted hexact hentry).liquidity c r₁ hr₁
    obtain ⟨l', hl', hsum'⟩ := (heffect'.counted hexact' hentry').liquidity c r₂ hr₂
    obtain ⟨hin, hout⟩ := htokens c
    refine ⟨_, _, hl, hl', ?_⟩
    show l.toNat + _ = l'.toNat + _
    omega

theorem run {ops : List Op} (h : Beside s account n es p r) (hp : p.Sound)
    (hops : ∀ op ∈ ops, op.Lending s.lastTicket) (hrun : p.Carried ops q) (hexact : p.Exact ops)
    (halone : r.Carried (without account n ops) r') (hexact' : r.Exact (without account n ops)) :
    ∃ n' es', Beside s account n' es' q r' := by
  induction hrun generalizing n es r with
  | nil p =>
    cases halone
    exact ⟨n, es, h⟩
  | @cons p q' q op a ops head tail ih =>
    have hop := hops op List.mem_cons_self
    have hrest : q'.Exact ops := by
      have htail := hexact.2
      rwa [after_of_effect head] at htail
    rw [without] at halone hexact'
    cases hother : op.alone n account with
    | none =>
      rw [hother] at halone hexact'
      obtain ⟨e, h'⟩ := h.leftOut hp hop hother head hexact.1
      exact ih h' (head.sound hp) (fun op' hop' => hops op' (List.mem_cons_of_mem _ hop')) hrest
        halone hexact'
    | some op' =>
      rw [hother] at halone hexact'
      cases halone with
      | cons head' tail' =>
        have h' := h.kept hp hop hother head hexact.1 head' hexact'.1
        have hrest' := hexact'.2
        rw [after_of_effect head'] at hrest'
        exact ih h' (head.sound hp) (fun op' hop' => hops op' (List.mem_cons_of_mem _ hop')) hrest
          tail' hrest'

end Beside

/-- Rolling the account back leaves every reserve with what the others alone would have left there, and with
what the rollback has fallen short of. That is nothing where the reserve still holds all that the journal
brought in. -/
theorem revert_beside {s p r : Pool} (hs : s.Reachable) {account : Address} {ops : List Op}
    (hops : ∀ op ∈ ops, op.Lending s.lastTicket) (hrun : s.Carried (.checkpoint account :: ops) p)
    (hexact : s.Exact (.checkpoint account :: ops))
    (halone : s.Carried (without account (.start s) ops) r)
    (hexact' : s.Exact (without account (.start s) ops))
    (hfits : p.RevertFits (s.lastCheckpoint + 1)) :
    ∃ q es, p.Effect (.revert (s.lastCheckpoint + 1)) .done q ∧
      p.journals.get? (s.lastCheckpoint + 1) = some ⟨account, es⟩ ∧
      ∀ c r₀, s.reserve? c = some r₀ → ∃ r₁ r₂ r₃, p.reserve? c = some r₁ ∧ r.reserve? c = some r₂ ∧
        q.reserve? c = some r₃ ∧
        r₃.liquidity.toNat = r₂.liquidity.toNat + shortfall c es r₁.liquidity.toNat ∧
        ((es.map (Entry.paidIn c)).sum ≤ r₁.liquidity.toNat → r₃.liquidity = r₂.liquidity) := by
  have hsound := hs.sound
  obtain ⟨hclosed, hcarried⟩ := hrun.opened
  have hexactOpened : (s.openJournal account).Exact ops := by
    have htail := hexact.2
    rwa [after_of_effect (.checkpoint hclosed)] at htail
  obtain ⟨n, es, h⟩ := (Beside.start hsound).run (hsound.openJournal hclosed) hops hcarried
    hexactOpened halone hexact'
  refine ⟨_, es, .revert h.journal, h.journal, fun c r₀ hr₀ => ?_⟩
  obtain ⟨r₁, r₂, hr₁, hr₂, hapart⟩ := h.liquidity c r₀ hr₀
  obtain ⟨l, hl, hvalue⟩ := reserve?_undoAll (p := p.close (s.lastCheckpoint + 1) account) hr₁
    (hfits _ h.journal)
  have hback : l.toNat = unwound c es r₁.liquidity.toNat := hvalue
  have hunwound := unwound_eq c es r₁.liquidity.toNat
  have hsum : l.toNat = r₂.liquidity.toNat + shortfall c es r₁.liquidity.toNat := by omega
  refine ⟨r₁, r₂, _, hr₁, hr₂, hl, hsum, fun hheld => BitVec.eq_of_toNat_eq ?_⟩
  rw [shortfall_eq_zero hheld] at hsum
  exact hsum

def stocked (liquidity : Word) : Pool :=
  history { feeBps := 9 } [.list { asset := ⟨1⟩, symbol := "A", decimals := 18 }, .supply ⟨1⟩ liquidity]

theorem stocked_reachable (liquidity : Word) : (stocked liquidity).Reachable := ⟨9, .zero, _, rfl⟩

/-- The ticket that another account gets second is the first one that it gets alone. -/
theorem revert_beside_renumbered :
    let joint : List Op := [.acquire ⟨1⟩ 100 ⟨7⟩, .acquire ⟨1⟩ 200 ⟨8⟩, .deposit ⟨1⟩ 50 ⟨7⟩,
      .borrow ⟨1⟩ 30 ⟨8⟩ ⟨8⟩, .repay 2 200, .repay 1 100]
    let others : List Op := [.acquire ⟨1⟩ 200 ⟨8⟩, .borrow ⟨1⟩ 30 ⟨8⟩ ⟨8⟩, .repay 1 200]
    without ⟨7⟩ (.start (stocked 1000)) joint = others ∧
      ∃ q r₂ r₃, ((stocked 1000).history (.checkpoint ⟨7⟩ :: joint)).Effect (.revert 1) .done q ∧
        ((stocked 1000).history others).reserve? ⟨1⟩ = some r₂ ∧ q.reserve? ⟨1⟩ = some r₃ ∧
        r₃.liquidity = r₂.liquidity := by
  intro joint others
  have hothers : without ⟨7⟩ (.start (stocked 1000)) joint = others := by decide +kernel
  have hs := stocked_reachable 1000
  have hrun : (stocked 1000).Carried (.checkpoint ⟨7⟩ :: joint) _ :=
    carried_of_deeds hs.sound (by decide +kernel)
  have halone : (stocked 1000).Carried (without ⟨7⟩ (.start (stocked 1000)) joint) _ :=
    carried_of_deeds hs.sound (by decide +kernel)
  have hheld : ∀ j ∈ ((stocked 1000).history (.checkpoint ⟨7⟩ :: joint)).journals.get? 1,
      ∀ r ∈ ((stocked 1000).history (.checkpoint ⟨7⟩ :: joint)).reserve? ⟨1⟩,
        (j.entries.map (Entry.paidIn ⟨1⟩)).sum ≤ r.liquidity.toNat := by decide +kernel
  obtain ⟨q, es, heffect, hjournal, hreserves⟩ := revert_beside hs (by decide +kernel) hrun
    (by decide +kernel) halone (by decide +kernel) (by decide +kernel)
  obtain ⟨r₀, hr₀⟩ : ∃ r₀, (stocked 1000).reserve? ⟨1⟩ = some r₀ := ⟨_, rfl⟩
  obtain ⟨r₁, r₂, r₃, hr₁, hr₂, hr₃, -, hequal⟩ := hreserves ⟨1⟩ r₀ hr₀
  exact ⟨hothers, q, r₂, r₃, heffect, hothers ▸ hr₂, hr₃, hequal (hheld _ hjournal _ hr₁)⟩

/-- Borrowed and supplied again, the tokens go to another account. Nothing is missing in the end, but the
deposit is undone first, when the reserve is empty, and then the borrow gives 60 back that nobody has. -/
theorem liquidity_lifted_by_revert :
    let joint : List Op :=
      [.borrow ⟨1⟩ 60 ⟨7⟩ ⟨7⟩, .deposit ⟨1⟩ 60 ⟨7⟩, .borrow ⟨1⟩ 100 ⟨8⟩ ⟨8⟩]
    let reverted := .checkpoint ⟨7⟩ :: joint ++ [.revert 1]
    let others := without ⟨7⟩ (.start (stocked 100)) joint
    ((stocked 100).deeds reverted).length = reverted.length ∧
      ((stocked 100).deeds others).length = others.length ∧
      (((stocked 100).history reverted).reserve? ⟨1⟩).map (·.liquidity) = some 60 ∧
      (((stocked 100).history others).reserve? ⟨1⟩).map (·.liquidity) = some 0 := by
  decide +kernel

end Gearing.Pool
