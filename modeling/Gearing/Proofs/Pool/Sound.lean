import Gearing.Proofs.Pool.Undo

/-!
What holds of every pool that operations can lead to, in any order and however the sums wrap.

The delicate part is the collateral flag. A balance without the flag has no deposit, and a revert keeps
it so: undoing the deposit that set the flag leaves nothing behind it, because undoing never leaves
more than there was.
-/
namespace Gearing
open Pool

namespace Balance

/-- No deposit without the flag. -/
def Flagged (b : Balance) : Prop := b.collateral = false → b.deposit = 0

/-- At most the deposit of the other balance, under the same flag. -/
def Below (b c : Balance) : Prop := b.deposit ≤ c.deposit ∧ b.collateral = c.collateral

theorem Flagged.of_below {b c : Balance} (hc : c.Flagged) (h : b.Below c) : b.Flagged := by
  intro hb
  have hzero : c.deposit = 0 := hc (h.2 ▸ hb)
  have hle := BitVec.le_def.mp h.1
  rw [hzero] at hle
  exact BitVec.eq_of_toNat_eq (by simpa using hle)

/-- Flagged now and after each entry of a journal is undone, newest first. -/
def Covered (k : Address × Address) : List Entry → Balance → Prop
  | [], b => b.Flagged
  | e :: es, b => b.Flagged ∧ Covered k es (e.undoAt k b)

theorem undoAt_below (k : Address × Address) (e : Entry) {b c : Balance} (h : b.Below c) :
    (e.undoAt k b).Below (e.undoAt k c) := by
  obtain ⟨hle, hflag⟩ := h
  have hle' := BitVec.le_def.mp hle
  cases e with
  | deposit asset account scaled amount enabled =>
    simp only [Entry.undoAt]
    split
    · refine ⟨BitVec.le_def.mpr ?_, by simp [hflag]⟩
      simp only [Word.toNat_clampSub]
      omega
    · exact ⟨hle, hflag⟩
  | borrow asset account scaled amount delegatee used =>
    simp only [Entry.undoAt]
    split
    · exact ⟨hle, hflag⟩
    · exact ⟨hle, hflag⟩
  | acquire ticket asset amount => exact ⟨hle, hflag⟩
  | repay asset amount fee => exact ⟨hle, hflag⟩

theorem Covered.of_below {k : Address × Address} {es : List Entry} {b c : Balance}
    (hc : Covered k es c) (h : b.Below c) : Covered k es b := by
  induction es generalizing b c with
  | nil => exact Flagged.of_below hc h
  | cons e es ih => exact ⟨hc.1.of_below h, ih hc.2 (undoAt_below k e h)⟩

theorem Covered.undo {k : Address × Address} {es : List Entry} {b : Balance}
    (h : Covered k es b) : (es.foldl (fun b e => e.undoAt k b) b).Flagged := by
  induction es generalizing b with
  | nil => exact h
  | cons e es ih => exact ih h.2

theorem flagged_credit (b : Balance) (scaled : Word) (h : b.Flagged) :
    (b.credit scaled).collateral = true := by
  cases hc : b.collateral with
  | true => simp [credit, hc]
  | false => simp [credit, enables, hc, h hc]

/-- Undoing a deposit leaves no more than there was, also where the deposit wrapped. -/
theorem undoAt_credit_below (k : Address × Address) (b : Balance) (scaled amount : Word) :
    ((Entry.deposit k.2 k.1 scaled amount b.enables).undoAt k (b.credit scaled)).Below b := by
  simp only [Entry.undoAt, if_true, Below, credit]
  refine ⟨BitVec.le_def.mpr ?_, ?_⟩
  · rw [Word.toNat_clampSub, BitVec.toNat_add]
    have hb := b.deposit.isLt
    have hs := scaled.isLt
    omega
  · cases hc : b.collateral <;> simp [enables, hc]

end Balance

namespace Pool

/-- The loans that are out: their tickets have been issued, and their reserves are listed. -/
def LoansSound (p : Pool) : Prop :=
  ∀ t loan, p.loans.get? t = some loan → 0 < t ∧ t ≤ p.lastTicket ∧ loan.asset ∈ p.assets

structure Sound (p : Pool) : Prop where
  assets : p.assets.Nodup
  loans : p.LoansSound
  /-- The open checkpoints and the journals are the same, told by account and by number. -/
  opened : ∀ account id,
    p.opened.get? account = some id ↔ ∃ es, p.journals.get? id = some ⟨account, es⟩
  checkpoints : ∀ id j, p.journals.get? id = some j → 0 < id ∧ id ≤ p.lastCheckpoint
  own : ∀ id j, p.journals.get? id = some j → ∀ e ∈ j.entries, e.Concerns j.account
  flagged : ∀ account asset, (p.balance account asset).Flagged
  covered : ∀ id j, p.journals.get? id = some j → ∀ asset,
    Balance.Covered (j.account, asset) j.entries (p.balance j.account asset)

theorem Sound.loansListed {p : Pool} (h : p.Sound) : p.LoansListed := by
  intro t loan hloan
  exact (p.isSome_reserve? loan.asset).mpr (h.loans t loan hloan).2.2

theorem sound_empty (feeBps : Nat) (wrappedNative : Address) : Sound { feeBps, wrappedNative } where
  assets := List.nodup_nil
  loans _ _ h := by cases h
  opened _ _ := ⟨fun h => (by cases h), fun ⟨_, h⟩ => by cases h⟩
  checkpoints _ _ h := by cases h
  own _ _ h := by cases h
  flagged _ _ _ := rfl
  covered _ _ h := by cases h

namespace Sound
variable {p q : Pool}

theorem account_eq (h : p.Sound) {id : Nat} {j : Journal} (hj : p.journals.get? id = some j) :
    p.opened.get? j.account = some id :=
  (h.opened j.account id).mpr ⟨j.entries, hj⟩

theorem loans_fresh (h : p.Sound) {t : Nat} (ht : p.lastTicket < t) : p.loans.get? t = none := by
  cases hloan : p.loans.get? t with
  | none => rfl
  | some loan =>
    have := (h.loans t loan hloan).2.1
    omega

theorem journals_fresh (h : p.Sound) {id : Nat} (hid : p.lastCheckpoint < id) :
    p.journals.get? id = none := by
  cases hj : p.journals.get? id with
  | none => rfl
  | some j =>
    have := (h.checkpoints id j hj).2
    omega

theorem id_eq (h : p.Sound) {id id' : Nat} {j j' : Journal} (hj : p.journals.get? id = some j)
    (hj' : p.journals.get? id' = some j') (ha : j.account = j'.account) : id = id' := by
  have h₁ := h.account_eq hj
  rw [ha, h.account_eq hj'] at h₁
  exact (Option.some.inj h₁).symm

theorem of_frame (h : p.Sound) (hassets : q.assets.Nodup) (hsub : p.assets ⊆ q.assets)
    (hbalances : q.balances = p.balances) (hloans : q.loans = p.loans)
    (hjournals : q.journals = p.journals) (hopened : q.opened = p.opened)
    (hticket : q.lastTicket = p.lastTicket) (hcheckpoint : q.lastCheckpoint = p.lastCheckpoint) :
    q.Sound where
  assets := hassets
  loans t loan hloan := by
    rw [hloans] at hloan
    obtain ⟨hpos, hle, hmem⟩ := h.loans t loan hloan
    exact ⟨hpos, hticket ▸ hle, hsub hmem⟩
  opened account id := by rw [hopened, hjournals]; exact h.opened account id
  checkpoints id j hj := by rw [hcheckpoint]; exact h.checkpoints id j (hjournals ▸ hj)
  own id j hj := h.own id j (hjournals ▸ hj)
  flagged account asset := by rw [balance, hbalances]; exact h.flagged account asset
  covered id j hj asset := by rw [balance, hbalances]; exact h.covered id j (hjournals ▸ hj) asset

/-- A change on behalf of one account that is noted down, if undoing the note gives back at most the
balances that were there. -/
theorem of_noted (h : p.Sound) {account : Address} {e : Entry} (he : e.Concerns account)
    (hassets : q.assets = p.assets) (hloans : q.LoansSound)
    (hjournals : q.journals = p.noted account e) (hopened : q.opened = p.opened)
    (hcheckpoint : q.lastCheckpoint = p.lastCheckpoint)
    (hother : ∀ a asset, a ≠ account → q.balance a asset = p.balance a asset)
    (hflagged : ∀ asset, (q.balance account asset).Flagged)
    (hback : ∀ asset,
      (e.undoAt (account, asset) (q.balance account asset)).Below (p.balance account asset)) :
    q.Sound := by
  -- The journals of `q` are those of `p`, with `e` in front of the account's own.
  have hget : ∀ id, q.journals.get? id = (p.journals.get? id).map fun j =>
      if j.account = account then { j with entries := e :: j.entries } else j := by
    intro id
    rw [hjournals, get?_noted]
    cases hj : p.journals.get? id with
    | none => simp
    | some j =>
      have ha := h.account_eq hj
      by_cases hja : j.account = account
      · subst hja
        simp [ha]
      · have hne : p.opened.get? account ≠ some id := by
          intro hid
          obtain ⟨es, hes⟩ := (h.opened account id).mp hid
          rw [hj] at hes
          exact hja (congrArg Journal.account (Option.some.inj hes))
        simp [hja, hne]
  refine ⟨hassets ▸ h.assets, hloans, fun a id => ?_, fun id j hj => ?_, fun id j hj => ?_,
    fun a asset => ?_, fun id j hj asset => ?_⟩
  · rw [hopened, h.opened a id, hget]
    constructor
    · rintro ⟨es, hes⟩
      by_cases ha : a = account
      · exact ⟨e :: es, by simp [hes, ha]⟩
      · exact ⟨es, by simp [hes, ha]⟩
    · rintro ⟨es, hes⟩
      obtain ⟨j, hj, hjes⟩ := Option.map_eq_some_iff.mp hes
      have hja : j.account = a := by
        split at hjes
        · exact congrArg Journal.account hjes
        · exact congrArg Journal.account hjes
      exact ⟨j.entries, by rw [hj, ← hja]⟩
  · rw [hget] at hj
    obtain ⟨j', hj', -⟩ := Option.map_eq_some_iff.mp hj
    rw [hcheckpoint]
    exact h.checkpoints id j' hj'
  · rw [hget] at hj
    obtain ⟨j', hj', rfl⟩ := Option.map_eq_some_iff.mp hj
    intro e' he'
    by_cases hja : j'.account = account
    · rw [if_pos hja] at he' ⊢
      rcases List.mem_cons.mp he' with rfl | he'
      · exact hja ▸ he
      · exact h.own id j' hj' e' he'
    · rw [if_neg hja] at he' ⊢
      exact h.own id j' hj' e' he'
  · by_cases ha : a = account
    · exact ha ▸ hflagged asset
    · exact hother a asset ha ▸ h.flagged a asset
  · rw [hget] at hj
    obtain ⟨j', hj', rfl⟩ := Option.map_eq_some_iff.mp hj
    split
    · rename_i hja
      subst hja
      exact ⟨hflagged asset, (h.covered id j' hj' asset).of_below (hback asset)⟩
    · rename_i hja
      exact hother j'.account asset hja ▸ h.covered id j' hj' asset

theorem of_written (h : p.Sound) {account : Address} (asset : Address) (e : Entry) {b : Balance}
    (he : e.Concerns account) (hassets : q.assets = p.assets) (hloans : q.loans = p.loans)
    (hjournals : q.journals = p.noted account e) (hopened : q.opened = p.opened)
    (hticket : q.lastTicket = p.lastTicket) (hcheckpoint : q.lastCheckpoint = p.lastCheckpoint)
    (hbalance : ∀ a c, q.balance a c = if (account, asset) = (a, c) then b else p.balance a c)
    (hb : b.Flagged) (hback : (e.undoAt (account, asset) b).Below (p.balance account asset))
    (hnone : ∀ c, c ≠ asset → ∀ b, e.undoAt (account, c) b = b) : q.Sound := by
  refine h.of_noted he hassets ?_ hjournals hopened hcheckpoint ?_ ?_ ?_
  · intro t loan hloan
    rw [hloans] at hloan
    obtain ⟨hpos, hle, hmem⟩ := h.loans t loan hloan
    exact ⟨hpos, hticket ▸ hle, hassets ▸ hmem⟩
  · intro a c ha
    rw [hbalance, if_neg fun hk => ha (congrArg Prod.fst hk).symm]
  · intro c
    rw [hbalance]
    split
    · exact hb
    · exact h.flagged account c
  · intro c
    rw [hbalance]
    by_cases hc : asset = c
    · subst hc
      rw [if_pos rfl]
      exact hback
    · rw [if_neg fun hk => hc (congrArg Prod.snd hk), hnone c (Ne.symm hc)]
      exact ⟨Nat.le_refl _, rfl⟩

theorem credit (h : p.Sound) (asset : Address) (amount scaled : Word) (account : Address) :
    (p.credit asset amount scaled account).Sound := by
  have hflagged : ((p.balance account asset).credit scaled).Flagged := by
    intro hfalse
    rw [Balance.flagged_credit _ _ (h.flagged account asset)] at hfalse
    cases hfalse
  refine h.of_written asset (.deposit asset account scaled amount (p.balance account asset).enables) rfl
    (assets_credit ..) (record_loans ..) (record_journals ..) (record_opened ..)
    (record_lastTicket ..) (record_lastCheckpoint ..) (fun a c => ?_) hflagged
    (Balance.undoAt_credit_below (account, asset) _ scaled amount) (fun c hc b => ?_)
  · exact (balance_record ..).trans (balance_setBalance ..)
  · exact if_neg fun hk => hc (congrArg Prod.snd hk).symm

theorem debit (h : p.Sound) (asset : Address) (amount scaled : Word) (delegatee account : Address)
    (used : Word) : (p.debit asset amount scaled delegatee account used).Sound := by
  have hflagged : ((p.balance account asset).debit scaled).Flagged := h.flagged account asset
  refine h.of_written asset (.borrow asset account scaled amount delegatee used) rfl (assets_debit ..)
    (record_loans ..) (record_journals ..) (record_opened ..) (record_lastTicket ..)
    (record_lastCheckpoint ..) (fun a c => ?_) hflagged ?_ (fun c hc b => ?_)
  · exact (balance_record ..).trans (balance_setBalance ..)
  · simp only [Entry.undoAt, if_true]
    exact ⟨Nat.le_refl _, rfl⟩
  · exact if_neg fun hk => hc (congrArg Prod.snd hk).symm

theorem of_flash (h : p.Sound) {account : Address} (e : Entry) (he : e.Concerns account)
    (hnone : ∀ k b, e.undoAt k b = b) (hassets : q.assets = p.assets) (hloans : q.LoansSound)
    (hbalances : q.balances = p.balances) (hjournals : q.journals = p.noted account e)
    (hopened : q.opened = p.opened) (hcheckpoint : q.lastCheckpoint = p.lastCheckpoint) :
    q.Sound := by
  have hbalance : ∀ a c, q.balance a c = p.balance a c := fun a c => by rw [balance, hbalances]; rfl
  refine h.of_noted he hassets hloans hjournals hopened hcheckpoint (fun a c _ => hbalance a c)
    (fun c => hbalance account c ▸ h.flagged account c) (fun c => ?_)
  rw [hnone, hbalance]
  exact ⟨Nat.le_refl _, rfl⟩

theorem issue (h : p.Sound) {asset : Address} (amount : Word) (account : Address)
    (hasset : asset ∈ p.assets) : (p.issue (p.nextTicket asset amount) account).Sound := by
  refine h.of_flash (.acquire (p.lastTicket + 1) asset amount) trivial (fun _ _ => rfl)
    (assets_issue ..) ?_ (record_balances ..) (record_journals ..) (record_opened ..)
    (record_lastCheckpoint ..)
  intro t loan hloan
  have hlast : (p.issue (p.nextTicket asset amount) account).lastTicket = p.lastTicket + 1 :=
    record_lastTicket ..
  rw [assets_issue, hlast]
  have hset : (p.loans.set (p.lastTicket + 1) ⟨asset, amount, p.flashFee amount, account⟩).get? t =
      some loan := (congrArg (·.get? t) (record_loans ..)).symm.trans hloan
  rw [Table.get?_set] at hset
  split at hset
  · cases hset
    exact ⟨by omega, by omega, hasset⟩
  · obtain ⟨hpos, hle, hmem⟩ := h.loans t loan hset
    exact ⟨hpos, by omega, hmem⟩

theorem redeem (h : p.Sound) (ticket : Nat) (loan : Loan) :
    ({ p with loans := p.loans.erase ticket }.redeem loan).Sound := by
  refine h.of_flash (.repay loan.asset loan.amount loan.fee) trivial (fun _ _ => rfl)
    (assets_redeem ..) ?_ (record_balances ..) (record_journals ..) (record_opened ..)
    (record_lastCheckpoint ..)
  intro t l hl
  have hlast : ({ p with loans := p.loans.erase ticket }.redeem loan).lastTicket = p.lastTicket :=
    record_lastTicket ..
  rw [assets_redeem, hlast]
  have herase : (p.loans.erase ticket).get? t = some l :=
    (congrArg (·.get? t) (record_loans ..)).symm.trans hl
  rw [Table.get?_erase] at herase
  split at herase
  · cases herase
  · exact h.loans t l herase

theorem mapReserve (h : p.Sound) (asset : Address) (f : Reserve → Reserve)
    (hf : ∀ r, r.asset = asset → (f r).asset = asset) : (p.mapReserve asset f).Sound := by
  have hassets := p.assets_mapReserve asset f hf
  exact h.of_frame (hassets ▸ h.assets) (hassets ▸ List.Subset.refl _) rfl rfl rfl rfl rfl rfl

theorem list (h : p.Sound) (r : Reserve) : (p.list r).Sound := by
  unfold Pool.list
  split
  · exact h.mapReserve r.asset (fun _ => r) fun _ _ => rfl
  · rename_i hnew
    have hmem : r.asset ∉ p.assets := fun hm => hnew ((p.isSome_reserve? r.asset).mpr hm)
    have hassets : Pool.assets { p with reserves := p.reserves ++ [r] } = p.assets ++ [r.asset] := by
      simp [Pool.assets]
    have hnodup : (p.assets ++ [r.asset]).Nodup := by
      refine List.nodup_append.mpr ⟨h.assets, List.nodup_singleton _, fun a ha b hb hab => ?_⟩
      rw [List.mem_singleton.mp hb] at hab
      exact hmem (hab ▸ ha)
    exact h.of_frame (hassets ▸ hnodup) (hassets ▸ List.subset_append_left ..) rfl rfl rfl rfl rfl rfl

theorem openJournal (h : p.Sound) {account : Address} (hclosed : p.opened.get? account = none) :
    (p.openJournal account).Sound := by
  have hget : ∀ id, (p.openJournal account).journals.get? id =
      if p.lastCheckpoint + 1 = id then some { account } else p.journals.get? id :=
    fun id => Table.get?_set ..
  have hopened : ∀ a, (p.openJournal account).opened.get? a =
      if account = a then some (p.lastCheckpoint + 1) else p.opened.get? a :=
    fun a => Table.get?_set ..
  refine ⟨h.assets, h.loans, fun a id => ?_, fun id j hj => ?_, fun id j hj => ?_, h.flagged,
    fun id j hj asset => ?_⟩
  · rw [hopened, hget]
    by_cases ha : account = a
    · subst ha
      by_cases hid : p.lastCheckpoint + 1 = id
      · simp [hid]
      · -- An older journal of the account would be its open one.
        have hnone : ¬ ∃ es, p.journals.get? id = some ⟨account, es⟩ := by
          rw [← h.opened account id, hclosed]
          intro hid
          cases hid
        simp only [if_true, Option.some.injEq, hid, if_false, false_iff]
        exact hnone
    · by_cases hid : p.lastCheckpoint + 1 = id
      · subst hid
        have hnone : p.opened.get? a ≠ some (p.lastCheckpoint + 1) := by
          intro hid
          obtain ⟨es, hes⟩ := (h.opened a _).mp hid
          rw [h.journals_fresh (Nat.lt_succ_self p.lastCheckpoint)] at hes
          cases hes
        simp [ha, hnone]
      · simp only [ha, hid, if_false]
        exact h.opened a id
  · rw [hget] at hj
    show 0 < id ∧ id ≤ p.lastCheckpoint + 1
    split at hj
    · omega
    · have := h.checkpoints id j hj
      omega
  · rw [hget] at hj
    split at hj
    · cases hj
      intro e he
      cases he
    · exact h.own id j hj
  · rw [hget] at hj
    split at hj
    · cases hj
      exact h.flagged account asset
    · exact h.covered id j hj asset

/-- A journal is closed while its account's balances come out flagged and nobody else's change. -/
theorem of_closed (h : p.Sound) {id : Nat} {j : Journal} (hj : p.journals.get? id = some j)
    (hassets : q.assets = p.assets) (hloans : ∀ t loan, q.loans.get? t = some loan →
      p.loans.get? t = some loan) (hjournals : q.journals = p.journals.erase id)
    (hopened : q.opened = p.opened.erase j.account) (hticket : q.lastTicket = p.lastTicket)
    (hcheckpoint : q.lastCheckpoint = p.lastCheckpoint)
    (hother : ∀ a asset, a ≠ j.account → q.balance a asset = p.balance a asset)
    (hflagged : ∀ asset, (q.balance j.account asset).Flagged) : q.Sound := by
  have hget : ∀ i j', q.journals.get? i = some j' → i ≠ id ∧ p.journals.get? i = some j' := by
    intro i j' hj'
    rw [hjournals, Table.get?_erase] at hj'
    split at hj'
    · cases hj'
    · rename_i hne
      exact ⟨Ne.symm hne, hj'⟩
  refine ⟨hassets ▸ h.assets, fun t loan hloan => ?_, fun a i => ?_, fun i j' hj' => ?_,
    fun i j' hj' => h.own i j' (hget i j' hj').2, fun a asset => ?_, fun i j' hj' asset => ?_⟩
  · rw [hassets, hticket]
    exact h.loans t loan (hloans t loan hloan)
  · rw [hopened, hjournals, Table.get?_erase, Table.get?_erase]
    by_cases ha : j.account = a
    · subst ha
      by_cases hi : id = i
      · simp [hi]
      · have hnone : ¬ ∃ es, p.journals.get? i = some ⟨j.account, es⟩ := by
          rintro ⟨es, hes⟩
          exact hi (h.id_eq hj hes rfl)
        simp only [if_true, hi, if_false, reduceCtorEq, false_iff]
        exact hnone
    · by_cases hi : id = i
      · subst hi
        have hnone : p.opened.get? a ≠ some id := by
          intro hid
          obtain ⟨es, hes⟩ := (h.opened a id).mp hid
          rw [hj] at hes
          exact ha (congrArg Journal.account (Option.some.inj hes))
        simp [ha, hnone]
      · simp only [ha, hi, if_false]
        exact h.opened a i
  · rw [hcheckpoint]
    exact h.checkpoints i j' (hget i j' hj').2
  · by_cases ha : a = j.account
    · exact ha ▸ hflagged asset
    · exact hother a asset ha ▸ h.flagged a asset
  · obtain ⟨hne, hp⟩ := hget i j' hj'
    have ha : j'.account ≠ j.account := fun ha => hne (h.id_eq hp hj ha)
    rw [hother j'.account asset ha]
    exact h.covered i j' hp asset

theorem close (h : p.Sound) {id : Nat} {j : Journal} (hj : p.journals.get? id = some j) :
    (p.close id j.account).Sound :=
  h.of_closed hj rfl (fun _ _ hloan => hloan) rfl rfl rfl rfl (fun _ _ _ => rfl) (h.flagged j.account)

theorem rollback (h : p.Sound) {id : Nat} {j : Journal} (hj : p.journals.get? id = some j) :
    ((p.close id j.account).undoAll j.entries).Sound := by
  refine h.of_closed hj (undoAll_assets ..)
    (fun t loan hloan => ?_) (undoAll_journals ..) (undoAll_opened ..) (undoAll_lastTicket ..)
    (undoAll_lastCheckpoint ..) (fun a asset ha => ?_) (fun asset => ?_)
  · rw [get?_loans_undoAll] at hloan
    split at hloan
    · cases hloan
    · exact hloan
  · exact balance_undoAll_other _ j.entries (h.own id j hj) ha asset
  · rw [balance_undoAll]
    exact (h.covered id j hj asset).undo

end Sound

theorem Effect.sound {p q : Pool} {op : Op} {a : Answer} (heffect : p.Effect op a q) (h : p.Sound) :
    q.Sound := by
  have hsame : ∀ asset f, (p.mapLiquidity asset f).Sound := fun asset f =>
    h.mapReserve asset (fun r => { r with liquidity := f r.liquidity }) fun _ hr => hr
  cases heffect with
  | list r => exact h.list r
  | updateReserve listed => exact h.mapReserve _ _ fun r hr => (r.asset_patch _).trans hr
  | supply listed => exact hsame _ (· + _)
  | approve => exact h.of_frame h.assets (List.Subset.refl _) rfl rfl rfl rfl rfl rfl
  | deposit => exact h.credit ..
  | borrow => exact h.debit ..
  | @borrowFor asset amount delegatee account =>
    have hspent : (p.setAllowance account delegatee asset
        (p.allowance account delegatee asset - amount)).Sound :=
      h.of_frame h.assets (List.Subset.refl _) rfl rfl rfl rfl rfl rfl
    exact hspent.debit ..
  | checkpoint closed => exact h.openJournal closed
  | revert journal => exact h.rollback journal
  | commit journal => exact h.close journal
  | acquire listed => exact h.issue _ _ (mem_assets_of_reserve? listed)
  | repay out enough listed => exact h.redeem _ _
  | wrap => exact h.of_frame h.assets (List.Subset.refl _) rfl rfl rfl rfl rfl rfl
  | unwrap => exact h.of_frame h.assets (List.Subset.refl _) rfl rfl rfl rfl rfl rfl

theorem Effect.assets_eq {p q : Pool} {op : Op} {a : Answer} (heffect : p.Effect op a q)
    (hop : ∀ r, op ≠ .list r) : q.assets = p.assets := by
  cases heffect with
  | list r => exact absurd rfl (hop r)
  | updateReserve listed => exact p.assets_mapReserve _ _ fun r hr => (r.asset_patch _).trans hr
  | supply listed => exact p.assets_mapLiquidity _ (· + _)
  | deposit => exact assets_credit ..
  | borrow => exact assets_debit ..
  | borrowFor => exact assets_debit ..
  | revert journal => exact undoAll_assets ..
  | acquire => exact assets_issue ..
  | repay => exact assets_redeem ..
  | _ => rfl

theorem Effect.feeBps_eq {p q : Pool} {op : Op} {a : Answer} (heffect : p.Effect op a q) :
    q.feeBps = p.feeBps := by
  cases heffect with
  | list r => rw [list_eq]
  | deposit => exact record_feeBps ..
  | borrow => exact record_feeBps ..
  | borrowFor => exact record_feeBps ..
  | revert journal => exact undoAll_feeBps ..
  | acquire => exact record_feeBps ..
  | repay => exact record_feeBps ..
  | _ => rfl

theorem Sound.after {p : Pool} (h : p.Sound) (op : Op) : (p.after op).Sound := by
  rcases after_cases op h.loansListed with ⟨a, heffect⟩ | hsame
  · exact heffect.sound h
  · rw [hsame]
    exact h

theorem Sound.history {p : Pool} (h : p.Sound) (ops : List Op) : (p.history ops).Sound := by
  induction ops generalizing p with
  | nil => exact h
  | cons op ops ih => exact ih (h.after op)

def Reachable (p : Pool) : Prop := ∃ feeBps wrappedNative ops, p = history { feeBps, wrappedNative } ops

theorem Reachable.sound {p : Pool} (h : p.Reachable) : p.Sound := by
  obtain ⟨feeBps, wrappedNative, ops, rfl⟩ := h
  exact (sound_empty feeBps wrappedNative).history ops

end Pool
end Gearing
