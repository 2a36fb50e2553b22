import Gearing.Proofs.Pool.Log

/-!
What is left of an allowance: the amount that was approved last, less what the delegatee has borrowed since
and not been rolled back from.

An approval overwrites the allowance and is not noted down, but undoing a borrow adds to the allowance
that is there. So the rule holds as long as no revert undoes a borrow that is older than the approval. One
that does lifts the allowance past the amount approved, and the sum may wrap.
-/
namespace Gearing.Pool

/-- The notes of an earlier stretch whose checkpoints are reverted in a later one. -/
def revived (before since : List Deed) : List Note :=
  (log before).filter fun n => ∃ id ∈ n.under, id ∈ reverted since

section Revived
variable {before since : List Deed} {p : Pool} {op : Op}

theorem revived_other (hrevert : ∀ id, op ≠ .revert id) :
    revived before (since ++ [⟨p, op⟩]) = revived before since := by
  rw [revived, revived, reverted_other hrevert]

theorem total_revived_revert (before : List Deed) {id : Nat} (hid : id ∉ reverted since)
    (w : Entry → Nat) :
    total w (revived before (since ++ [⟨p, .revert id⟩])) =
      total w (revived before since) + total w (under id (log before)) := by
  have hold : (revived before (since ++ [⟨p, .revert id⟩])).filter (fun n => ¬ n.under = some id) =
      revived before since := by
    rw [revived, revived, reverted_revert, List.filter_filter]
    refine List.filter_congr fun n _ => ?_
    cases hunder : n.under with
    | none => simp
    | some i =>
      by_cases hi : i = id
      · simp [hi, hid]
      · simp [hi]
  have hnew : (revived before (since ++ [⟨p, .revert id⟩])).filter (fun n => n.under = some id) =
      under id (log before) := by
    rw [revived, under, reverted_revert, List.filter_filter]
    refine List.filter_congr fun n _ => ?_
    by_cases hunder : n.under = some id
    · simp [hunder]
    · simp [hunder]
  rw [total_filter w (fun n => n.under = some id), hold, hnew]

end Revived

/-- What the allowance under a key comes to, since `approved` was approved after the first stretch. -/
structure Ceiling (k : Address × Address × Address) (approved : Word) (before since : List Deed)
    (left : Word) : Prop where
  agree : (left.toNat + total (Entry.spent k) (live since)) % 2 ^ 256 =
    (approved.toNat + total (Entry.spent k) (revived before since)) % 2 ^ 256
  exact : total (Entry.spent k) (revived before since) = 0 →
    left.toNat + total (Entry.spent k) (live since) = approved.toNat

section Step
variable {k : Address × Address × Address} {approved left left' : Word} {before since : List Deed}
  {p : Pool} {op : Op}

theorem Ceiling.start : Ceiling k approved before [] approved := by
  have hnone : revived before [] = [] := List.filter_eq_nil_iff.mpr fun n _ => by simp [reverted]
  exact ⟨by rw [hnone]; rfl, fun _ => rfl⟩

theorem Ceiling.noted (h : Ceiling k approved before since left) {account : Address} {e : Entry}
    (hentry : op.entry? p = some (account, e))
    (hopen : ∀ id ∈ p.opened.get? account, id ∉ reverted since)
    (hleft : left'.toNat + e.spent k = left.toNat) :
    Ceiling k approved before (since ++ [⟨p, op⟩]) left' := by
  have htotal : left'.toNat + (total (Entry.spent k) (live since) + e.spent k) =
      left.toNat + total (Entry.spent k) (live since) := by omega
  constructor
  · rw [live_noted hentry hopen, revived_other (not_revert_of_entry hentry), total_append,
      total_singleton, htotal]
    exact h.agree
  · rw [live_noted hentry hopen, revived_other (not_revert_of_entry hentry), total_append,
      total_singleton, htotal]
    exact h.exact

/-- The journal gives back what was spent under it, before the approval and since. -/
theorem Ceiling.revert (h : Ceiling k approved before since left) {id : Nat}
    (hid : id ∉ reverted since) (hleft : left' = left + BitVec.ofNat 256
      (total (Entry.spent k) (under id (log before)) + total (Entry.spent k) (under id (log since)))) :
    Ceiling k approved before (since ++ [⟨p, .revert id⟩]) left' := by
  have hlive := total_live_reverted (p := p) hid (Entry.spent k)
  have hrevived := total_revived_revert before (p := p) hid (Entry.spent k)
  have hvalue : left'.toNat = (left.toNat + (total (Entry.spent k) (under id (log before)) +
      total (Entry.spent k) (under id (log since)))) % 2 ^ 256 := by
    rw [hleft, BitVec.toNat_add, BitVec.toNat_ofNat, Nat.add_mod_mod]
  have hagree := h.agree
  have hbound := approved.isLt
  constructor
  · omega
  · intro hnone
    have hexact := h.exact (by omega)
    rw [Nat.mod_eq_of_lt (by omega)] at hvalue
    omega

theorem Ceiling.same (h : Ceiling k approved before since left) (hentry : op.entry? p = none)
    (hrevert : ∀ id, op ≠ .revert id) (hleft : left' = left) :
    Ceiling k approved before (since ++ [⟨p, op⟩]) left' := by
  constructor
  · rw [hleft, live_unnoted hentry hrevert, revived_other hrevert]
    exact h.agree
  · rw [hleft, live_unnoted hentry hrevert, revived_other hrevert]
    exact h.exact

theorem Ceiling.step {account delegatee asset : Address} {q : Pool}
    (h : Ceiling (account, delegatee, asset) approved before since
      (p.allowance account delegatee asset))
    (hlog : Logged (before ++ since) p) (hp : p.Sound) (hturn : p.Turn op q)
    (hkept : ∀ amount, op ≠ .approve account delegatee asset amount) :
    Ceiling (account, delegatee, asset) approved before (since ++ [⟨p, op⟩])
      (q.allowance account delegatee asset) := by
  have hrecent : ∀ {id}, id ∉ reverted (before ++ since) → id ∉ reverted since := by
    intro id hid hmem
    rw [reverted_append] at hid
    exact hid (List.mem_append_right _ hmem)
  cases hturn with
  | @noted _ _ a e hentry hnoted =>
    exact h.noted hentry (fun id hid => hrecent (hlog.opened_not_reverted hp a id hid))
      (hnoted.allowance ..)
  | opened => exact h.same rfl (fun _ => Op.noConfusion) rfl
  | @reverted id j hj =>
    refine h.revert (hrecent (hlog.not_reverted hj)) ?_
    rw [allowance_undoAll, hlog.sum_journal hj, log_append, under_append, total_append]
    rfl
  | committed => exact h.same rfl (fun _ => Op.noConfusion) rfl
  | aside hentry hrevert haside =>
    exact h.same hentry hrevert (haside.allowance _ _ _ hkept)

end Step

/-- After any history, what is left of an allowance and what was borrowed on it since the last approval make
up the amount approved, and what reverts gave back of earlier borrows; modulo 2 ^ 256. Where reverts gave
nothing of those back, they make up the amount approved exactly. -/
theorem allowance_of_last_approval (feeBps : Nat) (wrappedNative : Address) (xs ys : List Op)
    (amount : Word) {account delegatee asset : Address}
    (hlast : ∀ amount', .approve account delegatee asset amount' ∉ ys) :
    let k := (account, delegatee, asset)
    let approved := history { feeBps, wrappedNative } (xs ++ [.approve account delegatee asset amount])
    let before := deeds { feeBps, wrappedNative } (xs ++ [.approve account delegatee asset amount])
    let since := approved.deeds ys
    let left := ((approved.history ys).allowance account delegatee asset).toNat
    let borrowed := total (Entry.spent k) (live since)
    let back := total (Entry.spent k) (revived before since)
    (left + borrowed) % 2 ^ 256 = (amount.toNat + back) % 2 ^ 256 ∧
      (back = 0 → left + borrowed = amount.toNat) := by
  intro k approved before since left borrowed back
  have hempty := sound_empty feeBps wrappedNative
  have happroved : approved.Sound := hempty.history _
  have hlog : Logged before approved := (logged_empty feeBps wrappedNative).history hempty _
  have hstart : approved.allowance account delegatee asset = amount := by
    have hwrite : approved = (history { feeBps, wrappedNative } xs).setAllowance account delegatee
        asset amount := history_append ..
    rw [hwrite, allowance, setAllowance, Table.getD_set, if_pos rfl]
  have hrun := history_induction happroved
    (motive := fun ds q => Logged (before ++ ds) q ∧
      ((∀ d ∈ ds, ∀ amount', d.op ≠ .approve account delegatee asset amount') →
        Ceiling k amount before ds (q.allowance account delegatee asset))) ?_ ?_ ys
  · have h := hrun.2 fun d hd amount' hop => hlast amount' (hop ▸ op_mem_of_deeds hd)
    exact ⟨h.agree, h.exact⟩
  · rw [List.append_nil, hstart]
    exact ⟨hlog, fun _ => .start⟩
  · rintro ds q op a r hq ⟨hds, hceiling⟩ heffect
    have hturn := heffect.turn hq
    rw [← List.append_assoc]
    refine ⟨hds.step hq hturn, fun hkept => ?_⟩
    have h := hceiling fun d hd => hkept d (List.mem_append_left _ hd)
    exact h.step hds hq hturn (hkept ⟨q, op⟩ (List.mem_append_right _ List.mem_cons_self))

/-- A pool in which the delegatee has borrowed 60 of the 100 approved, under a checkpoint. -/
def delegated : List Op :=
  [.list { asset := ⟨1⟩, symbol := "A", decimals := 18 }, .supply ⟨1⟩ 1000,
    .approve ⟨7⟩ ⟨8⟩ ⟨1⟩ 100, .checkpoint ⟨7⟩, .borrow ⟨1⟩ 60 ⟨8⟩ ⟨7⟩]

/-- The borrow of 10 is undone with the checkpoint, and the one of 30 stays. -/
theorem allowance_of_last_approval_reverted :
    let since : List Op := [.checkpoint ⟨7⟩, .borrow ⟨1⟩ 10 ⟨8⟩ ⟨7⟩, .revert 2, .borrow ⟨1⟩ 30 ⟨8⟩ ⟨7⟩]
    let p := history { feeBps := 9 } (delegated ++ [.commit 1] ++ [.approve ⟨7⟩ ⟨8⟩ ⟨1⟩ 50])
    ((p.history since).allowance ⟨7⟩ ⟨8⟩ ⟨1⟩).toNat + 30 = 50 := by
  intro since p
  have hlast : ∀ amount', .approve ⟨7⟩ ⟨8⟩ ⟨1⟩ amount' ∉ since := by
    intro amount'
    simp [since]
  have hborrowed : total (Entry.spent (⟨7⟩, ⟨8⟩, ⟨1⟩)) (live (p.deeds since)) = 30 := by decide +kernel
  have h := (allowance_of_last_approval 9 .zero (delegated ++ [.commit 1]) since 50 hlast).2
    (by decide +kernel)
  exact hborrowed ▸ h

/-- The checkpoint is reverted after the approval was renewed. Then more is left than was approved, and of
an unlimited approval hardly anything. -/
theorem allowance_past_approval :
    let renewed (amount : Word) := history { feeBps := 9 } (delegated ++ [.approve ⟨7⟩ ⟨8⟩ ⟨1⟩ amount])
    (live ((renewed 10).deeds [.revert 1]) = [] ∧
      (((renewed 10).history [.revert 1]).allowance ⟨7⟩ ⟨8⟩ ⟨1⟩).toNat = 70) ∧
    (live ((renewed Word.greatest).deeds [.revert 1]) = [] ∧
      (((renewed Word.greatest).history [.revert 1]).allowance ⟨7⟩ ⟨8⟩ ⟨1⟩).toNat = 59) := by
  decide +kernel

end Gearing.Pool
