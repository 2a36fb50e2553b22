import Gearing.Proofs.Alike
import Gearing.Proofs.Pool.Shape

/-!
The wrapped native coin of a pool, which no operation of a run looks at: on two pools that differ in that
amount alone, each one does the same.
-/
namespace Gearing.Pool
open Gearing.Action

def rewrap (w : Word) (p : Pool) : Pool := { p with wrapped := w }

/-- The second pool differs from the first one in its wrapped coin alone. -/
abbrev Rewrapped (w : Word) (p q : Pool) : Prop := q = p.rewrap w

section Changes
variable (w : Word) (p : Pool)

theorem reserve?_rewrap (asset : Address) : (p.rewrap w).reserve? asset = p.reserve? asset := rfl

theorem loans_rewrap : (p.rewrap w).loans = p.loans := rfl

theorem journals_rewrap : (p.rewrap w).journals = p.journals := rfl

theorem record_rewrap (account : Address) (e : Entry) :
    (p.rewrap w).record account e = (p.record account e).rewrap w := by
  rw [record_eq, record_eq]
  rfl

theorem credit_rewrap (asset : Address) (amount scaled : Word) (account : Address) :
    (p.rewrap w).credit asset amount scaled account = (p.credit asset amount scaled account).rewrap w := by
  rw [credit, credit, ← record_rewrap]
  rfl

theorem debit_rewrap (asset : Address) (amount scaled : Word) (delegatee account : Address) (used : Word) :
    (p.rewrap w).debit asset amount scaled delegatee account used =
      (p.debit asset amount scaled delegatee account used).rewrap w := by
  rw [debit, debit, ← record_rewrap]
  rfl

theorem issue_rewrap (t : Ticket) (account : Address) :
    (p.rewrap w).issue t account = (p.issue t account).rewrap w := by
  rw [issue, issue, ← record_rewrap]
  rfl

theorem redeem_rewrap (loan : Loan) : (p.rewrap w).redeem loan = (p.redeem loan).rewrap w := by
  rw [redeem, redeem, ← record_rewrap]
  rfl

theorem undo_rewrap (e : Entry) : (p.rewrap w).undo e = (p.undo e).rewrap w := by
  cases e with
  | deposit => rfl
  | acquire => rfl
  | repay => rfl
  | borrow asset account scaled amount delegatee used =>
    simp only [undo]
    split <;> rfl

theorem undoAll_rewrap (es : List Entry) : (p.rewrap w).undoAll es = (p.undoAll es).rewrap w := by
  induction es generalizing p with
  | nil => rfl
  | cons e es ih =>
    rw [undoAll, List.foldl_cons, undo_rewrap]
    exact ih (p.undo e)

end Changes

section Operations
variable {w : Word}

theorem blind_read {ε α : Type} {f : Pool → Action ε Pool α}
    (h : ∀ p, Alike (Rewrapped w) Eq (f p) (f (p.rewrap w)) p (p.rewrap w)) :
    Blind (Rewrapped w) (get >>= f) :=
  blind_get_bind fun {p _} hp => hp ▸ h p

theorem blind_change {ε : Type} {f : Pool → Pool} (h : ∀ p, f (p.rewrap w) = (f p).rewrap w) :
    Blind (Rewrapped w) (modify f : Action ε Pool PUnit) :=
  blind_modify fun {p _} hp => hp ▸ h p

instance (asset : Address) : Blind (Rewrapped w) (reserve asset) := by
  refine blind_read fun p => ?_
  simp only [reserve?_rewrap]
  cases p.reserve? asset with
  | some r => exact alike_of_ok rfl rfl rfl rfl
  | none => exact alike_of_error rfl rfl rfl

instance (asset : Address) : Blind (Rewrapped w) (activeReserve asset) := by
  unfold activeReserve
  infer_instance

instance (account asset : Address) : Blind (Rewrapped w) (position account asset) := by
  have hread : ∀ r : Reserve, Blind (Rewrapped w) (do
      let (deposited, borrowed) := (← get).totals account r
      return { account, asset, deposited, borrowed } : PoolM Position) :=
    fun _ => blind_read fun _ => alike_of_ok rfl rfl rfl rfl
  unfold position
  infer_instance

instance (account : Address) : Blind (Rewrapped w) (return (← get).snapshot account : PoolM Snapshot) :=
  blind_read fun _ => alike_of_ok rfl rfl rfl rfl

instance (account delegatee asset : Address) :
    Blind (Rewrapped w) (borrowAllowance account delegatee asset) := by
  have hread : Blind (Rewrapped w) (return (← get).allowance account delegatee asset : PoolM Word) :=
    blind_read fun _ => alike_of_ok rfl rfl rfl rfl
  unfold borrowAllowance
  infer_instance

instance (asset : Address) (amount : Word) (account : Address) :
    Blind (Rewrapped w) (deposit asset amount account) := by
  have hcredit : ∀ scaled, Blind (Rewrapped w)
      (modify (·.credit asset amount scaled account) : PoolM PUnit) := fun _ =>
    blind_change fun p => credit_rewrap w p ..
  unfold deposit
  infer_instance

instance (account delegatee asset : Address) (amount : Word) :
    Blind (Rewrapped w) (spendAllowance account delegatee asset amount) := by
  have hspend : Blind (Rewrapped w) (do
      let p ← get
      let available := p.allowance account delegatee asset
      if available < amount then Action.refuse (.insufficientAllowance asset amount available)
      else
        set (p.setAllowance account delegatee asset (available - amount))
        return amount : PoolM Word) :=
    blind_read fun _ => alike_ite (fun _ => alike_of_error rfl rfl rfl) fun _ => alike_of_ok rfl rfl rfl rfl
  unfold spendAllowance
  infer_instance

instance (asset : Address) (amount : Word) (delegatee account : Address) :
    Blind (Rewrapped w) (borrow asset amount delegatee account) := by
  have hdebit : ∀ scaled used, Blind (Rewrapped w)
      (modify (·.debit asset amount scaled delegatee account used) : PoolM PUnit) := fun _ _ =>
    blind_change fun p => debit_rewrap w p ..
  unfold borrow
  infer_instance

instance (asset : Address) (amount : Word) (account : Address) :
    Blind (Rewrapped w) (acquire asset amount account) := by
  have hissue : Blind (Rewrapped w) (do
      let p ← get
      let ticket : Ticket := ⟨p.lastTicket + 1, asset, amount, p.flashFee amount⟩
      set (p.issue ticket account)
      return ticket : PoolM Ticket) :=
    blind_read fun _ => alike_of_ok rfl rfl rfl (issue_rewrap ..)
  unfold acquire
  infer_instance

instance (ticket : Nat) (paid : Word) : Blind (Rewrapped w) (repay ticket paid) := by
  have hredeem : ∀ loan, Blind (Rewrapped w) (modify (·.redeem loan) : PoolM PUnit) := fun _ =>
    blind_change fun p => redeem_rewrap w p ..
  have hreturn : ∀ loan : Loan, Blind (Rewrapped w) (do
      let _ ← reserve loan.asset
      modify (·.redeem loan) : PoolM PUnit) := fun _ => inferInstance
  refine blind_read fun p => ?_
  simp only [loans_rewrap]
  cases p.loans.get? ticket with
  | none => exact alike_of_error rfl rfl rfl
  | some loan =>
    dsimp only
    split
    · exact alike_of_error rfl rfl rfl
    · exact (alike_set (R := Rewrapped w) rfl).bind fun _ hp => (hreturn loan).alike hp

instance (account : Address) : Blind (Rewrapped w) (checkpoint account) :=
  blind_read fun _ => alike_ite (fun _ => alike_of_error rfl rfl rfl) fun _ => alike_of_ok rfl rfl rfl rfl

instance (id : Nat) : Blind (Rewrapped w) (revert id) := by
  refine blind_read fun p => ?_
  simp only [journals_rewrap]
  cases p.journals.get? id with
  | none => exact alike_of_error rfl rfl rfl
  | some j => exact alike_of_ok rfl rfl rfl (undoAll_rewrap w (p.close id j.account) j.entries)

instance (id : Nat) : Blind (Rewrapped w) (commit id) := by
  refine blind_read fun p => ?_
  simp only [journals_rewrap]
  cases p.journals.get? id with
  | none => exact alike_of_error rfl rfl rfl
  | some j => exact alike_of_ok rfl rfl rfl rfl

end Operations
end Gearing.Pool
