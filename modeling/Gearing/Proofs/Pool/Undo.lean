import Gearing.Proofs.Pool.Shape

/-!
What undoing an entry changes, field by field, and what undoing a whole journal changes.
-/
namespace Gearing
open Pool

/-- The asset whose liquidity an entry moved. -/
def Entry.asset : Entry → Address
  | .deposit asset .. | .borrow asset .. | .acquire _ asset _ | .repay asset .. => asset

/-- What undoing an entry does to the liquidity of its asset. -/
def Entry.undoLiquidity : Entry → Word → Word
  | .deposit _ _ _ amount _ => (Word.clampSub · amount)
  | .borrow _ _ _ amount _ _ | .acquire _ _ amount => (· + amount)
  | .repay _ amount fee => (Word.clampSub · (amount + fee))

/-- What undoing an entry does to the balance under one key. -/
def Entry.undoAt (k : Address × Address) : Entry → Balance → Balance
  | .deposit asset account scaled _ enabledCollateral, b =>
    if (account, asset) = k then
      { b with
        deposit := Word.clampSub b.deposit scaled
        collateral := b.collateral && !enabledCollateral }
    else b
  | .borrow asset account scaled _ _ _, b =>
    if (account, asset) = k then { b with debt := Word.clampSub b.debt scaled } else b
  | _, b => b

/-- Whether an entry was written for the account; flash liquidity has no account of its own. -/
def Entry.Concerns (account : Address) : Entry → Prop
  | .deposit _ a .. => a = account
  | .borrow _ a .. => a = account
  | _ => True

def Entry.undoAllowance (k : Address × Address × Address) : Entry → Word → Word
  | .borrow asset account _ _ delegatee used, w =>
    if (account, delegatee, asset) = k then w + used else w
  | _, w => w

def Entry.undoFee (asset : Address) : Entry → Word → Word
  | .repay a _ fee, w => if a = asset then Word.clampSub w fee else w
  | _, w => w

def Entry.ticket? : Entry → Option Nat
  | .acquire ticket .. => some ticket
  | _ => none

namespace Pool

theorem undo_keeps {α : Type} (read : Pool → α)
    (h : ∀ p reserves balances allowances loans fees,
      read { p with reserves, balances, allowances, loans, fees } = read p)
    (p : Pool) (e : Entry) : read (p.undo e) = read p := by
  have hwrites : p.undo e = { p with
      reserves := (p.undo e).reserves
      balances := (p.undo e).balances
      allowances := (p.undo e).allowances
      loans := (p.undo e).loans
      fees := (p.undo e).fees } := by
    cases e with
    | deposit => rfl
    | acquire => rfl
    | repay => rfl
    | borrow =>
      simp only [undo]
      split
      · rfl
      · rfl
  exact (congrArg read hwrites).trans (h ..)

section Undo
variable (p : Pool) (e : Entry)

@[simp] theorem undo_opened : (p.undo e).opened = p.opened :=
  undo_keeps (·.opened) (fun _ _ _ _ _ _ => rfl) p e

@[simp] theorem undo_journals : (p.undo e).journals = p.journals :=
  undo_keeps (·.journals) (fun _ _ _ _ _ _ => rfl) p e

@[simp] theorem undo_lastTicket : (p.undo e).lastTicket = p.lastTicket :=
  undo_keeps (·.lastTicket) (fun _ _ _ _ _ _ => rfl) p e

@[simp] theorem undo_lastCheckpoint : (p.undo e).lastCheckpoint = p.lastCheckpoint :=
  undo_keeps (·.lastCheckpoint) (fun _ _ _ _ _ _ => rfl) p e

theorem reserves_undo : (p.undo e).reserves = (p.mapLiquidity e.asset e.undoLiquidity).reserves := by
  cases e <;> simp only [undo] <;> try rfl
  split <;> rfl

@[simp] theorem undo_assets : (p.undo e).assets = p.assets := by
  rw [assets, reserves_undo]
  exact assets_mapLiquidity ..

@[simp] theorem undo_wrapped : (p.undo e).wrapped = p.wrapped :=
  undo_keeps (·.wrapped) (fun _ _ _ _ _ _ => rfl) p e

@[simp] theorem undo_feeBps : (p.undo e).feeBps = p.feeBps :=
  undo_keeps (·.feeBps) (fun _ _ _ _ _ _ => rfl) p e

@[simp] theorem undo_wrappedNative : (p.undo e).wrappedNative = p.wrappedNative :=
  undo_keeps (·.wrappedNative) (fun _ _ _ _ _ _ => rfl) p e

theorem get?_loans_undo (t : Nat) :
    (p.undo e).loans.get? t = if e.ticket? = some t then none else p.loans.get? t := by
  cases e with
  | deposit => rfl
  | repay => rfl
  | borrow =>
    simp only [undo]
    split <;> rfl
  | acquire ticket asset amount =>
    refine (Table.get?_erase p.loans ticket t).trans ?_
    simp [Entry.ticket?]

theorem allowance_undo (account delegatee asset : Address) :
    (p.undo e).allowance account delegatee asset =
      e.undoAllowance (account, delegatee, asset) (p.allowance account delegatee asset) := by
  cases e with
  | deposit => rfl
  | repay => rfl
  | acquire => rfl
  | borrow a acc scaled amount d used =>
    simp only [undo, Entry.undoAllowance]
    split
    · rename_i hused
      subst hused
      split
      · exact (BitVec.add_zero _).symm
      · rfl
    · refine (Table.getD_set p.allowances (acc, d, a) (account, delegatee, asset) _ 0).trans ?_
      split
      · rename_i hk
        cases hk
        rfl
      · rfl

theorem feesCollected_undo (asset : Address) :
    (p.undo e).feesCollected asset = e.undoFee asset (p.feesCollected asset) := by
  cases e with
  | deposit => rfl
  | acquire => rfl
  | borrow =>
    simp only [undo]
    split <;> rfl
  | repay a amount fee =>
    exact Table.getD_update p.fees a asset (Word.clampSub · fee) 0 (by simp [Word.clampSub])

theorem balance_undo (account asset : Address) :
    (p.undo e).balance account asset = e.undoAt (account, asset) (p.balance account asset) := by
  cases e with
  | deposit a acc scaled amount enabled =>
    exact Table.getD_update p.balances _ _ _ _ (by simp [Word.clampSub])
  | borrow a acc scaled amount delegatee used =>
    have h := Table.getD_update p.balances (acc, a) (account, asset)
      (fun b => { b with debt := Word.clampSub b.debt scaled }) {} (by simp [Word.clampSub])
    simp only [undo]
    split
    · exact h
    · exact h
  | acquire => rfl
  | repay => rfl

end Undo

theorem undoAll_keeps {α : Type} (read : Pool → α) (h : ∀ p e, read (p.undo e) = read p) (p : Pool)
    (es : List Entry) : read (p.undoAll es) = read p := by
  induction es generalizing p with
  | nil => rfl
  | cons e es ih => exact (ih (p.undo e)).trans (h p e)

section UndoAll
variable (p : Pool) (es : List Entry)

@[simp] theorem undoAll_opened : (p.undoAll es).opened = p.opened :=
  undoAll_keeps (·.opened) undo_opened p es

@[simp] theorem undoAll_journals : (p.undoAll es).journals = p.journals :=
  undoAll_keeps (·.journals) undo_journals p es

@[simp] theorem undoAll_lastTicket : (p.undoAll es).lastTicket = p.lastTicket :=
  undoAll_keeps (·.lastTicket) undo_lastTicket p es

@[simp] theorem undoAll_lastCheckpoint : (p.undoAll es).lastCheckpoint = p.lastCheckpoint :=
  undoAll_keeps (·.lastCheckpoint) undo_lastCheckpoint p es

@[simp] theorem undoAll_assets : (p.undoAll es).assets = p.assets :=
  undoAll_keeps (·.assets) undo_assets p es

@[simp] theorem undoAll_feeBps : (p.undoAll es).feeBps = p.feeBps :=
  undoAll_keeps (·.feeBps) undo_feeBps p es

theorem get?_loans_undoAll (t : Nat) : (p.undoAll es).loans.get? t =
    if t ∈ es.filterMap Entry.ticket? then none else p.loans.get? t := by
  induction es generalizing p with
  | nil => rfl
  | cons e es ih =>
    refine (ih (p.undo e)).trans ?_
    rw [get?_loans_undo]
    by_cases hes : t ∈ es.filterMap Entry.ticket?
    · have hmem : t ∈ (e :: es).filterMap Entry.ticket? := by
        rw [List.filterMap_cons]
        split
        · exact hes
        · exact List.mem_cons_of_mem _ hes
      rw [if_pos hes, if_pos hmem]
    · rw [if_neg hes, List.filterMap_cons]
      cases e.ticket? with
      | none => simp [hes]
      | some s => simp [hes, eq_comm]

theorem balance_undoAll (account asset : Address) : (p.undoAll es).balance account asset =
    es.foldl (fun b e => e.undoAt (account, asset) b) (p.balance account asset) := by
  induction es generalizing p with
  | nil => rfl
  | cons e es ih => rw [List.foldl_cons, ← balance_undo p e account asset]; exact ih (p.undo e)

theorem balance_undoAll_other {account other : Address} (hes : ∀ e ∈ es, e.Concerns account)
    (hother : other ≠ account) (asset : Address) :
    (p.undoAll es).balance other asset = p.balance other asset := by
  induction es generalizing p with
  | nil => rfl
  | cons e es ih =>
    refine (ih (p.undo e) fun e' he' => hes e' (List.mem_cons_of_mem e he')).trans ?_
    rw [balance_undo]
    have he := hes e List.mem_cons_self
    cases e with
    | deposit a acc =>
      have hacc : acc ≠ other := fun h => hother (h ▸ he)
      simp [Entry.undoAt, hacc]
    | borrow a acc =>
      have hacc : acc ≠ other := fun h => hother (h ▸ he)
      simp [Entry.undoAt, hacc]
    | acquire => rfl
    | repay => rfl

end UndoAll

end Pool
end Gearing
