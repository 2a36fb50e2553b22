import Gearing.Proofs.Pool.Noted
import Gearing.Proofs.Table

/-!
The sums that the books of a reserve are made of: what is free to lend, what is lent out at flash, and the
columns of the balances over all accounts. What an entry moves for one account moves the column by as much.
-/
namespace Gearing.Pool

/-- The liquidity of an asset as a number, zero where it is not listed. -/
def free (p : Pool) (c : Address) : Nat := ((p.reserve? c).map (·.liquidity.toNat)).getD 0

/-- What a loan weighs in the sum over an asset. -/
def lentOn (c : Address) (loan : Loan) : Nat := if loan.asset = c then loan.amount.toNat else 0

/-- The sum of the flash loans that are out on an asset. -/
def outstanding (p : Pool) (c : Address) : Nat := p.loans.total fun _ loan => lentOn c loan

/-- The sum of those under the given tickets. -/
def outstandingAmong (p : Pool) (tickets : List Nat) (c : Address) : Nat :=
  p.loans.total fun t loan => if t ∈ tickets then lentOn c loan else 0

/-- The sum of one number of the balances over all accounts of an asset. -/
def column (p : Pool) (read : Balance → Nat) (c : Address) : Nat :=
  p.balances.total fun k b => if k.2 = c then read b else 0

def totalDeposit (p : Pool) (c : Address) : Nat := p.column (·.deposit.toNat) c

def totalDebt (p : Pool) (c : Address) : Nat := p.column (·.debt.toNat) c

section
variable {p q : Pool} {c : Address}

theorem free_of_reserve? {r : Reserve} (h : p.reserve? c = some r) : p.free c = r.liquidity.toNat := by
  rw [free, h]
  rfl

theorem free_eq_of_reserves (h : q.reserves = p.reserves) (c : Address) : q.free c = p.free c := by
  rw [free, free, reserve?, reserve?, h]

theorem outstanding_congr (h : ∀ t, q.loans.get? t = p.loans.get? t) (c : Address) :
    q.outstanding c = p.outstanding c :=
  Table.total_congr fun t => by rw [Table.weight, Table.weight, h]

theorem outstanding_of_gone {tickets : List Nat}
    (h : ∀ t, q.loans.get? t = if t ∈ tickets then none else p.loans.get? t) (c : Address) :
    q.outstanding c + p.outstandingAmong tickets c = p.outstanding c := by
  refine Table.total_add fun t => ?_
  rw [Table.weight, Table.weight, Table.weight, h]
  by_cases ht : t ∈ tickets
  · rw [if_pos ht]
    cases p.loans.get? t with
    | none => rfl
    | some loan => simp [ht]
  · rw [if_neg ht]
    cases p.loans.get? t with
    | none => rfl
    | some loan => simp [ht]

theorem weight_balance {read : Balance → Nat} (hread : read {} = 0) (k : Address × Address) :
    p.balances.weight (fun k b => if k.2 = c then read b else 0) k =
      if k.2 = c then read (p.balance k.1 k.2) else 0 := by
  rw [Table.weight, balance, Table.getD]
  cases p.balances.get? k with
  | some b => rfl
  | none =>
    show 0 = if k.2 = c then read {} else 0
    rw [hread, ite_self]

theorem column_congr {read : Balance → Nat} (hread : read {} = 0)
    (h : ∀ a c, read (q.balance a c) = read (p.balance a c)) (c : Address) :
    q.column read c = p.column read c :=
  Table.total_congr fun k => by rw [weight_balance hread, weight_balance hread, h]

theorem column_of_off {read : Balance → Nat} (hread : read {} = 0) (account asset : Address) (n : Nat)
    (hkey : read (q.balance account asset) = read (p.balance account asset) + n)
    (h : ∀ a c, (account, asset) ≠ (a, c) → read (q.balance a c) = read (p.balance a c)) (c : Address) :
    q.column read c = p.column read c + if asset = c then n else 0 := by
  have hoff := Table.total_of_off (s := q.balances) (t := p.balances)
    (w := fun k b => if k.2 = c then read b else 0) (account, asset) fun k hk => by
      rw [weight_balance hread, weight_balance hread, h k.1 k.2 hk]
  rw [weight_balance hread, weight_balance hread] at hoff
  dsimp only at hoff
  rw [hkey] at hoff
  rw [column, column]
  split
  · rw [if_pos ‹_›, if_pos ‹_›] at hoff
    omega
  · rw [if_neg ‹_›, if_neg ‹_›] at hoff
    omega

end

namespace Counted
variable {p q : Pool} {e : Entry} {account : Address}

theorem totalDeposit (h : Counted e p q) (he : e.Concerns account) (c : Address) :
    q.totalDeposit c = p.totalDeposit c + if e.asset = c then e.flow.supplied else 0 := by
  refine column_of_off rfl account e.asset _ ?_ (fun a c' hne => ?_) c
  · rw [h.deposit, e.supplied_eq he, if_pos rfl]
  · rw [h.deposit, e.supplied_eq he, if_neg hne, Nat.add_zero]

theorem totalDebt (h : Counted e p q) (he : e.Concerns account) (c : Address) :
    q.totalDebt c = p.totalDebt c + if e.asset = c then e.flow.owed else 0 := by
  refine column_of_off rfl account e.asset _ ?_ (fun a c' hne => ?_) c
  · rw [h.debt, e.owed_eq he, if_pos rfl]
  · rw [h.debt, e.owed_eq he, if_neg hne, Nat.add_zero]

theorem free (h : Counted e p q) {c : Address} (hc : c ∈ p.assets) :
    q.free c + e.paidOut c = p.free c + e.paidIn c := by
  obtain ⟨r, hr⟩ := Option.isSome_iff_exists.mp ((p.isSome_reserve? c).mpr hc)
  obtain ⟨l, hl, hsum⟩ := h.liquidity c r hr
  rw [free_of_reserve? hl, free_of_reserve? hr]
  exact hsum

end Counted
end Gearing.Pool
