import Gearing.Proofs.Pool.Sound

/-!
Operations carried out one after the other, and what it means that their arithmetic is exact: none of the
sums and products that they store leaves the 256 bits.
-/
namespace Gearing

/-- The amount can be divided by the index, and nothing wraps. -/
def FixedPoint.Divides (index amount : Word) : Prop :=
  index ≠ 0 ∧ amount.toNat * ray.toNat + (index / 2).toNat < 2 ^ 256

namespace Pool
open FixedPoint

/-- Every operation of the list is carried out, one after the other. -/
inductive Carried : Pool → List Op → Pool → Prop
  | nil (p : Pool) : Carried p [] p
  | cons {p q r : Pool} {op : Op} {a : Answer} {ops : List Op} (head : p.Effect op a q)
      (tail : Carried q ops r) : Carried p (op :: ops) r

namespace Carried
variable {p q r : Pool} {ops : List Op}

theorem single {op : Op} {a : Answer} (h : p.Effect op a q) : p.Carried [op] q :=
  .cons h (.nil q)

theorem append {ops' : List Op} (h : p.Carried ops q) (h' : q.Carried ops' r) :
    p.Carried (ops ++ ops') r := by
  induction h with
  | nil p => exact h'
  | cons head tail ih => exact .cons head (ih h')

theorem split {xs ys : List Op} (h : p.Carried (xs ++ ys) r) :
    ∃ q, p.Carried xs q ∧ q.Carried ys r := by
  induction xs generalizing p with
  | nil => exact ⟨p, .nil p, h⟩
  | cons op xs ih =>
    cases h with
    | cons head tail =>
      obtain ⟨q, hxs, hys⟩ := ih tail
      exact ⟨q, .cons head hxs, hys⟩

theorem sound (h : p.Carried ops q) (hp : p.Sound) : q.Sound := by
  induction h with
  | nil p => exact hp
  | cons head tail ih => exact ih (head.sound hp)

theorem history_eq (h : p.Carried ops q) : p.history ops = q := by
  induction h with
  | nil p => rfl
  | @cons p q r op a ops head tail ih =>
    show (p.after op).history ops = r
    rw [after_of_effect head, ih]

theorem assets_eq (h : p.Carried ops q) (hops : ∀ r, .list r ∉ ops) : q.assets = p.assets := by
  induction h with
  | nil p => rfl
  | cons head tail ih =>
    have htail := ih fun r hr => hops r (List.mem_cons_of_mem _ hr)
    exact htail.trans (head.assets_eq fun r hr => hops r (hr ▸ List.mem_cons_self))

theorem feeBps_eq (h : p.Carried ops q) : q.feeBps = p.feeBps := by
  induction h with
  | nil p => rfl
  | cons head tail ih => exact ih.trans head.feeBps_eq

theorem opened {account : Address} (h : p.Carried (.checkpoint account :: ops) q) :
    p.opened.get? account = none ∧ (p.openJournal account).Carried ops q := by
  cases h with
  | cons head tail =>
    cases head with
    | checkpoint closed => exact ⟨closed, tail⟩

end Carried

/-- The arithmetic of the operation on this pool stays within 256 bits. -/
def Op.Exact (op : Op) (p : Pool) : Prop :=
  match op with
  | .supply asset amount =>
    ∀ r ∈ p.reserve? asset, r.liquidity.toNat + amount.toNat < 2 ^ 256
  | .deposit asset amount account =>
    ∀ r ∈ p.reserve? asset,
      r.liquidity.toNat + amount.toNat < 2 ^ 256 ∧
      amount.toNat * ray.toNat + (r.liquidityIndex / 2).toNat < 2 ^ 256 ∧
      (p.balance account asset).deposit.toNat + (share amount r.liquidityIndex).toNat < 2 ^ 256
  | .borrow asset amount _ account =>
    ∀ r ∈ p.reserve? asset,
      amount.toNat * ray.toNat + (r.borrowIndex / 2).toNat < 2 ^ 256 ∧
      (p.balance account asset).debt.toNat + (share amount r.borrowIndex).toNat < 2 ^ 256
  | .acquire _ amount _ => amount.toNat * p.feeBps < 2 ^ 256
  | .repay ticket _ =>
    ∀ loan ∈ p.loans.get? ticket,
      loan.amount.toNat + loan.fee.toNat < 2 ^ 256 ∧
      (p.feesCollected loan.asset).toNat + loan.fee.toNat < 2 ^ 256 ∧
      ∀ r ∈ p.reserve? loan.asset,
        r.liquidity.toNat + (loan.amount + loan.fee).toNat < 2 ^ 256
  | .wrap amount => p.wrapped.toNat + amount.toNat < 2 ^ 256
  | _ => True

instance (op : Op) (p : Pool) : Decidable (op.Exact p) :=
  match op with
  | .list _ | .updateReserve .. | .approve .. | .checkpoint _ | .revert _ | .commit _ | .unwrap _ =>
    inferInstanceAs (Decidable True)
  | .supply .. | .deposit .. | .borrow .. | .repay .. =>
    inferInstanceAs (Decidable (∀ a ∈ _, _))
  | .acquire .. | .wrap _ => inferInstanceAs (Decidable (_ < _))

section Divisions
variable {p q : Pool} {a : Answer} {asset delegatee account : Address} {amount : Word} {r : Reserve}

theorem Effect.divides_deposit (h : p.Effect (.deposit asset amount account) a q)
    (hr : p.reserve? asset = some r) (hexact : Op.Exact (.deposit asset amount account) p) :
    Divides r.liquidityIndex amount := by
  cases h with
  | deposit listed _ index =>
    rw [listed] at hr
    cases hr
    exact ⟨index, (hexact _ listed).2.1⟩

theorem Effect.divides_borrow (h : p.Effect (.borrow asset amount delegatee account) a q)
    (hr : p.reserve? asset = some r) (hexact : Op.Exact (.borrow asset amount delegatee account) p) :
    Divides r.borrowIndex amount := by
  cases h with
  | borrow listed _ _ _ index | borrowFor listed _ _ _ index =>
    rw [listed] at hr
    cases hr
    exact ⟨index, (hexact _ listed).1⟩

end Divisions

/-- The arithmetic of each operation stays within 256 bits on the pool that it finds. -/
def Exact (p : Pool) : List Op → Prop
  | [] => True
  | op :: ops => op.Exact p ∧ (p.after op).Exact ops

instance decidableExact : (p : Pool) → (ops : List Op) → Decidable (p.Exact ops)
  | _, [] => isTrue trivial
  | p, op :: ops =>
    have := decidableExact (p.after op) ops
    inferInstanceAs (Decidable (op.Exact p ∧ (p.after op).Exact ops))

theorem exact_append (p : Pool) (xs ys : List Op) :
    p.Exact (xs ++ ys) ↔ p.Exact xs ∧ (p.history xs).Exact ys := by
  induction xs generalizing p with
  | nil => exact ⟨fun h => ⟨trivial, h⟩, fun h => h.2⟩
  | cons op xs ih =>
    have htail := ih (p.after op)
    constructor
    · rintro ⟨hop, hrest⟩
      obtain ⟨hxs, hys⟩ := htail.mp hrest
      exact ⟨⟨hop, hxs⟩, hys⟩
    · rintro ⟨⟨hop, hxs⟩, hys⟩
      exact ⟨hop, htail.mpr ⟨hxs, hys⟩⟩

end Pool
end Gearing
