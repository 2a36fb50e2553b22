import Gearing.Proofs.Matches
import Gearing.Proofs.Pool.Snapshot
import Mathlib.Data.BitVec

/-!
A pool beside one that has more to lend. What is done for an account goes the same way on both, unless the
poorer one runs out of liquidity, and no operation makes up the difference.
-/
namespace Gearing.Pool
open Gearing.Action FixedPoint

/-- The pool with `extra` more to lend on each reserve. -/
def enrich (p : Pool) (extra : Address → Word) : Pool :=
  { p with reserves := p.reserves.map fun r => { r with liquidity := r.liquidity + extra r.asset } }

theorem assets_enrich (p : Pool) (extra : Address → Word) : (p.enrich extra).assets = p.assets := by
  rw [assets, enrich, List.map_map]
  rfl

theorem reserve?_enrich (p : Pool) (extra : Address → Word) (c : Address) : (p.enrich extra).reserve? c =
    (p.reserve? c).map fun r => { r with liquidity := r.liquidity + extra c } := by
  have hsame : ((fun r : Reserve => decide (r.asset = c)) ∘
      fun r : Reserve => { r with liquidity := r.liquidity + extra r.asset }) =
        fun r => decide (r.asset = c) := rfl
  rw [reserve?, enrich, List.find?_map, hsame]
  refine Option.map_congr fun r hr => ?_
  have hasset : r.asset = c := asset_of_reserve? hr
  rw [hasset]

/-- `q` has `extra` more to lend than `p`, and shows the account the same otherwise. -/
structure Richer (account : Address) (extra : Address → Word) (p q : Pool) : Prop where
  reserves : q.reserves = (p.enrich extra).reserves
  fits : ∀ c r, p.reserve? c = some r → r.liquidity.toNat + (extra c).toNat < 2 ^ 256
  balance : ∀ c, q.balance account c = p.balance account c
  allowance : ∀ d c, q.allowance account d c = p.allowance account d c
  feeBps : q.feeBps = p.feeBps

/-- The halt of an operation that found too little to lend. -/
def Short (e : Halt PoolError) : Prop :=
  ∃ asset asked free, e = .refused (.insufficientLiquidity asset asked free)

namespace Richer
variable {account asset : Address} {extra : Address → Word} {p q : Pool}

theorem reserve? (h : Richer account extra p q) (c : Address) :
    q.reserve? c = (p.reserve? c).map fun r => { r with liquidity := r.liquidity + extra c } := by
  rw [← reserve?_enrich, Pool.reserve?, Pool.reserve?, h.reserves]

theorem snapshot (h : Richer account extra p q) : q.snapshot account = p.snapshot account := by
  have hholding : q.holding? account ∘
      (fun r : Reserve => { r with liquidity := r.liquidity + extra r.asset }) = p.holding? account := by
    funext r
    rw [Function.comp, holding?, holding?, totals, totals, h.balance]
  rw [Pool.snapshot, Pool.snapshot, h.reserves, enrich, List.filterMap_map, hholding]

theorem flashFee (h : Richer account extra p q) (amount : Word) :
    q.flashFee amount = p.flashFee amount := by
  rw [Pool.flashFee, Pool.flashFee, h.feeBps]

theorem mapLiquidity (h : Richer account extra p q) {f : Word → Word} (hf : ∀ l e, f (l + e) = f l + e)
    (hfits : ∀ r, p.reserve? asset = some r →
      (f r.liquidity).toNat + (extra asset).toNat < 2 ^ 256) :
    Richer account extra (p.mapLiquidity asset f) (q.mapLiquidity asset f) where
  reserves := by
    simp only [Pool.mapLiquidity, mapReserve, h.reserves, enrich, List.map_map]
    refine List.map_congr_left fun r _ => ?_
    by_cases hr : r.asset = asset
    · simp only [Function.comp, if_pos hr, hf]
    · simp only [Function.comp, if_neg hr]
  fits c r hr := by
    rw [reserve?_mapLiquidity] at hr
    obtain ⟨r₀, hr₀, rfl⟩ := Option.map_eq_some_iff.mp hr
    split
    · rename_i hasset
      obtain rfl : c = asset := (asset_of_reserve? hr₀).symm.trans hasset
      exact hfits r₀ hr₀
    · exact h.fits c r₀ hr₀
  balance := h.balance
  allowance := h.allowance
  feeBps := h.feeBps

theorem addLiquidity (h : Richer account extra p q) {amount : Word}
    (hexact : ∀ r, q.reserve? asset = some r → r.liquidity.toNat + amount.toNat < 2 ^ 256) :
    Richer account extra (p.addLiquidity asset amount) (q.addLiquidity asset amount) := by
  refine h.mapLiquidity (fun l e => add_right_comm l e amount) fun r hr => ?_
  have hfits := h.fits asset r hr
  have hroom := hexact { r with liquidity := r.liquidity + extra asset } (by rw [h.reserve?, hr]; rfl)
  have hmore : (r.liquidity + extra asset).toNat = r.liquidity.toNat + (extra asset).toNat :=
    toNat_add_of_lt hfits
  rw [hmore] at hroom
  rw [toNat_add_of_lt (by omega)]
  omega

theorem takeLiquidity (h : Richer account extra p q) {amount : Word}
    (hliquid : ∀ r, p.reserve? asset = some r → amount ≤ r.liquidity) :
    Richer account extra (p.takeLiquidity asset amount) (q.takeLiquidity asset amount) := by
  refine h.mapLiquidity (fun l e => add_sub_right_comm l e amount) fun r hr => ?_
  have hfits := h.fits asset r hr
  rw [BitVec.toNat_sub_of_le (hliquid r hr)]
  omega

theorem liquid (h : Richer account extra p q) {r : Reserve} {amount : Word}
    (hr : p.reserve? asset = some r) (hliquid : amount ≤ r.liquidity) :
    amount ≤ r.liquidity + extra asset := by
  rw [BitVec.le_def, toNat_add_of_lt (h.fits asset r hr)]
  exact (BitVec.le_def.mp hliquid).trans (Nat.le_add_right _ _)

theorem setBalance (h : Richer account extra p q) (b : Balance) :
    Richer account extra (p.setBalance account asset b) (q.setBalance account asset b) where
  reserves := h.reserves
  fits := h.fits
  balance c := by rw [balance_setBalance, balance_setBalance, h.balance]
  allowance := h.allowance
  feeBps := h.feeBps

theorem setAllowance (h : Richer account extra p q) (delegatee : Address) (amount : Word) :
    Richer account extra (p.setAllowance account delegatee asset amount)
      (q.setAllowance account delegatee asset amount) where
  reserves := h.reserves
  fits := h.fits
  balance := h.balance
  allowance d c := by
    have hsame := h.allowance d c
    rw [Pool.allowance, Pool.allowance] at hsame
    rw [Pool.allowance, Pool.allowance, Pool.setAllowance, Pool.setAllowance, Table.getD_set,
      Table.getD_set, hsame]
  feeBps := h.feeBps

theorem record (h : Richer account extra p q) (a : Address) (e e' : Entry) :
    Richer account extra (p.record a e) (q.record a e') := by
  rw [record_eq, record_eq]
  exact ⟨h.reserves, h.fits, h.balance, h.allowance, h.feeBps⟩

theorem fees (h : Richer account extra p q) (fs fs' : Table Address Word) :
    Richer account extra { p with fees := fs } { q with fees := fs' } :=
  ⟨h.reserves, h.fits, h.balance, h.allowance, h.feeBps⟩

theorem loans (h : Richer account extra p q) (ls ls' : Table Nat Loan) (n n' : Nat) :
    Richer account extra { p with loans := ls, lastTicket := n } { q with loans := ls', lastTicket := n' } :=
  ⟨h.reserves, h.fits, h.balance, h.allowance, h.feeBps⟩

end Richer

section Programs
variable {account asset : Address} {extra : Address → Word} {p q : Pool}

theorem reserve_of_unlisted (h : p.reserve? asset = none) :
    reserve asset p = .error (.refused (.unknownReserve asset)) p := by
  simp only [reserve, run_bind, run_get, h]
  rfl

theorem reserve_matches (h : Richer account extra p q) (asset : Address) :
    Matches Short (reserve asset) (reserve asset)
      (fun r p' r' q' => p' = p ∧ q' = q ∧ p.reserve? asset = some r ∧
        r' = { r with liquidity := r.liquidity + extra asset }) p q := by
  have hq := h.reserve? asset
  cases hr : p.reserve? asset with
  | none =>
    rw [hr] at hq
    exact matches_of_error (reserve_of_unlisted hr) (reserve_of_unlisted hq)
  | some r =>
    rw [hr] at hq
    exact matches_of_ok (reserve_of_listed hr) (reserve_of_listed hq) ⟨rfl, rfl, rfl, rfl⟩

theorem activeReserve_matches (h : Richer account extra p q) (asset : Address) :
    Matches Short (activeReserve asset) (activeReserve asset)
      (fun r p' r' q' => p' = p ∧ q' = q ∧ p.reserve? asset = some r ∧
        r' = { r with liquidity := r.liquidity + extra asset }) p q := by
  refine (reserve_matches h asset).bind fun r p' r' q' hr => ?_
  obtain ⟨rfl, rfl, hr, rfl⟩ := hr
  dsimp only
  split
  · exact matches_pure ⟨rfl, rfl, hr, rfl⟩
  · exact matches_refuse

theorem position_matches (h : Richer account extra p q) (asset : Address) :
    Matches Short (position account asset) (position account asset)
      (fun found p' found' q' => p' = p ∧ q' = q ∧ found' = found) p q := by
  refine (reserve_matches h asset).bind fun r _ _ _ hr => ?_
  obtain ⟨rfl, rfl, hr, rfl⟩ := hr
  refine matches_get_bind (matches_pure ⟨rfl, rfl, ?_⟩)
  rw [h.balance]

theorem borrowAllowance_matches (h : Richer account extra p q) (delegatee asset : Address) :
    Matches Short (borrowAllowance account delegatee asset) (borrowAllowance account delegatee asset)
      (fun allowed p' allowed' q' => p' = p ∧ q' = q ∧ allowed' = allowed) p q := by
  refine (reserve_matches h asset).bind fun r _ _ _ hr => ?_
  obtain ⟨rfl, rfl, hr, rfl⟩ := hr
  exact matches_get_bind (matches_pure ⟨rfl, rfl, h.allowance delegatee asset⟩)

theorem checkpoint_matches (h : Richer account extra p q)
    (hopened : q.opened.get? account = none ↔ p.opened.get? account = none) :
    Matches Short (checkpoint account) (checkpoint account)
      (fun id p' id' q' => p.Effect (.checkpoint account) (.checkpoint id) p' ∧
        q.Effect (.checkpoint account) (.checkpoint id') q' ∧ Richer account extra p' q') p q := by
  refine matches_get_bind ?_
  have hsame : q.opened.contains account = p.opened.contains account := by
    rw [Table.contains, Table.contains, Bool.eq_iff_iff, Option.isSome_iff_ne_none,
      Option.isSome_iff_ne_none, ne_eq, hopened]
  rw [hsame]
  split
  · exact matches_refuse
  · rename_i hclosed
    have hp : p.opened.get? account = none := by simpa [Table.contains] using hclosed
    exact matches_of_ok rfl rfl ⟨.checkpoint hp, .checkpoint (hopened.mpr hp), h.reserves, h.fits, h.balance,
      h.allowance, h.feeBps⟩

theorem deposit_matches (h : Richer account extra p q) (asset : Address) (amount : Word) :
    Matches Short (deposit asset amount account) (deposit asset amount account)
      (fun _ p' _ q' => (p'.loans = p.loans ∧ q'.loans = q.loans) ∧
        (Op.Exact (.deposit asset amount account) q → Richer account extra p' q')) p q := by
  refine (activeReserve_matches h asset).bind fun r _ _ _ hr => ?_
  obtain ⟨rfl, rfl, hr, rfl⟩ := hr
  refine matches_ofTrap_bind fun scaled _ => ?_
  refine matches_modify ⟨⟨record_loans .., record_loans ..⟩, fun hexact => ?_⟩
  rw [credit, credit, h.balance]
  exact ((h.addLiquidity fun r hr => (hexact r hr).1).setBalance _).record _ _ _

theorem spendAllowance_matches (h : Richer account extra p q) (delegatee asset : Address)
    (amount : Word) :
    Matches Short (spendAllowance account delegatee asset amount)
      (spendAllowance account delegatee asset amount)
      (fun used p' used' q' => used' = used ∧ Richer account extra p' q' ∧
        (p'.loans = p.loans ∧ q'.loans = q.loans) ∧ p'.reserves = p.reserves) p q := by
  unfold spendAllowance
  split
  · exact matches_pure ⟨rfl, h, ⟨rfl, rfl⟩, rfl⟩
  refine matches_get_bind ?_
  dsimp only
  rw [h.allowance]
  split
  · exact matches_refuse
  · exact matches_of_ok rfl rfl ⟨rfl, h.setAllowance delegatee _, ⟨rfl, rfl⟩, rfl⟩

theorem borrow_matches (h : Richer account extra p q) (asset : Address) (amount : Word)
    (delegatee : Address) :
    Matches Short (borrow asset amount delegatee account) (borrow asset amount delegatee account)
      (fun _ p' _ q' => (p'.loans = p.loans ∧ q'.loans = q.loans) ∧ Richer account extra p' q') p q := by
  refine (activeReserve_matches h asset).bind fun r _ _ _ hr => ?_
  obtain ⟨rfl, rfl, hr, rfl⟩ := hr
  dsimp only
  split
  · exact matches_refuse
  split
  · exact matches_of_excused rfl ⟨_, _, _, rfl⟩
  rename_i hfree
  have hliquid : amount ≤ r.liquidity := BitVec.not_lt.mp hfree
  rw [if_neg (BitVec.not_lt.mpr (h.liquid hr hliquid))]
  refine matches_ofTrap_bind fun scaled _ => (spendAllowance_matches h delegatee asset amount).bind ?_
  rintro used p' _ q' ⟨rfl, hspent, hloans, hreserves⟩
  refine matches_modify ⟨⟨(record_loans ..).trans hloans.1, (record_loans ..).trans hloans.2⟩, ?_⟩
  rw [debit, debit, hspent.balance]
  refine ((hspent.takeLiquidity fun r' hr' => ?_).setBalance _).record _ _ _
  rw [Pool.reserve?, hreserves] at hr'
  obtain rfl : r = r' := Option.some.inj (hr.symm.trans hr')
  exact hliquid

theorem acquire_matches (h : Richer account extra p q) (asset : Address) (amount : Word) :
    Matches Short (acquire asset amount account) (acquire asset amount account)
      (fun t p' t' q' => t = p.nextTicket asset amount ∧ t' = q.nextTicket asset amount ∧
        p'.loans = p.loans.set t.id ⟨asset, amount, t.fee, account⟩ ∧
        q'.loans = q.loans.set t'.id ⟨asset, amount, t'.fee, account⟩ ∧
        Richer account extra p' q') p q := by
  refine (activeReserve_matches h asset).bind fun r p₀ _ _ hr => ?_
  obtain ⟨rfl, rfl, hr, rfl⟩ := hr
  dsimp only
  split
  · exact matches_of_excused rfl ⟨_, _, _, rfl⟩
  rename_i hfree
  have hliquid : amount ≤ r.liquidity := BitVec.not_lt.mp hfree
  rw [if_neg (BitVec.not_lt.mpr (h.liquid hr hliquid))]
  refine matches_of_ok rfl rfl ⟨rfl, rfl, record_loans .., record_loans .., ?_⟩
  refine ((h.takeLiquidity fun r' hr' => ?_).loans _ _ _ _).record _ _ _
  obtain rfl : r = r' := Option.some.inj (hr.symm.trans hr')
  exact hliquid

theorem repay_matches (h : Richer account extra p q) {ticket ticket' : Nat} {loan : Loan} {paid : Word}
    (hloan : p.loans.get? ticket = some loan) (hloan' : q.loans.get? ticket' = some loan)
    (henough : loan.amount + loan.fee ≤ paid) :
    Matches Short (repay ticket paid) (repay ticket' paid)
      (fun _ p' _ q' => Op.Exact (.repay ticket' paid) q → Richer account extra p' q') p q := by
  refine matches_get_bind ?_
  rw [hloan, hloan']
  dsimp only
  rw [if_neg (BitVec.not_lt.mpr henough), if_neg (BitVec.not_lt.mpr henough)]
  have herased : Richer account extra { p with loans := p.loans.erase ticket }
      { q with loans := q.loans.erase ticket' } := h.loans _ _ _ _
  refine matches_set_bind ((reserve_matches herased loan.asset).bind fun _ _ _ _ hr => ?_)
  obtain ⟨rfl, rfl, -, rfl⟩ := hr
  refine matches_modify fun hexact => ?_
  exact (herased.addLiquidity fun r hr => (hexact loan hloan').2.2 r hr).fees _ _ |>.record _ _ _

end Programs
end Gearing.Pool
