import Gearing.Proofs.Pool.Exact
import Gearing.Proofs.Word

/-!
What an account's snapshot depends on: the balances, and the reserves up to their liquidity. Flash
liquidity, checkpoints and their commits are not seen in it.
-/
namespace Gearing

namespace FixedPoint
variable {a b index : Word}

theorem toNat_rayMul (h : a.toNat * index.toNat + (ray / 2).toNat < 2 ^ 256) :
    (rayMul a index).toNat = (a.toNat * index.toNat + (ray / 2).toNat) / ray.toNat := by
  have hproduct : (a * index).toNat = a.toNat * index.toNat := toNat_mul_of_lt (by omega)
  have hsum : (a * index + ray / 2).toNat = a.toNat * index.toNat + (ray / 2).toNat := by
    rw [toNat_add_of_lt (by rw [hproduct]; exact h), hproduct]
  rw [rayMul, BitVec.toNat_udiv, hsum]

theorem rayMul_ray (h : a.toNat * ray.toNat + (ray / 2).toNat < 2 ^ 256) : rayMul a ray = a := by
  have hhalf : (ray / 2).toNat < ray.toNat := by decide
  have hpos : 0 < ray.toNat := by decide
  apply BitVec.eq_of_toNat_eq
  rw [toNat_rayMul h, Nat.mul_comm, Nat.mul_add_div hpos, Nat.div_eq_of_lt hhalf, Nat.add_zero]

theorem rayMul_mono (hle : a ≤ b) (h : b.toNat * index.toNat + (ray / 2).toNat < 2 ^ 256) :
    rayMul a index ≤ rayMul b index := by
  have hproduct : a.toNat * index.toNat ≤ b.toNat * index.toNat :=
    Nat.mul_le_mul_right _ (BitVec.le_def.mp hle)
  have hsum := Nat.add_le_add_right hproduct (ray / 2).toNat
  rw [BitVec.le_def, toNat_rayMul h, toNat_rayMul (hsum.trans_lt h)]
  exact Nat.div_le_div_right hsum

theorem rayMul_zero (index : Word) : rayMul 0 index = 0 := by
  have hproduct : (0 : Word) * index = 0 := BitVec.zero_mul
  rw [rayMul, hproduct]
  decide

end FixedPoint

namespace Pool
variable {p q : Pool}

theorem snapshot_congr (hreserves : q.reserves = p.reserves) (hbalances : q.balances = p.balances)
    (account : Address) : q.snapshot account = p.snapshot account := by
  have hholding : q.holding? account = p.holding? account := by
    funext r
    have hbalance : q.balance account r.asset = p.balance account r.asset := by
      rw [balance, balance, hbalances]
    rw [holding?, holding?, totals, totals, hbalance]
  rw [snapshot, snapshot, hreserves, hholding]

theorem snapshot_mapLiquidity (p : Pool) (asset : Address) (f : Word → Word) (account : Address) :
    (p.mapLiquidity asset f).snapshot account = p.snapshot account := by
  have hholding : p.holding? account ∘
      (fun r => if r.asset = asset then { r with liquidity := f r.liquidity } else r) =
        p.holding? account := by
    funext r
    by_cases h : r.asset = asset
    · simp only [Function.comp, if_pos h]
      rfl
    · simp only [Function.comp, if_neg h]
  show Snapshot.mk account ((p.reserves.map _).filterMap (p.holding? account)) = _
  rw [List.filterMap_map, hholding, snapshot]

theorem snapshot_record (p : Pool) (account : Address) (e : Entry) (a : Address) :
    (p.record account e).snapshot a = p.snapshot a :=
  snapshot_congr (record_reserves ..) (record_balances ..) a

/-- Operations that no snapshot sees. -/
def Op.Unseen : Op → Prop
  | .supply .. | .approve .. | .checkpoint _ | .commit _ | .acquire .. | .repay .. | .wrap _ |
    .unwrap _ => True
  | _ => False

theorem Effect.snapshot_eq {op : Op} {a : Answer} (h : p.Effect op a q) (hop : op.Unseen)
    (account : Address) : q.snapshot account = p.snapshot account := by
  cases h with
  | list | updateReserve | deposit | borrow | borrowFor | revert => exact hop.elim
  | supply => exact snapshot_mapLiquidity ..
  | approve | checkpoint | commit | wrap | unwrap => exact snapshot_congr rfl rfl account
  | acquire =>
    rw [issue, snapshot_record]
    exact snapshot_mapLiquidity p _ (· - _) account
  | repay =>
    rw [redeem, snapshot_record]
    exact snapshot_mapLiquidity p _ (· + _) account

theorem Carried.snapshot_eq {ops : List Op} (h : p.Carried ops q) (hops : ∀ op ∈ ops, op.Unseen)
    (account : Address) : q.snapshot account = p.snapshot account := by
  induction h with
  | nil p => rfl
  | cons head tail ih =>
    have htail := ih fun op hop => hops op (List.mem_cons_of_mem _ hop)
    exact htail.trans (head.snapshot_eq (hops _ List.mem_cons_self) account)

/-- Reading the account's totals on the reserve does not wrap. -/
def ExactTotals (p : Pool) (account : Address) (r : Reserve) : Prop :=
  (p.balance account r.asset).deposit.toNat * r.liquidityIndex.toNat + (FixedPoint.ray / 2).toNat <
      2 ^ 256 ∧
    (p.balance account r.asset).debt.toNat * r.borrowIndex.toNat + (FixedPoint.ray / 2).toNat < 2 ^ 256

instance (p : Pool) (account : Address) (r : Reserve) : Decidable (p.ExactTotals account r) :=
  inferInstanceAs (Decidable (_ ∧ _))

theorem mem_holdings {account : Address} {h : Holding} (hmem : h ∈ (p.snapshot account).holdings) :
    ∃ r ∈ p.reserves, h.collateral = (p.totals account r).1 ∧ h.debt = (p.totals account r).2 ∧
      h.price = r.price ∧ h.decimals = r.decimals ∧ h.ltvBps = r.ltvBps ∧
      h.liquidationThresholdBps = r.liquidationThresholdBps ∧
      h.collateralEnabled = (p.balance account r.asset).collateral := by
  obtain ⟨r, hr, hholding⟩ := List.mem_filterMap.mp hmem
  refine ⟨r, hr, ?_⟩
  rw [holding?] at hholding
  split at hholding
  · cases hholding
  · cases hholding
    exact ⟨rfl, rfl, rfl, rfl, rfl, rfl, rfl⟩

theorem holdings_of_alone {account asset : Address} {r : Reserve} (hnodup : p.assets.Nodup)
    (hr : p.reserve? asset = some r)
    (halone : ∀ c, asset ≠ c → (p.balance account c).deposit = 0 ∧ (p.balance account c).debt = 0) :
    (p.snapshot account).holdings = (p.holding? account r).toList := by
  have hother : ∀ c ∈ p.reserves, c ≠ r → p.holding? account c = none := by
    intro c hc hne
    refine if_pos (halone c.asset fun hasset => hne ?_)
    exact eq_of_mem_reserves hnodup hc (mem_of_reserve? hr) (hasset.symm.trans (asset_of_reserve? hr).symm)
  have hreserves : p.reserves.Nodup := List.Nodup.of_map _ hnodup
  obtain ⟨xs, ys, hsplit⟩ := List.append_of_mem (mem_of_reserve? hr)
  rw [hsplit] at hother hreserves
  obtain ⟨hfresh, -⟩ := List.nodup_cons.mp (List.nodup_middle.mp hreserves)
  have hnone : ∀ zs : List Reserve, (∀ c ∈ zs, c ∈ xs ++ ys) → zs.filterMap (p.holding? account) = [] := by
    intro zs hzs
    refine List.filterMap_eq_nil_iff.mpr fun c hc => ?_
    have hmem := hzs c hc
    refine hother c (by simp at hmem ⊢; tauto) ?_
    rintro rfl
    exact hfresh hmem
  show p.reserves.filterMap (p.holding? account) = _
  rw [hsplit, List.filterMap_append, List.filterMap_cons, hnone xs fun c => List.mem_append_left _,
    hnone ys fun c => List.mem_append_right _]
  cases p.holding? account r <;> rfl

end Pool
end Gearing
