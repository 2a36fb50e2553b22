import Gearing.Table
import Mathlib.Algebra.BigOperators.Group.Finset.Basic
import Mathlib.Algebra.GroupWithZero.Nat

/-!
Sums over the entries of a table. An absent entry weighs nothing, so a sum depends on the weights under the
keys alone, and a write under one key changes it by the weight under that key.
-/
namespace Gearing.Table
variable {κ α : Type} [DecidableEq κ]

def total (w : κ → α → Nat) (t : Table κ α) : Nat := (t.entries.map fun e => w e.1 e.2).sum

/-- What the entry under a key weighs, if there is one. -/
def weight (w : κ → α → Nat) (t : Table κ α) (k : κ) : Nat := (t.get? k).elim 0 (w k)

variable (w : κ → α → Nat) (t : Table κ α)

theorem weight_of_entry {e : κ × α} (he : e ∈ t.entries) : t.weight w e.1 = w e.1 e.2 := by
  rw [weight, t.get?_eq_some_iff.mpr he]
  rfl

theorem get?_eq_none_of_key {k : κ} (hk : k ∉ t.entries.map Prod.fst) : t.get? k = none := by
  cases h : t.get? k with
  | none => rfl
  | some a => exact absurd (List.mem_map_of_mem (t.get?_eq_some_iff.mp h)) hk

theorem total_eq_sum (s : Finset κ) (hs : ∀ k ∈ t.entries.map Prod.fst, k ∈ s) :
    t.total w = ∑ k ∈ s, t.weight w k := by
  have hkeys : t.total w = ((t.entries.map Prod.fst).map (t.weight w)).sum := by
    rw [total, List.map_map]
    exact congrArg List.sum (List.map_congr_left fun e he => (t.weight_of_entry w he).symm)
  rw [hkeys, ← List.sum_toFinset _ t.nodup]
  refine Finset.sum_subset (fun k hk => hs k (List.mem_toFinset.mp hk)) fun k _ hk => ?_
  rw [weight, t.get?_eq_none_of_key fun hmem => hk (List.mem_toFinset.mpr hmem)]
  rfl

variable {w t} {s : Table κ α}

theorem exists_keys (s t : Table κ α) (ks : Finset κ) : ∃ keys : Finset κ, ks ⊆ keys ∧
    (∀ w, s.total w = ∑ k ∈ keys, s.weight w k) ∧ ∀ w, t.total w = ∑ k ∈ keys, t.weight w k := by
  refine ⟨ks ∪ ((s.entries.map Prod.fst).toFinset ∪ (t.entries.map Prod.fst).toFinset),
    Finset.subset_union_left, fun w => s.total_eq_sum w _ fun k hk => ?_,
    fun w => t.total_eq_sum w _ fun k hk => ?_⟩
  · exact Finset.mem_union_right _ (Finset.mem_union_left _ (List.mem_toFinset.mpr hk))
  · exact Finset.mem_union_right _ (Finset.mem_union_right _ (List.mem_toFinset.mpr hk))

theorem total_congr (h : ∀ k, s.weight w k = t.weight w k) : s.total w = t.total w := by
  obtain ⟨keys, -, hs, ht⟩ := exists_keys s t ∅
  rw [hs, ht]
  exact Finset.sum_congr rfl fun k _ => h k

theorem total_add {w' : κ → α → Nat} (h : ∀ k, s.weight w k + t.weight w' k = t.weight w k) :
    s.total w + t.total w' = t.total w := by
  obtain ⟨keys, -, hs, ht⟩ := exists_keys s t ∅
  rw [hs, ht, ht, ← Finset.sum_add_distrib]
  exact Finset.sum_congr rfl fun k _ => h k

/-- Where two tables weigh the same but for one key, that key is the whole difference. -/
theorem total_of_off (k : κ) (h : ∀ l, k ≠ l → s.weight w l = t.weight w l) :
    s.total w + t.weight w k = t.total w + s.weight w k := by
  obtain ⟨keys, hkeys, hs, ht⟩ := exists_keys s t {k}
  have hk : k ∈ keys := hkeys (Finset.mem_singleton_self k)
  have hrest : ∑ l ∈ keys.erase k, s.weight w l = ∑ l ∈ keys.erase k, t.weight w l :=
    Finset.sum_congr rfl fun l hl => h l (Ne.symm (Finset.ne_of_mem_erase hl))
  rw [hs, ht, ← Finset.add_sum_erase _ _ hk, ← Finset.add_sum_erase _ _ hk, hrest]
  omega

theorem total_set (k : κ) (a : α) :
    (t.set k a).total w + t.weight w k = t.total w + w k a := by
  have hk : (t.set k a).weight w k = w k a := by
    rw [weight, get?_set_self]
    rfl
  rw [← hk]
  refine total_of_off k fun l hl => ?_
  rw [weight, weight, get?_set, if_neg hl]

theorem total_erase (k : κ) : (t.erase k).total w + t.weight w k = t.total w := by
  have hk : (t.erase k).weight w k = 0 := by
    rw [weight, get?_erase_self]
    rfl
  rw [← Nat.add_zero (t.total w), ← hk]
  refine total_of_off k fun l hl => ?_
  rw [weight, weight, get?_erase, if_neg hl]

end Gearing.Table
