import Gearing.Proofs.Pool.Noted

/-!
What undoing a journal does to the liquidity of a reserve, as a number.

Each inflow is taken back as far as it is there. What was not there any more is the shortfall: the liquidity
ends up higher by that much than the entries alone account for.
-/
namespace Gearing.Pool

/-- The liquidity of an asset once the entries are undone, newest first. -/
def unwound (asset : Address) : List Entry → Nat → Nat
  | [], l => l
  | e :: es, l => unwound asset es (l - e.paidIn asset + e.paidOut asset)

/-- What was not there to be taken back. -/
def shortfall (asset : Address) : List Entry → Nat → Nat
  | [], _ => 0
  | e :: es, l => (e.paidIn asset - l) + shortfall asset es (l - e.paidIn asset + e.paidOut asset)

/-- Nothing that undoing the entries gives back lifts a reserve past the 256 bits. -/
def Fits (p : Pool) : List Entry → Prop
  | [] => True
  | e :: es => (∀ r ∈ p.reserve? e.asset,
      r.liquidity.toNat - e.paidIn e.asset + e.paidOut e.asset < 2 ^ 256) ∧ (p.undo e).Fits es

instance decidableFits : (p : Pool) → (es : List Entry) → Decidable (p.Fits es)
  | _, [] => isTrue trivial
  | p, e :: es =>
    have := decidableFits (p.undo e) es
    inferInstanceAs (Decidable ((∀ r ∈ p.reserve? e.asset, _) ∧ (p.undo e).Fits es))

/-- Reverting the checkpoint wraps the liquidity of no reserve. -/
def RevertFits (p : Pool) (id : Nat) : Prop :=
  ∀ j ∈ p.journals.get? id, (p.close id j.account).Fits j.entries

instance (p : Pool) (id : Nat) : Decidable (p.RevertFits id) :=
  inferInstanceAs (Decidable (∀ j ∈ _, _))

theorem unwound_eq (asset : Address) (es : List Entry) (l : Nat) :
    unwound asset es l + (es.map (Entry.paidIn asset)).sum =
      l + (es.map (Entry.paidOut asset)).sum + shortfall asset es l := by
  induction es generalizing l with
  | nil => rfl
  | cons e es ih =>
    have htail := ih (l - e.paidIn asset + e.paidOut asset)
    simp only [unwound, shortfall, List.map_cons, List.sum_cons]
    omega

theorem shortfall_eq_zero {asset : Address} {es : List Entry} {l : Nat}
    (h : (es.map (Entry.paidIn asset)).sum ≤ l) : shortfall asset es l = 0 := by
  induction es generalizing l with
  | nil => rfl
  | cons e es ih =>
    rw [List.map_cons, List.sum_cons] at h
    have htail := ih (l := l - e.paidIn asset + e.paidOut asset) (by omega)
    rw [shortfall, htail]
    omega

section
variable {p : Pool} {e : Entry} {c : Address} {r : Reserve}

/-- Undoing the entry on top gives back the liquidity that it found, and `t` more if `t` came in since. -/
theorem Counted.back {q : Pool} (h : Counted e p q) (hr : p.reserve? c = some r) :
    ∃ l : Word, q.reserve? c = some { r with liquidity := l } ∧
      ∀ t, l.toNat + t - e.paidIn c + e.paidOut c = r.liquidity.toNat + t := by
  obtain ⟨l, hl, hsum⟩ := h.liquidity c r hr
  refine ⟨l, hl, fun t => ?_⟩
  rcases e.paidIn_or_paidOut c with hnone | hnone
  · omega
  · omega

theorem reserve?_undo (hr : p.reserve? c = some r) (hfits : ∀ r ∈ p.reserve? e.asset,
      r.liquidity.toNat - e.paidIn e.asset + e.paidOut e.asset < 2 ^ 256) :
    ∃ l : Word, (p.undo e).reserve? c = some { r with liquidity := l } ∧
      l.toNat = r.liquidity.toNat - e.paidIn c + e.paidOut c := by
  have hundo : (p.undo e).reserve? c = some (if r.asset = e.asset then
      { r with liquidity := e.undoLiquidity r.liquidity } else r) := by
    rw [reserve?_of_reserves (reserves_undo p e), reserve?_mapLiquidity, hr, Option.map_some]
  by_cases hc : e.asset = c
  · subst hc
    rw [if_pos (asset_of_reserve? hr)] at hundo
    exact ⟨_, hundo, e.toNat_undoLiquidity _ (hfits r hr)⟩
  · have hother : r.asset ≠ e.asset := fun hasset => hc (hasset.symm.trans (asset_of_reserve? hr))
    rw [if_neg hother] at hundo
    exact ⟨r.liquidity, hundo, by rw [e.paidIn_eq, e.paidOut_eq, if_neg hc, if_neg hc]; rfl⟩

theorem reserve?_undoAll {es : List Entry} (hr : p.reserve? c = some r) (hfits : p.Fits es) :
    ∃ l : Word, (p.undoAll es).reserve? c = some { r with liquidity := l } ∧
      l.toNat = unwound c es r.liquidity.toNat := by
  induction es generalizing p r with
  | nil => exact ⟨r.liquidity, hr, rfl⟩
  | cons e es ih =>
    obtain ⟨l, hl, hvalue⟩ := reserve?_undo hr hfits.1
    obtain ⟨l', hl', hvalue'⟩ := ih hl hfits.2
    exact ⟨l', hl', by rw [hvalue', hvalue]; rfl⟩

end

end Gearing.Pool
