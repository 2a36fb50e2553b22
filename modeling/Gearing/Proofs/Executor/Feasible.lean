import Gearing.Proofs.Executor.Settled

/-!
When the script of a run can be carried out. Each tranche is lent from what was supplied just before it,
so the liquidity that is left beside the flash loan does not matter, and the allowance is spent by as much
as was asked for before the run.
-/
namespace Gearing
open Pool FixedPoint

/-- A reserve that takes deposits and lends, and counts balances as they are. -/
structure Reserve.Plain (r : Reserve) : Prop where
  active : r.active
  enabled : r.borrowingEnabled
  liquidityIndex : r.liquidityIndex = ray
  borrowIndex : r.borrowIndex = ray

/-- A reserve that takes deposits and lends, at indices that can be divided by. -/
structure Reserve.Usable (r : Reserve) : Prop where
  active : r.active
  enabled : r.borrowingEnabled
  liquidityIndex : r.liquidityIndex ≠ 0
  borrowIndex : r.borrowIndex ≠ 0

namespace Reserve
variable {r : Reserve}

theorem Usable.of_liquidity (h : r.Usable) (l : Word) : Reserve.Usable { r with liquidity := l } :=
  ⟨h.active, h.enabled, h.liquidityIndex, h.borrowIndex⟩

theorem Plain.of_liquidity (h : r.Plain) (l : Word) : Reserve.Plain { r with liquidity := l } :=
  ⟨h.active, h.enabled, h.liquidityIndex, h.borrowIndex⟩

theorem Plain.usable (h : r.Plain) : r.Usable where
  active := h.active
  enabled := h.enabled
  liquidityIndex := by
    rw [h.liquidityIndex]
    decide
  borrowIndex := by
    rw [h.borrowIndex]
    decide

end Reserve

section Effects
variable {p : Pool} {asset : Address} {r : Reserve} {amount : Word}

theorem Pool.exists_deposit (hr : p.reserve? asset = some r) (husable : r.Usable) (account : Address) :
    ∃ q, p.Effect (.deposit asset amount account) .done q :=
  ⟨_, .deposit hr husable.active husable.liquidityIndex⟩

theorem Pool.exists_borrow {operator account : Address} (hr : p.reserve? asset = some r)
    (husable : r.Usable) (hliquid : amount ≤ r.liquidity)
    (hallowed : account ≠ operator → amount ≤ p.allowance account operator asset) :
    ∃ q, p.Effect (.borrow asset amount operator account) .done q := by
  by_cases hself : account = operator
  · subst hself
    exact ⟨_, .borrow hr husable.active husable.enabled hliquid husable.borrowIndex⟩
  · exact ⟨_, .borrowFor hr husable.active husable.enabled hliquid husable.borrowIndex
      (Ne.symm hself) (hallowed hself)⟩

end Effects

namespace Executor

section Tranches
variable {operator account asset : Address}

theorem exists_round {p : Pool} {r : Reserve} {each next : Word} {ops : List Op}
    (hr : p.reserve? asset = some r) (husable : r.Usable)
    (hliquid : next.toNat ≤ r.liquidity.toNat + each.toNat)
    (hallowed : account ≠ operator → next ≤ p.allowance account operator asset)
    (hexact : p.Exact (.deposit asset each account :: .borrow asset next operator account :: ops)) :
    ∃ q l, p.Carried [.deposit asset each account, .borrow asset next operator account] q ∧
      q.reserve? asset = some { r with liquidity := l } ∧
      (q.allowance account operator asset).toNat + (if account = operator then 0 else next.toNat) =
        (p.allowance account operator asset).toNat ∧ q.Exact ops := by
  obtain ⟨hexact₁, hexact⟩ := hexact
  obtain ⟨p₁, hdeposit⟩ : ∃ p₁, p.Effect (.deposit asset each account) .done p₁ :=
    exists_deposit hr husable account
  rw [after_of_effect hdeposit] at hexact
  have hmoves₁ := hdeposit.moves_deposit operator ⟨r, hr, rfl, rfl⟩ hexact₁
  obtain ⟨l, hr₁, hl⟩ := hmoves₁.reserve? hr
  have hspared : (p₁.allowance account operator asset).toNat =
      (p.allowance account operator asset).toNat := hmoves₁.allowance
  have hcovered : next ≤ l := by
    rw [BitVec.le_def]
    simp only at hl
    omega
  have hspendable : account ≠ operator → next ≤ p₁.allowance account operator asset := by
    intro hne
    rw [BitVec.le_def, hspared]
    exact BitVec.le_def.mp (hallowed hne)
  obtain ⟨hexact₂, hexact⟩ := hexact
  obtain ⟨q, hborrow⟩ := exists_borrow hr₁ (husable.of_liquidity l) hcovered hspendable
  rw [after_of_effect hborrow] at hexact
  have hmoves₂ := hborrow.moves_borrow (hmoves₁.indexed ⟨r, hr, rfl, rfl⟩) hexact₂
  obtain ⟨l', hr₂, -⟩ := hmoves₂.reserve? hr₁
  exact ⟨q, l', .cons hdeposit (.single hborrow), hr₂, hmoves₂.allowance.trans hspared, hexact⟩

theorem exists_carried_tranches {p : Pool} {r : Reserve} {each : Word} {borrows : List Word}
    (hr : p.reserve? asset = some r) (husable : r.Usable)
    (hchain : (each :: borrows).IsChain (fun a b => b ≤ a))
    (hallowed : account ≠ operator →
      (borrows.map BitVec.toNat).sum ≤ (p.allowance account operator asset).toNat)
    (hexact : p.Exact (roundOps operator account asset each borrows ++
      [.deposit asset (lastTranche each borrows) account])) :
    ∃ q, p.Carried (roundOps operator account asset each borrows ++
      [.deposit asset (lastTranche each borrows) account]) q := by
  induction borrows generalizing each p r with
  | nil =>
    obtain ⟨q, hdeposit⟩ := exists_deposit hr husable account
    exact ⟨q, .single hdeposit⟩
  | cons next rest ih =>
    obtain ⟨hnext, hchain⟩ := List.isChain_cons_cons.mp hchain
    have hle := BitVec.le_def.mp hnext
    simp only [List.map_cons, List.sum_cons] at hallowed
    have hfirst : account ≠ operator → next ≤ p.allowance account operator asset := by
      intro hne
      have hsum := hallowed hne
      rw [BitVec.le_def]
      omega
    -- What was just supplied covers the next borrow.
    obtain ⟨q, l, hround, hq, hspent, hexact⟩ := exists_round hr husable (by omega) hfirst hexact
    have hrest : account ≠ operator →
        (rest.map BitVec.toNat).sum ≤ (q.allowance account operator asset).toNat := by
      intro hne
      have hsum := hallowed hne
      rw [if_neg hne] at hspent
      omega
    obtain ⟨q', htail⟩ := ih hq (husable.of_liquidity l) hchain hrest hexact
    exact ⟨q', hround.append htail⟩

theorem exists_carried_single {p : Pool} {r : Reserve} {principal borrow : Word}
    (hr : p.reserve? asset = some r) (husable : r.Usable)
    (hliquid : borrow.toNat ≤ r.liquidity.toNat + principal.toNat)
    (hallowed : account ≠ operator → borrow ≤ p.allowance account operator asset)
    (hexact : p.Exact (roundOps operator account asset principal [borrow] ++
      [.deposit asset (lastTranche principal [borrow]) account])) :
    ∃ q, p.Carried (roundOps operator account asset principal [borrow] ++
      [.deposit asset (lastTranche principal [borrow]) account]) q := by
  obtain ⟨q, l, hround, hq, -, -⟩ := exists_round hr husable hliquid hallowed hexact
  obtain ⟨q', hdeposit⟩ := exists_deposit hq (husable.of_liquidity l) account
  exact ⟨q', hround.append (.single hdeposit)⟩

end Tranches

section Script
variable {x : Executor} {account asset : Address} {s : Schedule} {p : Pool} {r : Reserve}

theorem exact_tranches {a : Answer} {p₁ : Pool} (hclosed : p.opened.get? account = none)
    (hacquire : (p.openJournal account).Effect (.acquire asset s.totalBorrow account) a p₁)
    (hexact : p.Exact (wholeScript x account asset s p)) :
    p₁.Exact (roundOps x.operator account asset s.principal s.borrows ++
      [.deposit asset (lastTranche s.principal s.borrows) account]) := by
  obtain ⟨-, hexact₁⟩ := exact_wholeScript hclosed hexact
  rw [after_of_effect hacquire, List.append_cons, exact_append] at hexact₁
  exact hexact₁.1

/-- A run whose tranches can be carried out can be carried out: the ticket is still out when they are through, and
the journal of the run is open until its commit. -/
theorem exists_carried_of_tranches (hclosed : p.opened.get? account = none)
    (hr : p.reserve? asset = some r) (husable : r.Usable) (hliquid : s.totalBorrow ≤ r.liquidity)
    (htranches : ∀ a p₁, (p.openJournal account).Effect (.acquire asset s.totalBorrow account) a p₁ →
      ∃ p₂, p₁.Carried (roundOps x.operator account asset s.principal s.borrows ++
        [.deposit asset (lastTranche s.principal s.borrows) account]) p₂) :
    ∃ q, p.Carried (wholeScript x account asset s p) q := by
  have hr₀ : (p.openJournal account).reserve? asset = some r := hr
  have hopen : p.Effect (.checkpoint account) (.checkpoint (p.lastCheckpoint + 1))
      (p.openJournal account) := .checkpoint hclosed
  obtain ⟨a, p₁, hacquire⟩ :
      ∃ a p₁, (p.openJournal account).Effect (.acquire asset s.totalBorrow account) a p₁ :=
    ⟨_, _, .acquire hr₀ husable.active hliquid⟩
  obtain ⟨p₂, htranches⟩ := htranches a p₁ hacquire
  have hsteps := Carried.cons hacquire htranches
  obtain ⟨r₂, hr₂⟩ : ∃ r₂, p₂.reserve? asset = some r₂ := by
    refine Option.isSome_iff_exists.mp ((p₂.isSome_reserve? asset).mpr ?_)
    rw [hsteps.assets_eq fun r₀ hmem => judged_own x.operator account asset s 0 _ hmem]
    exact mem_assets_of_reserve? hr₀
  obtain ⟨p₃, hrepay⟩ : ∃ p₃,
      p₂.Effect (.repay (p.lastTicket + 1) (p.nextTicket asset s.totalBorrow).owed) .done p₃ :=
    ⟨_, .repay (loan_out hacquire htranches) (BitVec.le_refl _) hr₂⟩
  have hscript : (p.openJournal account).Carried
      (script x.operator account asset s (p.nextTicket asset s.totalBorrow)) p₃ := by
    have hsteps := Carried.cons hacquire (htranches.append (.single hrepay))
    rw [List.append_assoc] at hsteps
    exact hsteps
  have hkept := hscript.isSome_journal
    (script_own x.operator account asset s (Nat.lt_succ_self p.lastTicket)) (p.lastCheckpoint + 1)
  rw [hopen.isSome_opened, Option.isSome_iff_exists] at hkept
  obtain ⟨j, hj⟩ := hkept
  exact ⟨_, .cons hopen (hscript.append (.single (.commit hj)))⟩

theorem exists_carried_wholeScript (hclosed : p.opened.get? account = none)
    (hr : p.reserve? asset = some r) (husable : r.Usable)
    (hchain : s.tranches.IsChain (fun a b => b ≤ a)) (hliquid : s.totalBorrow ≤ r.liquidity)
    (hallowed : account ≠ x.operator →
      (s.borrows.map BitVec.toNat).sum ≤ (p.allowance account x.operator asset).toNat)
    (hexact : ∀ a p₁, (p.openJournal account).Effect (.acquire asset s.totalBorrow account) a p₁ →
      p₁.Exact (roundOps x.operator account asset s.principal s.borrows ++
        [.deposit asset (lastTranche s.principal s.borrows) account])) :
    ∃ q, p.Carried (wholeScript x account asset s p) q := by
  refine exists_carried_of_tranches hclosed hr husable hliquid fun a p₁ hacquire => ?_
  have hmoves₁ := hacquire.moves_acquire x.operator
  obtain ⟨l, hr₁, -⟩ := hmoves₁.reserve? (s := r) hr
  have hspared : (p₁.allowance account x.operator asset).toNat =
      (p.allowance account x.operator asset).toNat := hmoves₁.allowance
  exact exists_carried_tranches hr₁ (husable.of_liquidity l) hchain
    (fun hne => hspared ▸ hallowed hne) (hexact a p₁ hacquire)

end Script

section Amounts
variable {x : Executor} {account asset : Address} {s : Schedule} {p q : Pool} {r : Reserve}

theorem principal_exact (hclosed : p.opened.get? account = none) (hr : p.reserve? asset = some r)
    (hplain : r.Plain) (hliquid : s.totalBorrow ≤ r.liquidity)
    (hexact : p.Exact (wholeScript x account asset s p)) :
    s.principal.toNat * ray.toNat + (ray / 2).toNat < 2 ^ 256 := by
  have hr₀ : (p.openJournal account).reserve? asset = some r := hr
  obtain ⟨a, p₁, hacquire⟩ :
      ∃ a p₁, (p.openJournal account).Effect (.acquire asset s.totalBorrow account) a p₁ :=
    ⟨_, _, .acquire hr₀ hplain.active hliquid⟩
  obtain ⟨l, hr₁, -⟩ := (hacquire.moves_acquire x.operator).reserve? hr₀
  obtain ⟨-, hexact₁⟩ := exact_wholeScript hclosed hexact
  rw [after_of_effect hacquire] at hexact₁
  have hdeposit : Op.Exact (.deposit asset s.principal account) p₁ := by
    generalize s.borrows = borrows at hexact₁
    cases borrows with
    | nil => exact hexact₁.1
    | cons => exact hexact₁.1
  have hindex := (hdeposit _ hr₁).2.1
  simp only [hplain.liquidityIndex] at hindex
  exact hindex

/-- The flash liquidity comes back to a reserve that holds the principal by then, so there is room for the
fee and the principal beside the liquidity of before the run. -/
theorem liquidity_exact (hp : p.Sound) (hr : p.reserve? asset = some r)
    (htotal : s.totalBorrow.toNat = (s.borrows.map BitVec.toNat).sum)
    (hexact : p.Exact (wholeScript x account asset s p))
    (hcarried : p.Carried (wholeScript x account asset s p) q) :
    r.liquidity.toNat + s.principal.toNat + (p.flashFee s.totalBorrow).toNat < 2 ^ 256 := by
  have hclosed := hcarried.opened.1
  obtain ⟨a, p₁, p₂, -, -, -, hacquire, htranches, -⟩ := carried_wholeScript hcarried
  obtain ⟨hmoves, -, hrepaid, -⟩ := moves_judged hp hclosed hr hacquire htranches hexact
  obtain ⟨howed, -, hback⟩ := hrepaid _ (loan_out hacquire htranches)
  obtain ⟨l, hr₂, hl⟩ := hmoves.reserve? (s := r) hr
  have hback := hback _ hr₂
  simp only [Flow.add_paidOut, Flow.add_paidIn, trancheFlow, List.map_cons, List.sum_cons] at hl
  simp only [toNat_add_of_lt howed] at hback howed
  omega

end Amounts

end Executor

end Gearing
