import Gearing.Proofs.Pool.Effect
import Mathlib.Data.List.Nodup

/-!
What the writes of a pool change, field by field: each of them is an update of a few tables, and the
queries are read off the result.
-/
namespace Gearing.Pool

/-- The assets of the listed reserves, in listing order. -/
def assets (p : Pool) : List Address := p.reserves.map (·.asset)

section Reserves
variable (p : Pool) (asset : Address)

theorem isSome_reserve? : (p.reserve? asset).isSome ↔ asset ∈ p.assets := by
  simp [reserve?, assets, List.find?_isSome]

theorem asset_of_reserve? {p : Pool} {asset : Address} {r : Reserve}
    (h : p.reserve? asset = some r) : r.asset = asset := by
  simpa using List.find?_some h

theorem mem_of_reserve? {p : Pool} {asset : Address} {r : Reserve}
    (h : p.reserve? asset = some r) : r ∈ p.reserves :=
  List.mem_of_find?_eq_some h

theorem mem_assets_of_reserve? {p : Pool} {asset : Address} {r : Reserve}
    (h : p.reserve? asset = some r) : asset ∈ p.assets :=
  (p.isSome_reserve? asset).mp (by rw [h]; rfl)

theorem assets_mapReserve (f : Reserve → Reserve) (hf : ∀ r, r.asset = asset → (f r).asset = asset) :
    (p.mapReserve asset f).assets = p.assets := by
  simp only [assets, mapReserve, List.map_map]
  refine List.map_congr_left fun r _ => ?_
  by_cases h : r.asset = asset <;> simp [h, hf]

@[simp] theorem assets_mapLiquidity (f : Word → Word) :
    (p.mapLiquidity asset f).assets = p.assets :=
  p.assets_mapReserve asset (fun r => { r with liquidity := f r.liquidity }) fun _ h => h

theorem eq_of_mem_reserves {p : Pool} (hnodup : p.assets.Nodup) {r s : Reserve}
    (hr : r ∈ p.reserves) (hs : s ∈ p.reserves) (h : r.asset = s.asset) : r = s :=
  List.inj_on_of_nodup_map hnodup hr hs h

theorem reserve?_eq_of_mem {p : Pool} (hnodup : p.assets.Nodup) {r : Reserve}
    (hr : r ∈ p.reserves) : p.reserve? r.asset = some r := by
  have hsome : (p.reserve? r.asset).isSome :=
    (p.isSome_reserve? r.asset).mpr (List.mem_map_of_mem hr)
  obtain ⟨s, hs⟩ := Option.isSome_iff_exists.mp hsome
  have := eq_of_mem_reserves hnodup (mem_of_reserve? hs) hr (asset_of_reserve? hs)
  rwa [this] at hs

theorem reserve?_mapReserve (f : Reserve → Reserve) (hf : ∀ r, r.asset = asset → (f r).asset = asset)
    (a : Address) : (p.mapReserve asset f).reserve? a =
      (p.reserve? a).map fun r => if r.asset = asset then f r else r := by
  have hsame : ((fun r : Reserve => decide (r.asset = a)) ∘ fun r => if r.asset = asset then f r else r) =
      fun r => decide (r.asset = a) := by
    funext r
    by_cases h : r.asset = asset <;> simp [h, hf]
  simp only [reserve?, mapReserve, List.find?_map, hsame]

theorem reserve?_mapLiquidity (f : Word → Word) (a : Address) :
    (p.mapLiquidity asset f).reserve? a =
      (p.reserve? a).map fun r => if r.asset = asset then { r with liquidity := f r.liquidity } else r :=
  p.reserve?_mapReserve asset (fun r => { r with liquidity := f r.liquidity }) (fun _ h => h) a

theorem mapLiquidity_mapLiquidity (f g : Word → Word) :
    (p.mapLiquidity asset f).mapLiquidity asset g = p.mapLiquidity asset (g ∘ f) := by
  simp only [mapLiquidity, mapReserve, List.map_map]
  congr 1
  refine List.map_congr_left fun r _ => ?_
  by_cases h : r.asset = asset <;> simp [h]

theorem mapLiquidity_id : p.mapLiquidity asset id = p := by
  simp [mapLiquidity, mapReserve]

theorem list_eq (r : Reserve) : p.list r = { p with reserves := (p.list r).reserves } := by
  unfold list
  split
  · rfl
  · rfl

end Reserves

section Journals
variable (p : Pool) (account : Address) (e : Entry)

/-- The journals once an entry of the account is noted down. -/
def noted : Table Nat Journal :=
  match p.opened.get? account with
  | none => p.journals
  | some id => p.journals.update id fun j => { j with entries := e :: j.entries }

theorem record_eq : p.record account e = { p with journals := p.noted account e } := by
  unfold record noted
  split <;> simp_all

@[simp] theorem record_feeBps : (p.record account e).feeBps = p.feeBps := by rw [record_eq]
@[simp] theorem record_wrappedNative : (p.record account e).wrappedNative = p.wrappedNative := by
  rw [record_eq]
@[simp] theorem record_reserves : (p.record account e).reserves = p.reserves := by rw [record_eq]
@[simp] theorem record_balances : (p.record account e).balances = p.balances := by rw [record_eq]
@[simp] theorem record_allowances : (p.record account e).allowances = p.allowances := by rw [record_eq]
@[simp] theorem record_loans : (p.record account e).loans = p.loans := by rw [record_eq]
@[simp] theorem record_fees : (p.record account e).fees = p.fees := by rw [record_eq]
@[simp] theorem record_journals : (p.record account e).journals = p.noted account e := by
  rw [record_eq]
@[simp] theorem record_opened : (p.record account e).opened = p.opened := by rw [record_eq]
@[simp] theorem record_wrapped : (p.record account e).wrapped = p.wrapped := by rw [record_eq]
@[simp] theorem record_lastTicket : (p.record account e).lastTicket = p.lastTicket := by rw [record_eq]
@[simp] theorem record_lastCheckpoint : (p.record account e).lastCheckpoint = p.lastCheckpoint := by
  rw [record_eq]
@[simp] theorem record_assets : (p.record account e).assets = p.assets := by rw [record_eq]; rfl

@[simp] theorem balance_record (a asset : Address) :
    (p.record account e).balance a asset = p.balance a asset := by
  rw [record_eq]
  rfl

@[simp] theorem allowance_record (a d asset : Address) :
    (p.record account e).allowance a d asset = p.allowance a d asset := by
  rw [record_eq]
  rfl

@[simp] theorem feesCollected_record (asset : Address) :
    (p.record account e).feesCollected asset = p.feesCollected asset := by
  rw [record_eq]
  rfl

theorem get?_noted (id : Nat) : (p.noted account e).get? id =
    if p.opened.get? account = some id then
      (p.journals.get? id).map fun j => { j with entries := e :: j.entries }
    else p.journals.get? id := by
  unfold noted
  split
  · simp_all
  · rename_i i h
    rw [Table.get?_update]
    by_cases hid : i = id <;> simp_all

end Journals

section Assets
variable (p : Pool) (asset : Address) (amount : Word)

@[simp] theorem assets_credit (scaled : Word) (account : Address) :
    (p.credit asset amount scaled account).assets = p.assets := by
  rw [credit, record_assets]
  exact p.assets_mapLiquidity asset (· + amount)

@[simp] theorem assets_debit (scaled : Word) (delegatee account : Address) (used : Word) :
    (p.debit asset amount scaled delegatee account used).assets = p.assets := by
  rw [debit, record_assets]
  exact p.assets_mapLiquidity asset (· - amount)

@[simp] theorem assets_issue (t : Ticket) (account : Address) :
    (p.issue t account).assets = p.assets := by
  rw [issue, record_assets]
  exact p.assets_mapLiquidity t.asset (· - t.amount)

@[simp] theorem assets_redeem (loan : Loan) : (p.redeem loan).assets = p.assets := by
  rw [redeem, record_assets]
  exact p.assets_mapLiquidity loan.asset (· + (loan.amount + loan.fee))

end Assets

theorem balance_setBalance (p : Pool) (account asset : Address) (b : Balance) (a c : Address) :
    (p.setBalance account asset b).balance a c =
      if (account, asset) = (a, c) then b else p.balance a c :=
  Table.getD_set p.balances (account, asset) (a, c) b {}


end Gearing.Pool
