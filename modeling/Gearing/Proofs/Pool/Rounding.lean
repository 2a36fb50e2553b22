import Gearing.Proofs.Pool.Books
import Gearing.Proofs.Pool.Portfolio
import Gearing.Proofs.Pool.Tally
import Mathlib.Algebra.Order.Ring.Abs

/-!
How far a position can be off the amounts that made it.

An amount is divided by the index of its reserve when it is stored, and the stored sum is multiplied
by the index when it is read. Both round half up. In units of half an index and of half a ray the
errors add up without rounding themselves, so they are followed as integers.
-/
namespace Gearing
namespace FixedPoint

/-- What is read after `n` amounts were stored is their sum, up to half an index for each of them and
half a ray, all of it over a ray. On an index of one it is the sum. -/
def Rounded (n : Nat) (index read : Word) (sum : Nat) : Prop :=
  2 * (ray.toNat : ℤ) * |(read.toNat : ℤ) - sum| ≤ n * index.toNat + ray.toNat ∧
    (index = ray → read.toNat = sum)

section
variable {a index : Word}

theorem toNat_half (index : Word) : (index / 2).toNat = index.toNat / 2 := BitVec.toNat_udiv

theorem toNat_share (h : Divides index a) :
    (share a index).toNat = (a.toNat * ray.toNat + index.toNat / 2) / index.toNat := by
  have hproduct : (a * ray).toNat = a.toNat * ray.toNat := by
    have := h.2
    exact toNat_mul_of_lt (by omega)
  rw [share, BitVec.toNat_udiv, toNat_add_of_lt (by rw [hproduct]; exact h.2), hproduct, toNat_half]

theorem abs_quotient_le {n d : Nat} (hd : 0 < d) :
    |2 * ((d * ((n + d / 2) / d) : Nat) : ℤ) - 2 * (n : ℤ)| ≤ d := by
  have hdiv := Nat.div_add_mod (n + d / 2) d
  have hmod := Nat.mod_lt (n + d / 2) hd
  generalize d * ((n + d / 2) / d) = m at *
  rw [abs_le]
  omega

theorem abs_share_le (h : Divides index a) :
    |2 * ((index.toNat * (share a index).toNat : Nat) : ℤ) - 2 * ((a.toNat * ray.toNat : Nat) : ℤ)| ≤
      index.toNat := by
  have hpos : 0 < index.toNat := Nat.pos_of_ne_zero fun hzero => h.1 (BitVec.eq_of_toNat_eq hzero)
  rw [toNat_share h]
  exact abs_quotient_le hpos

theorem abs_rayMul_le (h : a.toNat * index.toNat + (ray / 2).toNat < 2 ^ 256) :
    |2 * ((ray.toNat * (rayMul a index).toNat : Nat) : ℤ) -
      2 * ((a.toNat * index.toNat : Nat) : ℤ)| ≤ ray.toNat := by
  rw [toNat_rayMul h, toNat_half]
  exact abs_quotient_le (by decide)

/-- The errors of the shares add up. -/
theorem abs_shares_le {xs : List Word} (h : ∀ x ∈ xs, Divides index x) :
    |2 * ((index.toNat * (xs.map fun x => (share x index).toNat).sum : Nat) : ℤ) -
      2 * (((xs.map BitVec.toNat).sum * ray.toNat : Nat) : ℤ)| ≤ xs.length * index.toNat := by
  induction xs with
  | nil => simp
  | cons x xs ih =>
    have hhead := abs_le.mp (abs_share_le (h x List.mem_cons_self))
    have htail := abs_le.mp (ih fun y hy => h y (List.mem_cons_of_mem _ hy))
    rw [List.map_cons, List.sum_cons, List.map_cons, List.sum_cons, Nat.mul_add, Nat.add_mul, abs_le,
      List.length_cons]
    push_cast at *
    constructor
    · linarith
    · linarith

theorem rounded_of_shares {xs : List Word} {stored : Word} (hxs : ∀ x ∈ xs, Divides index x)
    (hstored : stored.toNat = (xs.map fun x => (share x index).toNat).sum)
    (hread : stored.toNat * index.toNat + (ray / 2).toNat < 2 ^ 256) :
    Rounded xs.length index (rayMul stored index) (xs.map BitVec.toNat).sum := by
  constructor
  · have hshares := abs_le.mp (abs_shares_le hxs)
    have hrayMul := abs_le.mp (abs_rayMul_le hread)
    rw [← hstored] at hshares
    have hray : (0 : ℤ) ≤ 2 * ray.toNat := by positivity
    rw [← abs_of_nonneg hray, ← abs_mul, abs_le]
    push_cast at *
    constructor
    · linarith
    · linarith
  · rintro rfl
    rw [rayMul_ray hread, hstored]
    refine congrArg List.sum (List.map_congr_left fun x hx => ?_)
    rw [Pool.share_of_unit rfl (hxs x hx).2]

end
end FixedPoint

/-- The two sides of a balance. -/
inductive Side where
  | deposit
  | debt
  deriving DecidableEq, Repr

def Reserve.index (r : Reserve) : Side → Word
  | .deposit => r.liquidityIndex
  | .debt => r.borrowIndex

def Balance.stored (b : Balance) : Side → Word
  | .deposit => b.deposit
  | .debt => b.debt

def Position.total (x : Position) : Side → Word
  | .deposit => x.deposited
  | .debt => x.borrowed

namespace Entry

/-- The amount that the entry put on a side of the balance under a key. -/
def amount? (k : Address × Address) : Side → Entry → Option Word
  | .deposit, .deposit asset account _ amount _ => if (account, asset) = k then some amount else none
  | .debt, .borrow asset account _ amount _ _ => if (account, asset) = k then some amount else none
  | _, _ => none

/-- What the entry adds to a side of the balance under a key. -/
def added (k : Address × Address) : Side → Entry → Nat
  | .deposit => supplied k
  | .debt => owed k

end Entry

namespace Pool
open FixedPoint

/-- The index that the deed divides by, where it adds to that side of the balance under the key. -/
def Deed.index? (k : Address × Address) (side : Side) (d : Deed) : Option Word :=
  match side, d.op with
  | .deposit, .deposit asset _ account =>
    if (account, asset) = k then (d.found.reserve? asset).map (·.liquidityIndex) else none
  | .debt, .borrow asset _ _ account =>
    if (account, asset) = k then (d.found.reserve? asset).map (·.borrowIndex) else none
  | _, _ => none

/-- The amounts that the notes put on a side of the balance under a key. -/
def amounts (k : Address × Address) (side : Side) (ns : List Note) : List Word :=
  ns.filterMap fun n => n.entry.amount? k side

section Deeds
variable {p : Pool} {ops : List Op} {d : Deed} {k : Address × Address} {side : Side}

theorem effect_of_mem_deeds (h : d ∈ p.deeds ops) : ∃ a q, d.found.Effect d.op a q := by
  induction ops generalizing p with
  | nil => cases h
  | cons op ops ih =>
    rw [deeds] at h
    split at h
    · rename_i a q happly
      rcases List.mem_cons.mp h with rfl | h
      · exact ⟨a, q, (apply_does op p).of_ok happly⟩
      · exact ih h
    · exact ih h

theorem added_of_amount?_none {e : Entry} (h : e.amount? k side = none) : e.added k side = 0 := by
  cases side <;> cases e <;> simp_all [Entry.amount?, Entry.added, Entry.supplied, Entry.owed]

theorem Deed.stores {index x : Word} {n : Note} {a : Answer} {q : Pool}
    (heffect : d.found.Effect d.op a q) (hexact : d.Exact) (hnote : d.note? = some n)
    (hindex : ∀ i ∈ d.index? k side, i = index) (hx : n.entry.amount? k side = some x) :
    n.entry.added k side = (share x index).toNat ∧ Divides index x := by
  obtain ⟨p, op⟩ := d
  have heffect' := heffect
  cases heffect with
  | @deposit asset amount account r listed =>
    rw [note?, Op.entry?, listed] at hnote
    cases hnote
    cases side with
    | debt => cases hx
    | deposit =>
      obtain ⟨rfl, rfl⟩ : (account, asset) = k ∧ amount = x := by simpa [Entry.amount?] using hx
      obtain rfl : r.liquidityIndex = index := hindex _ (by simp only [index?, if_true, listed]; rfl)
      exact ⟨if_pos rfl, heffect'.divides_deposit listed hexact⟩
  | @borrow asset amount account r listed | @borrowFor asset amount _ account r listed =>
    rw [note?, Op.entry?, listed] at hnote
    cases hnote
    cases side with
    | deposit => cases hx
    | debt =>
      obtain ⟨rfl, rfl⟩ : (account, asset) = k ∧ amount = x := by simpa [Entry.amount?] using hx
      obtain rfl : r.borrowIndex = index := hindex _ (by simp only [index?, if_true, listed]; rfl)
      exact ⟨if_pos rfl, heffect'.divides_borrow listed hexact⟩
  | acquire =>
    cases hnote
    cases side <;> cases hx
  | repay out =>
    rw [note?, Op.entry?, out] at hnote
    cases hnote
    cases side <;> cases hx
  | _ => cases hnote

theorem total_added {ns : List Note} {index : Word}
    (h : ∀ n ∈ ns, ∀ x ∈ n.entry.amount? k side, n.entry.added k side = (share x index).toNat) :
    total (Entry.added k side) ns = ((amounts k side ns).map fun x => (share x index).toNat).sum := by
  induction ns with
  | nil => rfl
  | cons n ns ih =>
    have htail := ih fun m hm => h m (List.mem_cons_of_mem _ hm)
    have hsplit : total (Entry.added k side) (n :: ns) =
        n.entry.added k side + total (Entry.added k side) ns := rfl
    rw [hsplit, htail]
    cases hx : n.entry.amount? k side with
    | none =>
      have hamounts : amounts k side (n :: ns) = amounts k side ns := by simp [amounts, hx]
      rw [hamounts, added_of_amount?_none hx, Nat.zero_add]
    | some x =>
      have hamounts : amounts k side (n :: ns) = x :: amounts k side ns := by simp [amounts, hx]
      rw [hamounts, List.map_cons, List.sum_cons, h n List.mem_cons_self x hx]

end Deeds

section Histories
variable {ds ds' : List Deed} {p : Pool}

theorem live_append (h : ∀ n ∈ log ds', ∀ id ∈ n.under, id ∉ reverted ds) :
    live (ds ++ ds') =
      ((live ds).filter fun n => ∀ id ∈ n.under, id ∉ reverted ds') ++ live ds' := by
  rw [live, log_append, List.filter_append, live, live, List.filter_filter]
  congr 1
  · refine List.filter_congr fun n _ => ?_
    simp [reverted_append, not_or, forall_and, Bool.and_comm]
  · refine List.filter_congr fun n hn => ?_
    have hbefore := h n hn
    simp only [reverted_append, List.mem_append, not_or, decide_eq_decide]
    constructor
    · intro hboth id hid
      exact (hboth id hid).2
    · intro hlater id hid
      exact ⟨hbefore id hid, hlater id hid⟩

/-- The log is told, and as long as nothing wrapped the books and the flags are. -/
structure Accounted (ds : List Deed) (p : Pool) : Prop where
  logged : Logged ds p
  told : (∀ d ∈ ds, d.Exact) → Tallied (live ds) p ∧ FlagsTold ds p

theorem accounted_empty (feeBps : Nat) (wrappedNative : Address) :
    Accounted [] { feeBps, wrappedNative } :=
  ⟨logged_empty .., fun _ => ⟨tallied_empty .., nofun⟩⟩

namespace Accounted

theorem step {op : Op} {a : Answer} {q : Pool} (h : Accounted ds p) (hp : p.Sound)
    (heffect : p.Effect op a q) : Accounted (ds ++ [⟨p, op⟩]) q := by
  refine ⟨h.logged.step hp (heffect.turn hp), fun hexact => ?_⟩
  obtain ⟨htally, hflags⟩ := h.told fun d hd => hexact d (List.mem_append_left _ hd)
  exact tallied_step htally hflags h.logged hp heffect
    (hexact ⟨p, op⟩ (List.mem_append_right _ List.mem_cons_self))

theorem history (h : Accounted ds p) (hp : p.Sound) (ops : List Op) :
    Accounted (ds ++ p.deeds ops) (p.history ops) := by
  refine history_induction hp (motive := fun ds' q => Accounted (ds ++ ds') q) ?_ ?_ ops
  · rwa [List.append_nil]
  · intro ds' q op a r hq hds' heffect
    rw [← List.append_assoc]
    exact hds'.step hq heffect

end Accounted

theorem Logged.under_not_reverted (h : Logged ds p) (hp : p.Sound) (ops : List Op) :
    ∀ n ∈ log (p.deeds ops), ∀ id ∈ n.under, id ∉ reverted ds := by
  refine (history_induction hp (motive := fun ds' q => Logged (ds ++ ds') q ∧
    ∀ n ∈ log ds', ∀ id ∈ n.under, id ∉ reverted ds) ?_ ?_ ops).2
  · exact ⟨by rwa [List.append_nil], nofun⟩
  · rintro ds' q op a r hq ⟨hlog, hunder⟩ heffect
    refine ⟨List.append_assoc .. ▸ hlog.step hq (heffect.turn hq), fun n hn => ?_⟩
    cases hentry : op.entry? q with
    | none =>
      rw [log_unnoted hentry] at hn
      exact hunder n hn
    | some noted =>
      obtain ⟨account, e⟩ := noted
      rcases (mem_log_noted hentry).mp hn with hn | rfl
      · exact hunder n hn
      · intro id hid hreverted
        refine hlog.opened_not_reverted hq account id hid ?_
        rw [reverted_append]
        exact List.mem_append_left _ hreverted

variable {account asset : Address} {side : Side}

theorem Tallied.stored {ns : List Note} (h : Tallied ns p) (account asset : Address) (side : Side) :
    ((p.balance account asset).stored side).toNat = total (Entry.added (account, asset) side) ns := by
  cases side with
  | deposit => exact h.deposit account asset
  | debt => exact h.debt account asset

/-- A balance that starts from nothing is what was added to it since and not taken back. -/
theorem Accounted.stored_history (h : Accounted ds p) (hp : p.Sound) {ops : List Op}
    (hbefore : ∀ d ∈ ds, d.Exact) (hexact : ∀ d ∈ p.deeds ops, d.Exact)
    (hzero : (p.balance account asset).stored side = 0) :
    (((p.history ops).balance account asset).stored side).toNat =
      total (Entry.added (account, asset) side) (live (p.deeds ops)) := by
  have hboth : ∀ d ∈ ds ++ p.deeds ops, d.Exact := fun d hd =>
    (List.mem_append.mp hd).elim (hbefore d) (hexact d)
  rw [((h.history hp ops).told hboth).1.stored, live_append (h.logged.under_not_reverted hp ops),
    total_append]
  -- What is left of the notes before is a part of a sum of nothing.
  have hstart := (h.told hbefore).1.stored account asset side
  rw [hzero, total_filter _ (fun n => ∀ id ∈ n.under, id ∉ reverted (p.deeds ops))] at hstart
  have hnone : (0 : Word).toNat = 0 := rfl
  omega

/-- A position that starts from nothing, read back at the index at which it was made. -/
theorem Accounted.rounded (h : Accounted ds p) (hp : p.Sound) {ops : List Op}
    (hbefore : ∀ d ∈ ds, d.Exact) (hexact : ∀ d ∈ p.deeds ops, d.Exact)
    (hzero : (p.balance account asset).stored side = 0) {r : Reserve}
    (hr : (p.history ops).reserve? asset = some r)
    (hindex : ∀ d ∈ p.deeds ops, ∀ i ∈ d.index? (account, asset) side, i = r.index side)
    (hread : (p.history ops).ExactTotals account r) :
    ∃ x, position account asset (p.history ops) = .ok x (p.history ops) ∧
      Rounded (amounts (account, asset) side (live (p.deeds ops))).length (r.index side) (x.total side)
        ((amounts (account, asset) side (live (p.deeds ops))).map BitVec.toNat).sum := by
  refine ⟨_, position_of_listed hr, ?_⟩
  have hstores : ∀ n ∈ live (p.deeds ops), ∀ x ∈ n.entry.amount? (account, asset) side,
      n.entry.added (account, asset) side = (share x (r.index side)).toNat ∧
        Divides (r.index side) x := by
    intro n hn x hx
    obtain ⟨d, hd, hnote⟩ := List.mem_filterMap.mp (List.mem_of_mem_filter hn)
    obtain ⟨a, q, heffect⟩ := effect_of_mem_deeds hd
    exact Deed.stores heffect (hexact d hd) hnote (hindex d hd) hx
  have hstored := h.stored_history hp hbefore hexact hzero
  rw [total_added fun n hn x hx => (hstores n hn x hx).1] at hstored
  have hdivides : ∀ x ∈ amounts (account, asset) side (live (p.deeds ops)),
      Divides (r.index side) x := by
    intro x hx
    obtain ⟨n, hn, hx⟩ := List.mem_filterMap.mp hx
    exact (hstores n hn x hx).2
  have hasset := asset_of_reserve? hr
  cases side with
  | deposit => exact rounded_of_shares hdivides (hasset ▸ hstored) (hasset ▸ hread.1)
  | debt => exact rounded_of_shares hdivides (hasset ▸ hstored) (hasset ▸ hread.2)

end Histories

end Pool
end Gearing
