/-!
Finite tables: at most one value under each key, in the order of first insertion.

`get?` is the view: `get?_set`, `get?_erase` and `get?_update` say what the writes do to it. `getD` reads a
table whose absent values have a meaning; `getD_set` and `getD_update` are its equations.
-/
namespace Gearing

structure Table (κ α : Type) where
  entries : List (κ × α) := []
  nodup : (entries.map Prod.fst).Nodup := by exact List.nodup_nil

namespace Table
variable {κ α : Type} [DecidableEq κ]

instance [DecidableEq α] : DecidableEq (Table κ α) := fun s t =>
  if h : s.entries = t.entries then
    .isTrue (by cases s; cases t; cases h; rfl)
  else .isFalse fun e => h (e ▸ rfl)

def empty : Table κ α := {}

instance : Inhabited (Table κ α) := ⟨empty⟩

def find (k : κ) : List (κ × α) → Option α
  | [] => none
  | (l, a) :: es => if l = k then some a else find k es

def place (k : κ) (a : α) : List (κ × α) → List (κ × α)
  | [] => [(k, a)]
  | (l, b) :: es => if l = k then (l, a) :: es else (l, b) :: place k a es

theorem mem_keys_place {k l : κ} {a : α} {es : List (κ × α)} :
    l ∈ (place k a es).map Prod.fst ↔ l = k ∨ l ∈ es.map Prod.fst := by
  induction es with
  | nil => simp [place]
  | cons e es ih =>
    obtain ⟨m, b⟩ := e
    by_cases h : m = k
    · subst h
      simp [place]
    · simp only [place, if_neg h, List.map_cons, List.mem_cons, ih]
      exact ⟨fun o => o.elim (fun e => .inr (.inl e)) (·.elim .inl (.inr ∘ .inr)),
        fun o => o.elim (.inr ∘ .inl) (·.elim .inl (.inr ∘ .inr))⟩

theorem nodup_keys_place {k : κ} {a : α} {es : List (κ × α)} (h : (es.map Prod.fst).Nodup) :
    ((place k a es).map Prod.fst).Nodup := by
  induction es with
  | nil => simp [place]
  | cons e es ih =>
    obtain ⟨m, b⟩ := e
    simp only [List.map_cons, List.nodup_cons] at h
    by_cases hk : m = k
    · subst hk
      simpa only [place, if_pos, List.map_cons, List.nodup_cons] using h
    · simp only [place, if_neg hk, List.map_cons, List.nodup_cons, mem_keys_place]
      exact ⟨fun o => o.elim hk h.1, ih h.2⟩

def get? (t : Table κ α) (k : κ) : Option α := find k t.entries

def getD (t : Table κ α) (k : κ) (fallback : α) : α := (t.get? k).getD fallback

def contains (t : Table κ α) (k : κ) : Bool := (t.get? k).isSome

/-- Writes a value; a key that is there keeps its place. -/
def set (t : Table κ α) (k : κ) (a : α) : Table κ α where
  entries := place k a t.entries
  nodup := nodup_keys_place t.nodup

def erase (t : Table κ α) (k : κ) : Table κ α where
  entries := t.entries.filter (fun e => e.1 ≠ k)
  nodup := List.Nodup.sublist (List.filter_sublist.map Prod.fst) t.nodup

def size (t : Table κ α) : Nat := t.entries.length

/-- Changes the value under a key, if there is one. -/
def update (t : Table κ α) (k : κ) (f : α → α) : Table κ α :=
  match t.get? k with
  | none => t
  | some a => t.set k (f a)

theorem find_place (k l : κ) (a : α) (es : List (κ × α)) :
    find l (place k a es) = if k = l then some a else find l es := by
  induction es with
  | nil => simp [place, find]
  | cons e es ih =>
    obtain ⟨m, b⟩ := e
    by_cases hm : m = k
    · subst hm
      by_cases hl : m = l <;> simp [place, find, hl]
    · by_cases hl : m = l
      · subst hl
        simp [place, find, hm, Ne.symm hm]
      · simp [place, find, hm, hl, ih]

theorem find_filter (k l : κ) (es : List (κ × α)) :
    find l (es.filter (fun e => e.1 ≠ k)) = if k = l then none else find l es := by
  induction es with
  | nil => simp [find]
  | cons e es ih =>
    obtain ⟨m, b⟩ := e
    by_cases hm : m = k
    · subst hm
      by_cases hl : m = l
      · simpa [find, hl] using ih
      · simpa [find, hl] using ih
    · by_cases hl : m = l
      · subst hl
        simp [find, hm, Ne.symm hm]
      · simpa [find, hm, hl] using ih

theorem find_eq_some_iff {k : κ} {a : α} {es : List (κ × α)} (h : (es.map Prod.fst).Nodup) :
    find k es = some a ↔ (k, a) ∈ es := by
  induction es with
  | nil => simp [find]
  | cons e es ih =>
    obtain ⟨m, b⟩ := e
    simp only [List.map_cons, List.nodup_cons] at h
    by_cases hm : m = k
    · subst hm
      have hab : (m, a) ∉ es := fun ha => h.1 (List.mem_map.mpr ⟨_, ha, rfl⟩)
      simp [find, hab, eq_comm]
    · simp [find, hm, Ne.symm hm, ih h.2]

@[simp] theorem get?_empty (k : κ) : (empty : Table κ α).get? k = none := rfl

theorem get?_set (t : Table κ α) (k l : κ) (a : α) :
    (t.set k a).get? l = if k = l then some a else t.get? l :=
  find_place k l a t.entries

theorem get?_erase (t : Table κ α) (k l : κ) :
    (t.erase k).get? l = if k = l then none else t.get? l :=
  find_filter k l t.entries

theorem get?_eq_some_iff (t : Table κ α) {k : κ} {a : α} :
    t.get? k = some a ↔ (k, a) ∈ t.entries :=
  find_eq_some_iff t.nodup

theorem get?_update (t : Table κ α) (k l : κ) (f : α → α) :
    (t.update k f).get? l = if k = l then (t.get? l).map f else t.get? l := by
  unfold update
  cases h : t.get? k with
  | none =>
    by_cases hk : k = l
    · subst hk
      simp [h]
    · simp [hk]
  | some a =>
    by_cases hk : k = l
    · subst hk
      simp [get?_set, h]
    · simp [get?_set, hk]

theorem getD_set (t : Table κ α) (k l : κ) (a d : α) :
    (t.set k a).getD l d = if k = l then a else t.getD l d := by
  unfold getD
  rw [get?_set]
  split <;> rfl

theorem getD_update (t : Table κ α) (k l : κ) (f : α → α) (d : α) (h : f d = d) :
    (t.update k f).getD l d = if k = l then f (t.getD l d) else t.getD l d := by
  unfold getD
  rw [get?_update]
  cases t.get? l <;> split <;> simp [h]

@[simp] theorem get?_set_self (t : Table κ α) (k : κ) (a : α) : (t.set k a).get? k = some a := by
  simp [get?_set]

@[simp] theorem get?_erase_self (t : Table κ α) (k : κ) : (t.erase k).get? k = none := by
  simp [get?_erase]

end Table
end Gearing
