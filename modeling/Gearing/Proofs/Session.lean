import Gearing.Session
import Gearing.Proofs.Executor.Books

/-!
The books of a reserve over a whole session. Every move that is over, answered or refused, leaves them in
balance but for what it supplied from outside, and so does any number of moves.
-/
namespace Gearing.Session
open Gearing.Action Pool FixedPoint

/-- A move that is over, with the session that it found and the one that it left. -/
structure Turn where
  found : Session
  move : Move
  answered : Bool
  left : Session

namespace Turn

def done (t : Turn) : List Op :=
  match t.move with
  | .pool op => if t.answered then [op] else []
  | .runPlan .. | .runSingle .. | .runNative .. => t.found.venue.since t.left.venue
  | _ => []

/-- No sum of the move left the 256 bits. -/
def Exact (t : Turn) : Prop := t.found.venue.pool.Exact t.done

instance (t : Turn) : Decidable t.Exact := inferInstanceAs (Decidable (t.found.venue.pool.Exact t.done))

/-- What the move supplied to an asset from outside. -/
def supplied (t : Turn) (c : Address) : Nat :=
  match t.move with
  | .pool op => if t.answered then op.supplies c else 0
  | _ => 0

end Turn

/-- The moves of a session that are over; a trap ends it. -/
def turns (s : Session) : List Move → List Turn
  | [] => []
  | m :: ms =>
    match play m s with
    | .ok _ t => ⟨s, m, true, t⟩ :: t.turns ms
    | .error (.refused _) t => ⟨s, m, false, t⟩ :: t.turns ms
    | .error (.trapped _) _ => []

/-- The session after the last move that is over. -/
def ending (s : Session) : List Move → Session
  | [] => s
  | m :: ms =>
    match play m s with
    | .ok _ t => t.ending ms
    | .error (.refused _) t => t.ending ms
    | .error (.trapped _) _ => s

/-- Supplies and approvals, what an account does on its own, runs of an executor, and a new executor whose
calls do not fail. -/
def Move.Ordinary : Move → Prop
  | .pool (.supply ..) | .pool (.approve ..) | .pool (.deposit ..) | .pool (.borrow ..)
  | .pool (.acquire ..) | .pool (.repay ..) => True
  | .runPlan .. | .runSingle .. | .runNative .. => True
  | .seat d => d.faults = []
  | _ => False

theorem Move.plain_of_ordinary {op : Op} (h : (Move.pool op).Ordinary) : op.Plain := by
  cases op with
  | list | updateReserve | revert => cases h
  | _ => trivial

/-- A turn has left the books in balance but for what it supplied, and the executor without faults. -/
structure Fair (t : Turn) : Prop where
  faults : t.left.venue.faults = []
  sound : t.left.venue.pool.Sound
  gains : t.found.venue.pool.UnitIndices → t.Exact →
    Gains t.supplied t.found.venue.pool t.left.venue.pool

section Moves
variable {s : Session} {α : Type}

theorem onPool_ends {P : α → Session → Prop} {E : Halt Refusal → Session → Prop} {act : PoolM α} :
    (onPool act).Ends P E s ↔
      act.Ends (fun a p => P a { s with venue := { s.venue with pool := p } })
        (fun e p => E (e.relabel .pool) { s with venue := { s.venue with pool := p } }) s.venue.pool := by
  rw [onPool, ends_focus, ends_relabel]

theorem onVenue_ends {P : α → Session → Prop} {E : Halt Refusal → Session → Prop}
    {act : Action EngineError Venue α} :
    (onVenue act).Ends P E s ↔
      act.Ends (fun a v => P a { s with venue := v })
        (fun e v => E (e.relabel .engine) { s with venue := v }) s.venue := by
  rw [onVenue, ends_focus, ends_relabel]

theorem venue_noted (s : Session) (op : Op) (a : Answer) : (s.noted op a).venue = s.venue := by
  unfold noted
  split
  · split
    · rfl
    · rfl
  · rfl
  · rfl

theorem operate_ends (op : Op) (hsound : s.venue.pool.Sound) :
    (operate op).Ends
      (fun a t => t.venue.faults = s.venue.faults ∧ s.venue.pool.Effect op a t.venue.pool)
      (fun _ t => t.venue = s.venue) s := by
  have happly : ∀ t : Session, t.venue = s.venue →
      (do let a ← onPool (apply op); modify (·.noted op a); return a : SessionM Answer).Ends
        (fun a t => t.venue.faults = s.venue.faults ∧ s.venue.pool.Effect op a t.venue.pool)
        (fun _ t => t.venue = s.venue) t := by
    intro t ht
    rw [ends_bind, onPool_ends, ht]
    refine (apply_does op s.venue.pool).mono (fun a q h => ?_) (fun e q h => ?_)
    · simp only [ends_bind, ends_modify, ends_pure, venue_noted]
      exact ⟨trivial, h⟩
    · rw [h hsound.loansListed]
  unfold operate
  split
  · show (giveTicket _ >>= fun _ => _).Ends _ _ s
    rw [ends_bind, giveTicket, ends_bind, ends_get]
    split
    · rw [ends_set]
      exact happly _ rfl
    · exact rfl
  · exact happly s rfl

theorem fair_of_balanced {m : Move} {v : Venue} {answered : Bool} (h : Executor.Balanced s.venue v)
    (hfaults : s.venue.faults = []) (hsound : s.venue.pool.Sound)
    (hdone : Turn.done ⟨s, m, answered, { s with venue := v }⟩ = s.venue.since v)
    (hnone : ∀ c, Turn.supplied ⟨s, m, answered, { s with venue := v }⟩ c = 0) :
    Fair ⟨s, m, answered, { s with venue := v }⟩ where
  faults := h.faults.trans hfaults
  sound := h.sound hsound
  gains hunit hexact := by
    rw [Turn.Exact, hdone] at hexact
    exact (h.gains hunit hexact).cast fun c => (hnone c).symm

theorem run_fair {m : Move} {act : Action EngineError Venue Receipt} (hfaults : s.venue.faults = [])
    (hsound : s.venue.pool.Sound)
    (hact : act.Ends (fun _ v => Executor.Balanced s.venue v)
      (fun e v => ∀ cause, e = .refused cause → Executor.Balanced s.venue v) s.venue)
    (hdone : ∀ answered v, Turn.done ⟨s, m, answered, { s with venue := v }⟩ = s.venue.since v)
    (hnone : ∀ answered v c, Turn.supplied ⟨s, m, answered, { s with venue := v }⟩ c = 0) :
    (do return Reply.receipt (← onVenue act) : SessionM Reply).Ends (fun _ t => Fair ⟨s, m, true, t⟩)
      (fun e t => ∀ cause, e = .refused cause → Fair ⟨s, m, false, t⟩) s := by
  rw [ends_bind, onVenue_ends]
  refine hact.mono (fun receipt v h => ?_) (fun e v h cause hcause => ?_)
  · exact fair_of_balanced h hfaults hsound (hdone true v) (hnone true v)
  · cases e with
    | trapped trap => cases hcause
    | refused cause => exact fair_of_balanced (h cause rfl) hfaults hsound (hdone false v) (hnone false v)

theorem play_fair {m : Move} (hm : m.Ordinary) (hfaults : s.venue.faults = [])
    (hsound : s.venue.pool.Sound) :
    (play m).Ends (fun _ t => Fair ⟨s, m, true, t⟩)
      (fun e t => ∀ cause, e = .refused cause → Fair ⟨s, m, false, t⟩) s := by
  cases m with
  | pool op =>
    show (operate op >>= _).Ends _ _ s
    rw [ends_bind]
    refine (operate_ends op hsound).mono (fun a t h => ?_) (fun e t ht _ _ => ?_)
    · obtain ⟨hsame, heffect⟩ := h
      refine ⟨hsame.trans hfaults, heffect.sound hsound, fun hunit hexact => ?_⟩
      have hgains := Gains.of_effect heffect (Move.plain_of_ordinary hm) hsound hunit hexact.1
      exact hgains
    · refine ⟨?_, ?_, fun hunit _ => ?_⟩
      · rw [ht]
        exact hfaults
      · rw [ht]
        exact hsound
      · rw [ht]
        exact .refl hsound hunit
  | seat d =>
    exact ⟨hm, hsound, fun hunit _ => .refl hsound hunit⟩
  | runPlan account asset principal plan =>
    rw [play, ends_bind, ends_get]
    exact run_fair hfaults hsound
      (Executor.serve_balanced s.executor account asset hsound hfaults (.planned principal plan))
      (fun _ _ => rfl) (fun _ _ _ => rfl)
  | runSingle account asset principal borrow =>
    rw [play, ends_bind, ends_get]
    exact run_fair hfaults hsound
      (Executor.serve_balanced s.executor account asset hsound hfaults (.single principal borrow))
      (fun _ _ => rfl) (fun _ _ _ => rfl)
  | runNative account plan attached =>
    rw [play, ends_bind, ends_get]
    exact run_fair hfaults hsound
      (Executor.runNative_balanced s.executor account hsound hfaults plan attached)
      (fun _ _ => rfl) (fun _ _ _ => rfl)
  | _ => cases hm

end Moves

/-- What the moves supplied to an asset from outside. -/
def supplied (ts : List Turn) (c : Address) : Nat := (ts.map (·.supplied c)).sum

/-- From any session whose books are of unit indices and whose executor has no faults. -/
theorem ending_gains {ms : List Move} (hms : ∀ m ∈ ms, m.Ordinary) {s : Session}
    (hfaults : s.venue.faults = []) (hsound : s.venue.pool.Sound) (hunit : s.venue.pool.UnitIndices)
    (hexact : ∀ t ∈ s.turns ms, t.Exact) :
    Gains (supplied (s.turns ms)) s.venue.pool (s.ending ms).venue.pool := by
  induction ms generalizing s with
  | nil => exact .refl hsound hunit
  | cons m ms ih =>
    have hfair := play_fair (hms m List.mem_cons_self) hfaults hsound
    have hrest := fun m' hm' => hms m' (List.mem_cons_of_mem m hm')
    have hturn : ∀ t answered, Fair ⟨s, m, answered, t⟩ →
        (∀ u ∈ (⟨s, m, answered, t⟩ : Turn) :: t.turns ms, u.Exact) →
        Gains (supplied (⟨s, m, answered, t⟩ :: t.turns ms)) s.venue.pool (t.ending ms).venue.pool := by
      intro t answered h hall
      have hgains := h.gains hunit (hall _ List.mem_cons_self)
      have htail := ih hrest h.faults h.sound hgains.unit fun u hu => hall u (List.mem_cons_of_mem _ hu)
      exact (hgains.trans htail).cast fun c => by simp [supplied]
    unfold Ends at hfair
    rw [turns] at hexact ⊢
    rw [ending]
    cases hplay : play m s with
    | ok reply t =>
      rw [hplay] at hfair hexact
      exact hturn t true hfair hexact
    | error e t =>
      rw [hplay] at hfair hexact
      cases e with
      | refused cause => exact hturn t false (hfair cause rfl) hexact
      | trapped trap => exact .refl hsound hunit

/-- A pool with reserves of unit indices and nothing in its books yet. -/
structure Blank (p : Pool) : Prop where
  unit : p.UnitIndices
  balances : p.balances = .empty
  loans : p.loans = .empty
  fees : p.fees = .empty

theorem Blank.list {p : Pool} (h : Blank p) {r : Reserve}
    (hr : r.liquidityIndex = ray ∧ r.borrowIndex = ray) : Blank (p.list r) := by
  unfold Pool.list
  split
  · refine ⟨fun r' hr' => ?_, h.balances, h.loans, h.fees⟩
    obtain ⟨r₀, hr₀, rfl⟩ := List.mem_map.mp hr'
    split
    · exact hr
    · exact h.unit r₀ hr₀
  · refine ⟨fun r' hr' => ?_, h.balances, h.loans, h.fees⟩
    rcases List.mem_append.mp hr' with hr' | hr'
    · exact h.unit r' hr'
    · rw [List.mem_singleton.mp hr']
      exact hr

theorem Blank.history {p : Pool} (h : Blank p) {rs : List Reserve}
    (hrs : ∀ r ∈ rs, r.liquidityIndex = ray ∧ r.borrowIndex = ray) :
    Blank (p.history (rs.map .list)) := by
  induction rs generalizing p with
  | nil => exact h
  | cons r rs ih =>
    show Blank ((p.after (.list r)).history (rs.map .list))
    rw [after_of_effect (.list r)]
    exact ih (h.list (hrs r List.mem_cons_self)) fun r' hr' => hrs r' (List.mem_cons_of_mem r hr')

theorem Blank.surplus {p : Pool} (h : Blank p) (c : Address) : p.surplus c = p.free c := by
  rw [Pool.surplus, outstanding, totalDebt, totalDeposit, column, column, feesCollected, h.balances,
    h.loans, h.fees]
  simp [Table.total, Table.empty, Table.getD, Table.get?, Table.find]

/-- On every reserve, after any number of moves, what is free to lend, what is out at flash and what accounts
owe is what was there at first, what was supplied since, what accounts have deposited and the fees. -/
theorem books_balance (feeBps : Nat) (wrappedNative : Address) {rs : List Reserve}
    (hrs : ∀ r ∈ rs, r.liquidityIndex = ray ∧ r.borrowIndex = ray) {s : Session}
    (hpool : s.venue.pool = Pool.history { feeBps, wrappedNative } (rs.map .list))
    (hfaults : s.venue.faults = []) {ms : List Move} (hms : ∀ m ∈ ms, m.Ordinary)
    (hexact : ∀ t ∈ s.turns ms, t.Exact) {c : Address} (hc : c ∈ s.venue.pool.assets) :
    let q := (s.ending ms).venue.pool
    q.free c + q.outstanding c + q.totalDebt c = s.venue.pool.free c + supplied (s.turns ms) c +
      q.totalDeposit c + (q.feesCollected c).toNat := by
  dsimp only
  have hsound : s.venue.pool.Sound := by
    rw [hpool]
    exact (sound_empty feeBps wrappedNative).history _
  have hblank : Blank s.venue.pool := by
    rw [hpool]
    exact Blank.history ⟨fun r hr => (by cases hr), rfl, rfl, rfl⟩ hrs
  have hgains := (ending_gains hms hfaults hsound hblank.unit hexact).surplus c hc
  rw [hblank.surplus, Pool.surplus] at hgains
  omega

def openingReserves : List Reserve :=
  [{ asset := ⟨1⟩, symbol := "A", decimals := 18, ltvBps := 8000, liquidationThresholdBps := 8500,
     liquidity := 5000 }]

/-- A session on these reserves, with a pool fee of 9 basis points. -/
def openingDay : Session where
  venue := { pool := Pool.history { feeBps := 9, wrappedNative := ⟨1⟩ } (openingReserves.map .list) }
  executor := { operator := ⟨7⟩ }
  accounts := []

/-- Direct operations between the runs of two accounts and a native one. The run with an explicit borrow is
rolled back, because the account would owe too much, and one of two tickets is repaid. -/
def dayMoves : List Move :=
  [.pool (.supply ⟨1⟩ 1000000), .pool (.approve ⟨8⟩ ⟨7⟩ ⟨1⟩ 5000), .pool (.deposit ⟨1⟩ 700 ⟨8⟩),
    .pool (.acquire ⟨1⟩ 20000 ⟨8⟩), .pool (.acquire ⟨1⟩ 300 ⟨8⟩),
    .runPlan ⟨8⟩ ⟨1⟩ 1000 ⟨2, 7000⟩, .runSingle ⟨7⟩ ⟨1⟩ 1000 9000, .pool (.repay 2 300),
    .runNative ⟨7⟩ ⟨1, 5000⟩ 1500, .pool (.borrow ⟨1⟩ 60 ⟨8⟩ ⟨8⟩)]

theorem books_balance_day :
    (openingDay.turns dayMoves).map (fun t => (t.answered, t.done.length)) =
        [(true, 1), (true, 1), (true, 1), (true, 1), (true, 1), (true, 9), (false, 6), (true, 1), (true, 8),
          (true, 1)] ∧
      let q := (openingDay.ending dayMoves).venue.pool
      q.outstanding ⟨1⟩ = 20000 ∧ q.totalDebt ⟨1⟩ = 2000 ∧ (q.feesCollected ⟨1⟩).toNat = 1 ∧
        q.free ⟨1⟩ + q.outstanding ⟨1⟩ + q.totalDebt ⟨1⟩ = openingDay.venue.pool.free ⟨1⟩ +
          supplied (openingDay.turns dayMoves) ⟨1⟩ + q.totalDeposit ⟨1⟩ + (q.feesCollected ⟨1⟩).toNat :=
  have hunit : ∀ r ∈ openingReserves, r.liquidityIndex = ray ∧ r.borrowIndex = ray := by decide +kernel
  ⟨by decide +kernel, by decide +kernel, by decide +kernel, by decide +kernel,
    books_balance 9 ⟨1⟩ hunit rfl rfl (by simp [dayMoves, Move.Ordinary]) (by decide +kernel)
      (by decide +kernel)⟩

end Gearing.Session
