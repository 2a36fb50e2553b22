import Gearing.Executor.Native
import Gearing.Proofs.Executor.Atomic

/-!
What the answer of a run tells about the commit. A receipt means that the run was committed. A refusal means
that it was not, with one exception: the position is read back after the commit, and where that call
fails, the run is refused all the same. A run in native coin then gives the value back although the
position stays, and so it does where the run could not be reverted.
-/
namespace Gearing
open Gearing.Action Pool

namespace Venue

/-- The checkpoint that a run from `v` opens is committed on the way to `w`. -/
def Committed (v w : Venue) : Prop := .commit (v.pool.lastCheckpoint + 1) ∈ v.since w

/-- One call of this name is made on the way. -/
def Called (c : Call) (v w : Venue) : Prop := w.calls.count c = v.calls.count c + 1

/-- Something is supplied for the account on the way, and nothing is reverted. -/
def Left (account : Address) (v w : Venue) : Prop :=
  (∃ asset amount, .deposit asset amount account ∈ v.since w) ∧ ∀ id, .revert id ∉ v.since w

end Venue

namespace Executor
variable {x : Executor} {account asset : Address} {s : Schedule} {v w : Venue}

theorem commit_mem_wholeScript (p : Pool) :
    .commit (p.lastCheckpoint + 1) ∈ wholeScript x account asset s p :=
  List.mem_cons_of_mem _ (List.mem_append_right _ List.mem_cons_self)

theorem deposit_mem_wholeScript (p : Pool) :
    .deposit asset (lastTranche s.principal s.borrows) account ∈ wholeScript x account asset s p := by
  refine List.mem_cons_of_mem _ (List.mem_append_left _ (List.mem_cons_of_mem _ ?_))
  exact List.mem_append_right _ List.mem_cons_self

theorem not_mem_wholeScript {p : Pool} {op : Op} (hcheckpoint : ∀ a, op ≠ .checkpoint a)
    (hcommit : ∀ id, op ≠ .commit id) (hown : ¬ op.Own account p.lastTicket) :
    op ∉ wholeScript x account asset s p := by
  intro hmem
  rcases List.mem_cons.mp hmem with h | hmem
  · exact hcheckpoint _ h
  rcases List.mem_append.mp hmem with h | h
  · exact hown (script_own x.operator account asset s (Nat.lt_succ_self p.lastTicket) _ h)
  · exact hcommit _ (List.mem_singleton.mp h)

variable (x account asset s v w) in
/-- What a refused run has carried out, told by which of the late calls it made. -/
inductive Trace : EngineError → List Op → Prop
  | nothing {cause : EngineError} (unread : w.calls.count .position = v.calls.count .position) :
    Trace cause []
  | reverted {cause : EngineError} {ops : List Op} (own : ∀ op ∈ ops, op.Own account v.pool.lastTicket)
    (unread : w.calls.count .position = v.calls.count .position) :
    Trace cause (.checkpoint account :: ops ++ [.revert (v.pool.lastCheckpoint + 1)])
  | stuck {cause : EngineError} {rollback : PoolError} {ops : List Op}
    (own : ∀ op ∈ ops, op.Own account v.pool.lastTicket)
    (unread : w.calls.count .position = v.calls.count .position) (called : v.Called .revertTo w)
    (fault : v.pool.Sound → ¬ v.Clear .revertTo) :
    Trace (.rollbackFailed cause rollback) (.checkpoint account :: ops)
  | unread {cause : PoolError} (called : v.Called .position w) (fault : ¬ v.Clear .position) :
    Trace (EngineError.ofPool cause) (wholeScript x account asset s v.pool)

theorem Aborted.unread {n id : Nat} {cause : EngineError} (h : Aborted account n id v cause w) :
    w.calls.count .position = v.calls.count .position := by
  have hposition : ∀ calls : List Call, (Call.revertTo :: calls).count .position =
      calls.count .position := fun calls => List.count_cons_of_ne (by decide)
  have hhalted {u : Venue} (h : v.Halted (Op.Own account n) u) :
      u.calls.count .position = v.calls.count .position := by
    obtain ⟨ops, r, -, hpath, hstill⟩ := h
    exact (hstill.quiet _ (.inr rfl)).trans (hpath.quiet _ (.inr rfl))
  cases h with
  | reverted halted last => rw [last.calls, hposition, hhalted halted]
  | stuck halted last => rw [last.calls, hposition, hhalted halted]

theorem Refuses.trace {cause : EngineError} (h : Refuses x account asset s v cause w) :
    ∃ ops, w.done = ops.reverse ++ v.done ∧ Trace x account asset s v w cause ops := by
  cases h with
  | early path still =>
    refine ⟨[], still.done.trans path.done, .nothing ?_⟩
    exact (still.quiet _ (.inr rfl)).trans (path.quiet _ (.inr rfl))
  | @unread _ u _ path last same fault =>
    refine ⟨_, last.done.trans path.done, .unread ?_ fun hclear => fault ?_⟩
    · rw [Venue.Called, last.calls, List.count_cons_self, path.quiet _ (.inr rfl)]
    · exact hclear.of_same path.faults (path.quiet _ (.inr rfl))
  | @aborted _ u _ path aborted =>
    have hunread := aborted.unread.trans (path.quiet _ (.inr rfl))
    cases aborted with
    | @reverted _ t _ halted last clear effect =>
      obtain ⟨ops, r, hown, hpath, hstill⟩ := halted
      have hwhole := path.trans hpath
      refine ⟨_, ?_, .reverted hown hunread⟩
      rw [last.done, hstill.done, hwhole.done]
      simp
    | @stuck _ _ t _ halted last same unreached =>
      obtain ⟨ops, r, hown, hpath, hstill⟩ := halted
      have hwhole := path.trans hpath
      refine ⟨_, ?_, .stuck hown hunread ?_ fun hsound hclear => ?_⟩
      · rw [last.done, hstill.done]
        exact hwhole.done
      · rw [Venue.Called, last.calls, List.count_cons_self, hstill.quiet _ (.inl rfl),
          hwhole.quiet _ (.inl rfl)]
      · -- The journal of the checkpoint is still there, so only a fault keeps it from being reverted.
        obtain ⟨hclosed, hcarried⟩ := hwhole.pool.opened
        have hpool := hstill.pool (hcarried.sound (hsound.openJournal hclosed)).loansListed
        have hnone := unreached (hclear.of_same (hstill.faults.trans hwhole.faults)
          ((hstill.quiet _ (.inl rfl)).trans (hwhole.quiet _ (.inl rfl))))
        have hsome := hcarried.isSome_journal hown (v.pool.lastCheckpoint + 1)
        rw [← hpool, hnone] at hsome
        have hopened : (v.pool.openJournal account).journals.get? (v.pool.lastCheckpoint + 1) =
            some { account } := Table.get?_set_self ..
        rw [hopened] at hsome
        cases hsome

namespace Trace
variable {cause : EngineError} {ops : List Op}

theorem committed_iff (h : Trace x account asset s v w cause ops) :
    .commit (v.pool.lastCheckpoint + 1) ∈ ops ↔ v.Called .position w := by
  cases h with
  | nothing unread => simp [Venue.Called, unread]
  | @reverted _ own hown unread =>
    have hnot : .commit (v.pool.lastCheckpoint + 1) ∉ own := fun hmem => hown _ hmem
    simp [Venue.Called, unread, hnot]
  | @stuck _ _ own hown unread =>
    have hnot : .commit (v.pool.lastCheckpoint + 1) ∉ own := fun hmem => hown _ hmem
    simp [Venue.Called, unread, hnot]
  | unread called => exact ⟨fun _ => called, fun _ => commit_mem_wholeScript v.pool⟩

theorem read (h : Trace x account asset s v w cause ops) (hcalled : v.Called .position w) :
    ¬ v.Clear .position ∧ ∀ c r, cause ≠ .rollbackFailed c r := by
  have hnot : ¬ w.calls.count .position = v.calls.count .position := by
    intro heq
    rw [Venue.Called] at hcalled
    omega
  cases h with
  | nothing unread => exact absurd unread hnot
  | reverted own unread => exact absurd unread hnot
  | stuck own unread => exact absurd unread hnot
  | @unread cause called fault =>
    refine ⟨fault, fun c r h => ?_⟩
    cases cause <;> cases h

theorem left_iff (h : Trace x account asset s v w cause ops) :
    ((∃ asset amount, .deposit asset amount account ∈ ops) ∧ ∀ id, .revert id ∉ ops) ↔
      v.Called .position w ∨ (v.Called .revertTo w ∧ (∀ id, .revert id ∉ ops) ∧
        ∃ asset amount, .deposit asset amount account ∈ ops) := by
  constructor
  · rintro ⟨hdeposit, hrevert⟩
    cases h with
    | nothing => obtain ⟨_, _, hmem⟩ := hdeposit; cases hmem
    | reverted => exact absurd (List.mem_append_right _ List.mem_cons_self) (hrevert _)
    | stuck own unread called => exact .inr ⟨called, hrevert, hdeposit⟩
    | unread called => exact .inl called
  · rintro (hcalled | ⟨-, hrevert, hdeposit⟩)
    · have hcommit := h.committed_iff.mpr hcalled
      cases h with
      | nothing unread => cases hcommit
      | reverted own unread => rw [Venue.Called, unread] at hcalled; omega
      | stuck own unread => rw [Venue.Called, unread] at hcalled; omega
      | unread called =>
        refine ⟨⟨_, _, deposit_mem_wholeScript v.pool⟩, fun id => ?_⟩
        exact not_mem_wholeScript (fun _ h => by cases h) (fun _ h => by cases h) fun h => h
    · exact ⟨hdeposit, hrevert⟩

theorem left_fault (h : Trace x account asset s v w cause ops) (hsound : v.pool.Sound)
    (hdeposit : ∃ asset amount, .deposit asset amount account ∈ ops)
    (hrevert : ∀ id, .revert id ∉ ops) : ¬ v.Clear .position ∨ ¬ v.Clear .revertTo := by
  cases h with
  | nothing => obtain ⟨_, _, hmem⟩ := hdeposit; cases hmem
  | reverted => exact absurd (List.mem_append_right _ List.mem_cons_self) (hrevert _)
  | stuck own unread called fault => exact .inr (fault hsound)
  | unread called fault => exact .inl fault

theorem unwrap_not_mem (h : Trace x account asset s v w cause ops) (amount : Word) :
    .unwrap amount ∉ ops := by
  cases h with
  | nothing =>
    intro hmem
    cases hmem
  | @reverted _ own hown =>
    have hnot : .unwrap amount ∉ own := fun hmem => hown _ hmem
    simp [hnot]
  | @stuck _ _ own hown =>
    have hnot : .unwrap amount ∉ own := fun hmem => hown _ hmem
    simp [hnot]
  | unread => exact not_mem_wholeScript (fun _ h => by cases h) (fun _ h => by cases h) fun h => h

end Trace

section Refused
variable {cause : EngineError}

theorem Refuses.committed_iff (h : Refuses x account asset s v cause w) : v.Committed w ↔ v.Called .position w := by
  obtain ⟨ops, hdone, htrace⟩ := h.trace
  rw [Venue.Committed, Venue.since_eq hdone]
  exact htrace.committed_iff

theorem Refuses.not_committed (h : Refuses x account asset s v cause w)
    (hunread : w.calls.count .position = v.calls.count .position) : ¬ v.Committed w := by
  rw [h.committed_iff, Venue.Called, hunread]
  exact (Nat.succ_ne_self _).symm

end Refused

variable (x account) in
/-- A native run is a run in the token between wrapping the value and, where it is refused, unwrapping it
again. -/
theorem runNative_ends (plan : Plan) (attached : Word) (v : Venue) :
    (runNative x account plan attached).Ends
      (fun receipt w => ∃ asset s u, v.Path [.wrap attached] u ∧ Settles x account asset s u receipt w)
      (fun e w => ∀ cause, e = .refused cause →
        (∃ ops : List Op, w.done = ops.reverse ++ v.done ∧ .unwrap attached ∉ ops) ∨
        ∃ asset s u t ops, v.Path [.wrap attached] u ∧ t.done = ops.reverse ++ u.done ∧
          Trace x account asset s u t cause ops ∧ t.Path [.unwrap attached] w) v := by
  have hnone : ∀ w : Venue, w.done = v.done →
      ∃ ops : List Op, w.done = ops.reverse ++ v.done ∧ .unwrap attached ∉ ops :=
    fun w hw => ⟨[], hw, fun hmem => by cases hmem⟩
  rw [runNative, ends_bind, ends_get]
  split
  · exact fun _ _ => .inl (hnone v rfl)
  split
  · exact fun _ _ => .inl (hnone v rfl)
  rename_i principal _
  rw [ends_bind, onVenue_ends]
  refine (Venue.perform_ends (by simp [Venue.Call.Late]) (wrap_does attached v.pool)).mono
    (fun _ u h => ?_) (fun e w h _ _ => .inl (hnone w h.done))
  obtain ⟨hwrap, -⟩ := h
  rw [ends_bind, ends_attempt]
  refine (serve_ends x account v.pool.wrappedNative (.planned principal plan) u).mono
    (fun receipt w h => ?_) (fun e t h => ?_)
  · obtain ⟨s, -, hsettles⟩ := h
    exact ⟨_, s, u, hwrap, hsettles⟩
  · cases e with
    | trapped trap =>
      intro _ h
      cases h
    | refused cause =>
      obtain ⟨s, hrefuses⟩ := h.1 cause rfl
      obtain ⟨ops, hdone, htrace⟩ := hrefuses.trace
      show Ends (Action.attempt (Venue.unwrap attached) >>= _) _ _ t
      rw [ends_bind, ends_attempt]
      refine (Venue.perform_ends (by simp [Venue.Call.Late]) (unwrap_does attached t.pool)).mono
        (fun _ w h => ?_) (fun e w h => ?_)
      · intro cause' hcause
        cases hcause
        exact .inr ⟨_, s, u, t, ops, hwrap, hdone, htrace, h.1⟩
      · have hkept : ∃ ops : List Op, w.done = ops.reverse ++ v.done ∧ .unwrap attached ∉ ops := by
          refine ⟨.wrap attached :: ops, ?_, ?_⟩
          · rw [h.done, hdone, hwrap.done]
            simp
          · simp [htrace.unwrap_not_mem attached]
        cases e with
        | refused rollback => exact fun _ _ => .inl hkept
        | trapped trap =>
          intro _ h
          cases h

section Native
variable {attached : Word} {u t : Venue} {ops : List Op}

theorem since_of_wrap (hwrap : v.Path [.wrap attached] u) (hdone : t.done = ops.reverse ++ u.done)
    (hunwrap : t.Path [.unwrap attached] w) :
    v.since w = .wrap attached :: (ops ++ [.unwrap attached]) := by
  refine Venue.since_eq ?_
  rw [hunwrap.done, hdone, hwrap.done]
  simp

theorem called_of_wrap (hwrap : v.Path [.wrap attached] u) (hunwrap : t.Path [.unwrap attached] w)
    {c : Call} (hc : Venue.Call.Late c) : v.Called c w ↔ u.Called c t := by
  rw [Venue.Called, Venue.Called, hwrap.quiet c hc, hunwrap.quiet c hc]

theorem lastCheckpoint_of_wrap (hwrap : v.Path [.wrap attached] u) :
    u.pool.lastCheckpoint = v.pool.lastCheckpoint := by
  rw [← hwrap.pool.history_eq]
  rfl

end Native

theorem serve_ok_committed {request : Request} {receipt : Receipt}
    (hrun : serve x account asset request v = .ok receipt w) : v.Committed w := by
  obtain ⟨s, -, hsettles⟩ := (serve_ends x account asset request v).of_ok hrun
  rw [Venue.Committed, Venue.since_eq hsettles.done]
  exact commit_mem_wholeScript v.pool

theorem serve_refused_committed {request : Request} {cause : EngineError}
    (hrun : serve x account asset request v = .error (.refused cause) w) :
    (v.Committed w ↔ v.Called .position w) ∧
      (v.Committed w → ¬ v.Clear .position ∧ ∀ c r, cause ≠ .rollbackFailed c r) := by
  obtain ⟨s, hrefuses⟩ := refuses_of_serve x account asset hrun
  obtain ⟨ops, -, htrace⟩ := hrefuses.trace
  exact ⟨hrefuses.committed_iff, fun h => htrace.read (hrefuses.committed_iff.mp h)⟩

theorem runNative_ok_committed {plan : Plan} {attached : Word} {receipt : Receipt}
    (hrun : runNative x account plan attached v = .ok receipt w) :
    v.Committed w ∧ .unwrap attached ∉ v.since w := by
  obtain ⟨asset, s, u, hwrap, hsettles⟩ := (runNative_ends x account plan attached v).of_ok hrun
  have hsince : v.since w = .wrap attached :: wholeScript x account asset s u.pool := by
    refine Venue.since_eq ?_
    rw [hsettles.done, hwrap.done]
    simp
  rw [Venue.Committed, hsince, ← lastCheckpoint_of_wrap hwrap]
  have hnot : .unwrap attached ∉ wholeScript x account asset s u.pool :=
    not_mem_wholeScript (fun _ h => by cases h) (fun _ h => by cases h) fun h => h
  refine ⟨List.mem_cons_of_mem _ (commit_mem_wholeScript u.pool), fun hmem => ?_⟩
  rcases List.mem_cons.mp hmem with h | h
  · cases h
  · exact hnot h

theorem runNative_refunded_left {plan : Plan} {attached : Word} {cause : EngineError}
    (hrun : runNative x account plan attached v = .error (.refused cause) w)
    (hrefund : .unwrap attached ∈ v.since w) :
    (v.Left account w ↔ v.Called .position w ∨ (v.Called .revertTo w ∧
        (∀ id, .revert id ∉ v.since w) ∧ ∃ asset amount, .deposit asset amount account ∈ v.since w)) ∧
      (v.pool.Reachable → v.Clear .position → v.Clear .revertTo → ¬ v.Left account w) := by
  obtain ⟨ops, hdone, hnot⟩ | ⟨asset, s, u, t, ops, hwrap, hdone, htrace, hunwrap⟩ :=
    (runNative_ends x account plan attached v).of_error hrun cause rfl
  · rw [Venue.since_eq hdone] at hrefund
    exact absurd hrefund hnot
  have hsince := since_of_wrap hwrap hdone hunwrap
  have hleft : v.Left account w ↔ (∃ asset amount, .deposit asset amount account ∈ ops) ∧
      ∀ id, .revert id ∉ ops := by
    rw [Venue.Left, hsince]
    simp
  constructor
  · rw [hleft, htrace.left_iff, called_of_wrap hwrap hunwrap (.inr rfl),
      called_of_wrap hwrap hunwrap (.inl rfl), hsince]
    simp
  · intro hpool hread hback h
    obtain ⟨hdeposit, hrevert⟩ := hleft.mp h
    rcases htrace.left_fault (hwrap.pool.sound hpool.sound) hdeposit hrevert with hfault | hfault
    · exact hfault (hread.of_same hwrap.faults (hwrap.quiet _ (.inr rfl)))
    · exact hfault (hback.of_same hwrap.faults (hwrap.quiet _ (.inl rfl)))

/-- The answer of a run against its commit, for any pool and any faults, and the refund of a native run
against its position. The exceptions are those of the two late calls, and without a fault on them there
are none. -/
theorem answer_against_commit (x : Executor) (account : Address) (v : Venue) :
    (∀ asset request receipt w, serve x account asset request v = .ok receipt w → v.Committed w) ∧
    (∀ asset request cause w, serve x account asset request v = .error (.refused cause) w →
      (v.Committed w ↔ v.Called .position w) ∧
      (v.Committed w → ¬ v.Clear .position ∧ ∀ c r, cause ≠ .rollbackFailed c r)) ∧
    (∀ plan attached receipt w, runNative x account plan attached v = .ok receipt w →
      v.Committed w ∧ .unwrap attached ∉ v.since w) ∧
    ∀ plan attached cause w, runNative x account plan attached v = .error (.refused cause) w →
      .unwrap attached ∈ v.since w →
      (v.Left account w ↔ v.Called .position w ∨ (v.Called .revertTo w ∧
        (∀ id, .revert id ∉ v.since w) ∧ ∃ asset amount, .deposit asset amount account ∈ v.since w)) ∧
      (v.pool.Reachable → v.Clear .position → v.Clear .revertTo → ¬ v.Left account w) := by
  refine ⟨fun asset request receipt w hrun => ?_, fun asset request cause w hrun => ?_,
    fun plan attached receipt w hrun => ?_, fun plan attached cause w hrun hrefund => ?_⟩
  · exact serve_ok_committed hrun
  · exact serve_refused_committed hrun
  · exact runNative_ok_committed hrun
  · exact runNative_refunded_left hrun hrefund

def sampleNative : ExecM Receipt := runNative { operator := ⟨7⟩ } ⟨7⟩ ⟨1, 10000⟩ 1

/-- The value of the sample is given back, and what was supplied stays because its position was not read. -/
theorem answer_against_commit_unread :
    (sampleVenue [⟨.position, 1, .native .injected⟩]).Left ⟨7⟩
      (sampleNative.final (sampleVenue [⟨.position, 1, .native .injected⟩])) := by
  have hrun : sampleNative.answer (sampleVenue [⟨.position, 1, .native .injected⟩]) =
      .error (.refused (.pool (.native .injected))) := by
    decide +kernel
  have hrefund : .unwrap 1 ∈ (sampleVenue [⟨.position, 1, .native .injected⟩]).since
      (sampleNative.final (sampleVenue [⟨.position, 1, .native .injected⟩])) := by
    decide +kernel
  have hcalled : (sampleVenue [⟨.position, 1, .native .injected⟩]).Called .position
      (sampleNative.final (sampleVenue [⟨.position, 1, .native .injected⟩])) := by
    show List.count _ _ = _
    decide +kernel
  have h := answer_against_commit { operator := ⟨7⟩ } ⟨7⟩ (sampleVenue [⟨.position, 1, .native .injected⟩])
  exact (h.2.2.2 ⟨1, 10000⟩ 1 _ _ (eq_error_of_answer hrun) hrefund).1.mpr (.inl hcalled)

/-- A run whose position cannot be read back is refused, and committed nevertheless; in native coin the
value is given back, and the position stays. -/
theorem refused_yet_committed :
    (sampleRun.answer (sampleVenue [⟨.position, 1, .native .injected⟩]) =
        .error (.refused (.pool (.native .injected))) ∧
      (sampleVenue [⟨.position, 1, .native .injected⟩]).Committed
        (sampleRun.final (sampleVenue [⟨.position, 1, .native .injected⟩]))) ∧
    sampleNative.answer (sampleVenue [⟨.position, 1, .native .injected⟩]) =
        .error (.refused (.pool (.native .injected))) ∧
      .unwrap 1 ∈ (sampleVenue [⟨.position, 1, .native .injected⟩]).since
        (sampleNative.final (sampleVenue [⟨.position, 1, .native .injected⟩])) ∧
      (sampleVenue [⟨.position, 1, .native .injected⟩]).Left ⟨7⟩
        (sampleNative.final (sampleVenue [⟨.position, 1, .native .injected⟩])) := by
  have hrun : (sampleVenue [⟨.position, 1, .native .injected⟩]).since
      (sampleRun.final (sampleVenue [⟨.position, 1, .native .injected⟩])) =
      [.checkpoint ⟨7⟩, .acquire ⟨1⟩ 1190 ⟨7⟩, .deposit ⟨1⟩ 1000 ⟨7⟩, .borrow ⟨1⟩ 700 ⟨7⟩ ⟨7⟩,
        .deposit ⟨1⟩ 700 ⟨7⟩, .borrow ⟨1⟩ 490 ⟨7⟩ ⟨7⟩, .deposit ⟨1⟩ 490 ⟨7⟩, .repay 1 1191,
        .commit 1] := by
    decide +kernel
  have hnative : (sampleVenue [⟨.position, 1, .native .injected⟩]).since
      (sampleNative.final (sampleVenue [⟨.position, 1, .native .injected⟩])) =
      [.wrap 1, .checkpoint ⟨7⟩, .acquire ⟨1⟩ 1 ⟨7⟩, .deposit ⟨1⟩ 1 ⟨7⟩, .borrow ⟨1⟩ 1 ⟨7⟩ ⟨7⟩,
        .deposit ⟨1⟩ 1 ⟨7⟩, .repay 1 1, .commit 1, .unwrap 1] := by
    decide +kernel
  have hid : (sampleVenue [⟨.position, 1, .native .injected⟩]).pool.lastCheckpoint = 0 := rfl
  refine ⟨⟨by decide +kernel, ?_⟩, by decide +kernel, ?_, ?_⟩
  · rw [Venue.Committed, hrun, hid]
    simp
  · rw [hnative]
    simp
  · rw [Venue.Left, hnative]
    exact ⟨⟨⟨1⟩, 1, by simp⟩, by simp⟩

end Executor
end Gearing
