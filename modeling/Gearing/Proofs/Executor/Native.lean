import Gearing.Proofs.Executor.Quote
import Gearing.Proofs.Executor.Wrapped

/-!
A run in native coin beside the run in the token that it wraps to. The value is wrapped first, the run itself
does not see that, and where it is refused the same value is unwrapped again.
-/
namespace Gearing
open Gearing.Action Pool

namespace Venue
variable {v : Venue} {amount : Word}

/-- The venue with its coin rewrapped by one more call. -/
def rewrapped (v : Venue) (c : Call) (op : Op) (w : Word) : Venue :=
  { v with calls := c :: v.calls, pool := v.pool.rewrap w, done := op :: v.done }

theorem wrap_of_faults (hfaults : v.faults = []) (amount : Word) :
    wrap amount v = .ok () (v.rewrapped .wrap (.wrap amount) (v.pool.wrapped + amount)) :=
  perform_done_of_clear (clear_of_faults hfaults _) rfl (.wrap amount)

theorem unwrap_of_le (hfaults : v.faults = []) (hle : amount ≤ v.pool.wrapped) :
    unwrap amount v = .ok () (v.rewrapped .unwrap (.unwrap amount) (v.pool.wrapped - amount)) :=
  perform_done_of_clear (clear_of_faults hfaults _) rfl (.unwrap hle)

end Venue

namespace Executor
open Venue
variable {x : Executor} {account asset : Address} {plan : Plan} {principal attached : Word} {v t : Venue}

section Token

theorem runPlan_wrapped (hfaults : v.faults = []) :
    ((runPlan x account asset principal plan).final v).pool.wrapped = v.pool.wrapped := by
  have hself : v.Rewrapped v.pool.wrapped v := ⟨rfl, hfaults, hfaults, rfl⟩
  have hblind : Blind (Venue.Rewrapped v.pool.wrapped) (runPlan x account asset principal plan) := inferInstance
  have hpool := (hblind.alike hself).answer_eq.2.pool
  exact (congrArg Pool.wrapped hpool).trans rfl

variable (x account asset principal plan) in
theorem runPlan_alike (hfaults : v.faults = []) (c : Call) (op : Op) (w : Word) :
    Alike (Venue.Rewrapped w) Eq (runPlan x account asset principal plan)
      (runPlan x account asset principal plan) v (v.rewrapped c op w) :=
  Blind.alike ⟨rfl, hfaults, hfaults, rfl⟩

end Token

section Native

/-- What becomes of a native run: its receipt, or its value given back. -/
def refunded (attached : Word) : Except EngineError Receipt → ExecM Receipt
  | .ok receipt => return receipt
  | .error cause => do
    match ← Action.attempt (Venue.unwrap attached) with
    | .ok () => Action.refuse cause
    | .error rollback => Action.refuse (.rollbackFailed cause rollback)

variable (x account) in
/-- A native run is a run in the token once the value is wrapped. -/
theorem runNative_eq (hgateway : v.gateway) (hfaults : v.faults = [])
    (hprincipal : principalFor v.feeBps plan attached = .ok principal) :
    runNative x account plan attached v =
      (Action.attempt (runPlan x account v.pool.wrappedNative principal plan) >>= refunded attached)
        (v.rewrapped .wrap (.wrap attached) (v.pool.wrapped + attached)) := by
  have hwrap : onVenue (Venue.wrap attached) v =
      .ok () (v.rewrapped .wrap (.wrap attached) (v.pool.wrapped + attached)) := by
    rw [onVenue, Action.relabel, wrap_of_faults hfaults]
  rw [runNative, run_bind, run_get]
  simp only [hgateway, Bool.not_true, Bool.false_eq_true, if_false, hprincipal]
  rw [run_bind, hwrap]
  show (Action.attempt (runPlan x account v.pool.wrappedNative principal plan) >>= _) _ = _
  refine congrFun (congrArg (bind _) (funext fun outcome => ?_)) _
  cases outcome <;> rfl

section Outcomes
variable (hgateway : v.gateway) (hfaults : v.faults = [])
  (hprincipal : principalFor v.feeBps plan attached = .ok principal)
include hgateway hfaults hprincipal

theorem runNative_of_ok {receipt : Receipt}
    (hrun : runPlan x account v.pool.wrappedNative principal plan v = .ok receipt t) :
    ∃ t', runNative x account plan attached v = .ok receipt t' ∧
      t'.pool = t.pool.rewrap (v.pool.wrapped + attached) := by
  have hsame := runPlan_alike x account v.pool.wrappedNative plan principal hfaults .wrap (.wrap attached)
    (v.pool.wrapped + attached)
  obtain ⟨_, t', hrun', rfl, ht⟩ := hsame.of_ok hrun
  refine ⟨t', ?_, ht.pool⟩
  rw [runNative_eq x account hgateway hfaults hprincipal, run_bind, Action.attempt, hrun']
  rfl

theorem runNative_of_refused (hroom : v.pool.wrapped.toNat + attached.toNat < 2 ^ 256) {cause : EngineError}
    (hrun : runPlan x account v.pool.wrappedNative principal plan v = .error (.refused cause) t) :
    ∃ t', runNative x account plan attached v = .error (.refused cause) t' ∧ t'.pool = t.pool := by
  have hsame := runPlan_alike x account v.pool.wrappedNative plan principal hfaults .wrap (.wrap attached)
    (v.pool.wrapped + attached)
  obtain ⟨t', hrun', ht⟩ := hsame.of_error hrun
  have hwrapped : t'.pool.wrapped = v.pool.wrapped + attached := by
    rw [ht.pool]
    rfl
  have henough : attached ≤ t'.pool.wrapped := by
    rw [hwrapped, BitVec.le_def, toNat_add_of_lt hroom]
    exact Nat.le_add_left _ _
  have hunwrap := unwrap_of_le ht.faults' henough
  refine ⟨t'.rewrapped .unwrap (.unwrap attached) (t'.pool.wrapped - attached), ?_, ?_⟩
  · rw [runNative_eq x account hgateway hfaults hprincipal, run_bind, Action.attempt, hrun']
    simp only [refunded, run_bind, Action.attempt, hunwrap]
    rfl
  · have hkept : t.pool.wrapped = v.pool.wrapped := by
      rw [← final_of_error hrun]
      exact runPlan_wrapped hfaults
    show t'.pool.rewrap (t'.pool.wrapped - attached) = t.pool
    rw [hwrapped, BitVec.add_sub_cancel, ← hkept, ht.pool]
    rfl

theorem runNative_of_trapped {trap : Trap}
    (hrun : runPlan x account v.pool.wrappedNative principal plan v = .error (.trapped trap) t) :
    ∃ t', runNative x account plan attached v = .error (.trapped trap) t' := by
  have hsame := runPlan_alike x account v.pool.wrappedNative plan principal hfaults .wrap (.wrap attached)
    (v.pool.wrapped + attached)
  obtain ⟨t', hrun', -⟩ := hsame.of_error hrun
  refine ⟨t', ?_⟩
  rw [runNative_eq x account hgateway hfaults hprincipal, run_bind, Action.attempt, hrun']

end Outcomes

/-- A value that is quoted for a principal buys the run of that principal in the token: the same receipt or the
same refusal, and the same pool, where the value stays wrapped once the run has settled. -/
theorem runNative_refines (x : Executor) (account : Address) (plan : Plan) (principal attached : Word)
    (v : Venue) (hgateway : v.gateway) (hfaults : v.faults = [])
    (hrate : plan.loopCount * v.feeBps ≤ scale) (hquote : quote v.feeBps principal plan = .ok attached)
    (hroom : v.pool.wrapped.toNat + attached.toNat < 2 ^ 256) :
    let native : ExecM Receipt := runNative x account plan attached
    let token : ExecM Receipt := runPlan x account v.pool.wrappedNative principal plan
    native.answer v = token.answer v ∧
    (∀ receipt, token.answer v = .ok receipt →
      (native.final v).pool = (token.final v).pool.rewrap (v.pool.wrapped + attached) ∧
      (token.final v).pool.wrapped = v.pool.wrapped ∧
      (native.final v).pool.wrapped.toNat = v.pool.wrapped.toNat + attached.toNat) ∧
    (∀ cause, token.answer v = .error (.refused cause) →
      (native.final v).pool = (token.final v).pool ∧ (native.final v).pool.wrapped = v.pool.wrapped) := by
  intro native token
  have hprincipal := principalFor_of_quote hrate hquote
  have hkept : (token.final v).pool.wrapped = v.pool.wrapped := runPlan_wrapped hfaults
  cases hrun : token v with
  | ok receipt t =>
    obtain ⟨t', hnative, hpool⟩ := runNative_of_ok hgateway hfaults hprincipal hrun
    rw [answer_of_ok hnative, answer_of_ok hrun, final_of_ok hnative, final_of_ok hrun]
    rw [final_of_ok hrun] at hkept
    refine ⟨rfl, fun _ _ => ⟨hpool, hkept, ?_⟩, fun _ h => by cases h⟩
    rw [hpool, ← toNat_add_of_lt hroom]
    rfl
  | error e t =>
    cases e with
    | refused cause =>
      obtain ⟨t', hnative, hpool⟩ := runNative_of_refused hgateway hfaults hprincipal hroom hrun
      rw [answer_of_error hnative, answer_of_error hrun, final_of_error hnative, final_of_error hrun]
      rw [final_of_error hrun] at hkept
      exact ⟨rfl, fun _ h => (by cases h), fun _ _ => ⟨hpool, by rw [hpool, hkept]⟩⟩
    | trapped trap =>
      obtain ⟨t', hnative⟩ := runNative_of_trapped hgateway hfaults hprincipal hrun
      rw [answer_of_error hnative, answer_of_error hrun]
      exact ⟨rfl, fun _ h => (by cases h), fun _ h => (by cases h)⟩

def sampleToken (plan : Plan) : ExecM Receipt := runPlan { operator := ⟨7⟩ } ⟨7⟩ ⟨1⟩ 1000 plan

def sampleCoin (plan : Plan) (attached : Word) : ExecM Receipt :=
  runNative { operator := ⟨7⟩ } ⟨7⟩ plan attached

/-- Two loops settle and keep the value wrapped; five loops at a higher ratio are refused by the guard once all is
supplied and borrowed, and the value is given back. -/
theorem runNative_refines_loops :
    (∃ receipt, (sampleToken ⟨2, 7000⟩).answer (sampleVenue []) = .ok receipt ∧
      (sampleCoin ⟨2, 7000⟩ 1001).answer (sampleVenue []) = .ok receipt ∧
      ((sampleCoin ⟨2, 7000⟩ 1001).final (sampleVenue [])).pool =
        ((sampleToken ⟨2, 7000⟩).final (sampleVenue [])).pool.rewrap 1001) ∧
    ∃ cause, (sampleToken ⟨5, 9500⟩).answer (sampleVenue []) = .error (.refused cause) ∧
      (sampleCoin ⟨5, 9500⟩ 1003).answer (sampleVenue []) = .error (.refused cause) ∧
      ((sampleCoin ⟨5, 9500⟩ 1003).final (sampleVenue [])).pool =
        ((sampleToken ⟨5, 9500⟩).final (sampleVenue [])).pool := by
  have hsettled : ((sampleToken ⟨2, 7000⟩).answer (sampleVenue [])).map (fun _ => ()) = .ok () := by
    decide +kernel
  have hrefused : (sampleToken ⟨5, 9500⟩).answer (sampleVenue []) = .error (.refused
      (.insufficientCollateral 4293 4234 1047996738877242021 FixedPoint.wad)) := by decide +kernel
  obtain ⟨receipt, hrun, -⟩ := exists_ok_of_map_answer hsettled
  have htoken := answer_of_ok hrun
  have hkept := runNative_refines { operator := ⟨7⟩ } ⟨7⟩ ⟨2, 7000⟩ 1000 1001 (sampleVenue []) rfl rfl
    (by decide) (by decide +kernel) (by decide)
  have hgiven := runNative_refines { operator := ⟨7⟩ } ⟨7⟩ ⟨5, 9500⟩ 1000 1003 (sampleVenue []) rfl rfl
    (by decide) (by decide +kernel) (by decide)
  refine ⟨⟨receipt, htoken, hkept.1.trans htoken, (hkept.2.1 receipt htoken).1⟩, _, hrefused, ?_, ?_⟩
  · exact hgiven.1.trans hrefused
  · exact (hgiven.2.2 _ hrefused).1

end Native

end Executor
end Gearing
