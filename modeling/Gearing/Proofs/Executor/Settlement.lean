import Gearing.Proofs.Executor.Judged
import Gearing.Proofs.Executor.Phases

/-!
The settlement of a run. When the guard has accepted, the cash in hand is the flash liquidity and the fee that was
quoted for it, and the ticket asks for the flash liquidity and the fee that is charged. So it is the two fees that
are compared, whatever the schedule, and each way in which they differ is refused in its own words.

None of it depends on where the flash liquidity comes from. So it is told of a run with any provider, which may be the
pool of the run itself (`runSchedule_own`).
-/
namespace Gearing
open Gearing.Action Pool Flash

namespace Pool
variable {p q : Pool} {asset account : Address} {a : Answer}

theorem Effect.fees_eq {op : Op} (h : p.Effect op a q) (hrepay : ∀ t paid, op ≠ .repay t paid)
    (hrevert : ∀ id, op ≠ .revert id) : q.fees = p.fees := by
  cases h with
  | list r => rw [list_eq]
  | deposit => exact record_fees ..
  | borrow => exact record_fees ..
  | borrowFor => exact record_fees ..
  | acquire => exact record_fees ..
  | repay => exact absurd rfl (hrepay _ _)
  | revert => exact absurd rfl (hrevert _)
  | _ => rfl

theorem Carried.fees_eq {ops : List Op} (h : p.Carried ops q) (hrepay : ∀ t paid, .repay t paid ∉ ops)
    (hrevert : ∀ id, .revert id ∉ ops) : q.fees = p.fees := by
  induction h with
  | nil p => rfl
  | cons head tail ih =>
    have htail := ih (fun t paid hmem => hrepay t paid (List.mem_cons_of_mem _ hmem))
      (fun id hmem => hrevert id (List.mem_cons_of_mem _ hmem))
    exact htail.trans (head.fees_eq (fun t paid h => hrepay t paid (h ▸ List.mem_cons_self))
      (fun id h => hrevert id (h ▸ List.mem_cons_self)))

theorem Effect.feesCollected_repay {ticket : Nat} {paid amount fee : Word} (h : p.Effect (.repay ticket paid) a q)
    (hloan : p.loans.get? ticket = some ⟨asset, amount, fee, account⟩) :
    q.feesCollected asset = p.feesCollected asset + fee := by
  cases h with
  | repay out =>
    rw [hloan] at out
    cases out
    rw [feesCollected, Pool.redeem, record_fees]
    exact (Table.getD_set ..).trans (if_pos rfl)

end Pool

namespace Executor
variable {x : Executor} {account asset : Address} {s : Schedule}

theorem fees_judged {p q : Pool} (h : p.Carried (judgedOps x account asset s) q) : q.fees = p.fees := by
  refine h.fees_eq (fun t _ hmem => ?_) (fun _ hmem => ?_)
  · rcases List.mem_cons.mp hmem with hcheckpoint | hmem
    · cases hcheckpoint
    · exact lt_irrefl t (judged_own x.operator account asset s t _ hmem)
  · rcases List.mem_cons.mp hmem with hcheckpoint | hmem
    · cases hcheckpoint
    · exact judged_own x.operator account asset s 0 _ hmem

theorem feesCollected_wholeScript {p q : Pool} (h : p.Carried (wholeScript x account asset s p) q) :
    q.feesCollected asset = p.feesCollected asset + p.flashFee s.totalBorrow := by
  obtain ⟨a, p₁, p₂, b, p₃, c, hacquire, htranches, hrepay, -, hcommit⟩ := carried_wholeScript h
  have hloan := loan_out hacquire htranches
  have hbefore : p₂.fees = p.fees := fees_judged (.cons (.checkpoint h.opened.1) (.cons hacquire htranches))
  have hafter : q.fees = p₃.fees := hcommit.fees_eq nofun nofun
  rw [feesCollected, hafter, ← feesCollected, hrepay.feesCollected_repay hloan, feesCollected, hbefore, feesCollected]

/-- What a run keeps until its ticket is repaid: the journal of its checkpoint is open, the loan is out and the
reserve is listed. -/
structure Accepted (account asset : Address) (s : Schedule) (p : Pool) (id : Nat) (t : Ticket) (q : Pool) : Prop where
  ticket : t = p.nextTicket asset s.totalBorrow
  journal : (q.journals.get? id).isSome
  loan : q.loans.get? t.id = some ⟨asset, s.totalBorrow, t.fee, account⟩
  listed : asset ∈ q.assets

theorem accepted_of_approach {v u : Venue} {id : Nat} {t : Ticket} {health : HealthReport} {r : Run}
    (hopened : opening x account asset s v = .ok id u)
    (happroach : own.approach x account asset s { venue := u } = .ok (t, health) r) :
    Accepted account asset s v.pool id t r.venue.pool := by
  obtain ⟨-, rfl, hpool, hadmits⟩ := (opening_ends x account asset s v).of_ok hopened
  obtain ⟨hticket, hpath, -⟩ := (approach_ends x account asset 0 s { venue := u }).of_ok happroach
  have hown := judged_own x.operator account asset s 0
  have hticket : t = v.pool.nextTicket asset s.totalBorrow := by
    refine hticket.trans ?_
    show u.pool.nextTicket asset s.totalBorrow = _
    rw [hpool]
    rfl
  have hcarried := hpath.pool
  rw [hpool] at hcarried
  obtain ⟨c, hc, -⟩ := hadmits.borrowable
  refine ⟨hticket, ?_, ?_, ?_⟩
  · rw [hcarried.isSome_journal hown]
    exact Option.isSome_of_mem (Table.get?_set_self ..)
  · rw [hticket]
    cases hcarried with
    | cons acquire tranches => exact loan_out acquire tranches
  · rw [hcarried.assets_eq fun _ hmem => hown _ hmem]
    exact mem_assets_of_reserve? hc

end Executor

namespace Provider
open Executor

section Settle
variable {P : Provider} {t : Ticket} {r : Run}

theorem settle_short (h : r.cash < t.owed) :
    P.flash.settle t r = .error (.refused (.settlement t.owed r.cash)) r := by
  have hsub : Word.sub? r.cash t.owed = none := by rw [Word.sub?, if_neg (BitVec.not_le.mpr h)]
  simp only [settle, Run.spend, run_bind, run_get, hsub]
  rfl

theorem settle_over (h : t.owed < r.cash) : P.flash.settle t r =
    .error (.refused (.settlement t.owed (r.cash - t.owed))) { r with cash := r.cash - t.owed } := by
  have hsub : Word.sub? r.cash t.owed = some (r.cash - t.owed) := by
    rw [Word.sub?, if_pos (BitVec.le_of_lt h)]
  have hleft : r.cash - t.owed ≠ 0 := fun hzero => BitVec.lt_irrefl t.owed (by rwa [sub_eq_zero.mp hzero] at h)
  simp only [settle, Run.spend, run_bind, run_get, hsub, run_set, if_pos hleft]
  rfl

theorem settle_even {w : Venue} (h : r.cash = t.owed) (hrepay : P.repay t t.owed r.venue = .ok () w) :
    ∃ r', P.flash.settle t r = .ok () r' ∧ r'.stage = r.stage ∧ r'.venue = w := by
  have hsub : Word.sub? r.cash t.owed = some 0 := by
    rw [Word.sub?, h, if_pos (BitVec.le_refl _)]
    exact congrArg some (sub_self _)
  simp only [settle, Run.spend, run_bind, run_get, hsub, run_set, ne_eq, not_true_eq_false, if_false,
    Run.onVenue, Action.focus, Action.relabel, flash, hrepay]
  exact ⟨_, rfl, rfl, rfl⟩

end Settle

/-- From here on nothing fails: the ticket can be repaid and the run committed and read back, and it can be rolled
back as well. -/
structure Unfailing (P : Provider) (account asset : Address) (id : Nat) (t : Ticket) (v : Venue) : Prop where
  settles : ∃ w₁ w₂ position w₃, P.repay t t.owed v = .ok () w₁ ∧ Venue.commit id w₁ = .ok () w₂ ∧
    Venue.position account asset w₂ = .ok position w₃
  reverts : ∃ w, Venue.revert id v = .ok () w

section Verdicts
variable {P : Provider} {x : Executor} {account asset : Address} {s : Schedule} {v u : Venue} {id : Nat}
  {t : Ticket} {health : HealthReport} {r : Run} {plan : Option Plan}

variable (P x account asset s) in
theorem approach_ends (r : Run) :
    (P.flash.approach x account asset s).Ends
      (fun judged r' => r'.cash = judged.1.amount + P.fee s.totalBorrow ∧ r'.stage = .repaying)
      (fun _ _ => True) r := by
  rw [approach, fund, ends_bind, ends_bind, ends_get, ends_bind, ends_modify, ends_bind, Run.onVenue_ends]
  refine .of_forall (fun t w => ?_) (fun _ _ => trivial)
  rw [ends_bind, Run.receive, ends_modify, ends_bind]
  refine Run.advance_ends _ ?_ (fun _ => trivial)
  rw [ends_bind]
  show Ends (x.build account asset s >>= _) _ _ _
  rw [ends_bind]
  refine (build_ends x account asset 0 s _).mono (fun health r' h => ?_) (fun _ _ _ => trivial)
  obtain ⟨-, hcash, hstage, -⟩ := h
  refine ⟨hcash.trans ?_, hstage⟩
  show s.principal + P.fee s.totalBorrow + t.amount - s.principal = t.amount + P.fee s.totalBorrow
  abel

section Cash
variable (happroach : P.flash.approach x account asset s { venue := u } = .ok (t, health) r)
  (hamount : t.amount = s.totalBorrow)
include happroach hamount

theorem cash_of_approach : r.cash = s.totalBorrow + P.fee s.totalBorrow ∧ t.owed = s.totalBorrow + t.fee := by
  obtain ⟨hcash, -⟩ := (approach_ends P x account asset s _).of_ok happroach
  rw [hcash, Ticket.owed, hamount]
  exact ⟨rfl, rfl⟩

variable (hquoted : s.totalBorrow.toNat + (P.fee s.totalBorrow).toNat < 2 ^ 256)
  (hcharged : s.totalBorrow.toNat + t.fee.toNat < 2 ^ 256)
include hquoted hcharged

theorem settle_of_less (hless : P.fee s.totalBorrow < t.fee) : P.flash.settle t r =
    .error (.refused (.settlement (s.totalBorrow + t.fee) (s.totalBorrow + P.fee s.totalBorrow))) r := by
  obtain ⟨hcash, howed⟩ := cash_of_approach happroach hamount
  have hshort : r.cash < t.owed := by
    rw [BitVec.lt_def] at hless ⊢
    rw [hcash, howed, toNat_add_of_lt hquoted, toNat_add_of_lt hcharged]
    omega
  rw [settle_short hshort, hcash, howed]

theorem settle_of_more (hmore : t.fee < P.fee s.totalBorrow) : P.flash.settle t r =
    .error (.refused (.settlement (s.totalBorrow + t.fee) (P.fee s.totalBorrow - t.fee)))
      { r with cash := r.cash - t.owed } := by
  obtain ⟨hcash, howed⟩ := cash_of_approach happroach hamount
  have hover : t.owed < r.cash := by
    rw [BitVec.lt_def] at hmore ⊢
    rw [hcash, howed, toNat_add_of_lt hquoted, toNat_add_of_lt hcharged]
    omega
  have hleft : r.cash - t.owed = P.fee s.totalBorrow - t.fee := by
    rw [hcash, howed]
    exact add_sub_add_left_eq_sub ..
  rw [settle_over hover, hleft, howed]

end Cash

theorem execute_of_approach (happroach : P.flash.approach x account asset s { venue := u } = .ok (t, health) r) :
    P.flash.execute x account asset s { venue := u } = (P.flash.settle t >>= fun _ => pure health) r := by
  rw [execute_eq, run_bind, happroach]

theorem runSchedule_refused {cause : EngineError} {r' : Run} {w : Venue}
    (hopened : opening x account asset s v = .ok id u)
    (happroach : P.flash.approach x account asset s { venue := u } = .ok (t, health) r)
    (hsettle : P.flash.settle t r = .error (.refused cause) r') (hrevert : Venue.revert id r'.venue = .ok () w) :
    P.flash.runSchedule x account asset s plan v = .error (.refused cause) w := by
  have hexecute := execute_of_approach happroach
  rw [run_bind, hsettle] at hexecute
  have hclosed := (underCheckpoint_of_refused hexecute).trans (abort_of_revert cause hrevert)
  simp only [Flash.runSchedule, run_bind, hopened, hclosed]
  rfl

theorem runSchedule_settled {position : Position} {r' : Run} {w₂ w₃ : Venue}
    (hopened : opening x account asset s v = .ok id u)
    (happroach : P.flash.approach x account asset s { venue := u } = .ok (t, health) r)
    (hsettle : P.flash.settle t r = .ok () r') (hstage : r'.stage = .repaying)
    (hcommit : Venue.commit id r'.venue = .ok () w₂)
    (hposition : Venue.position account asset w₂ = .ok position w₃) :
    ∃ receipt, P.flash.runSchedule x account asset s plan v = .ok receipt w₃ ∧
      receipt.flashFee = P.fee s.totalBorrow := by
  have hexecute : P.flash.execute x account asset s { venue := u } = .ok health r' := by
    rw [execute_of_approach happroach, run_bind, hsettle]
    rfl
  have hclosed := (underCheckpoint_of_ok hexecute).trans (conclude_of_commit health hcommit hstage)
  simp only [Flash.runSchedule, run_bind, hopened, hclosed, report, onVenue, Action.relabel, hposition, run_get]
  exact ⟨_, rfl, rfl⟩

end Verdicts

section Own
variable {x : Executor} {account asset : Address} {s : Schedule} {v : Venue} {r : Run}

theorem approach_own (h : r.venue.flashFee s.totalBorrow = v.flashFee s.totalBorrow) :
    (own v).flash.approach x account asset s r = own.approach x account asset s r := by
  have hfund : (own v).flash.fund account asset s r = own.fund account asset s r := by
    simp only [fund, run_bind, run_get, own, Provider.flash, h]
  simp only [approach, run_bind, hfund]

theorem execute_own (h : r.venue.flashFee s.totalBorrow = v.flashFee s.totalBorrow) :
    (own v).flash.execute x account asset s r = own.execute x account asset s r := by
  rw [execute_eq, execute_eq, run_bind, run_bind, approach_own h]
  rfl

theorem report_own (plan : Option Plan) (ending : Ending) :
    (own v).flash.report account asset s plan ending = (do
      let receipt ← own.report account asset s plan ending
      return { receipt with flashFee := v.flashFee s.totalBorrow }) := by
  obtain ⟨cause | health, run⟩ := ending
  · rfl
  · simp only [report, bind_assoc, pure_bind]
    rfl

variable (x account asset s v) in
/-- The runs of an executor are those with its own venue for a provider. -/
theorem runSchedule_own (plan : Option Plan) : (own v).flash.runSchedule x account asset s plan v =
    x.runSchedule account asset s plan v := by
  have hends := runSchedule_ends x account asset s plan v
  rw [Flash.runSchedule, run_bind]
  cases hopened : opening x account asset s v with
  | error e w => rw [runSchedule_eq, run_bind, hopened]
  | ok id u =>
    have hfee : ({ venue := u } : Run).venue.flashFee s.totalBorrow = v.flashFee s.totalBorrow :=
      ((opening_ends x account asset s v).of_ok hopened).1.flashFee_eq _
    have hcarried : carryOut ((own v).flash.execute x account asset s) u =
        carryOut (own.execute x account asset s) u := by
      simp only [carryOut, Action.attempt, execute_own hfee]
    rw [Ends, runSchedule_of_opened plan hopened] at hends
    rw [runSchedule_of_opened plan hopened]
    have hrest : (underCheckpoint id ((own v).flash.execute x account asset s) >>=
          (own v).flash.report account asset s plan) u =
        (underCheckpoint id (own.execute x account asset s) >>= own.report account asset s plan >>= fun receipt =>
          pure { receipt with flashFee := v.flashFee s.totalBorrow }) u := by
      simp only [underCheckpoint, bind_assoc]
      rw [run_bind, run_bind, hcarried, funext (report_own plan)]
    refine hrest.trans ?_
    rw [run_bind]
    cases hrun : (underCheckpoint id (own.execute x account asset s) >>= own.report account asset s plan) u with
    | error e w => rfl
    | ok receipt w =>
      -- The receipt says the quoted fee as it is.
      rw [hrun] at hends
      show EStateM.Result.ok { receipt with flashFee := v.flashFee s.totalBorrow } w = _
      rw [← hends.flashFee]

/-- On the pool of its own venue nothing but a fault can fail once the guard has accepted. -/
theorem unfailing_of_clear {u : Venue} {id : Nat} {t : Ticket} {health : HealthReport}
    (hopened : opening x account asset s v = .ok id u)
    (happroach : (own v).flash.approach x account asset s { venue := u } = .ok (t, health) r)
    (hclear : ∀ c ∈ [Call.repay, .commit, .position, .revertTo], r.venue.Clear c) :
    (own v).Unfailing account asset id t r.venue := by
  have hfee : ({ venue := u } : Run).venue.flashFee s.totalBorrow = v.flashFee s.totalBorrow :=
    ((opening_ends x account asset s v).of_ok hopened).1.flashFee_eq _
  rw [approach_own hfee] at happroach
  obtain ⟨hticket, hjournal, hloan, hlisted⟩ := accepted_of_approach hopened happroach
  obtain ⟨c, hc⟩ := Option.isSome_iff_exists.mp ((r.venue.pool.isSome_reserve? asset).mpr hlisted)
  have howed : t.owed = s.totalBorrow + t.fee := by
    rw [hticket]
    rfl
  obtain ⟨q, hq⟩ : ∃ q, r.venue.pool.Effect (.repay t.id t.owed) .done q :=
    ⟨_, .repay hloan (howed ▸ BitVec.le_refl _) hc⟩
  constructor
  case reverts =>
    obtain ⟨j, hj⟩ := Option.isSome_iff_exists.mp hjournal
    exact ⟨_, Venue.revert_of_journal (hclear .revertTo (by simp)) hj⟩
  obtain ⟨w₁, hrepay, rfl, hfaults₁, hcalls₁⟩ : ∃ w₁, (own v).repay t t.owed r.venue = .ok () w₁ ∧
      w₁.pool = q ∧ w₁.faults = r.venue.faults ∧ w₁.calls = .repay :: r.venue.calls :=
    ⟨_, Venue.perform_done_of_clear (hclear .repay (by simp)) rfl hq, rfl, rfl, rfl⟩
  have hcount₁ : ∀ c ≠ Call.repay, w₁.calls.count c = r.venue.calls.count c := fun c hc => by
    rw [hcalls₁]
    exact List.count_cons_of_ne (Ne.symm hc)
  -- Repaying leaves the journal of the run as open as it was.
  have hown : ∀ op ∈ [Op.repay t.id t.owed], op.Own account 0 := by
    rw [hticket]
    exact List.forall_mem_singleton.mpr (Nat.succ_pos _)
  have hkept : (w₁.pool.journals.get? id).isSome := by rwa [(Carried.single hq).isSome_journal hown]
  obtain ⟨j, hj⟩ := Option.isSome_iff_exists.mp hkept
  obtain ⟨w₂, hcommit, hassets, hfaults₂, hcalls₂⟩ : ∃ w₂, Venue.commit id w₁ = .ok () w₂ ∧
      w₂.pool.assets = w₁.pool.assets ∧ w₂.faults = w₁.faults ∧ w₂.calls = .commit :: w₁.calls :=
    ⟨_, Venue.commit_of_journal ((hclear .commit (by simp)).of_same hfaults₁ (hcount₁ _ (by decide))) hj,
      rfl, rfl, rfl⟩
  have hlisted₂ : asset ∈ w₂.pool.assets := by rwa [hassets, hq.assets_eq nofun]
  have hclear₂ : w₂.Clear .position := by
    refine (hclear .position (by simp)).of_same (hfaults₂.trans hfaults₁) ?_
    rw [hcalls₂, List.count_cons_of_ne (by decide), hcount₁ _ (by decide)]
  have hread := @Venue.position_ends w₂ account asset hlisted₂
  cases hposition : Venue.position account asset w₂ with
  | ok position w₃ => exact ⟨w₁, w₂, position, w₃, hrepay, hcommit, hposition⟩
  | error e w₃ => exact absurd hclear₂ (hread.of_error hposition).2.1

end Own

section Verdict
variable {P : Provider} {x : Executor} {account asset : Address} {s : Schedule} {v u : Venue} {id : Nat}
  {t : Ticket} {health : HealthReport} {r : Run}

/-- A run that its guard has accepted settles just where the fee that was quoted is the fee of its ticket: the receipt
says what the provider was paid beside its liquidity. Where less was quoted the repayment falls short, and where more
was quoted something is left of it. With the pool of its own venue for a provider that is the executor's own run. -/
theorem settles_iff_fee_eq (plan : Option Plan) (hopened : opening x account asset s v = .ok id u)
    (happroach : P.flash.approach x account asset s { venue := u } = .ok (t, health) r)
    (hamount : t.amount = s.totalBorrow) (hunfailing : P.Unfailing account asset id t r.venue)
    (hquoted : s.totalBorrow.toNat + (P.fee s.totalBorrow).toNat < 2 ^ 256)
    (hcharged : s.totalBorrow.toNat + t.fee.toNat < 2 ^ 256) :
    ((∃ receipt w, P.flash.runSchedule x account asset s plan v = .ok receipt w) ↔ P.fee s.totalBorrow = t.fee) ∧
    (P.fee s.totalBorrow < t.fee → ∃ w, P.flash.runSchedule x account asset s plan v =
      .error (.refused (.settlement (s.totalBorrow + t.fee) (s.totalBorrow + P.fee s.totalBorrow))) w) ∧
    (t.fee < P.fee s.totalBorrow → ∃ w, P.flash.runSchedule x account asset s plan v =
      .error (.refused (.settlement (s.totalBorrow + t.fee) (P.fee s.totalBorrow - t.fee))) w) ∧
    (∀ receipt w, P.flash.runSchedule x account asset s plan v = .ok receipt w →
      receipt.flashFee = t.fee ∧ (∃ w', P.repay t (s.totalBorrow + receipt.flashFee) r.venue = .ok () w') ∧
      (P = own v → w.pool.feesCollected asset = v.pool.feesCollected asset + receipt.flashFee)) ∧
    (P = own v → P.flash.runSchedule x account asset s plan v = x.runSchedule account asset s plan v) := by
  obtain ⟨⟨w₁, w₂, position, w₃, hrepay, hcommit, hposition⟩, w, hrevert⟩ := hunfailing
  obtain ⟨-, hstage⟩ := (approach_ends P x account asset s _).of_ok happroach
  obtain ⟨hcash, howed⟩ := cash_of_approach happroach hamount
  have hlow (hless : P.fee s.totalBorrow < t.fee) : P.flash.runSchedule x account asset s plan v =
      .error (.refused (.settlement (s.totalBorrow + t.fee) (s.totalBorrow + P.fee s.totalBorrow))) w :=
    runSchedule_refused hopened happroach (settle_of_less happroach hamount hquoted hcharged hless) hrevert
  have hhigh (hmore : t.fee < P.fee s.totalBorrow) : P.flash.runSchedule x account asset s plan v =
      .error (.refused (.settlement (s.totalBorrow + t.fee) (P.fee s.totalBorrow - t.fee))) w :=
    runSchedule_refused hopened happroach (settle_of_more happroach hamount hquoted hcharged hmore) hrevert
  have heven (hsame : P.fee s.totalBorrow = t.fee) : ∃ receipt,
      P.flash.runSchedule x account asset s plan v = .ok receipt w₃ ∧ receipt.flashFee = P.fee s.totalBorrow := by
    obtain ⟨r', hsettle, hstage', rfl⟩ := settle_even (by rw [hcash, howed, hsame]) hrepay
    exact runSchedule_settled hopened happroach hsettle (hstage'.trans hstage) hcommit hposition
  have hsame_of_ok {receipt : Receipt} {w' : Venue}
      (hrun : P.flash.runSchedule x account asset s plan v = .ok receipt w') : P.fee s.totalBorrow = t.fee := by
    rcases Nat.lt_trichotomy (P.fee s.totalBorrow).toNat t.fee.toNat with hless | hsame | hmore
    · cases hrun.symm.trans (hlow (BitVec.lt_def.mpr hless))
    · exact BitVec.eq_of_toNat_eq hsame
    · cases hrun.symm.trans (hhigh (BitVec.lt_def.mpr hmore))
  refine ⟨⟨?_, fun hsame => ?_⟩, fun hless => ⟨w, hlow hless⟩, fun hmore => ⟨w, hhigh hmore⟩,
    fun receipt w' hrun => ?_, fun hown => by rw [hown, runSchedule_own]⟩
  · rintro ⟨receipt, w', hrun⟩
    exact hsame_of_ok hrun
  · obtain ⟨receipt, hrun, -⟩ := heven hsame
    exact ⟨receipt, w₃, hrun⟩
  have hsame := hsame_of_ok hrun
  have hfee : receipt.flashFee = t.fee := by
    obtain ⟨receipt', hrun', hfee⟩ := heven hsame
    cases hrun.symm.trans hrun'
    exact hfee.trans hsame
  refine ⟨hfee, ⟨w₁, by rwa [hfee, ← howed]⟩, ?_⟩
  rintro rfl
  rw [runSchedule_own] at hrun
  have hsettles := (runSchedule_ends x account asset s plan v).of_ok hrun
  rw [feesCollected_wholeScript hsettles.carried, hsettles.flashFee, hsettles.fee]

/-- The pool of the samples, with a fee of 9 basis points but a venue that quotes another one. -/
def misquoted (feeBps : Nat) : Venue := { pool := samplePool, quotedFeeBps := some feeBps }

/-- Two loops there, up to their checkpoint, from there to the verdict of the guard, and as a whole. -/
def misquotedOpening : ExecM Nat := opening { operator := ⟨7⟩ } ⟨7⟩ ⟨1⟩ ⟨1000, [700, 490]⟩

def misquotedApproach (feeBps : Nat) : RunM (Ticket × HealthReport) :=
  (own (misquoted feeBps)).flash.approach { operator := ⟨7⟩ } ⟨7⟩ ⟨1⟩ ⟨1000, [700, 490]⟩

def misquotedRun : ExecM Receipt := runSchedule { operator := ⟨7⟩ } ⟨7⟩ ⟨1⟩ ⟨1000, [700, 490]⟩ none

/-- Of 1190 a fee of 9 basis points is one unit and so is one of 10, while one of 20 leaves a unit in hand. -/
theorem settles_iff_fee_eq_misquoted :
    (∃ receipt w, misquotedRun (misquoted 10) = .ok receipt w) ∧
    ∃ w, misquotedRun (misquoted 20) = .error (.refused (.settlement 1191 1)) w := by
  have hverdict {feeBps : Nat} (hopened : misquotedOpening.answer (misquoted feeBps) = .ok 1)
      (happroach : ((misquotedApproach feeBps).answer
        { venue := misquotedOpening.final (misquoted feeBps) }).map Prod.fst = .ok ⟨1, ⟨1⟩, 1190, 1⟩)
      (hfaults : ((misquotedApproach feeBps).final
        { venue := misquotedOpening.final (misquoted feeBps) }).venue.faults = [])
      (hquoted : 1190 + ((misquoted feeBps).flashFee 1190).toNat < 2 ^ 256) :
      ((∃ receipt w, misquotedRun (misquoted feeBps) = .ok receipt w) ↔
        (misquoted feeBps).flashFee 1190 = 1) ∧
      (1 < (misquoted feeBps).flashFee 1190 → ∃ w, misquotedRun (misquoted feeBps) =
        .error (.refused (.settlement (1190 + 1) ((misquoted feeBps).flashFee 1190 - 1))) w) := by
    have hopened := eq_ok_of_answer hopened
    obtain ⟨⟨t, health⟩, happroach, hticket⟩ := exists_ok_of_map_answer happroach
    obtain rfl : t = ⟨1, ⟨1⟩, 1190, 1⟩ := hticket
    obtain ⟨hsettles, -, hmore, -, hrun⟩ := settles_iff_fee_eq none hopened happroach rfl
      (unfailing_of_clear hopened happroach fun c _ => Venue.clear_of_faults hfaults c) hquoted (by decide)
    rw [hrun rfl] at hsettles hmore
    exact ⟨hsettles, hmore⟩
  obtain ⟨hsettles, -⟩ := @hverdict 10 (by decide +kernel) (by decide +kernel) (by decide +kernel) (by decide +kernel)
  obtain ⟨-, hmore⟩ := @hverdict 20 (by decide +kernel) (by decide +kernel) (by decide +kernel) (by decide +kernel)
  exact ⟨hsettles.mpr (by decide +kernel), hmore (by decide +kernel)⟩

end Verdict

end Provider
end Gearing
