import Gearing.Proofs.Pool.View

/-!
An operation that halts was not called: no later question and no later operation can tell.

It leaves the pool that it found. The borrow that finds too small an allowance may write that
allowance down as it is, and the repayment that is too small may take its loan out and put it back;
nobody sees that either.
-/
namespace Gearing.Pool
open Gearing.Action

/-- What can be asked of a pool. -/
inductive Query where
  | reserve (asset : Address)
  | position (account asset : Address)
  | snapshot (account : Address)
  | allowance (account delegatee asset : Address)
  | flashFee (amount : Word)
  | feesCollected (asset : Address)
  | wrappedNative
  | wrapped
  | checkpointed (account : Address)
  /-- How many loans are out. -/
  | outstanding
  deriving DecidableEq, Repr

inductive Finding where
  | reserve (r : Reserve)
  | position (x : Position)
  | snapshot (s : Snapshot)
  | word (w : Word)
  | address (a : Address)
  | flag (b : Bool)
  | count (n : Nat)
  deriving DecidableEq, Repr

def ask : Query → PoolM Finding
  | .reserve asset => return .reserve (← reserve asset)
  | .position account asset => return .position (← position account asset)
  | .snapshot account => return .snapshot ((← get).snapshot account)
  | .allowance account delegatee asset => return .word (← borrowAllowance account delegatee asset)
  | .flashFee amount => return .word ((← get).flashFee amount)
  | .feesCollected asset => return .word ((← get).feesCollected asset)
  | .wrappedNative => return .address (← get).wrappedNative
  | .wrapped => return .word (← get).wrapped
  | .checkpointed account => return .flag ((← get).opened.contains account)
  | .outstanding => return .count (← get).loans.size

inductive Message where
  | op (op : Op)
  | ask (query : Query)
  deriving DecidableEq, Repr

inductive Response where
  | answer (a : Answer)
  | finding (f : Finding)
  deriving DecidableEq, Repr

def respond : Message → PoolM Response
  | .op op => return .answer (← apply op)
  | .ask query => return .finding (← ask query)

/-- What is said to one message after the other, also behind one that halts. -/
def transcript (p : Pool) : List Message → List (Except (Halt PoolError) Response)
  | [] => []
  | r :: rs => (respond r).answer p :: transcript ((respond r).final p) rs

section Unseen
variable {p q : Pool}

instance (account asset : Address) : Blind SameView (position account asset) := by
  have hread : ∀ r : Reserve, Blind SameView (do
      let (deposited, borrowed) := (← get).totals account r
      return { account, asset, deposited, borrowed } : PoolM Position) := by
    refine fun r => blind_view fun h => ?_
    simp only [h.totals]
    exact alike_of_ok rfl rfl rfl h
  unfold position
  infer_instance

instance (account delegatee asset : Address) :
    Blind SameView (borrowAllowance account delegatee asset) := by
  have hread : Blind SameView (return (← get).allowance account delegatee asset : PoolM Word) :=
    blind_view fun h => alike_of_ok rfl rfl (h.allowance account delegatee asset) h
  unfold borrowAllowance
  infer_instance

theorem blind_reading {f : Pool → Finding} (hf : ∀ {p q : Pool}, p.SameView q → f p = f q) :
    Blind SameView (return f (← get) : PoolM Finding) :=
  blind_view fun h => alike_of_ok rfl rfl (hf h) h

instance (query : Query) : Blind SameView (ask query) := by
  cases query with
  | reserve | position | allowance =>
    unfold ask
    infer_instance
  | snapshot account => exact blind_reading fun h => congrArg Finding.snapshot (h.snapshot account)
  | flashFee amount => exact blind_reading fun h => congrArg Finding.word (h.flashFee amount)
  | feesCollected asset => exact blind_reading fun h => congrArg Finding.word (h.feesCollected asset)
  | wrappedNative => exact blind_reading fun h => congrArg Finding.address h.wrappedNative
  | wrapped => exact blind_reading fun h => congrArg Finding.word h.wrapped
  | checkpointed account =>
    exact blind_reading fun h => congrArg Finding.flag (h.contains_opened account)
  | outstanding => exact blind_reading fun h => congrArg Finding.count h.loans_size

instance (r : Message) : Blind SameView (respond r) := by
  cases r <;> unfold respond <;> infer_instance

/-- Pools that show the same are told apart by nothing. -/
theorem SameView.transcript_eq (h : p.SameView q) (rs : List Message) :
    p.transcript rs = q.transcript rs := by
  induction rs generalizing p q with
  | nil => rfl
  | cons r rs ih =>
    have halike : Alike SameView Eq (respond r) (respond r) p q := Blind.alike h
    obtain ⟨hanswer, hfinal⟩ := halike.answer_eq
    rw [transcript, transcript, ih hfinal, hanswer]

end Unseen

/-- A repayment is refused for its ticket or for its amount. The reserve is always there. -/
theorem repay_refuses {p : Pool} (hlisted : p.LoansListed) (ticket : Nat) (paid : Word) :
    (apply (.repay ticket paid)).Ends (fun _ _ => True)
      (fun e _ => e = .refused (.unknownTicket ticket) ∧ p.loans.get? ticket = none ∨
        ∃ loan, p.loans.get? ticket = some loan ∧ paid < loan.amount + loan.fee ∧
          e = .refused (.flashUnderpaid ticket (loan.amount + loan.fee) paid)) p := by
  simp only [apply, repay, ends_bind, ends_get, ends_pure]
  cases hloan : p.loans.get? ticket with
  | none => exact .inl ⟨rfl, rfl⟩
  | some loan =>
    dsimp only
    split
    · exact .inr ⟨loan, rfl, ‹_›, rfl⟩
    · rw [ends_bind, ends_set, ends_bind]
      refine reserve_ends loan.asset (fun _ _ => trivial) fun _ hnone => ?_
      have hsome := hlisted ticket loan hloan
      rw [show p.reserve? loan.asset = none from hnone] at hsome
      cases hsome

/-- An operation that halts leaves no trace, even if it wrote an allowance down as it was or took a
loan out and put it back. -/
theorem refused_unseen {p q : Pool} {op : Op} {e : Halt PoolError} (hp : p.Reachable)
    (h : apply op p = .error e q) :
    (∀ rs, q.transcript rs = p.transcript rs) ∧
      (∀ account delegatee asset rs,
        (q.setAllowance account delegatee asset (q.allowance account delegatee asset)).transcript rs =
          p.transcript rs) ∧
      (∀ ticket loan, q.loans.get? ticket = some loan → ∀ rs,
        transcript { q with loans := (q.loans.erase ticket).set ticket loan } rs = p.transcript rs) ∧
      (∀ ticket paid, op = .repay ticket paid → (∀ asset, e ≠ .refused (.unknownReserve asset)) ∧
        (e = .refused (.unknownTicket ticket) ∧ q.loans.get? ticket = none ∨
          ∃ loan, p.loans.get? ticket = some loan ∧ q.loans.get? ticket = some loan ∧
            paid < loan.amount + loan.fee ∧
            e = .refused (.flashUnderpaid ticket (loan.amount + loan.fee) paid))) ∧
      ∀ account delegatee asset,
        q.allowance account delegatee asset = p.allowance account delegatee asset := by
  have hlisted := hp.sound.loansListed
  obtain rfl : q = p := (apply_does op p).of_error h hlisted
  refine ⟨fun _ => rfl, fun account delegatee asset rs => ?_, fun ticket loan hloan rs => ?_,
    fun ticket paid hop => ?_, fun _ _ _ => rfl⟩
  · exact (SameView.allowance_written q account delegatee asset).transcript_eq rs
  · exact (SameView.loan_returned hloan).transcript_eq rs
  · rw [hop] at h
    rcases (repay_refuses hlisted ticket paid).of_error h with ⟨rfl, hnone⟩ | ⟨loan, hloan, hpaid, rfl⟩
    · exact ⟨by simp, .inl ⟨rfl, hnone⟩⟩
    · exact ⟨by simp, .inr ⟨loan, hloan, hloan, hpaid, rfl⟩⟩

/-- A loan is out, and a delegatee may borrow 30. -/
def loanedPool : Pool := history { feeBps := 9 } [
  .list { asset := ⟨1⟩, symbol := "A", decimals := 18 },
  .supply ⟨1⟩ 1000000,
  .approve ⟨7⟩ ⟨8⟩ ⟨1⟩ 30,
  .acquire ⟨1⟩ 10000 ⟨9⟩]

/-- The repayment is 9 short, and 40 is more than 30. -/
theorem refused_unseen_short :
    (apply (.repay 1 10000)).answer loanedPool = .error (.refused (.flashUnderpaid 1 10009 10000)) ∧
      (apply (.borrow ⟨1⟩ 40 ⟨8⟩ ⟨7⟩)).answer loanedPool =
        .error (.refused (.insufficientAllowance ⟨1⟩ 40 30)) ∧
      (∀ rs, ((apply (.borrow ⟨1⟩ 40 ⟨8⟩ ⟨7⟩)).final loanedPool).transcript rs =
        loanedPool.transcript rs) ∧
      ∃ loan, ((apply (.repay 1 10000)).final loanedPool).loans.get? 1 = some loan ∧
        (10000 : Word) < loan.amount + loan.fee := by
  have hreachable : loanedPool.Reachable := ⟨9, .zero, _, rfl⟩
  have hrepay : (apply (.repay 1 10000)).answer loanedPool =
      .error (.refused (.flashUnderpaid 1 10009 10000)) := by decide +kernel
  have hborrow : (apply (.borrow ⟨1⟩ 40 ⟨8⟩ ⟨7⟩)).answer loanedPool =
      .error (.refused (.insufficientAllowance ⟨1⟩ 40 30)) := by decide +kernel
  obtain ⟨-, -, -, hticket, -⟩ := refused_unseen hreachable (eq_error_of_answer hrepay)
  obtain ⟨hunseen, -⟩ := refused_unseen hreachable (eq_error_of_answer hborrow)
  refine ⟨hrepay, hborrow, hunseen, ?_⟩
  rcases (hticket 1 10000 rfl).2 with ⟨hunknown, -⟩ | ⟨loan, -, hloan, hpaid, -⟩
  · cases hunknown
  · exact ⟨loan, hloan, hpaid⟩

end Gearing.Pool
