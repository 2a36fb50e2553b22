import Gearing.Command.Program
import Gearing.Proofs.Executor.Quote
import Gearing.Proofs.Market
import Gearing.Proofs.Solver

/-!
The value that a printed plan attaches, and what an executor makes of it.

The program adds the fee to the principal in wrapping words and the executor refuses a sum that leaves them, so the
two agree exactly where the printed value is not below the principal. From a ratio of two basis points on, the
checked product of the first tranche keeps the principal below half of the words, and the fee, which is divided by
`scale`, fits beside it; at a ratio of zero there is no fee. So only at a ratio of one basis point the sum can wrap.
-/
namespace Gearing

theorem toDigits_hex_inj {m n : Nat} (h : Nat.toDigits 16 m = Nat.toDigits 16 n) : m = n := by
  have hchars : ∀ a < 16, ∀ b < 16, a.digitChar = b.digitChar → a = b := by decide
  induction m using Nat.strong_induction_on generalizing n with
  | _ m ih =>
    rw [Nat.toDigits_eq_if (by decide), Nat.toDigits_eq_if (n := n) (by decide)] at h
    split_ifs at h with hm hn hn
    · exact hchars m hm n hn (List.singleton_inj.mp h)
    · simpa [Nat.toDigits_ne_nil] using congrArg List.length h
    · simpa [Nat.toDigits_ne_nil] using congrArg List.length h
    · obtain ⟨hhigh, hlow⟩ := List.append_inj' h rfl
      have hquotient := ih (m / 16) (by omega) hhigh
      have hremainder := hchars (m % 16) (Nat.mod_lt m (by decide)) (n % 16) (Nat.mod_lt n (by decide))
        (List.singleton_inj.mp hlow)
      omega

namespace Document

theorem word_inj {a b : Word} (h : word a = word b) : a = b := by
  have hquantity : Word.quantity a = Word.quantity b := Json.string.inj h
  have hdigits : Nat.toDigits 16 a.toNat = Nat.toDigits 16 b.toNat := by
    simpa [Word.quantity, String.ofList_inj] using hquantity
  exact BitVec.eq_of_toNat_eq (toDigits_hex_inj hdigits)

theorem plan_inj {p q : Plan} (h : plan p = plan q) : p = q := by
  cases p
  cases q
  simpa [plan] using h

end Document

def Json.field? (key : String) : Json → Option Json
  | .object fields => fields.lookup key
  | _ => none

namespace Schedule
variable {ratio loops : Nat} {principal : Word} {borrows : List Word}

/-- Beyond a ratio of one basis point the principal is at most half of what a word holds, if anything is
borrowed at all. -/
theorem sum_eq_zero_or_half (hratio : ratio < scale) (hone : ratio ≠ 1)
    (h : tail? ratio loops principal = some borrows) :
    (borrows.map BitVec.toNat).sum = 0 ∨ 2 * principal.toNat < 2 ^ 256 := by
  have hscale : scale = 10000 := rfl
  have hword : ratio < 2 ^ 256 := by omega
  have hsum := map_toNat_tail? hword h
  cases loops with
  | zero => simp [hsum, amounts]
  | succ loops =>
    obtain rfl | hzero := Nat.eq_zero_or_pos ratio
    · have hle := sum_amounts_le hratio (loops + 1) principal.toNat
      simp only [hsum]
      omega
    · obtain ⟨product, rest, hproduct, -, -⟩ := tail?_succ h
      have hvalue := Word.toNat_mul? hproduct
      rw [toNat_ofNat_of_lt hword] at hvalue
      have htwo : principal.toNat * 2 ≤ principal.toNat * ratio := Nat.mul_le_mul_left _ (by omega)
      have hbound := product.isLt
      omega

/-- So the fee, which is a word divided by `scale`, fits beside it. -/
theorem principal_add_flashFee_lt (hratio : ratio < scale) (hone : ratio ≠ 1)
    (h : tail? ratio loops principal = some borrows) (rate : Nat) :
    principal.toNat + (flashFee ⟨principal, borrows⟩ rate).toNat < 2 ^ 256 := by
  rcases sum_eq_zero_or_half hratio hone h with hzero | hhalf
  · have hfee : (flashFee ⟨principal, borrows⟩ rate).toNat =
        (borrows.map BitVec.toNat).sum * rate / scale := toNat_flashFee (by simp [hzero])
    have hbound := principal.isLt
    simpa [hfee, hzero] using hbound
  · have hbps : FixedPoint.bps.toNat = 10000 := rfl
    have hbound := (totalBorrow ⟨principal, borrows⟩ * BitVec.ofNat 256 rate).isLt
    rw [flashFee, FixedPoint.applyBps, BitVec.toNat_udiv, hbps]
    omega

end Schedule

namespace Command
variable {s : Settings} {m : Market} {symbol amount : String} {target : Nat} {helper : Address}
  {doc : Json} {principal v : Word} {p : Plan}

section Causes
variable {α : Type}

theorem ofMarket_ok {x : Except MarketError α} {a : α} : ofMarket x = .ok a ↔ x = .ok a := by
  cases x <;> simp [ofMarket, fail]

theorem ofEngine_ok {x : Except EngineError α} {a : α} : ofEngine x = .ok a ↔ x = .ok a := by
  cases x <;> simp [ofEngine, fail]

end Causes

/-- The principal, the plan and the value to attach that a document names. -/
structure Reports (doc : Json) (principal : Word) (p : Plan) (value : Word) : Prop where
  principal : doc.field? "principal" = some (Document.word principal)
  plan : doc.field? "plan" = some (Document.plan p)
  nativeValue : doc.field? "native_value" = some (Document.word value)

/-- Where what is reported comes from. -/
structure Planned (s : Settings) (m : Market) (symbol : String) (target : Nat) (amount : String) (l : Listing)
    (r : Reserve) (c : Constraint) (principal : Word) (p : Plan) (value : Word) : Prop where
  listing : findListing m symbol = .ok l
  reserve : l.reserve = .ok r
  constraint : Constraint.ofReserve r = .ok c
  solved : Solver.solve s.bounds target c.maxLtv = .ok p
  read : l.parseAmount amount = .ok principal
  wrapped : m.wrappedNativeAddress = .ok r.asset
  attached : attachedValue s principal p = .ok value

theorem planned_of_reports (h : plan s m symbol target amount helper = .ok doc)
    (hreports : Reports doc principal p v) :
    ∃ l r c, Planned s m symbol target amount l r c principal p v := by
  obtain ⟨l, hlisting, h⟩ := exists_of_bind_ok h
  obtain ⟨r, hreserve, h⟩ := exists_of_bind_ok h
  obtain ⟨c, hconstraint, h⟩ := exists_of_bind_ok h
  obtain ⟨p', hsolved, h⟩ := exists_of_bind_ok h
  obtain ⟨principal', hread, h⟩ := exists_of_bind_ok h
  obtain ⟨wrapped, hwrapped, h⟩ := exists_of_bind_ok h
  obtain ⟨hprincipal, hplan, hvalue⟩ := hreports
  by_cases hnative : r.asset = wrapped
  · simp only [hnative, decide_true, if_true] at h
    obtain ⟨value, hsome, h⟩ := exists_of_bind_ok h
    obtain ⟨v', hattached, rfl⟩ := exists_of_map_ok hsome
    cases h
    obtain rfl : principal' = principal := Document.word_inj (Option.some.inj hprincipal)
    obtain rfl : p' = p := Document.plan_inj (Option.some.inj hplan)
    obtain rfl : v' = v := Document.word_inj (Option.some.inj hvalue)
    exact ⟨l, r, c, hlisting, ofMarket_ok.mp hreserve, ofEngine_ok.mp hconstraint, ofEngine_ok.mp hsolved,
      ofMarket_ok.mp hread, hnative ▸ ofMarket_ok.mp hwrapped, ofEngine_ok.mp hattached⟩
  · simp only [hnative, decide_false] at h
    cases h
    cases hvalue

theorem exists_reports {l : Listing} {r : Reserve} {c : Constraint}
    (h : Planned s m symbol target amount l r c principal p v) (helper : Address) :
    ∃ doc, plan s m symbol target amount helper = .ok doc ∧ Reports doc principal p v := by
  simp only [plan, bind, Except.bind, h.listing, h.reserve, h.constraint, h.solved, h.read, h.wrapped,
    h.attached, ofMarket, ofEngine, decide_true, if_true]
  exact ⟨_, rfl, rfl, rfl, rfl⟩

section Attached

theorem exists_of_attachedValue (h : attachedValue s principal p = .ok v) :
    ∃ borrows, Schedule.tail? p.borrowRatio p.loopCount principal = some borrows ∧
      v = principal + Schedule.flashFee ⟨principal, borrows⟩ s.feeBps := by
  obtain ⟨schedule, hschedule, hvalue⟩ := exists_of_bind_ok h
  obtain ⟨rfl, htail⟩ := Schedule.ofPlan_ok hschedule
  exact ⟨schedule.borrows, htail, (Except.ok.inj hvalue).symm⟩

theorem quote_of_attachedValue (h : attachedValue s principal p = .ok v) :
    Executor.quote s.feeBps principal p =
      if principal ≤ v then .ok v else .error (.invalid .attachedOverflow) := by
  obtain ⟨borrows, htail, rfl⟩ := exists_of_attachedValue h
  rw [Executor.quote_of_tail? htail, Word.add?]
  by_cases hfits : principal.toNat + (Schedule.flashFee ⟨principal, borrows⟩ s.feeBps).toNat < 2 ^ 256
  · rw [if_pos hfits, if_pos (Word.le_add_iff.mpr hfits)]
  · rw [if_neg hfits, if_neg (mt Word.le_add_iff.mp hfits)]

theorem le_of_attachedValue (hratio : p.borrowRatio < scale) (hone : p.borrowRatio ≠ 1)
    (h : attachedValue s principal p = .ok v) : principal ≤ v := by
  obtain ⟨borrows, htail, rfl⟩ := exists_of_attachedValue h
  exact Word.le_add_iff.mpr (Schedule.principal_add_flashFee_lt hratio hone htail s.feeBps)

end Attached

/-- What is reported is what the executor quotes and what it takes back to the principal, unless it lies below
the principal. Then the sum has wrapped, which takes a ratio of one basis point, and there is no quote. -/
theorem plan_accepted (venue : Venue) (hshared : venue.feeBps = s.feeBps)
    (hplanned : plan s m symbol target amount helper = .ok doc) (hreports : Reports doc principal p v) :
    (Executor.quote venue.feeBps principal p = .ok v ↔ principal ≤ v) ∧
      (v < principal → p.borrowRatio = 1 ∧
        Executor.quote venue.feeBps principal p = .error (.invalid .attachedOverflow)) ∧
      (p.loopCount * venue.feeBps ≤ scale →
        (Executor.principalFor venue.feeBps p v = .ok principal ↔ principal ≤ v)) := by
  obtain ⟨l, r, c, hfound⟩ := planned_of_reports hplanned hreports
  have hratio : p.borrowRatio < scale :=
    (Solver.borrowRatio_le_of_solve hfound.solved).trans_lt (Solver.solve_ok hfound.solved).1
  have hquote := quote_of_attachedValue hfound.attached
  have hsame : Executor.quote s.feeBps principal p = .ok v ↔ principal ≤ v := by simp [hquote]
  rw [hshared]
  refine ⟨hsame, fun hwrapped => ?_, fun hrate => ?_⟩
  · have hbelow : ¬ principal ≤ v := BitVec.not_le.mpr hwrapped
    refine ⟨by_contra fun hone => hbelow (le_of_attachedValue hratio hone hfound.attached), ?_⟩
    rw [hquote, if_neg hbelow]
  · rw [← hsame]
    exact ⟨Executor.quote_of_principalFor hrate, Executor.principalFor_of_quote hrate⟩

section Examples

def wrappedListing : Listing where
  symbol := "WETH"
  address := "0x4200000000000000000000000000000000000006"
  decimals := 18
  ltvBps := 7000
  liquidationThresholdBps := 7500

def wrappedMarket : Market := ⟨"mode", wrappedListing.address, [wrappedListing]⟩

theorem planned_wrappedMarket (hread : wrappedListing.parseAmount amount = .ok principal)
    (hsolved : Solver.solve s.bounds target 7000 = .ok p) (hattached : attachedValue s principal p = .ok v) :
    ∃ l r c, Planned s wrappedMarket "WETH" target amount l r c principal p v := by
  have hlisting : findListing wrappedMarket "WETH" = .ok wrappedListing := by
    have hfound := (wrappedMarket.listing?_eq_some_iff (List.pairwise_singleton _ _) "WETH" wrappedListing).mpr
      ⟨List.mem_singleton_self _, Text.respells_self _⟩
    rw [findListing, hfound]
  have htoken : wrappedListing.token = .ok ⟨0x4200000000000000000000000000000000000006⟩ := by decide +kernel
  obtain ⟨r, hreserve, hasset, hconstraint⟩ := Listing.exists_reserve htoken (by decide)
  have hwrapped : wrappedMarket.wrappedNativeAddress = .ok ⟨0x4200000000000000000000000000000000000006⟩ := by
    decide +kernel
  rw [← hasset] at hwrapped
  exact ⟨_, r, _, hlisting, hreserve, hconstraint, hsolved, hread, hwrapped, hattached⟩

/-- One and a half tokens at one and a half times the exposure. -/
theorem plan_accepted_half : ∃ doc, plan {} wrappedMarket "WETH" 15000 "1.5" Address.zero = .ok doc ∧
    Reports doc 1500000000000000000 ⟨1, 5000⟩ 1500675000000000000 ∧
    Executor.quote 9 1500000000000000000 ⟨1, 5000⟩ = .ok 1500675000000000000 ∧
    Executor.principalFor 9 ⟨1, 5000⟩ 1500675000000000000 = .ok 1500000000000000000 := by
  have hplanned : ∃ l r c, Planned {} wrappedMarket "WETH" 15000 "1.5" l r c 1500000000000000000 ⟨1, 5000⟩
      1500675000000000000 :=
    planned_wrappedMarket (by decide +kernel) (by decide +kernel) (by decide +kernel)
  obtain ⟨l, r, c, hplanned⟩ := hplanned
  obtain ⟨doc, hdoc, hreports⟩ := exists_reports hplanned Address.zero
  obtain ⟨hquote, -, hback⟩ := plan_accepted { pool := { feeBps := 9 } } rfl hdoc hreports
  exact ⟨doc, hdoc, hreports, hquote.mpr (by decide), (hback (by decide)).mpr (by decide)⟩

/-- At a ratio of one basis point the greatest amount is reported with a value that is refused for it. -/
theorem wrapped_value_reported : ∃ doc,
    plan {} wrappedMarket "WETH" 10001
      "115792089237316195423570985008687907853269984665640564039457.584007913129639935" Address.zero = .ok doc ∧
    Reports doc Word.greatest ⟨1, 1⟩ 0x1828c0be769dc11b93af49da13b239789c9edca48631b2d57fcec2455f4 ∧
    Executor.quote 9 Word.greatest ⟨1, 1⟩ = .error (.invalid .attachedOverflow) ∧
    Executor.principalFor 9 ⟨1, 1⟩ 0x1828c0be769dc11b93af49da13b239789c9edca48631b2d57fcec2455f4 ≠
      .ok Word.greatest := by
  have hplanned : ∃ l r c, Planned {} wrappedMarket "WETH" 10001
      "115792089237316195423570985008687907853269984665640564039457.584007913129639935" l r c Word.greatest ⟨1, 1⟩
      0x1828c0be769dc11b93af49da13b239789c9edca48631b2d57fcec2455f4 :=
    planned_wrappedMarket (by decide +kernel) (by decide +kernel) (by decide +kernel)
  obtain ⟨l, r, c, hplanned⟩ := hplanned
  obtain ⟨doc, hdoc, hreports⟩ := exists_reports hplanned Address.zero
  have hquote : Executor.quote 9 Word.greatest ⟨1, 1⟩ = .error (.invalid .attachedOverflow) := by
    decide +kernel
  refine ⟨doc, hdoc, hreports, hquote, fun hback => ?_⟩
  have hwrapped := Executor.quote_of_principalFor (by decide) hback
  rw [hquote] at hwrapped
  cases hwrapped

end Examples

end Command
end Gearing
