import Gearing.Market.Listing
import Gearing.Proofs.Word
import Mathlib.Data.Nat.Digits.Defs

/-!
What an accepted amount is worth.

The separators of the whole part do no harm. Those of the fraction count as digits while it is
filled up and are left out when it is read, so that each of them divides the amount by ten.
-/
namespace Gearing.Amount

/-- A text without its separators. -/
def bare (cs : List Char) : List Char := cs.filter (· ≠ '_')

/-- The separators behind the point. -/
def shift (cs : List Char) : Nat := (cut cs).2.count '_'

/-- The number that decimal digits write. -/
def numeral (cs : List Char) : Nat :=
  Nat.ofDigits 10 (cs.reverse.map fun c => c.toNat - '0'.toNat)

/-- What a whole part and a fraction stand for in a token with that many decimals. -/
def baseUnits (decimals : Nat) (whole fraction : List Char) : Nat :=
  numeral whole * 10 ^ decimals + numeral fraction * 10 ^ (decimals - fraction.length)

/-- Digits with at most one point among them. Either part may be empty. -/
structure Spelled (cs whole fraction : List Char) : Prop where
  form : cs = whole ∧ fraction = [] ∨ cs = whole ++ '.' :: fraction
  digits : ∀ c ∈ whole ++ fraction, c.isDigit

section Numerals

variable {cs ds : List Char} {c : Char} {m n : Nat}

theorem digit?_of_isDigit (h : c.isDigit) : digit? c = some (c.toNat - '0'.toNat) := by
  apply if_pos
  simpa [Char.isDigit, Char.le_def] using h

theorem digit?_of_not_isDigit (h : ¬ c.isDigit) : digit? c = none := by
  apply if_neg
  simpa [Char.isDigit, Char.le_def] using h

theorem isDigit_point : '.'.isDigit = false := by decide

theorem numeral_append (cs ds : List Char) :
    numeral (cs ++ ds) = numeral cs * 10 ^ ds.length + numeral ds := by
  unfold numeral
  rw [List.reverse_append, List.map_append, Nat.ofDigits_append, List.length_map,
    List.length_reverse]
  ring

theorem numeral_singleton (c : Char) : numeral [c] = c.toNat - '0'.toNat := by
  simp [numeral]

theorem numeral_zeros (n : Nat) : numeral (List.replicate n '0') = 0 := by
  induction n with
  | zero => rfl
  | succ n ih => rw [List.replicate_succ', numeral_append, ih, numeral_singleton]; simp

theorem number?_of_digits (h : ∀ c ∈ bare cs, c.isDigit) (n : Nat) :
    number? n cs = some (n * 10 ^ (bare cs).length + numeral (bare cs)) := by
  induction cs generalizing n with
  | nil => simp [number?, bare, numeral]
  | cons c cs ih =>
    by_cases hc : c = '_'
    · have hbare : bare (c :: cs) = bare cs := by simp [bare, hc]
      rw [hbare] at h ⊢
      rw [number?, if_pos hc, ih h]
    · have hbare : bare (c :: cs) = [c] ++ bare cs := by simp [bare, hc]
      rw [hbare] at h ⊢
      have hdigit := digit?_of_isDigit (h c (by simp))
      have hrest := ih (fun d hd => h d (by simp [hd]))
      rw [number?, if_neg hc, hdigit, Option.bind_some, hrest, numeral_append, numeral_singleton,
        List.length_append, List.length_singleton]
      congr 1
      ring

theorem digits_of_number? (h : number? n cs = some m) : ∀ c ∈ bare cs, c.isDigit := by
  induction cs generalizing n with
  | nil => simp [bare]
  | cons c cs ih =>
    by_cases hc : c = '_'
    · rw [number?, if_pos hc] at h
      have hbare : bare (c :: cs) = bare cs := by simp [bare, hc]
      exact hbare ▸ ih h
    · rw [number?, if_neg hc] at h
      have hbare : bare (c :: cs) = c :: bare cs := by simp [bare, hc]
      obtain ⟨d, hd, hrest⟩ := Option.bind_eq_some_iff.mp h
      have hdigit : c.isDigit := by
        by_contra hnot
        rw [digit?_of_not_isDigit hnot] at hd
        cases hd
      rw [hbare]
      exact List.forall_mem_cons.mpr ⟨hdigit, ih hrest⟩

theorem word?_eq_some_iff {w : Word} :
    word? cs = some w ↔ (∀ c ∈ bare cs, c.isDigit) ∧ w.toNat = numeral (bare cs) := by
  constructor
  · intro h
    obtain ⟨n, hn, hw⟩ := Option.bind_eq_some_iff.mp h
    have hdigits := digits_of_number? hn
    rw [number?_of_digits hdigits, Nat.zero_mul, Nat.zero_add, Option.some_inj] at hn
    obtain ⟨hfits, hword⟩ := Option.ite_none_right_eq_some.mp hw
    rw [Option.some_inj] at hword
    exact ⟨hdigits, by rw [← hword, toNat_ofNat_of_lt hfits, hn]⟩
  · rintro ⟨hdigits, hw⟩
    have hfits : numeral (bare cs) < 2 ^ 256 := hw ▸ w.isLt
    rw [word?, number?_of_digits hdigits, Nat.zero_mul, Nat.zero_add, Option.bind_some,
      if_pos hfits, ← hw, BitVec.ofNat_toNat, BitVec.setWidth_eq]

end Numerals

section Parts

variable {cs whole fraction : List Char}

theorem length_eq (cs : List Char) : cs.length = (bare cs).length + cs.count '_' := by
  induction cs with
  | nil => rfl
  | cons c cs ih =>
    by_cases hc : c = '_'
    · simp [bare, hc] at ih ⊢
      omega
    · simp [bare, hc] at ih ⊢
      omega

theorem bare_append (cs ds : List Char) : bare (cs ++ ds) = bare cs ++ bare ds :=
  List.filter_append cs ds

theorem bare_fill (decimals : Nat) (cs : List Char) :
    bare (fill decimals cs) = bare cs ++ List.replicate (decimals - cs.length) '0' := by
  rw [fill, bare_append]
  congr 1
  simp [bare]

theorem utf8Size_of_isDigit {c : Char} (h : c.isDigit) : c.utf8Size = 1 := by
  have hle : c.val ≤ 57 := by
    simp only [Char.isDigit, Bool.and_eq_true, decide_eq_true_eq] at h
    exact h.2
  exact Char.utf8Size_eq_one_iff.mpr (UInt32.le_trans hle (by decide))

theorem byteLength_of_digits (h : ∀ c ∈ bare cs, c.isDigit) : byteLength cs = cs.length := by
  induction cs with
  | nil => rfl
  | cons c cs ih =>
    have hrest := ih fun d hd => h d (by rw [bare, List.filter_cons]; split <;> simp_all [bare])
    have hsize : c.utf8Size = 1 := by
      by_cases hc : c = '_'
      · rw [hc]
        rfl
      · exact utf8Size_of_isDigit (h c (by simp [bare, hc]))
    change c.utf8Size + byteLength cs = cs.length + 1
    rw [hsize, hrest, Nat.add_comm]

theorem cut_bare (cs : List Char) : cut (bare cs) = (bare (cut cs).1, bare (cut cs).2) := by
  induction cs with
  | nil => rfl
  | cons c cs ih =>
    by_cases hpoint : c = '.'
    · simp [cut, bare, hpoint]
    · by_cases hc : c = '_'
      · simpa [cut, bare, hc] using ih
      · simpa [cut, bare, hc, hpoint] using ih

theorem cut_append (h : '.' ∉ whole) (cs : List Char) :
    cut (whole ++ cs) = (whole ++ (cut cs).1, (cut cs).2) := by
  have hall : ∀ c ∈ whole, decide (c ≠ '.') = true := fun c hc =>
    decide_eq_true fun hpoint => h (hpoint ▸ hc)
  rw [cut, List.takeWhile_append_of_pos hall, List.dropWhile_append_of_pos hall]
  rfl

theorem form_of_cut (cs : List Char) :
    cs = (cut cs).1 ∧ (cut cs).2 = [] ∨ cs = (cut cs).1 ++ '.' :: (cut cs).2 := by
  induction cs with
  | nil => exact .inl ⟨rfl, rfl⟩
  | cons c cs ih =>
    by_cases hpoint : c = '.'
    · exact .inr (by simp [cut, hpoint])
    · have hcut : cut (c :: cs) = (c :: (cut cs).1, (cut cs).2) := by simp [cut, hpoint]
      rw [hcut]
      rcases ih with ⟨hwhole, hfraction⟩ | hboth
      · exact .inl ⟨congrArg (c :: ·) hwhole, hfraction⟩
      · exact .inr (congrArg (c :: ·) hboth)

theorem spelled_iff :
    Spelled cs whole fraction ↔
      cut cs = (whole, fraction) ∧ ∀ c ∈ whole ++ fraction, c.isDigit := by
  constructor
  · intro h
    have hpoint : '.' ∉ whole := fun hmem => by
      have hdigit := h.digits '.' (List.mem_append_left _ hmem)
      rw [isDigit_point] at hdigit
      cases hdigit
    refine ⟨?_, h.digits⟩
    rcases h.form with ⟨hwhole, hfraction⟩ | hboth
    · have hcut := cut_append hpoint []
      rw [List.append_nil] at hcut
      rw [hwhole, hfraction, hcut]
      simp [cut]
    · rw [hboth, cut_append hpoint]
      simp [cut]
  · rintro ⟨hcut, hdigits⟩
    have hform := form_of_cut cs
    rw [hcut] at hform
    exact ⟨hform, hdigits⟩

end Parts

/-- The padded digits as one number: each separator of the fraction costs a power of ten. -/
theorem numeral_filled {decimals : Nat} {whole fraction : List Char}
    (h : fraction.length ≤ decimals) :
    numeral (bare (whole ++ fill decimals fraction)) * 10 ^ fraction.count '_' =
      baseUnits decimals (bare whole) (bare fraction) := by
  have hlength := length_eq fraction
  have hpad : decimals - (bare fraction).length =
      decimals - fraction.length + fraction.count '_' := by omega
  have hall : decimals =
      (bare fraction).length + (decimals - fraction.length) + fraction.count '_' := by omega
  have hpow : 10 ^ decimals = 10 ^ (bare fraction).length * 10 ^ (decimals - fraction.length) *
      10 ^ fraction.count '_' := by
    rw [← Nat.pow_add, ← Nat.pow_add, ← hall]
  rw [bare_append, bare_fill, numeral_append, numeral_append, numeral_zeros, List.length_append,
    List.length_replicate, Nat.add_zero, baseUnits, hpad, hpow]
  ring

theorem digits_filled (decimals : Nat) (whole fraction : List Char) :
    (∀ c ∈ bare (whole ++ fill decimals fraction), c.isDigit) ↔
      ∀ c ∈ bare whole ++ bare fraction, c.isDigit := by
  rw [bare_append, bare_fill, ← List.append_assoc, List.forall_mem_append]
  refine and_iff_left fun c hc => ?_
  rw [List.eq_of_mem_replicate hc]
  decide

theorem parse_eq_ok_iff_word? {decimals : Nat} {cs : List Char} {v : Word} :
    parse decimals cs = .ok v ↔
      byteLength (cut cs).2 ≤ decimals ∧ word? ((cut cs).1 ++ fill decimals (cut cs).2) = some v := by
  by_cases hprecise : decimals < byteLength (cut cs).2
  · simp [parse, hprecise]
  · cases hword : word? ((cut cs).1 ++ fill decimals (cut cs).2) <;>
      simp [parse, hprecise, hword, Nat.le_of_not_lt]

theorem parse_eq_ok_iff {decimals : Nat} {cs : List Char} {v : Word} :
    parse decimals cs = .ok v ↔
      ∃ whole fraction, Spelled (bare cs) whole fraction ∧
        fraction.length + shift cs ≤ decimals ∧
        v.toNat * 10 ^ shift cs = baseUnits decimals whole fraction := by
  have hlength : (bare (cut cs).2).length + shift cs = (cut cs).2.length :=
    (length_eq (cut cs).2).symm
  rw [parse_eq_ok_iff_word?, word?_eq_some_iff, digits_filled]
  constructor
  · rintro ⟨hfits, hdigits, hv⟩
    rw [byteLength_of_digits fun c hc => hdigits c (List.mem_append_right _ hc)] at hfits
    refine ⟨_, _, spelled_iff.mpr ⟨cut_bare cs, hdigits⟩, hlength ▸ hfits, ?_⟩
    rw [hv]
    exact numeral_filled hfits
  · rintro ⟨whole, fraction, hspelled, hfits, hv⟩
    obtain ⟨hcut, hdigits⟩ := spelled_iff.mp hspelled
    obtain ⟨rfl, rfl⟩ := Prod.mk.inj ((cut_bare cs).symm.trans hcut)
    rw [hlength] at hfits
    rw [byteLength_of_digits fun c hc => hdigits c (List.mem_append_right _ hc)]
    refine ⟨hfits, hdigits, Nat.eq_of_mul_eq_mul_right (Nat.pow_pos (by decide)) (hv.trans ?_)⟩
    exact (numeral_filled hfits).symm

theorem eq_mul_pow_iff (n k : Nat) : n = n * 10 ^ k ↔ k = 0 ∨ n = 0 := by
  rcases Nat.eq_zero_or_pos n with hn | hn
  · simp [hn]
  · rw [eq_comm, Nat.mul_eq_left hn.ne']
    simp [hn.ne']

end Gearing.Amount

namespace Gearing.Listing
open Amount

theorem parseAmount_eq_ok_iff {l : Listing} {text : String} {v : Word} :
    l.parseAmount text = .ok v ↔ parse l.decimals text.toList = .ok v := by
  unfold parseAmount
  cases hparse : parse l.decimals text.toList with
  | ok w => simp
  | error fault => cases fault <;> simp

/-- An accepted amount is the decimal that its text spells, over a tenth for each separator of the
fraction. So it is what it says exactly where the fraction has none, or where it is nothing. -/
theorem parseAmount_value {l : Listing} {text : String} {v : Word}
    (h : l.parseAmount text = .ok v) :
    ∃ whole fraction, Spelled (bare text.toList) whole fraction ∧
      fraction.length + shift text.toList ≤ l.decimals ∧
      v.toNat * 10 ^ shift text.toList = baseUnits l.decimals whole fraction ∧
      (v.toNat = baseUnits l.decimals whole fraction ↔ shift text.toList = 0 ∨ v = 0) := by
  obtain ⟨whole, fraction, hspelled, hfits, hv⟩ :=
    parse_eq_ok_iff.mp (parseAmount_eq_ok_iff.mp h)
  refine ⟨whole, fraction, hspelled, hfits, hv, ?_⟩
  have hzero : v.toNat = 0 ↔ v = 0 := BitVec.toNat_inj (y := 0)
  rw [← hv, eq_mul_pow_iff, hzero]

def sampleListing : Listing where
  symbol := "USDC"
  address := "0x0000000000000000000000000000000000000001"
  decimals := 6
  ltvBps := 8000
  liquidationThresholdBps := 8500

theorem parseAmount_value_separated :
    sampleListing.parseAmount "1_000.2_5" = .ok 100025000 ∧
      ∃ whole fraction, Spelled (bare "1_000.2_5".toList) whole fraction ∧
        fraction.length + 1 ≤ 6 ∧
        (100025000 : Word).toNat * 10 ^ 1 = baseUnits 6 whole fraction ∧
        ((100025000 : Word).toNat = baseUnits 6 whole fraction ↔
          1 = 0 ∨ (100025000 : Word) = 0) :=
  have h : sampleListing.parseAmount "1_000.2_5" = .ok 100025000 := by decide +kernel
  ⟨h, parseAmount_value h⟩

/-- `1._5` is read as 0.15: the separator takes the place of a digit. -/
theorem separator_counted :
    sampleListing.parseAmount "1._5" = .ok 150000 ∧
      Spelled (bare "1._5".toList) ['1'] ['5'] ∧ baseUnits 6 ['1'] ['5'] = 1500000 ∧
      ¬ ∃ whole fraction, Spelled (bare "1._5".toList) whole fraction ∧
        fraction.length ≤ 6 ∧ (150000 : Word).toNat = baseUnits 6 whole fraction := by
  have hspelled : Spelled (bare "1._5".toList) ['1'] ['5'] :=
    ⟨by decide +kernel, List.all_eq_true.mp (by decide)⟩
  refine ⟨by decide +kernel, hspelled, by decide +kernel, ?_⟩
  rintro ⟨whole, fraction, hother, -, hvalue⟩
  obtain ⟨rfl, rfl⟩ := Prod.mk.inj ((spelled_iff.mp hspelled).1.symm.trans (spelled_iff.mp hother).1)
  revert hvalue
  decide +kernel

end Gearing.Listing
