import Gearing.Proofs.Amount
import Mathlib.Data.List.DropRight

/-!
Amounts as texts and back. A text of digits with at most one point is read as the number that it writes,
unless its fraction is too long or the number too large, and base units that are written as whole tokens
and a fraction are read as the same base units.
-/
namespace Gearing.Amount

def lowDigits : Nat → Nat → List Char
  | 0, _ => []
  | k + 1, n => lowDigits k (n / 10) ++ [Nat.digitChar (n % 10)]

def wholePart (decimals : Nat) (v : Word) : List Char := Nat.toDigits 10 (v.toNat / 10 ^ decimals)

/-- What an amount has beside its whole tokens, down to the last base unit. -/
def fractionPart (decimals : Nat) (v : Word) : List Char := lowDigits decimals v.toNat

/-- Both parts with a point between them, or the whole part alone if there is no fraction. -/
def join (whole fraction : List Char) : List Char :=
  if fraction = [] then whole else whole ++ '.' :: fraction

/-- A fraction without the zeros at its end. -/
def dropZeros (fraction : List Char) : List Char := fraction.rdropWhile (· = '0')

def render (decimals : Nat) (v : Word) : String :=
  String.ofList (join (wholePart decimals v) (fractionPart decimals v))

/-- An amount as a text with no more decimals than it takes. -/
def renderShort (decimals : Nat) (v : Word) : String :=
  String.ofList (join (wholePart decimals v) (dropZeros (fractionPart decimals v)))

section Reading
variable {cs whole fraction : List Char}

theorem separator_not_mem (h : ∀ c ∈ cs, c.isDigit) : '_' ∉ cs := by
  intro hmem
  cases h _ hmem

theorem bare_of_digits (h : ∀ c ∈ cs, c.isDigit) : bare cs = cs := by
  refine List.filter_eq_self.mpr fun c hc => ?_
  have hne : c ≠ '_' := fun heq => separator_not_mem h (heq ▸ hc)
  simpa using hne

theorem word?_of_digits (h : ∀ c ∈ bare cs, c.isDigit) :
    word? cs = if numeral (bare cs) < 2 ^ 256 then some (BitVec.ofNat 256 (numeral (bare cs))) else none := by
  rw [word?, number?_of_digits h, Nat.zero_mul, Nat.zero_add, Option.bind_some]

theorem parse_of_spelled (h : Spelled cs whole fraction) (decimals : Nat) :
    parse decimals cs =
      if decimals < fraction.length then .error .tooPrecise
      else if baseUnits decimals whole fraction < 2 ^ 256 then
        .ok (BitVec.ofNat 256 (baseUnits decimals whole fraction))
      else .error .malformed := by
  obtain ⟨hcut, hdigits⟩ := spelled_iff.mp h
  obtain ⟨hwhole, hfraction⟩ := List.forall_mem_append.mp hdigits
  have hbare := bare_of_digits hfraction
  have hbytes : byteLength fraction = fraction.length := byteLength_of_digits (hbare.symm ▸ hfraction)
  simp only [parse, hcut, hbytes]
  by_cases hlength : decimals < fraction.length
  · rw [if_pos hlength, if_pos hlength]
  · have hfilled : ∀ c ∈ bare (whole ++ fill decimals fraction), c.isDigit :=
      (digits_filled decimals whole fraction).mpr (by rwa [hbare, bare_of_digits hwhole])
    have hvalue : numeral (bare (whole ++ fill decimals fraction)) = baseUnits decimals whole fraction := by
      have hvalue := @numeral_filled decimals whole fraction (Nat.le_of_not_lt hlength)
      rwa [List.count_eq_zero.mpr (separator_not_mem hfraction), Nat.pow_zero, Nat.mul_one, hbare,
        bare_of_digits hwhole] at hvalue
    rw [if_neg hlength, if_neg hlength, word?_of_digits hfilled, hvalue]
    by_cases hfits : baseUnits decimals whole fraction < 2 ^ 256
    · rw [if_pos hfits, if_pos hfits]
    · rw [if_neg hfits, if_neg hfits]

end Reading

section Writing
variable {decimals n : Nat} {v : Word} {whole fraction : List Char}

theorem numeral_digitChar (h : n < 10) : numeral [Nat.digitChar n] = n := by
  have hzero : '0'.toNat = 48 := rfl
  rw [numeral_singleton, Nat.toNat_digitChar_of_lt_ten h, hzero]
  omega

theorem isDigit_digitChar (h : n < 10) : (Nat.digitChar n).isDigit := by
  decide +revert

theorem numeral_lowDigits (k n : Nat) : numeral (lowDigits k n) = n % 10 ^ k := by
  induction k generalizing n with
  | zero => rw [lowDigits, Nat.pow_zero, Nat.mod_one]; rfl
  | succ k ih =>
    rw [lowDigits, numeral_append, ih, numeral_digitChar (Nat.mod_lt n (by decide)), Nat.pow_succ',
      Nat.mod_mul, List.length_singleton]
    omega

theorem length_lowDigits (k n : Nat) : (lowDigits k n).length = k := by
  induction k generalizing n with
  | zero => rfl
  | succ k ih => simp [lowDigits, ih]

theorem isDigit_lowDigits (k n : Nat) : ∀ c ∈ lowDigits k n, c.isDigit := by
  induction k generalizing n with
  | zero => simp [lowDigits]
  | succ k ih =>
    intro c hc
    rcases List.mem_append.mp hc with hc | hc
    · exact ih (n / 10) c hc
    · rw [List.mem_singleton.mp hc]
      exact isDigit_digitChar (Nat.mod_lt n (by decide))

theorem numeral_toDigits (n : Nat) : numeral (Nat.toDigits 10 n) = n := by
  induction n using Nat.strongRecOn with
  | ind n ih =>
    rw [Nat.toDigits_eq_if (by decide)]
    split
    · exact numeral_digitChar ‹_›
    · rw [numeral_append, ih (n / 10) (by omega), numeral_digitChar (Nat.mod_lt n (by decide)),
        List.length_singleton]
      omega

theorem isDigit_wholePart (decimals : Nat) (v : Word) : ∀ c ∈ wholePart decimals v, c.isDigit :=
  fun _ hc => Nat.isDigit_of_mem_toDigits (by decide) (by decide) hc

theorem dropZeros_append (cs : List Char) : ∃ k, dropZeros cs ++ List.replicate k '0' = cs := by
  have hzeros : ∀ c ∈ cs.rtakeWhile (· = '0'), c = '0' := fun c hc => by
    simpa using List.mem_rtakeWhile_imp hc
  exact ⟨_, (List.eq_replicate_of_mem hzeros) ▸ List.rdropWhile_append_rtakeWhile⟩

theorem baseUnits_parts {zeros : Nat}
    (h : fraction ++ List.replicate zeros '0' = fractionPart decimals v) :
    baseUnits decimals (wholePart decimals v) fraction = v.toNat := by
  have hlength := congrArg List.length h
  rw [List.length_append, List.length_replicate, fractionPart, length_lowDigits] at hlength
  have hfraction : numeral fraction * 10 ^ (decimals - fraction.length) = v.toNat % 10 ^ decimals := by
    rw [← numeral_lowDigits, ← fractionPart, ← h, numeral_append, numeral_zeros, List.length_replicate,
      Nat.add_zero]
    congr 2
    omega
  rw [baseUnits, hfraction, wholePart, numeral_toDigits, Nat.mul_comm]
  exact Nat.div_add_mod v.toNat (10 ^ decimals)

theorem spelled_join (hwhole : ∀ c ∈ whole, c.isDigit) (hfraction : ∀ c ∈ fraction, c.isDigit) :
    Spelled (String.ofList (join whole fraction)).toList whole fraction := by
  rw [String.toList_ofList]
  refine ⟨?_, List.forall_mem_append.mpr ⟨hwhole, hfraction⟩⟩
  by_cases h : fraction = []
  · exact .inl ⟨if_pos h, h⟩
  · exact .inr (if_neg h)

end Writing
end Gearing.Amount

namespace Gearing.Listing
open Amount

theorem parseAmount_of_spelled {l : Listing} {text : String} {whole fraction : List Char}
    (h : Spelled text.toList whole fraction) :
    l.parseAmount text =
      if l.decimals < fraction.length then .error (.amountTooPrecise l.symbol l.decimals text)
      else if baseUnits l.decimals whole fraction < 2 ^ 256 then
        .ok (BitVec.ofNat 256 (baseUnits l.decimals whole fraction))
      else .error (.badAmount l.symbol text) := by
  rw [parseAmount, parse_of_spelled h]
  by_cases hlength : l.decimals < fraction.length
  · simp only [if_pos hlength]
  · by_cases hfits : baseUnits l.decimals whole fraction < 2 ^ 256
    · simp only [if_neg hlength, if_pos hfits]
    · simp only [if_neg hlength, if_neg hfits]

theorem parseAmount_of_parts {l : Listing} {text : String} {v : Word} {fraction : List Char} {zeros : Nat}
    (h : Spelled text.toList (wholePart l.decimals v) fraction)
    (hzeros : fraction ++ List.replicate zeros '0' = fractionPart l.decimals v) :
    l.parseAmount text = .ok v := by
  have hlength := congrArg List.length hzeros
  rw [List.length_append, fractionPart, length_lowDigits] at hlength
  rw [parseAmount_of_spelled h, baseUnits_parts hzeros, if_neg (by omega), if_pos v.isLt,
    BitVec.ofNat_toNat, BitVec.setWidth_eq]

/-- A decimal of `d` decimals is accepted just where its fraction has at most `d` digits and its value is a word,
and it is read as that value; so every word is read back from its text, with the zeros at the end or without. -/
theorem parseAmount_render (l : Listing) :
    (∀ text whole fraction, Spelled text.toList whole fraction →
      l.parseAmount text =
        if l.decimals < fraction.length then .error (.amountTooPrecise l.symbol l.decimals text)
        else if baseUnits l.decimals whole fraction < 2 ^ 256 then
          .ok (BitVec.ofNat 256 (baseUnits l.decimals whole fraction))
        else .error (.badAmount l.symbol text)) ∧
    (∀ text v fraction zeros, Spelled text.toList (wholePart l.decimals v) fraction →
      fraction ++ List.replicate zeros '0' = fractionPart l.decimals v → l.parseAmount text = .ok v) ∧
    ∀ v, l.parseAmount (render l.decimals v) = .ok v ∧ l.parseAmount (renderShort l.decimals v) = .ok v := by
  refine ⟨fun _ _ _ => parseAmount_of_spelled, fun _ _ _ _ => parseAmount_of_parts, fun v => ?_⟩
  have hwhole := isDigit_wholePart l.decimals v
  have hfraction : ∀ c ∈ fractionPart l.decimals v, c.isDigit := isDigit_lowDigits l.decimals v.toNat
  have hall : fractionPart l.decimals v ++ List.replicate 0 '0' = fractionPart l.decimals v :=
    List.append_nil _
  obtain ⟨zeros, hzeros⟩ := dropZeros_append (fractionPart l.decimals v)
  have hshort : ∀ c ∈ dropZeros (fractionPart l.decimals v), c.isDigit := fun c hc =>
    hfraction c (hzeros ▸ List.mem_append_left _ hc)
  exact ⟨parseAmount_of_parts (spelled_join hwhole hfraction) hall,
    parseAmount_of_parts (spelled_join hwhole hshort) hzeros⟩

/-- The greatest word with 6 decimals, and the text of one unit more. -/
theorem parseAmount_render_greatest :
    render 6 Word.greatest =
        "115792089237316195423570985008687907853269984665640564039457584007913129.639935" ∧
      sampleListing.parseAmount (render 6 Word.greatest) = .ok Word.greatest ∧
      renderShort 6 1500000 = "1.5" ∧ sampleListing.parseAmount (renderShort 6 1500000) = .ok 1500000 ∧
      sampleListing.parseAmount
          "115792089237316195423570985008687907853269984665640564039457584007913129.639936" =
        .error (.badAmount "USDC"
          "115792089237316195423570985008687907853269984665640564039457584007913129.639936") := by
  obtain ⟨hread, -, hback⟩ := parseAmount_render sampleListing
  have hspelled : Spelled
      "115792089237316195423570985008687907853269984665640564039457584007913129.639936".toList
      "115792089237316195423570985008687907853269984665640564039457584007913129".toList
      "639936".toList := ⟨by decide +kernel, List.all_eq_true.mp (by decide +kernel)⟩
  refine ⟨by decide +kernel, (hback Word.greatest).1, by decide +kernel, (hback 1500000).2, ?_⟩
  rw [hread _ _ _ hspelled]
  decide +kernel

end Gearing.Listing
