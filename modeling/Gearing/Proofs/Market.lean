import Gearing.Market.Listing
import Gearing.Proofs.Pool.Portfolio

/-!
Markets that pass their validation.

Validation compares symbols in Unicode upper case and the lookup compares them up to ASCII case. The two cases of
an ASCII letter have the same capital, so two symbols with a spelling in common are duplicates to the validation,
and a lookup never has to choose. Addresses are compared after they are read, as the pool compares them.
-/
namespace Gearing

section Answers
variable {ε α β : Type} {x : Except ε α} {b : β}

theorem exists_of_bind_ok {f : α → Except ε β} (h : x >>= f = .ok b) : ∃ a, x = .ok a ∧ f a = .ok b := by
  cases x with
  | error e => cases h
  | ok a => exact ⟨a, rfl, h⟩

theorem exists_of_map_ok {f : α → β} (h : x.map f = .ok b) : ∃ a, x = .ok a ∧ f a = b := by
  cases x with
  | error e => cases h
  | ok a => exact ⟨a, rfl, Except.ok.inj h⟩

end Answers

namespace Text

/-- The same character, or the two cases of one ASCII letter. -/
inductive SameLetter : Char → Char → Prop where
  | same (c : Char) : SameLetter c c
  | lower {c d : Char} (capital : c.isUpper) (shift : d.toNat = c.toNat + 32) : SameLetter c d
  | upper {c d : Char} (capital : d.isUpper) (shift : c.toNat = d.toNat + 32) : SameLetter c d

theorem isUpper_iff {c : Char} : c.isUpper ↔ 65 ≤ c.toNat ∧ c.toNat ≤ 90 :=
  decide_eq_true_iff

theorem toNat_toLower (c : Char) : c.toLower.toNat = if c.isUpper then c.toNat + 32 else c.toNat := by
  have hcapital : c.isUpper ↔ c.val ≥ 'A'.val ∧ c.val ≤ 'Z'.val := decide_eq_true_iff
  by_cases h : c.isUpper
  · have hshift : (c.val + 32).toNat = (c.val.toNat + 32) % 2 ^ 32 := UInt32.toNat_add c.val 32
    have hval : c.toNat = c.val.toNat := rfl
    have hrange := isUpper_iff.mp h
    have hlower : c.toLower.toNat = (c.val + 32).toNat := congrArg Char.toNat (dif_pos (hcapital.mp h))
    rw [if_pos h, hlower, hshift]
    omega
  · have hsame : c.toLower = c := dif_neg (mt hcapital.mpr h)
    rw [if_neg h, hsame]

theorem toLower_eq_iff {c d : Char} : c.toLower = d.toLower ↔ SameLetter c d := by
  rw [← Char.toNat_inj, toNat_toLower, toNat_toLower]
  constructor
  · intro h
    split_ifs at h with hc hd hd
    · obtain rfl : c = d := Char.toNat_inj.mp (by omega)
      exact .same c
    · exact .lower hc h.symm
    · exact .upper hd h
    · obtain rfl : c = d := Char.toNat_inj.mp h
      exact .same c
  · intro h
    cases h with
    | same => rfl
    | lower hc hshift =>
      have hrange := isUpper_iff.mp hc
      have hd : ¬ d.isUpper := by
        rw [isUpper_iff]
        omega
      rw [if_pos hc, if_neg hd, hshift]
    | upper hd hshift =>
      have hrange := isUpper_iff.mp hd
      have hc : ¬ c.isUpper := by
        rw [isUpper_iff]
        omega
      rw [if_pos hd, if_neg hc, hshift]

theorem upperChar_eq_of_lower {c d : Char} (hc : c.isUpper) (hshift : d.toNat = c.toNat + 32) :
    upperChar c = upperChar d := by
  have hletters : ∀ n < 91, 65 ≤ n → upperChar (Char.ofNat n) = upperChar (Char.ofNat (n + 32)) := by decide
  obtain ⟨hlow, hhigh⟩ := isUpper_iff.mp hc
  have h := hletters c.toNat (by omega) hlow
  rwa [← hshift, Char.ofNat_toNat, Char.ofNat_toNat] at h

theorem upperChar_eq {c d : Char} (h : SameLetter c d) : upperChar c = upperChar d := by
  cases h with
  | same => rfl
  | lower hc hshift => exact upperChar_eq_of_lower hc hshift
  | upper hd hshift => exact (upperChar_eq_of_lower hd hshift).symm

/-- The same text, but for the case of its ASCII letters. -/
def Respells (s t : String) : Prop := List.Forall₂ SameLetter s.toList t.toList

theorem respells_self (s : String) : Respells s s :=
  List.forall₂_same.mpr fun c _ => .same c

theorem toLower_eq_toLower_iff {s t : String} : s.toLower = t.toLower ↔ Respells s t := by
  have hmap : ∀ s : String, s.toLower.toList = s.toList.map Char.toLower := fun s => String.toList_map
  rw [← String.toList_inj, hmap, hmap, ← List.forall₂_eq_eq_eq, List.forall₂_map_left_iff,
    List.forall₂_map_right_iff]
  simp only [toLower_eq_iff, Respells]

theorem flatMap_upperChar {cs ds : List Char} (h : List.Forall₂ SameLetter cs ds) :
    cs.flatMap upperChar = ds.flatMap upperChar := by
  induction h with
  | nil => rfl
  | cons hletter hrest ih => rw [List.flatMap_cons, List.flatMap_cons, upperChar_eq hletter, ih]

theorem upper_eq {s t : String} (h : Respells s t) : upper s = upper t :=
  congrArg String.ofList (flatMap_upperChar h)

end Text

theorem find?_eq_some_iff_mem {α : Type} {p : α → Bool} {as : List α} {a : α}
    (h : as.Pairwise fun a b => ¬ (p a ∧ p b)) : as.find? p = some a ↔ a ∈ as ∧ p a := by
  induction as with
  | nil => simp
  | cons b bs ih =>
    obtain ⟨hb, hbs⟩ := List.pairwise_cons.mp h
    by_cases hpass : p b
    · have honly : ∀ a ∈ bs, ¬ p a := fun a ha hp => hb a ha ⟨hpass, hp⟩
      rw [List.find?_cons_of_pos hpass, Option.some_inj, List.mem_cons]
      constructor
      · rintro rfl
        exact ⟨.inl rfl, hpass⟩
      · rintro ⟨rfl | ha, hp⟩
        · rfl
        · exact absurd hp (honly a ha)
    · rw [List.find?_cons_of_neg hpass, ih hbs, List.mem_cons]
      constructor
      · exact fun ⟨ha, hp⟩ => ⟨.inr ha, hp⟩
      · rintro ⟨rfl | ha, hp⟩
        · exact absurd hp hpass
        · exact ⟨ha, hp⟩

namespace Listing

theorem exists_reserve {l : Listing} {a : Address} (htoken : l.token = .ok a) (hltv : l.ltvBps < scale) :
    ∃ r, l.reserve = .ok r ∧ r.asset = a ∧ Constraint.ofReserve r = .ok ⟨a, l.ltvBps⟩ := by
  refine ⟨_, congrArg (Except.map _) htoken, rfl, ?_⟩
  exact if_neg (Nat.not_le_of_lt hltv)

theorem token_of_reserve {l : Listing} {r : Reserve} (h : l.reserve = .ok r) : l.token = .ok r.asset := by
  obtain ⟨a, htoken, rfl⟩ := exists_of_map_ok h
  exact htoken

end Listing

namespace Market
variable {m : Market} {t t' : Taken} {l l' : Listing} {ls : List Listing} {a a' : Address}

/-- A listing of an address that can be taken in after others. -/
structure Admits (t : Taken) (l : Listing) (a : Address) : Prop where
  token : l.token = .ok a
  ltv : l.ltvBps < scale
  threshold : l.ltvBps ≤ l.liquidationThresholdBps
  symbol : Text.upper l.symbol ∉ t.symbols
  address : a ∉ t.addresses

/-- Two listings of which neither is a duplicate of the other. -/
structure Apart (l l' : Listing) : Prop where
  symbol : Text.upper l.symbol ≠ Text.upper l'.symbol
  token : l.token ≠ l'.token

/-- What is taken once a listing has been let in, too. -/
def Taken.add (t : Taken) (l : Listing) (a : Address) : Taken where
  symbols := Text.upper l.symbol :: t.symbols
  addresses := a :: t.addresses

theorem Admits.of_add (h : Admits (t.add l a) l' a') : Admits t l' a' where
  token := h.token
  ltv := h.ltv
  threshold := h.threshold
  symbol := fun hmem => h.symbol (List.mem_cons_of_mem _ hmem)
  address := fun hmem => h.address (List.mem_cons_of_mem _ hmem)

theorem Admits.apart (h : Admits t l a) (h' : Admits (t.add l a) l' a') : Apart l l' where
  symbol := fun hsame => h'.symbol (hsame ▸ List.mem_cons_self)
  token := by
    rw [h.token, h'.token]
    rintro ⟨⟩
    exact h'.address List.mem_cons_self

theorem enlist_ok (h : enlist t l = .ok t') : ∃ a, Admits t l a ∧ t' = t.add l a := by
  obtain ⟨a, htoken, h⟩ := exists_of_bind_ok h
  split_ifs at h with hltv hthreshold hsymbol haddress
  cases h
  exact ⟨a, ⟨htoken, Nat.lt_of_not_le hltv, Nat.le_of_not_lt hthreshold, hsymbol, haddress⟩, rfl⟩

/-- What is let in after others has to be apart from each of them, and would have been let in without them. -/
theorem foldlM_enlist_ok (h : ls.foldlM enlist t = .ok t') :
    (∀ l ∈ ls, ∃ a, Admits t l a) ∧ ls.Pairwise Apart := by
  induction ls generalizing t with
  | nil => simp
  | cons l ls ih =>
    rw [List.foldlM_cons] at h
    obtain ⟨u, henlist, h⟩ := exists_of_bind_ok h
    obtain ⟨a, hadmits, rfl⟩ := enlist_ok henlist
    obtain ⟨hrest, hapart⟩ := ih h
    constructor
    · refine List.forall_mem_cons.mpr ⟨⟨a, hadmits⟩, fun l' hl' => ?_⟩
      obtain ⟨a', hadmits'⟩ := hrest l' hl'
      exact ⟨a', hadmits'.of_add⟩
    · refine List.pairwise_cons.mpr ⟨fun l' hl' => ?_, hapart⟩
      obtain ⟨a', hadmits'⟩ := hrest l' hl'
      exact hadmits.apart hadmits'

theorem validate_ok (h : m.validate = .ok ()) :
    (∀ l ∈ m.listings, ∃ a, Admits {} l a) ∧ m.listings.Pairwise Apart := by
  obtain ⟨native, -, h⟩ := exists_of_bind_ok h
  obtain ⟨t, h, -⟩ := exists_of_bind_ok h
  exact foldlM_enlist_ok h

theorem Apart.not_respells (h : Apart l l') {s : String} (hl : Text.Respells l.symbol s) :
    ¬ Text.Respells l'.symbol s := fun hl' =>
  h.symbol ((Text.upper_eq hl).trans (Text.upper_eq hl').symm)

theorem listing?_eq_some_iff (h : m.listings.Pairwise Apart) (s : String) (l : Listing) :
    m.listing? s = some l ↔ l ∈ m.listings ∧ Text.Respells l.symbol s := by
  have hone : m.listings.Pairwise fun l l' =>
      ¬ (decide (l.symbol.toLower = s.toLower) ∧ decide (l'.symbol.toLower = s.toLower)) := by
    refine h.imp fun hapart => ?_
    simp only [decide_eq_true_eq, Text.toLower_eq_toLower_iff]
    exact fun ⟨hl, hl'⟩ => hapart.not_respells hl hl'
  rw [listing?, find?_eq_some_iff_mem hone, decide_eq_true_eq, Text.toLower_eq_toLower_iff]

section Reserves
variable {rs : List Reserve}

theorem exists_mapM_reserve (h : ∀ l ∈ ls, ∃ r, l.reserve = .ok r) :
    ∃ rs, ls.mapM Listing.reserve = .ok rs := by
  induction ls with
  | nil => exact ⟨[], rfl⟩
  | cons l ls ih =>
    obtain ⟨⟨r, hr⟩, hrest⟩ := List.forall_mem_cons.mp h
    obtain ⟨rs, hrs⟩ := ih hrest
    exact ⟨r :: rs, by rw [List.mapM_cons, hr, hrs]; rfl⟩

theorem map_token_of_mapM (h : ls.mapM Listing.reserve = .ok rs) :
    ls.map Listing.token = (rs.map (·.asset)).map .ok := by
  induction ls generalizing rs with
  | nil =>
    cases h
    rfl
  | cons l ls ih =>
    rw [List.mapM_cons] at h
    obtain ⟨r, hr, h⟩ := exists_of_bind_ok h
    obtain ⟨rs', hrs, h⟩ := exists_of_bind_ok h
    cases h
    rw [List.map_cons, Listing.token_of_reserve hr, ih hrs, List.map_cons, List.map_cons]

theorem nodup_of_mapM (hapart : ls.Pairwise Apart) (h : ls.mapM Listing.reserve = .ok rs) :
    (rs.map (·.asset)).Nodup := by
  have htokens : (ls.map Listing.token).Nodup := List.pairwise_map.mpr (hapart.imp Apart.token)
  rw [map_token_of_mapM h] at htokens
  exact htokens.of_map Except.ok

end Reserves

end Market

namespace Pool

theorem foldl_list {p : Pool} {rs : List Reserve} (h : (p.assets ++ rs.map (·.asset)).Nodup) :
    rs.foldl list p = { p with reserves := p.reserves ++ rs } := by
  induction rs generalizing p with
  | nil => simp
  | cons r rs ih =>
    have hnew : r.asset ∉ p.assets := fun hmem =>
      List.disjoint_of_nodup_append h hmem List.mem_cons_self
    have hnodup : ((p.list r).assets ++ rs.map (·.asset)).Nodup := by
      rw [assets_list, if_neg hnew]
      simpa using h
    rw [List.foldl_cons, ih hnodup, list_of_not_mem hnew]
    simp

end Pool

namespace Market
variable {m : Market}

/-- A valid market names each of its reserves by every spelling of its symbol and by nothing else, and all of
them can be listed: on an empty pool they stand in the order of the market, none in the place of another. -/
theorem validate_unambiguous (h : m.validate = .ok ()) :
    (m.listings.Pairwise fun l l' => ∀ s, Text.Respells l.symbol s → ¬ Text.Respells l'.symbol s) ∧
      (∀ s l, m.listing? s = some l ↔ l ∈ m.listings ∧ Text.Respells l.symbol s) ∧
      (∀ l ∈ m.listings, ∃ r, l.reserve = .ok r ∧ Constraint.ofReserve r = .ok ⟨r.asset, l.ltvBps⟩) ∧
      ∃ rs, m.active.mapM Listing.reserve = .ok rs ∧
        ∀ p : Pool, p.reserves = [] → rs.foldl Pool.list p = { p with reserves := rs } := by
  obtain ⟨hadmits, hapart⟩ := validate_ok h
  have hreserves : ∀ l ∈ m.listings, ∃ r, l.reserve = .ok r ∧
      Constraint.ofReserve r = .ok ⟨r.asset, l.ltvBps⟩ := by
    intro l hl
    obtain ⟨a, hl⟩ := hadmits l hl
    obtain ⟨r, hr, rfl, hc⟩ := Listing.exists_reserve hl.token hl.ltv
    exact ⟨r, hr, hc⟩
  refine ⟨hapart.imp fun hapart s => hapart.not_respells, listing?_eq_some_iff hapart, hreserves, ?_⟩
  have hactive : ∀ l ∈ m.active, ∃ r, l.reserve = .ok r := by
    intro l hl
    obtain ⟨r, hr, -⟩ := hreserves l (List.mem_of_mem_filter hl)
    exact ⟨r, hr⟩
  obtain ⟨rs, hrs⟩ := exists_mapM_reserve hactive
  have hnodup := nodup_of_mapM (hapart.filter _) hrs
  refine ⟨rs, hrs, fun p hempty => ?_⟩
  have hassets : p.assets = [] := by simp [Pool.assets, hempty]
  rw [Pool.foldl_list (by rw [hassets]; exact hnodup), hempty, List.nil_append]

/-- A token whose symbol starts with a letter beyond ASCII. -/
def umlautListing : Listing where
  symbol := "ÜSD"
  address := "0x0000000000000000000000000000000000000002"
  decimals := 6
  ltvBps := 7000
  liquidationThresholdBps := 7500

/-- Two tokens that are listed and one that is not active. -/
def umlautMarket : Market where
  name := "umlaut"
  wrappedNative := "0x0000000000000000000000000000000000000001"
  listings := [
    { umlautListing with symbol := "WETH", address := "0x0000000000000000000000000000000000000001" },
    { umlautListing with symbol := "USD", address := "0x0000000000000000000000000000000000000003", active := false },
    umlautListing]

/-- The umlaut is found as it is written; its other case is another letter, and without the dots it is another
token. -/
theorem validate_unambiguous_umlaut : umlautMarket.validate = .ok () ∧
    umlautMarket.listing? "Üsd" = some umlautListing ∧ umlautMarket.listing? "üsd" = none ∧
    ∃ rs, umlautMarket.active.mapM Listing.reserve = .ok rs ∧ rs.map (·.symbol) = ["WETH", "ÜSD"] ∧
      rs.foldl Pool.list { feeBps := 9 } = { feeBps := 9, reserves := rs } := by
  have hvalid : umlautMarket.validate = .ok () := by decide +kernel
  obtain ⟨-, hfound, -, rs, hrs, hlisted⟩ := validate_unambiguous hvalid
  have hspelled : Text.Respells umlautListing.symbol "Üsd" := by
    have hletters : List.Forall₂ Text.SameLetter ['Ü', 'S', 'D'] ['Ü', 's', 'd'] :=
      .cons (.same 'Ü') (.cons (.lower rfl rfl) (.cons (.lower rfl rfl) .nil))
    exact hletters
  have hmem : umlautListing ∈ umlautMarket.listings := by simp [umlautMarket]
  have hsymbols : (umlautMarket.active.mapM Listing.reserve).map (·.map (·.symbol)) =
      .ok ["WETH", "ÜSD"] := by
    decide +kernel
  rw [hrs] at hsymbols
  exact ⟨hvalid, (hfound _ _).mpr ⟨hmem, hspelled⟩, by decide +kernel, rs, hrs, Except.ok.inj hsymbols,
    hlisted { feeBps := 9 } rfl⟩

end Market
end Gearing
