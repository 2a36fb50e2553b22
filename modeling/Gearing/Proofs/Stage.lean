import Gearing.Proofs.Executor.Walk
import Mathlib.Data.List.Chain

/-!
The paths that the stages of a run admit. A stage other than the first is reached in one way up to the
number of rounds, so a path is the beginning of a walk, or such a beginning that was aborted before its end.
After the last round that has a number, the question which round comes next has no answer.
-/
namespace Gearing.Stage

/-- The second stage is admitted after the first. -/
def Follows (s t : Stage) : Prop := s.leadsTo t = .ok true

instance (s t : Stage) : Decidable (s.Follows t) := inferInstanceAs (Decidable (_ = _))

/-- A finite path from the first stage, each stage admitted after the one before it. -/
structure Path (p : List Stage) : Prop where
  start : p.head? = some idle
  chain : p.IsChain Follows

/-- The beginning of a walk, or one that ended in a stage which is not final and was aborted there. -/
inductive Forward : List Stage → Prop
  | begun {p : List Stage} {k : Nat} (bound : k < 2 ^ 32) (started : p ≠ []) (part : p <+: walk k) : Forward p
  | aborted {p : List Stage} {k : Nat} {s : Stage} (bound : k < 2 ^ 32) (part : p <+: walk k)
    (last : p.getLast? = some s) (unfinished : s.isTerminal = false) : Forward (p ++ [.aborted])

def lastRound : UInt32 := UInt32.ofNat (2 ^ 32 - 1)

section Steps
variable {s t : Stage} {i j : UInt32}

/-- One step, by the stages that it may go between. -/
inductive Next : Stage → Stage → Prop
  | acquire : Next idle flashAcquired
  | enter : Next flashAcquired (looping 1)
  | skip : Next flashAcquired repaying
  | round {i j : UInt32} (succ : j.toNat = i.toNat + 1) : Next (looping i) (looping j)
  | leave (i : UInt32) : Next (looping i) repaying
  | settle : Next repaying settled
  | abort {s : Stage} (unfinished : s.isTerminal = false) : Next s aborted

theorem looping_follows_iff : (looping i).Follows (looping j) ↔ j.toNat = i.toNat + 1 := by
  rw [Follows, looping_leadsTo]
  have hj := j.toNat_lt
  have hsucc : (i + 1).toNat = (i.toNat + 1) % 2 ^ 32 := UInt32.toNat_add i 1
  split
  · rename_i hroom
    rw [Nat.mod_eq_of_lt hroom] at hsucc
    simp [← UInt32.toNat_inj, hsucc]
  · rename_i hfull
    constructor
    · intro h
      cases h
    · intro h
      omega

theorem leadsTo_aborted (s : Stage) : s.leadsTo aborted = .ok (!s.isTerminal) := rfl

theorem follows_aborted_iff : s.Follows aborted ↔ s.isTerminal = false := by
  simp [Follows, leadsTo_aborted]

theorem follows_iff : s.Follows t ↔ Next s t := by
  constructor
  · intro h
    cases t with
    | idle => cases s <;> cases h
    | flashAcquired =>
      cases s with
      | idle => exact .acquire
      | _ => cases h
    | looping j =>
      cases s with
      | flashAcquired =>
        have hfirst : (j == 1) = true := Except.ok.inj h
        rw [beq_iff_eq.mp hfirst]
        exact .enter
      | looping i => exact .round (looping_follows_iff.mp h)
      | _ => cases h
    | repaying =>
      cases s with
      | flashAcquired => exact .skip
      | looping i => exact .leave i
      | _ => cases h
    | settled =>
      cases s with
      | repaying => exact .settle
      | _ => cases h
    | aborted => exact .abort (follows_aborted_iff.mp h)
  · intro h
    cases h with
    | round succ => exact looping_follows_iff.mpr succ
    | abort unfinished => exact follows_aborted_iff.mpr unfinished
    | _ => rfl

theorem leadsTo_decided (s t : Stage) :
    (∃ b, s.leadsTo t = .ok b) ∨ ∃ i j, s = looping i ∧ t = looping j := by
  cases t with
  | looping j =>
    cases s with
    | looping i => exact .inr ⟨i, j, rfl, rfl⟩
    | _ => exact .inl ⟨_, rfl⟩
  | aborted => exact .inl ⟨_, leadsTo_aborted s⟩
  | _ => cases s <;> exact .inl ⟨_, rfl⟩

theorem leadsTo_error_iff {e : Trap} :
    s.leadsTo t = .error e ↔ e = .overflow ∧ s = looping lastRound ∧ ∃ j, t = looping j := by
  constructor
  · intro h
    rcases leadsTo_decided s t with ⟨b, hb⟩ | ⟨i, j, rfl, rfl⟩
    · rw [hb] at h
      cases h
    · rw [looping_leadsTo] at h
      split_ifs at h with hroom
      cases h
      have hi := i.toNat_lt
      have hgreatest : lastRound.toNat = 2 ^ 32 - 1 := rfl
      have hlast : i = lastRound := UInt32.toNat_inj.mp (by omega)
      exact ⟨rfl, congrArg looping hlast, j, rfl⟩
  · rintro ⟨rfl, rfl, j, rfl⟩
    rfl

end Steps

section Walks
variable {p : List Stage} {s t : Stage} {k : Nat}

theorem loops_concat (k : Nat) : loops 1 (k + 1) = loops 1 k ++ [looping (UInt32.ofNat (k + 1))] := by
  simp [loops, List.range'_1_concat, Nat.add_comm]

/-- The stages up to round `k`, which for no round at all is the flash liquidity. -/
def opening (k : Nat) : List Stage := [idle, flashAcquired] ++ loops 1 k

theorem opening_succ (k : Nat) : opening (k + 1) = opening k ++ [round (k + 1)] := by
  rw [opening, loops_concat, ← List.append_assoc]
  rfl

theorem walk_eq_opening (k : Nat) : walk k = opening k ++ [repaying, settled] := rfl

theorem getLast?_opening (k : Nat) : (opening k).getLast? = some (round k) := by
  cases k with
  | zero => rfl
  | succ k => rw [opening_succ, List.getLast?_concat]

/-- The way to a stage that was not aborted. Where the stage does not tell how many rounds lie before it, `k` does. -/
def wayTo (k : Nat) : Stage → List Stage
  | idle => [idle]
  | flashAcquired => opening 0
  | looping i => opening i.toNat
  | repaying => opening k ++ [repaying]
  | settled => walk k
  | aborted => []

theorem wayTo_next (hk : k < 2 ^ 32) (h : Next s t) (ht : t ≠ aborted) :
    ∃ k' < 2 ^ 32, wayTo k s ++ [t] = wayTo k' t := by
  cases h with
  | acquire => exact ⟨k, hk, rfl⟩
  | enter => exact ⟨k, hk, (opening_succ 0).symm⟩
  | skip => exact ⟨0, by decide, rfl⟩
  | @round i j succ =>
    refine ⟨k, hk, ?_⟩
    have hj : UInt32.ofNat (i.toNat + 1) = j := by rw [← succ, UInt32.ofNat_toNat]
    rw [wayTo, wayTo, succ, opening_succ, round, hj]
  | leave i => exact ⟨i.toNat, i.toNat_lt, rfl⟩
  | settle => exact ⟨k, hk, by simp [wayTo, walk_eq_opening]⟩
  | abort => exact absurd rfl ht

theorem opening_part (k : Nat) : opening k <+: walk k := List.prefix_append _ _

theorem wayTo_part (hk : k < 2 ^ 32) (s : Stage) : ∃ k' < 2 ^ 32, wayTo k s <+: walk k' := by
  cases s with
  | idle => exact ⟨k, hk, List.prefix_append [idle] _⟩
  | flashAcquired => exact ⟨0, by decide, opening_part 0⟩
  | looping i => exact ⟨i.toNat, i.toNat_lt, opening_part i.toNat⟩
  | repaying => exact ⟨k, hk, by simp [wayTo, walk_eq_opening]⟩
  | settled => exact ⟨k, hk, List.prefix_rfl⟩
  | aborted => exact ⟨k, hk, List.nil_prefix⟩

theorem path_concat_iff (hp : p ≠ []) : Path (p ++ [t]) ↔ Path p ∧ ∀ s ∈ p.getLast?, s.Follows t := by
  constructor
  · intro h
    obtain ⟨hchain, -, hlast⟩ := List.isChain_append.mp h.chain
    have hstart := h.start
    rw [List.head?_append_of_ne_nil _ hp] at hstart
    exact ⟨⟨hstart, hchain⟩, fun s hs => hlast s hs t rfl⟩
  · rintro ⟨⟨hstart, hchain⟩, hlast⟩
    refine ⟨by rwa [List.head?_append_of_ne_nil _ hp], List.isChain_append.mpr ⟨hchain, .singleton t, ?_⟩⟩
    rintro s hs _ ⟨⟩
    exact hlast s hs

theorem not_next_aborted : ¬ Next aborted t := by
  intro h
  cases h with
  | abort unfinished => cases unfinished

theorem Path.way (h : Path p) (hlast : p.getLast? = some s) (hs : s ≠ aborted) :
    ∃ k < 2 ^ 32, p = wayTo k s := by
  -- The last step tells the stage before it.
  induction p using List.reverseRecOn generalizing s with
  | nil => cases hlast
  | append_singleton q t ih =>
    obtain rfl : t = s := by simpa using hlast
    by_cases hq : q = []
    · subst hq
      obtain rfl : t = idle := by simpa using h.start
      exact ⟨0, by decide, rfl⟩
    · obtain ⟨hbefore, hfollows⟩ := (path_concat_iff hq).mp h
      have hu := List.getLast?_eq_some_getLast hq
      have hnext := follows_iff.mp (hfollows _ hu)
      have halive : q.getLast hq ≠ aborted := fun hu => not_next_aborted (hu ▸ hnext)
      obtain ⟨k, hk, hway⟩ := ih hbefore hu halive
      obtain ⟨n, hn, hstep⟩ := wayTo_next hk hnext hs
      exact ⟨n, hn, by rw [← hstep, ← hway]⟩

theorem Path.forward (h : Path p) : Forward p := by
  rcases List.eq_nil_or_concat p with rfl | ⟨q, t, rfl⟩
  · cases h.start
  rw [List.concat_eq_append] at h ⊢
  by_cases ht : t = aborted
  · subst ht
    have hq : q ≠ [] := by
      rintro rfl
      cases h.start
    obtain ⟨s, hs⟩ : ∃ s, q.getLast? = some s := ⟨_, List.getLast?_eq_some_getLast hq⟩
    obtain ⟨hbefore, hfollows⟩ := (path_concat_iff hq).mp h
    have hunfinished : s.isTerminal = false := follows_aborted_iff.mp (hfollows s hs)
    have halive : s ≠ aborted := by
      rintro rfl
      cases hunfinished
    obtain ⟨k, hk, rfl⟩ := hbefore.way hs halive
    obtain ⟨n, hn, hpart⟩ := wayTo_part hk s
    exact .aborted hn hpart hs hunfinished
  · obtain ⟨k, hk, hway⟩ := h.way List.getLast?_concat ht
    obtain ⟨n, hn, hpart⟩ := wayTo_part hk t
    exact .begun hn (by simp) (hway ▸ hpart)

theorem path_opening (hk : k < 2 ^ 32) : Path (opening k) := by
  induction k with
  | zero => exact ⟨rfl, List.isChain_pair.mpr rfl⟩
  | succ k ih =>
    rw [opening_succ, path_concat_iff (by simp [opening])]
    refine ⟨ih (by omega), fun s hs => ?_⟩
    obtain rfl : round k = s := by simpa [getLast?_opening] using hs
    exact round_leadsTo hk

theorem path_walk (hk : k < 2 ^ 32) : Path (walk k) := by
  have hrepaying : Path (opening k ++ [repaying]) := by
    rw [path_concat_iff (by simp [opening])]
    refine ⟨path_opening hk, fun s hs => ?_⟩
    obtain rfl : round k = s := by simpa [getLast?_opening] using hs
    exact round_leadsTo_repaying k
  have hsettled : Path (opening k ++ [repaying] ++ [settled]) := by
    rw [path_concat_iff (by simp)]
    refine ⟨hrepaying, fun s hs => ?_⟩
    obtain rfl : repaying = s := by simpa using hs
    rfl
  simpa [walk_eq_opening] using hsettled

theorem Path.of_part {q : List Stage} (h : Path q) (hp : p ≠ []) (hpart : p <+: q) : Path p := by
  obtain ⟨r, rfl⟩ := hpart
  have hstart := h.start
  rw [List.head?_append_of_ne_nil _ hp] at hstart
  exact ⟨hstart, (List.isChain_append.mp h.chain).1⟩

theorem Forward.path (h : Forward p) : Path p := by
  cases h with
  | begun bound started part => exact (path_walk bound).of_part started part
  | @aborted q k s bound part last unfinished =>
    have hq : q ≠ [] := by
      rintro rfl
      cases last
    rw [path_concat_iff hq]
    refine ⟨(path_walk bound).of_part hq part, fun t ht => ?_⟩
    obtain rfl : s = t := by simpa [last] using ht
    exact follows_aborted_iff.mpr unfinished

end Walks

/-- Grows with every step. -/
def rank : Stage → Nat
  | idle => 0
  | flashAcquired => 1
  | looping i => i.toNat + 2
  | repaying => 2 ^ 32 + 2
  | settled => 2 ^ 32 + 3
  | aborted => 2 ^ 32 + 4

theorem Next.rank_lt {s t : Stage} (h : Next s t) : s.rank < t.rank := by
  cases h with
  | round succ =>
    simp only [rank, succ]
    omega
  | leave i =>
    have hi := i.toNat_lt
    simp only [rank]
    omega
  | abort unfinished =>
    cases s with
    | looping i =>
      have hi := i.toNat_lt
      simp only [rank]
      omega
    | settled => cases unfinished
    | aborted => cases unfinished
    | _ => simp [rank]
  | _ => simp [rank]

theorem Path.nodup {p : List Stage} (h : Path p) : p.Nodup := by
  have hgrows : p.IsChain (fun s t => s.rank < t.rank) :=
    h.chain.imp fun _ _ hfollows => (follows_iff.mp hfollows).rank_lt
  have hranks : (p.map rank).Pairwise (· < ·) := ((List.isChain_map rank).mpr hgrows).pairwise
  exact List.Nodup.of_map rank (hranks.imp Nat.ne_of_lt)

/-- The paths of the stages are the beginnings of walks, whole or aborted, and enter no stage twice. The rounds
follow one another by number, and whether a stage follows is decided unless the one before is the last round that
has a number and the other one is a round, too. -/
theorem paths_forward (p : List Stage) :
    (Path p ↔ Forward p) ∧ (Path p → p.Nodup) ∧
      (∀ s t, (∃ b, s.leadsTo t = .ok b) ↔ ¬ (s = looping lastRound ∧ ∃ j, t = looping j)) ∧
      ∀ i j, (looping i).leadsTo (looping j) = .ok true ↔ j.toNat = i.toNat + 1 := by
  refine ⟨⟨Path.forward, Forward.path⟩, Path.nodup, fun s t => ?_, fun i j => looping_follows_iff⟩
  cases hleads : s.leadsTo t with
  | ok b =>
    have hdecided : ¬ (s = looping lastRound ∧ ∃ j, t = looping j) := by
      rintro ⟨rfl, j, rfl⟩
      cases hleads
    simpa using hdecided
  | error e =>
    have hundecided := (leadsTo_error_iff.mp hleads).2
    simpa using hundecided

/-- A run of two rounds that is aborted in the second one. -/
theorem paths_forward_aborted :
    Forward [idle, flashAcquired, looping 1, looping 2, aborted] ∧
      [idle, flashAcquired, looping 1, looping 2, aborted].Nodup := by
  have hpath : Path [idle, flashAcquired, looping 1, looping 2, aborted] := ⟨rfl, by decide⟩
  have h := paths_forward [idle, flashAcquired, looping 1, looping 2, aborted]
  exact ⟨h.1.mp hpath, h.2.1 hpath⟩

/-- After the last round that has a number no answer is given, not even that no round follows. -/
theorem undecided_after_last_round :
    (looping lastRound).leadsTo (looping 0) = .error .overflow ∧
      ¬ ∃ b, (looping lastRound).leadsTo (looping 0) = .ok b :=
  ⟨rfl, nofun⟩

end Gearing.Stage
