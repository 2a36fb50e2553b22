import Gearing.Calldata
import Mathlib.Data.List.Induction

/-!
Calldata read back. A contract takes the first four bytes that it is sent as a selector and cuts the rest into
words of 32 bytes, the highest byte first; an address is a word with nothing in its twelve highest bytes. Read
in this way, the bytes of a call are that call, and no other bytes are.
-/
namespace Gearing

/-- The numbers of the call are words. All numbers of 64 bits are, and all of 32 bits. -/
def HelperCall.Fits : HelperCall → Prop
  | .loop _ _ ratio loops | .loopNative ratio loops => ratio < 2 ^ 256 ∧ loops < 2 ^ 256
  | .approveDelegation .. => True

namespace Calldata

def number (bs : List UInt8) : Nat := bs.foldl (fun n b => n * 256 + b.toNat) 0

def cut : Nat → List UInt8 → List Word
  | 0, _ => []
  | k + 1, bs => BitVec.ofNat 256 (number (bs.take 32)) :: cut k (bs.drop 32)

/-- The words of the bytes, if no byte is left over. -/
def words? (bs : List UInt8) : Option (List Word) :=
  if bs.length % 32 = 0 then some (cut (bs.length / 32) bs) else none

/-- The address in a word, which zeros pad on the left. -/
def address? (w : Word) : Option Address :=
  if w.toNat < 2 ^ 160 then some ⟨w.setWidth 160⟩ else none

/-- The function of a selector, called with the words that follow. -/
def call? : List UInt8 → List Word → Option HelperCall
  | [0xb2, 0x14, 0x66, 0xd0], [asset, amount, ratio, loops] =>
    (address? asset).map (.loop · amount ratio.toNat loops.toNat)
  | [0x21, 0xc2, 0xd3, 0x8c], [ratio, loops] => some (.loopNative ratio.toNat loops.toNat)
  | [0xc0, 0x4a, 0x8a, 0x10], [delegatee, amount] =>
    (address? delegatee).map (.approveDelegation · amount)
  | _, _ => none

def decode (bs : List UInt8) : Option HelperCall := (words? (bs.drop 4)).bind (call? (bs.take 4))

def size : HelperCall → Nat
  | .loop .. => 132
  | .loopNative .. | .approveDelegation .. => 68

section Numbers

theorem number_append_singleton (bs : List UInt8) (b : UInt8) :
    number (bs ++ [b]) = number bs * 256 + b.toNat := by
  simp [number]

@[simp] theorem length_bytes (n k : Nat) : (bytes n k).length = k := by
  induction k generalizing n with
  | zero => rfl
  | succ k ih => simp [bytes, ih]

theorem number_bytes (n k : Nat) : number (bytes n k) = n % 256 ^ k := by
  induction k generalizing n with
  | zero => exact (Nat.mod_one n).symm
  | succ k ih =>
    have hbyte : (UInt8.ofNat n).toNat = n % 256 := UInt8.toNat_ofNat'
    rw [bytes, number_append_singleton, ih, hbyte, Nat.pow_succ', Nat.mod_mul]
    omega

theorem bytes_number (bs : List UInt8) : bytes (number bs) bs.length = bs := by
  induction bs using List.reverseRecOn with
  | nil => rfl
  | append_singleton bs b ih =>
    have hb := b.toNat_lt
    have hrest : (number bs * 256 + b.toNat) / 256 = number bs := by omega
    have hbyte : UInt8.ofNat (number bs * 256 + b.toNat) = b := by
      apply UInt8.toNat_inj.mp
      rw [UInt8.toNat_ofNat']
      omega
    rw [List.length_append, List.length_singleton, bytes, number_append_singleton, hrest, hbyte, ih]

theorem number_lt (bs : List UInt8) : number bs < 256 ^ bs.length := by
  rw [← bytes_number bs, number_bytes, length_bytes]
  exact Nat.mod_lt _ (Nat.pow_pos (by decide))

end Numbers

section Words

@[simp] theorem length_wordBytes (w : Word) : (wordBytes w).length = 32 := length_bytes ..

theorem number_wordBytes (w : Word) : number (wordBytes w) = w.toNat := by
  rw [wordBytes, number_bytes]
  exact Nat.mod_eq_of_lt w.isLt

theorem wordBytes_number {bs : List UInt8} (h : bs.length = 32) :
    wordBytes (BitVec.ofNat 256 (number bs)) = bs := by
  have hlt : number bs < 2 ^ 256 := by
    have := number_lt bs
    rwa [h] at this
  rw [wordBytes, BitVec.toNat_ofNat, Nat.mod_eq_of_lt hlt, ← h, bytes_number]

theorem length_flatMap_wordBytes (ws : List Word) :
    (ws.flatMap wordBytes).length = 32 * ws.length := by
  induction ws with
  | nil => rfl
  | cons w ws ih =>
    rw [List.flatMap_cons, List.length_append, length_wordBytes, ih, List.length_cons]
    omega

theorem cut_flatMap_wordBytes (ws : List Word) : cut ws.length (ws.flatMap wordBytes) = ws := by
  induction ws with
  | nil => rfl
  | cons w ws ih =>
    have hw := length_wordBytes w
    rw [List.flatMap_cons, List.length_cons, cut, List.take_left' hw, List.drop_left' hw, ih,
      number_wordBytes, BitVec.ofNat_toNat, BitVec.setWidth_eq]

theorem flatMap_wordBytes_cut {k : Nat} {bs : List UInt8} (h : bs.length = 32 * k) :
    (cut k bs).flatMap wordBytes = bs := by
  induction k generalizing bs with
  | zero => exact (List.eq_nil_of_length_eq_zero h).symm
  | succ k ih =>
    have hfirst : (bs.take 32).length = 32 := by
      rw [List.length_take]
      omega
    have hrest : (bs.drop 32).length = 32 * k := by
      rw [List.length_drop]
      omega
    rw [cut, List.flatMap_cons, wordBytes_number hfirst, ih hrest, List.take_append_drop]

theorem words?_eq_some_iff {bs : List UInt8} {ws : List Word} :
    words? bs = some ws ↔ bs = ws.flatMap wordBytes := by
  constructor
  · intro h
    rw [words?] at h
    split at h
    · rename_i hmod
      cases h
      exact (flatMap_wordBytes_cut (by omega)).symm
    · cases h
  · rintro rfl
    have hlength := length_flatMap_wordBytes ws
    rw [words?, if_pos (by omega), hlength, Nat.mul_div_cancel_left _ (by decide),
      cut_flatMap_wordBytes]

end Words

theorem address?_eq_some_iff {w : Word} {a : Address} :
    address? w = some a ↔ w = a.bits.setWidth 256 := by
  constructor
  · intro h
    rw [address?] at h
    split at h
    · rename_i hlt
      cases h
      apply BitVec.eq_of_toNat_eq
      rw [BitVec.toNat_setWidth, BitVec.toNat_setWidth, Nat.mod_eq_of_lt hlt, Nat.mod_eq_of_lt w.isLt]
    · cases h
  · rintro rfl
    have hlt := a.bits.isLt
    have hpadded : (a.bits.setWidth 256).toNat = a.bits.toNat := by
      rw [BitVec.toNat_setWidth, Nat.mod_eq_of_lt (by omega)]
    rw [address?, hpadded, if_pos hlt, BitVec.setWidth_setWidth_of_le _ (by decide), BitVec.setWidth_eq]

section Calls
variable {c : HelperCall}

theorem call?_eq_some_iff {s : List UInt8} {ws : List Word} :
    call? s ws = some c ↔ c.Fits ∧ s = selector c ∧ ws = arguments c := by
  constructor
  · intro h
    unfold call? at h
    split at h
    · obtain ⟨a, ha, rfl⟩ := Option.map_eq_some_iff.mp h
      obtain rfl := address?_eq_some_iff.mp ha
      exact ⟨⟨BitVec.isLt _, BitVec.isLt _⟩, rfl, by simp [arguments]⟩
    · cases h
      exact ⟨⟨BitVec.isLt _, BitVec.isLt _⟩, rfl, by simp [arguments]⟩
    · obtain ⟨a, ha, rfl⟩ := Option.map_eq_some_iff.mp h
      obtain rfl := address?_eq_some_iff.mp ha
      exact ⟨trivial, rfl, rfl⟩
    · cases h
  · rintro ⟨hfits, rfl, rfl⟩
    have haddress : ∀ a : Address, address? (a.bits.setWidth 256) = some a := fun a =>
      address?_eq_some_iff.mpr rfl
    cases c with
    | loop asset amount ratio loops =>
      simp [call?, selector, arguments, haddress, Nat.mod_eq_of_lt hfits.1, Nat.mod_eq_of_lt hfits.2]
    | loopNative ratio loops =>
      simp [call?, selector, arguments, Nat.mod_eq_of_lt hfits.1, Nat.mod_eq_of_lt hfits.2]
    | approveDelegation delegatee amount => simp [call?, selector, arguments, haddress]

theorem length_selector (c : HelperCall) : (selector c).length = 4 := by
  cases c <;> rfl

theorem take_encode (c : HelperCall) : (encode c).take 4 = selector c :=
  List.take_left' (length_selector c)

theorem drop_encode (c : HelperCall) : (encode c).drop 4 = (arguments c).flatMap wordBytes :=
  List.drop_left' (length_selector c)

theorem length_encode (c : HelperCall) : (encode c).length = size c := by
  rw [encode, List.length_append, length_selector, length_flatMap_wordBytes]
  cases c <;> rfl

/-- Bytes are read as a call exactly where they are its calldata. -/
theorem decode_eq_some_iff {bs : List UInt8} : decode bs = some c ↔ c.Fits ∧ bs = encode c := by
  constructor
  · intro h
    obtain ⟨ws, hws, hcall⟩ := Option.bind_eq_some_iff.mp h
    obtain ⟨hfits, hselector, rfl⟩ := call?_eq_some_iff.mp hcall
    refine ⟨hfits, ?_⟩
    rw [encode, ← hselector, ← words?_eq_some_iff.mp hws, List.take_append_drop]
  · rintro ⟨hfits, rfl⟩
    rw [decode, take_encode, drop_encode, words?_eq_some_iff.mpr rfl]
    exact call?_eq_some_iff.mpr ⟨hfits, rfl, rfl⟩

/-- The calldata of a call is read back as that call, with its selector and all of its arguments, and takes as
many bytes as its function does. No other bytes are read as the call, and no other call has these bytes. -/
theorem decode_exact (h : c.Fits) :
    decode (encode c) = some c ∧ (encode c).take 4 = selector c ∧ (encode c).length = size c ∧
      (∀ bs, decode bs = some c → bs = encode c) ∧
      ∀ d : HelperCall, d.Fits → encode d = encode c → d = c := by
  have hread : decode (encode c) = some c := decode_eq_some_iff.mpr ⟨h, rfl⟩
  refine ⟨hread, take_encode c, length_encode c, fun bs hbs => (decode_eq_some_iff.mp hbs).2,
    fun d hd hsame => ?_⟩
  have hread' : decode (encode d) = some d := decode_eq_some_iff.mpr ⟨hd, rfl⟩
  rw [hsame, hread] at hread'
  exact (Option.some.inj hread').symm

/-- The same two words follow both selectors. -/
theorem decode_exact_alike :
    let c : HelperCall := .loopNative (2 ^ 64 - 1) (2 ^ 32 - 1)
    let d : HelperCall := .approveDelegation ⟨18446744073709551615⟩ 4294967295
    (c.Fits ∧ d.Fits) ∧ decode (encode c) = some c ∧ (encode c).length = 68 ∧
      arguments d = arguments c ∧ encode d ≠ encode c := by
  intro c d
  have hc : c.Fits := ⟨by decide, by decide⟩
  have hd : d.Fits := trivial
  obtain ⟨hread, -, hlength, -, honly⟩ := decode_exact hc
  exact ⟨⟨hc, hd⟩, hread, hlength, by decide, fun hsame => absurd (honly d hd hsame) (by decide)⟩

end Calls

end Calldata
end Gearing
