import Mathlib.Data.FinEnum
import Mathlib.Data.List.GetD

/-!
# Base-253 numbers of the packet format

`eNumber` writes a number as four bytes 1..253, with 254 for the digits it does
not need, and `number` reads them back. A byte 0 is read as 128 and a byte 254
as 1, so that an omitted byte and an unused one both stand for the digit zero.
-/

namespace ArenaServ

/-- The contents of a `std::string`. -/
abbrev Bytes := List UInt8

/-- `s[i]`; the source reads no byte outside the string. -/
def byteAt (s : Bytes) (i : ℕ) : UInt8 := s.getD i 0

theorem byteAt_eq_getElem {s : Bytes} {i : ℕ} (h : i < s.length) : byteAt s i = s[i] :=
  List.getD_eq_getElem s 0 h

theorem byteAt_set {s : Bytes} {j : ℕ} (hj : j < s.length) (i : ℕ) (c : UInt8) :
    byteAt (s.set i c) j = if i = j then c else byteAt s j := by
  rw [byteAt_eq_getElem (by simpa using hj), List.getElem_set, byteAt_eq_getElem hj]

theorem ext_byteAt {s t : Bytes} (hlen : s.length = t.length)
    (h : ∀ i < s.length, byteAt s i = byteAt t i) : s = t := by
  apply List.ext_getElem hlen
  intro i hs ht
  rw [← byteAt_eq_getElem hs, h i hs, byteAt_eq_getElem ht]

namespace PacketProcessor

def max1 : ℕ := 253
def max2 : ℕ := 64009
def max3 : ℕ := 16194277

/-- One digit of `Number`: the two aliases, then `--b`. -/
def digit (b : UInt8) : ℕ :=
  let b := if b = 254 then 1 else b
  let b := if b = 0 then 128 else b
  (b - 1).toNat

def number (b1 b2 b3 b4 : UInt8) : ℕ :=
  digit b4 * max3 + digit b3 * max2 + digit b2 * max1 + digit b1

/-- The four bytes of `ENumber`; every assignment converts to `unsigned char`. -/
def eNumber (number : ℕ) : Bytes :=
  let onumber := number
  let b3 := if max3 ≤ onumber then UInt8.ofNat (number / max3 + 1) else 254
  let number := if max3 ≤ onumber then number % max3 else number
  let b2 := if max2 ≤ onumber then UInt8.ofNat (number / max2 + 1) else 254
  let number := if max2 ≤ onumber then number % max2 else number
  let b1 := if max1 ≤ onumber then UInt8.ofNat (number / max1 + 1) else 254
  let number := if max1 ≤ onumber then number % max1 else number
  [UInt8.ofNat (number + 1), b1, b2, b3]

theorem digit_ofNat_succ {n : ℕ} (hn : n < max1) : digit (UInt8.ofNat (n + 1)) = n := by
  have hval : (UInt8.ofNat (n + 1)).toNat = n + 1 := by
    rw [UInt8.toNat_ofNat']
    exact Nat.mod_eq_of_lt (by unfold max1 at hn; omega)
  have h254 : UInt8.ofNat (n + 1) ≠ 254 := by
    intro h
    have : n + 1 = 254 := hval.symm.trans (congrArg UInt8.toNat h)
    unfold max1 at hn
    omega
  have h0 : UInt8.ofNat (n + 1) ≠ 0 := by
    intro h
    have : n + 1 = 0 := hval.symm.trans (congrArg UInt8.toNat h)
    omega
  simp only [digit, if_neg h254, if_neg h0]
  rw [UInt8.toNat_sub_of_le _ _ (by rw [UInt8.le_iff_toNat_le, hval]; simp), hval]
  rfl

theorem digit_le (b : UInt8) : digit b ≤ 254 := by
  simp only [digit]
  by_cases h254 : b = 254
  · subst h254
    decide
  · rw [if_neg h254]
    by_cases h0 : b = 0
    · subst h0
      decide
    · have hpos : b.toNat ≠ 0 := fun h => h0 (UInt8.toNat_inj.mp (h.trans rfl))
      have hlt := UInt8.toNat_lt b
      have hone : (1 : UInt8) ≤ b := UInt8.le_iff_toNat_le.mpr (Nat.pos_of_ne_zero hpos)
      rw [if_neg h0, UInt8.toNat_sub_of_le _ _ hone]
      change b.toNat - 1 ≤ 254
      omega

/-- `Number` never overflows its 32 bits, whatever the four bytes are. -/
theorem number_lt (b1 b2 b3 b4 : UInt8) : number b1 b2 b3 b4 < 2 ^ 32 := by
  have h1 := digit_le b1
  have h2 := digit_le b2
  have h3 := digit_le b3
  have h4 := digit_le b4
  simp only [number, max1, max2, max3]
  omega

theorem length_eNumber (n : ℕ) : (eNumber n).length = 4 := rfl

/-- Each byte of `ENumber` by itself. -/
theorem eNumber_eq (n : ℕ) : eNumber n =
    [UInt8.ofNat (n % max1 + 1),
      if max1 ≤ n then UInt8.ofNat (n % max2 / max1 + 1) else 254,
      if max2 ≤ n then UInt8.ofNat (n % max3 / max2 + 1) else 254,
      if max3 ≤ n then UInt8.ofNat (n / max3 + 1) else 254] := by
  have e2 : (if max3 ≤ n then n % max3 else n) = n % max3 := by
    split_ifs with h
    · rfl
    · exact (Nat.mod_eq_of_lt (by omega)).symm
  have e1 : (if max2 ≤ n then n % max3 % max2 else n % max3) = n % max2 := by
    unfold max2 max3
    split_ifs <;> omega
  have e0 : (if max1 ≤ n then n % max2 % max1 else n % max2) = n % max1 := by
    unfold max1 max2
    split_ifs <;> omega
  simp only [eNumber, e2, e1, e0]

/-- The digits below the first power of 253 beyond `n` are those of `n`; the
bytes above it are the unused 254. -/
theorem map_digit_eNumber {n : ℕ} (hn : n < 253 ^ 4) :
    (eNumber n).map digit = [n % max1, n % max2 / max1, n % max3 / max2, n / max3] := by
  have hdigit : ∀ c : Prop, ∀ _ : Decidable c, ∀ m : ℕ, m < max1 →
      digit (if c then UInt8.ofNat (m + 1) else 254) = if c then m else 0 := by
    intro c _ m hm
    split_ifs
    · exact digit_ofNat_succ hm
    · rfl
  have e3 : n / max3 < max1 := by unfold max1 max3; omega
  simp only [eNumber_eq, List.map_cons, List.map_nil]
  rw [digit_ofNat_succ (Nat.mod_lt _ (by decide)), hdigit _ _ _ (by unfold max1 max2; omega),
    hdigit _ _ _ (by unfold max1 max2 max3; omega), hdigit _ _ _ e3]
  simp only [List.cons.injEq, and_true, true_and]
  refine ⟨?_, ?_, ?_⟩ <;> split_ifs with h <;> simp only [max1, max2, max3] at h ⊢ <;> omega

theorem number_eNumber {n : ℕ} (hn : n < 253 ^ 4) :
    number (byteAt (eNumber n) 0) (byteAt (eNumber n) 1) (byteAt (eNumber n) 2)
      (byteAt (eNumber n) 3) = n := by
  have hd := map_digit_eNumber hn
  simp only [eNumber, List.map_cons, List.map_nil, List.cons.injEq, and_true] at hd
  simp only [number, byteAt, eNumber, List.getD_cons_zero, List.getD_cons_succ, hd]
  unfold max1 max2 max3
  omega

theorem eNumber_getD_of_lt_max1 {n : ℕ} (hn : n < max1) :
    byteAt (eNumber n) 1 = 254 := by
  simp [byteAt, eNumber, Nat.not_le.mpr hn]

theorem eNumber_getD_of_lt_max2 {n : ℕ} (hn : n < max2) :
    byteAt (eNumber n) 2 = 254 := by
  simp [byteAt, eNumber, Nat.not_le.mpr hn]

theorem eNumber_getD_of_lt_max3 {n : ℕ} (hn : n < max3) :
    byteAt (eNumber n) 3 = 254 := by
  simp [byteAt, eNumber, Nat.not_le.mpr hn]

end PacketProcessor

end ArenaServ

/-!
## Base-253 numbers in machine words

`Number` and `ENumber` compute in 32 bits. None of their results is too large for that, so that
they are what `number` and `eNumber` say, and a number is read back from its first bytes alone
where those are enough for it.
-/

namespace ArenaServ.PacketProcessor

/-- A byte of `Number` behind `--b`. -/
def digitByte (b : UInt8) : UInt8 :=
  let b := if b = 254 then 1 else b
  let b := if b = 0 then 128 else b
  b - 1

/-- `Number`. -/
def numberWord (b1 b2 b3 b4 : UInt8) : UInt32 :=
  (digitByte b4).toUInt32 * 16194277 + (digitByte b3).toUInt32 * 64009 +
    (digitByte b2).toUInt32 * 253 + (digitByte b1).toUInt32

/-- `ENumber`. -/
def eNumberWord (number : UInt32) : Bytes :=
  let onumber := number
  let b3 := if 16194277 ≤ onumber then (number / 16194277 + 1).toUInt8 else 254
  let number := if 16194277 ≤ onumber then number % 16194277 else number
  let b2 := if 64009 ≤ onumber then (number / 64009 + 1).toUInt8 else 254
  let number := if 64009 ≤ onumber then number % 64009 else number
  let b1 := if 253 ≤ onumber then (number / 253 + 1).toUInt8 else 254
  let number := if 253 ≤ onumber then number % 253 else number
  [(number + 1).toUInt8, b1, b2, b3]

/-- `Number` of the first `k` bytes, with 254 for those that are missing. -/
def numberOfFirst (k : ℕ) (bytes : Bytes) : UInt32 :=
  let byte := fun i => if i < k then byteAt bytes i else 254
  numberWord (byte 0) (byte 1) (byte 2) (byte 3)

/-- A number is read back, also from fewer bytes where it is small enough, and no byte of it is one
that the packet format has another use for. -/
structure NumberExact (n : UInt32) : Prop where
  roundTrip : numberOfFirst 4 (eNumberWord n) = n
  bytes : ∀ b ∈ eNumberWord n, b ≠ 0 ∧ b ≠ 255
  first : ∀ k, 1 ≤ k → k ≤ 3 → n.toNat < 253 ^ k → numberOfFirst k (eNumberWord n) = n

/-! ## No overflow -/

theorem toNat_digitByte (b : UInt8) : (digitByte b).toNat = digit b := rfl

/-- What `Number` computes in 32 bits is what it computes without a bound. -/
theorem toNat_numberWord (b1 b2 b3 b4 : UInt8) :
    (numberWord b1 b2 b3 b4).toNat = number b1 b2 b3 b4 := by
  have hlt := number_lt b1 b2 b3 b4
  unfold number max1 max2 max3 at hlt ⊢
  unfold numberWord
  simp only [UInt32.toNat_add, UInt32.toNat_mul, UInt8.toNat_toUInt32, toNat_digitByte,
    UInt32.reduceToNat]
  omega

theorem toUInt8_succ (n : UInt32) : (n + 1).toUInt8 = UInt8.ofNat (n.toNat + 1) := by
  apply UInt8.toNat_inj.mp
  rw [UInt32.toNat_toUInt8, UInt8.toNat_ofNat', UInt32.toNat_add, UInt32.toNat_one]
  exact Nat.mod_mod_of_dvd _ (by decide)

/-- A byte that `ENumber` writes where the number is large enough. -/
theorem ite_div_succ (onumber n m : UInt32) :
    (if m ≤ onumber then (n / m + 1).toUInt8 else 254) =
      if m.toNat ≤ onumber.toNat then UInt8.ofNat (n.toNat / m.toNat + 1) else 254 := by
  rw [toUInt8_succ, UInt32.toNat_div]
  exact if_congr UInt32.le_iff_toNat_le rfl rfl

theorem toNat_ite_mod (onumber n m : UInt32) : (if m ≤ onumber then n % m else n).toNat =
    if m.toNat ≤ onumber.toNat then n.toNat % m.toNat else n.toNat := by
  rw [← UInt32.toNat_mod, apply_ite UInt32.toNat]
  exact if_congr UInt32.le_iff_toNat_le rfl rfl

theorem eNumberWord_eq (n : UInt32) : eNumberWord n = eNumber n.toNat := by
  unfold eNumberWord eNumber
  simp only [ite_div_succ, toNat_ite_mod]
  rw [toUInt8_succ]
  simp only [toNat_ite_mod]
  rfl

/-! ## What is read back -/

theorem ofNat_succ_ne {d : ℕ} (hd : d < max1) :
    UInt8.ofNat (d + 1) ≠ 0 ∧ UInt8.ofNat (d + 1) ≠ 255 := by
  unfold max1 at hd
  have hval : (UInt8.ofNat (d + 1)).toNat = d + 1 := by
    rw [UInt8.toNat_ofNat']
    exact Nat.mod_eq_of_lt (by omega)
  constructor
  · intro heq
    have hzero := hval.symm.trans (congrArg UInt8.toNat heq)
    exact absurd hzero (Nat.succ_ne_zero d)
  · intro heq
    have htop : d + 1 = 255 := hval.symm.trans (congrArg UInt8.toNat heq)
    omega

/-- A digit that is written is below 253, and one that is not is the unused byte. -/
theorem ite_ofNat_succ_ne (c : Prop) [Decidable c] {d : ℕ} (hd : d < max1) :
    (if c then UInt8.ofNat (d + 1) else 254) ≠ 0 ∧
      (if c then UInt8.ofNat (d + 1) else 254) ≠ 255 := by
  split_ifs
  · exact ofNat_succ_ne hd
  · decide

theorem mem_eNumber_ne {n : ℕ} (hn : n < 253 ^ 4) {b : UInt8} (hb : b ∈ eNumber n) :
    b ≠ 0 ∧ b ≠ 255 := by
  have h0 : n % max1 < max1 := Nat.mod_lt _ (by decide)
  have h1 : n % max2 / max1 < max1 := by unfold max1 max2; omega
  have h2 : n % max3 / max2 < max1 := by unfold max1 max2 max3; omega
  have h3 : n / max3 < max1 := by unfold max1 max3; omega
  rw [eNumber_eq] at hb
  simp only [List.mem_cons, List.not_mem_nil, or_false] at hb
  rcases hb with rfl | rfl | rfl | rfl
  · exact ofNat_succ_ne h0
  · exact ite_ofNat_succ_ne _ h1
  · exact ite_ofNat_succ_ne _ h2
  · exact ite_ofNat_succ_ne _ h3

/-- The bytes that a small number does not need are the unused ones already. -/
theorem numberOfFirst_eNumber {n k : ℕ} (hk : 1 ≤ k) (hn : n < 253 ^ k) :
    numberOfFirst k (eNumber n) = numberOfFirst 4 (eNumber n) := by
  have hbyte : ∀ i < 4, ¬i < k → byteAt (eNumber n) i = 254 := by
    intro i hi hik
    have hpow : n < 253 ^ i := hn.trans_le (Nat.pow_le_pow_right (by decide) (by omega))
    rcases (by omega : i = 1 ∨ i = 2 ∨ i = 3) with rfl | rfl | rfl
    · exact eNumber_getD_of_lt_max1 hpow
    · exact eNumber_getD_of_lt_max2 hpow
    · exact eNumber_getD_of_lt_max3 hpow
  have hsame : ∀ i < 4, (if i < k then byteAt (eNumber n) i else 254) = byteAt (eNumber n) i := by
    intro i hi
    split_ifs with hik
    · rfl
    · exact (hbyte i hi hik).symm
  unfold numberOfFirst
  simp only [hsame 0 (by decide), hsame 1 (by decide), hsame 2 (by decide), hsame 3 (by decide)]
  rfl

/-- Every number below `253 ^ 4` is read back exactly, and whatever four bytes `Number` is given,
its sum fits into 32 bits. -/
theorem numberExact_of_lt (n : UInt32) (hn : n.toNat < 253 ^ 4) :
    NumberExact n ∧
      ∀ b1 b2 b3 b4, (numberWord b1 b2 b3 b4).toNat = number b1 b2 b3 b4 := by
  have hround : numberOfFirst 4 (eNumber n.toNat) = n := by
    apply UInt32.toNat_inj.mp
    exact (toNat_numberWord _ _ _ _).trans (number_eNumber hn)
  refine ⟨⟨?_, ?_, ?_⟩, toNat_numberWord⟩
  · rw [eNumberWord_eq]
    exact hround
  · intro b hb
    rw [eNumberWord_eq] at hb
    exact mem_eNumber_ne hn hb
  · intro k hk _ hnk
    rw [eNumberWord_eq, numberOfFirst_eNumber hk hnk]
    exact hround

/-- The largest number that four bytes can hold. -/
theorem numberExact_max : NumberExact 4097152080 ∧
    ∀ b1 b2 b3 b4, (numberWord b1 b2 b3 b4).toNat = number b1 b2 b3 b4 :=
  numberExact_of_lt 4097152080 (by decide)

end ArenaServ.PacketProcessor
