import ArenaServ.PacketNumber
import Mathlib.Data.Nat.Digits.Defs

/-!
# Serial numbers of hard disks

The serial number that a client sends is a text of decimal digits of any length. It is read from
its end, and each digit is multiplied by a power of ten that has wrapped around like the sum. What
is left of the number is what 32 bits can hold of it.
-/

namespace ArenaServ.Util

/-- The digits in front of `i` are left. A byte of 128 or more is a negative `char` in the source,
and no digit there either. -/
def toUintLoop (subject : Bytes) : (i : ℕ) → i ≤ subject.length → (multiplier result : UInt32) →
    Except String UInt32
  | 0, _, _, result => .ok result
  | i + 1, h, multiplier, result =>
      let c := subject.get ⟨i, h⟩
      if c < 48 ∨ 57 < c then .error "Non-numeric argument"
      else
        toUintLoop subject i (Nat.le_of_succ_le h) (multiplier * 10)
          (result + (c.toUInt32 - 48) * multiplier)

def toUintRaw (subject : Bytes) : Except String UInt32 :=
  toUintLoop subject subject.length (Nat.le_refl _) 1 0

/-- The number of a hard disk, which is an `int`. -/
def readHdid (subject : Bytes) : Except String Int32 := (toUintRaw subject).map UInt32.toInt32

def isDigit (c : UInt8) : Bool := 48 ≤ c && c ≤ 57

/-- The value of a text of digits. -/
def decimal (subject : Bytes) : ℕ := subject.foldl (fun n c => 10 * n + (c.toNat - 48)) 0

/-- A number as a text of digits. -/
def serialText (n : ℕ) : Bytes :=
  if n = 0 then [48] else (Nat.digits 10 n).reverse.map fun d => UInt8.ofNat (48 + d)

/-! ## One digit -/

theorem isDigit_iff {c : UInt8} : isDigit c = true ↔ 48 ≤ c.toNat ∧ c.toNat ≤ 57 := by
  unfold isDigit
  rw [Bool.and_eq_true, decide_eq_true_iff, decide_eq_true_iff, UInt8.le_iff_toNat_le,
    UInt8.le_iff_toNat_le]
  rfl

theorem isDigit_eq_false_iff {c : UInt8} : isDigit c = false ↔ c < 48 ∨ 57 < c := by
  rw [← Bool.not_eq_true, isDigit_iff, UInt8.lt_iff_toNat_lt, UInt8.lt_iff_toNat_lt]
  change _ ↔ c.toNat < 48 ∨ 57 < c.toNat
  omega

theorem toUInt32_sub {c : UInt8} (hc : isDigit c = true) :
    c.toUInt32 - 48 = UInt32.ofNat (c.toNat - 48) := by
  have hle := (isDigit_iff.mp hc).1
  have hlt := c.toNat_lt
  apply UInt32.toNat_inj.mp
  rw [UInt32.toNat_sub_of_le, UInt32.toNat_ofNat', UInt8.toNat_toUInt32]
  · change c.toNat - 48 = _
    omega
  · rw [UInt32.le_iff_toNat_le, UInt8.toNat_toUInt32]
    exact hle

theorem decimal_append (subject : Bytes) (c : UInt8) :
    decimal (subject ++ [c]) = 10 * decimal subject + (c.toNat - 48) := by
  unfold decimal
  rw [List.foldl_append]
  rfl

/-- The digit that is read is added to what is multiplied by ten from here on. -/
theorem add_digit_mul (multiplier result : UInt32) (value digit : ℕ) :
    result + UInt32.ofNat digit * multiplier + multiplier * 10 * UInt32.ofNat value =
      result + multiplier * UInt32.ofNat (10 * value + digit) := by
  have hten : UInt32.ofNat 10 = 10 := rfl
  rw [UInt32.ofNat_add, UInt32.ofNat_mul, hten, UInt32.mul_add, UInt32.mul_comm _ multiplier,
    UInt32.mul_assoc, UInt32.add_assoc, UInt32.add_comm (multiplier * UInt32.ofNat digit)]

/-! ## The loop -/

/-- The loop ends with the value of the digits that are left, or at the last of the bytes that are
left which is no digit. -/
theorem toUintLoop_eq (subject : Bytes) (i : ℕ) (h : i ≤ subject.length)
    (multiplier result : UInt32) : toUintLoop subject i h multiplier result =
      if (subject.take i).all isDigit then
        .ok (result + multiplier * UInt32.ofNat (decimal (subject.take i)))
      else .error "Non-numeric argument" := by
  induction i generalizing multiplier result with
  | zero =>
      have hzero : UInt32.ofNat (decimal []) = 0 := rfl
      rw [toUintLoop, List.take_zero, List.all_nil, if_pos rfl, hzero, UInt32.mul_zero,
        UInt32.add_zero]
  | succ i ih =>
      have hlast : subject.take (i + 1) = subject.take i ++ [subject.get ⟨i, h⟩] :=
        List.take_succ_eq_append_getElem h
      have hall : (subject.take (i + 1)).all isDigit =
          ((subject.take i).all isDigit && isDigit (subject.get ⟨i, h⟩)) := by
        rw [hlast, List.all_append, List.all_cons, List.all_nil, Bool.and_true]
      rw [toUintLoop, hall]
      cases hc : isDigit (subject.get ⟨i, h⟩) with
      | false => rw [if_pos (isDigit_eq_false_iff.mp hc), Bool.and_false, if_neg Bool.false_ne_true]
      | true =>
          have hnot : ¬(subject.get ⟨i, h⟩ < 48 ∨ 57 < subject.get ⟨i, h⟩) := by
            intro hout
            rw [isDigit_eq_false_iff.mpr hout] at hc
            cases hc
          rw [if_neg hnot, Bool.and_true, ih, toUInt32_sub hc, add_digit_mul, hlast, decimal_append]

theorem toUintRaw_eq (subject : Bytes) : toUintRaw subject =
    if subject.all isDigit then .ok (UInt32.ofNat (decimal subject))
    else .error "Non-numeric argument" := by
  unfold toUintRaw
  rw [toUintLoop_eq, List.take_length, UInt32.one_mul, UInt32.zero_add]

theorem toUintRaw_of_digits {subject : Bytes} (h : ∀ c ∈ subject, isDigit c = true) :
    toUintRaw subject = .ok (UInt32.ofNat (decimal subject)) := by
  rw [toUintRaw_eq, if_pos (List.all_eq_true.mpr h)]

theorem throws_iff (subject : Bytes) :
    (∃ e, toUintRaw subject = .error e) ↔ ∃ c ∈ subject, isDigit c = false := by
  rw [toUintRaw_eq]
  by_cases h : subject.all isDigit = true
  · rw [if_pos h]
    constructor
    · rintro ⟨e, he⟩
      cases he
    · rintro ⟨c, hc, hnot⟩
      rw [List.all_eq_true.mp h c hc] at hnot
      cases hnot
  · rw [if_neg h]
    rw [Bool.not_eq_true, List.all_eq_false] at h
    obtain ⟨c, hc, hnot⟩ := h
    exact iff_of_true ⟨_, rfl⟩ ⟨c, hc, (Bool.not_eq_true _).mp hnot⟩

/-- What an account request is ignored for is that its serial number cannot be read. -/
theorem any_out_of_range_iff (subject : Bytes) :
    (subject.any fun c => c < 48 || 57 < c) = true ↔ ∃ e, toUintRaw subject = .error e := by
  rw [throws_iff, List.any_eq_true]
  constructor
  · rintro ⟨c, hc, hout⟩
    rw [Bool.or_eq_true, decide_eq_true_iff, decide_eq_true_iff] at hout
    exact ⟨c, hc, isDigit_eq_false_iff.mpr hout⟩
  · rintro ⟨c, hc, hnot⟩
    refine ⟨c, hc, ?_⟩
    rw [Bool.or_eq_true, decide_eq_true_iff, decide_eq_true_iff]
    exact isDigit_eq_false_iff.mp hnot

/-! ## Serial numbers -/

theorem toNat_digit {d : ℕ} (hd : d < 10) : (UInt8.ofNat (48 + d)).toNat = 48 + d := by
  rw [UInt8.toNat_ofNat']
  omega

theorem isDigit_of_mem_serialText {n : ℕ} {c : UInt8} (hc : c ∈ serialText n) :
    isDigit c = true := by
  unfold serialText at hc
  split at hc
  · rw [List.mem_singleton.mp hc]
    rfl
  · obtain ⟨d, hd, rfl⟩ := List.mem_map.mp hc
    have hlt := Nat.digits_lt_base (by omega) (List.mem_reverse.mp hd)
    rw [isDigit_iff, toNat_digit hlt]
    omega

/-- The digits of a number in reverse order. -/
theorem decimal_map_reverse {digits : List ℕ} (h : ∀ d ∈ digits, d < 10) :
    decimal (digits.reverse.map fun d => UInt8.ofNat (48 + d)) = Nat.ofDigits 10 digits := by
  induction digits with
  | nil => rfl
  | cons d digits ih =>
      have hd := toNat_digit (h d List.mem_cons_self)
      rw [List.reverse_cons, List.map_append, List.map_singleton, decimal_append, hd,
        ih fun d hd => h d (List.mem_cons_of_mem _ hd), Nat.ofDigits_cons]
      omega

theorem decimal_serialText (n : ℕ) : decimal (serialText n) = n := by
  unfold serialText
  split
  · rename_i hn
    rw [hn]
    rfl
  · rw [decimal_map_reverse fun d hd => Nat.digits_lt_base (by omega) hd, Nat.ofDigits_digits]

theorem toUintRaw_serialText (n : ℕ) : toUintRaw (serialText n) = .ok (UInt32.ofNat n) := by
  rw [toUintRaw_of_digits fun _ => isDigit_of_mem_serialText, decimal_serialText]

/-- A text of digits is read modulo `2 ^ 32`, so that the low 32 bits of a serial number are left,
and any other text is refused. -/
theorem toUintRaw_spec (subject : Bytes) :
    ((∀ c ∈ subject, isDigit c = true) →
      ∃ n, toUintRaw subject = .ok n ∧ n.toNat = decimal subject % 2 ^ 32) ∧
    (∀ serial : ℕ, subject = serialText serial →
      ∃ n, toUintRaw subject = .ok n ∧ n.toNat = serial % 2 ^ 32) ∧
    ((∃ e, toUintRaw subject = .error e) ↔ ∃ c ∈ subject, isDigit c = false) := by
  refine ⟨?_, ?_, throws_iff subject⟩
  · intro hdigits
    exact ⟨_, toUintRaw_of_digits hdigits, UInt32.toNat_ofNat'⟩
  · rintro serial rfl
    exact ⟨_, toUintRaw_serialText serial, UInt32.toNat_ofNat'⟩

/-- Two hard disks are told apart by the low 32 bits of their serial numbers. -/
theorem readHdid_eq_iff (m n : ℕ) :
    readHdid (serialText m) = readHdid (serialText n) ↔ m % 2 ^ 32 = n % 2 ^ 32 := by
  unfold readHdid
  rw [toUintRaw_serialText, toUintRaw_serialText, ← UInt32.toNat_ofNat', ← UInt32.toNat_ofNat']
  constructor
  · intro h
    have hcast := Except.ok.inj h
    rw [← UInt32.toUInt32_toInt32 (UInt32.ofNat m), hcast, UInt32.toUInt32_toInt32]
  · intro h
    rw [UInt32.toNat_inj.mp h]

/-- The largest number that is less than `2 ^ 32` is kept, and the next one becomes 0. -/
example : toUintRaw (serialText 4294967295) = .ok 4294967295 ∧
    toUintRaw (serialText 4294967296) = .ok 0 :=
  ⟨toUintRaw_serialText _, toUintRaw_serialText _⟩

end ArenaServ.Util
