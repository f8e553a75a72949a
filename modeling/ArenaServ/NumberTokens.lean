import ArenaServ.QuestLexing

/-!
# Numbers that are too large for an `int`

`ReadNumber` sets a number that has no room for one more digit to the greatest `int` before it
multiplies it by ten. What it reads is the value of the digits as long as that is an `int`; one
digit later the arithmetic overflows.
-/

namespace ArenaServ.EOPlus.Lexer

/-- The number before one more digit is appended. -/
def saturated (number : Int32) : Int32 :=
  if number > Int32.maxValue / 10 then Int32.maxValue else number

/-- The results of the multiplication and of the addition, as they would be in a wider type. -/
def intermediates (number : Int32) (c : Char) : List ℤ :=
  [(saturated number).toInt * 10,
    (saturated number * 10).toInt + ((c.toNat : ℤ) - ('0'.toNat : ℤ))]

def FitsInt (z : ℤ) : Prop := -2 ^ 31 ≤ z ∧ z < 2 ^ 31

instance (z : ℤ) : Decidable (FitsInt z) := inferInstanceAs (Decidable (_ ∧ _))

/-- No intermediate value of the loop leaves the range of `int`. -/
def StaysInt : Int32 → List Char → Prop
  | _, [] => True
  | number, c :: rest =>
      (∀ z ∈ intermediates number c, FitsInt z) ∧ StaysInt (pushDigit number c) rest

def firstDigit (c : Char) : Int32 := Int32.ofNat (c.toNat - '0'.toNat)

def decimalValue (digits : List Char) : ℕ := Nat.ofDigitChars 10 digits 0

/-- The digits `c :: digits` in front of `text` are consumed, and give their value or the greatest
`int`. -/
def ReadsDecimal (s : Lexer) (c : Char) (digits text : List Char) : Prop :=
  s.readNumber.1 = .integer (Int32.ofNat (min (decimalValue (c :: digits)) (2 ^ 31 - 1))) ∧
    s.readNumber.2.is = text ∧ StaysInt (firstDigit c) digits

/-! ## One more digit -/

theorem digit_lt {c : Char} (h : ctypeDigit c = true) : c.toNat - '0'.toNat < 10 := by
  have h0 : '0'.toNat = 48 := rfl
  have hlow : '0'.val.toNat = 48 := rfl
  have hhigh : '9'.val.toNat = 57 := rfl
  unfold ctypeDigit Char.isDigit at h
  simp only [Bool.and_eq_true, decide_eq_true_eq, ge_iff_le, UInt32.le_iff_toNat_le] at h
  change c.val.toNat - '0'.toNat < 10
  omega

theorem digit_cast {c : Char} (h : ctypeDigit c = true) :
    (c.toNat : ℤ) - ('0'.toNat : ℤ) = ((c.toNat - '0'.toNat : ℕ) : ℤ) := by
  have hlow : '0'.val.toNat = 48 := rfl
  unfold ctypeDigit Char.isDigit at h
  simp only [Bool.and_eq_true, decide_eq_true_eq, ge_iff_le, UInt32.le_iff_toNat_le] at h
  have hle : '0'.toNat ≤ c.toNat := by
    change '0'.val.toNat ≤ c.val.toNat
    omega
  omega

theorem le_ofDigitChars (digits : List Char) (n : ℕ) : n ≤ Nat.ofDigitChars 10 digits n := by
  rw [Nat.ofDigitChars_eq_ofDigitChars_zero]
  have hpos : 0 < 10 ^ digits.length := Nat.pow_pos (by omega)
  have hle : 1 * n ≤ 10 ^ digits.length * n := Nat.mul_le_mul_right n hpos
  omega

theorem maxValue_div_ten : (Int32.maxValue / 10).toInt = 214748364 := rfl

theorem saturated_ofNat {n : ℕ} (h : n < 2 ^ 31) :
    saturated (Int32.ofNat n) = if 214748364 < n then Int32.maxValue else Int32.ofNat n := by
  have hval : (Int32.ofNat n).toInt = n := Int32.toInt_ofNat_of_lt h
  have hiff : Int32.ofNat n > Int32.maxValue / 10 ↔ 214748364 < n := by
    rw [gt_iff_lt, Int32.lt_iff_toInt_lt, maxValue_div_ten, hval]
    omega
  unfold saturated
  rw [if_congr hiff rfl rfl]

/-- A number without room for a digit overflows, since it is multiplied at the limit. -/
theorem not_fitsInt_of_full {n : ℕ} (h : n < 2 ^ 31) (hfull : 214748364 < n) (c : Char) :
    ¬∀ z ∈ intermediates (Int32.ofNat n) c, FitsInt z := by
  intro hall
  have hmul := hall _ List.mem_cons_self
  rw [saturated_ofNat h, if_pos hfull] at hmul
  have hmax : Int32.maxValue.toInt = 2147483647 := rfl
  rw [hmax] at hmul
  unfold FitsInt at hmul
  omega

/-- A number with room for a digit overflows only where the new number is no `int`. -/
theorem fitsInt_iff_of_room {n : ℕ} (hroom : n ≤ 214748364) {c : Char}
    (hc : ctypeDigit c = true) :
    (∀ z ∈ intermediates (Int32.ofNat n) c, FitsInt z) ↔
      10 * n + (c.toNat - '0'.toNat) < 2 ^ 31 := by
  have hval : (Int32.ofNat n).toInt = n := Int32.toInt_ofNat_of_lt (by omega)
  have hten : (Int32.ofNat n * 10).toInt = (n * 10 : ℕ) := by
    rw [show (10 : Int32) = Int32.ofNat 10 from rfl, ← Int32.ofNat_mul]
    exact Int32.toInt_ofNat_of_lt (by omega)
  unfold intermediates
  rw [saturated_ofNat (by omega), if_neg (by omega), hval, hten, digit_cast hc,
    List.forall_mem_cons, List.forall_mem_singleton]
  unfold FitsInt
  omega

theorem pushDigit_of_room {n : ℕ} (hroom : n ≤ 214748364) (c : Char) :
    pushDigit (Int32.ofNat n) c = Int32.ofNat (10 * n + (c.toNat - '0'.toNat)) := by
  have hsat := saturated_ofNat (n := n) (by omega)
  rw [if_neg (by omega)] at hsat
  unfold saturated at hsat
  unfold pushDigit
  rw [hsat, show (10 : Int32) = Int32.ofNat 10 from rfl, ← Int32.ofNat_mul, ← Int32.ofNat_add,
    Nat.mul_comm n 10]

/-! ## The loop -/

theorem staysInt_iff {digits : List Char} (hdigits : ∀ c ∈ digits, ctypeDigit c = true) {n : ℕ}
    (h : n < 2 ^ 31) :
    StaysInt (Int32.ofNat n) digits ↔ Nat.ofDigitChars 10 digits n < 2 ^ 31 := by
  induction digits generalizing n with
  | nil =>
      rw [Nat.ofDigitChars_nil]
      exact iff_of_true trivial h
  | cons c digits ih =>
      obtain ⟨hc, hrest⟩ := List.forall_mem_cons.1 hdigits
      have hle := le_ofDigitChars digits (10 * n + (c.toNat - '0'.toNat))
      rw [StaysInt, Nat.ofDigitChars_cons]
      by_cases hfull : 214748364 < n
      · apply iff_of_false
        · exact fun hstays => not_fitsInt_of_full h hfull c hstays.1
        · omega
      · rw [fitsInt_iff_of_room (by omega) hc, pushDigit_of_room (by omega)]
        constructor
        · rintro ⟨hlt, hstays⟩
          exact (ih hrest hlt).1 hstays
        · intro hlt
          have hnext : 10 * n + (c.toNat - '0'.toNat) < 2 ^ 31 := by omega
          exact ⟨hnext, (ih hrest hnext).2 hlt⟩

theorem foldl_pushDigit_of_lt {digits : List Char} {n : ℕ}
    (h : Nat.ofDigitChars 10 digits n < 2 ^ 31) :
    digits.foldl pushDigit (Int32.ofNat n) = Int32.ofNat (Nat.ofDigitChars 10 digits n) := by
  induction digits generalizing n with
  | nil => rw [Nat.ofDigitChars_nil, List.foldl_nil]
  | cons c digits ih =>
      rw [Nat.ofDigitChars_cons] at h ⊢
      have hle := le_ofDigitChars digits (10 * n + (c.toNat - '0'.toNat))
      rw [List.foldl_cons, pushDigit_of_room (by omega), ih h]

theorem readWhile_append {f : Char → Bool} {piece text : List Char} {s : Lexer}
    (hs : s.is = piece ++ text) (hpiece : ∀ c ∈ piece, f c = true)
    (htext : ∀ c ∈ text.head?, f c = false) :
    (readWhile f (piece ++ text) s).1 = piece ∧
      (readWhile f (piece ++ text) s).2.is = text := by
  induction piece generalizing s with
  | nil =>
      rw [List.nil_append] at hs ⊢
      cases text with
      | nil => exact ⟨rfl, hs⟩
      | cons c rest =>
          rw [readWhile, htext c rfl]
          exact ⟨rfl, hs⟩
  | cons c piece ih =>
      obtain ⟨hc, hrest⟩ := List.forall_mem_cons.1 hpiece
      obtain ⟨hread, hleft⟩ := ih (is_getChar s c (piece ++ text)) hrest
      rw [List.cons_append, readWhile, if_pos hc]
      exact ⟨congrArg (c :: ·) hread, hleft⟩

theorem readNumber_digits {s : Lexer} {c : Char} {digits text : List Char}
    (his : s.is = c :: (digits ++ text)) (hdigits : ∀ d ∈ c :: digits, ctypeDigit d = true)
    (htext : ∀ d ∈ text.head?, ctypeDigit d = false) :
    s.readNumber.1 = .integer (digits.foldl pushDigit (firstDigit c)) ∧
      s.readNumber.2.is = text := by
  obtain ⟨hc, hrest⟩ := List.forall_mem_cons.1 hdigits
  have hnext := is_getChar s c (digits ++ text)
  obtain ⟨hread, hleft⟩ := readWhile_append hnext hrest htext
  unfold readNumber
  rw [his]
  dsimp only
  unfold getWhile
  rw [if_pos hc, hnext, hread]
  exact ⟨rfl, hleft⟩

/-- The digits are read as the claimed number exactly where their value is an `int`. -/
theorem readsDecimal_iff (s : Lexer) (c : Char) (digits text : List Char)
    (his : s.is = c :: (digits ++ text)) (hdigits : ∀ d ∈ c :: digits, ctypeDigit d = true)
    (htext : ∀ d ∈ text.head?, ctypeDigit d = false) :
    s.ReadsDecimal c digits text ↔ decimalValue (c :: digits) ≤ 2 ^ 31 - 1 := by
  obtain ⟨hc, hrest⟩ := List.forall_mem_cons.1 hdigits
  obtain ⟨hread, hleft⟩ := readNumber_digits his hdigits htext
  have hfirst : c.toNat - '0'.toNat < 2 ^ 31 := (digit_lt hc).trans (by omega)
  have hvalue : decimalValue (c :: digits) =
      Nat.ofDigitChars 10 digits (c.toNat - '0'.toNat) := by
    rw [decimalValue, Nat.ofDigitChars_cons, Nat.mul_zero, Nat.zero_add]
  have hstays := staysInt_iff hrest hfirst
  unfold ReadsDecimal
  rw [hread, hvalue]
  constructor
  · rintro ⟨-, -, h⟩
    have := hstays.1 h
    omega
  · intro h
    have hlt : Nat.ofDigitChars 10 digits (c.toNat - '0'.toNat) < 2 ^ 31 := by omega
    refine ⟨?_, hleft, hstays.2 hlt⟩
    rw [min_eq_left h, firstDigit, foldl_pushDigit_of_lt hlt]

theorem readsDecimal_iff_room :
    (start ['4', '2', ';']).ReadsDecimal '4' ['2'] [';'] ↔
      decimalValue ['4', '2'] ≤ 2 ^ 31 - 1 := by
  apply readsDecimal_iff
  · rfl
  · exact List.all_eq_true.1 rfl
  · rintro d ⟨⟩
    rfl

/-- Ten nines are read as minus one. -/
theorem not_readsDecimal_nines :
    (start "9999999999;".toList).readNumber.1 = .integer (-1) ∧
      ¬(start "9999999999;".toList).ReadsDecimal '9' "999999999".toList [';'] := by
  have hread : (start "9999999999;".toList).readNumber.1 = .integer (-1) := by decide +kernel
  refine ⟨hread, ?_⟩
  rintro ⟨hvalue, -, -⟩
  rw [hread] at hvalue
  revert hvalue
  decide

end ArenaServ.EOPlus.Lexer
