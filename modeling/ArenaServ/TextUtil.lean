import Mathlib.Data.Rat.Defs
import Mathlib.Data.String.Basic
import Mathlib.Tactic.Ring
import Mathlib.Tactic.NormNum

/-!
# Text

Numbers as text and back, and texts cut at a delimiter. A byte of a text is the character
with its code.
-/

namespace ArenaServ.Util

/-- The pieces of a text between the delimiters. -/
def explode (delimiter : Char) : List Char → List (List Char)
  | [] => [[]]
  | c :: rest =>
      if c = delimiter then [] :: explode delimiter rest
      else
        match explode delimiter rest with
        | [] => [[c]]
        | piece :: pieces => (c :: piece) :: pieces

/-- The texts before and after the first delimiter. -/
def cutFirst (delimiter : Char) : List Char → Option (List Char × List Char)
  | [] => none
  | c :: rest =>
      if c = delimiter then some ([], rest)
      else (cutFirst delimiter rest).map fun (before, after) => (c :: before, after)

/-- The variables of the loop of `tdparse`. Its numbers are exact here. -/
structure TimeParse where
  ret : ℚ
  val : ℚ
  decimal : Bool
  decimalmulti : ℚ
  negate : Bool

def TimeParse.start : TimeParse := ⟨0, 0, false, 1 / 10, false⟩

def period : Char → Option ℚ
  | 's' => some 1
  | 'm' => some 60
  | '%' => some 100
  | 'k' => some 1000
  | 'h' => some 3600
  | 'd' => some 86400
  | _ => none

/-- A period ends the number before it. -/
def TimeParse.endPeriod (t : TimeParse) (amount : ℚ) : TimeParse :=
  { t with ret := t.ret + amount, val := 0, decimal := false, decimalmulti := 1 / 10 }

def digit (c : Char) : ℕ := c.toNat - '0'.toNat

def TimeParse.readChar (t : TimeParse) (c : Char) : TimeParse :=
  if c.isDigit then
    if t.decimal then
      { t with
        val := t.val + digit c * t.decimalmulti
        decimalmulti := t.decimalmulti / 10 }
    else { t with val := t.val * 10 + digit c }
  else if c = '.' then { t with decimal := true, decimalmulti := 1 / 10 }
  else t

def TimeParse.loop : TimeParse → List Char → TimeParse
  | t, [] => t
  | t, c :: rest =>
      if c = '-' then loop { t with negate := true } rest
      else
        match period c.toLower with
        | none => loop (t.readChar c.toLower) rest
        | some mul =>
            match rest with
            | 's' :: rest' =>
                if c.toLower = 'm' then loop (t.endPeriod (t.val / 1000)) rest'
                else if c.toLower = '%' then loop (t.endPeriod (t.val / mul)) ('s' :: rest')
                else loop (t.endPeriod (t.val * mul)) ('s' :: rest')
            | rest =>
                if c.toLower = '%' then loop (t.endPeriod (t.val / mul)) rest
                else loop (t.endPeriod (t.val * mul)) rest
  termination_by structural _ l => l

def tdparse (timestr : List Char) : ℚ :=
  let t := TimeParse.start.loop timestr
  (t.ret + t.val) * if t.negate then -1 else 1

/-- A number cast to an integer loses its fraction. -/
def toInt (subject : List Char) : Int32 :=
  Int32.ofInt ((tdparse subject).num.tdiv (tdparse subject).den)

def lowercase (subject : String) : String := subject.toLower

/-- `to_string` of a short. -/
def toText (n : Int16) : String := toString n.toInt

/-- `to_string` of an int. -/
def intText (n : Int32) : List Char := (toString n.toInt).toList

/-! ## Cutting -/

variable {d : Char}

theorem explode_append {piece : List Char} (h : d ∉ piece) (rest : List Char) :
    explode d (piece ++ d :: rest) = piece :: explode d rest := by
  induction piece with
  | nil => rw [List.nil_append, explode, if_pos rfl]
  | cons c piece ih =>
      rw [List.mem_cons, not_or] at h
      rw [List.cons_append, explode, if_neg (Ne.symm h.1), ih h.2]

theorem notMem_of_mem_explode {text piece : List Char} (h : piece ∈ explode d text) :
    d ∉ piece := by
  induction text generalizing piece with
  | nil =>
      rw [List.mem_singleton.mp h]
      exact List.not_mem_nil
  | cons c rest ih =>
      rw [explode] at h
      split_ifs at h with hc
      · rcases List.mem_cons.mp h with rfl | h
        · exact List.not_mem_nil
        · exact ih h
      · cases hrest : explode d rest with
        | nil =>
            rw [hrest, List.mem_singleton] at h
            rw [h, List.mem_singleton]
            exact Ne.symm hc
        | cons first pieces =>
            rw [hrest] at h ih
            rcases List.mem_cons.mp h with rfl | h
            · have hfirst : d ∉ first := ih List.mem_cons_self
              rw [List.mem_cons, not_or]
              exact ⟨Ne.symm hc, hfirst⟩
            · exact ih (List.mem_cons_of_mem _ h)

theorem cutFirst_append {before : List Char} (h : d ∉ before) (after : List Char) :
    cutFirst d (before ++ d :: after) = some (before, after) := by
  induction before with
  | nil => rw [List.nil_append, cutFirst, if_pos rfl]
  | cons c before ih =>
      rw [List.mem_cons, not_or] at h
      rw [List.cons_append, cutFirst, if_neg (Ne.symm h.1), ih h.2]
      rfl

theorem eq_append_of_cutFirst {text before after : List Char}
    (h : cutFirst d text = some (before, after)) : text = before ++ d :: after := by
  induction text generalizing before with
  | nil => cases h
  | cons c rest ih =>
      rw [cutFirst] at h
      split_ifs at h with hc
      · cases h
        rw [hc, List.nil_append]
      · obtain ⟨⟨before', after'⟩, hrest, hcut⟩ := Option.map_eq_some_iff.mp h
        cases hcut
        rw [ih hrest, List.cons_append]

theorem notMem_of_cutFirst {e : Char} {text before after : List Char}
    (h : cutFirst d text = some (before, after)) (he : e ∉ text) : e ∉ after := by
  rw [eq_append_of_cutFirst h, List.mem_append, List.mem_cons, not_or, not_or] at he
  exact he.2.2

/-! ## Numbers -/

theorem toList_toString (n : ℤ) :
    (toString n).toList =
      if 0 ≤ n then Nat.toDigits 10 n.toNat else '-' :: Nat.toDigits 10 (-n).toNat := by
  rw [Int.toString_eq_repr, Int.repr_eq_if]
  split_ifs
  · exact Nat.toList_repr
  · rw [String.toList_append, Nat.toList_repr]
    rfl

theorem toList_toText (n : Int16) :
    (toText n).toList =
      if 0 ≤ n.toInt then Nat.toDigits 10 n.toInt.toNat
      else '-' :: Nat.toDigits 10 (-n.toInt).toNat :=
  toList_toString n.toInt

theorem isDigit_of_mem_toDigits {n : ℕ} {c : Char} (h : c ∈ Nat.toDigits 10 n) :
    c.isDigit = true :=
  Nat.isDigit_of_mem_toDigits (by omega) (by omega) h

theorem mem_toString {n : ℤ} {c : Char} (h : c ∈ (toString n).toList) :
    c = '-' ∨ c.isDigit = true := by
  rw [toList_toString] at h
  split_ifs at h with hn
  · exact Or.inr (isDigit_of_mem_toDigits h)
  · rcases List.mem_cons.mp h with rfl | h
    · exact Or.inl rfl
    · exact Or.inr (isDigit_of_mem_toDigits h)

theorem mem_toText {n : Int16} {c : Char} (h : c ∈ (toText n).toList) :
    c = '-' ∨ c.isDigit = true :=
  mem_toString h

/-- No delimiter stands in a number. -/
theorem notMem_intText (n : Int32) {d : Char} (hminus : d ≠ '-') (hdigit : d.isDigit = false) :
    d ∉ intText n := by
  intro h
  rcases mem_toString h with h | h
  · exact hminus h
  · rw [hdigit] at h
    cases h

theorem period_of_isDigit {c : Char} (h : c.isDigit = true) :
    c ≠ '-' ∧ c.toLower = c ∧ period c = none := by
  rw [Char.isDigit_iff_toNat] at h
  have hne (k : Char) (hk : k.toNat < 48 ∨ 57 < k.toNat) : c ≠ k := by
    rintro rfl
    exact hk.elim (fun hk => absurd h.1 (by simpa using hk)) fun hk =>
      absurd h.2 (by simpa using hk)
  refine ⟨hne '-' (by decide), ?_, ?_⟩
  · unfold Char.toLower
    rw [dif_neg]
    rintro ⟨hle, -⟩
    have hlow : 65 ≤ c.toNat := UInt32.le_iff_toNat_le.mp hle
    have hhigh : c.toNat ≤ 57 := h.2
    omega
  · unfold period
    split
    all_goals first | rfl | exact absurd rfl (hne _ (by decide))

theorem toLower_toLower (c : Char) : c.toLower.toLower = c.toLower := by
  by_cases h : c.val ≥ 'A'.val ∧ c.val ≤ 'Z'.val
  · have hval : c.toLower.val.toNat = c.val.toNat + 32 := by
      have hlow : 65 ≤ c.val.toNat := UInt32.le_iff_toNat_le.mp h.1
      have hhigh : c.val.toNat ≤ 90 := UInt32.le_iff_toNat_le.mp h.2
      rw [show c.toLower.val = c.val + 32 from congrArg Char.val (dif_pos h), UInt32.toNat_add]
      change (c.val.toNat + 32) % 2 ^ 32 = _
      omega
    have hlow : ¬(c.toLower.val ≥ 'A'.val ∧ c.toLower.val ≤ 'Z'.val) := by
      rintro ⟨-, hle⟩
      have hhigh : c.toLower.val.toNat ≤ 90 := UInt32.le_iff_toNat_le.mp hle
      have hc : 65 ≤ c.val.toNat := UInt32.le_iff_toNat_le.mp h.1
      omega
    rw [Char.toLower.eq_def c.toLower, dif_neg hlow]
  · rw [show c.toLower = c from dif_neg h, show c.toLower = c from dif_neg h]

theorem lowercase_lowercase (s : String) : lowercase (lowercase s) = lowercase s := by
  unfold lowercase String.toLower
  rw [← String.toList_inj]
  simp [toLower_toLower]

theorem TimeParse.loop_digits {digits : List Char} (h : ∀ c ∈ digits, c.isDigit = true)
    (t : TimeParse) (ht : t.decimal = false) (n : ℕ) (hn : t.val = n) :
    t.loop digits = { t with val := Nat.ofDigitChars 10 digits n } := by
  induction digits generalizing t n with
  | nil =>
      rw [loop, Nat.ofDigitChars_nil, ← hn]
  | cons c rest ih =>
      have hc : c.isDigit = true := h c List.mem_cons_self
      obtain ⟨hminus, hlower, hperiod⟩ := period_of_isDigit hc
      have hread : t.readChar c = { t with val := (10 * n + digit c : ℕ) } := by
        rw [readChar, if_pos hc, ht, hn]
        simp
        ring
      rw [loop, if_neg hminus, hlower, hperiod]
      dsimp only
      rw [hread]
      have hrest : ∀ c ∈ rest, c.isDigit = true := fun c hc => h c (List.mem_cons_of_mem _ hc)
      rw [Nat.ofDigitChars_cons]
      exact ih hrest { t with val := (10 * n + digit c : ℕ) } ht (10 * n + digit c) rfl

theorem tdparse_toString (n : ℤ) : tdparse (toString n).toList = n := by
  rw [toList_toString]
  unfold tdparse
  split_ifs with hn
  · rw [TimeParse.loop_digits (fun _ => isDigit_of_mem_toDigits) _ rfl 0 rfl]
    rw [Nat.ofDigitChars_ten_toDigits]
    have hcast : (n.toNat : ℚ) = n := by
      rw [← Int.cast_natCast, Int.toNat_of_nonneg hn]
    change (0 + (n.toNat : ℚ)) * 1 = n
    rw [zero_add, mul_one, hcast]
  · rw [TimeParse.loop, if_pos rfl,
      TimeParse.loop_digits (fun _ => isDigit_of_mem_toDigits) _ rfl 0 rfl]
    rw [Nat.ofDigitChars_ten_toDigits]
    have hcast : (((-n).toNat : ℤ) : ℚ) = -n := by
      rw [Int.toNat_of_nonneg (by omega)]
      push_cast
      rfl
    have hneg : -(((-n).toNat : ℕ) : ℚ) = n := by
      rw [← Int.cast_natCast, hcast, neg_neg]
    simpa [TimeParse.start] using hneg

theorem tdparse_toText (n : Int16) : tdparse (toText n).toList = n.toInt :=
  tdparse_toString n.toInt

/-- What is written as a short is read as that short. -/
theorem toInt_toText (n : Int16) : (toInt (toText n).toList).toInt16 = n := by
  rw [toInt, tdparse_toText, Rat.num_intCast, Rat.den_intCast, Nat.cast_one, Int.tdiv_one]
  simp

/-- What is written as an int is read as that int. -/
theorem toInt_intText (n : Int32) : toInt (intText n) = n := by
  rw [toInt, intText, tdparse_toString, Rat.num_intCast, Rat.den_intCast, Nat.cast_one,
    Int.tdiv_one, Int32.ofInt_toInt]

end ArenaServ.Util
