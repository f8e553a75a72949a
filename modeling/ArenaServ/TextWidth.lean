import Mathlib.Algebra.Order.Ring.Int
import Mathlib.Tactic.SplitIfs

/-!
# Texts and their width in pixels

`text_cap` cuts a text behind the last glyph that still fits. Where the next glyph is too wide for
the ellipsis as well, it goes back over the text and takes off the codes of its characters instead
of their widths.
-/

namespace ArenaServ.Util

/-- Pixels of the glyphs of the 256 characters. -/
def sizes : List ℤ := [
   3,  3,  3,  3,  3,  3,  3,  3,  3,  3,  3,  3,  3,  3,  3,  3,
   3,  3,  3,  3,  3,  3,  3,  3,  3,  3,  3,  3,  3,  3,  3,  3,
   3,  3,  5,  7,  6,  8,  6,  2,  3,  3,  4,  6,  3,  3,  3,  5,
   6,  6,  6,  6,  6,  6,  6,  6,  6,  6,  3,  3,  6,  6,  6,  6,
  11,  7,  7,  7,  8,  7,  6,  8,  8,  3,  5,  7,  6,  9,  8,  8,
   7,  8,  8,  7,  7,  8,  7, 11,  7,  7,  7,  3,  5,  3,  6,  6,
   3,  6,  6,  6,  6,  6,  3,  6,  6,  2,  2,  6,  2,  8,  6,  6,
   6,  6,  3,  5,  3,  6,  6,  8,  5,  5,  5,  4,  2,  4,  7,  3,
   0,  0,  0,  0,  0,  0,  0,  0,  0,  0,  0,  0,  0,  0,  0,  0,
   0,  0,  0,  0,  0,  0,  0,  0,  0,  0,  0,  0,  0,  0,  0,  0,
   3,  3,  6,  6,  6,  6,  2,  6,  3,  9,  4,  6,  6,  3,  8,  6,
   4,  6,  3,  3,  3,  6,  6,  3,  3,  3,  4,  6,  8,  8,  8,  6,
   7,  7,  7,  7,  7,  7, 10,  7,  7,  7,  7,  7,  3,  3,  3,  3,
   8,  8,  8,  8,  8,  8,  8,  6,  8,  8,  8,  8,  8,  7,  7,  6,
   6,  6,  6,  6,  6,  6, 10,  6,  6,  6,  6,  6,  2,  4,  4,  4,
   6,  6,  6,  6,  6,  6,  6,  6,  6,  6,  6,  6,  6,  5,  6,  5]

/-- `sizes[c & 0xFF]`. -/
def size (c : UInt8) : ℤ := sizes.getD c.toNat 0

def textWidth (string : List UInt8) : ℤ := string.foldl (fun length c => length + size c) 0

/-- The width of the widest word so far, and that of the word it is in. -/
def wordStep : ℤ × ℤ → UInt8 → ℤ × ℤ
  | (maxLength, length), c =>
      if c = 32 then (max maxLength length, 0) else (maxLength, length + size c)

def textMaxWordWidth (string : List UInt8) : ℤ :=
  let (maxLength, length) := string.foldl wordStep (0, 0)
  max maxLength length

/-- The value of a `char`. -/
def charValue (c : UInt8) : ℤ := c.toInt8.toInt

/-- The inner loop of `text_cap`. -/
def backUp (string : List UInt8) (limit : ℤ) : ℤ → ℕ → ℕ
  | _, 0 => 0
  | length, i + 1 =>
      if limit < length then backUp string limit (length - charValue (string.getD (i + 1) 0)) i
      else i + 1

/-- The outer loop of `text_cap`. -/
def capFrom (string : List UInt8) (width : ℤ) (elipses : List UInt8) (length : ℤ) (i : ℕ) :
    List UInt8 :=
  if i < string.length then
    let length := length + size (string.getD i 0)
    if width < length then
      string.take (backUp string (width + textWidth elipses) length i)
    else capFrom string width elipses length (i + 1)
  else string
termination_by string.length - i

def textCap (string : List UInt8) (width : ℤ) (elipses : List UInt8) : List UInt8 :=
  capFrom string width elipses 0 0

/-- No longer piece from the start of the text fits. -/
def IsLongestFit (string : List UInt8) (width : ℤ) (result : List UInt8) : Prop :=
  (result <+: string ∧ textWidth result ≤ width) ∧
    ∀ t, t <+: string → textWidth t ≤ width → t.length ≤ result.length

/-- A text that fits is kept, and any other is cut as late as possible. -/
def CapsRight (string : List UInt8) (width : ℤ) (elipses : List UInt8) : Prop :=
  (textWidth string ≤ width → textCap string width elipses = string) ∧
    (width < textWidth string → IsLongestFit string width (textCap string width elipses))

/-- Character `i` is the first one whose glyph does not fit. -/
structure Overflows (string : List UInt8) (width : ℤ) (i : ℕ) : Prop where
  lt : i < string.length
  fits : textWidth (string.take i) ≤ width
  beyond : width < textWidth (string.take (i + 1))

/-- The glyph that does not fit is the first one of all, or as wide as the ellipsis at most beyond
the limit. -/
def CutsAtOnce (string : List UInt8) (width : ℤ) (elipses : List UInt8) : Prop :=
  ∀ i, Overflows string width i →
    i = 0 ∨ textWidth (string.take (i + 1)) ≤ width + textWidth elipses

/-! ## Widths -/

set_option maxRecDepth 4000 in
theorem sizes_bounds : ∀ n ∈ sizes, 0 ≤ n ∧ n ≤ 11 := by decide

theorem size_bounds (c : UInt8) : 0 ≤ size c ∧ size c ≤ 11 := by
  rw [size, List.getD_eq_getElem?_getD]
  cases hget : sizes[c.toNat]? with
  | none => decide
  | some n => exact sizes_bounds n (List.mem_of_getElem? hget)

theorem size_nonneg (c : UInt8) : 0 ≤ size c := (size_bounds c).1

theorem size_le (c : UInt8) : size c ≤ 11 := (size_bounds c).2

theorem foldl_size (string : List UInt8) (length : ℤ) :
    string.foldl (fun length c => length + size c) length = length + textWidth string := by
  induction string generalizing length with
  | nil => exact (Int.add_zero length).symm
  | cons c string ih =>
      rw [List.foldl_cons, ih, textWidth, textWidth, List.foldl_cons, ih (0 + size c), ← textWidth]
      omega

@[simp] theorem textWidth_nil : textWidth [] = 0 := rfl

@[simp] theorem textWidth_cons (c : UInt8) (string : List UInt8) :
    textWidth (c :: string) = size c + textWidth string := by
  rw [textWidth, List.foldl_cons, foldl_size, Int.zero_add]

theorem textWidth_append (s t : List UInt8) : textWidth (s ++ t) = textWidth s + textWidth t := by
  rw [textWidth, List.foldl_append, foldl_size, ← textWidth]

theorem textWidth_nonneg (string : List UInt8) : 0 ≤ textWidth string := by
  induction string with
  | nil => exact Int.le_refl 0
  | cons c string ih =>
      rw [textWidth_cons]
      exact Int.add_nonneg (size_nonneg c) ih

theorem textWidth_take_succ {string : List UInt8} {i : ℕ} (hi : i < string.length) :
    textWidth (string.take (i + 1)) = textWidth (string.take i) + size (string.getD i 0) := by
  rw [List.take_add_one, List.getElem?_eq_getElem hi, textWidth_append, List.getD_eq_getElem?_getD,
    List.getElem?_eq_getElem hi]
  simp

theorem textWidth_le_of_isPrefix {s t : List UInt8} (h : s <+: t) : textWidth s ≤ textWidth t := by
  obtain ⟨u, rfl⟩ := h
  rw [textWidth_append]
  have hu := textWidth_nonneg u
  omega

theorem textWidth_take_mono (string : List UInt8) {i j : ℕ} (h : i ≤ j) :
    textWidth (string.take i) ≤ textWidth (string.take j) :=
  textWidth_le_of_isPrefix (List.take_prefix_take_left h)

/-! ## Where a text is cut -/

variable {string elipses : List UInt8} {width : ℤ} {i k : ℕ}

theorem exists_overflows (hwidth : 0 ≤ width) (h : width < textWidth string) :
    ∃ k, Overflows string width k := by
  have hreach : ∀ n, n ≤ string.length → width < textWidth (string.take n) →
      ∃ k, Overflows string width k := by
    intro n
    induction n with
    | zero =>
        intro _ hover
        rw [List.take_zero, textWidth_nil] at hover
        omega
    | succ n ih =>
        intro hn hover
        by_cases hfits : textWidth (string.take n) ≤ width
        · exact ⟨n, hn, hfits, hover⟩
        · exact ih (by omega) (by omega)
  exact hreach string.length (Nat.le_refl _) (by rwa [List.take_length])

theorem Overflows.unique (hi : Overflows string width i) (hk : Overflows string width k) :
    i = k := by
  rcases lt_trichotomy i k with hlt | heq | hgt
  · have hle := textWidth_take_mono string (Nat.succ_le_of_lt hlt)
    exact absurd hi.beyond (Int.not_lt.mpr (Int.le_trans hle hk.fits))
  · exact heq
  · have hle := textWidth_take_mono string (Nat.succ_le_of_lt hgt)
    exact absurd hk.beyond (Int.not_lt.mpr (Int.le_trans hle hi.fits))

theorem not_overflows (h : textWidth string ≤ width) : ¬ Overflows string width k := by
  intro hk
  exact absurd hk.beyond
    (Int.not_lt.mpr (Int.le_trans (textWidth_le_of_isPrefix (List.take_prefix _ _)) h))

/-- What fits is no longer than the text before the overflow. -/
theorem Overflows.length_le (hk : Overflows string width k) {t : List UInt8} (ht : t <+: string)
    (hwidth : textWidth t ≤ width) : t.length ≤ k := by
  by_contra hlong
  rw [List.prefix_iff_eq_take.mp ht] at hwidth
  have hle := textWidth_take_mono string (Nat.lt_of_not_le hlong)
  exact absurd hk.beyond (Int.not_lt.mpr (Int.le_trans hle hwidth))

theorem Overflows.isLongestFit_take_iff (hk : Overflows string width k) (hi : i ≤ k) :
    IsLongestFit string width (string.take i) ↔ i = k := by
  have hlt := hk.lt
  constructor
  · rintro ⟨-, hlongest⟩
    have hle := hlongest _ (List.take_prefix k string) hk.fits
    rw [List.length_take, List.length_take] at hle
    omega
  · rintro rfl
    refine ⟨⟨List.take_prefix _ _, hk.fits⟩, fun t ht hwidth => ?_⟩
    rw [List.length_take, Nat.min_eq_left (Nat.le_of_lt hlt)]
    exact hk.length_le ht hwidth

/-! ## The loops -/

theorem capFrom_of_fits (h : textWidth string ≤ width) (hi : i ≤ string.length) :
    capFrom string width elipses (textWidth (string.take i)) i = string := by
  induction hn : string.length - i generalizing i with
  | zero => rw [capFrom, if_neg (by omega)]
  | succ n ih =>
      have hlt : i < string.length := by omega
      have hfits := textWidth_le_of_isPrefix (List.take_prefix (i + 1) string)
      rw [capFrom, if_pos hlt]
      dsimp only
      rw [← textWidth_take_succ hlt, if_neg (by omega)]
      exact ih (by omega) (by omega)

theorem capFrom_of_overflows (hk : Overflows string width k) (hi : i ≤ k) :
    capFrom string width elipses (textWidth (string.take i)) i =
      string.take
        (backUp string (width + textWidth elipses) (textWidth (string.take (k + 1))) k) := by
  have hlt := hk.lt
  induction hn : k - i generalizing i with
  | zero =>
      obtain rfl : i = k := by omega
      rw [capFrom, if_pos hlt]
      dsimp only
      rw [← textWidth_take_succ hlt, if_pos hk.beyond]
  | succ n ih =>
      have hfits := textWidth_take_mono string (by omega : i + 1 ≤ k)
      have hwidth := hk.fits
      rw [capFrom, if_pos (by omega)]
      dsimp only
      rw [← textWidth_take_succ (by omega), if_neg (by omega)]
      exact ih (by omega) (by omega)

theorem backUp_le (string : List UInt8) (limit length : ℤ) (i : ℕ) :
    backUp string limit length i ≤ i := by
  induction i generalizing length with
  | zero => exact Nat.le_refl 0
  | succ i ih =>
      rw [backUp]
      split_ifs
      · exact Nat.le_succ_of_le (ih _)
      · exact Nat.le_refl _

/-- The inner loop keeps its place only where it does nothing. -/
theorem backUp_eq_self_iff (limit length : ℤ) (i : ℕ) :
    backUp string limit length i = i ↔ i = 0 ∨ length ≤ limit := by
  cases i with
  | zero => exact ⟨fun _ => Or.inl rfl, fun _ => rfl⟩
  | succ i =>
      rw [backUp]
      split_ifs with hover
      · have hle := backUp_le string limit
          (length - charValue (string.getD (i + 1) 0)) i
        constructor
        · intro hself
          omega
        · rintro (hzero | hle')
          · cases hzero
          · exact absurd hover (Int.not_lt.mpr hle')
      · exact ⟨fun _ => Or.inr (Int.not_lt.mp hover), fun _ => rfl⟩

/-- `text_cap` gives what fits exactly where it does not go back. -/
theorem capsRight_iff_cutsAtOnce (string elipses : List UInt8) (width : ℕ) :
    CapsRight string width elipses ↔ CutsAtOnce string width elipses := by
  by_cases hfits : textWidth string ≤ width
  · constructor
    · intro _ i hi
      exact absurd hi (not_overflows hfits)
    · intro _
      refine ⟨fun _ => capFrom_of_fits hfits (Nat.zero_le _), fun hover => ?_⟩
      exact absurd hfits (Int.not_le.mpr hover)
  · obtain ⟨k, hk⟩ := exists_overflows (Int.natCast_nonneg width) (Int.not_le.mp hfits)
    have hcap : textCap string width elipses = _ := capFrom_of_overflows hk (Nat.zero_le k)
    have hright : CapsRight string width elipses ↔
        IsLongestFit string width (textCap string width elipses) :=
      ⟨fun h => h.2 (Int.not_le.mp hfits), fun h => ⟨fun hle => absurd hle hfits, fun _ => h⟩⟩
    rw [hright, hcap, hk.isLongestFit_take_iff (backUp_le _ _ _ _), backUp_eq_self_iff]
    constructor
    · intro h i hi
      obtain rfl := hi.unique hk
      exact h
    · exact fun h => h k hk

/-- Glyphs that are not wider than the ellipsis are cut as they should be. -/
theorem capsRight_of_narrow (string elipses : List UInt8) (width : ℕ)
    (h : ∀ c ∈ string, size c ≤ textWidth elipses) : CapsRight string width elipses := by
  rw [capsRight_iff_cutsAtOnce]
  intro i hi
  have hlt := hi.lt
  have hfits := hi.fits
  have hglyph := h _ (List.getElem_mem hlt)
  rw [textWidth_take_succ hlt, List.getD_eq_getElem?_getD, List.getElem?_eq_getElem hlt]
  exact Or.inr (Int.add_le_add hfits hglyph)

/-- Two glyphs of 11 pixels where one has room: the other is cut off together with it. -/
theorem not_capsRight_wide :
    ¬ ∀ (string elipses : List UInt8) (width : ℕ), CapsRight string width elipses := by
  intro h
  have hover : Overflows [64, 64] 11 1 := ⟨by decide, by decide, by decide⟩
  have hcap : textCap [64, 64] 11 [46, 46, 46] = [] := capFrom_of_overflows hover (Nat.zero_le 1)
  have hlongest := (h [64, 64] [46, 46, 46] 11).2 (by decide)
  have hle := hlongest.2 [64] (by decide) (by decide)
  change 1 ≤ (textCap [64, 64] 11 [46, 46, 46]).length at hle
  rw [hcap] at hle
  exact absurd hle (by decide)

end ArenaServ.Util
