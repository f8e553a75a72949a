import ArenaServ.ByteLoop
import ArenaServ.TextWidth

/-!
# Breaking texts into lines

`text_word_wrap` puts a space in front of the glyph before the one that does not fit, and counts on
from the latter. A word is so cut one glyph before each place where it is full, and the glyph that
is taken along is not counted.
-/

namespace ArenaServ.Util
open ByteLoop

/-- `std::out_of_range` from `insert`, or the text. -/
inductive Wrapped where
  | outOfRange
  | text (result : List UInt8)
  deriving DecidableEq, Repr

/-- `result.insert(pos, " ")`. -/
def insertSpace (result : List UInt8) (pos : ℕ) : List UInt8 :=
  result.take pos ++ 32 :: result.drop pos

/-- The loop, with a bound on its rounds. At the first character there is no place before it. -/
def wrapFrom (width : ℤ) : ℕ → List UInt8 → ℤ → ℕ → Option Wrapped
  | 0, _, _, _ => none
  | fuel + 1, result, length, i =>
      if i < result.length then
        if result.getD i 0 = 32 then wrapFrom width fuel result 0 (i + 1)
        else if width < length + size (result.getD i 0) then
          if i = 0 then some .outOfRange
          else wrapFrom width fuel (insertSpace result (i - 1)) 0 (i + 1)
        else wrapFrom width fuel result (length + size (result.getD i 0)) (i + 1)
      else some (.text result)

def textWordWrap (string : List UInt8) (width : ℤ) (fuel : ℕ) : Option Wrapped :=
  wrapFrom width fuel string 0 0

/-- The second text is the first one with spaces put in. -/
inductive SpacesIn : List UInt8 → List UInt8 → Prop
  | nil : SpacesIn [] []
  | keep (c : UInt8) {s t : List UInt8} : SpacesIn s t → SpacesIn (c :: s) (c :: t)
  | space {s t : List UInt8} : SpacesIn s t → SpacesIn s (32 :: t)

/-- The loop comes to an end without an insertion out of range. -/
def Ends (string : List UInt8) (width : ℤ) : Prop :=
  ∃ result, Returns (textWordWrap string width) (.text result)

/-- The loop ends with the text in words that fit, which it does not change again. -/
def Wraps (string : List UInt8) (width : ℤ) : Prop :=
  ∃ result, Returns (textWordWrap string width) (.text result) ∧
    textMaxWordWidth result ≤ width ∧ SpacesIn string result ∧
    Returns (textWordWrap result width) (.text result)

/-- 11 is the width of the widest glyph. -/
structure WrapsRight (string : List UInt8) (width : ℤ) : Prop where
  wide : 11 ≤ width → Wraps string width
  narrow : 0 < width → width < 11 → Ends string width

/-! ## What a text has to be like -/

def words : List UInt8 → List (List UInt8)
  | [] => [[]]
  | c :: string => if c = 32 then [] :: words string else (words string).modifyHead (c :: ·)

/-- A word cut wherever the next glyph does not fit. -/
def chunksFrom (width : ℤ) (chunk : List UInt8) : List UInt8 → List (List UInt8)
  | [] => [chunk]
  | c :: word =>
      if textWidth chunk + size c ≤ width then chunksFrom width (chunk ++ [c]) word
      else chunk :: chunksFrom width [c] word

def lastGlyph (chunk : List UInt8) : List UInt8 := chunk.getLast?.toList

/-- Each chunk fits that has handed its last glyph on to the next and got the one of the chunk
before it instead. -/
def ShiftFits (width : ℤ) : ℤ → List (List UInt8) → Prop
  | _, [] => True
  | taken, [chunk] => taken + textWidth chunk ≤ width
  | taken, chunk :: next :: chunks =>
      taken + textWidth chunk.dropLast ≤ width ∧
        ShiftFits width (textWidth (lastGlyph chunk)) (next :: chunks)

def WordsFit (string : List UInt8) (width : ℤ) : Prop :=
  ∀ word ∈ words string, ShiftFits width 0 (chunksFrom width [] word)

def GlyphsFit (string : List UInt8) (width : ℤ) : Prop :=
  ∀ c ∈ string, c ≠ 32 → size c ≤ width

/-! ## The loop -/

variable {width : ℤ}

theorem steady_wrapFrom (result : List UInt8) (length : ℤ) (i : ℕ) :
    Steady fun fuel => wrapFrom width fuel result length i := by
  intro fuel
  induction fuel generalizing result length i with
  | zero =>
      intro r h
      cases h
  | succ fuel ih =>
      intro r h
      change wrapFrom width (fuel + 1) result length i = some r at h
      change wrapFrom width (fuel + 2) result length i = some r
      rw [wrapFrom] at h ⊢
      split_ifs at h ⊢ with hi hspace hover hzero
      · exact ih _ _ _ _ h
      · exact h
      · exact ih _ _ _ _ h
      · exact ih _ _ _ _ h
      · exact h

theorem returns_succ {result result' : List UInt8} {length length' : ℤ} {i i' : ℕ} {r : Wrapped}
    (hstep : ∀ fuel, wrapFrom width (fuel + 1) result length i =
      wrapFrom width fuel result' length' i')
    (h : Returns (fun fuel => wrapFrom width fuel result' length' i') r) :
    Returns (fun fuel => wrapFrom width fuel result length i) r := by
  obtain ⟨fuel, hfuel⟩ := h
  exact ⟨fuel + 1, (hstep fuel).trans hfuel⟩

section Step
variable (done rest : List UInt8) (length : ℤ) (fuel : ℕ)

theorem getD_next (c : UInt8) : (done ++ c :: rest).getD done.length 0 = c := by
  rw [List.getD_eq_getElem?_getD, List.getElem?_append_right (Nat.le_refl _), Nat.sub_self,
    List.getElem?_cons_zero, Option.getD_some]

theorem wrapFrom_space :
    wrapFrom width (fuel + 1) (done ++ 32 :: rest) length done.length =
      wrapFrom width fuel (done ++ 32 :: rest) 0 (done.length + 1) := by
  rw [wrapFrom, if_pos (by simp), getD_next, if_pos rfl]

theorem wrapFrom_fits {c : UInt8} (hc : c ≠ 32) (hfits : length + size c ≤ width) :
    wrapFrom width (fuel + 1) (done ++ c :: rest) length done.length =
      wrapFrom width fuel (done ++ c :: rest) (length + size c) (done.length + 1) := by
  rw [wrapFrom, if_pos (by simp), getD_next, if_neg hc, if_neg (Int.not_lt.mpr hfits)]

theorem wrapFrom_over {c : UInt8} (hc : c ≠ 32) (hover : width < length + size c)
    (hdone : done ≠ []) :
    wrapFrom width (fuel + 1) (done ++ c :: rest) length done.length =
      wrapFrom width fuel (done.dropLast ++ 32 :: (lastGlyph done ++ c :: rest)) 0
        (done.length + 1) := by
  have hpos := List.length_pos_iff.mpr hdone
  obtain hnil | ⟨init, p, rfl⟩ := List.eq_nil_or_concat done
  · exact absurd hnil hdone
  rw [wrapFrom, if_pos (by simp), getD_next, if_neg hc, if_pos hover, if_neg (by omega)]
  have hinsert : insertSpace (init.concat p ++ c :: rest) ((init.concat p).length - 1) =
      (init.concat p).dropLast ++ 32 :: (lastGlyph (init.concat p) ++ c :: rest) := by
    simp [insertSpace, lastGlyph]
  rw [hinsert]

theorem wrapFrom_outOfRange {c : UInt8} (hc : c ≠ 32) (hover : width < length + size c) :
    wrapFrom width (fuel + 1) (c :: rest) length 0 = some .outOfRange := by
  rw [wrapFrom, if_pos (by simp), List.getD_cons_zero, if_neg hc, if_pos hover, if_pos rfl]

theorem wrapFrom_end : wrapFrom width (fuel + 1) done length done.length = some (.text done) := by
  rw [wrapFrom, if_neg (Nat.lt_irrefl _)]

end Step

/-! ## What the loop makes of a text -/

/-- The text from the glyphs on that have been counted, when the loop has come to its end. -/
def wrapped (width : ℤ) (chunk : List UInt8) : List UInt8 → List UInt8
  | [] => chunk
  | c :: rest =>
      if c = 32 then chunk ++ 32 :: wrapped width [] rest
      else if textWidth chunk + size c ≤ width then wrapped width (chunk ++ [c]) rest
      else chunk.dropLast ++ 32 :: (lastGlyph chunk ++ wrapped width [c] rest)

theorem dropLast_append_lastGlyph (chunk : List UInt8) :
    chunk.dropLast ++ lastGlyph chunk = chunk := by
  obtain rfl | ⟨init, p, rfl⟩ := List.eq_nil_or_concat chunk
  · rfl
  · simp [lastGlyph]

theorem textWidth_singleton (c : UInt8) : textWidth [c] = size c := by simp

theorem dropLast_concat (s : List UInt8) (p : UInt8) : (s ++ [p]).dropLast = s := by simp

theorem lastGlyph_concat (s : List UInt8) (p : UInt8) : lastGlyph (s ++ [p]) = [p] := by
  simp [lastGlyph]

/-- Where every glyph fits on its own, the loop gets over each one in one round or two. -/
theorem returns_wrapFrom (done chunk rest : List UInt8) (hrest : GlyphsFit rest width) :
    Returns (fun fuel => wrapFrom width fuel (done ++ chunk ++ rest) (textWidth chunk)
      (done ++ chunk).length) (.text (done ++ wrapped width chunk rest)) := by
  induction rest generalizing done chunk with
  | nil =>
      rw [List.append_nil]
      exact ⟨1, wrapFrom_end _ _ _⟩
  | cons c rest ih =>
      have htail : GlyphsFit rest width := fun d hd => hrest d (List.mem_cons_of_mem c hd)
      rw [wrapped]
      split_ifs with hc hfits
      · subst hc
        refine returns_succ (wrapFrom_space _ _ _) ?_
        have hnext := ih (done ++ chunk ++ [32]) [] htail
        simpa [Nat.add_assoc] using hnext
      · refine returns_succ (fun fuel => wrapFrom_fits _ _ _ fuel hc hfits) ?_
        have hnext := ih done (chunk ++ [c]) htail
        rw [textWidth_append, textWidth_singleton] at hnext
        simpa [Nat.add_assoc] using hnext
      · have hglyph := hrest c List.mem_cons_self hc
        obtain rfl | ⟨init, p, rfl⟩ := List.eq_nil_or_concat chunk
        · rw [textWidth_nil, Int.zero_add] at hfits
          exact absurd hglyph hfits
        rw [List.concat_eq_append] at hfits ⊢
        rw [dropLast_concat, lastGlyph_concat]
        refine returns_succ
          (fun fuel => wrapFrom_over _ _ _ fuel hc (Int.not_le.mp hfits) (by simp)) ?_
        rw [← List.append_assoc done, dropLast_concat, lastGlyph_concat]
        -- the glyph that did not fit is read once more
        have hagain : ∀ fuel, wrapFrom width (fuel + 1) (done ++ init ++ [32, p] ++ c :: rest) 0
            (done ++ init ++ [32, p]).length = wrapFrom width fuel
              (done ++ init ++ [32, p] ++ c :: rest) (0 + size c)
              ((done ++ init ++ [32, p]).length + 1) := fun fuel =>
          wrapFrom_fits _ _ _ fuel hc (by rwa [Int.zero_add])
        have hnext := ih (done ++ init ++ [32, p]) [c] htail
        rw [textWidth_singleton] at hnext
        have hread := returns_succ hagain
          (r := .text (done ++ init ++ [32, p] ++ wrapped width [c] rest))
          (by simpa [Nat.add_assoc] using hnext)
        simpa [Nat.add_assoc] using hread

theorem returns_textWordWrap {string : List UInt8} (h : GlyphsFit string width) :
    Returns (textWordWrap string width) (.text (wrapped width [] string)) :=
  returns_wrapFrom [] [] string h

theorem glyphsFit_cons {c : UInt8} {rest : List UInt8} :
    GlyphsFit (c :: rest) width ↔ (c ≠ 32 → size c ≤ width) ∧ GlyphsFit rest width :=
  List.forall_mem_cons

/-- A glyph wider than the limit is never got over. -/
theorem wrapFrom_ne_text (done rest : List UInt8) (length : ℤ) (hlength : 0 ≤ length)
    (hrest : ¬ GlyphsFit rest width) (fuel : ℕ) (result : List UInt8) :
    wrapFrom width fuel (done ++ rest) length done.length ≠ some (.text result) := by
  induction fuel generalizing done rest length with
  | zero =>
      intro h
      cases h
  | succ fuel ih =>
      cases rest with
      | nil => exact absurd (fun d hd => absurd hd List.not_mem_nil) hrest
      | cons c rest =>
          rw [glyphsFit_cons] at hrest
          by_cases hc : c = 32
          · subst hc
            rw [wrapFrom_space]
            have hnext := ih (done ++ [32]) rest 0 (Int.le_refl 0)
              fun hfit => hrest ⟨fun hne => absurd rfl hne, hfit⟩
            simpa using hnext
          · by_cases hfits : length + size c ≤ width
            · rw [wrapFrom_fits _ _ _ _ hc hfits]
              have hsize := size_nonneg c
              have hnext := ih (done ++ [c]) rest (length + size c) (by omega)
                fun hfit => hrest ⟨fun _ => by omega, hfit⟩
              simpa using hnext
            · obtain rfl | ⟨init, p, rfl⟩ := List.eq_nil_or_concat done
              · rw [List.nil_append, List.length_nil, wrapFrom_outOfRange _ _ _ hc (by omega)]
                exact fun h => Wrapped.noConfusion (Option.some.inj h)
              · rw [List.concat_eq_append, wrapFrom_over _ _ _ _ hc (by omega) (by simp),
                  dropLast_concat, lastGlyph_concat]
                have hnext := ih (init ++ [32, p]) (c :: rest) 0 (Int.le_refl 0)
                  (mt glyphsFit_cons.mp hrest)
                simpa using hnext

theorem ends_iff (string : List UInt8) : Ends string width ↔ GlyphsFit string width := by
  constructor
  · rintro ⟨result, fuel, hfuel⟩
    by_contra hwide
    exact wrapFrom_ne_text [] string 0 (Int.le_refl 0) hwide fuel result hfuel
  · intro h
    exact ⟨_, returns_textWordWrap h⟩

/-! ## The spaces that are put in -/

theorem SpacesIn.refl (s : List UInt8) : SpacesIn s s := by
  induction s with
  | nil => exact .nil
  | cons c s ih => exact .keep c ih

theorem SpacesIn.append {s t : List UInt8} (h : SpacesIn s t) (done : List UInt8) :
    SpacesIn (done ++ s) (done ++ t) := by
  induction done with
  | nil => exact h
  | cons c done ih => exact .keep c ih

theorem spacesIn_wrapped (chunk rest : List UInt8) :
    SpacesIn (chunk ++ rest) (wrapped width chunk rest) := by
  induction rest generalizing chunk with
  | nil =>
      rw [List.append_nil]
      exact SpacesIn.refl chunk
  | cons c rest ih =>
      rw [wrapped]
      split_ifs with hc hfits
      · subst hc
        exact (SpacesIn.keep 32 (ih [])).append chunk
      · have hnext := ih (chunk ++ [c])
        rwa [List.append_assoc, List.singleton_append] at hnext
      · have hnext := (SpacesIn.space ((ih [c]).append (lastGlyph chunk))).append chunk.dropLast
        rwa [← List.append_assoc, dropLast_append_lastGlyph, List.singleton_append] at hnext

/-! ## The width of the words -/

/-- The width of the widest word, from what has been counted so far. -/
def widest (maxLength length : ℤ) (string : List UInt8) : ℤ :=
  max (string.foldl wordStep (maxLength, length)).1 (string.foldl wordStep (maxLength, length)).2

theorem textMaxWordWidth_eq (string : List UInt8) : textMaxWordWidth string = widest 0 0 string :=
  rfl

variable (maxLength length : ℤ)

theorem widest_space (rest : List UInt8) :
    widest maxLength length (32 :: rest) = widest (max maxLength length) 0 rest := rfl

theorem widest_cons {c : UInt8} (hc : c ≠ 32) (rest : List UInt8) :
    widest maxLength length (c :: rest) = widest maxLength (length + size c) rest := by
  rw [widest, List.foldl_cons, wordStep, if_neg hc, ← widest]

theorem widest_append {chunk : List UInt8} (hchunk : 32 ∉ chunk) (rest : List UInt8) :
    widest maxLength length (chunk ++ rest) =
      widest maxLength (length + textWidth chunk) rest := by
  induction chunk generalizing length with
  | nil => rw [List.nil_append, textWidth_nil, Int.add_zero]
  | cons c chunk ih =>
      obtain ⟨hc, hchunk⟩ := not_or.mp (mt List.mem_cons.mpr hchunk)
      rw [List.cons_append, widest_cons _ _ (Ne.symm hc), ih _ hchunk, textWidth_cons,
        Int.add_assoc]

theorem le_widest (string : List UInt8) :
    maxLength ≤ widest maxLength length string ∧ length ≤ widest maxLength length string := by
  induction string generalizing maxLength length with
  | nil => exact ⟨Int.le_max_left _ _, Int.le_max_right _ _⟩
  | cons c string ih =>
      by_cases hc : c = 32
      · subst hc
        rw [widest_space]
        have hmax := (ih (max maxLength length) 0).1
        exact ⟨Int.le_trans (Int.le_max_left _ _) hmax, Int.le_trans (Int.le_max_right _ _) hmax⟩
      · rw [widest_cons _ _ hc]
        have hnext := ih maxLength (length + size c)
        have hsize := size_nonneg c
        omega

/-- A text whose words all fit is left alone. -/
theorem wrapped_of_widest_le (chunk rest : List UInt8)
    (h : widest maxLength (textWidth chunk) rest ≤ width) :
    wrapped width chunk rest = chunk ++ rest := by
  induction rest generalizing maxLength chunk with
  | nil => rw [wrapped, List.append_nil]
  | cons c rest ih =>
      rw [wrapped]
      by_cases hc : c = 32
      · subst hc
        rw [widest_space] at h
        rw [if_pos rfl, ih _ [] h, List.nil_append]
      · rw [widest_cons _ _ hc] at h
        have hfits := (le_widest maxLength (textWidth chunk + size c) rest).2
        rw [if_neg hc, if_pos (by omega), ih maxLength (chunk ++ [c]) (by
          rwa [textWidth_append, textWidth_singleton]), List.append_assoc, List.singleton_append]

theorem chunksFrom_ne_nil (chunk word : List UInt8) : chunksFrom width chunk word ≠ [] := by
  induction word generalizing chunk with
  | nil => exact List.cons_ne_nil _ _
  | cons c word ih =>
      rw [chunksFrom]
      split_ifs
      · exact ih _
      · exact List.cons_ne_nil _ _

theorem shiftFits_cons {chunks : List (List UInt8)} (hchunks : chunks ≠ []) (taken : ℤ)
    (chunk : List UInt8) :
    ShiftFits width taken (chunk :: chunks) ↔ taken + textWidth chunk.dropLast ≤ width ∧
      ShiftFits width (textWidth (lastGlyph chunk)) chunks := by
  obtain ⟨next, chunks, rfl⟩ := List.exists_cons_of_ne_nil hchunks
  rfl

/-- The words of the result fit just where the chunks of the text do, the first of which has been
counted up to here. -/
theorem widest_wrapped_le_iff (width maxLength length : ℤ) (chunk : List UInt8)
    (hchunk : 32 ∉ chunk) (rest : List UInt8) :
    ∃ word rest', words rest = word :: rest' ∧
      (widest maxLength length (wrapped width chunk rest) ≤ width ↔
        maxLength ≤ width ∧ ShiftFits width length (chunksFrom width chunk word) ∧
          ∀ word ∈ rest', ShiftFits width 0 (chunksFrom width [] word)) := by
  induction rest generalizing maxLength length chunk with
  | nil =>
      refine ⟨[], [], rfl, ?_⟩
      have hend := widest_append maxLength length hchunk []
      rw [List.append_nil] at hend
      rw [wrapped, hend]
      simp [widest, chunksFrom, ShiftFits]
  | cons c rest ih =>
      by_cases hc : c = 32
      · subst hc
        obtain ⟨word, rest', hwords, hiff⟩ :=
          ih (max maxLength (length + textWidth chunk)) 0 [] List.not_mem_nil
        refine ⟨[], word :: rest', by rw [words, if_pos rfl, hwords], ?_⟩
        rw [wrapped, if_pos rfl, widest_append _ _ hchunk, widest_space, hiff, max_le_iff,
          List.forall_mem_cons, and_assoc]
        rfl
      · by_cases hfits : textWidth chunk + size c ≤ width
        · have hnext : 32 ∉ chunk ++ [c] := by
            simpa [hchunk] using Ne.symm hc
          obtain ⟨word, rest', hwords, hiff⟩ := ih maxLength length (chunk ++ [c]) hnext
          refine ⟨c :: word, rest', by rw [words, if_neg hc, hwords]; rfl, ?_⟩
          rw [wrapped, if_neg hc, if_pos hfits, hiff, chunksFrom, if_pos hfits]
        · obtain ⟨word, rest', hwords, hiff⟩ :=
            ih (max maxLength (length + textWidth chunk.dropLast)) (textWidth (lastGlyph chunk))
              [c] (by simpa using Ne.symm hc)
          have hinit : 32 ∉ chunk.dropLast :=
            fun h => hchunk ((List.dropLast_sublist chunk).subset h)
          have hlast : 32 ∉ lastGlyph chunk := by
            rw [← dropLast_append_lastGlyph chunk] at hchunk
            exact fun h => hchunk (List.mem_append_right _ h)
          refine ⟨c :: word, rest', by rw [words, if_neg hc, hwords]; rfl, ?_⟩
          rw [wrapped, if_neg hc, if_neg hfits, widest_append _ _ hinit, widest_space,
            widest_append _ _ hlast, Int.zero_add, hiff, max_le_iff, chunksFrom, if_neg hfits,
            shiftFits_cons (chunksFrom_ne_nil _ _)]
          simp only [and_assoc]

theorem textMaxWordWidth_wrapped_le_iff (hwidth : 0 ≤ width) (string : List UInt8) :
    textMaxWordWidth (wrapped width [] string) ≤ width ↔ WordsFit string width := by
  obtain ⟨word, rest, hwords, hiff⟩ :=
    widest_wrapped_le_iff width 0 0 [] List.not_mem_nil string
  rw [textMaxWordWidth_eq, hiff, WordsFit, hwords, List.forall_mem_cons]
  exact and_iff_right hwidth

/-! ## The whole function -/

theorem glyphsFit_of_le (h : 11 ≤ width) (string : List UInt8) : GlyphsFit string width :=
  fun c _ _ => Int.le_trans (size_le c) h

theorem wraps_iff (h : 11 ≤ width) (string : List UInt8) :
    Wraps string width ↔ WordsFit string width := by
  have hresult := returns_textWordWrap (glyphsFit_of_le h string)
  rw [← textMaxWordWidth_wrapped_le_iff (by omega)]
  constructor
  · rintro ⟨result, hreturns, hfits, -⟩
    have hsame := (steady_wrapFrom string 0 0).unique hresult hreturns
    rwa [Wrapped.text.inj hsame]
  · intro hfits
    refine ⟨_, hresult, hfits, spacesIn_wrapped [] string, ?_⟩
    have hagain := returns_textWordWrap (glyphsFit_of_le h (wrapped width [] string))
    rwa [wrapped_of_widest_le 0 [] _ hfits, List.nil_append] at hagain

/-- `text_word_wrap` keeps its promise for a wide line exactly where the words of the text fit after
the exchange of their glyphs, and for a narrow one exactly where every glyph fits on its own. -/
theorem wrapsRight_iff (string : List UInt8) (width : ℤ) :
    WrapsRight string width ↔ (11 ≤ width → WordsFit string width) ∧
      (0 < width → width < 11 → GlyphsFit string width) := by
  constructor
  · intro h
    exact ⟨fun hwide => (wraps_iff hwide string).mp (h.wide hwide),
      fun hpos hnarrow => (ends_iff string).mp (h.narrow hpos hnarrow)⟩
  · rintro ⟨hwide, hnarrow⟩
    exact ⟨fun h => (wraps_iff h string).mpr (hwide h),
      fun hpos hlt => (ends_iff string).mpr (hnarrow hpos hlt)⟩

/-- Three glyphs of 6 pixels in a line of 11: the last two are left together. -/
theorem not_wrapsRight_three : ¬ ∀ (string : List UInt8) (width : ℤ), WrapsRight string width := by
  intro h
  obtain ⟨result, hreturns, hfits, -⟩ := (h [97, 97, 97] 11).wide (Int.le_refl 11)
  have hresult : Returns (textWordWrap [97, 97, 97] 11) (.text [32, 97, 32, 97, 97]) :=
    ⟨9, by decide⟩
  have hsame := (steady_wrapFrom [97, 97, 97] 0 0).unique hresult hreturns
  rw [← Wrapped.text.inj hsame] at hfits
  exact absurd hfits (by decide)

end ArenaServ.Util
