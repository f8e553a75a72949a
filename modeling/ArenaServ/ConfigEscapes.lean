import ArenaServ.ConfigFiles

/-!
# The escapes in a configured value

`Config::Read` replaces escapes inside the value, from one backslash to the next. What it has
produced is behind the position it goes on from, so that the value is read once from left to right.
-/

namespace ArenaServ

namespace Util

/-- `std::string::find` of a character. -/
def findFrom (c : Char) (s : List Char) (pos : ℕ) : Option ℕ :=
  ((s.drop pos).findIdx? (· == c)).map (pos + ·)

/-- `std::string::replace`. -/
def replace (s : List Char) (pos len : ℕ) (t : List Char) : List Char :=
  s.take pos ++ t ++ s.drop (pos + len)

theorem findFrom_eq_none {c : Char} {s : List Char} (hs : c ∉ s) (done : List Char) :
    findFrom c (done ++ s) done.length = none := by
  have hidx : s.findIdx? (· == c) = none := by
    rw [List.findIdx?_eq_none_iff]
    intro d hd
    rw [beq_eq_false_iff_ne]
    rintro rfl
    exact hs hd
  rw [findFrom, List.drop_left, hidx, Option.map_none]

theorem findFrom_eq_some {c : Char} {s : List Char} (hs : c ∉ s) (done rest : List Char) :
    findFrom c (done ++ (s ++ c :: rest)) done.length = some (done ++ s).length := by
  have hidx : (s ++ c :: rest).findIdx? (· == c) = some s.length := by
    induction s with
    | nil => simp [List.findIdx?_cons]
    | cons d s ih =>
        obtain ⟨hd, hs⟩ := not_or.mp (mt List.mem_cons.mpr hs)
        rw [List.cons_append, List.findIdx?_cons, beq_eq_false_iff_ne.mpr (Ne.symm hd), ih hs]
        rfl
  rw [findFrom, List.drop_left, hidx, Option.map_some, List.length_append]

/-- A character that is found is behind the position the search began at. -/
theorem lt_of_findFrom {c : Char} {s : List Char} {pos i : ℕ} (h : findFrom c s pos = some i) :
    pos ≤ i ∧ i < s.length := by
  obtain ⟨k, hk, rfl⟩ := Option.map_eq_some_iff.mp h
  obtain ⟨hlt, -⟩ := List.findIdx?_eq_some_iff_getElem.mp hk
  rw [List.length_drop] at hlt
  omega

theorem replace_append (s t u v : List Char) :
    replace (s ++ (t ++ v)) s.length t.length u = s ++ u ++ v := by
  rw [replace, List.take_left, ← List.append_assoc, ← List.length_append, List.drop_left]

end Util

namespace Config

/-! ## The loop -/

/-- The body of the loop, for a backslash at `loc`. -/
def unescapeAt (val : List Char) (loc : ℕ) : List Char :=
  (escaped (val.getD (loc + 1) '\x00')).elim val fun c => Util.replace val loc 2 [c]

theorem getD_behind (done rest : List Char) :
    (done ++ '\\' :: rest).getD (done.length + 1) '\x00' = rest.getD 0 '\x00' := by
  rw [List.getD_eq_getElem?_getD, List.getD_eq_getElem?_getD,
    List.getElem?_append_right (Nat.le_add_right _ _), Nat.add_sub_cancel_left,
    List.getElem?_cons_succ]

theorem unescapeAt_of_escaped {c d : Char} (hc : escaped c = some d) (done rest : List Char) :
    unescapeAt (done ++ '\\' :: c :: rest) done.length = done ++ d :: rest := by
  rw [unescapeAt, getD_behind, List.getD_cons_zero, hc, Option.elim_some]
  exact (Util.replace_append done ['\\', c] [d] rest).trans (by simp)

theorem unescapeAt_of_not_escaped {val : List Char} {loc : ℕ}
    (h : escaped (val.getD (loc + 1) '\x00') = none) : unescapeAt val loc = val := by
  rw [unescapeAt, h, Option.elim_none]

theorem length_unescapeAt_le (val : List Char) (loc : ℕ) :
    (unescapeAt val loc).length ≤ val.length := by
  cases hc : escaped (val.getD (loc + 1) '\x00') with
  | none => rw [unescapeAt_of_not_escaped hc]
  | some c =>
      have hloc : loc + 1 < val.length := by
        by_contra hend
        rw [List.getD_eq_getElem?_getD, List.getElem?_eq_none (Nat.le_of_not_lt hend)] at hc
        cases hc
      simp only [unescapeAt, hc, Option.elim_some, Util.replace, List.length_append,
        List.length_take, List.length_drop, List.length_singleton]
      omega

/-- The loop, from what the last search has found. -/
def unescapeFrom (val : List Char) : Option ℕ → List Char
  | none => val
  | some loc =>
      if loc ≠ val.length then
        unescapeFrom (unescapeAt val loc) (Util.findFrom '\\' (unescapeAt val loc) (loc + 1))
      else val
termination_by loc => loc.elim 0 fun loc => val.length - loc + 1
decreasing_by
  cases hfind : Util.findFrom '\\' (unescapeAt val loc) (loc + 1) with
  | none => exact Nat.succ_pos _
  | some next =>
      have hlt := Util.lt_of_findFrom hfind
      have hle := length_unescapeAt_le val loc
      simp only [Option.elim_some]
      omega

def unescapeLoop (val : List Char) : List Char := unescapeFrom val (Util.findFrom '\\' val 0)

/-- How a character is written in a file. -/
def escapeChar (c : Char) : List Char :=
  if c = '\t' then ['\\', 't']
  else if c = '\r' then ['\\', 'r']
  else if c = '\n' then ['\\', 'n']
  else if c = '\\' then ['\\', '\\']
  else [c]

def escape (text : List Char) : List Char := text.flatMap escapeChar

/-! ## One pass -/

theorem unescape_cons_of_ne {c : Char} (hc : c ≠ '\\') (rest : List Char) :
    unescape (c :: rest) = c :: unescape rest := by
  cases rest with
  | nil => rfl
  | cons d rest => rw [unescape, if_neg hc]

theorem unescape_append {s : List Char} (hs : '\\' ∉ s) (rest : List Char) :
    unescape (s ++ rest) = s ++ unescape rest := by
  induction s with
  | nil => rfl
  | cons c s ih =>
      obtain ⟨hc, hs⟩ := not_or.mp (mt List.mem_cons.mpr hs)
      rw [List.cons_append, unescape_cons_of_ne (Ne.symm hc), ih hs, List.cons_append]

theorem unescape_of_not_mem {s : List Char} (hs : '\\' ∉ s) : unescape s = s := by
  simpa [unescape] using unescape_append hs []

theorem unescape_escaped {c d : Char} (hc : escaped c = some d) (rest : List Char) :
    unescape ('\\' :: c :: rest) = d :: unescape rest := by
  rw [unescape, if_pos rfl, hc]

theorem unescape_not_escaped {c : Char} (hc : escaped c = none) (rest : List Char) :
    unescape ('\\' :: c :: rest) = '\\' :: unescape (c :: rest) := by
  rw [unescape, if_pos rfl, hc]

/-- One round of the loop, at the first backslash behind what is done. -/
theorem unescapeFrom_backslash (done rest : List Char) :
    unescapeFrom (done ++ '\\' :: rest) (some done.length) =
      unescapeFrom (unescapeAt (done ++ '\\' :: rest) done.length)
        (Util.findFrom '\\' (unescapeAt (done ++ '\\' :: rest) done.length)
          (done.length + 1)) := by
  rw [unescapeFrom, if_pos (by simp)]

/-- Up to the next backslash the loop leaves the value alone, and what it has produced there it
does not read again. -/
theorem unescapeFrom_append (done rest : List Char) :
    unescapeFrom (done ++ rest) (Util.findFrom '\\' (done ++ rest) done.length) =
      done ++ unescape rest := by
  induction hn : rest.length using Nat.strong_induction_on generalizing done rest with
  | _ n ih =>
      by_cases hmem : '\\' ∈ rest
      · obtain ⟨s, t, rfl, hs⟩ := List.eq_append_cons_of_mem hmem
        -- what the loop goes on with, behind the character it has left or produced
        have hnext : ∀ d u, u.length < n →
            unescapeFrom ((done ++ s) ++ d :: u)
              (Util.findFrom '\\' ((done ++ s) ++ d :: u) ((done ++ s).length + 1)) =
            done ++ (s ++ d :: unescape u) := by
          intro d u hu
          have hrest := ih u.length hu (done ++ s ++ [d]) u rfl
          simpa [Nat.add_assoc] using hrest
        rw [List.length_append, List.length_cons] at hn
        rw [Util.findFrom_eq_some hs, unescape_append hs, ← List.append_assoc,
          unescapeFrom_backslash]
        cases t with
        | nil =>
            rw [unescapeAt_of_not_escaped (by rw [getD_behind]; rfl)]
            exact hnext '\\' [] (by omega)
        | cons c t =>
            rw [List.length_cons] at hn
            cases hc : escaped c with
            | some d =>
                rw [unescapeAt_of_escaped hc, unescape_escaped hc]
                exact hnext d t (by omega)
            | none =>
                rw [unescapeAt_of_not_escaped (by rwa [getD_behind]),
                  unescape_not_escaped hc]
                exact hnext '\\' (c :: t) (by rw [List.length_cons]; omega)
      · rw [Util.findFrom_eq_none hmem, unescapeFrom, unescape_of_not_mem hmem]

theorem unescapeLoop_eq (val : List Char) : unescapeLoop val = unescape val :=
  unescapeFrom_append [] val

/-! ## What escaping has done -/

theorem unescape_escapeChar (c : Char) (rest : List Char) :
    unescape (escapeChar c ++ rest) = c :: unescape rest := by
  unfold escapeChar
  split_ifs with ht hr hn hb
  · rw [ht]
    exact unescape_escaped rfl rest
  · rw [hr]
    exact unescape_escaped rfl rest
  · rw [hn]
    exact unescape_escaped rfl rest
  · rw [hb]
    exact unescape_escaped rfl rest
  · exact unescape_cons_of_ne hb rest

theorem unescape_escape (text : List Char) : unescape (escape text) = text := by
  induction text with
  | nil => rfl
  | cons c text ih => rw [escape, List.flatMap_cons, unescape_escapeChar, ← escape, ih]

/-- For every value the loop ends with what one pass over it gives, so that it gives back every
text that has been escaped. -/
theorem unescapeLoop_spec :
    (∀ val, unescapeLoop val = unescape val) ∧ ∀ text, unescapeLoop (escape text) = text :=
  ⟨unescapeLoop_eq, fun text => (unescapeLoop_eq _).trans (unescape_escape text)⟩

end Config

end ArenaServ
