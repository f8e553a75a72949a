import ArenaServ.ConfigFiles
import ArenaServ.Transaction
import Mathlib.Data.List.Induction
import Mathlib.Data.List.TakeWhile

/-!
# Files of SQL statements

`Database::ExecuteFile` reads a file in buffers of 4095 characters at most and gives up as soon as
the end of the file has been met, also where the buffer it was met with has something in it. What
stands on a last line without a line end is so left out, from its last full buffer on.
-/

namespace ArenaServ

/-- The text of a file, which a string can hold. -/
structure SqlScript where
  text : List Char
  noNul : '\x00' ∉ text

/-- What `fgets` puts into a buffer with room for so many characters, what it leaves in the file,
and whether it has met the end. -/
def fgets : ℕ → List Char → List Char × List Char × Bool
  | 0, rest => ([], rest, false)
  | _ + 1, [] => ([], [], true)
  | n + 1, c :: rest =>
      if c = '\n' then ([c], rest, false)
      else (c :: (fgets n rest).1, (fgets n rest).2)

theorem fgets_append (n : ℕ) (text : List Char) :
    (fgets n text).1 ++ (fgets n text).2.1 = text := by
  induction n generalizing text with
  | zero => rfl
  | succ n ih =>
      cases text with
      | nil => rfl
      | cons c rest =>
          rw [fgets]
          split_ifs
          · rfl
          · exact congrArg (c :: ·) (ih rest)

namespace Database

/-- The body of the loop over a buffer, on `queries` and `query`. -/
def scanChar : List (List Char) × List Char → Char → List (List Char) × List Char
  | (queries, query), c =>
      if c = ';' then (queries ++ [query], []) else (queries, query ++ [c])

theorem length_fgets_lt {text : List Char} (h : (fgets 4095 text).1 ≠ []) :
    (fgets 4095 text).2.1.length < text.length := by
  have hlength := congrArg List.length (fgets_append 4095 text)
  have hpos := List.length_pos_iff.mpr h
  rw [List.length_append] at hlength
  omega

/-- The loop over the file. An empty buffer is where `fgets` returns null. -/
def readQueries (text : List Char) (s : List (List Char) × List Char) :
    List (List Char) × List Char :=
  if (fgets 4095 text).1 = [] ∨ (fgets 4095 text).2.2 = true then s
  else readQueries (fgets 4095 text).2.1 ((Util.cString (fgets 4095 text).1).foldl scanChar s)
termination_by text.length
decreasing_by
  rename_i hread
  exact length_fgets_lt (not_or.mp hread).1

section Queries
variable {τ : Type*} (rawQuery : List Char → τ → Option τ)

/-- `ExecuteQueries`, and whether it has committed. A query that fails raises, and the destructor of
the context takes back what has been done. -/
def executeQueries (queries : List (List Char)) (s : Transactional τ) : Transactional τ × Bool :=
  if s.isOpen then (s, false)
  else
    (queries.foldlM (fun t query => rawQuery query t) s.openUp.current).elim
      (s.openUp.rollback, false)
      fun t => ((s.openUp.update fun _ => t).commit, true)

def executeFile (script : SqlScript) (s : Transactional τ) : Transactional τ × Bool :=
  let read := readQueries script.text ([], [])
  executeQueries rawQuery
    ((read.1 ++ [read.2]).filter fun query => (Util.trim query).length ≠ 0) s

end Queries

/-! ## What is to be executed -/

def isBlankText (text : List Char) : Bool := text.all Util.isBlank

/-- The pieces of a script between the separators that have a statement in them. -/
def statements (script : SqlScript) : List (List Char) :=
  (Util.explode ';' script.text).filter fun piece => !isBlankText piece

/-- Whatever the database makes of a query, the file does what the statements in it do. -/
def ExecutesStatements (script : SqlScript) : Prop :=
  ∀ (τ : Type) (rawQuery : List Char → τ → Option τ) (s : Transactional τ),
    executeFile rawQuery script s = executeQueries rawQuery (statements script) s

/-- The text behind the last delimiter. -/
def lastPiece (delimiter : Char) (text : List Char) : List Char :=
  (text.reverse.takeWhile (· ≠ delimiter)).reverse

/-- What of the last line is behind its last full buffer. -/
def dropped (text : List Char) : List Char :=
  (lastPiece '\n' text).drop ((lastPiece '\n' text).length / 4095 * 4095)

def kept (text : List Char) : List Char := text.take (text.length - (dropped text).length)

/-- There is no statement in what is dropped, and none that is cut by it. -/
structure DropsNothing (text : List Char) : Prop where
  blank : ∀ piece ∈ Util.explode ';' (dropped text), isBlankText piece
  whole : isBlankText (lastPiece ';' (kept text)) ∨ dropped text = [] ∨
    (dropped text).head? = some ';'

/-! ## Text behind a delimiter -/

section LastPiece
variable (d : Char)

theorem lastPiece_concat (text : List Char) (c : Char) :
    lastPiece d (text ++ [c]) = if c = d then [] else lastPiece d text ++ [c] := by
  unfold lastPiece
  rw [List.reverse_append, List.reverse_singleton, List.singleton_append, List.takeWhile_cons]
  by_cases hc : c = d
  · simp [hc]
  · simp [hc]

theorem lastPiece_of_not_mem {text : List Char} (h : d ∉ text) : lastPiece d text = text := by
  induction text using List.reverseRecOn with
  | nil => rfl
  | append_singleton text c ih =>
      rw [List.mem_append, List.mem_singleton, not_or] at h
      rw [lastPiece_concat, if_neg (Ne.symm h.2), ih h.1]

/-- What stands in front of a delimiter has no part in the piece behind the last one. -/
theorem lastPiece_append (s : List Char) {t : List Char} (h : d ∈ t) :
    lastPiece d (s ++ t) = lastPiece d t := by
  induction t using List.reverseRecOn with
  | nil => cases h
  | append_singleton t c ih =>
      rw [← List.append_assoc, lastPiece_concat, lastPiece_concat]
      split_ifs with hc
      · rfl
      · rw [List.mem_append, List.mem_singleton] at h
        rw [ih (h.resolve_right (Ne.symm hc))]

theorem lastPiece_append_cons (s t : List Char) : lastPiece d (s ++ d :: t) = lastPiece d t := by
  by_cases ht : d ∈ t
  · rw [← List.singleton_append, ← List.append_assoc, lastPiece_append d _ ht]
  · induction t using List.reverseRecOn with
    | nil => rw [lastPiece_concat, if_pos rfl]; rfl
    | append_singleton t c ih =>
        rw [List.mem_append, List.mem_singleton, not_or] at ht
        rw [← List.cons_append, ← List.append_assoc, lastPiece_concat, lastPiece_concat,
          if_neg (Ne.symm ht.2), if_neg (Ne.symm ht.2), ih ht.1]

theorem lastPiece_suffix (text : List Char) : lastPiece d text <:+ text := by
  have hprefix := List.takeWhile_prefix (fun c => decide (c ≠ d)) (l := text.reverse)
  have hsuffix := List.reverse_suffix.mpr hprefix
  rwa [List.reverse_reverse] at hsuffix

end LastPiece

/-! ## What is read -/

section Loop
variable {text a rest : List Char}

theorem dropped_append_of_mem (h : '\n' ∈ rest) : dropped (a ++ rest) = dropped rest := by
  rw [dropped, lastPiece_append _ a h, ← dropped]

theorem dropped_append_line : dropped (a ++ '\n' :: rest) = dropped rest := by
  rw [dropped, lastPiece_append_cons, ← dropped]

/-- A full buffer without a line end is not dropped. -/
theorem dropped_append_full (ha : '\n' ∉ a) (hlength : a.length = 4095) :
    dropped (a ++ rest) = dropped rest := by
  by_cases hrest : '\n' ∈ rest
  · exact dropped_append_of_mem hrest
  · have hboth : '\n' ∉ a ++ rest := by
      rw [List.mem_append, not_or]
      exact ⟨ha, hrest⟩
    have hfull : (4095 + rest.length) / 4095 * 4095 = 4095 + rest.length / 4095 * 4095 := by omega
    rw [dropped, dropped, lastPiece_of_not_mem _ hboth, lastPiece_of_not_mem _ hrest,
      List.length_append, hlength, hfull, ← hlength, List.drop_length_add_append]

theorem dropped_of_lt (htext : '\n' ∉ text) (hlength : text.length < 4095) :
    dropped text = text := by
  rw [dropped, lastPiece_of_not_mem _ htext, Nat.div_eq_of_lt hlength, Nat.zero_mul, List.drop_zero]

theorem dropped_suffix (text : List Char) : dropped text <:+ text :=
  (List.drop_suffix _ _).trans (lastPiece_suffix _ text)

theorem kept_append_dropped (text : List Char) : kept text ++ dropped text = text := by
  have hdrop := List.suffix_iff_eq_drop.mp (dropped_suffix text)
  calc
    kept text ++ dropped text =
        kept text ++ text.drop (text.length - (dropped text).length) := congrArg _ hdrop
    _ = text := List.take_append_drop _ text

theorem kept_append (h : dropped (a ++ rest) = dropped rest) :
    kept (a ++ rest) = a ++ kept rest := by
  have hle := (dropped_suffix rest).length_le
  rw [kept, kept, h, List.length_append, Nat.add_sub_assoc hle, List.take_length_add_append]

end Loop

/-- A read meets the end, stops behind a line end, or fills its buffer. -/
theorem fgets_cases (n : ℕ) (text : List Char) :
    ((fgets n text).2.2 = true ∧ '\n' ∉ text ∧ text.length < n) ∨
      (fgets n text).2.2 = false ∧ ((∃ line, (fgets n text).1 = line ++ ['\n']) ∨
        '\n' ∉ (fgets n text).1 ∧ (fgets n text).1.length = n) := by
  induction n generalizing text with
  | zero => exact Or.inr ⟨rfl, Or.inr ⟨List.not_mem_nil, rfl⟩⟩
  | succ n ih =>
      cases text with
      | nil => exact Or.inl ⟨rfl, List.not_mem_nil, Nat.succ_pos n⟩
      | cons c rest =>
          rw [fgets]
          split_ifs with hc
          · exact Or.inr ⟨rfl, Or.inl ⟨[], by rw [hc, List.nil_append]⟩⟩
          · have hcons : ∀ l : List Char, '\n' ∉ l → '\n' ∉ c :: l := fun l hl =>
              List.not_mem_cons_of_ne_of_not_mem (Ne.symm hc) hl
            rcases ih rest with ⟨heof, hrest, hlength⟩ | ⟨heof, ⟨line, hline⟩ | ⟨hbuf, hfull⟩⟩
            · exact Or.inl ⟨heof, hcons _ hrest, Nat.succ_lt_succ hlength⟩
            · exact Or.inr ⟨heof, Or.inl ⟨c :: line, congrArg (c :: ·) hline⟩⟩
            · exact Or.inr ⟨heof, Or.inr ⟨hcons _ hbuf, congrArg (· + 1) hfull⟩⟩

theorem cString_of_not_mem {text : List Char} (h : '\x00' ∉ text) : Util.cString text = text := by
  rw [Util.cString, List.takeWhile_eq_self_iff]
  intro c hc
  exact decide_eq_true fun heq => h (heq ▸ hc)

/-- The loop has seen the kept part of the file. -/
theorem readQueries_eq {text : List Char} (hnul : '\x00' ∉ text)
    (s : List (List Char) × List Char) : readQueries text s = (kept text).foldl scanChar s := by
  induction hn : text.length using Nat.strong_induction_on generalizing text s with
  | _ n ih =>
      have hsplit := fgets_append 4095 text
      rw [readQueries]
      rcases fgets_cases 4095 text with ⟨heof, hline, hlength⟩ | ⟨heof, hbuf⟩
      · rw [if_pos (Or.inr heof), kept, dropped_of_lt hline hlength, Nat.sub_self, List.take_zero,
          List.foldl_nil]
      · have hne : (fgets 4095 text).1 ≠ [] := by
          intro hnil
          rcases hbuf with ⟨line, hline⟩ | ⟨-, hfull⟩
          · simp [hnil] at hline
          · simp [hnil] at hfull
        have hdropped : dropped ((fgets 4095 text).1 ++ (fgets 4095 text).2.1) =
            dropped (fgets 4095 text).2.1 := by
          rcases hbuf with ⟨line, hline⟩ | ⟨hnot, hfull⟩
          · rw [hline, List.append_assoc, List.singleton_append, dropped_append_line]
          · exact dropped_append_full hnot hfull
        have hkept := kept_append hdropped
        rw [hsplit] at hkept
        have hboth : '\x00' ∉ (fgets 4095 text).1 ∧ '\x00' ∉ (fgets 4095 text).2.1 := by
          rwa [← not_or, ← List.mem_append, hsplit]
        rw [if_neg (by simp [hne, heof]), ih _ (hn ▸ length_fgets_lt hne) hboth.2 _ rfl,
          cString_of_not_mem hboth.1, hkept, List.foldl_append]

/-! ## The pieces -/

section Pieces
variable {d : Char}

theorem explode_ne_nil (text : List Char) : Util.explode d text ≠ [] := by
  cases text with
  | nil => exact List.cons_ne_nil _ _
  | cons c rest =>
      rw [Util.explode]
      split_ifs
      · exact List.cons_ne_nil _ _
      · split
        · exact List.cons_ne_nil _ _
        · exact List.cons_ne_nil _ _

theorem explode_cons_of_ne {c : Char} (hc : c ≠ d) (rest : List Char) :
    Util.explode d (c :: rest) = (Util.explode d rest).modifyHead (c :: ·) := by
  obtain ⟨piece, pieces, hpieces⟩ := List.exists_cons_of_ne_nil (explode_ne_nil (d := d) rest)
  rw [Util.explode, if_neg hc, hpieces]
  rfl

/-- The first piece is empty where a delimiter or nothing at all comes first. -/
theorem head_explode_eq_nil_iff {text piece : List Char} {pieces : List (List Char)}
    (h : Util.explode d text = piece :: pieces) :
    piece = [] ↔ text = [] ∨ text.head? = some d := by
  cases text with
  | nil =>
      rw [Util.explode, List.cons.injEq] at h
      simp [← h.1]
  | cons c rest =>
      by_cases hc : c = d
      · rw [Util.explode, if_pos hc, List.cons.injEq] at h
        simp [← h.1, hc]
      · obtain ⟨first, others, hrest⟩ := List.exists_cons_of_ne_nil (explode_ne_nil (d := d) rest)
        rw [explode_cons_of_ne hc, hrest, List.modifyHead_cons, List.cons.injEq] at h
        simp [← h.1, hc]

/-- The loop over the characters collects the pieces. -/
theorem foldl_scanChar (text : List Char) (queries : List (List Char)) (query : List Char) :
    (text.foldl scanChar (queries, query)).1 ++ [(text.foldl scanChar (queries, query)).2] =
      queries ++ (Util.explode ';' text).modifyHead (query ++ ·) := by
  induction text generalizing queries query with
  | nil => simp [Util.explode]
  | cons c rest ih =>
      rw [List.foldl_cons, scanChar]
      split_ifs with hc
      · obtain ⟨piece, pieces, hpieces⟩ :=
          List.exists_cons_of_ne_nil (explode_ne_nil (d := ';') rest)
        rw [ih, Util.explode, if_pos hc, hpieces]
        simp
      · rw [ih, explode_cons_of_ne hc, List.modifyHead_modifyHead]
        simp [Function.comp_def]

theorem foldl_scanChar_nil (text : List Char) :
    (text.foldl scanChar ([], [])).1 ++ [(text.foldl scanChar ([], [])).2] =
      Util.explode ';' text := by
  obtain ⟨piece, pieces, hpieces⟩ := List.exists_cons_of_ne_nil (explode_ne_nil (d := ';') text)
  rw [foldl_scanChar, hpieces]
  rfl

theorem snd_foldl_scanChar (text : List Char) :
    (text.foldl scanChar ([], [])).2 = lastPiece ';' text := by
  induction text using List.reverseRecOn with
  | nil => rfl
  | append_singleton text c ih =>
      rw [List.foldl_append, lastPiece_concat, ← ih]
      simp only [List.foldl_cons, List.foldl_nil, scanChar]
      split_ifs <;> rfl

end Pieces

/-! ## What is executed -/

/-- Nothing is left of a text of blanks by `trim`. -/
theorem trim_eq_nil_iff (query : List Char) :
    Util.trim query = [] ↔ isBlankText query = true := by
  rw [Util.trim, List.reverse_eq_nil_iff, List.dropWhile_eq_nil_iff, isBlankText,
    List.all_eq_true]
  constructor
  · intro hrest
    cases hdrop : query.dropWhile Util.isBlank with
    | nil => exact List.dropWhile_eq_nil_iff.mp hdrop
    | cons c rest =>
        have hhead := List.head?_dropWhile_not Util.isBlank query
        rw [hdrop] at hhead hrest
        have hc := hrest c (by simp)
        simp only [List.head?_cons, hc] at hhead
        cases hhead
  · intro hall c hc
    rw [List.dropWhile_eq_nil_iff.mpr hall] at hc
    cases hc

theorem filter_trim (queries : List (List Char)) :
    (queries.filter fun query => (Util.trim query).length ≠ 0) =
      queries.filter fun query => !isBlankText query := by
  apply List.filter_congr
  intro query _
  have hiff := trim_eq_nil_iff query
  cases hblank : isBlankText query <;> simp_all

section Executed
variable {τ : Type*} (rawQuery : List Char → τ → Option τ)

theorem executeFile_eq (script : SqlScript) (s : Transactional τ) :
    executeFile rawQuery script s = executeQueries rawQuery
      ((Util.explode ';' (kept script.text)).filter fun query => !isBlankText query) s := by
  rw [executeFile, readQueries_eq script.noNul, foldl_scanChar_nil, filter_trim]

/-- A database that keeps what it is told tells two lists of queries apart. -/
theorem executeQueries_injective {queries queries' : List (List Char)}
    (h : ∀ (τ : Type) (rawQuery : List Char → τ → Option τ) (s : Transactional τ),
      executeQueries rawQuery queries s = executeQueries rawQuery queries' s) :
    queries = queries' := by
  have hlog : ∀ (queries log : List (List Char)),
      queries.foldlM (fun log query => some (log ++ [query])) log = some (log ++ queries) := by
    intro queries
    induction queries with
    | nil => intro log; simp
    | cons query queries ih => intro log; simp [ih]
  have hrun : ∀ queries : List (List Char),
      executeQueries (fun query log => some (log ++ [query])) queries
        (Transactional.settled []) = (Transactional.settled queries, true) := by
    intro queries
    rw [executeQueries, if_neg (by simp [Transactional.settled, Transactional.isOpen]),
      Transactional.current_openUp, Transactional.current_settled, hlog]
    rfl
  have hsame := h (List (List Char)) (fun query log => some (log ++ [query]))
    (Transactional.settled [])
  rw [hrun, hrun, Prod.mk.injEq] at hsame
  exact congrArg Transactional.committed hsame.1

end Executed

theorem executesStatements_iff_filter (script : SqlScript) :
    ExecutesStatements script ↔
      ((Util.explode ';' (kept script.text)).filter fun query => !isBlankText query) =
        statements script := by
  constructor
  · intro h
    exact executeQueries_injective fun τ rawQuery s =>
      (executeFile_eq rawQuery script s).symm.trans (h τ rawQuery s)
  · intro h τ rawQuery s
    rw [executeFile_eq, h]

/-- A statement that is continued, and what follows it, are the statement alone. -/
theorem filter_continued_iff (query piece : List Char) (pieces : List (List Char)) :
    [query].filter (fun query => !isBlankText query) =
        ((query ++ piece) :: pieces).filter (fun query => !isBlankText query) ↔
      (∀ other ∈ piece :: pieces, isBlankText other = true) ∧
        (isBlankText query = true ∨ piece = []) := by
  have hboth : isBlankText (query ++ piece) = (isBlankText query && isBlankText piece) :=
    List.all_append
  have hnil : pieces.filter (fun query => !isBlankText query) = [] ↔
      ∀ other ∈ pieces, isBlankText other = true := by
    rw [List.filter_eq_nil_iff]
    simp
  rw [List.forall_mem_cons]
  cases hquery : isBlankText query with
  | true =>
      rw [List.filter_cons_of_neg (by simp [hquery]), List.filter_nil]
      cases hpiece : isBlankText piece with
      | true =>
          rw [List.filter_cons_of_neg (by simp [hboth, hquery, hpiece]), eq_comm, hnil]
          simp
      | false => simp [hboth, hquery, hpiece]
  | false =>
      rw [List.filter_cons_of_pos (by simp [hquery]),
        List.filter_cons_of_pos (by simp [hboth, hquery]), List.filter_nil, List.cons.injEq,
        eq_comm (a := []), hnil]
      constructor
      · rintro ⟨hpiece, hpieces⟩
        have hempty : piece = [] := by simpa using hpiece
        exact ⟨⟨by rw [hempty]; rfl, hpieces⟩, Or.inr hempty⟩
      · rintro ⟨⟨-, hpieces⟩, hpiece⟩
        rcases hpiece with hfalse | rfl
        · cases hfalse
        · exact ⟨(List.append_nil query).symm, hpieces⟩

/-- `ExecuteFile` executes the statements of a file exactly where what it drops has none. -/
theorem executesStatements_iff (script : SqlScript) :
    ExecutesStatements script ↔ DropsNothing script.text := by
  rw [executesStatements_iff_filter, statements]
  obtain ⟨piece, pieces, hdropped⟩ :=
    List.exists_cons_of_ne_nil (explode_ne_nil (d := ';') (dropped script.text))
  obtain ⟨queries, query, hscan⟩ : ∃ queries query,
      (kept script.text).foldl scanChar ([], []) = (queries, query) := ⟨_, _, rfl⟩
  have hquery := snd_foldl_scanChar (kept script.text)
  have hkept := foldl_scanChar_nil (kept script.text)
  have htext := foldl_scanChar_nil (kept script.text ++ dropped script.text)
  rw [List.foldl_append, hscan, foldl_scanChar, hdropped, kept_append_dropped] at htext
  rw [hscan] at hquery hkept
  rw [← hkept, ← htext, List.filter_append, List.filter_append, List.append_cancel_left_eq,
    List.modifyHead_cons, filter_continued_iff]
  dsimp only at hquery
  constructor
  · rintro ⟨hblank, hwhole⟩
    refine ⟨by rwa [hdropped], ?_⟩
    rw [← hquery]
    exact hwhole.imp_right (head_explode_eq_nil_iff hdropped).mp
  · rintro ⟨hblank, hwhole⟩
    rw [hdropped] at hblank
    rw [← hquery] at hwhole
    exact ⟨hblank, hwhole.imp_right (head_explode_eq_nil_iff hdropped).mpr⟩

/-- One statement without a line end behind it. -/
theorem not_executesStatements_one : ¬ ∀ script, ExecutesStatements script := by
  intro h
  have hall := (executesStatements_iff_filter ⟨['V', 'A', 'C', 'U', 'U', 'M'], by decide⟩).mp (h _)
  exact absurd hall (by decide)

end Database

end ArenaServ
