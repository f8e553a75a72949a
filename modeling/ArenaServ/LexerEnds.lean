import ArenaServ.QuestLexing
import Mathlib.Data.List.TakeWhile
import Mathlib.Logic.Relation

/-!
# The lexer ends

Every call of `ReadToken` that ends has taken something of the stream or of the queue, unless it
was at the end of the file. The one that does not end is in a comment without a newline: there the
loop over the comment waits for a character that does not come.
-/

namespace ArenaServ.EOPlus.Lexer

variable {s : Lexer} {c : Char}

/-! ## The loop over a comment -/

/-- So many rounds of the loop. At the end of the stream `GetChar` leaves the character as it is. -/
def commentRounds : ℕ → Char → Lexer → Option Lexer
  | 0, _, _ => none
  | rounds + 1, c, s =>
      if c = '\n' then some s
      else match s.is with
        | [] => commentRounds rounds c s
        | c' :: rest => commentRounds rounds c' (s.getChar c' rest)

theorem commentRounds_of_nil (hs : s.is = []) (hc : c ≠ '\n') (rounds : ℕ) :
    commentRounds rounds c s = none := by
  induction rounds with
  | zero => rfl
  | succ rounds ih => simp only [commentRounds, if_neg hc, hs, ih]

theorem commentRounds_of_cons {c' : Char} {rest : List Char} (hs : s.is = c' :: rest)
    (hc : c ≠ '\n') (rounds : ℕ) :
    commentRounds (rounds + 1) c s = commentRounds rounds c' (s.getChar c' rest) := by
  simp only [commentRounds, if_neg hc, hs]

/-- The loop ends as often as there is a newline, with what comes behind it. -/
theorem commentRounds_iff {l : List Char} (hl : s.is = l) (hc : c ≠ '\n') (s' : Lexer) :
    (∃ rounds, commentRounds rounds c s = some s') ↔ readComment l s = some s' := by
  induction l generalizing s c with
  | nil => simp [commentRounds_of_nil hl hc, readComment]
  | cons c' rest ih =>
      rw [readComment]
      have hstep : (∃ rounds, commentRounds rounds c s = some s') ↔
          ∃ rounds, commentRounds rounds c' (s.getChar c' rest) = some s' := by
        constructor
        · rintro ⟨rounds, hrounds⟩
          cases rounds with
          | zero => cases hrounds
          | succ rounds => exact ⟨rounds, (commentRounds_of_cons hl hc rounds).symm.trans hrounds⟩
        · rintro ⟨rounds, hrounds⟩
          exact ⟨rounds + 1, (commentRounds_of_cons hl hc rounds).trans hrounds⟩
      rw [hstep]
      by_cases hnewline : c' = '\n'
      · rw [if_pos hnewline]
        constructor
        · rintro ⟨rounds, hrounds⟩
          cases rounds with
          | zero => cases hrounds
          | succ rounds =>
              rw [commentRounds, if_pos hnewline] at hrounds
              exact hrounds
        · intro h
          exact ⟨1, by rw [commentRounds, if_pos hnewline, h]⟩
      · rw [if_neg hnewline]
        exact ih (is_getChar s c' rest) hnewline

theorem readComment_eq_none_iff {l : List Char} : readComment l s = none ↔ '\n' ∉ l := by
  induction l generalizing s with
  | nil => simp [readComment]
  | cons c rest ih =>
      rw [readComment, List.mem_cons, not_or]
      by_cases hc : c = '\n'
      · rw [if_pos hc]
        simp [hc]
      · rw [if_neg hc, ih]
        simp [Ne.symm hc]

/-! ## The operator in front of a comment -/

theorem op_cases (h : ctypeOp c = true) :
    c = '(' ∨ c = ')' ∨ c = '&' ∨ c = '|' ∨ c = '=' ∨ c = '!' ∨ c = '<' ∨ c = '>' ∨ c = '+' ∨
      c = '-' ∨ c = '*' ∨ c = '/' ∨ c = '%' := by
  simp only [ctypeOp, List.contains_eq_mem, List.mem_cons, List.not_mem_nil, or_false,
    decide_eq_true_eq] at h
  tauto

/-- No other operator looks like a division. -/
theorem eq_slash_of_uop2 {cc : Char} (hop : ctypeOp c = true) (hcheck : checkOp c cc = true)
    (heq : uop2 c cc = uop2 '/' '\x00') : c = '/' := by
  rcases op_cases hop with
    rfl | rfl | rfl | rfl | rfl | rfl | rfl | rfl | rfl | rfl | rfl | rfl | rfl
  case inr.inr.inr.inr.inr.inr.inr.inr.inr.inr.inr.inl => rfl
  all_goals
    -- The second character is one of two that are known.
    simp [checkOp] at hcheck
    first
    | subst hcheck
      exact absurd heq (by decide)
    | rcases hcheck with rfl | rfl <;> exact absurd heq (by decide)

theorem operatorOf_slash (s : Lexer) : operatorOf '/' s = (.operator (uop2 '/' '\x00'), s) := by
  unfold operatorOf
  cases s.is with
  | nil => rfl
  | cons cc rest =>
      have hcheck : checkOp '/' cc = decide (cc = '\x00') := rfl
      dsimp only
      by_cases hcc : cc = '\x00'
      · subst hcc
        rfl
      · rw [hcheck, if_neg (by simp [hcc])]
        rfl

theorem readOperator_slash {rest : List Char} (his : s.is = '/' :: rest) :
    s.readOperator = (.operator (uop2 '/' '\x00'), s.getChar '/' rest) := by
  have hop : ctypeOp '/' = true := rfl
  simp only [readOperator, his, hop, if_true, operatorOf_slash]

theorem eq_slash_of_operatorOf (hop : ctypeOp c = true)
    (h : (operatorOf c s).1 = .operator (uop2 '/' '\x00')) : c = '/' := by
  have hsingle : (if checkOp c '\x00' then TokenData.operator (uop2 c '\x00') else .invalid) =
      .operator (uop2 '/' '\x00') → c = '/' := by
    intro heq
    split_ifs at heq with hcheck
    exact eq_slash_of_uop2 hop hcheck (TokenData.operator.inj heq)
  unfold operatorOf at h
  split at h
  next => exact hsingle h
  next cc rest his =>
      by_cases hcheck : checkOp c cc = true
      · rw [if_pos hcheck] at h
        exact eq_slash_of_uop2 hop hcheck (TokenData.operator.inj h)
      · rw [if_neg hcheck] at h
        exact hsingle h

/-! ## One call -/

theorem checked_ne_hangs (r : TokenData × Lexer) : checked r ≠ .error .hangs := by
  unfold checked
  split_ifs <;> intro h <;> cases h

/-- In front of a comment that the stream ends in. -/
theorem readStream_hangs_iff :
    s.readStream = .error .hangs ↔ ∃ body, s.is = '/' :: '/' :: body ∧ '\n' ∉ body := by
  constructor
  · intro h
    unfold readStream at h
    split at h
    next => cases h
    next c rest his =>
        split_ifs at h with _ _ _ hop hcomment
        · exact absurd h (checked_ne_hangs _)
        · exact absurd h (checked_ne_hangs _)
        · exact absurd h (checked_ne_hangs _)
        · have hread : s.readOperator = operatorOf c (s.getChar c rest) := by
            simp only [readOperator, his, hop, if_true]
          obtain ⟨hslash, hhead⟩ := hcomment
          rw [hread] at h hslash hhead
          obtain rfl := eq_slash_of_operatorOf hop hslash
          rw [operatorOf_slash, is_getChar] at h hhead
          obtain ⟨body, rfl⟩ := List.head?_eq_some_iff.1 hhead
          have hnone : readComment ('/' :: body) (s.getChar '/' ('/' :: body)) = none := by
            cases hread : readComment ('/' :: body) (s.getChar '/' ('/' :: body)) with
            | none => rfl
            | some s' =>
                simp only [hread] at h
                cases h
          rw [readComment_eq_none_iff, List.mem_cons, not_or] at hnone
          exact ⟨body, his, hnone.2⟩
        · exact absurd h (checked_ne_hangs _)
        · cases hread : s.readString with
          | error e =>
              rw [hread] at h
              cases h
          | ok r =>
              rw [hread] at h
              exact absurd h (checked_ne_hangs _)
        · exact absurd h (checked_ne_hangs _)
  · rintro ⟨body, his, hbody⟩
    have hread := readOperator_slash his
    have hnone : readComment ('/' :: body) (s.getChar '/' ('/' :: body)) = none := by
      rw [readComment_eq_none_iff, List.mem_cons, not_or]
      exact ⟨by decide, hbody⟩
    have hdigit : ctypeDigit '/' = false := rfl
    have hident : ctypeIdentStart '/' = false := rfl
    have hsymbol : ctypeSymbol '/' = false := rfl
    have hop : ctypeOp '/' = true := rfl
    simp only [readStream, his, hdigit, hident, hsymbol, hop, hread, is_getChar, hnone,
      List.head?_cons, and_self, if_true, Bool.false_eq_true, if_false]

theorem is_readWhile {f : Char → Bool} {l : List Char} (hl : s.is = l) :
    (readWhile f l s).2.is = l.dropWhile f := by
  induction l generalizing s with
  | nil => exact hl
  | cons c rest ih =>
      rw [readWhile, List.dropWhile_cons]
      split_ifs
      · exact ih (is_getChar s c rest)
      · exact hl

/-- Each newline that is passed waits in the queue. -/
theorem tokenBuffer_readWhile_eq_nil_iff {f : Char → Bool} {l : List Char} (hl : s.is = l) :
    (readWhile f l s).2.tokenBuffer = [] ↔ s.tokenBuffer = [] ∧ '\n' ∉ l.takeWhile f := by
  induction l generalizing s with
  | nil => simp [readWhile]
  | cons c rest ih =>
      have hgot : (s.getChar c rest).tokenBuffer = [] ↔ s.tokenBuffer = [] ∧ c ≠ '\n' := by
        unfold getChar
        split_ifs with hc
        · simp [hc]
        · simp [hc]
      rw [readWhile, List.takeWhile_cons]
      split_ifs with hf
      · rw [ih (is_getChar s c rest), hgot, List.mem_cons, not_or, and_assoc, ne_comm]
      · simp

/-- Nothing waits, and what is left is a comment that the stream ends in. -/
def InLastComment (s : Lexer) : Prop :=
  s.tokenBuffer = [] ∧ ∃ space body, s.is = space ++ '/' :: '/' :: body ∧
    (∀ c ∈ space, ctypeWhitespace c = true ∧ c ≠ '\n') ∧ '\n' ∉ body

/-- With something in the queue, the queue is all that is read. -/
theorem readOnce_of_queue (h : s.tokenBuffer ≠ []) : ∃ t s', s.readOnce = .ok (some t, s') := by
  have hqueue : (s.getWhile ctypeWhitespace).2.tokenBuffer ≠ [] :=
    fun hnil => h ((tokenBuffer_readWhile_eq_nil_iff rfl).1 hnil).1
  obtain ⟨t, queue, hcons⟩ := List.exists_cons_of_ne_nil hqueue
  unfold readOnce
  rw [hcons]
  exact ⟨t, _, rfl⟩

theorem readOnce_hangs_iff : s.readOnce = .error .hangs ↔ s.InLastComment := by
  have hspace := tokenBuffer_readWhile_eq_nil_iff (f := ctypeWhitespace) (s := s) rfl
  have hrest : (s.getWhile ctypeWhitespace).2.is = s.is.dropWhile ctypeWhitespace :=
    is_readWhile rfl
  constructor
  · intro h
    unfold readOnce at h
    cases hqueue : (s.getWhile ctypeWhitespace).2.tokenBuffer with
    | cons t queue =>
        rw [hqueue] at h
        cases h
    | nil =>
        rw [hqueue] at h
        obtain ⟨hbuffer, hnewline⟩ := hspace.1 hqueue
        obtain ⟨body, his, hbody⟩ := readStream_hangs_iff.1 h
        refine ⟨hbuffer, s.is.takeWhile ctypeWhitespace, body, ?_, ?_, hbody⟩
        · rw [← his, hrest, List.takeWhile_append_dropWhile]
        · intro c hc
          refine ⟨List.mem_takeWhile_imp hc, ?_⟩
          rintro rfl
          exact hnewline hc
  · rintro ⟨hbuffer, space, body, his, hspaces, hbody⟩
    have htake : s.is.takeWhile ctypeWhitespace = space := by
      rw [his, List.takeWhile_append_of_pos fun c hc => (hspaces c hc).1]
      exact List.append_nil _
    have hdrop : s.is.dropWhile ctypeWhitespace = '/' :: '/' :: body := by
      rw [his, List.dropWhile_append_of_pos fun c hc => (hspaces c hc).1]
      rfl
    have hqueue : (s.getWhile ctypeWhitespace).2.tokenBuffer = [] := by
      apply hspace.2
      rw [htake]
      exact ⟨hbuffer, fun hmem => (hspaces '\n' hmem).2 rfl⟩
    unfold readOnce
    rw [hqueue]
    exact readStream_hangs_iff.2 ⟨body, hrest.trans hdrop, hbody⟩

/-- The newline behind a comment waits. -/
theorem tokenBuffer_readComment {l : List Char} {s' : Lexer} (h : readComment l s = some s') :
    s'.tokenBuffer ≠ [] := by
  induction l generalizing s with
  | nil => cases h
  | cons c rest ih =>
      rw [readComment] at h
      split_ifs at h with hc
      · cases h
        simp [getChar, hc]
      · exact ih h

theorem tokenBuffer_of_comment {s' : Lexer} (h : s.readOnce = .ok (none, s')) :
    s'.tokenBuffer ≠ [] := by
  have hchecked : ∀ r, checked r ≠ .ok (none, s') := by
    intro r hr
    unfold checked at hr
    split_ifs at hr
    cases hr
  unfold readOnce at h
  split at h
  next => cases h
  next =>
      unfold readStream at h
      split at h
      next => cases h
      next =>
          split_ifs at h
          · exact absurd h (hchecked _)
          · exact absurd h (hchecked _)
          · exact absurd h (hchecked _)
          · split at h
            next => cases h
            next s₁ hread =>
                cases h
                exact tokenBuffer_readComment hread
          · exact absurd h (hchecked _)
          · split at h
            next => cases h
            next => exact absurd h (hchecked _)
          · exact absurd h (hchecked _)

/-- The call behind a comment takes the newline of the comment. -/
theorem readToken_hangs_iff : s.readToken = .error .hangs ↔ s.InLastComment := by
  rw [← readOnce_hangs_iff]
  constructor
  · intro h
    cases honce : s.readOnce with
    | error e =>
        rw [readToken_of_error honce] at h
        cases h
        rfl
    | ok r =>
        obtain ⟨found, s'⟩ := r
        cases found with
        | none =>
            obtain ⟨t, s₂, hqueue⟩ := readOnce_of_queue (tokenBuffer_of_comment honce)
            rw [readToken_of_comment honce, readToken_of_token hqueue] at h
            cases h
        | some t =>
            rw [readToken_of_token honce] at h
            cases h
  · exact readToken_of_error

/-- Behind the first character of a comment. -/
def behindSlash (s : Lexer) : Lexer := (s.getWhile ctypeWhitespace).2.readOperator.2

theorem commentRounds_behindSlash (h : s.InLastComment) (rounds : ℕ) :
    commentRounds rounds '/' s.behindSlash = none := by
  obtain ⟨hbuffer, space, body, his, hspaces, hbody⟩ := h
  have hdrop : (s.getWhile ctypeWhitespace).2.is = '/' :: '/' :: body := by
    rw [getWhile, is_readWhile rfl, his, List.dropWhile_append_of_pos fun c hc => (hspaces c hc).1]
    rfl
  have hrest : s.behindSlash.is = '/' :: body := by
    rw [behindSlash, readOperator_slash hdrop, is_getChar]
  have hnone : readComment ('/' :: body) s.behindSlash = none := by
    rw [readComment_eq_none_iff, List.mem_cons, not_or]
    exact ⟨by decide, hbody⟩
  cases hrounds : commentRounds rounds '/' s.behindSlash with
  | none => rfl
  | some s' =>
      have hread := (commentRounds_iff hrest (by decide) s').1 ⟨rounds, hrounds⟩
      rw [hnone] at hread
      cases hread

/-! ## Call after call -/

/-- A call gives a token, and the next one begins behind it. -/
def Next (s s' : Lexer) : Prop := ∃ t, t ≠ .endOfFile ∧ s.readToken = .ok (t, s')

abbrev Reads (s s' : Lexer) : Prop := Relation.ReflTransGen Next s s'

/-- A call ends the reading: with the end of the file or with an error. -/
def Stops (s : Lexer) : Prop :=
  (∃ s', s.readToken = .ok (.endOfFile, s')) ∨ ∃ e, s.readToken = .error (.error e)

theorem not_next_of_stops {s' : Lexer} (h : s.Stops) : ¬s.Next s' := by
  rintro ⟨t, ht, hread⟩
  rcases h with ⟨s₁, hend⟩ | ⟨e, herror⟩
  · rw [hread] at hend
    cases hend
    exact ht rfl
  · rw [hread] at herror
    cases herror

theorem not_stops_of_hangs (h : s.InLastComment) : ¬s.Stops := by
  have hhangs := readToken_hangs_iff.2 h
  rintro (⟨s', hend⟩ | ⟨e, herror⟩)
  · rw [hhangs] at hend
    cases hend
  · rw [hhangs] at herror
    cases herror

theorem not_next_of_hangs {s' : Lexer} (h : s.InLastComment) : ¬s.Next s' := by
  rintro ⟨t, -, hread⟩
  rw [readToken_hangs_iff.2 h] at hread
  cases hread

theorem eq_of_reads {s' : Lexer} (h : s.Reads s') (hstays : ∀ s₁, ¬s.Next s₁) : s' = s := by
  rcases h.cases_head with heq | ⟨s₁, hnext, -⟩
  · exact heq.symm
  · exact absurd hnext (hstays s₁)

theorem rightUnique_next : Relator.RightUnique Next := by
  rintro s s₁ s₂ ⟨t, -, h⟩ ⟨t', -, h'⟩
  rw [h] at h'
  cases h'
  rfl

/-- By induction on what is left, which every call makes smaller. -/
theorem exists_stops (s : Lexer) (h : ∀ s', s.Reads s' → ¬s'.InLastComment) :
    ∃ s', s.Reads s' ∧ s'.Stops := by
  induction hsize : s.size using Nat.strong_induction_on generalizing s with
  | _ n ih =>
      cases hread : s.readToken with
      | error e =>
          cases e with
          | error e => exact ⟨s, Relation.ReflTransGen.refl, Or.inr ⟨e, hread⟩⟩
          | hangs => exact absurd (readToken_hangs_iff.1 hread) (h s Relation.ReflTransGen.refl)
      | ok r =>
          obtain ⟨t, s₁⟩ := r
          by_cases ht : t = .endOfFile
          · exact ⟨s, Relation.ReflTransGen.refl, Or.inl ⟨s₁, by rw [hread, ht]⟩⟩
          · have hnext : s.Next s₁ := ⟨t, ht, hread⟩
            have hlt : s₁.size < n := hsize ▸ size_readToken hread ht
            obtain ⟨s', hreads, hstops⟩ :=
              ih s₁.size hlt s₁ (fun s' hs' => h s' (hs'.head hnext)) rfl
            exact ⟨s', hreads.head hnext, hstops⟩

/-- Call after call takes something of the text or of the queue, and the calls end with the end of
the file or with an error if and only if none of them begins in front of a comment that the text
ends in. Where one does, the loop over the comment does not end after any number of rounds. -/
theorem reading_stops_iff (text : List Char) :
    (∀ s t s', (start text).Reads s → s.readToken = .ok (t, s') → t ≠ .endOfFile →
      s'.size < s.size) ∧
    ((∃ s, (start text).Reads s ∧ s.Stops) ↔ ∀ s, (start text).Reads s → ¬s.InLastComment) ∧
    (∀ s, (start text).Reads s → s.InLastComment →
      ∀ rounds, commentRounds rounds '/' s.behindSlash = none) := by
  refine ⟨fun s t s' _ => size_readToken, ⟨?_, exists_stops _⟩,
    fun s _ hcomment => commentRounds_behindSlash hcomment⟩
  rintro ⟨s', hreads', hstops⟩ s hreads hcomment
  have hsame : s = s' := by
    rcases Relation.ReflTransGen.total_of_right_unique rightUnique_next hreads hreads' with h | h
    · exact (eq_of_reads h fun _ => not_next_of_hangs hcomment).symm
    · exact eq_of_reads h fun _ => not_next_of_stops hstops
  rw [← hsame] at hstops
  exact not_stops_of_hangs hcomment hstops

/-- A file that is an empty comment is read for ever. -/
theorem not_reading_stops_comment : ¬∃ s, (start ['/', '/']).Reads s ∧ s.Stops := by
  have hcomment : (start ['/', '/']).InLastComment :=
    ⟨rfl, [], [], rfl, by simp, by simp⟩
  rintro ⟨s, hreads, hstops⟩
  rw [eq_of_reads hreads fun _ => not_next_of_hangs hcomment] at hstops
  exact not_stops_of_hangs hcomment hstops

end ArenaServ.EOPlus.Lexer
