import ArenaServ.QuestScript
import Mathlib.Tactic.IntervalCases

/-!
# The lexer reads what is written

A written text gives its tokens and some newlines between them.
-/

namespace ArenaServ.EOPlus

/-! ## Kinds of characters -/

theorem not_digit_of_alpha {c : Char} (h : ctypeAlpha c = true) : ctypeDigit c = false := by
  have h0 : '0'.val.toNat = 48 := rfl
  have h9 : '9'.val.toNat = 57 := rfl
  have hA : 'A'.val.toNat = 65 := rfl
  have hZ : 'Z'.val.toNat = 90 := rfl
  have ha : 'a'.val.toNat = 97 := rfl
  have hz : 'z'.val.toNat = 122 := rfl
  unfold ctypeAlpha Char.isAlpha Char.isUpper Char.isLower at h
  unfold ctypeDigit Char.isDigit
  simp only [Bool.or_eq_true, Bool.and_eq_true, decide_eq_true_eq, ge_iff_le,
    UInt32.le_iff_toNat_le, Bool.and_eq_false_iff, decide_eq_false_iff_not] at h ⊢
  omega

theorem not_digit_of_identStart {c : Char} (h : ctypeIdentStart c = true) :
    ctypeDigit c = false := by
  unfold ctypeIdentStart at h
  rw [Bool.or_eq_true, Bool.or_eq_true, beq_iff_eq, beq_iff_eq] at h
  rcases h with (h | rfl) | rfl
  · exact not_digit_of_alpha h
  · rfl
  · rfl

theorem whitespace_cases {c : Char} (h : ctypeWhitespace c = true) :
    c = ' ' ∨ c = '\t' ∨ c = '\n' ∨ c = '\x0b' ∨ c = '\x0c' ∨ c = '\r' := by
  simpa [ctypeWhitespace] using h

theorem symbol_cases {c : Char} (h : ctypeSymbol c = true) :
    c = ';' ∨ c = '{' ∨ c = '}' ∨ c = '.' ∨ c = ',' := by
  simpa [ctypeSymbol] using h

theorem not_whitespace_of_digit {c : Char} (h : ctypeDigit c = true) :
    ctypeWhitespace c = false := by
  rw [Bool.eq_false_iff]
  intro hc
  rcases whitespace_cases hc with rfl | rfl | rfl | rfl | rfl | rfl <;> cases h

theorem not_whitespace_of_identStart {c : Char} (h : ctypeIdentStart c = true) :
    ctypeWhitespace c = false := by
  rw [Bool.eq_false_iff]
  intro hc
  rcases whitespace_cases hc with rfl | rfl | rfl | rfl | rfl | rfl <;> cases h

theorem lowercase_ofList {l : List Char} (h : ∀ c ∈ l, c.toLower = c) :
    Util.lowercase (String.ofList l) = String.ofList l := by
  unfold Util.lowercase String.toLower
  rw [← String.toList_inj, String.toList_map, String.toList_ofList]
  exact (List.map_congr_left h).trans (List.map_id l)

namespace Lexer

/-- This text is left, and only newlines wait. -/
structure At (s : Lexer) (text : List Char) : Prop where
  is_eq : s.is = text
  newLines : ∀ t ∈ s.tokenBuffer, t = .newLine

theorem At.getChar {s : Lexer} {c : Char} {text : List Char} (h : s.At (c :: text)) :
    (s.getChar c text).At text := by
  constructor
  · exact is_getChar s c text
  · intro t ht
    unfold Lexer.getChar at ht
    split_ifs at ht
    · rcases List.mem_append.1 ht with hold | hnew
      · exact h.newLines t hold
      · exact List.mem_singleton.1 hnew
    · exact h.newLines t ht

theorem At.readWhile {f : Char → Bool} {piece text : List Char} {s : Lexer}
    (h : s.At (piece ++ text)) (hpiece : ∀ c ∈ piece, f c = true)
    (htext : ∀ c ∈ text.head?, f c = false) :
    (Lexer.readWhile f (piece ++ text) s).1 = piece ∧
      (Lexer.readWhile f (piece ++ text) s).2.At text := by
  induction piece generalizing s with
  | nil =>
      rw [List.nil_append] at h ⊢
      cases text with
      | nil => exact ⟨rfl, h⟩
      | cons c rest =>
          have hc := htext c rfl
          rw [Lexer.readWhile, hc]
          exact ⟨rfl, h⟩
  | cons c piece ih =>
      obtain ⟨hread, hat⟩ := ih h.getChar fun d hd => hpiece d (List.mem_cons_of_mem c hd)
      rw [List.cons_append, Lexer.readWhile, if_pos (hpiece c List.mem_cons_self)]
      exact ⟨congrArg (c :: ·) hread, hat⟩

theorem At.getWhile {f : Char → Bool} {piece text : List Char} {s : Lexer}
    (h : s.At (piece ++ text)) (hpiece : ∀ c ∈ piece, f c = true)
    (htext : ∀ c ∈ text.head?, f c = false) :
    (s.getWhile f).1 = piece ∧ (s.getWhile f).2.At text := by
  unfold Lexer.getWhile
  rw [h.is_eq]
  exact h.readWhile hpiece htext

/-! ## One token -/

section Tokens
variable {s : Lexer} {c : Char} {text rest : List Char}

theorem checked_of_ne {r : TokenData × Lexer} (h : r.1 ≠ .invalid) :
    checked r = .ok (some r.1, r.2) := if_neg h

theorem readStream_digit (h : s.is = c :: rest) (hc : ctypeDigit c = true) :
    s.readStream = checked s.readNumber := by
  simp only [readStream, h, hc, if_true]

theorem readStream_identStart (h : s.is = c :: rest) (hc : ctypeIdentStart c = true) :
    s.readStream = checked s.readIdentifier := by
  simp only [readStream, h, not_digit_of_identStart hc, hc, if_true, Bool.false_eq_true, if_false]

theorem readStream_symbol (h : s.is = c :: rest) (hc : ctypeSymbol c = true) :
    s.readStream = checked s.readSymbol := by
  have hdigit : ctypeDigit c = false := by
    rcases symbol_cases hc with rfl | rfl | rfl | rfl | rfl <;> rfl
  have hident : ctypeIdentStart c = false := by
    rcases symbol_cases hc with rfl | rfl | rfl | rfl | rfl <;> rfl
  simp only [readStream, h, hdigit, hident, hc, if_true, Bool.false_eq_true, if_false]

theorem readStream_quote {r : TokenData × Lexer} (h : s.is = '"' :: rest)
    (hread : s.readString = .ok r) : s.readStream = checked r := by
  have hdigit : ctypeDigit '"' = false := rfl
  have hident : ctypeIdentStart '"' = false := rfl
  have hsymbol : ctypeSymbol '"' = false := rfl
  have hop : ctypeOp '"' = false := rfl
  simp only [readStream, h, hdigit, hident, hsymbol, hop, hread, if_true, Bool.false_eq_true,
    if_false]

theorem At.readSymbol (h : s.At (c :: text)) (hc : ctypeSymbol c = true) :
    ∃ s', s.readStream = .ok (some (.symbol c), s') ∧ s'.At text := by
  have hread : s.readSymbol = (.symbol c, s.getChar c text) := by
    simp only [Lexer.readSymbol, h.is_eq, hc, if_true]
  rw [readStream_symbol h.is_eq hc, hread, checked_of_ne (by simp)]
  exact ⟨_, rfl, h.getChar⟩

theorem At.readIdentifier {name : String} (h : s.At (name.toList ++ text))
    (hname : IsIdentifier name.toList) (htrue : name ≠ "true") (hfalse : name ≠ "false")
    (hend : ∀ c ∈ text.head?, ctypeIdent c = false) :
    ∃ s', s.readStream = .ok (some (.identifier name), s') ∧ s'.At text := by
  cases hchars : name.toList with
  | nil =>
      rw [hchars] at hname
      cases hname
  | cons c rest =>
      rw [hchars, List.cons_append] at h
      rw [hchars] at hname
      obtain ⟨hstart, hrest, hlower⟩ := hname
      obtain ⟨hread, hat⟩ := h.getChar.getWhile hrest hend
      have hname : Util.lowercase (String.ofList (c :: rest)) = name := by
        rw [lowercase_ofList hlower, ← hchars, String.ofList_toList]
      have hident : s.readIdentifier =
          (.identifier name, ((s.getChar c (rest ++ text)).getWhile ctypeIdent).2) := by
        simp only [Lexer.readIdentifier, h.is_eq, hstart, if_true, hread, hname, htrue, hfalse,
          or_self, if_false]
      rw [readStream_identStart h.is_eq hstart, hident, checked_of_ne (by simp)]
      exact ⟨_, rfl, hat⟩

theorem pushDigit_ofNat {n : ℕ} (h : n < 2 ^ 31) :
    pushDigit (Int32.ofNat (n / 10)) (Nat.digitChar (n % 10)) = Int32.ofNat n := by
  have hdigit : (Nat.digitChar (n % 10)).toNat - '0'.toNat = n % 10 := by
    have hlt : n % 10 < 10 := Nat.mod_lt _ (by omega)
    generalize n % 10 = d at hlt
    interval_cases d <;> rfl
  have hsmall : ¬Int32.ofNat (n / 10) > Int32.maxValue / 10 := by
    have hmax : (Int32.maxValue / 10).toInt = 214748364 := rfl
    have hval : (Int32.ofNat (n / 10)).toInt = (n / 10 : ℕ) :=
      Int32.toInt_ofNat_of_lt (by omega)
    intro hlt
    have := Int32.lt_iff_toInt_lt.1 hlt
    omega
  rw [pushDigit, if_neg hsmall, hdigit]
  rw [show (10 : Int32) = Int32.ofNat 10 from rfl, ← Int32.ofNat_mul, ← Int32.ofNat_add,
    Nat.div_add_mod' n 10]

/-- The digits of a number give the number. -/
theorem foldl_pushDigit (n : ℕ) (h : n < 2 ^ 31) :
    ∃ c rest, Nat.toDigits 10 n = c :: rest ∧
      rest.foldl pushDigit (Int32.ofNat (c.toNat - '0'.toNat)) = Int32.ofNat n := by
  induction n using Nat.strong_induction_on with
  | _ n ih =>
      by_cases hn : n < 10
      · refine ⟨n.digitChar, [], Nat.toDigits_of_lt_base hn, ?_⟩
        interval_cases n <;> rfl
      · obtain ⟨c, rest, hdigits, hfold⟩ := ih (n / 10) (by omega) (by omega)
        refine ⟨c, rest ++ [(n % 10).digitChar], ?_, ?_⟩
        · rw [Nat.toDigits_of_base_le (by omega) (by omega), hdigits, List.cons_append]
        · rw [List.foldl_append, hfold]
          exact pushDigit_ofNat h

theorem At.readNumber {value : Int32} (hvalue : 0 ≤ value)
    (h : s.At (Nat.toDigits 10 value.toInt.toNat ++ text))
    (hend : ∀ c ∈ text.head?, ctypeDigit c = false) :
    ∃ s', s.readStream = .ok (some (.integer value), s') ∧ s'.At text := by
  have hlt : value.toInt.toNat < 2 ^ 31 := by
    have := value.toInt_lt
    omega
  have hback : Int32.ofNat value.toInt.toNat = value := by
    have hle : 0 ≤ value.toInt := Int32.le_iff_toInt_le.1 hvalue
    rw [← Int32.ofInt_eq_ofNat, Int.toNat_of_nonneg hle, Int32.ofInt_toInt]
  obtain ⟨c, rest, hdigits, hfold⟩ := foldl_pushDigit value.toInt.toNat hlt
  have hdigit : ∀ d ∈ c :: rest, ctypeDigit d = true := by
    rw [← hdigits]
    intro d hd
    exact Nat.isDigit_of_mem_toDigits (by omega) (by omega) hd
  rw [hdigits, List.cons_append] at h
  have hc := hdigit c List.mem_cons_self
  obtain ⟨hread, hat⟩ := h.getChar.getWhile
    (fun d hd => hdigit d (List.mem_cons_of_mem c hd)) hend
  have hnumber : s.readNumber =
      (.integer value, ((s.getChar c (rest ++ text)).getWhile ctypeDigit).2) := by
    simp only [Lexer.readNumber, h.is_eq, hc, if_true, hread, hfold, hback]
  rw [readStream_digit h.is_eq hc, hnumber, checked_of_ne (by simp)]
  exact ⟨_, rfl, hat⟩

/-- Behind its opening quote a string is read up to its closing quote. -/
theorem At.readStringLoop {chars : List Char}
    (h : s.At (escaped chars ++ '"' :: text)) :
    ∃ s', Lexer.readStringLoop (escaped chars ++ '"' :: text) false s = .ok (chars, s') ∧
      s'.At text := by
  induction chars generalizing s with
  | nil => exact ⟨_, rfl, h.getChar⟩
  | cons c chars ih =>
      by_cases hc : c = '"' ∨ c = '\\' ∨ c = '\n'
      · have hescaped : escaped (c :: chars) = '\\' :: c :: escaped chars := by
          simp [escaped, hc]
        rw [hescaped, List.cons_append, List.cons_append] at h ⊢
        obtain ⟨s', hread, hat⟩ := ih h.getChar.getChar
        refine ⟨s', ?_, hat⟩
        rw [Lexer.readStringLoop, if_pos rfl, Lexer.readStringLoop, hread]
        rfl
      · have hescaped : escaped (c :: chars) = c :: escaped chars := by
          simp [escaped, hc]
        rw [hescaped, List.cons_append] at h ⊢
        obtain ⟨s', hread, hat⟩ := ih h.getChar
        refine ⟨s', ?_, hat⟩
        rw [not_or, not_or] at hc
        rw [Lexer.readStringLoop, if_neg hc.2.1, if_neg hc.1, if_neg hc.2.2, hread]
        rfl

theorem At.readString {string : String}
    (h : s.At ('"' :: (escaped string.toList ++ ['"']) ++ text)) :
    ∃ s', s.readStream = .ok (some (.string string), s') ∧ s'.At text := by
  rw [List.cons_append, List.append_assoc, List.singleton_append] at h
  obtain ⟨s', hloop, hat⟩ := h.getChar.readStringLoop
  have hread : s.readString = .ok (.string string, s') := by
    unfold Lexer.readString
    simp only [h.is_eq, if_true, hloop]
    change Except.ok (TokenData.string (String.ofList string.toList), s') = _
    rw [String.ofList_toList]
  rw [readStream_quote h.is_eq hread, checked_of_ne (by simp)]
  exact ⟨s', rfl, hat⟩

/-- A parenthesis is one operator, whatever comes behind it. -/
theorem At.readParens {c : Char} (h : s.At (c :: text)) (hc : c = '(' ∨ c = ')')
    (htext : '\x00' ∉ text.head?) :
    ∃ s', s.readStream = .ok (some (.operator (uop2 c '\x00')), s') ∧ s'.At text := by
  have hdigit : ctypeDigit c = false := by rcases hc with rfl | rfl <;> rfl
  have hident : ctypeIdentStart c = false := by rcases hc with rfl | rfl <;> rfl
  have hsymbol : ctypeSymbol c = false := by rcases hc with rfl | rfl <;> rfl
  have hop : ctypeOp c = true := by rcases hc with rfl | rfl <;> rfl
  have hcheck : ∀ cc, checkOp c cc = decide (cc = '\x00') := by
    intro cc
    rcases hc with rfl | rfl <;> rfl
  have hread : s.readOperator = (.operator (uop2 c '\x00'), s.getChar c text) := by
    simp only [Lexer.readOperator, h.is_eq, hop, if_true, operatorOf, is_getChar]
    cases text with
    | nil => simp [hcheck]
    | cons cc rest =>
        have hcc : cc ≠ '\x00' := fun heq => htext (by rw [heq]; rfl)
        simp [hcheck, hcc]
  have hne : ¬(s.readOperator.1 = .operator (uop2 '/' '\x00') ∧
      s.readOperator.2.is.head? = some '/') := by
    rw [hread]
    rintro ⟨heq, -⟩
    rcases hc with rfl | rfl <;> cases heq
  have hstream : s.readStream = checked s.readOperator := by
    simp only [readStream, h.is_eq, hdigit, hident, hsymbol, hop, hne, if_true, if_false,
      Bool.false_eq_true]
  rw [hstream, hread, checked_of_ne (by simp)]
  exact ⟨_, rfl, h.getChar⟩

/-- A token is read up to its end. -/
theorem At.readStream {t : TokenData} {piece : List Char} (h : s.At (piece ++ text))
    (ht : Spelled t piece) (hend : Ends t text) (htext : '\x00' ∉ text.head?) :
    ∃ s', s.readStream = .ok (some t, s') ∧ s'.At text := by
  cases ht with
  | identifier name hname htrue hfalse => exact h.readIdentifier hname htrue hfalse hend
  | string string => exact h.readString
  | integer value hvalue => exact h.readNumber hvalue hend
  | leftParens => exact h.readParens (Or.inl rfl) htext
  | rightParens => exact h.readParens (Or.inr rfl) htext
  | symbol c hc => exact h.readSymbol hc

/-! ## Space and comments -/

theorem At.readComment {body : List Char} (h : s.At (body ++ '\n' :: text)) (hbody : '\n' ∉ body) :
    ∃ s', Lexer.readComment (body ++ '\n' :: text) s = some s' ∧ s'.At text := by
  induction body generalizing s with
  | nil => exact ⟨_, rfl, h.getChar⟩
  | cons c body ih =>
      rw [List.mem_cons, not_or] at hbody
      rw [List.cons_append, Lexer.readComment, if_neg (Ne.symm hbody.1)]
      exact ih h.getChar hbody.2

theorem At.readStream_comment {body : List Char}
    (h : s.At ('/' :: '/' :: (body ++ '\n' :: text))) (hbody : '\n' ∉ body) :
    ∃ s', s.readStream = .ok (none, s') ∧ s'.At text := by
  have hread : s.readOperator =
      (.operator (uop2 '/' '\x00'), s.getChar '/' ('/' :: (body ++ '\n' :: text))) := by
    have hop : ctypeOp '/' = true := rfl
    have hcheck : checkOp '/' '/' = false := rfl
    have hcheck' : checkOp '/' '\x00' = true := rfl
    simp only [Lexer.readOperator, h.is_eq, hop, hcheck, hcheck', if_true, operatorOf, is_getChar,
      Bool.false_eq_true, if_false]
  have hbody' : '\n' ∉ '/' :: body := by
    rw [List.mem_cons, not_or]
    exact ⟨by decide, hbody⟩
  have hat : (s.getChar '/' ('/' :: (body ++ '\n' :: text))).At (('/' :: body) ++ '\n' :: text) :=
    h.getChar
  obtain ⟨s', hcomment, hat'⟩ := hat.readComment hbody'
  refine ⟨s', ?_, hat'⟩
  have hdigit : ctypeDigit '/' = false := rfl
  have hident : ctypeIdentStart '/' = false := rfl
  have hsymbol : ctypeSymbol '/' = false := rfl
  have hop : ctypeOp '/' = true := rfl
  have hhead : (s.getChar '/' ('/' :: (body ++ '\n' :: text))).is.head? = some '/' := by
    rw [is_getChar]
    rfl
  rw [← hat.is_eq] at hcomment
  simp only [Lexer.readStream, h.is_eq, hdigit, hident, hsymbol, hop, if_true, Bool.false_eq_true,
    if_false, hread, hhead, and_self, hcomment]

theorem readOnce_space (h : s.is = c :: text) (hc : ctypeWhitespace c = true) :
    s.readOnce = (s.getChar c text).readOnce := by
  have hskip : (s.getWhile ctypeWhitespace).2 =
      ((s.getChar c text).getWhile ctypeWhitespace).2 := by
    unfold Lexer.getWhile
    rw [h, is_getChar, readWhile, if_pos hc]
  unfold readOnce
  rw [hskip]

theorem getWhile_of_head {f : Char → Bool} (h : ∀ c ∈ s.is.head?, f c = false) :
    (s.getWhile f).2 = s := by
  unfold Lexer.getWhile
  cases his : s.is with
  | nil => rfl
  | cons c rest =>
      rw [his] at h
      rw [readWhile, h c rfl]
      rfl

theorem readOnce_queue {t : TokenData} {queue : List TokenData}
    (h : ∀ c ∈ s.is.head?, ctypeWhitespace c = false) (hqueue : s.tokenBuffer = t :: queue) :
    s.readOnce = .ok (some t, { s with tokenBuffer := queue }) := by
  simp only [readOnce, getWhile_of_head h, hqueue]

theorem readOnce_stream (h : ∀ c ∈ s.is.head?, ctypeWhitespace c = false)
    (hqueue : s.tokenBuffer = []) : s.readOnce = s.readStream := by
  simp only [readOnce, getWhile_of_head h, hqueue]

theorem readToken_congr {s' : Lexer} (h : s.readOnce = s'.readOnce) :
    s.readToken = s'.readToken := by
  cases honce : s'.readOnce with
  | error e => rw [readToken_of_error honce, readToken_of_error (h.trans honce)]
  | ok r =>
      obtain ⟨found, s₁⟩ := r
      cases found with
      | none => rw [readToken_of_comment honce, readToken_of_comment (h.trans honce)]
      | some t => rw [readToken_of_token honce, readToken_of_token (h.trans honce)]

end Tokens

end Lexer

/-! ## Written texts -/

theorem Spelled.head {t : TokenData} {piece : List Char} (h : Spelled t piece) :
    ∃ c rest, piece = c :: rest ∧ ctypeWhitespace c = false ∧ c ≠ '\x00' := by
  cases h with
  | identifier name hname =>
      cases hchars : name.toList with
      | nil =>
          rw [hchars] at hname
          cases hname
      | cons c rest =>
          rw [hchars] at hname
          refine ⟨c, rest, rfl, not_whitespace_of_identStart hname.1, ?_⟩
          rintro rfl
          cases hname.1
  | string text => exact ⟨'"', _, rfl, rfl, by decide⟩
  | integer value =>
      obtain ⟨c, rest, hdigits⟩ :=
        List.exists_cons_of_ne_nil (@Nat.toDigits_ne_nil value.toInt.toNat 10)
      have hc : ctypeDigit c = true := by
        apply Nat.isDigit_of_mem_toDigits (b := 10) (n := value.toInt.toNat) (by omega) (by omega)
        rw [hdigits]
        exact List.mem_cons_self
      refine ⟨c, rest, hdigits, not_whitespace_of_digit hc, ?_⟩
      rintro rfl
      cases hc
  | leftParens => exact ⟨'(', [], rfl, rfl, by decide⟩
  | rightParens => exact ⟨')', [], rfl, rfl, by decide⟩
  | symbol c hc =>
      refine ⟨c, [], rfl, ?_, ?_⟩
      · rcases symbol_cases hc with rfl | rfl | rfl | rfl | rfl <;> rfl
      · rintro rfl
        cases hc

theorem Spelled.ne {t : TokenData} {piece : List Char} (h : Spelled t piece) :
    t ≠ .invalid ∧ t ≠ .newLine ∧ t ≠ .endOfFile := by
  refine ⟨?_, ?_, ?_⟩
  all_goals
    rintro rfl
    cases h

theorem Written.head {tokens : List TokenData} {text : List Char} (h : Written tokens text) :
    '\x00' ∉ text.head? := by
  cases h with
  | done =>
      intro heq
      cases heq
  | space c hc =>
      intro heq
      cases heq
      cases hc
  | comment body hbody =>
      intro heq
      cases heq
  | token t piece ht =>
      obtain ⟨c, rest, hpiece, -, hc⟩ := ht.head
      rw [hpiece]
      intro heq
      cases heq
      exact hc rfl

/-- What one token leaves to be read. -/
inductive Leaves : List TokenData → TokenData → Lexer → Prop
  | newLine {tokens text s} (hs : Lexer.At s text) (h : Written tokens text) :
      Leaves tokens .newLine s
  | endOfFile {s} : Leaves [] .endOfFile s
  | token {tokens text s piece} {t : TokenData} (ht : Spelled t piece) (hs : Lexer.At s text)
      (h : Written tokens text) : Leaves (t :: tokens) t s

variable {tokens : List TokenData} {text : List Char} {s : Lexer}

/-- A newline that waits comes first. -/
theorem Lexer.At.leaves (hs : s.At text) (h : Written tokens text)
    (hhead : ∀ c ∈ text.head?, ctypeWhitespace c = false)
    (hstream : s.tokenBuffer = [] → ∃ t s', s.readToken = .ok (t, s') ∧ Leaves tokens t s') :
    ∃ t s', s.readToken = .ok (t, s') ∧ Leaves tokens t s' := by
  cases hqueue : s.tokenBuffer with
  | nil => exact hstream hqueue
  | cons t queue =>
      rw [← hs.is_eq] at hhead
      have ht : t = .newLine := hs.newLines t (by rw [hqueue]; exact List.mem_cons_self)
      have hleft : Lexer.At { s with tokenBuffer := queue } text := by
        constructor
        · exact hs.is_eq
        · intro t' ht'
          exact hs.newLines t' (by rw [hqueue]; exact List.mem_cons_of_mem t ht')
      refine ⟨t, _, Lexer.readToken_of_token (Lexer.readOnce_queue hhead hqueue), ?_⟩
      rw [ht]
      exact .newLine hleft h

theorem Written.readToken (h : Written tokens text) (hs : s.At text) :
    ∃ t s', s.readToken = .ok (t, s') ∧ Leaves tokens t s' := by
  induction h generalizing s with
  | done =>
      have hhead : ∀ c ∈ ([] : List Char).head?, ctypeWhitespace c = false := by
        intro c hc
        cases hc
      apply hs.leaves .done hhead
      intro hqueue
      have honce : s.readOnce = .ok (some .endOfFile, s) := by
        rw [Lexer.readOnce_stream (by rw [hs.is_eq]; exact hhead) hqueue]
        simp only [Lexer.readStream, hs.is_eq]
      exact ⟨_, _, Lexer.readToken_of_token honce, .endOfFile⟩
  | space c hc h ih =>
      rw [Lexer.readToken_congr (Lexer.readOnce_space hs.is_eq hc)]
      exact ih hs.getChar
  | comment body hbody h ih =>
      have hhead : ∀ {text : List Char}, ∀ c ∈ ('/' :: text).head?, ctypeWhitespace c = false := by
        intro text c hc
        cases hc
        rfl
      apply hs.leaves (.comment body hbody h) hhead
      intro hqueue
      obtain ⟨s', hstream, hs'⟩ := hs.readStream_comment hbody
      rw [← Lexer.readOnce_stream (by rw [hs.is_eq]; exact hhead) hqueue] at hstream
      rw [Lexer.readToken_of_comment hstream]
      exact ih hs'
  | token t piece ht hend h ih =>
      rename_i tokens text
      have hhead : ∀ c ∈ (piece ++ text).head?, ctypeWhitespace c = false := by
        obtain ⟨c, rest, hpiece, hc, -⟩ := ht.head
        rw [hpiece]
        intro d hd
        cases hd
        exact hc
      apply hs.leaves (.token t piece ht hend h) hhead
      intro hqueue
      obtain ⟨s', hstream, hs'⟩ := hs.readStream ht hend h.head
      rw [← Lexer.readOnce_stream (by rw [hs.is_eq]; exact hhead) hqueue] at hstream
      exact ⟨t, s', Lexer.readToken_of_token hstream, .token ht hs' h⟩

/-- The lexer gives the tokens that are written, with newlines between them. -/
theorem Written.lex (h : Written tokens text) (hs : s.At text) :
    ∃ read, s.lex = .ok read ∧ read.filter (· ≠ .newLine) = tokens ++ [.endOfFile] := by
  induction hsize : s.size using Nat.strong_induction_on generalizing s tokens text with
  | _ n ih =>
      obtain ⟨t, s', hread, hleft⟩ := h.readToken hs
      have hsmaller : t ≠ .endOfFile → s'.size < n :=
                fun ht => hsize ▸ Lexer.size_readToken hread ht
      cases hleft with
      | newLine hs' h' =>
          obtain ⟨read, hlex, hfilter⟩ := ih s'.size (hsmaller (by decide)) h' hs' rfl
          refine ⟨.newLine :: read, ?_, ?_⟩
          · rw [Lexer.lex_of_token hread (by decide) (by decide), hlex]
            rfl
          · rw [List.filter_cons_of_neg (by simp), hfilter]
      | endOfFile =>
          exact ⟨[.endOfFile], Lexer.lex_of_end hread, rfl⟩
      | token ht hs' h' =>
          obtain ⟨hvalid, hline, hend⟩ := ht.ne
          obtain ⟨read, hlex, hfilter⟩ := ih s'.size (hsmaller hend) h' hs' rfl
          refine ⟨t :: read, ?_, ?_⟩
          · rw [Lexer.lex_of_token hread hvalid hend, hlex]
            rfl
          · rw [List.filter_cons_of_pos (by simpa using hline), hfilter, List.cons_append]

end ArenaServ.EOPlus
