import ArenaServ.QuestFile

/-!
# The lexer of quest files

The stream is cut into tokens. A newline becomes a token of its own: it waits in a queue while
whitespace, a comment or a string is being read, and comes out before the token behind it.
-/

namespace ArenaServ.EOPlus

/-- `UOP2`, which gives each pair of operator characters its own value. -/
def uop2 (a b : Char) : UInt8 :=
  UInt8.ofNat a.toNat - (32 : UInt8) + UInt8.ofNat b.toNat <<< (2 : UInt8)

/-- The character that marks operators with two meanings. -/
def uopAlt : Char := '\x02'

/-- What a token is, with its data. The lexer makes no floats. -/
inductive TokenData where
  | invalid
  | identifier (name : String)
  | string (text : String)
  | integer (value : Int32)
  | boolean (value : Bool)
  | operator (op : UInt8)
  | symbol (c : Char)
  | newLine
  | endOfFile
  deriving DecidableEq, Repr

/-- `Token::TokenType`, a bit for each. -/
def TokenData.type : TokenData → ℕ
  | invalid => 0
  | identifier _ => 1
  | string _ => 2
  | integer _ => 4
  | boolean _ => 16
  | operator _ => 32
  | symbol _ => 64
  | newLine => 128
  | endOfFile => 256

structure LexerError where
  what : String
  row : ℕ
  col : ℕ
  deriving DecidableEq, Repr

/-- Why there are no tokens: an error, or a comment that the file ends in, which the lexer reads on
for ever. -/
inductive LexerFailure where
  | error (e : LexerError)
  | hangs
  deriving DecidableEq, Repr

def ctypeOp (c : Char) : Bool :=
  ['(', ')', '&', '|', '=', '!', '<', '>', '+', '-', '*', '/', '%', '&', '|', '!'].contains c

def ctypeSymbol (c : Char) : Bool := [';', '{', '}', '.', ','].contains c

/-- `std::isspace`. -/
def ctypeWhitespace (c : Char) : Bool := [' ', '\t', '\n', '\x0b', '\x0c', '\r'].contains c

def ctypeAlpha (c : Char) : Bool := c.isAlpha

def ctypeDigit (c : Char) : Bool := c.isDigit

def ctypeIdentStart (c : Char) : Bool := ctypeAlpha c || c == '_' || c == '$'

def ctypeIdent (c : Char) : Bool := c != '$' && (ctypeIdentStart c || ctypeDigit c)

def checkOp (a b : Char) : Bool :=
  if a = '(' ∨ a = ')' ∨ a = '+' then b = '\x00'
  else if a = '&' then b = '\x00' ∨ b = '&'
  else if a = '|' then b = '\x00' ∨ b = '|'
  else if a = '-' then b = '\x00' ∨ b = uopAlt
  else if a = '*' ∨ a = '/' ∨ a = '%' then b = '\x00'
  else if a = '<' ∨ a = '>' ∨ a = '!' then b = '\x00' ∨ b = '='
  else if a = '=' then b = '='
  else false

/-- The stream that is left, the position in it, and the newlines that wait. -/
structure Lexer where
  row : ℕ
  col : ℕ
  is : List Char
  tokenBuffer : List TokenData

namespace Lexer

def start (is : List Char) : Lexer := ⟨1, 0, is, []⟩

/-- `GetChar` at a stream that begins with a character. -/
def getChar (s : Lexer) (c : Char) (rest : List Char) : Lexer :=
  if c = '\n' then ⟨s.row + 1, 0, rest, s.tokenBuffer ++ [.newLine]⟩
  else ⟨s.row, s.col + 1, rest, s.tokenBuffer⟩

/-- `GetCharIf`, as often as it gives a character. The list is what is left of the stream. -/
def readWhile (f : Char → Bool) : List Char → Lexer → List Char × Lexer
  | [], s => ([], s)
  | c :: rest, s =>
      if f c then (c :: (readWhile f rest (s.getChar c rest)).1,
        (readWhile f rest (s.getChar c rest)).2)
      else ([], s)

def getWhile (f : Char → Bool) (s : Lexer) : List Char × Lexer := readWhile f s.is s

/-- One more digit. -/
def pushDigit (number : Int32) (c : Char) : Int32 :=
  (if number > Int32.maxValue / 10 then Int32.maxValue else number) * 10 +
    Int32.ofNat (c.toNat - '0'.toNat)

def readNumber (s : Lexer) : TokenData × Lexer :=
  match s.is with
  | [] => (.invalid, s)
  | c :: rest =>
      if ctypeDigit c then
        let digits := (s.getChar c rest).getWhile ctypeDigit
        (.integer (digits.1.foldl pushDigit (Int32.ofNat (c.toNat - '0'.toNat))), digits.2)
      else (.invalid, s)

/-- The loop of `ReadString`. Where the stream ends, the string ends. -/
def readStringLoop : List Char → Bool → Lexer → Except LexerError (List Char × Lexer)
  | [], _, s => .ok ([], s)
  | c :: rest, true, s =>
      (readStringLoop rest false (s.getChar c rest)).map fun r => (c :: r.1, r.2)
  | c :: rest, false, s =>
      if c = '\\' then readStringLoop rest true (s.getChar c rest)
      else if c = '"' then .ok ([], s.getChar c rest)
      else if c = '\n' then
        .error ⟨"Unterminated string on previous line", (s.getChar c rest).row,
          (s.getChar c rest).col⟩
      else (readStringLoop rest false (s.getChar c rest)).map fun r => (c :: r.1, r.2)

def readString (s : Lexer) : Except LexerError (TokenData × Lexer) :=
  match s.is with
  | [] => .ok (.invalid, s)
  | c :: rest =>
      if c = '"' then
        (readStringLoop rest false (s.getChar c rest)).map fun r =>
          (.string (String.ofList r.1), r.2)
      else .ok (.invalid, s)

def readIdentifier (s : Lexer) : TokenData × Lexer :=
  match s.is with
  | [] => (.invalid, s)
  | c :: rest =>
      if ctypeIdentStart c then
        let chars := (s.getChar c rest).getWhile ctypeIdent
        let name := Util.lowercase (String.ofList (c :: chars.1))
        (if name = "true" ∨ name = "false" then .boolean (name = "true") else .identifier name,
          chars.2)
      else (.invalid, s)

def readSymbol (s : Lexer) : TokenData × Lexer :=
  match s.is with
  | [] => (.invalid, s)
  | c :: rest => if ctypeSymbol c then (.symbol c, s.getChar c rest) else (.invalid, s)

/-- The operator of a first character and the character behind it, which is read with it where the
two are one operator. -/
def operatorOf (c : Char) (s : Lexer) : TokenData × Lexer :=
  match s.is with
  | [] => (if checkOp c '\x00' then .operator (uop2 c '\x00') else .invalid, s)
  | cc :: rest =>
      if checkOp c cc then
        (.operator (uop2 c cc), if ctypeOp cc then s.getChar cc rest else s)
      else (if checkOp c '\x00' then .operator (uop2 c '\x00') else .invalid, s)

def readOperator (s : Lexer) : TokenData × Lexer :=
  match s.is with
  | [] => (.invalid, s)
  | c :: rest => if ctypeOp c then operatorOf c (s.getChar c rest) else (.invalid, s)

/-- The loop over a comment. Without a newline it does not end. -/
def readComment : List Char → Lexer → Option Lexer
  | [], _ => none
  | c :: rest, s =>
      if c = '\n' then some (s.getChar c rest) else readComment rest (s.getChar c rest)

/-- A token that was read, unless it is invalid. -/
def checked (r : TokenData × Lexer) : Except LexerFailure (Option TokenData × Lexer) :=
  if r.1 = .invalid then .error (.error ⟨"Unknown token", r.2.row, r.2.col⟩)
  else .ok (some r.1, r.2)

/-- The part of `ReadToken` behind the queue. Without a token, a comment has been read. -/
def readStream (s : Lexer) : Except LexerFailure (Option TokenData × Lexer) :=
  match s.is with
  | [] => .ok (some .endOfFile, s)
  | c :: _ =>
      if ctypeDigit c then checked s.readNumber
      else if ctypeIdentStart c then checked s.readIdentifier
      else if ctypeSymbol c then checked s.readSymbol
      else if ctypeOp c then
        if s.readOperator.1 = .operator (uop2 '/' '\x00') ∧
            s.readOperator.2.is.head? = some '/' then
          match readComment s.readOperator.2.is s.readOperator.2 with
          | none => .error .hangs
          | some s' => .ok (none, s')
        else checked s.readOperator
      else if c = '"' then
        match s.readString with
        | .error e => .error (.error e)
        | .ok r => checked r
      else checked (.invalid, s)

/-- `ReadToken` up to the end of a comment. -/
def readOnce (s : Lexer) : Except LexerFailure (Option TokenData × Lexer) :=
  match (s.getWhile ctypeWhitespace).2.tokenBuffer with
  | t :: queue => .ok (some t, { (s.getWhile ctypeWhitespace).2 with tokenBuffer := queue })
  | [] => (s.getWhile ctypeWhitespace).2.readStream

/-! ## Reading ends -/

/-- A newline makes way for its token. -/
def size (s : Lexer) : ℕ := 2 * s.is.length + s.tokenBuffer.length

theorem is_getChar (s : Lexer) (c : Char) (rest : List Char) : (s.getChar c rest).is = rest := by
  unfold getChar
  split <;> rfl

theorem size_getChar (s : Lexer) (c : Char) (rest : List Char) (h : s.is = c :: rest) :
    (s.getChar c rest).size < s.size := by
  unfold size getChar
  rw [h, List.length_cons]
  split_ifs
  · dsimp only
    rw [List.length_append, List.length_singleton]
    omega
  · dsimp only
    omega

theorem size_readWhile {f : Char → Bool} {l : List Char} {s : Lexer} (h : s.is = l) :
    (readWhile f l s).2.size ≤ s.size := by
  induction l generalizing s with
  | nil => exact le_rfl
  | cons c rest ih =>
      rw [readWhile]
      split_ifs
      · exact (ih (is_getChar s c rest)).trans (size_getChar s c rest h).le
      · exact le_rfl

theorem size_getWhile (f : Char → Bool) (s : Lexer) : (s.getWhile f).2.size ≤ s.size :=
  size_readWhile rfl

/-- A reader takes nothing back, and a token takes something. -/
def Shrinks (s : Lexer) (r : TokenData × Lexer) : Prop :=
  r.2.size ≤ s.size ∧ (r.1 ≠ .invalid → r.2.size < s.size)

theorem shrinks_invalid (s : Lexer) : s.Shrinks (.invalid, s) := ⟨le_rfl, fun h => absurd rfl h⟩

theorem shrinks_of_lt {s : Lexer} {r : TokenData × Lexer} (h : r.2.size < s.size) : s.Shrinks r :=
  ⟨h.le, fun _ => h⟩

theorem shrinks_readNumber (s : Lexer) : s.Shrinks s.readNumber := by
  unfold readNumber
  split
  next => exact shrinks_invalid s
  next c rest h =>
      split_ifs
      · exact shrinks_of_lt ((size_getWhile _ _).trans_lt (size_getChar s c rest h))
      · exact shrinks_invalid s

theorem shrinks_readIdentifier (s : Lexer) : s.Shrinks s.readIdentifier := by
  unfold readIdentifier
  split
  next => exact shrinks_invalid s
  next c rest h =>
      split_ifs
      · exact shrinks_of_lt ((size_getWhile _ _).trans_lt (size_getChar s c rest h))
      · exact shrinks_invalid s

theorem shrinks_readSymbol (s : Lexer) : s.Shrinks s.readSymbol := by
  unfold readSymbol
  split
  next => exact shrinks_invalid s
  next c rest h =>
      split_ifs
      · exact shrinks_of_lt (size_getChar s c rest h)
      · exact shrinks_invalid s

theorem size_operatorOf (c : Char) (s : Lexer) : (operatorOf c s).2.size ≤ s.size := by
  unfold operatorOf
  split
  next => exact le_rfl
  next cc rest h =>
      by_cases hop : checkOp c cc = true
      · rw [if_pos hop]
        split_ifs
        · exact (size_getChar s cc rest h).le
        · exact le_rfl
      · rw [if_neg hop]

theorem shrinks_readOperator (s : Lexer) : s.Shrinks s.readOperator := by
  unfold readOperator
  split
  next => exact shrinks_invalid s
  next c rest h =>
      split_ifs
      · exact shrinks_of_lt ((size_operatorOf c _).trans_lt (size_getChar s c rest h))
      · exact shrinks_invalid s

theorem size_readStringLoop {l : List Char} {escape : Bool} {s : Lexer} {r : List Char × Lexer}
    (hl : s.is = l) (h : readStringLoop l escape s = .ok r) : r.2.size ≤ s.size := by
  induction l generalizing escape s r with
  | nil =>
      cases escape <;> cases h <;> exact le_rfl
  | cons c rest ih =>
      have hlt := size_getChar s c rest hl
      have hrest := is_getChar s c rest
      have hmore : ∀ {escape : Bool}, (readStringLoop rest escape (s.getChar c rest)).map
          (fun r => (c :: r.1, r.2)) = .ok r → r.2.size ≤ s.size := by
        intro escape h
        cases hloop : readStringLoop rest escape (s.getChar c rest) with
        | error e =>
            rw [hloop] at h
            cases h
        | ok r' =>
            rw [hloop] at h
            cases h
            exact (ih hrest hloop).trans hlt.le
      cases escape with
      | true => exact hmore h
      | false =>
          rw [readStringLoop] at h
          split_ifs at h
          · exact (ih hrest h).trans hlt.le
          · cases h
            exact hlt.le
          · exact hmore h

theorem shrinks_readString {s : Lexer} {r : TokenData × Lexer} (h : s.readString = .ok r) :
    s.Shrinks r := by
  unfold readString at h
  split at h
  next =>
      cases h
      exact shrinks_invalid s
  next c rest hs =>
      split_ifs at h
      · cases hloop : readStringLoop rest false (s.getChar c rest) with
        | error e =>
            rw [hloop] at h
            cases h
        | ok r' =>
            rw [hloop] at h
            cases h
            have hle := size_readStringLoop (is_getChar s c rest) hloop
            exact shrinks_of_lt (hle.trans_lt (size_getChar s c rest hs))
      · cases h
        exact shrinks_invalid s

theorem size_readComment {l : List Char} {s s' : Lexer} (hl : s.is = l)
    (h : readComment l s = some s') : s'.size < s.size := by
  induction l generalizing s with
  | nil => cases h
  | cons c rest ih =>
      have hlt := size_getChar s c rest hl
      rw [readComment] at h
      split_ifs at h
      · cases h
        exact hlt
      · exact (ih (is_getChar s c rest) h).trans hlt

/-- A comment or a token has taken something of the stream. -/
def Advances (s : Lexer) (r : Option TokenData × Lexer) : Prop :=
  r.2.size ≤ s.size ∧ (r.1 ≠ some .endOfFile → r.2.size < s.size)

theorem advances_checked {s : Lexer} {r : TokenData × Lexer} {r' : Option TokenData × Lexer}
    (hr : s.Shrinks r) (h : checked r = .ok r') : s.Advances r' := by
  unfold checked at h
  split_ifs at h with hvalid
  cases h
  exact ⟨hr.1, fun _ => hr.2 hvalid⟩

theorem advances_readStream {s : Lexer} {r : Option TokenData × Lexer}
    (h : s.readStream = .ok r) : s.Advances r := by
  unfold readStream at h
  split at h
  next =>
      cases h
      exact ⟨le_rfl, fun h => absurd rfl h⟩
  next =>
      split_ifs at h with _ _ _ _ hcomment
      · exact advances_checked (shrinks_readNumber s) h
      · exact advances_checked (shrinks_readIdentifier s) h
      · exact advances_checked (shrinks_readSymbol s) h
      · have hop : s.readOperator.2.size ≤ s.size := (shrinks_readOperator s).1
        split at h
        next => cases h
        next s' hread =>
            cases h
            have hlt := (size_readComment rfl hread).trans_le hop
            exact ⟨hlt.le, fun _ => hlt⟩
      · exact advances_checked (shrinks_readOperator s) h
      · split at h
        next => cases h
        next r' hread => exact advances_checked (shrinks_readString hread) h
      · exact advances_checked (shrinks_invalid s) h

theorem advances_readOnce {s : Lexer} {r : Option TokenData × Lexer} (h : s.readOnce = .ok r) :
    s.Advances r := by
  have hle := size_getWhile ctypeWhitespace s
  unfold readOnce at h
  split at h
  next t queue hqueue =>
      cases h
      have hlt : ({ (s.getWhile ctypeWhitespace).2 with tokenBuffer := queue } : Lexer).size <
          (s.getWhile ctypeWhitespace).2.size := by
        unfold size
        rw [hqueue, List.length_cons]
        exact Nat.lt_succ_self _
      exact ⟨(hlt.trans_le hle).le, fun _ => hlt.trans_le hle⟩
  next =>
      have hadv := advances_readStream h
      exact ⟨hadv.1.trans hle, fun hr => (hadv.2 hr).trans_le hle⟩

/-! ## The tokens of a stream -/

def readToken (s : Lexer) : Except LexerFailure (TokenData × Lexer) :=
  match _h : s.readOnce with
  | .error e => .error e
  | .ok (none, s') => readToken s'
  | .ok (some t, s') => .ok (t, s')
termination_by s.size
decreasing_by exact (advances_readOnce _h).2 (by simp)

theorem readToken_of_error {s : Lexer} {e : LexerFailure} (h : s.readOnce = .error e) :
    s.readToken = .error e := by
  rw [readToken]
  split <;> simp_all

theorem readToken_of_comment {s s' : Lexer} (h : s.readOnce = .ok (none, s')) :
    s.readToken = s'.readToken := by
  rw [readToken]
  split <;> simp_all

theorem readToken_of_token {s s' : Lexer} {t : TokenData} (h : s.readOnce = .ok (some t, s')) :
    s.readToken = .ok (t, s') := by
  rw [readToken]
  split <;> simp_all

theorem size_readToken {s s' : Lexer} {t : TokenData} (h : s.readToken = .ok (t, s'))
    (ht : t ≠ .endOfFile) : s'.size < s.size := by
  induction hsize : s.size using Nat.strong_induction_on generalizing s with
  | _ n ih =>
      cases honce : s.readOnce with
      | error e =>
          rw [readToken_of_error honce] at h
          cases h
      | ok r =>
          obtain ⟨found, s₁⟩ := r
          have hadv := advances_readOnce honce
          cases found with
          | none =>
              rw [readToken_of_comment honce] at h
              have hlt : s₁.size < n := hsize ▸ hadv.2 (by simp)
              exact (ih s₁.size hlt h rfl).trans hlt
          | some t' =>
              rw [readToken_of_token honce] at h
              cases h
              exact hsize ▸ hadv.2 fun hend => ht (Option.some.inj hend)

/-- `Lex`: the tokens up to the end of the file. -/
def lex (s : Lexer) : Except LexerFailure (List TokenData) :=
  match _h : s.readToken with
  | .error e => .error e
  | .ok (t, s') =>
      if _ht : t = .invalid ∨ t = .endOfFile then .ok [t]
      else (lex s').map (t :: ·)
termination_by s.size
decreasing_by exact size_readToken _h fun hend => _ht (Or.inr hend)

theorem lex_of_end {s s' : Lexer} (h : s.readToken = .ok (.endOfFile, s')) :
    s.lex = .ok [.endOfFile] := by
  rw [lex]
  split <;> simp_all

theorem lex_of_token {s s' : Lexer} {t : TokenData} (h : s.readToken = .ok (t, s'))
    (hvalid : t ≠ .invalid) (hend : t ≠ .endOfFile) : s.lex = s'.lex.map (t :: ·) := by
  rw [lex]
  split <;> simp_all

end Lexer

end ArenaServ.EOPlus
