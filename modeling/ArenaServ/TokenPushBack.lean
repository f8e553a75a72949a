import ArenaServ.QuestParser
import ArenaServ.RunSteps
import Mathlib.Data.List.TakeWhile

/-!
# Tokens that are put back

A token that is rejected or put back is pushed on a stack behind the newlines that were skipped in
front of it, and comes out before them. Against a reader that stays where it is until it delivers a
token, the server is right up to the first call for a token that such newlines wait behind.
-/

namespace ArenaServ.EOPlus

/-- `GetToken`, or `PutBack` of the token that it has just returned. -/
inductive TokenCall where
  | get (allow : ℕ)
  | putBack
  deriving DecidableEq, Repr

/-! ## A reader without a stack -/

/-- A place in the stream. -/
structure TokenReader where
  before : List TokenData
  ahead : List TokenData

namespace TokenReader

/-- A newline is on the line that it begins. -/
def line (r : TokenReader) : ℤ := 1 + r.before.count .newLine

def allows (allow : ℕ) (d : TokenData) : Bool := d.type &&& allow == d.type

/-- The newlines in front of the next token, unless they are asked for. -/
def skipped (allow : ℕ) (ahead : List TokenData) : List TokenData :=
  if allows allow .newLine then [] else ahead.takeWhile (· = .newLine)

def behind (allow : ℕ) (ahead : List TokenData) : List TokenData :=
  if allows allow .newLine then ahead else ahead.dropWhile (· = .newLine)

def pass (r : TokenReader) (tokens rest : List TokenData) : TokenReader :=
  ⟨r.before ++ tokens, rest⟩

end TokenReader

/-- What a reader gives, the line of the token if it is rejected, and where the reader is then. -/
structure TokenAnswer where
  token : Option TokenData
  rejectedAt : Option ℤ
  reader : TokenReader

namespace TokenReader

/-- The next token. At the end of the stream there is none. -/
def get (allow : ℕ) (r : TokenReader) : TokenAnswer :=
  match behind allow r.ahead with
  | [] => ⟨none, none, r.pass r.ahead []⟩
  | d :: rest =>
      if allows allow d then
        ⟨if d = .invalid then none else some d, none,
          r.pass (skipped allow r.ahead ++ [d]) rest⟩
      else ⟨none, some (r.pass (skipped allow r.ahead ++ [d]) rest).line, r⟩

end TokenReader

/-! ## The server and the reader side by side -/

/-- A server with its last answer, and a reader that is asked for the same. -/
structure TokenSession where
  server : TokenServer
  last : Option Token
  reader : TokenReader
  expected : Option TokenData
  /-- Where the reader was before the last token. -/
  undo : TokenReader
  /-- The line of the token that has just been rejected or put back. -/
  rejectedAt : Option ℤ

namespace TokenSession

def start (tokens : List TokenData) : TokenSession where
  server := TokenServer.start tokens
  last := none
  reader := ⟨[], tokens⟩
  expected := none
  undo := ⟨[], tokens⟩
  rejectedAt := none

def get (allow : ℕ) (w : TokenSession) : TokenSession where
  server := (w.server.getToken allow).2
  last := (w.server.getToken allow).1
  reader := (w.reader.get allow).reader
  expected := (w.reader.get allow).token
  undo := w.reader
  rejectedAt := (w.reader.get allow).rejectedAt

def putBack (t : Token) (w : TokenSession) : TokenSession where
  server := w.server.putBack t
  last := none
  reader := w.undo
  expected := none
  undo := w.undo
  rejectedAt := some w.reader.line

def step (w : TokenSession) : TokenCall → Option TokenSession
  | .get allow => some (w.get allow)
  | .putBack => w.last.map fun t => w.putBack t

/-- The server has delivered what the reader has, counts the newlines in front of the reader, and
knows the line of what was rejected. -/
def Agrees (w : TokenSession) : Prop :=
  w.last.map Token.data = w.expected ∧ w.server.line = w.reader.line ∧
    ∀ n ∈ w.rejectedAt, Parser.rejectLine w.server = n

/-- No token is asked for while newlines wait behind one that was put back. -/
def Unshifted (w : TokenSession) (call : TokenCall) : Prop :=
  call ≠ .putBack → w.server.tokenBuffer.length ≤ 1

end TokenSession

/-! ## Newlines that are skipped -/

namespace TokenReader

variable {allow : ℕ} {ahead : List TokenData}

theorem skipped_append_behind (allow : ℕ) (ahead : List TokenData) :
    skipped allow ahead ++ behind allow ahead = ahead := by
  unfold skipped behind
  split
  · rfl
  · exact List.takeWhile_append_dropWhile

theorem skipped_eq_replicate (allow : ℕ) (ahead : List TokenData) :
    skipped allow ahead = List.replicate (skipped allow ahead).length .newLine := by
  rw [List.eq_replicate_iff]
  refine ⟨rfl, ?_⟩
  intro d hd
  unfold skipped at hd
  split at hd
  · cases hd
  · have hline := List.mem_takeWhile_imp hd
    exact of_decide_eq_true hline

theorem line_pass (r : TokenReader) (n : ℕ) (d : TokenData) (rest : List TokenData) :
    (r.pass (List.replicate n .newLine ++ [d]) rest).line =
      r.line + n + if d = .newLine then 1 else 0 := by
  unfold line pass
  rw [List.count_append, List.count_append, List.count_replicate_self, List.count_singleton]
  by_cases hd : d = .newLine
  · rw [if_pos hd, hd, beq_self_eq_true, if_pos rfl]
    omega
  · rw [if_neg hd, beq_eq_false_iff_ne.2 hd, if_neg Bool.false_ne_true]
    omega

/-- Behind newlines that are skipped is a token that is none, if there are any. -/
theorem ne_newLine_of_behind {d : TokenData} {rest : List TokenData}
    (h : behind allow ahead = d :: rest) (hskip : (skipped allow ahead).length ≠ 0) :
    d ≠ .newLine := by
  unfold behind at h
  unfold skipped at hskip
  by_cases hallow : allows allow .newLine = true
  · rw [if_pos hallow] at hskip
    exact absurd rfl hskip
  · rw [if_neg hallow] at h
    have hhead := List.head_dropWhile_not (fun d => decide (d = TokenData.newLine)) (l := ahead)
      (by rw [h]; exact List.cons_ne_nil d rest)
    simp only [h, List.head_cons, decide_eq_false_iff_not] at hhead
    exact hhead

theorem skip_replicate (h : allows allow .newLine = false) (n : ℕ) {d : TokenData}
    (hd : d ≠ .newLine) (rest : List TokenData) :
    skipped allow (List.replicate n .newLine ++ d :: rest) = List.replicate n .newLine ∧
      behind allow (List.replicate n .newLine ++ d :: rest) = d :: rest := by
  have hall : ∀ c ∈ List.replicate n TokenData.newLine, decide (c = TokenData.newLine) = true :=
    fun c hc => decide_eq_true (List.eq_of_mem_replicate hc)
  have hnot : ¬decide (d = TokenData.newLine) = true := by simpa using hd
  unfold skipped behind
  rw [h, if_neg Bool.false_ne_true, if_neg Bool.false_ne_true, List.takeWhile_append_of_pos hall,
    List.dropWhile_append_of_pos hall,
    List.takeWhile_cons_of_neg (p := fun a => decide (a = TokenData.newLine)) hnot,
    List.dropWhile_cons_of_neg (p := fun a => decide (a = TokenData.newLine)) hnot,
    List.append_nil]
  exact ⟨rfl, rfl⟩

end TokenReader

namespace TokenServer

open TokenReader

variable {allow : ℕ}

theorem skipNewLines_map (allow : ℕ) (l : List Token) :
    (skipNewLines allow l).1 = (skipped allow (l.map Token.data)).length ∧
      (skipNewLines allow l).2.map Token.data = behind allow (l.map Token.data) := by
  have hiff : TokenData.newLine.type &&& allow ≠ TokenData.newLine.type ↔
      ¬allows allow .newLine = true := by
    unfold allows
    rw [beq_iff_eq]
  by_cases hallow : allows allow .newLine = true
  · have hstay : skipNewLines allow l = (0, l) := by
      cases l with
      | nil => rfl
      | cons t rest => rw [skipNewLines, if_neg fun h => hiff.1 h.2 hallow]
    rw [hstay, skipped, behind, if_pos hallow, if_pos hallow]
    exact ⟨rfl, rfl⟩
  · unfold skipped behind
    rw [if_neg hallow, if_neg hallow]
    induction l with
    | nil => exact ⟨rfl, rfl⟩
    | cons t rest ih =>
        rw [List.map_cons]
        by_cases ht : t.data = .newLine
        · rw [skipNewLines, if_pos ⟨ht, hiff.2 hallow⟩,
            List.takeWhile_cons_of_pos (by simpa using ht),
            List.dropWhile_cons_of_pos (by simpa using ht), List.length_cons, ih.1]
          exact ⟨rfl, ih.2⟩
        · rw [skipNewLines, if_neg fun h => ht h.1, List.takeWhile_cons_of_neg (by simpa using ht),
            List.dropWhile_cons_of_neg (by simpa using ht)]
          exact ⟨rfl, rfl⟩

/-- A token on the stack that nothing waits behind might as well be the first of the stream. -/
theorem getToken_of_short {s : TokenServer} (h : s.tokenBuffer.length ≤ 1) :
    s.getToken allow =
      { s with tokenBuffer := [], tokens := s.tokenBuffer ++ s.tokens }.getToken allow := by
  obtain ⟨buffer, tokens, line, token, reject⟩ := s
  match buffer, h with
  | [], _ => rfl
  | [t], _ =>
      unfold getToken
      rw [List.singleton_append]
      by_cases ht : t.data = .newLine ∧
          TokenData.newLine.type &&& allow ≠ TokenData.newLine.type
      · simp only [skipNewLines, if_pos ht]
        cases (skipNewLines allow tokens).2 with
        | nil => simp only [Nat.zero_add, Nat.add_comm]
        | cons u rest => simp only [Nat.zero_add, Nat.add_comm]
      · simp only [skipNewLines, if_neg ht, Nat.zero_add]

theorem getToken_nil {s : TokenServer} (hs : s.tokenBuffer = [])
    (h : (skipNewLines allow s.tokens).2 = []) :
    s.getToken allow =
      found allow (skipNewLines allow s.tokens).1 ⟨.invalid, 0⟩ { s with tokens := [] } := by
  unfold getToken
  rw [hs]
  simp only [skipNewLines, h, Nat.zero_add]

theorem getToken_cons {s : TokenServer} {t : Token} {rest : List Token} (hs : s.tokenBuffer = [])
    (h : (skipNewLines allow s.tokens).2 = t :: rest) :
    s.getToken allow =
      found allow (skipNewLines allow s.tokens).1 t { s with tokens := rest } := by
  unfold getToken
  rw [hs]
  simp only [skipNewLines, h, Nat.zero_add]

theorem allows_invalid (allow : ℕ) : allows allow .invalid = true := by
  unfold allows
  rw [beq_iff_eq]
  exact Nat.zero_and allow

theorem found_allowed {t : Token} (h : allows allow t.data = true) (n : ℕ) (s : TokenServer) :
    found allow n t s =
      (if t.data = .invalid then none else some ⟨t.data, n⟩,
        { s with line := s.line + n + if t.data = .newLine then 1 else 0 }) := by
  unfold allows at h
  rw [beq_iff_eq] at h
  rw [found, if_neg (not_not_intro h)]

theorem found_rejected {t : Token} (h : allows allow t.data = false) (n : ℕ) (s : TokenServer) :
    found allow n t s =
      (none, { s with line := s.line + n + if t.data = TokenData.newLine then 1 else 0 }.putBack
        ⟨t.data, n⟩) := by
  unfold allows at h
  rw [beq_eq_false_iff_ne] at h
  rw [found, if_pos h]

theorem line_putBack (s : TokenServer) (line : ℤ) (d : TokenData) (n : ℕ) :
    ({ s with line := line + n + if d = TokenData.newLine then 1 else 0 }.putBack ⟨d, n⟩).line =
      line := by
  change line + n + (if d = TokenData.newLine then 1 else 0) - n -
    (if d = TokenData.newLine then 1 else 0) = line
  omega

theorem rejectLine_putBack (s : TokenServer) (t : Token) :
    Parser.rejectLine (s.putBack t) = s.line := by
  change max (s.line - t.newlines - if t.data = .newLine then 1 else 0) s.line = s.line
  apply max_eq_right
  split <;> omega

end TokenServer

namespace TokenReader

variable {allow : ℕ} {r : TokenReader} {d : TokenData} {rest : List TokenData}

theorem get_nil (h : behind allow r.ahead = []) :
    r.get allow = ⟨none, none, r.pass r.ahead []⟩ := by
  unfold get
  rw [h]

theorem get_allowed (h : behind allow r.ahead = d :: rest) (hd : allows allow d = true) :
    r.get allow =
      ⟨if d = .invalid then none else some d, none,
        r.pass (skipped allow r.ahead ++ [d]) rest⟩ := by
  unfold get
  rw [h]
  exact if_pos hd

theorem get_rejected (h : behind allow r.ahead = d :: rest) (hd : allows allow d = false) :
    r.get allow = ⟨none, some (r.pass (skipped allow r.ahead ++ [d]) rest).line, r⟩ := by
  unfold get
  rw [h]
  exact if_neg (Bool.eq_false_iff.1 hd)

end TokenReader

/-! ## The invariant -/

namespace TokenSession

open TokenReader TokenServer

/-- The server and the reader are at the same place, but for newlines that wait behind a token. -/
structure InStep (w : TokenSession) : Prop where
  line_eq : w.server.line = w.reader.line
  place : (w.server.tokenBuffer.length ≤ 1 ∧
      (w.server.tokenBuffer ++ w.server.tokens).map Token.data = w.reader.ahead) ∨
    ∃ t k, w.server.tokenBuffer = t :: List.replicate (k + 1) ⟨.newLine, 0⟩ ∧
      t.data ≠ .newLine ∧
      w.reader.ahead = List.replicate (k + 1) .newLine ++ t.data :: w.server.tokens.map Token.data
  undone : ∀ t ∈ w.last, w.server.tokenBuffer = [] ∧
    w.reader = w.undo.pass (List.replicate t.newlines .newLine ++ [t.data]) w.reader.ahead ∧
    w.undo.ahead = List.replicate t.newlines .newLine ++ t.data :: w.reader.ahead ∧
    (t.newlines ≠ 0 → t.data ≠ .newLine)

theorem inStep_start (tokens : List TokenData) : (start tokens).InStep where
  line_eq := rfl
  place := by
    left
    refine ⟨Nat.zero_le _, ?_⟩
    change (tokens.map fun d => (⟨d, 0⟩ : Token)).map Token.data = tokens
    rw [List.map_map]
    exact List.map_id tokens
  undone := by
    intro t ht
    cases ht

theorem agrees_start (tokens : List TokenData) : (start tokens).Agrees :=
  ⟨rfl, rfl, fun _ hn => nomatch hn⟩

theorem tokens_of_empty {w : TokenSession} (h : w.InStep) (hbuffer : w.server.tokenBuffer = []) :
    w.server.tokens.map Token.data = w.reader.ahead := by
  rcases h.place with ⟨-, htokens⟩ | ⟨t, k, hshifted, -⟩
  · rw [hbuffer] at htokens
    exact htokens
  · rw [hbuffer] at hshifted
    cases hshifted

/-- The token that was delivered last is put back in front of what the reader goes back to. -/
theorem inStep_putBack {w : TokenSession} (h : w.InStep) {t : Token} (ht : t ∈ w.last) :
    (w.putBack t).InStep := by
  obtain ⟨hbuffer, hreader, hahead, hne⟩ := h.undone t ht
  have htokens := tokens_of_empty h hbuffer
  have hline : w.reader.line = w.undo.line + t.newlines + if t.data = .newLine then 1 else 0 := by
    rw [hreader]
    exact line_pass w.undo t.newlines t.data w.reader.ahead
  have hstack : (w.putBack t).server.tokenBuffer =
      t :: List.replicate t.newlines ⟨.newLine, 0⟩ := by
    change t :: List.replicate t.newlines ⟨.newLine, 0⟩ ++ w.server.tokenBuffer = _
    rw [hbuffer, List.append_nil]
  constructor
  · change w.server.line - t.newlines - (if t.data = .newLine then 1 else 0) = w.undo.line
    rw [h.line_eq, hline]
    omega
  · rw [hstack]
    cases hn : t.newlines with
    | zero =>
        left
        refine ⟨le_rfl, ?_⟩
        change t.data :: w.server.tokens.map Token.data = w.undo.ahead
        rw [hahead, htokens, hn]
        rfl
    | succ k =>
        right
        refine ⟨t, k, rfl, hne (by omega), ?_⟩
        change w.undo.ahead = _ ++ t.data :: w.server.tokens.map Token.data
        rw [hahead, htokens, hn]
  · intro u hu
    cases hu

theorem agrees_putBack {w : TokenSession} (h : w.InStep) {t : Token} (ht : t ∈ w.last) :
    (w.putBack t).Agrees := by
  refine ⟨rfl, (inStep_putBack h ht).line_eq, ?_⟩
  intro n hn
  cases hn
  change Parser.rejectLine (w.server.putBack t) = w.reader.line
  rw [rejectLine_putBack, h.line_eq]

theorem get_eq {w : TokenSession} {allow : ℕ} {last : Option Token} {server : TokenServer}
    {answer : TokenAnswer} (hserver : w.server.getToken allow = (last, server))
    (hreader : w.reader.get allow = answer) :
    w.get allow =
      ⟨server, last, answer.reader, answer.token, w.reader, answer.rejectedAt⟩ := by
  unfold get
  rw [hserver, hreader]

section Empty
variable {w : TokenSession} {allow : ℕ} (hbuffer : w.server.tokenBuffer = [])
  (hline : w.server.line = w.reader.line)
  (htokens : w.server.tokens.map Token.data = w.reader.ahead)

include htokens in
theorem skipped_of_empty : skipped allow w.reader.ahead =
    List.replicate (skipNewLines allow w.server.tokens).1 .newLine := by
  rw [(skipNewLines_map allow w.server.tokens).1, htokens]
  exact skipped_eq_replicate allow w.reader.ahead

include hbuffer hline htokens

theorem get_of_ended (h : (skipNewLines allow w.server.tokens).2 = []) :
    (w.get allow).InStep ∧ (w.get allow).Agrees := by
  have hbehind := (skipNewLines_map allow w.server.tokens).2
  rw [htokens, h, List.map_nil] at hbehind
  have hall := skipped_append_behind allow w.reader.ahead
  rw [← hbehind, List.append_nil, skipped_of_empty htokens] at hall
  have hserver := getToken_nil hbuffer h
  rw [found_allowed (allows_invalid allow), if_pos rfl] at hserver
  rw [get_eq hserver (get_nil hbehind.symm)]
  have hcount : w.server.line + (skipNewLines allow w.server.tokens).1 + 0 =
      (w.reader.pass w.reader.ahead []).line := by
    rw [← hall, hline]
    unfold TokenReader.line TokenReader.pass
    rw [List.count_append, List.count_replicate_self]
    omega
  refine ⟨⟨hcount, ?_, ?_⟩, rfl, hcount, ?_⟩
  · left
    change w.server.tokenBuffer.length ≤ 1 ∧ (w.server.tokenBuffer ++ []).map Token.data = []
    rw [hbuffer]
    exact ⟨Nat.zero_le 1, rfl⟩
  · intro u hu
    cases hu
  · intro n hn
    cases hn

theorem get_of_found {t : Token} {rest : List Token}
    (h : (skipNewLines allow w.server.tokens).2 = t :: rest) :
    (w.get allow).InStep ∧ (w.get allow).Agrees := by
  have hskipped : skipped allow w.reader.ahead =
      List.replicate (skipNewLines allow w.server.tokens).1 .newLine := skipped_of_empty htokens
  have hbehind := (skipNewLines_map allow w.server.tokens).2
  rw [htokens, h, List.map_cons] at hbehind
  have hall := skipped_append_behind allow w.reader.ahead
  rw [← hbehind, hskipped] at hall
  have hne : (skipNewLines allow w.server.tokens).1 ≠ 0 → t.data ≠ .newLine := by
    intro hn
    apply ne_newLine_of_behind hbehind.symm
    rw [hskipped, List.length_replicate]
    exact hn
  have hpass := line_pass w.reader (skipNewLines allow w.server.tokens).1 t.data
    (rest.map Token.data)
  have hserver := getToken_cons hbuffer h
  cases hallow : allows allow t.data with
  | true =>
      have hreader := get_allowed hbehind.symm hallow
      rw [found_allowed hallow] at hserver
      rw [hskipped] at hreader
      rw [get_eq hserver hreader]
      have hcount := hpass.symm
      rw [← hline] at hcount
      refine ⟨⟨hcount, ?_, ?_⟩, ?_, hcount, ?_⟩
      · left
        change w.server.tokenBuffer.length ≤ 1 ∧
          (w.server.tokenBuffer ++ rest).map Token.data = rest.map Token.data
        rw [hbuffer]
        exact ⟨Nat.zero_le 1, rfl⟩
      · intro u hu
        change u ∈ (if t.data = .invalid then none else some _) at hu
        split at hu
        · cases hu
        · cases hu
          exact ⟨hbuffer, rfl, hall.symm, hne⟩
      · change Option.map Token.data (if t.data = .invalid then none else some _) = _
        split <;> rfl
      · intro n hn
        cases hn
  | false =>
      have hreader := get_rejected hbehind.symm hallow
      rw [found_rejected hallow] at hserver
      rw [hskipped] at hreader
      rw [get_eq hserver hreader]
      have hcount := line_putBack { w.server with tokens := rest } w.server.line t.data
        (skipNewLines allow w.server.tokens).1
      have hstack : ∀ n, (⟨t.data, n⟩ :: List.replicate n ⟨.newLine, 0⟩ ++ w.server.tokenBuffer :
          List Token) = ⟨t.data, n⟩ :: List.replicate n ⟨.newLine, 0⟩ := by
        intro n
        rw [hbuffer, List.append_nil]
      refine ⟨⟨hcount.trans hline, ?_, ?_⟩, rfl, hcount.trans hline, ?_⟩
      · cases hn : (skipNewLines allow w.server.tokens).1 with
        | zero =>
            left
            change (⟨t.data, 0⟩ :: List.replicate 0 ⟨.newLine, 0⟩ ++ w.server.tokenBuffer :
                List Token).length ≤ 1 ∧
              ((⟨t.data, 0⟩ :: List.replicate 0 ⟨.newLine, 0⟩ ++ w.server.tokenBuffer :
                List Token) ++ rest).map Token.data = w.reader.ahead
            rw [hstack, ← hall, hn]
            exact ⟨le_rfl, rfl⟩
        | succ k =>
            right
            rw [hn] at hne hall
            exact ⟨⟨t.data, k + 1⟩, k, hstack (k + 1), hne (by omega), hall.symm⟩
      · intro u hu
        cases hu
      · intro n hn
        cases hn
        rw [rejectLine_putBack, hpass, hline]

end Empty

/-- Asked over a stack that newlines wait on, the server gives or rejects the token too early. -/
theorem not_agrees_get {w : TokenSession} (h : w.InStep)
    (hshifted : ¬w.server.tokenBuffer.length ≤ 1) (allow : ℕ) : ¬(w.get allow).Agrees := by
  rcases h.place with ⟨hshort, -⟩ | ⟨t, k, hbuffer, ht, hahead⟩
  · exact absurd hshort hshifted
  · have hserver : w.server.getToken allow =
        found allow 0 t { w.server with tokenBuffer := List.replicate (k + 1) ⟨.newLine, 0⟩ } := by
      unfold getToken
      rw [hbuffer]
      simp only [skipNewLines, if_neg fun hline : t.data = .newLine ∧ _ => ht hline.1]
    rintro ⟨hlast, hline, hreject⟩
    cases hnewLine : allows allow .newLine with
    | true =>
        have hbehind : behind allow w.reader.ahead = .newLine ::
            (List.replicate k .newLine ++ t.data :: w.server.tokens.map Token.data) := by
          unfold behind
          rw [if_pos hnewLine, hahead]
          rfl
        change Option.map Token.data (w.server.getToken allow).1 = (w.reader.get allow).token
          at hlast
        rw [hserver, get_allowed hbehind hnewLine] at hlast
        cases hallow : allows allow t.data with
        | true =>
            rw [found_allowed hallow] at hlast
            dsimp only at hlast
            split at hlast
            · cases hlast
            · exact ht (Option.some.inj hlast)
        | false =>
            rw [found_rejected hallow] at hlast
            cases hlast
    | false =>
        obtain ⟨hskipped, hbehind⟩ := skip_replicate hnewLine (k + 1) ht
          (w.server.tokens.map Token.data)
        rw [← hahead] at hskipped hbehind
        have hpass := line_pass w.reader (k + 1) t.data (w.server.tokens.map Token.data)
        rw [if_neg ht] at hpass
        cases hallow : allows allow t.data with
        | true =>
            change (w.server.getToken allow).2.line = (w.reader.get allow).reader.line at hline
            rw [hserver, found_allowed hallow, get_allowed hbehind hallow, hskipped] at hline
            dsimp only at hline
            rw [hpass, if_neg ht, h.line_eq] at hline
            omega
        | false =>
            change ∀ n ∈ (w.reader.get allow).rejectedAt,
              Parser.rejectLine (w.server.getToken allow).2 = n at hreject
            rw [hserver, found_rejected hallow, get_rejected hbehind hallow, hskipped] at hreject
            have hn := hreject _ rfl
            rw [rejectLine_putBack, hpass] at hn
            dsimp only at hn
            rw [if_neg ht, h.line_eq] at hn
            omega

theorem get_of_short {w : TokenSession} (h : w.InStep) (hshort : w.server.tokenBuffer.length ≤ 1)
    (allow : ℕ) : (w.get allow).InStep ∧ (w.get allow).Agrees := by
  rcases h.place with ⟨-, htokens⟩ | ⟨t, k, hbuffer, -⟩
  · let w' : TokenSession :=
      { w with
        server :=
          { w.server with tokenBuffer := [], tokens := w.server.tokenBuffer ++ w.server.tokens } }
    have hsame : w.get allow = w'.get allow := by
      unfold get
      rw [getToken_of_short hshort]
    rw [hsame]
    cases hrest : (skipNewLines allow w'.server.tokens).2 with
    | nil => exact get_of_ended (w := w') rfl h.line_eq htokens hrest
    | cons t rest => exact get_of_found (w := w') rfl h.line_eq htokens hrest
  · rw [hbuffer, List.length_cons, List.length_replicate] at hshort
    omega

/-- One call keeps the two in step where nothing is shifted, and tells them apart where it is. -/
theorem agrees_step_iff {w : TokenSession} (h : w.InStep) (call : TokenCall) :
    (∀ w' ∈ w.step call, w'.Agrees) ↔ w.Unshifted call := by
  cases call with
  | get allow =>
      constructor
      · intro hagrees _
        by_contra hshifted
        exact not_agrees_get h hshifted allow (hagrees _ rfl)
      · intro hshort w' hw'
        cases hw'
        exact (get_of_short h (hshort (by simp)) allow).2
  | putBack =>
      apply iff_of_true
      · intro w' hw'
        obtain ⟨t, ht, rfl⟩ := Option.map_eq_some_iff.1 hw'
        exact agrees_putBack h ht
      · exact fun hne => absurd rfl hne

theorem inStep_step {w w' : TokenSession} {call : TokenCall} (h : w.InStep)
    (hunshifted : w.Unshifted call) (hstep : w.step call = some w') : w'.InStep := by
  cases call with
  | get allow =>
      cases hstep
      exact (get_of_short h (hunshifted (by simp)) allow).1
  | putBack =>
      obtain ⟨t, ht, rfl⟩ := Option.map_eq_some_iff.1 hstep
      exact inStep_putBack h ht

/-- The server agrees with the reader in every state of a run exactly where no token is asked for
while newlines wait behind one that was put back. -/
theorem transparent_iff (tokens : List TokenData) (calls : List TokenCall) :
    (∀ w, RunSteps.Reaches step (start tokens) calls w → w.Agrees) ↔
      RunSteps.Every step Unshifted (start tokens) calls := by
  rw [RunSteps.forall_reaches_iff, and_iff_right (agrees_start tokens)]
  apply RunSteps.every_iff InStep
  · exact fun w call h => agrees_step_iff h call
  · exact fun w call w' h hunshifted hstep => inStep_step h hunshifted hstep
  · exact inStep_start tokens

/-- A name on the second line is rejected twice. The second time it is said to be on the first. -/
theorem not_transparent_rejected :
    ∃ w, RunSteps.Reaches step (start [.newLine, .identifier "rule"])
        [.get Parser.string, .get Parser.string] w ∧
      w.rejectedAt = some 2 ∧ Parser.rejectLine w.server = 1 ∧ ¬w.Agrees := by
  refine ⟨((start [.newLine, .identifier "rule"]).get Parser.string).get Parser.string,
    Or.inr ⟨_, rfl, Or.inr ⟨_, rfl, rfl⟩⟩, rfl, rfl, ?_⟩
  rintro ⟨-, -, hreject⟩
  exact absurd (hreject 2 rfl) (by decide)

end TokenSession

end ArenaServ.EOPlus
