import ArenaServ.QuestParsing

/-!
# Writing a quest and reading it

Whatever space and comments there are between its tokens, a written quest is read as what it stands
for, but for the flags that say which states have a description: the parser never sets them.
-/

namespace ArenaServ.EOPlus

/-! ## Every script can be written -/

theorem ends_space (t : TokenData) (text : List Char) : Ends t (' ' :: text) := by
  cases t with
  | identifier name =>
      intro c hc
      cases hc
      rfl
  | integer value =>
      intro c hc
      cases hc
      rfl
  | _ => trivial

theorem written_of_spelled {tokens : List TokenData} (h : ∀ t ∈ tokens, ∃ piece, Spelled t piece) :
    ∃ text, Written tokens text := by
  induction tokens with
  | nil => exact ⟨[], .done⟩
  | cons t tokens ih =>
      obtain ⟨piece, hpiece⟩ := h t List.mem_cons_self
      obtain ⟨text, htext⟩ := ih fun t' ht' => h t' (List.mem_cons_of_mem t ht')
      exact ⟨piece ++ ' ' :: text,
        .token t piece hpiece (ends_space t text) (.space ' ' rfl htext)⟩

namespace Script

theorem Name.spelled (name : Name) : Spelled (.identifier name.text) name.text.toList := by
  apply Spelled.identifier _ name.isIdentifier
  · intro heq
    exact name.notReserved (by rw [heq]; decide)
  · intro heq
    exact name.notReserved (by rw [heq]; decide)

/-- Some way to write a token. -/
def Spellable (t : TokenData) : Prop := ∃ piece, Spelled t piece

theorem spellable_keyword {word : String} (h : word ∈ keywords)
    (hbool : word ≠ "true" ∧ word ≠ "false") : Spellable (.identifier word) := by
  have hidentifier : keywords.all (fun w => decide (IsIdentifier w.toList)) = true := by
    decide
  have hword := of_decide_eq_true (List.all_eq_true.1 hidentifier word h)
  exact ⟨_, .identifier word hword hbool.1 hbool.2⟩

theorem Name.spellable (name : Name) : Spellable (.identifier name.text) := ⟨_, name.spelled⟩

theorem spellable_symbol {c : Char} (h : ctypeSymbol c = true) : Spellable (.symbol c) :=
  ⟨_, .symbol c h⟩

theorem Arg.spellable (a : Arg) : Spellable a.token := by
  cases a with
  | int value hvalue => exact ⟨_, .integer value hvalue⟩
  | text s => exact ⟨_, .string s⟩

theorem spellable_args (args : List Arg) : ∀ t ∈ argTokens args, Spellable t := by
  have hparens : ∀ t ∈ [rightParens], Spellable t :=
    List.forall_mem_singleton.2 ⟨_, .rightParens⟩
  induction args with
  | nil => exact hparens
  | cons a rest ih =>
      cases rest with
      | nil => exact List.forall_mem_cons.2 ⟨a.spellable, hparens⟩
      | cons b rest =>
          exact List.forall_mem_cons.2 ⟨a.spellable,
            List.forall_mem_cons.2 ⟨spellable_symbol rfl, ih⟩⟩

theorem Expression.spellable (e : Expression) : ∀ t ∈ e.tokens, Spellable t := by
  cases e with
  | goto name =>
      exact List.forall_mem_cons.2 ⟨spellable_keyword (by decide) (by decide),
        List.forall_mem_singleton.2 name.spellable⟩
  | call name args =>
      exact List.forall_mem_cons.2 ⟨name.spellable,
        List.forall_mem_cons.2 ⟨⟨_, .leftParens⟩, spellable_args args⟩⟩

theorem spellable_entry {word : String} {expr act : Expression} (h : Spellable (.identifier word)) :
    ∀ t ∈ .identifier word :: (expr.tokens ++ act.tokens), Spellable t :=
  List.forall_mem_cons.2 ⟨h, List.forall_mem_append.2 ⟨expr.spellable, act.spellable⟩⟩

theorem Entry.spellable (e : Entry) : ∀ t ∈ e.tokens, Spellable t := by
  cases e with
  | semicolon => exact List.forall_mem_singleton.2 (spellable_symbol rfl)
  | rule => exact spellable_entry (spellable_keyword (by decide) (by decide))
  | goal => exact spellable_entry (spellable_keyword (by decide) (by decide))
  | condIf => exact spellable_entry (spellable_keyword (by decide) (by decide))
  | condElseIf => exact spellable_entry (spellable_keyword (by decide) (by decide))
  | action expr =>
      exact List.forall_mem_cons.2 ⟨spellable_keyword (by decide) (by decide), expr.spellable⟩
  | condElse expr =>
      exact List.forall_mem_cons.2 ⟨spellable_keyword (by decide) (by decide), expr.spellable⟩

theorem spellable_desc (desc : Option String) : ∀ t ∈ descTokens desc, Spellable t := by
  cases desc with
  | none => exact List.forall_mem_nil _
  | some desc =>
      exact List.forall_mem_cons.2 ⟨spellable_keyword (by decide) (by decide),
        List.forall_mem_singleton.2 ⟨_, .string desc⟩⟩

theorem spellable_flatMap {α : Type} {tokens : α → List TokenData}
    (h : ∀ a, ∀ t ∈ tokens a, Spellable t) (l : List α) : ∀ t ∈ l.flatMap tokens, Spellable t := by
  intro t ht
  obtain ⟨a, -, hta⟩ := List.mem_flatMap.1 ht
  exact h a t hta

theorem State.spellable (s : State) : ∀ t ∈ s.tokens, Spellable t := by
  have hhead : ∀ t ∈ [TokenData.identifier "state", .identifier s.name.text, .symbol '{'],
      Spellable t :=
    List.forall_mem_cons.2 ⟨spellable_keyword (by decide) (by decide),
      List.forall_mem_cons.2 ⟨s.name.spellable,
        List.forall_mem_singleton.2 (spellable_symbol rfl)⟩⟩
  have hclose : ∀ t ∈ [TokenData.symbol '}'], Spellable t :=
    List.forall_mem_singleton.2 (spellable_symbol rfl)
  unfold State.tokens
  simp only [List.forall_mem_append]
  exact ⟨⟨⟨⟨hhead, spellable_flatMap Entry.spellable s.entries⟩, spellable_desc s.desc⟩,
    spellable_flatMap Entry.spellable s.more⟩, hclose⟩

theorem spellable_half (m : UInt16) : Spellable (.integer (Int32.ofNat m.toNat)) := by
  have hlt := m.toNat_lt
  refine ⟨_, .integer _ ?_⟩
  rw [Int32.le_iff_toInt_le, Int32.toInt_ofNat_of_lt (by omega)]
  exact Int.natCast_nonneg _

theorem MainEntry.spellable (e : MainEntry) : ∀ t ∈ e.tokens, Spellable t := by
  have hkeyword : ∀ {word : String}, word ∈ keywords → word ≠ "true" ∧ word ≠ "false" →
      ∀ t ∈ [TokenData.identifier word], Spellable t :=
    fun h hbool => List.forall_mem_singleton.2 (spellable_keyword h hbool)
  cases e with
  | questname name =>
      exact List.forall_mem_cons.2 ⟨spellable_keyword (by decide) (by decide),
        List.forall_mem_singleton.2 ⟨_, .string name⟩⟩
  | version major minor =>
      cases minor with
      | none =>
          exact List.forall_mem_cons.2 ⟨spellable_keyword (by decide) (by decide),
            List.forall_mem_singleton.2 (spellable_half major)⟩
      | some minor =>
          exact List.forall_mem_cons.2 ⟨spellable_keyword (by decide) (by decide),
            List.forall_mem_cons.2 ⟨spellable_half major,
              List.forall_mem_cons.2 ⟨spellable_symbol rfl,
                List.forall_mem_singleton.2 (spellable_half minor)⟩⟩⟩
  | hidden => exact hkeyword (by decide) (by decide)
  | hiddenEnd => exact hkeyword (by decide) (by decide)
  | disabled => exact hkeyword (by decide) (by decide)

theorem Quest.spellable (q : Quest) : ∀ t ∈ q.tokens, Spellable t := by
  have hhead : ∀ t ∈ [TokenData.identifier "main", .symbol '{'], Spellable t :=
    List.forall_mem_cons.2 ⟨spellable_keyword (by decide) (by decide),
      List.forall_mem_singleton.2 (spellable_symbol rfl)⟩
  have hclose : ∀ t ∈ [TokenData.symbol '}'], Spellable t :=
    List.forall_mem_singleton.2 (spellable_symbol rfl)
  unfold Quest.tokens mainTokens
  simp only [List.forall_mem_append]
  exact ⟨⟨spellable_flatMap State.spellable q.states,
    ⟨hhead, spellable_flatMap MainEntry.spellable q.main⟩, hclose⟩,
    spellable_flatMap State.spellable q.more⟩

/-- There is a text for every script. -/
theorem Quest.exists_written (q : Quest) : ∃ text, Written q.tokens text :=
  written_of_spelled q.spellable

end Script

/-! ## Reading what is written -/

namespace Parser

def State.withoutFlag (s : State) : State := { s with hasDesc := false }

/-- A quest without the flags for the descriptions of its states. -/
def Quest.withoutFlags (q : Quest) : Quest := { q with states := q.states.map State.withoutFlag }

theorem insert_map (states : SortedMap String State) (name : String) (s : State) :
    (states.insert name s).map State.withoutFlag =
      (states.map State.withoutFlag).insert name s.withoutFlag := by
  apply SortedMap.ext
  intro key
  rw [SortedMap.find?_map, SortedMap.find?_insert, SortedMap.find?_insert, SortedMap.find?_map]
  split_ifs <;> rfl

theorem insertStates_map (l : List Script.State) (states : SortedMap String State) :
    insertStates (states.map State.withoutFlag) l =
      (l.foldl (fun states s => states.insert s.name.text s.ast) states).map State.withoutFlag := by
  induction l generalizing states with
  | nil => rfl
  | cons s l ih =>
      rw [List.foldl_cons, ← ih, insert_map]
      rfl

theorem parsedQuest_eq (q : Script.Quest) : parsedQuest q = q.ast.withoutFlags :=
  congrArg (Quest.mk true _) (insertStates_map q.allStates .empty)

theorem find?_foldl_of_ne {l : List Script.State} {states : SortedMap String State} {name : String}
    (h : ∀ s ∈ l, s.name.text ≠ name) :
    (l.foldl (fun states s => states.insert s.name.text s.ast) states).find? name =
      states.find? name := by
  induction l generalizing states with
  | nil => rfl
  | cons s l ih =>
      rw [List.foldl_cons, ih fun s' hs' => h s' (List.mem_cons_of_mem s hs'),
        SortedMap.find?_insert, if_neg (Ne.symm (h s List.mem_cons_self))]

/-- A state is found under its name. -/
theorem find?_ast {q : Script.Quest} {s : Script.State} (hs : s ∈ q.allStates) :
    q.ast.states.find? s.name.text = some s.ast := by
  obtain ⟨before, after, heq⟩ := List.append_of_mem hs
  have hnodup : (q.allStates.map fun s => s.name.text).Nodup := q.states_nodup
  rw [heq, List.map_append, List.map_cons] at hnodup
  have hafter := (List.nodup_cons.1 (List.nodup_append.1 hnodup).2.1).1
  have hstates : q.ast.states =
      q.allStates.foldl (fun states s => states.insert s.name.text s.ast) .empty := rfl
  rw [hstates, heq, List.foldl_append, List.foldl_cons, find?_foldl_of_ne,
    SortedMap.find?_insert, if_pos rfl]
  intro s' hs' hname
  exact hafter (hname ▸ List.mem_map_of_mem (f := fun s : Script.State => s.name.text) hs')

/-- Nothing is lost without the flags if and only if there is no description. -/
theorem withoutFlags_ast_iff (q : Script.Quest) :
    q.ast.withoutFlags = q.ast ↔ ∀ s ∈ q.allStates, s.desc = none := by
  constructor
  · intro h s hs
    have hfind : (q.ast.states.map State.withoutFlag).find? s.name.text = some s.ast := by
      rw [← find?_ast hs]
      exact congrArg (fun quest => quest.states.find? s.name.text) h
    rw [SortedMap.find?_map, find?_ast hs, Option.map_some, Option.some.injEq] at hfind
    have hflag : false = s.desc.isSome := congrArg State.hasDesc hfind
    exact Option.isNone_iff_eq_none.1 (by rw [← Option.not_isSome, ← hflag]; rfl)
  · intro h
    rw [← parsedQuest_eq]
    have hstates : ∀ (l : List Script.State) (states : SortedMap String State),
        (∀ s ∈ l, s.desc = none) →
        insertStates states l =
          l.foldl (fun states s => states.insert s.name.text s.ast) states := by
      intro l
      induction l with
      | nil => exact fun _ _ => rfl
      | cons s l ih =>
          intro states hl
          have hs : parsedState s = s.ast := by
            unfold parsedState Script.State.ast
            rw [hl s List.mem_cons_self]
            rfl
          rw [List.foldl_cons, ← ih _ fun s' hs' => hl s' (List.mem_cons_of_mem s hs'), ← hs]
          rfl
    exact congrArg (Quest.mk true _) (hstates q.allStates .empty h)

/-- A written quest is read. -/
theorem ofStream_of_written {q : Script.Quest} {text : List Char} (h : Written q.tokens text) :
    Quest.ofStream text = .ok (parsedQuest q) := by
  have hstart : (Lexer.start text).At text := ⟨rfl, fun _ ht => by cases ht⟩
  obtain ⟨read, hlex, hfilter⟩ := h.lex hstart
  have hview : (TokenServer.start read).view = (q.tokens ++ [.endOfFile]) ++ [] := by
    rw [List.append_nil, ← hfilter]
    unfold TokenServer.start TokenServer.view
    rw [List.nil_append, List.map_map]
    exact congrArg (List.filter _) (List.map_id read)
  obtain ⟨s', hparse, -⟩ := reads_parseGlobal q always _ [] hview trivial
  unfold Quest.ofStream
  rw [hlex]
  dsimp only
  rw [hparse]

/-- A written quest is read as what it stands for without the flags for descriptions, which is what
it stands for if and only if no state has a description. -/
theorem ofStream_written_iff {q : Script.Quest} {text : List Char} (h : Written q.tokens text) :
    Quest.ofStream text = .ok q.ast.withoutFlags ∧
      (Quest.ofStream text = .ok q.ast ↔ ∀ s ∈ q.allStates, s.desc = none) := by
  rw [ofStream_of_written h, parsedQuest_eq]
  refine ⟨rfl, ?_⟩
  constructor
  · intro hok
    exact (withoutFlags_ast_iff q).1 (Except.ok.inj hok)
  · intro hnone
    rw [(withoutFlags_ast_iff q).2 hnone]

/-! ## Two texts -/

/-- A quest with one state, which has this description or none. -/
def oneState (desc : Option String) : Script.Quest where
  states := []
  main := [.hidden]
  main_nodup := List.pairwise_singleton _ _
  more := [⟨⟨"begin", by decide, by decide⟩, [], desc, []⟩]
  states_nodup := List.pairwise_singleton _ _

theorem written_word {tokens : List TokenData} {text : List Char} (word : String)
    (hword : IsIdentifier word.toList) (hbool : word ≠ "true" ∧ word ≠ "false")
    (hend : text.head?.any ctypeIdent = false) (h : Written tokens text) :
    Written (.identifier word :: tokens) (word.toList ++ text) := by
  apply Written.token _ _ (.identifier word hword hbool.1 hbool.2) _ h
  intro c hc
  rwa [Option.mem_def.1 hc] at hend

theorem written_symbol {tokens : List TokenData} {text : List Char} (c : Char)
    (hc : ctypeSymbol c = true) (h : Written tokens text) :
    Written (.symbol c :: tokens) (c :: text) :=
  .token _ [c] (.symbol c hc) trivial h

def plainText : List Char := "main \x7bhidden\x7d // quest\nstate begin \x7b\x7d".toList

def describedText : List Char := "main\x7bhidden\x7dstate begin\x7bdesc \"Hi\"\x7d".toList

theorem written_oneState :
    Written (oneState none).tokens plainText := by
  apply written_word "main" (by decide) (by decide) (by decide)
  apply Written.space ' ' rfl
  apply written_symbol '{' rfl
  apply written_word "hidden" (by decide) (by decide) (by decide)
  apply written_symbol '}' rfl
  apply Written.space ' ' rfl
  apply Written.comment " quest".toList (by decide)
  apply written_word "state" (by decide) (by decide) (by decide)
  apply Written.space ' ' rfl
  apply written_word "begin" (by decide) (by decide) (by decide)
  apply Written.space ' ' rfl
  apply written_symbol '{' rfl
  apply written_symbol '}' rfl
  exact Written.done

theorem ofStream_written_iff_oneState :
    Quest.ofStream plainText = .ok (oneState none).ast.withoutFlags ∧
      (Quest.ofStream plainText = .ok (oneState none).ast ↔
        ∀ s ∈ (oneState none).allStates, s.desc = none) :=
  ofStream_written_iff written_oneState

theorem written_described :
    Written (oneState (some "Hi")).tokens describedText := by
  apply written_word "main" (by decide) (by decide) (by decide)
  apply written_symbol '{' rfl
  apply written_word "hidden" (by decide) (by decide) (by decide)
  apply written_symbol '}' rfl
  apply written_word "state" (by decide) (by decide) (by decide)
  apply Written.space ' ' rfl
  apply written_word "begin" (by decide) (by decide) (by decide)
  apply written_symbol '{' rfl
  apply written_word "desc" (by decide) (by decide) (by decide)
  apply Written.space ' ' rfl
  apply Written.token (.string "Hi") _ (.string "Hi") trivial
  apply written_symbol '}' rfl
  exact Written.done

/-- The state is read without the flag for its description. -/
theorem ofStream_ne_described :
    Written (oneState (some "Hi")).tokens describedText ∧
      Quest.ofStream describedText ≠ .ok (oneState (some "Hi")).ast := by
  refine ⟨written_described, ?_⟩
  rw [ofStream_of_written written_described, parsedQuest_eq]
  intro h
  have hnone := (withoutFlags_ast_iff (oneState (some "Hi"))).1 (Except.ok.inj h)
  cases hnone _ List.mem_cons_self

end Parser

end ArenaServ.EOPlus
