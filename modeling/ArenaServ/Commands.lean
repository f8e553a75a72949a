import Mathlib.Data.List.Lex
import Mathlib.Data.List.Nodup
import ArenaServ.SortedMap
import ArenaServ.TextUtil

/-!
# Commands

A command is found by its name, through aliases, or by an abbreviation that only one of the
commands that the source may use has. What has been run is put down in the audit.
-/

namespace ArenaServ

/-- `AdminLevel`, a byte. -/
abbrev AdminLevel := UInt8

namespace AdminLevel

def hgm : AdminLevel := 4

end AdminLevel

structure CommandInfo where
  name : List Char
  arguments : List (List Char)
  partialMinChars : ℕ
  requireCharacter : Bool
  dutyRestrict : Bool
  deriving DecidableEq

structure CommandRegister where
  handlers : SortedMap (List Char) CommandInfo
  aliases : SortedMap (List Char) (List Char)
  /-- A handler is under its name. -/
  named : ∀ e ∈ handlers.entries, e.2.name = e.1

/-- Who gives a command. -/
structure CommandSource where
  access : AdminLevel
  dutyAccess : AdminLevel
  name : List Char
  isCharacter : Bool
  deriving DecidableEq

/-- `System_Command_Source`. -/
def CommandSource.system : CommandSource :=
  ⟨AdminLevel.hgm, AdminLevel.hgm, "server".toList, false⟩

inductive CommandMessage where
  | unknownCommand
  | commandNotEnoughArguments
  deriving DecidableEq

/-- What comes of a command: it is run, or the source is told something, or nothing. -/
inductive CommandOutcome where
  | executed (info : CommandInfo)
  | refused (message : Option CommandMessage)
  deriving DecidableEq

namespace CommandRegister

def empty : CommandRegister := ⟨.empty, .empty, nofun⟩

/-- What `Register` makes of a number of characters. -/
def partialMin (info : CommandInfo) : ℕ :=
  if info.partialMinChars < 1 then 1
  else if info.name.length < info.partialMinChars then info.name.length
  else info.partialMinChars

/-- `Register`, which leaves a command alone that is there. -/
def register (r : CommandRegister) (info : CommandInfo) (dutyRestrict : Bool) : CommandRegister where
  handlers := r.handlers.insertNew info.name
    { info with
      partialMinChars := partialMin info
      dutyRestrict := info.dutyRestrict || dutyRestrict }
  aliases := r.aliases
  named := fun e he => by
    unfold SortedMap.insertNew at he
    split_ifs at he
    · exact r.named e he
    · rcases SortedMap.eq_or_mem_of_mem_insert he with rfl | he
      · rfl
      · exact r.named e he

def registerAlias (r : CommandRegister) (short command : List Char) : CommandRegister :=
  { r with aliases := r.aliases.insertNew short command }

end CommandRegister

/-- A command as it is given: by whom, with what arguments, and what the configuration asks for. -/
structure CommandCall where
  adminConfig : List Char → Option Int32
  source : CommandSource
  arguments : List (List Char)

namespace CommandCall

variable (call : CommandCall)

def adminReq (name : List Char) : AdminLevel :=
  match call.adminConfig name with
  | some level => UInt8.ofInt level.toInt
  | none => AdminLevel.hgm

/-- The source may use the command. -/
def allowed (info : CommandInfo) : Bool :=
  let access := if info.dutyRestrict then call.source.dutyAccess else call.source.access
  !(access < call.adminReq info.name || (info.requireCharacter && !call.source.isCharacter))

def enough (info : CommandInfo) : Bool := info.arguments.length ≤ call.arguments.length

/-- The command is a proper beginning of the name, and long enough. -/
def abbreviates (command : List Char) (info : CommandInfo) : Bool :=
  !(command.length < info.partialMinChars || command.length ≥ info.name.length) &&
    (let front := info.name.take (max command.length info.partialMinChars)
     command.take front.length = front)

/-- The loop over the handlers, with the match so far. -/
def findMatch (command : List Char) : Option CommandInfo → List (List Char × CommandInfo) →
    CommandOutcome
  | none, [] => .refused (some .unknownCommand)
  | some info, [] =>
      if call.enough info then .executed info else .refused (some .commandNotEnoughArguments)
  | found, (_, info) :: rest =>
      if abbreviates command info then
        if call.allowed info then
          if found.isSome then .refused (some .unknownCommand)
          else findMatch command (some info) rest
        else findMatch command found rest
      else findMatch command found rest

/-- `Handle`, with how many aliases it may still follow. -/
def handleFrom (r : CommandRegister) : ℕ → List Char → CommandOutcome
  | 0, command => .refused (if command = [] then some .unknownCommand else none)
  | depth + 1, command =>
      if command = [] then .refused (some .unknownCommand)
      else
        match (r.handlers.find? command).filter call.enough with
        | some info =>
            if call.allowed info then .executed info else .refused (some .unknownCommand)
        | none =>
            match r.aliases.find? command with
            | some command => handleFrom r depth command
            | none => call.findMatch command none r.handlers.entries

def handle (r : CommandRegister) (command : List Char) : CommandOutcome :=
  call.handleFrom r 101 command

end CommandCall

/-! ## What is run -/

namespace CommandCall

variable {call : CommandCall} {r : CommandRegister} {command : List Char} {info : CommandInfo}

theorem abbreviates_iff : abbreviates command info = true ↔
    info.partialMinChars ≤ command.length ∧ command.length < info.name.length ∧
      command <+: info.name := by
  rw [abbreviates, Bool.and_eq_true, Bool.not_eq_true', Bool.or_eq_false_iff,
    decide_eq_false_iff_not, decide_eq_false_iff_not, Nat.not_lt, ge_iff_le, Nat.not_le,
    decide_eq_true_eq, and_assoc]
  refine and_congr_right fun hmin => and_congr_right fun hlt => ?_
  rw [Nat.max_eq_left hmin, List.length_take, Nat.min_eq_left hlt.le, List.take_length,
    List.prefix_iff_eq_take]

/-- What the source may use of what the command abbreviates. -/
def candidates (call : CommandCall) (command : List Char)
    (handlers : List (List Char × CommandInfo)) : List CommandInfo :=
  (handlers.map Prod.snd).filter fun info => abbreviates command info && call.allowed info

/-- What comes of the matches. -/
def pick (call : CommandCall) : List CommandInfo → CommandOutcome
  | [] => .refused (some .unknownCommand)
  | [info] => if call.enough info then .executed info else .refused (some .commandNotEnoughArguments)
  | _ :: _ :: _ => .refused (some .unknownCommand)

theorem findMatch_eq (found : Option CommandInfo) (handlers : List (List Char × CommandInfo)) :
    call.findMatch command found handlers =
      call.pick (found.toList ++ call.candidates command handlers) := by
  induction handlers generalizing found with
  | nil => cases found <;> rfl
  | cons entry rest ih =>
      have hcons : call.candidates command (entry :: rest) =
          if abbreviates command entry.2 && call.allowed entry.2 then
            entry.2 :: call.candidates command rest else call.candidates command rest :=
        List.filter_cons
      rw [findMatch, hcons]
      by_cases habb : abbreviates command entry.2 = true
      · by_cases hallowed : call.allowed entry.2 = true
        · have hboth : (abbreviates command entry.2 && call.allowed entry.2) = true :=
            Bool.and_eq_true_iff.mpr ⟨habb, hallowed⟩
          rw [if_pos habb, if_pos hallowed, if_pos hboth]
          cases found with
          | none => exact ih (some entry.2)
          | some info => rfl
        · rw [if_pos habb, if_neg hallowed, ih,
            if_neg fun h => hallowed (Bool.and_eq_true_iff.mp h).2]
      · rw [if_neg habb, ih, if_neg fun h => habb (Bool.and_eq_true_iff.mp h).1]

/-- A command that the source may use under a beginning of its name. -/
structure Abbreviates (call : CommandCall) (r : CommandRegister) (command : List Char)
    (info : CommandInfo) : Prop where
  registered : r.handlers.find? info.name = some info
  long : info.partialMinChars ≤ command.length
  short : command.length < info.name.length
  isPrefix : command <+: info.name
  allowed : call.allowed info = true

theorem mem_candidates_iff :
    info ∈ call.candidates command r.handlers.entries ↔ call.Abbreviates r command info := by
  rw [candidates, List.mem_filter, Bool.and_eq_true, abbreviates_iff, List.mem_map]
  constructor
  · rintro ⟨⟨⟨name, _⟩, hmem, rfl⟩, ⟨hlong, hshort, hprefix⟩, hallowed⟩
    have hname := r.named _ hmem
    dsimp only at hname hlong hshort hprefix hallowed ⊢
    subst hname
    exact ⟨SortedMap.mem_entries_iff.mp hmem, hlong, hshort, hprefix, hallowed⟩
  · intro h
    exact ⟨⟨_, SortedMap.mem_entries_iff.mpr h.registered, rfl⟩,
      ⟨h.long, h.short, h.isPrefix⟩, h.allowed⟩

theorem nodup_candidates : (call.candidates command r.handlers.entries).Nodup := by
  have hnames : (r.handlers.entries.map Prod.snd).map CommandInfo.name =
      r.handlers.entries.map Prod.fst := by
    rw [List.map_map]
    exact List.map_congr_left fun e he => r.named e he
  refine List.Nodup.filter _ (List.Nodup.of_map CommandInfo.name ?_)
  rw [hnames]
  exact List.pairwise_map.mpr (r.handlers.sorted.imp fun h => ne_of_lt h)

/-- A command comes to another one through an alias, where it is not run under its name. -/
structure AliasStep (call : CommandCall) (r : CommandRegister) (command next : List Char) :
    Prop where
  nonempty : command ≠ []
  unnamed : ∀ info, r.handlers.find? command = some info → call.enough info = false
  target : r.aliases.find? command = some next

inductive AliasPath (call : CommandCall) (r : CommandRegister) : ℕ → List Char → List Char → Prop
  | refl (command : List Char) : AliasPath call r 0 command command
  | step {k : ℕ} {command next last : List Char} (h : call.AliasStep r command next)
      (path : AliasPath call r k next last) : AliasPath call r (k + 1) command last

/-- The command is the name of what is run, or the one abbreviation that the source may use. -/
inductive Resolves (call : CommandCall) (r : CommandRegister) (command : List Char)
    (info : CommandInfo) : Prop
  | name (nonempty : command ≠ []) (found : r.handlers.find? command = some info)
      (enough : call.enough info = true) (allowed : call.allowed info = true)
  | abbreviation (nonempty : command ≠ [])
      (unnamed : ∀ info, r.handlers.find? command = some info → call.enough info = false)
      (unaliased : r.aliases.find? command = none) (enough : call.enough info = true)
      (unique : ∀ other, call.Abbreviates r command other ↔ other = info)

theorem pick_eq_executed {infos : List CommandInfo} :
    call.pick infos = .executed info ↔ infos = [info] ∧ call.enough info = true := by
  match infos with
  | [] => exact ⟨nofun, fun h => nomatch h.1⟩
  | [other] =>
      rw [pick, List.singleton_inj]
      split_ifs with henough
      · rw [CommandOutcome.executed.injEq]
        exact ⟨fun h => ⟨h, h ▸ henough⟩, And.left⟩
      · exact ⟨nofun, fun h => absurd (h.1 ▸ h.2) henough⟩
  | _ :: _ :: _ => exact ⟨nofun, fun h => nomatch h.1⟩

theorem findMatch_eq_executed :
    call.findMatch command none r.handlers.entries = .executed info ↔
      (∀ other, call.Abbreviates r command other ↔ other = info) ∧ call.enough info = true := by
  rw [findMatch_eq, pick_eq_executed]
  refine and_congr_left fun _ => ?_
  simp only [Option.toList_none, List.nil_append, ← mem_candidates_iff]
  constructor
  · intro h other
    rw [h, List.mem_singleton]
  · intro h
    refine List.perm_singleton.mp ((List.perm_ext_iff_of_nodup nodup_candidates
      (List.nodup_singleton info)).mpr fun other => ?_)
    rw [h, List.mem_singleton]

theorem unnamed_of_filter (h : (r.handlers.find? command).filter call.enough = none)
    (info : CommandInfo) (hfound : r.handlers.find? command = some info) :
    call.enough info = false :=
  Bool.eq_false_iff.mpr (Option.filter_eq_none_iff.mp h info hfound)

/-- A path through aliases is where it starts, or goes one step. -/
theorem exists_path_succ {depth : ℕ} {P : List Char → Prop} :
    (∃ k < depth + 1, ∃ last, call.AliasPath r k command last ∧ P last) ↔
      P command ∨ ∃ next, call.AliasStep r command next ∧
        ∃ k < depth, ∃ last, call.AliasPath r k next last ∧ P last := by
  constructor
  · rintro ⟨k, hk, last, path, hlast⟩
    cases path with
    | refl => exact Or.inl hlast
    | step h path => exact Or.inr ⟨_, h, _, Nat.lt_of_succ_lt_succ hk, last, path, hlast⟩
  · rintro (h | ⟨next, h, k, hk, last, path, hlast⟩)
    · exact ⟨0, Nat.succ_pos depth, command, .refl command, h⟩
    · exact ⟨k + 1, Nat.succ_lt_succ hk, last, .step h path, hlast⟩

theorem handleFrom_eq_executed {depth : ℕ} : call.handleFrom r depth command = .executed info ↔
    ∃ k < depth, ∃ last, call.AliasPath r k command last ∧ call.Resolves r last info := by
  induction depth generalizing command with
  | zero => exact ⟨nofun, fun ⟨k, hk, _⟩ => absurd hk (Nat.not_lt_zero k)⟩
  | succ depth ih =>
      rw [exists_path_succ, handleFrom]
      by_cases hempty : command = []
      · rw [if_pos hempty]
        refine ⟨nofun, ?_⟩
        rintro ((h | h) | ⟨next, h, -⟩)
        · exact absurd hempty h
        · exact absurd hempty h
        · exact absurd hempty h.nonempty
      rw [if_neg hempty]
      cases hnamed : (r.handlers.find? command).filter call.enough with
      | some found =>
          obtain ⟨hfound, henough⟩ := Option.filter_eq_some_iff.mp hnamed
          dsimp only
          constructor
          · intro h
            split_ifs at h with hallowed
            cases h
            exact Or.inl (.name hempty hfound henough hallowed)
          · rintro ((⟨-, hfound', -, hallowed⟩ | ⟨-, hunnamed, -, -, -⟩) | ⟨next, h, -⟩)
            · cases hfound.symm.trans hfound'
              rw [if_pos hallowed]
            · cases henough.symm.trans (hunnamed found hfound)
            · cases henough.symm.trans (h.unnamed found hfound)
      | none =>
          have hunnamed := unnamed_of_filter hnamed
          have hname : ¬ ∃ info, r.handlers.find? command = some info ∧ call.enough info = true :=
            fun ⟨info, hfound, henough⟩ => by cases henough.symm.trans (hunnamed info hfound)
          cases halias : r.aliases.find? command with
          | some next =>
              dsimp only
              rw [ih]
              constructor
              · intro h
                exact Or.inr ⟨next, ⟨hempty, hunnamed, halias⟩, h⟩
              · rintro ((⟨-, hfound, henough, -⟩ | ⟨-, -, hunaliased, -, -⟩) | ⟨next', h', h⟩)
                · exact absurd ⟨info, hfound, henough⟩ hname
                · cases halias.symm.trans hunaliased
                · cases halias.symm.trans h'.target
                  exact h
          | none =>
              dsimp only
              rw [findMatch_eq_executed]
              constructor
              · rintro ⟨hunique, henough⟩
                exact Or.inl (.abbreviation hempty hunnamed halias henough hunique)
              · rintro ((⟨-, hfound, henough, -⟩ | ⟨-, -, -, henough, hunique⟩) | ⟨next, h, -⟩)
                · exact absurd ⟨info, hfound, henough⟩ hname
                · exact ⟨hunique, henough⟩
                · cases halias.symm.trans h.target

/-- `Handle` runs a command exactly where at most a hundred aliases lead to its name, with enough
arguments and rights, or to a text that abbreviates none but it of what the source may use. -/
theorem handle_eq_executed : call.handle r command = .executed info ↔
    ∃ k ≤ 100, ∃ last, call.AliasPath r k command last ∧ call.Resolves r last info := by
  rw [handle, handleFrom_eq_executed]
  simp only [Nat.lt_succ_iff]

theorem Resolves.registered (h : call.Resolves r command info) :
    r.handlers.find? info.name = some info := by
  cases h with
  | name _ hfound _ _ =>
      have hname := r.named _ (SortedMap.mem_entries_iff.mpr hfound)
      exact hname ▸ hfound
  | abbreviation _ _ _ _ hunique => exact ((hunique info).mpr rfl).registered

end CommandCall

/-! ## Chat -/

inductive TalkOutcome where
  | silent
  | command (command : List Char) (arguments : List (List Char))
  | spoken (message : List Char)
  deriving DecidableEq

/-- `limit_message`; a limit below the six characters of the mark cuts nothing. -/
def limitMessage (message : List Char) (chatLength : ℕ) : List Char :=
  if chatLength < message.length then
    (if chatLength < 6 then message else message.take (chatLength - 6)) ++ " [...]".toList
  else message

/-- `Talk_Report`. -/
def talkReport (access : AdminLevel) (muted : Bool) (chatLength : ℕ) (message : List Char) :
    TalkOutcome :=
  if muted then .silent
  else
    let message := limitMessage message chatLength
    if message = [] then .silent
    else if access ≠ 0 ∧ message.head? = some '$' then
      match Util.explode ' ' message with
      | [] => .silent
      | front :: arguments => .command (front.drop 1) arguments
    else .spoken message

/-- A command comes from someone with access, and its arguments have no spaces. -/
theorem talkReport_eq_command {access : AdminLevel} {muted : Bool} {chatLength : ℕ}
    {message command : List Char} {arguments : List (List Char)}
    (h : talkReport access muted chatLength message = .command command arguments) :
    access ≠ 0 ∧ ∀ piece ∈ arguments, ' ' ∉ piece := by
  unfold talkReport at h
  dsimp only at h
  split_ifs at h with hmuted hempty hcommand
  cases hexplode : Util.explode ' ' (limitMessage message chatLength) with
  | nil =>
      rw [hexplode] at h
      cases h
  | cons front pieces =>
      rw [hexplode] at h
      cases h
      exact ⟨hcommand.1, fun piece hpiece =>
        Util.notMem_of_mem_explode (hexplode ▸ List.mem_cons_of_mem front hpiece)⟩

/-! ## The audit -/

structure CommandEntry where
  time : Int32
  source : List Char
  command : List Char
  arguments : List (List Char)
  deriving DecidableEq

/-- A row of the table `command_audit`. -/
structure CommandRow where
  time : Int32
  source : List Char
  command : List Char
  arguments : List Char
  deriving DecidableEq

/-- The arguments with spaces between them. -/
def argsText : List (List Char) → List Char
  | [] => []
  | first :: rest => first ++ rest.flatMap (' ' :: ·)

def CommandEntry.toRow (entry : CommandEntry) : CommandRow :=
  ⟨entry.time, entry.source, entry.command, argsText entry.arguments⟩

def CommandRow.toEntry (row : CommandRow) : CommandEntry where
  time := row.time
  source := row.source
  command := row.command
  arguments := if row.arguments = [] then [] else Util.explode ' ' row.arguments

/-- A command that has been run, and what the audit has of it. -/
structure ExecutedCommand where
  call : CommandCall
  info : CommandInfo
  entry : CommandEntry

/-- The audit of the world and its table. The last three fields are history: what the audit was
when it was loaded, and what has been run before that and since. -/
structure CommandAudit where
  audit : List CommandEntry
  uncommitted : List CommandEntry
  table : List CommandRow
  loaded : List CommandEntry
  past : List ExecutedCommand
  executed : List ExecutedCommand

inductive AuditEvent where
  | talk (now : Int32) (call : CommandCall) (muted : Bool) (chatLength : ℕ) (message : List Char)
  /-- A save, with what becomes of each insert. -/
  | save (inserted : ℕ → Bool)
  /-- The server starts, and gets rows from the table. -/
  | load (rows : List CommandRow)

namespace CommandAudit

variable (r : CommandRegister)

/-- `World::Command`. -/
def command (s : CommandAudit) (now : Int32) (call : CommandCall) (command : List Char) :
    CommandAudit :=
  match call.handle r (command.map Char.toLower) with
  | .executed info =>
      let entry : CommandEntry := ⟨now, call.source.name, command, call.arguments⟩
      { s with
        uncommitted := s.uncommitted ++ [entry]
        executed := s.executed ++ [⟨call, info, entry⟩] }
  | .refused _ => s

/-- The rows that a save gets into the table. -/
def insertedRows (inserted : ℕ → Bool) (entries : List CommandEntry) : List CommandRow :=
  ((entries.zipIdx.filter fun e => inserted e.2).map Prod.fst).map CommandEntry.toRow

/-- `SaveCommandAudit`. -/
def save (s : CommandAudit) (inserted : ℕ → Bool) : CommandAudit :=
  if s.uncommitted = [] then s
  else
    { s with
      table := s.table ++ insertedRows inserted s.uncommitted
      audit := s.audit ++ s.uncommitted
      uncommitted := [] }

/-- `LoadCommandAudit`, when the server starts. -/
def load (s : CommandAudit) (rows : List CommandRow) : CommandAudit where
  audit := rows.map CommandRow.toEntry
  uncommitted := []
  table := s.table
  loaded := rows.map CommandRow.toEntry
  past := s.past ++ s.executed
  executed := []

/-- The rows are an answer to the query: those since some time, by their times. -/
def Answers (s : CommandAudit) (rows : List CommandRow) : Prop :=
  (∃ since : Int32, rows.Perm (s.table.filter fun row => since ≤ row.time)) ∧
    rows.Pairwise fun row later => row.time ≤ later.time

def step (s : CommandAudit) : AuditEvent → CommandAudit
  | .talk now call muted chatLength message =>
      match talkReport call.source.access muted chatLength message with
      | .command command arguments => s.command r now { call with arguments := arguments } command
      | _ => s
  | .save inserted => s.save inserted
  | .load rows => s.load rows

def start : CommandAudit := ⟨[], [], [], [], [], []⟩

inductive Run : CommandAudit → Prop
  | start : Run start
  | step {s : CommandAudit} (run : Run s) (event : AuditEvent)
      (answers : ∀ rows, event = .load rows → s.Answers rows) : Run (s.step r event)

end CommandAudit

/-! ### Its rows -/

theorem argsText_eq_nil_iff {arguments : List (List Char)} :
    argsText arguments = [] ↔ arguments = [] ∨ arguments = [[]] := by
  match arguments with
  | [] => exact ⟨fun _ => Or.inl rfl, fun _ => rfl⟩
  | [first] =>
      rw [argsText, List.flatMap_nil, List.append_nil, List.singleton_inj]
      exact ⟨Or.inr, fun h => h.resolve_left (List.cons_ne_nil _ _)⟩
  | first :: second :: rest =>
      refine ⟨fun h => ?_, fun h => ?_⟩
      · cases (List.append_eq_nil_iff.mp h).2
      · rcases h with h | h <;> cases h

theorem explode_of_notMem {piece : List Char} {delimiter : Char} (h : delimiter ∉ piece) :
    Util.explode delimiter piece = [piece] := by
  induction piece with
  | nil => rfl
  | cons c piece ih =>
      rw [List.mem_cons, not_or] at h
      rw [Util.explode, if_neg (Ne.symm h.1), ih h.2]

theorem explode_argsText {first : List Char} {rest : List (List Char)}
    (h : ∀ piece ∈ first :: rest, ' ' ∉ piece) :
    Util.explode ' ' (argsText (first :: rest)) = first :: rest := by
  induction rest generalizing first with
  | nil =>
      rw [argsText, List.flatMap_nil, List.append_nil]
      exact explode_of_notMem (h first List.mem_cons_self)
  | cons second rest ih =>
      have hfirst := h first List.mem_cons_self
      rw [argsText, List.flatMap_cons, List.cons_append, Util.explode_append hfirst]
      exact congrArg (first :: ·) (ih fun piece hpiece => h piece (List.mem_cons_of_mem _ hpiece))

/-- A row gives its entry back, but for a lone empty argument, which is gone. -/
theorem toEntry_toRow {entry : CommandEntry} (h : ∀ piece ∈ entry.arguments, ' ' ∉ piece) :
    entry.toRow.toEntry =
      { entry with arguments := if entry.arguments = [[]] then [] else entry.arguments } := by
  have harguments : entry.toRow.toEntry.arguments =
      if entry.arguments = [[]] then [] else entry.arguments := by
    unfold CommandRow.toEntry CommandEntry.toRow
    dsimp only
    by_cases hempty : entry.arguments = [] ∨ entry.arguments = [[]]
    · rw [if_pos (argsText_eq_nil_iff.mpr hempty)]
      rcases hempty with hempty | hempty <;> rw [hempty]
      · rfl
      · rfl
    · rw [if_neg (mt argsText_eq_nil_iff.mp hempty), if_neg fun h => hempty (Or.inr h)]
      obtain ⟨first, rest, hcons⟩ := List.exists_cons_of_ne_nil fun h => hempty (Or.inl h)
      rw [hcons] at h ⊢
      exact explode_argsText h
  rw [← harguments]
  rfl

/-! ### Its runs -/

/-- A command that has been run by someone with access, who might use it. -/
structure ExecutedCommand.Ran (r : CommandRegister) (e : ExecutedCommand) : Prop where
  handled : e.call.handle r (e.entry.command.map Char.toLower) = .executed e.info
  source : e.entry.source = e.call.source.name
  arguments : e.entry.arguments = e.call.arguments
  access : e.call.source.access ≠ 0
  noSpace : ∀ piece ∈ e.entry.arguments, ' ' ∉ piece

namespace CommandAudit

structure Faithful (r : CommandRegister) (s : CommandAudit) : Prop where
  /-- What has been run since the audit was loaded is in it once and in order. -/
  whole : s.audit ++ s.uncommitted = s.loaded ++ s.executed.map ExecutedCommand.entry
  ran : ∀ e ∈ s.past ++ s.executed, e.Ran r
  /-- The table has each saved entry at most once and in order. -/
  stored : ∃ saved, s.executed.map ExecutedCommand.entry = saved ++ s.uncommitted ∧
    s.table.Sublist ((s.past.map ExecutedCommand.entry ++ saved).map CommandEntry.toRow)
  /-- What was loaded had been run, with a lone empty argument left out. -/
  restored : ∀ entry ∈ s.loaded, ∃ e ∈ s.past, entry = { e.entry with
    arguments := if e.entry.arguments = [[]] then [] else e.entry.arguments }

variable {r : CommandRegister} {s : CommandAudit}

theorem faithful_start : Faithful r start where
  whole := rfl
  ran := nofun
  stored := ⟨[], rfl, List.Sublist.refl []⟩
  restored := nofun

theorem Faithful.command (h : s.Faithful r) (now : Int32) {call : CommandCall}
    (command : List Char) (haccess : call.source.access ≠ 0)
    (hspace : ∀ piece ∈ call.arguments, ' ' ∉ piece) :
    (s.command r now call command).Faithful r := by
  unfold CommandAudit.command
  cases hhandle : call.handle r (command.map Char.toLower) with
  | refused message => exact h
  | executed info =>
      dsimp only
      constructor
      · dsimp only
        rw [← List.append_assoc, h.whole, List.map_append, List.append_assoc]
        rfl
      · intro e he
        dsimp only at he
        rw [← List.append_assoc] at he
        rcases List.mem_append.mp he with he | he
        · exact h.ran e he
        · rw [List.mem_singleton.mp he]
          exact ⟨hhandle, rfl, rfl, haccess, hspace⟩
      · obtain ⟨saved, hsaved, htable⟩ := h.stored
        refine ⟨saved, ?_, htable⟩
        dsimp only
        rw [List.map_append, hsaved, List.append_assoc]
        rfl
      · exact h.restored

theorem insertedRows_sublist (inserted : ℕ → Bool) (entries : List CommandEntry) :
    (insertedRows inserted entries).Sublist (entries.map CommandEntry.toRow) := by
  refine List.Sublist.map CommandEntry.toRow ?_
  have h := (List.filter_sublist (p := fun e : CommandEntry × ℕ => inserted e.2)
    (l := entries.zipIdx)).map Prod.fst
  rwa [List.zipIdx_map_fst] at h

theorem Faithful.save (h : s.Faithful r) (inserted : ℕ → Bool) : (s.save inserted).Faithful r := by
  unfold CommandAudit.save
  split_ifs
  · exact h
  obtain ⟨saved, hsaved, htable⟩ := h.stored
  constructor
  · dsimp only
    rw [List.append_nil]
    exact h.whole
  · exact h.ran
  · refine ⟨saved ++ s.uncommitted, ?_, ?_⟩
    · dsimp only
      rw [List.append_nil]
      exact hsaved
    · rw [← List.append_assoc, List.map_append]
      exact htable.append (insertedRows_sublist inserted s.uncommitted)
  · exact h.restored

theorem Faithful.load (h : s.Faithful r) {rows : List CommandRow} (hrows : s.Answers rows) :
    (s.load rows).Faithful r := by
  obtain ⟨saved, hsaved, htable⟩ := h.stored
  have hall : s.table.Sublist
      (((s.past ++ s.executed).map ExecutedCommand.entry).map CommandEntry.toRow) := by
    refine htable.trans (List.Sublist.map CommandEntry.toRow ?_)
    rw [List.map_append, hsaved, ← List.append_assoc]
    exact List.sublist_append_left _ _
  constructor
  · exact rfl
  · intro e he
    rw [CommandAudit.load, List.append_nil] at he
    exact h.ran e he
  · refine ⟨[], rfl, ?_⟩
    rw [List.append_nil]
    exact hall
  · intro entry hentry
    obtain ⟨row, hrow, rfl⟩ := List.mem_map.mp hentry
    obtain ⟨⟨since, hperm⟩, -⟩ := hrows
    have hmem := hall.subset (List.mem_filter.mp (hperm.subset hrow)).1
    rw [List.map_map] at hmem
    obtain ⟨e, he, rfl⟩ := List.mem_map.mp hmem
    exact ⟨e, he, toEntry_toRow (h.ran e he).noSpace⟩

/-- The audit is what has been run, over every run of chat, saves and starts. -/
theorem Run.faithful (run : Run r s) : s.Faithful r := by
  induction run with
  | start => exact faithful_start
  | @step s run event answers ih =>
      cases event with
      | save inserted => exact ih.save inserted
      | load rows => exact ih.load (answers rows rfl)
      | talk now call muted chatLength message =>
          rw [CommandAudit.step]
          cases htalk : talkReport call.source.access muted chatLength message with
          | silent => exact ih
          | spoken message => exact ih
          | command command arguments =>
              obtain ⟨haccess, hspace⟩ := talkReport_eq_command htalk
              exact ih.command now command haccess hspace

/-- The server with the command `uptime` only, asked by an administrator, before a restart. -/
theorem Run.faithful_uptime :
    let info : CommandInfo := ⟨"uptime".toList, [], 0, false, false⟩
    let call : CommandCall := ⟨fun _ => none, ⟨4, 4, "root".toList, true⟩, []⟩
    let r := CommandRegister.empty.register info false
    (((CommandAudit.start.step r (.talk 7 call false 128 "$upt ".toList)).step r (.save fun _ => true)).step r
      (.load [⟨7, "root".toList, "upt".toList, []⟩])).Faithful r := by
  intro info call r
  have htalk := (Run.start (r := r)).step (.talk 7 call false 128 "$upt ".toList) fun rows h => nomatch h
  have hsave := htalk.step (.save fun _ => true) fun rows h => nomatch h
  refine Run.faithful (hsave.step _ fun rows hrows => ?_)
  cases hrows
  exact ⟨⟨0, by decide +kernel⟩, by decide +kernel⟩

end CommandAudit

end ArenaServ
