import ArenaServ.QuotedText
import ArenaServ.TextUtil

/-!
# The texts of queries

`Database::Query` puts its arguments into a format: numbers for `#`, texts for `$`, and what is code
itself for `@`. For SQL Server a text is bound to a parameter and its quotes are left out, for the
other engines its characters are escaped. `Database::Escape` is for texts that are put into a query
before it is a format. Here the statement that comes out is read again, as an engine reads it.
-/

namespace ArenaServ.Database

open QuotedText Util

inductive Engine where
  | mySQL
  | sqlite
  | sqlServer
  deriving DecidableEq

/-- An argument behind the format. -/
inductive Arg where
  | int (n : Int32)
  | text (s : List Char)

/-- `QueryParameterPair`, while it is built. -/
structure QueryText where
  finalquery : List Char
  parameters : List (List Char)
  removeQuote : Bool
  deriving DecidableEq

def QueryText.empty : QueryText := ⟨[], [], false⟩

def QueryText.add (q : QueryText) (text : List Char) : QueryText :=
  { q with finalquery := q.finalquery ++ text }

/-- A text for SQL Server, in place of the `?` that stands for it. -/
def QueryText.bind (q : QueryText) (s : List Char) : Option QueryText :=
  match q.finalquery.getLast? with
  | none => none
  | some '\'' => some ⟨q.finalquery.dropLast ++ ['?'], q.parameters ++ [s], true⟩
  | some _ => some ⟨q.finalquery ++ ['?'], q.parameters ++ [s], q.removeQuote⟩

/-- SQL Server has no backticks. -/
def withoutBackticks (engine : Engine) (s : List Char) : List Char :=
  if engine = .sqlServer then s.filter (· ≠ '`') else s

/-- `va_arg(ap, int)`. -/
def takeInt : List Arg → Option (Int32 × List Arg)
  | .int n :: args => some (n, args)
  | _ => none

/-- `va_arg(ap, char *)`. -/
def takeText : List Arg → Option (List Char × List Arg)
  | .text s :: args => some (s, args)
  | _ => none

/-- `Database::ParseQueryArgs`. `escape` is what the client library of the engine writes for a
character. Nothing comes of an argument that is missing or of the other type. -/
def parseQueryArgs (engine : Engine) (escape : Char → List Char) :
    List Char → List Arg → QueryText → Option QueryText
  | [], _, q => some q
  | p :: format, args, q =>
      if p = '#' then
        (takeInt args).bind fun (n, args) =>
          parseQueryArgs engine escape format args (q.add (intText n))
      else if p = '@' then
        (takeText args).bind fun (s, args) =>
          parseQueryArgs engine escape format args (q.add (withoutBackticks engine s))
      else if p = '$' then
        (takeText args).bind fun (s, args) =>
          if engine = .sqlServer then (q.bind s).bind (parseQueryArgs engine escape format args)
          else parseQueryArgs engine escape format args (q.add (s.flatMap escape))
      else if (p = '`' ∧ engine = .sqlServer) ∨ (p = '\'' ∧ q.removeQuote = true) then
        parseQueryArgs engine escape format args { q with removeQuote := false }
      else parseQueryArgs engine escape format args (q.add [p])

/-! ## Formats -/

/-- Texts with quotes and without escapes, as formats are written and as SQL Server reads. -/
def sql : Dialect Char := ⟨'\'', none, fun c => [c]⟩

/-- The pieces of a format. `'$'` is a literal there. -/
def pieces (format : List Char) : List (Piece Char) := (scan sql format).getD []

/-- What a format with its arguments stands for: the statement and the parameters it has. -/
def fill (engine : Engine) : List (Piece Char) → List Arg →
    Option (List (Piece Char) × List (List Char))
  | [], _ => some ([], [])
  | .code c :: format, args =>
      if c = '#' then
        (takeInt args).bind fun (n, args) =>
          (fill engine format args).map (Prod.map ((intText n).map .code ++ ·) id)
      else if c = '@' then
        (takeText args).bind fun (s, args) =>
          (fill engine format args).map
            (Prod.map ((withoutBackticks engine s).map .code ++ ·) id)
      else
        (fill engine format args).map (Prod.map ((withoutBackticks engine [c]).map .code ++ ·) id)
  | .literal content :: format, args =>
      if content = ['$'] then
        (takeText args).bind fun (s, args) =>
          if engine = .sqlServer then
            (fill engine format args).map (Prod.map (.code '?' :: ·) (s :: ·))
          else (fill engine format args).map (Prod.map (.literal s :: ·) id)
      else (fill engine format args).map (Prod.map (.literal content :: ·) id)

/-! ## What is built is what is read -/

section Filling
variable {engine : Engine} {escape : Char → List Char}

/-- A query with the rest of its statement and parameters. -/
def QueryText.append (q : QueryText) (escape : Char → List Char)
    (rest : List (Piece Char) × List (List Char)) : QueryText :=
  ⟨q.finalquery ++ QuotedText.print sql escape rest.1, q.parameters ++ rest.2, false⟩

theorem print_codes (text : List Char) (format : List (Piece Char)) :
    QuotedText.print sql escape (text.map .code ++ format) =
      text ++ QuotedText.print sql escape format := by
  induction text with
  | nil => rfl
  | cons c text ih => rw [List.map_cons, List.cons_append, print_code, ih, List.cons_append]

/-- A character that stands for itself, where no quote is to be left out. -/
theorem parseQueryArgs_char {c : Char} (hnumber : c ≠ '#') (hraw : c ≠ '@') (htext : c ≠ '$')
    (format : List Char) (args : List Arg) {q : QueryText} (hq : q.removeQuote = false) :
    parseQueryArgs engine escape (c :: format) args q =
      parseQueryArgs engine escape format args (q.add (withoutBackticks engine [c])) := by
  rw [parseQueryArgs, if_neg hnumber, if_neg hraw, if_neg htext]
  split_ifs with h
  · rcases h with ⟨rfl, rfl⟩ | ⟨-, h⟩
    · refine congrArg _ ?_
      show QueryText.mk _ _ _ = QueryText.mk _ _ _
      rw [← hq]
      exact congrArg (QueryText.mk · _ _) (List.append_nil _).symm
    · cases hq.symm.trans h
  · have hkeep : withoutBackticks engine [c] = [c] := by
      unfold withoutBackticks
      split_ifs with hengine
      · exact List.filter_cons_of_pos (decide_eq_true fun hc => h (Or.inl ⟨hc, hengine⟩))
      · rfl
    rw [hkeep]

end Filling

/-! ## The queries of the server -/

/-- The formats with texts in them, but for the one of `World::CreateCharacter`. -/
def queries : List String :=
  ["SELECT `name`, `title`, `home`, `fiance`, `partner`, `admin`, `class`, `gender`, `race`, `hairstyle`, `haircolor`,`map`, `x`, `y`, `direction`, `level`, `exp`, `hp`, `tp`, `str`, `int`, `wis`, `agi`, `con`, `cha`, `statpoints`, `skillpoints`, `karma`, `sitting`, `hidden`, `bankmax`, `goldbank`, `usage`, `inventory`, `bank`, `paperdoll`, `spells`, `guild`, `guild_rank`, `guild_rank_string`, `quest`, `vars`, `nointeract` FROM `characters` WHERE `name` = '$'",
   "UPDATE `characters` SET `title` = '$', `home` = '$', `fiance` = '$', `partner` = '$', `admin` = #, `class` = #, `gender` = #, `race` = #, `hairstyle` = #, `haircolor` = #, `map` = #, `x` = #, `y` = #, `direction` = #, `level` = #, `exp` = #, `hp` = #, `tp` = #, `str` = #, `int` = #, `wis` = #, `agi` = #, `con` = #, `cha` = #, `statpoints` = #, `skillpoints` = #, `karma` = #, `sitting` = #, `hidden` = #, `nointeract` = #, `bankmax` = #, `goldbank` = #, `usage` = #, `inventory` = '$', `bank` = '$', `paperdoll` = '$', `spells` = '$', `guild` = '$', `guild_rank` = #, `guild_rank_string` = '$', `quest` = '$', `vars` = '$' WHERE `name` = '$'",
   "SELECT `admin` FROM `characters` WHERE `name` = '$'",
   "SELECT `tag`, `name`, `description`, `created`, `ranks`, `bank` FROM `guilds` WHERE `tag` = '$'",
   "SELECT `name`, `guild_rank`, `guild_rank_string` FROM `characters` WHERE `guild` = '$' ORDER BY `guild_rank` ASC, `name` ASC",
   "SELECT `tag`, `name`, `description`, `created`, `ranks`, `bank` FROM `guilds` WHERE `name` = '$'",
   "INSERT INTO `guilds` (`tag`, `name`, `description`, `created`, `ranks`) VALUES ('$', '$', '$', #, '$')",
   "UPDATE `characters` SET `guild` = NULL, `guild_rank` = NULL, `guild_rank_string` = NULL WHERE `name` = '$'",
   "UPDATE `characters` SET `guild_rank` = #, `guild_rank_string` = '$' WHERE `name` = '$'",
   "UPDATE `guilds` SET `description` = '$', `ranks` = '$', `bank` = # WHERE tag = '$'",
   "UPDATE `characters` SET `guild` = NULL, `guild_rank` = NULL, `guild_rank_string` = NULL WHERE `guild` = '$'",
   "DELETE FROM `guilds` WHERE tag = '$'",
   "UPDATE `characters` SET `partner` = '' WHERE `name` = '$' AND partner = '$'",
   "SELECT `password`, `password_version` FROM `accounts` WHERE `username` = '$'",
   "UPDATE `accounts` SET `password` = '$', `password_version` = # WHERE username = '$'",
   "INSERT INTO `accounts` (`username`, `password`, `fullname`, `location`, `email`, `computer`, `hdid`, `regip`, `created`, `password_version`) VALUES ('$','$','$','$','$','$',#,'$',#,#)",
   "UPDATE `accounts` SET `password` = '$', `password_version` = # WHERE `username` = '$'",
   "SELECT `username`, `password` FROM `accounts` WHERE `username` = '$'",
   "SELECT `name` FROM `characters` WHERE `account` = '$' ORDER BY `exp` DESC",
   "UPDATE `accounts` SET `lastused` = #, `hdid` = #, `lastip` = '$' WHERE username = '$'",
   "SELECT `usage` FROM `characters` WHERE `name` = '$'",
   "INSERT INTO `characters` (`name`, `title`, `account`, `home`, `fiance`, `partner`, `class`, `gender`, `race`, `hairstyle`, `haircolor`, `map`, `x`, `y`, `direction`, `level`, `admin`, `exp`, `hp`, `tp`, `str`, `int`, `wis`, `agi`, `con`, `cha`, `statpoints`, `skillpoints`, `karma`, `sitting`, `hidden`, `nointeract`, `bankmax`, `goldbank`, `usage`, `inventory`, `bank`, `paperdoll`, `spells`, `guild`, `guild_rank`, `guild_rank_string`, `quest`) VALUES ('$', '$', '$', '$', '$', '$', #, #, #, #, #, #, #, #, #, #, #, #, #, #, #, #, #, #, #, #, #, #, #, #, #, #, #, #, #, '$', '$', '$', '$', '$', #, '$', '$')",
   "UPDATE `characters` SET `title` = '$', `home` = '$', `fiance` = '$', `partner` = '$', `class` = #, `gender` = #, `race` = #, `hairstyle` = #, `haircolor` = #, `map` = #, `x` = #, `y` = #, `direction` = #, `level` = #, `admin` = #, `exp` = #, `hp` = #, `tp` = #, `str` = #, `int` = #, `wis` = #, `agi` = #, `con` = #, `cha` = #, `statpoints` = #, `skillpoints` = #, `karma` = #, `sitting` = #, `hidden` = #, `nointeract` = #, `bankmax` = #, `goldbank` = #, `usage` = #, `inventory` = '$', `bank` = '$', `paperdoll` = '$', `spells` = '$', `guild` = '$', `guild_rank` = #, `guild_rank_string` = '$', `quest` = '$' WHERE `name` = '$'",
   "SELECT COUNT(1) AS `count` FROM `guilds` WHERE `tag` = '$'",
   "INSERT INTO `guilds` (`tag`, `name`, `description`, `ranks`, `bank`) VALUES ('$', '$', '$', '$', #)",
   "INSERT INTO `command_audit` (`time`, `source`, `command`, `arguments`) VALUES (#, '$', '$', '$')",
   "INSERT INTO `reports` (`reporter`, `reported`, `reason`, `time`, `chat_log`) VALUES ('$', '$', '$', #, '$')",
   "SELECT 1 FROM `characters` WHERE `name` = '$'",
   "DELETE FROM `characters` WHERE name = '$'",
   "SELECT 1 FROM `accounts` WHERE `username` = '$'"]

def mask (c : Char) : Char := if c = '@' ∨ c = '#' ∨ c = '$' then '?' else c

/-- `Database::Escape`. -/
def escapeText (engine : Engine) (escape : Char → List Char) (raw : List Char) : List Char :=
  (if engine = .sqlServer then raw else raw.flatMap escape).map mask

def insertBans : List Char :=
  "INSERT INTO bans (username, ip, hdid, expires, setter) VALUES ".toList

def selectBans : List Char :=
  "SELECT COALESCE(MAX(expires),-1) AS expires FROM bans WHERE (".toList

/-- The query of `World::Ban`. -/
def banQuery (engine : Engine) (escape : Char → List Char) (username : List Char)
    (ip hdid expires : Int32) (setter : List Char) : List Char :=
  insertBans ++
    ("('".toList ++ escapeText engine escape username ++ "', ".toList) ++
    (intText ip ++ ", ".toList) ++ (intText hdid ++ ", ".toList) ++ intText expires ++
    (", '".toList ++ escapeText engine escape setter ++ "')".toList)

/-- The query of `World::CheckBan`. It has none where nothing is asked for. -/
def checkBanQuery (engine : Engine) (escape : Char → List Char) (username : Option (List Char))
    (address hdid : Option Int32) : Option (List Char) :=
  if username.isNone ∧ address.isNone ∧ hdid.isNone then none
  else
    let query := selectBans ++
      username.elim [] (fun username =>
        "username = '".toList ++ escapeText engine escape username ++ "' OR ".toList) ++
      address.elim [] (fun address => "ip = ".toList ++ intText address ++ " OR ".toList) ++
      hdid.elim [] (fun hdid => "hdid = ".toList ++ intText hdid ++ " OR ".toList)
    some (query.take (query.length - 4) ++ ") AND (expires > # OR expires = 0)".toList)

def codes (text : List Char) : List (Piece Char) := text.map .code

def banPieces (username : List Char) (ip hdid expires : Int32) (setter : List Char) :
    List (Piece Char) :=
  codes (insertBans ++ ['(']) ++
    .literal username :: (codes (", ".toList ++ intText ip ++ ", ".toList ++ intText hdid ++
      ", ".toList ++ intText expires ++ ", ".toList) ++ .literal setter :: codes [')'])

/-- The conditions on numbers. -/
def banNumbers (address hdid : Option Int32) : List (List Char) :=
  (address.map ("ip = ".toList ++ intText ·)).toList ++
    (hdid.map ("hdid = ".toList ++ intText ·)).toList

def checkBanPieces (username : Option (List Char)) (address hdid : Option Int32) (now : Int32) :
    List (Piece Char) :=
  let rest := ") AND (expires > ".toList ++ intText now ++ " OR expires = 0)".toList
  match username with
  | none => codes (selectBans ++ " OR ".toList.intercalate (banNumbers address hdid) ++ rest)
  | some username => codes (selectBans ++ "username = ".toList) ++ .literal username ::
      codes ((banNumbers address hdid).flatMap (" OR ".toList ++ ·) ++ rest)

/-- What `Database::Escape` leaves of a text. -/
def maskPiece : Piece Char → Piece Char
  | .code c => .code c
  | .literal content => .literal (content.map mask)

/-- What becomes of pieces whose literals have gone through `Database::Escape`. -/
def written (engine : Engine) (escape : Char → List Char) (format : List (Piece Char)) :
    List Char :=
  QuotedText.print sql (if engine = .sqlServer then fun c => [c] else escape) (format.map maskPiece)

/-- Nothing in it is replaced. -/
def Plain (text : List Char) : Prop := ∀ c ∈ text, c ≠ '#' ∧ c ≠ '@' ∧ c ≠ '$'

instance (text : List Char) : Decidable (Plain text) := List.decidableBAll _ text

/-- Code for every engine. -/
def Bare (text : List Char) : Prop := Plain text ∧ '\'' ∉ text ∧ '`' ∉ text

instance (text : List Char) : Decidable (Bare text) := inferInstanceAs (Decidable (_ ∧ _))

section Escaped
variable {engine : Engine} {escape : Char → List Char}

/-- Without anything to replace, only backticks may go. -/
theorem parseQueryArgs_plain {text : List Char} (h : Plain text)
    (format : List Char) (args : List Arg) {q : QueryText} (hq : q.removeQuote = false) :
    parseQueryArgs engine escape (text ++ format) args q =
      parseQueryArgs engine escape format args (q.add (withoutBackticks engine text)) := by
  induction text generalizing q with
  | nil =>
      have hnil : withoutBackticks engine [] = [] := ite_self _
      rw [hnil, QueryText.add, List.append_nil, List.nil_append]
  | cons c text ih =>
      obtain ⟨hnumber, hraw, htext⟩ := h c List.mem_cons_self
      have hadd : (q.add (withoutBackticks engine [c])).removeQuote = false := hq
      rw [List.cons_append, parseQueryArgs_char hnumber hraw htext _ _ hq,
        ih (fun b hb => h b (List.mem_cons_of_mem c hb)) hadd]
      refine congrArg _ ?_
      have hcons : withoutBackticks engine (c :: text) =
          withoutBackticks engine [c] ++ withoutBackticks engine text := by
        unfold withoutBackticks
        split_ifs
        · exact List.filter_append [c] text
        · rfl
      rw [hcons, QueryText.add, QueryText.add, QueryText.add, List.append_assoc]

theorem Plain.append {text rest : List Char} (h : Plain text) (hrest : Plain rest) :
    Plain (text ++ rest) :=
  fun c hc => (List.mem_append.mp hc).elim (h c) (hrest c)

theorem Bare.append {text rest : List Char} (h : Bare text) (hrest : Bare rest) :
    Bare (text ++ rest) := by
  refine ⟨h.1.append hrest.1, ?_, ?_⟩
  · exact fun hc => (List.mem_append.mp hc).elim h.2.1 hrest.2.1
  · exact fun hc => (List.mem_append.mp hc).elim h.2.2 hrest.2.2

theorem bare_flatMap {texts : List (List Char)} {f : List Char → List Char}
    (h : ∀ text ∈ texts, Bare (f text)) : Bare (texts.flatMap f) := by
  induction texts with
  | nil => exact (show Bare [] by decide)
  | cons text texts ih =>
      exact (h text List.mem_cons_self).append
        (ih fun text htext => h text (List.mem_cons_of_mem _ htext))

theorem plain_escapeText (raw : List Char) : Plain (escapeText engine escape raw) := by
  intro c hc
  obtain ⟨b, -, rfl⟩ := List.mem_map.mp hc
  unfold mask
  split_ifs with h
  · decide
  · exact ⟨fun hc => h (Or.inr (Or.inl hc)), fun hc => h (Or.inl hc),
      fun hc => h (Or.inr (Or.inr hc))⟩

theorem bare_intText (n : Int32) : Bare (intText n) := by
  refine ⟨fun c hc => ?_, notMem_intText n (by decide) (by decide),
    notMem_intText n (by decide) (by decide)⟩
  refine ⟨?_, ?_, ?_⟩ <;> rintro rfl <;> exact notMem_intText n (by decide) (by decide) hc

theorem withoutBackticks_append (text rest : List Char) :
    withoutBackticks engine (text ++ rest) =
      withoutBackticks engine text ++ withoutBackticks engine rest := by
  unfold withoutBackticks
  split_ifs
  · exact List.filter_append text rest
  · rfl

theorem withoutBackticks_intText (n : Int32) : withoutBackticks engine (intText n) = intText n := by
  unfold withoutBackticks
  split_ifs
  · refine List.filter_eq_self.mpr fun c hc => decide_eq_true ?_
    rintro rfl
    exact notMem_intText n (by decide) (by decide) hc
  · rfl

theorem parseQueryArgs_empty {text : List Char} (h : Plain text) (args : List Arg) :
    parseQueryArgs engine escape text args .empty =
      some ⟨withoutBackticks engine text, [], false⟩ := by
  have hplain := @parseQueryArgs_plain engine escape _ h [] args .empty rfl
  rwa [List.append_nil] at hplain

theorem parseQueryArgs_int {text rest : List Char} (h : Plain text) (hrest : Plain rest)
    (n : Int32) :
    parseQueryArgs engine escape (text ++ '#' :: rest) [.int n] .empty =
      some ⟨withoutBackticks engine (text ++ intText n ++ rest), [], false⟩ := by
  have hfirst := @parseQueryArgs_plain engine escape _ h ('#' :: rest) [.int n] .empty rfl
  have hlast := @parseQueryArgs_plain engine escape _ hrest [] []
    ((QueryText.empty.add (withoutBackticks engine text)).add (intText n)) rfl
  rw [List.append_nil] at hlast
  rw [hfirst, parseQueryArgs, if_pos rfl]
  refine hlast.trans ?_
  rw [withoutBackticks_append, withoutBackticks_append, withoutBackticks_intText]
  rfl

/-! ### What is written and what is read -/

theorem escapeText_eq (hmask : engine ≠ .sqlServer → ∀ c, (escape c).map mask = escape (mask c))
    (raw : List Char) :
    escapeText engine escape raw =
      (raw.map mask).flatMap (if engine = .sqlServer then fun c => [c] else escape) := by
  unfold escapeText
  split_ifs with hengine
  · exact (List.flatMap_singleton' _).symm
  · rw [List.map_flatMap, List.flatMap_map]
    exact congrArg (List.flatMap · raw) (funext (hmask hengine))

theorem map_maskPiece_codes (text : List Char) : (codes text).map maskPiece = codes text := by
  rw [codes, List.map_map]
  rfl

theorem print_codes_only (text : List Char) : QuotedText.print sql escape (codes text) = text := by
  have h : QuotedText.print sql escape (text.map .code ++ []) = text ++ [] := print_codes text []
  rwa [List.append_nil, List.append_nil] at h

theorem written_codes (text : List Char) (format : List (Piece Char)) :
    written engine escape (codes text ++ format) = text ++ written engine escape format := by
  rw [written, List.map_append, map_maskPiece_codes]
  exact print_codes text _

theorem written_literal
    (hmask : engine ≠ .sqlServer → ∀ c, (escape c).map mask = escape (mask c)) (s : List Char)
    (format : List (Piece Char)) :
    written engine escape (.literal s :: format) =
      '\'' :: escapeText engine escape s ++ '\'' :: written engine escape format := by
  rw [written, List.map_cons, maskPiece, print_literal, quoteLiteral, escapeText_eq hmask,
    List.append_assoc]
  rfl

theorem scan_written_of_ne {d : Dialect Char} (hquote : d.quote = '\'')
    (hfaithful : Faithful d escape) (hengine : engine ≠ .sqlServer) {format : List (Piece Char)}
    (h : Separated d (format.map maskPiece)) :
    scan d (withoutBackticks engine (written engine escape format)) =
      some (format.map maskPiece) := by
  rw [withoutBackticks, if_neg hengine, written, if_neg hengine,
    print_congr (show sql.quote = d.quote from hquote.symm)]
  exact scan_print h fun _ _ c _ => hfaithful c

theorem scan_written_iff {format : List (Piece Char)}
    (h : Separated sql (format.map maskPiece)) (hcode : ∀ c, .code c ∈ format → c ≠ '`') :
    scan sql (withoutBackticks .sqlServer (written .sqlServer escape format)) =
        some (format.map maskPiece) ↔
      ∀ content, .literal content ∈ format → ∀ c ∈ content, c ≠ '\'' ∧ c ≠ '`' := by
  rw [withoutBackticks, if_pos rfl, written, if_pos rfl, scan_filter_print_iff rfl _ h]
  · have hmask (c : Char) : (mask c ≠ '\'' ↔ c ≠ '\'') ∧ (mask c ≠ '`' ↔ c ≠ '`') := by
      unfold mask
      split_ifs with hc
      · rcases hc with rfl | rfl | rfl <;> decide
      · exact ⟨Iff.rfl, Iff.rfl⟩
    simp only [decide_eq_true_eq]
    constructor
    · intro hclean content hcontent c hc
      have hmem : .literal (content.map mask) ∈ format.map maskPiece :=
        List.mem_map_of_mem (f := maskPiece) hcontent
      have hc := hclean _ hmem _ (List.mem_map_of_mem hc)
      exact ⟨(hmask c).1.mp hc.1, (hmask c).2.mp hc.2⟩
    · intro hclean content hcontent c hc
      obtain ⟨piece, hpiece, heq⟩ := List.mem_map.mp hcontent
      cases piece with
      | code c => cases heq
      | literal s =>
          cases heq
          obtain ⟨b, hb, rfl⟩ := List.mem_map.mp hc
          have hb := hclean s hpiece b hb
          exact ⟨(hmask b).1.mpr hb.1, (hmask b).2.mpr hb.2⟩
  · intro c hc
    obtain ⟨piece, hpiece, heq⟩ := List.mem_map.mp hc
    cases piece with
    | code b =>
        cases heq
        exact decide_eq_true (hcode c hpiece)
    | literal s => cases heq
  · rfl

/-! ### Bans -/

theorem banQuery_eq (hmask : engine ≠ .sqlServer → ∀ c, (escape c).map mask = escape (mask c))
    (username : List Char) (ip hdid expires : Int32) (setter : List Char) :
    banQuery engine escape username ip hdid expires setter =
      written engine escape (banPieces username ip hdid expires setter) := by
  have hlast : written engine escape (codes [')']) = [')'] := by
    rw [written, map_maskPiece_codes, print_codes_only]
  have hopen : "('".toList = ['(', '\''] := rfl
  have hclose : "')".toList = ['\'', ')'] := rfl
  have hbefore : ", '".toList = ", ".toList ++ ['\''] := rfl
  have hbehind : "', ".toList = '\'' :: ", ".toList := rfl
  simp only [banPieces, written_codes, written_literal hmask, hlast, banQuery]
  simp only [hopen, hclose, hbefore, hbehind, List.append_assoc, List.cons_append, List.nil_append]

theorem bare_insertBans : Bare (insertBans ++ ['(']) := by
  unfold insertBans
  decide +kernel

theorem bare_selectBans : Bare selectBans := by
  unfold selectBans
  decide +kernel

/-- Pieces whose code is bare and whose literals stay apart. -/
def Readable (d : Dialect Char) (format : List (Piece Char)) : Prop :=
  Separated d (format.map maskPiece) ∧ ∀ c, .code c ∈ format → c ≠ '`'

theorem readable_codes {d : Dialect Char} (hquote : d.quote = '\'') {text : List Char}
    (h : Bare text) {format : List (Piece Char)} (hformat : Readable d format) :
    Readable d (codes text ++ format) := by
  constructor
  · rw [List.map_append, map_maskPiece_codes]
    exact separated_codes (hquote ▸ h.2.1) hformat.1
  · intro c hc
    rcases List.mem_append.mp hc with hc | hc
    · obtain ⟨b, hb, hbc⟩ := List.mem_map.mp hc
      rw [← Piece.code.inj hbc]
      exact fun hb' => h.2.2 (hb' ▸ hb)
    · exact hformat.2 c hc

theorem readable_codes_only {d : Dialect Char} (hquote : d.quote = '\'') {text : List Char}
    (h : Bare text) : Readable d (codes text) := by
  have hcodes := readable_codes hquote h (show Readable d [] from ⟨trivial, nofun⟩)
  rwa [List.append_nil] at hcodes

theorem readable_literal {d : Dialect Char} (s : List Char) {format : List (Piece Char)}
    (h : Readable d format) (hnext : ∀ next rest, format ≠ .literal next :: rest) :
    Readable d (.literal s :: format) := by
  refine ⟨separated_literal _ h.1 fun next rest hmap => ?_,
    fun c hc => h.2 c ((List.mem_cons.mp hc).resolve_left nofun)⟩
  cases format with
  | nil => cases hmap
  | cons piece format =>
      cases piece with
      | code c => cases hmap
      | literal next => exact hnext next format rfl

theorem codes_ne_literal (text : List Char) (next : List Char) (rest : List (Piece Char)) :
    codes text ≠ .literal next :: rest := by
  cases text <;> exact nofun

theorem literal_notMem_codes (content text : List Char) : .literal content ∉ codes text := by
  intro h
  obtain ⟨c, -, hc⟩ := List.mem_map.mp h
  cases hc

theorem literal_mem_codes {content text : List Char} {format : List (Piece Char)} :
    .literal content ∈ codes text ++ format ↔ .literal content ∈ format := by
  rw [List.mem_append, or_iff_right (literal_notMem_codes content text)]

theorem plain_banQuery (username : List Char) (ip hdid expires : Int32) (setter : List Char) :
    Plain (banQuery engine escape username ip hdid expires setter) := by
  have hinsert : Plain insertBans := by
    unfold insertBans
    decide +kernel
  have hcomma : Plain ", ".toList := by decide
  have hopen : Plain "('".toList := by decide
  have hclose : Plain "')".toList := by decide
  have hbefore : Plain ", '".toList := by decide
  have hbehind : Plain "', ".toList := by decide
  exact ((((hinsert.append ((hopen.append (plain_escapeText username)).append hbehind)).append
    ((bare_intText ip).1.append hcomma)).append ((bare_intText hdid).1.append hcomma)).append
    (bare_intText expires).1).append ((hbefore.append (plain_escapeText setter)).append hclose)

theorem readable_banPieces {d : Dialect Char} (hquote : d.quote = '\'') (username : List Char)
    (ip hdid expires : Int32) (setter : List Char) :
    Readable d (banPieces username ip hdid expires setter) := by
  have hcomma : Bare ", ".toList := by decide
  have hnumbers : Bare (", ".toList ++ intText ip ++ ", ".toList ++ intText hdid ++ ", ".toList ++
      intText expires ++ ", ".toList) :=
    (((((hcomma.append (bare_intText ip)).append hcomma).append (bare_intText hdid)).append
      hcomma).append (bare_intText expires)).append hcomma
  have hlast : Readable d (codes [')']) := readable_codes_only hquote (by decide)
  exact readable_codes hquote bare_insertBans (readable_literal username
    (readable_codes hquote hnumbers (readable_literal setter hlast nofun)) nofun)

/-- The conditions of a query without the ` OR ` behind the last one. -/
theorem take_conditions (text : List Char) (numbers : List (List Char)) :
    let query := text ++ " OR ".toList ++ numbers.flatMap (· ++ " OR ".toList)
    query.take (query.length - 4) = text ++ numbers.flatMap (" OR ".toList ++ ·) := by
  have hshift (numbers : List (List Char)) :
      " OR ".toList ++ numbers.flatMap (· ++ " OR ".toList) =
        numbers.flatMap (" OR ".toList ++ ·) ++ " OR ".toList := by
    induction numbers with
    | nil => rfl
    | cons number numbers ih =>
        rw [List.flatMap_cons, List.flatMap_cons, List.append_assoc number, ih]
        simp only [List.append_assoc]
  intro query
  have hquery : query = (text ++ numbers.flatMap (" OR ".toList ++ ·)) ++ " OR ".toList := by
    rw [List.append_assoc text, ← hshift, ← List.append_assoc]
  have hlen : " OR ".toList.length = 4 := rfl
  rw [hquery, List.length_append, hlen, Nat.add_sub_cancel, List.take_left]

theorem intercalate_cons (sep first : List Char) (others : List (List Char)) :
    sep.intercalate (first :: others) = first ++ others.flatMap (sep ++ ·) := by
  induction others generalizing first with
  | nil => rw [List.intercalate_singleton, List.flatMap_nil, List.append_nil]
  | cons next others ih =>
      rw [List.intercalate_cons_cons, ih next, List.flatMap_cons, List.append_assoc,
        List.append_assoc]

theorem conditions_eq (address hdid : Option Int32) :
    address.elim [] (fun address => "ip = ".toList ++ intText address ++ " OR ".toList) ++
        hdid.elim [] (fun hdid => "hdid = ".toList ++ intText hdid ++ " OR ".toList) =
      (banNumbers address hdid).flatMap (· ++ " OR ".toList) := by
  cases address <;> cases hdid <;>
    simp only [banNumbers, Option.map_none, Option.map_some, Option.elim_none, Option.elim_some,
      Option.toList_none, Option.toList_some, List.flatMap_append, List.flatMap_singleton,
      List.flatMap_nil, List.append_nil, List.nil_append]

/-- What stands in front of the time in a query for bans. -/
def checkBanText (engine : Engine) (escape : Char → List Char) (username : Option (List Char))
    (address hdid : Option Int32) : List Char :=
  selectBans ++ (match username with
    | none => " OR ".toList.intercalate (banNumbers address hdid)
    | some username => "username = '".toList ++ escapeText engine escape username ++ ['\''] ++
        (banNumbers address hdid).flatMap (" OR ".toList ++ ·)) ++ ") AND (expires > ".toList

theorem checkBanQuery_eq {username : Option (List Char)} {address hdid : Option Int32}
    {query : List Char} (h : checkBanQuery engine escape username address hdid = some query) :
    query = checkBanText engine escape username address hdid ++
      '#' :: " OR expires = 0)".toList := by
  have hrest : ") AND (expires > # OR expires = 0)".toList =
      ") AND (expires > ".toList ++ '#' :: " OR expires = 0)".toList := by decide +kernel
  rw [checkBanQuery] at h
  split_ifs at h with hnone
  rw [← Option.some.inj h, hrest, ← List.append_assoc]
  refine congrArg (· ++ _) (congrArg (· ++ _) ?_)
  rw [List.append_assoc _ (address.elim _ _), conditions_eq]
  cases username with
  | none =>
      cases hnumbers : banNumbers address hdid with
      | nil =>
          exfalso
          cases address <;> cases hdid <;> simp_all [banNumbers]
      | cons first others =>
          dsimp only
          rw [intercalate_cons, Option.elim_none, List.append_nil, List.flatMap_cons,
            ← List.append_assoc, ← List.append_assoc, ← List.append_assoc selectBans]
          exact take_conditions (selectBans ++ first) others
  | some username =>
      have hquote : "' OR ".toList = ['\''] ++ " OR ".toList := rfl
      have htake := take_conditions
        (selectBans ++ ("username = '".toList ++ escapeText engine escape username ++ ['\'']))
        (banNumbers address hdid)
      rw [Option.elim_some, hquote]
      simp only [List.append_assoc] at htake ⊢
      exact htake

theorem bare_banNumbers (address hdid : Option Int32) :
    ∀ number ∈ banNumbers address hdid, Bare number := by
  intro number hnumber
  rcases List.mem_append.mp hnumber with h | h
  · obtain ⟨n, -, rfl⟩ := Option.map_eq_some_iff.mp (Option.mem_toList.mp h)
    exact Bare.append (by decide) (bare_intText n)
  · obtain ⟨n, -, rfl⟩ := Option.map_eq_some_iff.mp (Option.mem_toList.mp h)
    exact Bare.append (by decide) (bare_intText n)

theorem bare_conditions (address hdid : Option Int32) :
    Bare ((banNumbers address hdid).flatMap (" OR ".toList ++ ·)) :=
  bare_flatMap fun number hnumber =>
    Bare.append (by decide) (bare_banNumbers address hdid number hnumber)

theorem bare_intercalate {numbers : List (List Char)} (h : ∀ number ∈ numbers, Bare number) :
    Bare (" OR ".toList.intercalate numbers) := by
  cases numbers with
  | nil => decide
  | cons first others =>
      rw [intercalate_cons]
      refine (h first List.mem_cons_self).append (bare_flatMap fun number hnumber => ?_)
      exact Bare.append (by decide) (h number (List.mem_cons_of_mem first hnumber))

theorem plain_checkBanText (username : Option (List Char)) (address hdid : Option Int32) :
    Plain (checkBanText engine escape username address hdid) := by
  have hrest : Plain ") AND (expires > ".toList := by decide
  refine (bare_selectBans.1.append ?_).append hrest
  cases username with
  | none => exact (bare_intercalate (bare_banNumbers address hdid)).1
  | some username =>
      have htext : Plain "username = '".toList := by decide
      exact ((htext.append (plain_escapeText username)).append (by decide)).append
        (bare_conditions address hdid).1

theorem written_checkBanPieces
    (hmask : engine ≠ .sqlServer → ∀ c, (escape c).map mask = escape (mask c))
    (username : Option (List Char)) (address hdid : Option Int32) (now : Int32) :
    checkBanText engine escape username address hdid ++ intText now ++ " OR expires = 0)".toList =
      written engine escape (checkBanPieces username address hdid now) := by
  have hcodes (text : List Char) : written engine escape (codes text) = text := by
    rw [written, map_maskPiece_codes, print_codes_only]
  have hquote : "username = '".toList = "username = ".toList ++ ['\''] := rfl
  cases username with
  | none =>
      simp only [checkBanPieces, checkBanText, hcodes, List.append_assoc]
  | some username =>
      simp only [checkBanPieces, checkBanText, written_codes, written_literal hmask, hcodes, hquote,
        List.append_assoc, List.cons_append, List.nil_append]

theorem readable_checkBanPieces {d : Dialect Char} (hquote : d.quote = '\'')
    (username : Option (List Char)) (address hdid : Option Int32) (now : Int32) :
    Readable d (checkBanPieces username address hdid now) := by
  have hrest : Bare (") AND (expires > ".toList ++ intText now ++ " OR expires = 0)".toList) :=
    ((show Bare ") AND (expires > ".toList by decide).append (bare_intText now)).append (by decide)
  cases username with
  | none =>
      exact readable_codes_only hquote ((bare_selectBans.append
        (bare_intercalate (bare_banNumbers address hdid))).append hrest)
  | some username =>
      refine readable_codes hquote (bare_selectBans.append (by decide)) ?_
      refine readable_literal username
        (readable_codes_only hquote ((bare_conditions address hdid).append hrest)) ?_
      exact codes_ne_literal _

end Escaped

/-- For the engines that escape, a ban is stored and looked up under the texts it is about, with
question marks for the characters that stand for arguments. -/
theorem scan_bans {engine : Engine} {escape : Char → List Char} {d : Dialect Char}
    (hquote : d.quote = '\'') (hfaithful : Faithful d escape)
    (hmask : ∀ c, (escape c).map mask = escape (mask c)) (hengine : engine ≠ .sqlServer) :
    (∀ username ip hdid expires setter, ∃ text,
      parseQueryArgs engine escape (banQuery engine escape username ip hdid expires setter) []
        .empty = some ⟨text, [], false⟩ ∧
      scan d text = some ((banPieces username ip hdid expires setter).map maskPiece)) ∧
    ∀ username address hdid now query,
      checkBanQuery engine escape username address hdid = some query → ∃ text,
        parseQueryArgs engine escape query [.int now] .empty = some ⟨text, [], false⟩ ∧
        scan d text = some ((checkBanPieces username address hdid now).map maskPiece) := by
  refine ⟨fun username ip hdid expires setter => ?_, fun username address hdid now query h => ?_⟩
  · refine ⟨_, parseQueryArgs_empty (plain_banQuery username ip hdid expires setter) [], ?_⟩
    rw [banQuery_eq fun _ => hmask]
    exact scan_written_of_ne hquote hfaithful hengine (readable_banPieces hquote _ _ _ _ _).1
  · rw [checkBanQuery_eq h]
    refine ⟨_, parseQueryArgs_int (plain_checkBanText username address hdid) (by decide) now, ?_⟩
    rw [written_checkBanPieces fun _ => hmask]
    exact scan_written_of_ne hquote hfaithful hengine (readable_checkBanPieces hquote _ _ _ _).1

theorem scan_bans_sqlite :
    ∃ text, parseQueryArgs .sqlite (double '\'')
        (banQuery .sqlite (double '\'') "o'neil#".toList 1 2 0 "server".toList) [] .empty =
          some ⟨text, [], false⟩ ∧
      scan sql text = some (banPieces "o'neil?".toList 1 2 0 "server".toList) :=
  (scan_bans (d := sql) rfl (faithful_double '\'' _) (fun c => by
    unfold double mask
    split_ifs <;> simp_all) (by decide)).1 "o'neil#".toList 1 2 0 "server".toList

/-- For SQL Server, where nothing is escaped, that is so for the texts without quotes and backticks
and for no others. -/
theorem scan_bans_iff (escape : Char → List Char) :
    (∀ username ip hdid expires setter, ∃ text,
      parseQueryArgs .sqlServer escape
        (banQuery .sqlServer escape username ip hdid expires setter) [] .empty =
          some ⟨text, [], false⟩ ∧
      (scan sql text = some ((banPieces username ip hdid expires setter).map maskPiece) ↔
        ∀ c ∈ username ++ setter, c ≠ '\'' ∧ c ≠ '`')) ∧
    ∀ username address hdid now query,
      checkBanQuery .sqlServer escape username address hdid = some query → ∃ text,
        parseQueryArgs .sqlServer escape query [.int now] .empty = some ⟨text, [], false⟩ ∧
        (scan sql text = some ((checkBanPieces username address hdid now).map maskPiece) ↔
          ∀ c ∈ username.getD [], c ≠ '\'' ∧ c ≠ '`') := by
  have hmask : Engine.sqlServer ≠ .sqlServer → ∀ c, (escape c).map mask = escape (mask c) :=
    fun h => absurd rfl h
  refine ⟨fun username ip hdid expires setter => ?_, fun username address hdid now query h => ?_⟩
  · refine ⟨_, parseQueryArgs_empty (plain_banQuery username ip hdid expires setter) [], ?_⟩
    have hread := readable_banPieces (d := sql) rfl username ip hdid expires setter
    have hliteral (content : List Char) :
        .literal content ∈ banPieces username ip hdid expires setter ↔
          content = username ∨ content = setter := by
      rw [banPieces, literal_mem_codes, List.mem_cons, literal_mem_codes, List.mem_cons,
        or_iff_left (literal_notMem_codes content _), Piece.literal.injEq, Piece.literal.injEq]
    rw [banQuery_eq hmask, scan_written_iff hread.1 hread.2]
    simp only [hliteral, forall_eq, List.mem_append, or_imp, forall_and]
  · rw [checkBanQuery_eq h]
    refine ⟨_, parseQueryArgs_int (plain_checkBanText username address hdid) (by decide) now, ?_⟩
    have hread := readable_checkBanPieces (d := sql) rfl username address hdid now
    have hliteral (content : List Char) :
        .literal content ∈ checkBanPieces username address hdid now ↔ username = some content := by
      cases username with
      | none => exact iff_of_false (literal_notMem_codes content _) nofun
      | some username =>
          rw [checkBanPieces, literal_mem_codes, List.mem_cons,
            or_iff_left (literal_notMem_codes content _), Piece.literal.injEq, Option.some.injEq,
            eq_comm]
    rw [written_checkBanPieces hmask, scan_written_iff hread.1 hread.2]
    simp only [hliteral]
    cases username with
    | none => exact iff_of_true nofun nofun
    | some username => simp only [Option.some.injEq, forall_eq', Option.getD_some]

/-- A name to log in with that is no name. -/
theorem scan_bans_iff_name :
    ∃ query text, checkBanQuery .sqlServer (fun c => [c]) (some "' or 1=1 or '".toList) none none =
        some query ∧
      parseQueryArgs .sqlServer (fun c => [c]) query [.int 0] .empty = some ⟨text, [], false⟩ ∧
      scan sql text ≠
        some ((checkBanPieces (some "' or 1=1 or '".toList) none none 0).map maskPiece) := by
  obtain ⟨text, hparse, hread⟩ := (scan_bans_iff fun c => [c]).2
    (some "' or 1=1 or '".toList) none none 0 _ rfl
  refine ⟨_, text, rfl, hparse, fun h => ?_⟩
  exact (hread.mp h '\'' (by decide)).1 rfl

end ArenaServ.Database
