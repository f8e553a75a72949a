import ArenaServ.QuestContext
import Mathlib.Data.List.ReduceOption

/-!
# Saved quests

A character's quests are saved as one text: a record for each quest, with its counters in
braces. The text is read back by going through it once.
-/

namespace ArenaServ

open Util

/-! ## Counters -/

def serializeEntries : List (String × Int16) → String
  | [] => ""
  | [(key, value)] => key ++ "=" ++ toText value
  | (key, value) :: rest => key ++ "=" ++ toText value ++ "," ++ serializeEntries rest

theorem serializeEntries_cons_cons (e e' : String × Int16) (rest : List (String × Int16)) :
    serializeEntries (e :: e' :: rest) =
      e.1 ++ "=" ++ toText e.2 ++ "," ++ serializeEntries (e' :: rest) := rfl

def serializeProgress (progress : SortedMap String Int16) : String :=
  "\x7b" ++ serializeEntries progress.entries ++ "\x7d"

/-- The variables of the loop of `UnserializeProgress`. -/
structure ProgressScan where
  key : List Char
  value : Int16
  readingValue : Bool
  progress : SortedMap String Int16

namespace ProgressScan

def start (progress : SortedMap String Int16) : ProgressScan := ⟨[], 0, false, progress⟩

/-- A `char` is signed. -/
def charValue (c : Char) : ℤ := if c.toNat < 128 then c.toNat else c.toNat - 256

def store (s : ProgressScan) : SortedMap String Int16 :=
  s.progress.insert (String.ofList s.key) s.value

def step (s : ProgressScan) (c : Char) : ProgressScan :=
  if s.readingValue then
    if c = ',' then start s.store
    else { s with value := s.value * 10 + Int16.ofInt (charValue c - charValue '0') }
  else if c = '=' then { s with readingValue := true }
  else { s with key := s.key ++ [c] }

/-- The loop stops at a closing brace. -/
def scan : ProgressScan → List Char → ProgressScan × List Char
  | s, [] => (s, [])
  | s, c :: rest => if c = '\x7d' then (s, c :: rest) else scan (s.step c) rest

def finish (s : ProgressScan) : SortedMap String Int16 :=
  if s.readingValue then s.store else s.progress

end ProgressScan

/-- The counters read, and the text after them. -/
def unserializeProgress (text : List Char) (progress : SortedMap String Int16) :
    SortedMap String Int16 × List Char :=
  match text with
  | '\x7b' :: rest =>
      let (s, rest') := (ProgressScan.start progress).scan rest
      (s.finish, rest'.tail)
  | _ => (progress, text)

namespace ProgressScan

/-- What has been read so far can stand before an equals sign. -/
structure WellKeyed (s : ProgressScan) : Prop where
  key : '=' ∉ s.key ∧ '\x7d' ∉ s.key ∧ ';' ∉ s.key
  progress : ∀ e ∈ s.progress.entries, IsProgressKey e.1

variable {s : ProgressScan}

theorem WellKeyed.start {progress : SortedMap String Int16}
    (h : ∀ e ∈ progress.entries, IsProgressKey e.1) : WellKeyed (start progress) :=
  ⟨⟨List.not_mem_nil, List.not_mem_nil, List.not_mem_nil⟩, h⟩

theorem WellKeyed.store (h : WellKeyed s) : ∀ e ∈ s.store.entries, IsProgressKey e.1 := by
  intro e he
  rcases SortedMap.eq_or_mem_of_mem_insert he with rfl | he
  · unfold IsProgressKey
    rw [String.toList_ofList]
    exact h.key
  · exact h.progress e he

theorem WellKeyed.step {c : Char} (h : WellKeyed s) (hbrace : c ≠ '\x7d') (hend : c ≠ ';') :
    WellKeyed (s.step c) := by
  have hkeep {d : Char} (hd : d ∉ s.key) (hc : c ≠ d) : d ∉ s.key ++ [c] := by
    rw [List.mem_append, List.mem_singleton, not_or]
    exact ⟨hd, Ne.symm hc⟩
  unfold ProgressScan.step
  split_ifs with hreading hcomma heq
  · exact .start h.store
  · exact ⟨h.key, h.progress⟩
  · exact ⟨h.key, h.progress⟩
  · exact ⟨⟨hkeep h.key.1 heq, hkeep h.key.2.1 hbrace, hkeep h.key.2.2 hend⟩, h.progress⟩

theorem WellKeyed.scan (h : WellKeyed s) {text : List Char} (htext : ';' ∉ text) :
    WellKeyed (s.scan text).1 := by
  induction text generalizing s with
  | nil => exact h
  | cons c rest ih =>
      rw [List.mem_cons, not_or] at htext
      rw [ProgressScan.scan]
      split_ifs with hc
      · exact h
      · exact ih (h.step hc (Ne.symm htext.1)) htext.2

theorem WellKeyed.finish (h : WellKeyed s) : ∀ e ∈ s.finish.entries, IsProgressKey e.1 := by
  unfold ProgressScan.finish
  split_ifs
  · exact h.store
  · exact h.progress

end ProgressScan

theorem isProgressKey_unserializeProgress {text : List Char} (htext : ';' ∉ text)
    {progress : SortedMap String Int16} (h : ∀ e ∈ progress.entries, IsProgressKey e.1) :
    ∀ e ∈ (unserializeProgress text progress).1.entries, IsProgressKey e.1 := by
  unfold unserializeProgress
  split
  · rw [List.mem_cons, not_or] at htext
    exact ((ProgressScan.WellKeyed.start h).scan htext.2).finish
  · exact h

/-! ## The counters of a record -/

/-- Nothing in the text ends the record, and it is not in the old format. -/
def IsProgressText (text : String) : Prop :=
  ';' ∉ text.toList ∧ text.toList.head? ∈ [none, some '\x7b']

instance (text : String) : Decidable (IsProgressText text) :=
  inferInstanceAs (Decidable (_ ∧ _))

abbrev ProgressText := { text : String // IsProgressText text }

theorem notMem_toText (id : Int16) {d : Char} (hminus : d ≠ '-') (hdigit : d.isDigit = false) :
    d ∉ (toText id).toList := by
  intro h
  rcases mem_toText h with h | h
  · exact hminus h
  · rw [hdigit] at h
    cases h

theorem notMem_serializeEntries {entries : List (String × Int16)}
    (h : ∀ e ∈ entries, IsProgressKey e.1) : ';' ∉ (serializeEntries entries).toList := by
  have hentry {e : String × Int16} (he : IsProgressKey e.1) :
      ';' ∉ (e.1 ++ "=" ++ toText e.2).toList := by
    simp only [String.toList_append, List.mem_append, not_or]
    exact ⟨⟨he.2.2, by decide⟩, notMem_toText e.2 (by decide) (by decide)⟩
  induction entries with
  | nil => exact List.not_mem_nil
  | cons e rest ih =>
      obtain ⟨he, hrest⟩ := List.forall_mem_cons.mp h
      cases rest with
      | nil => exact hentry he
      | cons e' rest =>
          rw [serializeEntries_cons_cons, String.toList_append, String.toList_append,
            List.mem_append, List.mem_append, not_or, not_or]
          exact ⟨⟨hentry he, by decide⟩, ih hrest⟩

theorem isProgressText_serializeProgress {progress : SortedMap String Int16}
    (h : ∀ e ∈ progress.entries, IsProgressKey e.1) :
    IsProgressText (serializeProgress progress) := by
  have htext : (serializeProgress progress).toList =
      '\x7b' :: ((serializeEntries progress.entries).toList ++ ['\x7d']) := by
    rw [serializeProgress, String.toList_append, String.toList_append]
    rfl
  unfold IsProgressText
  rw [htext]
  refine ⟨?_, by simp⟩
  rw [List.mem_cons, List.mem_append, not_or, not_or]
  exact ⟨by decide, notMem_serializeEntries h, by decide⟩

namespace QuestContext

def progressText (c : QuestContext) : ProgressText :=
  ⟨serializeProgress c.progress, isProgressText_serializeProgress c.progress_keys⟩

def unserialize (text : ProgressText) (c : QuestContext) : QuestContext :=
  { c with
    progress := (unserializeProgress text.val.toList c.progress).1
    progress_keys := isProgressKey_unserializeProgress text.property.1 c.progress_keys }

theorem quest_unserialize (text : ProgressText) (c : QuestContext) :
    (c.unserialize text).quest = c.quest := rfl

end QuestContext

/-! ## Records -/

/-- `Character_QuestState`; the sets of them are ordered by quest. -/
structure CharacterQuestState where
  questState : String
  questProgress : ProgressText
  deriving DecidableEq

def serializeRecord (id : Int16) (r : CharacterQuestState) : String :=
  toText id ++ "," ++ r.questState ++ "," ++ r.questProgress.val ++ ";"

def QuestContext.record (c : QuestContext) : CharacterQuestState :=
  ⟨c.stateName, c.progressText⟩

/-- The records of the quests that are there. -/
def activeRecords (list : SortedMap Int16 (Option QuestContext)) :
    List (Int16 × CharacterQuestState) :=
  list.entries.filterMap fun e => e.2.map fun c => (c.quest.id, c.record)

/-- The inactive records, but for quests that were restarted. -/
def inactiveRecords (list : SortedMap Int16 (Option QuestContext))
    (inactive : SortedMap Int16 CharacterQuestState) : List (Int16 × CharacterQuestState) :=
  inactive.entries.filter fun e => (list.find? e.1).isNone

def serializeRecords (records : List (Int16 × CharacterQuestState)) : String :=
  String.join (records.map fun e => serializeRecord e.1 e.2)

def questSerialize (list : SortedMap Int16 (Option QuestContext))
    (inactive : SortedMap Int16 CharacterQuestState) : String :=
  serializeRecords (activeRecords list ++ inactiveRecords list inactive)

def noProgress : ProgressText := ⟨"\x7b\x7d", by decide⟩

/-- Counters of the old format are dropped. -/
def convertProgress (progress : List Char) (h : ';' ∉ progress) : ProgressText :=
  match progress, h with
  | [], _ => ⟨"", by decide⟩
  | c :: rest, h =>
      if hc : c = '\x7b' then
        ⟨String.ofList (c :: rest), by
          rw [IsProgressText, String.toList_ofList, hc]
          exact ⟨hc ▸ h, by simp⟩⟩
      else noProgress

/-- A piece of the saved text. -/
def parseRecord (part : List Char) (h : ';' ∉ part) : Option (Int16 × CharacterQuestState) :=
  match hid : cutFirst ',' part with
  | none => none
  | some (id, rest) =>
      let questId := (toInt id).toInt16
      match hstate : cutFirst ',' rest with
      | some (state, progress) =>
          some (questId, ⟨String.ofList state, convertProgress progress
            (notMem_of_cutFirst hstate (notMem_of_cutFirst hid h))⟩)
      | none =>
          let state := ((cutFirst ';' rest).map Prod.fst).getD rest
          some (questId, ⟨String.ofList state, noProgress⟩)

def parseRecords (serialized : String) : List (Int16 × CharacterQuestState) :=
  ((explode ';' serialized.toList).pmap parseRecord fun _ => notMem_of_mem_explode).reduceOption

end ArenaServ
