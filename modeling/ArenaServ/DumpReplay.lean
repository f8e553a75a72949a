import ArenaServ.DumpSafety
import ArenaServ.RunSteps

/-!
# How often a dump's items and chests are restored

The file that is written for the records that are left still has the whole map state, so a
later start-up from it puts the same items and chest contents on the maps again.
-/

namespace ArenaServ
open RunSteps

/-- A start-up of the server: its database, its freshly loaded maps, and what happens to the
queries and to the file. -/
structure StartUp where
  env : RestoreEnv
  tables : Tables
  maps : List DumpedMap

namespace StartUp

/-- The restored items and chest contents are on the maps then. -/
def Places (s : StartUp) (dump : WorldDump) : Prop :=
  restoreMapState dump.mapState s.maps ≠ s.maps

/-- Every remaining record is taken out of the dump. A guild may be the last one and throw
afterwards, when it is loaded. -/
def TakesEverything (s : StartUp) (dump : WorldDump) : Prop :=
  (∀ c ∈ dump.characters, s.env.takesCharacter s.tables c = true) ∧
    (∀ g ∈ dump.guilds, s.env.takesGuild g = true) ∧
      ∀ g ∈ dump.guilds.dropLast, s.env.guildRaises g = false

def restore (s : StartUp) (file : Option WorldDump) : Except RestoreError RestoredWorld :=
  restoreFromDump s.env (.settled s.tables) s.maps file

end StartUp

/-- The file, and how many of the restores have added something to the maps. -/
structure Replays where
  file : Option WorldDump
  adds : ℕ

/-- A start-up after which the server goes on. One whose restore throws writes a new dump. -/
def Replays.next (r : Replays) (s : StartUp) : Option Replays :=
  (s.restore r.file).toOption.map fun out =>
    ⟨out.file, if out.maps = s.maps then r.adds else r.adds + 1⟩

/-! ## When the file is removed -/

theorem leftOver_eq_nil_iff {α : Type} {takes raises : α → Bool} {records : List α} :
    leftOver takes raises records = [] ↔
      (∀ r ∈ records, takes r = true) ∧ ∀ r ∈ records.dropLast, raises r = false := by
  induction records with
  | nil => simp [leftOver]
  | cons record rest ih =>
      rw [leftOver]
      cases htakes : takes record with
      | false => simp [htakes]
      | true =>
          cases hraises : raises record with
          | true =>
              cases rest with
              | nil => simp [htakes]
              | cons next rest => simp [hraises]
          | false =>
              simp only [Bool.false_eq_true, ↓reduceIte, ih, List.forall_mem_cons, htakes,
                true_and]
              cases rest with
              | nil => simp
              | cons next rest => simp [hraises]

section
variable {s : StartUp} {dump : WorldDump} {out : RestoredWorld} {r r' : Replays}

theorem restoreRecords_eq_nil (h : s.TakesEverything dump) :
    (restoreRecords s.env dump (Transactional.settled s.tables).openUp).characters = [] ∧
      (restoreRecords s.env dump (Transactional.settled s.tables).openUp).guilds = [] := by
  obtain ⟨hcharacters, hguilds, hlast⟩ := h
  have hsame : RestoreEnv.SameRows s.tables (Transactional.settled s.tables).openUp
      dump.characters := ⟨dump.names, fun c _ => rfl⟩
  obtain ⟨hleft, hraised⟩ := s.env.restoreCharacters_spec hsame
  have hnone : dump.characters.any (s.env.characterRaises s.tables) = false := by
    rw [RestoreEnv.any_eq_false_iff]
    exact fun c hc => s.env.characterRaises_of_takesCharacter c (hcharacters c hc)
  unfold restoreRecords
  dsimp only
  rw [hraised, hnone, if_neg Bool.false_ne_true]
  refine ⟨hleft.trans (leftOver_eq_nil_iff.mpr ⟨hcharacters, ?_⟩), ?_⟩
  · exact fun c hc =>
      s.env.characterRaises_of_takesCharacter c (hcharacters c (List.dropLast_subset _ hc))
  · exact RestoreEnv.restoreGuilds_raised.1.trans (leftOver_eq_nil_iff.mpr ⟨hguilds, hlast⟩)

theorem file_eq_none (h : s.restore (some dump) = .ok out) (htakes : s.TakesEverything dump) :
    out.file = none := by
  have hdone := restoreRecords_eq_nil htakes
  rw [StartUp.restore, restoreFromDump] at h
  dsimp only at h
  cases hend : endTransaction s.env (!(Transactional.settled s.tables).isOpen)
      (restoreRecords s.env dump (Transactional.settled s.tables).openUp).raised
      (restoreRecords s.env dump (Transactional.settled s.tables).openUp).db with
  | none =>
      rw [hend] at h
      cases h
  | some db =>
      rw [hend] at h
      dsimp only at h
      rw [if_pos hdone] at h
      cases h
      rfl

/-! ## Runs of start-ups -/

/-- A start-up that puts something of the dump on its maps takes every remaining record. -/
def Replays.Finishes (r : Replays) (s : StartUp) : Prop :=
  ∀ dump ∈ r.file, s.Places dump → s.TakesEverything dump

/-- Nothing has been added, or it has been once and there is no file any more. -/
def Replays.Once (r : Replays) : Prop := r.adds = 0 ∨ r.adds = 1 ∧ r.file = none

theorem Replays.once_next (h : r.Once) (hfinishes : r.Finishes s) (hnext : r.next s = some r') :
    r'.Once := by
  obtain ⟨out, hout, rfl⟩ := Option.map_eq_some_iff.mp hnext
  have hok : s.restore r.file = .ok out := by
    cases hrestore : s.restore r.file with
    | error e =>
        rw [hrestore] at hout
        cases hout
    | ok out' =>
        rw [hrestore] at hout
        rw [Option.some.inj hout]
  cases hfile : r.file with
  | none =>
      rw [hfile] at hok
      cases hok
      rcases h with hnone | ⟨hone, -⟩
      · exact Or.inl ((if_pos rfl).trans hnone)
      · exact Or.inr ⟨(if_pos rfl).trans hone, rfl⟩
  | some dump =>
      have hnone : r.adds = 0 := by
        rcases h with hnone | ⟨-, hno⟩
        · exact hnone
        · rw [hfile] at hno
          cases hno
      rw [hfile] at hok
      have hmaps := (restoreFromDump_cases hok).2.1
      by_cases hplaces : s.Places dump
      · right
        refine ⟨?_, file_eq_none hok (hfinishes dump hfile hplaces)⟩
        dsimp only
        rw [if_neg (hmaps ▸ hplaces), hnone]
      · left
        dsimp only
        rw [if_pos (hmaps.trans (not_not.mp hplaces)), hnone]

end

/-- From a dump, start-ups of which none leaves records over after it has put something on its
maps add the map state at most once. -/
theorem adds_le_one {file : Option WorldDump} {startUps : List StartUp} {r : Replays}
    (hsteps : Every Replays.next Replays.Finishes ⟨file, 0⟩ startUps)
    (hr : Reaches Replays.next ⟨file, 0⟩ startUps r) : r.adds ≤ 1 := by
  have honce : r.Once := by
    apply invariant_of_every Replays.Once _ (Or.inl rfl) hsteps hr
    exact fun r s r' => Replays.once_next
  rcases honce with hnone | ⟨hone, -⟩
  · omega
  · omega

/-! ## Two start-ups from one file -/

namespace TwoStartUps

/-- A dump with a guild and an item on the ground. -/
def dump : WorldDump where
  characters := []
  names := List.nodup_nil
  guilds := [⟨"TAG", ⟨"guild", ⟨"", "", 0⟩⟩⟩]
  tags := by decide
  mapState := ⟨[⟨1, 5, 5, 7, 1, 1⟩], []⟩

/-- The statement that writes the guild comes to `write`. -/
def startUp (write : QueryResult) : StartUp where
  env := ⟨fun _ => ⟨.works, .works, .works⟩, fun _ => ⟨.works, write, .works⟩, true, true, true⟩
  tables := ⟨fun _ => none, fun _ => none⟩
  maps := [⟨1, [], []⟩]

theorem takesEverything : (startUp .works).TakesEverything dump := by
  refine ⟨?_, fun g _ => rfl, ?_⟩
  · intro c hc
    cases hc
  · intro g hg
    cases hg

end TwoStartUps

/-- The guild cannot be written, so the file is kept, and the item is added twice. -/
theorem not_adds_le_one :
    ∃ r, Reaches Replays.next ⟨some TwoStartUps.dump, 0⟩
      [TwoStartUps.startUp .fails, TwoStartUps.startUp .fails] r ∧ ¬ r.adds ≤ 1 := by
  have hrun : (run Replays.next ⟨some TwoStartUps.dump, 0⟩
      [TwoStartUps.startUp .fails, TwoStartUps.startUp .fails]).map (·.adds) = some 2 := by
    decide
  obtain ⟨r, hr, hadds⟩ := Option.map_eq_some_iff.mp hrun
  refine ⟨r, reaches_of_run hr, ?_⟩
  omega

theorem adds_le_one_restored :
    ∃ r, Reaches Replays.next ⟨some TwoStartUps.dump, 0⟩
      [TwoStartUps.startUp .works, TwoStartUps.startUp .fails] r ∧ r.adds ≤ 1 := by
  have hr : Reaches Replays.next ⟨some TwoStartUps.dump, 0⟩
      [TwoStartUps.startUp .works, TwoStartUps.startUp .fails] ⟨none, 1⟩ :=
    Or.inr ⟨⟨none, 1⟩, rfl, Or.inr ⟨⟨none, 1⟩, rfl, rfl⟩⟩
  refine ⟨_, hr, adds_le_one ?_ hr⟩
  refine ⟨?_, ?_⟩
  · intro dump hdump _
    rw [← Option.some.inj hdump]
    exact TwoStartUps.takesEverything
  · intro r hr
    rw [← Option.some.inj hr]
    exact ⟨(fun _ h => nomatch h), fun _ _ => trivial⟩

end ArenaServ
