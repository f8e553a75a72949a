import ArenaServ.NpcSections

/-!
# The table of NPC data

The world keeps the data of each NPC behind a pointer. `ReloadPub` makes the table as long as the
new pub file and calls `Load` through the pointers that have been added, which are null.
-/

namespace ArenaServ.NpcLoading

/-- What has been read of an ENF file. Record 0 is there also in an empty one. -/
structure EnfFile where
  records : List EnfData

def EnfFile.data (file : EnfFile) : List EnfData := ⟨.other, 0⟩ :: file.records

/-- The configuration files that `Rehash` reads. -/
structure NpcFiles where
  drops : NpcConfig
  shops : NpcConfig
  skills : NpcConfig
  home : NpcConfig
  speech : NpcConfig
  homes : List Home

/-- A null pointer is `none`. -/
structure NpcTable where
  world : NpcWorld
  npcData : List (Option NpcData)

def NpcWorld.ofFiles (files : NpcFiles) (enf : List EnfData) : NpcWorld :=
  ⟨files.drops, files.shops, files.skills, files.home, files.speech, enf, files.homes⟩

namespace NpcTable

/-- `Load` through a pointer that is not null. -/
def loadAt (w : NpcWorld) (npc : NpcData) : Option (NpcData × NpcWorld) :=
  (npc.load w).map fun r => (r.1, { w with homes := r.2 })

/-- `if (npc->id != 0) npc->Load()`. -/
def loadUnlessZero (w : NpcWorld) (npc : NpcData) : Option (NpcData × NpcWorld) :=
  if npc.id ≠ 0 then loadAt w npc else some (npc, w)

/-- The loop of the constructor of the world, which constructs and so loads every entry. -/
def constructAll : List ℕ → NpcWorld → Option (List (Option NpcData) × NpcWorld)
  | [], w => some ([], w)
  | i :: rest, w =>
      (NpcData.new w (Int16.ofNat i)).bind fun r =>
        (loadUnlessZero { w with homes := r.2 } r.1).bind fun r =>
          (constructAll rest r.2).map fun s => (some r.1 :: s.1, s.2)

def startup (files : NpcFiles) (file : EnfFile) : Option NpcTable :=
  (constructAll (List.range file.data.length) (.ofFiles files file.data)).map fun r => ⟨r.2, r.1⟩

/-- The loop of `Rehash`. Its first look at an entry goes through the pointer. -/
def rehashAll : List (Option NpcData) → NpcWorld → Option (List (Option NpcData) × NpcWorld)
  | [], w => some ([], w)
  | entry :: rest, w =>
      entry.bind fun npc =>
        (loadUnlessZero w npc).bind fun r =>
          (rehashAll rest r.2).map fun s => (some r.1 :: s.1, s.2)

def rehash (files : NpcFiles) (t : NpcTable) : Option NpcTable :=
  (rehashAll t.npcData (.ofFiles files t.world.enf)).map fun r => ⟨r.2, r.1⟩

/-- `std::vector::resize`. -/
def resize (entries : List (Option NpcData)) (n : ℕ) : List (Option NpcData) :=
  entries.take n ++ List.replicate (n - entries.length) none

/-- The loop of `ReloadPub`. -/
def loadFrom (n i : ℕ) (t : NpcTable) : Option NpcTable :=
  if i < n then
    (t.npcData.getD i none).bind fun npc =>
      (loadAt t.world npc).bind fun r =>
        loadFrom n (i + 1) ⟨r.2, t.npcData.set i (some r.1)⟩
  else some t
termination_by n - i

def reloadPub (file : EnfFile) (t : NpcTable) : Option NpcTable :=
  let currentNpcs := t.npcData.length
  let newNpcs := file.data.length
  loadFrom newNpcs currentNpcs
    ⟨{ t.world with enf := file.data }, resize t.npcData newNpcs⟩

/-- The tables of a running server. -/
inductive Running : NpcTable → Prop
  | startup (files : NpcFiles) (file : EnfFile) (t : NpcTable) :
      startup files file = some t → Running t
  | rehash (files : NpcFiles) (t t' : NpcTable) :
      Running t → t.rehash files = some t' → Running t'
  | reloadPub (file : EnfFile) (t t' : NpcTable) :
      Running t → t.reloadPub file = some t' → Running t'

/-- The data has come out of `Load`. -/
def Loaded (npc : NpcData) : Prop := ∃ w before homes, NpcData.load w before = some (npc, homes)

/-- There is a loaded entry everywhere. -/
structure Whole (t : NpcTable) : Prop where
  length : t.npcData.length = t.world.enf.length
  pos : 0 < t.npcData.length
  loaded : ∀ entry ∈ t.npcData, ∃ npc, entry = some npc ∧ Loaded npc

theorem loaded_of_loadAt {w : NpcWorld} {npc : NpcData} {r : NpcData × NpcWorld}
    (h : loadAt w npc = some r) : Loaded r.1 ∧ ∃ homes, r.2 = { w with homes := homes } := by
  obtain ⟨s, hs, rfl⟩ := Option.map_eq_some_iff.mp h
  exact ⟨⟨w, npc, s.2, hs⟩, s.2, rfl⟩

theorem loaded_of_loadUnlessZero {w : NpcWorld} {npc : NpcData} {r : NpcData × NpcWorld}
    (hnpc : Loaded npc) (h : loadUnlessZero w npc = some r) :
    Loaded r.1 ∧ ∃ homes, r.2 = { w with homes := homes } := by
  unfold loadUnlessZero at h
  split_ifs at h
  · exact loaded_of_loadAt h
  · obtain rfl := Option.some.inj h
    exact ⟨hnpc, w.homes, rfl⟩

theorem loaded_of_constructAll {ids : List ℕ} {w : NpcWorld}
    {r : List (Option NpcData) × NpcWorld} (h : constructAll ids w = some r) :
    r.1.length = ids.length ∧ r.2.enf = w.enf ∧
      ∀ entry ∈ r.1, ∃ npc, entry = some npc ∧ Loaded npc := by
  induction ids generalizing w r with
  | nil =>
      obtain rfl := Option.some.inj h
      exact ⟨rfl, rfl, fun entry hentry => absurd hentry List.not_mem_nil⟩
  | cons i rest ih =>
      obtain ⟨a, ha, h⟩ := Option.bind_eq_some_iff.mp h
      obtain ⟨b, hb, h⟩ := Option.bind_eq_some_iff.mp h
      obtain ⟨s, hs, rfl⟩ := Option.map_eq_some_iff.mp h
      obtain ⟨hlength, henf, hrest⟩ := ih hs
      obtain ⟨hloaded, homes, hsame⟩ := loaded_of_loadUnlessZero ⟨w, _, a.2, ha⟩ hb
      refine ⟨congrArg (· + 1) hlength, by rw [henf, hsame], ?_⟩
      rw [List.forall_mem_cons]
      exact ⟨⟨b.1, rfl, hloaded⟩, hrest⟩

theorem loaded_of_rehashAll {entries : List (Option NpcData)} {w : NpcWorld}
    {r : List (Option NpcData) × NpcWorld}
    (hentries : ∀ entry ∈ entries, ∃ npc, entry = some npc ∧ Loaded npc)
    (h : rehashAll entries w = some r) :
    r.1.length = entries.length ∧ r.2.enf = w.enf ∧
      ∀ entry ∈ r.1, ∃ npc, entry = some npc ∧ Loaded npc := by
  induction entries generalizing w r with
  | nil =>
      obtain rfl := Option.some.inj h
      exact ⟨rfl, rfl, fun entry hentry => absurd hentry List.not_mem_nil⟩
  | cons entry rest ih =>
      obtain ⟨⟨npc, rfl, hnpc⟩, htail⟩ := List.forall_mem_cons.mp hentries
      rw [rehashAll, Option.bind_some] at h
      obtain ⟨b, hb, h⟩ := Option.bind_eq_some_iff.mp h
      obtain ⟨s, hs, rfl⟩ := Option.map_eq_some_iff.mp h
      obtain ⟨hlength, henf, hrest⟩ := ih htail hs
      obtain ⟨hloaded, homes, hsame⟩ := loaded_of_loadUnlessZero hnpc hb
      refine ⟨congrArg (· + 1) hlength, by rw [henf, hsame], ?_⟩
      rw [List.forall_mem_cons]
      exact ⟨⟨b.1, rfl, hloaded⟩, hrest⟩

/-! ## What a reload makes of it -/

section Reload
variable {t : NpcTable} {file : EnfFile}

theorem length_data_pos (file : EnfFile) : 0 < file.data.length := Nat.succ_pos _

theorem resize_of_le {entries : List (Option NpcData)} {n : ℕ} (h : n ≤ entries.length) :
    resize entries n = entries.take n := by
  rw [resize, Nat.sub_eq_zero_of_le h, List.replicate_zero, List.append_nil]

/-- A table that does not grow is cut to the new length. -/
theorem reloadPub_of_le (h : file.data.length ≤ t.npcData.length) :
    t.reloadPub file =
      some ⟨{ t.world with enf := file.data }, t.npcData.take file.data.length⟩ := by
  simp only [reloadPub]
  rw [loadFrom, if_neg (Nat.not_lt.mpr h), resize_of_le h]

/-- The first pointer that is added is followed. -/
theorem reloadPub_of_lt (h : t.npcData.length < file.data.length) : t.reloadPub file = none := by
  have hnull : (resize t.npcData file.data.length).getD t.npcData.length none = none := by
    rw [resize, List.take_of_length_le (Nat.le_of_lt h), List.getD_eq_getElem?_getD,
      List.getElem?_append_right (Nat.le_refl _), Nat.sub_self, List.getElem?_replicate]
    split_ifs <;> rfl
  simp only [reloadPub]
  rw [loadFrom, if_pos h, hnull, Option.bind_none]

theorem Whole.reloadPub_of_le (hw : t.Whole) (h : file.data.length ≤ t.npcData.length) :
    Whole ⟨{ t.world with enf := file.data }, t.npcData.take file.data.length⟩ where
  length := by rw [List.length_take, Nat.min_eq_left h]
  pos := by
    rw [List.length_take, Nat.min_eq_left h]
    exact length_data_pos file
  loaded := fun entry hentry => hw.loaded entry (List.mem_of_mem_take hentry)

theorem whole_of_startup {files : NpcFiles} (h : startup files file = some t) : t.Whole := by
  obtain ⟨r, hr, rfl⟩ := Option.map_eq_some_iff.mp h
  obtain ⟨hlength, henf, hloaded⟩ := loaded_of_constructAll hr
  rw [List.length_range] at hlength
  exact ⟨by rw [hlength, henf]; rfl, hlength ▸ length_data_pos file, hloaded⟩

theorem Whole.rehash {files : NpcFiles} {t' : NpcTable} (hw : t.Whole)
    (h : t.rehash files = some t') : t'.Whole := by
  obtain ⟨r, hr, rfl⟩ := Option.map_eq_some_iff.mp h
  obtain ⟨hlength, henf, hloaded⟩ := loaded_of_rehashAll hw.loaded hr
  exact ⟨by rw [hlength, henf, hw.length]; rfl, hlength ▸ hw.pos, hloaded⟩

/-- The table of a running server has no gap. -/
theorem Running.whole (h : Running t) : t.Whole := by
  induction h with
  | startup files file t h => exact whole_of_startup h
  | rehash files t t' _ h ih => exact ih.rehash h
  | reloadPub file t t' _ h ih =>
      rcases Nat.lt_or_ge t.npcData.length file.data.length with hlt | hle
      · rw [reloadPub_of_lt hlt] at h
        cases h
      · rw [NpcTable.reloadPub_of_le hle] at h
        obtain rfl := Option.some.inj h
        exact ih.reloadPub_of_le hle

end Reload

/-! ## Servers without homes -/

section Homeless

end Homeless

/-! ## Whether a reload is safe -/

end NpcTable

end ArenaServ.NpcLoading
