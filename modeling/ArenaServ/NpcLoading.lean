import ArenaServ.TextUtil

/-!
# Loading the data of an NPC

`NPC_Data::Load` reads what an NPC drops, trades, crafts, teaches, asks and says from five
configuration files. Each of the lists stands in one value and is cut into groups of fields.
-/

namespace ArenaServ.NpcLoading
open Util

/-! ## The data -/

structure NpcDrop where
  id : UInt16
  min : Int32
  max : Int32
  chance : ℚ
  chanceOffset : ℚ
  deriving DecidableEq, Repr

structure NpcShopTradeItem where
  id : UInt16
  buy : Int32
  sell : Int32
  deriving DecidableEq, Repr

structure NpcShopCraftIngredient where
  id : UInt16
  amount : UInt8
  deriving DecidableEq, Repr

structure NpcShopCraftItem where
  id : UInt16
  ingredients : List NpcShopCraftIngredient
  deriving DecidableEq, Repr

structure NpcLearnSkill where
  id : UInt16
  cost : Int32
  levelreq : UInt8
  classreq : UInt8
  skillreq : List Int16
  strreq : Int16
  intreq : Int16
  wisreq : Int16
  agireq : Int16
  conreq : Int16
  chareq : Int16
  deriving DecidableEq, Repr

structure NpcCitizenship where
  home : List Char
  questions : Vector (List Char) 3
  answers : Vector (List Char) 3
  deriving DecidableEq, Repr

def NpcCitizenship.new (home : List Char) : NpcCitizenship :=
  ⟨home, Vector.replicate 3 [], Vector.replicate 3 []⟩

structure NpcData where
  id : Int16
  drops : List NpcDrop
  dropsChanceTotal : ℚ
  shopName : List Char
  skillName : List Char
  shopTrade : List NpcShopTradeItem
  shopCraft : List NpcShopCraftItem
  skillLearn : List NpcLearnSkill
  citizenship : Option NpcCitizenship
  talkSpeed : ℚ
  talkChance : ℚ
  talkPhrases : List (List Char)
  deriving DecidableEq, Repr

/-- The kinds of NPC that `Load` tells apart. -/
inductive EnfType where
  | shop
  | inn
  | skills
  | other
  deriving DecidableEq, Repr

structure EnfData where
  type : EnfType
  vendorId : Int16
  deriving DecidableEq, Repr

/-- What is read of a file: the entries, in the order of the map that holds them, and what
`operator[]` gives as a text. -/
structure NpcConfig where
  entries : List (List Char × List Char)
  value : List Char → List Char

def NpcConfig.find (config : NpcConfig) (key : List Char) : Option (List Char) :=
  config.entries.lookup key

structure Home where
  id : List Char
  innkeeperVend : Int32
  deriving DecidableEq, Repr

structure NpcWorld where
  dropsConfig : NpcConfig
  shopsConfig : NpcConfig
  skillsConfig : NpcConfig
  homeConfig : NpcConfig
  speechConfig : NpcConfig
  enf : List EnfData
  homes : List Home

/-- `ENF::Get`. A negative number is beyond the end there. -/
def NpcWorld.getEnf (w : NpcWorld) (id : Int16) : EnfData :=
  if 0 ≤ id.toInt ∧ id.toInt.toNat < w.enf.length then w.enf.getD id.toInt.toNat ⟨.other, 0⟩
  else w.enf.getD 0 ⟨.other, 0⟩

/-- `home->innkeeper_vend = vendor` for the home with this name, if there is one. -/
def setInnkeeper (home : List Char) (vendor : Int16) : List Home → List Home
  | [] => []
  | h :: homes =>
      if h.id = home then { h with innkeeperVend := vendor.toInt32 } :: homes
      else h :: setInnkeeper home vendor homes

namespace NpcData

/-! ## Lists of groups -/

/-- The fields of each group of `n`. -/
def groups (n : ℕ) (parts : List (List Char)) : List (ℕ → List Char) :=
  (List.range (parts.length / n)).map fun k j => parts.getD (n * k + j) []

def word (part : List Char) : UInt16 := (toInt part).toUInt32.toUInt16

def byte (part : List Char) : UInt8 := (toInt part).toUInt32.toUInt8

def short (part : List Char) : Int16 := (toInt part).toInt16

/-- Each drop begins where the chances of those before it end. -/
def dropsFrom (offset : ℚ) : List (ℕ → List Char) → List NpcDrop
  | [] => []
  | part :: rest =>
      ⟨word (part 0), toInt (part 1), toInt (part 2), tdparse (part 3), offset⟩ ::
        dropsFrom (offset + tdparse (part 3)) rest

def chanceTotal (parts : List (ℕ → List Char)) : ℚ :=
  let chanceOffset := parts.foldl (fun offset part => offset + tdparse (part 3)) 0
  if 100001 / 1000 < chanceOffset then chanceOffset else 100

def tradeItem (part : ℕ → List Char) : NpcShopTradeItem :=
  ⟨word (part 0), toInt (part 1), toInt (part 2)⟩

def craftItem (part : ℕ → List Char) : NpcShopCraftItem :=
  ⟨word (part 0), (List.range 4).map fun i => ⟨word (part (1 + i * 2)), byte (part (2 + i * 2))⟩⟩

def learnSkill (part : ℕ → List Char) : NpcLearnSkill where
  id := word (part 0)
  cost := toInt (part 1)
  levelreq := byte (part 2)
  classreq := byte (part 3)
  skillreq := (List.range 4).map fun i => short (part (4 + i))
  strreq := short (part 8)
  intreq := short (part 9)
  wisreq := short (part 10)
  agireq := short (part 11)
  conreq := short (part 12)
  chareq := short (part 13)

/-- A list of groups of `n` fields, and whether `Load` goes on behind it. -/
def loadGroups (n : ℕ) (text : Option (List Char))
    (store : List (ℕ → List Char) → NpcData → NpcData) (npc : NpcData) : NpcData × Bool :=
  text.elim (npc, true) fun text =>
    let parts := explode ',' text
    if 1 < parts.length then
      if parts.length % n ≠ 0 then (npc, false) else (store (groups n parts) npc, true)
    else (npc, true)

/-! ## The sections -/

section Sections
variable (w : NpcWorld) (npc : NpcData)

def key (id : Int16) (name : String) : List Char := (toText id).toList ++ name.toList

/-- The number an NPC has in a file, by the version of which it is its own or that of its vendor. -/
def vendId (config : NpcConfig) : Int16 :=
  if toInt (config.value "Version".toList) < 2 then npc.id else (w.getEnf npc.id).vendorId

def unload : NpcData :=
  { npc with
    drops := []
    shopTrade := []
    shopCraft := []
    skillLearn := []
    dropsChanceTotal := 0
    citizenship := none
    talkSpeed := 0
    talkChance := 0
    talkPhrases := [] }

def dropsText : Option (List Char) := w.dropsConfig.find (key npc.id "")

def loadDrops : NpcData × Bool :=
  npc.loadGroups 4 (npc.dropsText w) fun parts npc =>
    { npc with drops := dropsFrom 0 parts, dropsChanceTotal := chanceTotal parts }

def IsShop : Prop :=
  (w.getEnf npc.id).type = .shop ∧ 0 < npc.vendId w w.shopsConfig

def tradeText : Option (List Char) :=
  w.shopsConfig.find (key (npc.vendId w w.shopsConfig) ".trade")

def craftText : Option (List Char) :=
  w.shopsConfig.find (key (npc.vendId w w.shopsConfig) ".craft")

instance : Decidable (npc.IsShop w) := inferInstanceAs (Decidable (_ ∧ _))

def loadShop : NpcData × Bool :=
  if npc.IsShop w then
    let named := { npc with
      shopName := w.shopsConfig.value (key (npc.vendId w w.shopsConfig) ".name") }
    let traded := named.loadGroups 3 (npc.tradeText w) fun parts npc =>
      { npc with shopTrade := parts.map tradeItem }
    if traded.2 then
      traded.1.loadGroups 9 (npc.craftText w) fun parts npc =>
        { npc with shopCraft := parts.map craftItem }
    else traded
  else (npc, true)

def IsTeacher : Prop :=
  (w.getEnf npc.id).type = .skills ∧ 0 < npc.vendId w w.skillsConfig

instance : Decidable (npc.IsTeacher w) := inferInstanceAs (Decidable (_ ∧ _))

def learnText : Option (List Char) :=
  w.skillsConfig.find (key (npc.vendId w w.skillsConfig) ".learn")

def loadSkills : NpcData × Bool :=
  if npc.IsTeacher w then
    let named := { npc with
      skillName := w.skillsConfig.value (key (npc.vendId w w.skillsConfig) ".name") }
    named.loadGroups 14 (npc.learnText w) fun parts npc =>
      { npc with skillLearn := parts.map learnSkill }
  else (npc, true)

def IsInnkeeper : Prop :=
  (w.getEnf npc.id).type = .inn ∧ 0 < npc.vendId w w.homeConfig

instance : Decidable (npc.IsInnkeeper w) := inferInstanceAs (Decidable (_ ∧ _))

/-- The last character of a key, as an index. -/
def answerIndex (part : List Char) : ℤ := ((part.getLastD '\x00').toNat : ℤ) - '1'.toNat

/-- `questions[index] = text`; `none` where there is no such element. -/
def storeAt (texts : Vector (List Char) 3) (index : ℤ) (text : List Char) :
    Option (Vector (List Char) 3) :=
  if h : 0 ≤ index ∧ index.toNat < 3 then some (texts.set index.toNat text h.2) else none

/-- The two branches for a question and an answer. A warning does not stop the write. -/
def storeAnswer (c : NpcCitizenship) (parts : List (List Char)) (text : List Char) :
    Option NpcCitizenship :=
  let part := parts.getD 1 []
  if c.home = parts.getD 0 [] ∧ part.dropLast = "question".toList then
    (storeAt c.questions (answerIndex part) text).map fun questions => { c with questions }
  else if c.home = parts.getD 0 [] ∧ part.dropLast = "answer".toList then
    (storeAt c.answers (answerIndex part) text).map fun answers => { c with answers }
  else some c

/-- This entry makes the NPC with the number the innkeeper of a home. -/
def namesInnkeeper (vend : Int16) (entry : List Char × List Char) : Bool :=
  (explode '.' entry.1).getD 1 [] == "innkeeper".toList && toInt entry.2 == vend.toInt32

/-- The loop over the entries `all` of the file, which is begun again once the home is known. -/
def citizenLoop (vend vendor : Int16) (all : List (List Char × List Char)) :
    List (List Char × List Char) → Option NpcCitizenship → List Home →
      Option (Option NpcCitizenship × List Home)
  | [], c, homes => some (c, homes)
  | entry :: rest, none, homes =>
      let parts := explode '.' entry.1
      if parts.length < 2 then citizenLoop vend vendor all rest none homes
      else if namesInnkeeper vend entry then
        citizenLoop vend vendor all all (some (.new (parts.getD 0 [])))
          (setInnkeeper (parts.getD 0 []) vendor homes)
      else citizenLoop vend vendor all rest none homes
  | entry :: rest, some c, homes =>
      let parts := explode '.' entry.1
      if parts.length < 2 then citizenLoop vend vendor all rest (some c) homes
      else
        (storeAnswer c parts entry.2).bind fun c => citizenLoop vend vendor all rest (some c) homes
termination_by entries c _ => (if c.isNone then 1 else 0, entries.length)

def loadCitizenship : Option (NpcData × List Home) :=
  if npc.IsInnkeeper w then
    (citizenLoop (npc.vendId w w.homeConfig) (w.getEnf npc.id).vendorId w.homeConfig.entries
      w.homeConfig.entries npc.citizenship w.homes).map fun r =>
        ({ npc with citizenship := r.1 }, r.2)
  else some (npc, w.homes)

/-- The phrases from number `i` on, with a bound on the rounds. -/
def phrasesFrom (config : NpcConfig) (id : Int16) : ℕ → ℕ → List (List Char)
  | 0, _ => []
  | fuel + 1, i =>
      (config.find (key id ".speech." ++ (toString i).toList)).elim [] fun text =>
        text :: phrasesFrom config id fuel (i + 1)

/-- There are no more phrases than entries. -/
def loadSpeech : NpcData :=
  { npc with
    talkSpeed := tdparse (w.speechConfig.value (key npc.id ".frequency"))
    talkChance := tdparse (w.speechConfig.value (key npc.id ".chance"))
    talkPhrases := npc.talkPhrases ++
      phrasesFrom w.speechConfig npc.id (w.speechConfig.entries.length + 1) 1 }

/-- `none` is a write outside of an array. A `return` leaves out what would be next. -/
def load : Option (NpcData × List Home) :=
  let dropped := npc.unload.loadDrops w
  if dropped.2 then
    let shopped := dropped.1.loadShop w
    if shopped.2 then
      let taught := shopped.1.loadSkills w
      if taught.2 then
        (taught.1.loadCitizenship w).map fun r => (r.1.loadSpeech w, r.2)
      else some (taught.1, w.homes)
    else some (shopped.1, w.homes)
  else some (dropped.1, w.homes)

/-- The constructor. -/
def new (id : Int16) : Option (NpcData × List Home) :=
  load w ⟨id, [], 0, [], [], [], [], [], none, 0, 0, []⟩

/-! ## Each section by itself -/

/-- What is in a list of groups of `n` fields. One that cannot be cut into groups has nothing. -/
def groupsOf (n : ℕ) (text : Option (List Char)) : List (ℕ → List Char) :=
  text.elim [] fun text =>
    let parts := explode ',' text
    if 1 < parts.length ∧ parts.length % n = 0 then groups n parts else []

/-- There are fields, but their number is wrong. -/
def Malformed (n : ℕ) (text : Option (List Char)) : Prop :=
  ∃ t, text = some t ∧ 1 < (explode ',' t).length ∧ (explode ',' t).length % n ≠ 0

/-- A question or an answer with a number that is not 1, 2 or 3 is left out. -/
def answer (c : NpcCitizenship) (entry : List Char × List Char) : NpcCitizenship :=
  let parts := explode '.' entry.1
  if parts.length < 2 then c else (storeAnswer c parts entry.2).getD c

def citizenshipOf (home : List Char) : NpcCitizenship :=
  w.homeConfig.entries.foldl answer (.new home)

/-- The home that the NPC is the innkeeper of. -/
def innHome : Option (List Char) :=
  if npc.IsInnkeeper w then
    (w.homeConfig.entries.find? (namesInnkeeper (npc.vendId w w.homeConfig))).map fun entry =>
      (explode '.' entry.1).getD 0 []
  else none

/-- Every field is what its own section says. -/
def loadEach : NpcData × List Home :=
  ({ id := npc.id
     drops := dropsFrom 0 (groupsOf 4 (npc.dropsText w))
     dropsChanceTotal :=
       if groupsOf 4 (npc.dropsText w) = [] then 0 else chanceTotal (groupsOf 4 (npc.dropsText w))
     shopName :=
       if npc.IsShop w then w.shopsConfig.value (key (npc.vendId w w.shopsConfig) ".name")
       else npc.shopName
     skillName :=
       if npc.IsTeacher w then w.skillsConfig.value (key (npc.vendId w w.skillsConfig) ".name")
       else npc.skillName
     shopTrade := if npc.IsShop w then (groupsOf 3 (npc.tradeText w)).map tradeItem else []
     shopCraft := if npc.IsShop w then (groupsOf 9 (npc.craftText w)).map craftItem else []
     skillLearn := if npc.IsTeacher w then (groupsOf 14 (npc.learnText w)).map learnSkill else []
     citizenship := (npc.innHome w).map (citizenshipOf w)
     talkSpeed := tdparse (w.speechConfig.value (key npc.id ".frequency"))
     talkChance := tdparse (w.speechConfig.value (key npc.id ".chance"))
     talkPhrases := phrasesFrom w.speechConfig npc.id (w.speechConfig.entries.length + 1) 1 },
    (npc.innHome w).elim w.homes fun home => setInnkeeper home (w.getEnf npc.id).vendorId w.homes)

/-- The keys of a home name one of the three elements. -/
def AnswerFits (home : List Char) (entry : List Char × List Char) : Prop :=
  let parts := explode '.' entry.1
  2 ≤ parts.length → home = parts.getD 0 [] →
    (parts.getD 1 []).dropLast = "question".toList ∨
      (parts.getD 1 []).dropLast = "answer".toList →
    0 ≤ answerIndex (parts.getD 1 []) ∧ answerIndex (parts.getD 1 []) < 3

/-! ## Sections that have nothing for the NPC -/

def ShopSilent : Prop :=
  npc.IsShop w → w.shopsConfig.value (key (npc.vendId w w.shopsConfig) ".name") = npc.shopName ∧
    groupsOf 3 (npc.tradeText w) = [] ∧ groupsOf 9 (npc.craftText w) = []

def SkillsSilent : Prop :=
  npc.IsTeacher w →
    w.skillsConfig.value (key (npc.vendId w w.skillsConfig) ".name") = npc.skillName ∧
      groupsOf 14 (npc.learnText w) = []

def SpeechSilent : Prop :=
  tdparse (w.speechConfig.value (key npc.id ".frequency")) = 0 ∧
    tdparse (w.speechConfig.value (key npc.id ".chance")) = 0 ∧
    w.speechConfig.find (key npc.id ".speech." ++ "1".toList) = none

def TalkSilent : Prop := npc.innHome w = none ∧ npc.SpeechSilent w

/-- Behind a list with a wrong number of fields there is nothing that could get lost, and no key
names an element beyond the third. -/
structure LosesNothing : Prop where
  drops : Malformed 4 (npc.dropsText w) → npc.ShopSilent w ∧ npc.SkillsSilent w ∧ npc.TalkSilent w
  trade : npc.IsShop w → Malformed 3 (npc.tradeText w) →
    groupsOf 9 (npc.craftText w) = [] ∧ npc.SkillsSilent w ∧ npc.TalkSilent w
  craft : npc.IsShop w → Malformed 9 (npc.craftText w) → npc.SkillsSilent w ∧ npc.TalkSilent w
  skills : npc.IsTeacher w → Malformed 14 (npc.learnText w) → npc.TalkSilent w
  keys : ∀ home, npc.innHome w = some home → ∀ entry ∈ w.homeConfig.entries, AnswerFits home entry

/-- `Load` ends, writes inside of its arrays only, and lets no section stand in another's way. -/
def LoadsEach : Prop := npc.load w = some (npc.loadEach w)

end Sections

end NpcData

end ArenaServ.NpcLoading
