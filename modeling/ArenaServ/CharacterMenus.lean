import ArenaServ.Boards
import ArenaServ.Commands
import ArenaServ.FreeIds
import ArenaServ.Marriages

/-!
# The character menu

A player that has logged in creates and deletes the characters of its account. Where there is no
administrator the first character to be created becomes one; the table gets to know of that when
the character has entered the world and is saved.
-/

namespace ArenaServ

/-- A row of the table `characters`. -/
structure MenuRow where
  name : RealName
  account : String
  admin : AdminLevel
  deriving DecidableEq

/-- The last field is history: the character became the first administrator, and has not been
saved since. -/
structure MenuCharacter where
  id : ℕ
  name : RealName
  admin : AdminLevel
  unsaved : Bool
  deriving DecidableEq

/-- `Player`, with the character that has been chosen and whether it has entered the world. -/
structure MenuPlayer where
  username : String
  characters : List MenuCharacter
  charOpId : UInt16
  character : Option RealName
  online : Bool
  deriving DecidableEq

/-- What a packet gives of the looks of a new character. -/
structure MenuLooks where
  gender : UInt16
  hairstyle : UInt16
  haircolor : UInt16
  race : UInt16

structure MenuConfig where
  maxCharacters : Int32
  firstCharacterAdmin : Bool
  createMinHairStyle : Int32
  createMaxHairStyle : Int32
  createMinHairColor : Int32
  createMaxHairColor : Int32
  createMinSkin : Int32
  createMaxSkin : Int32

/-- The last field is history: how many first administrators have left unsaved. -/
structure MenuWorld where
  rows : List MenuRow
  players : List MenuPlayer
  lastCharacterId : ℕ
  adminCount : ℤ
  lost : ℕ
  deriving DecidableEq

/-- `CharacterReply`, and the other ways to answer. -/
inductive MenuReply where
  | operation (id : UInt16)
  | confirm (operation : UInt16) (id : ℕ)
  | exists
  | full
  | notApproved
  | ok
  | deleted
  /-- The client is closed. -/
  | closed
  /-- There is no reply. -/
  | silent
  deriving DecidableEq

/-- `World::GenerateOperationID`, from the first candidate on. It goes on for ever where all ids are
taken. -/
def generateOperationID (taken : List UInt16) (candidate : UInt16) : Option UInt16 :=
  FreeIds.search (· + 1) taken (2 ^ 16) candidate

def MenuRow.isOf (account : String) (r : MenuRow) : Bool := r.account = account

def MenuRow.isStaff (r : MenuRow) : Bool := 0 < r.admin

def MenuCharacter.isStaff (c : MenuCharacter) : Bool := 0 < c.admin

/-- The row once a character has been saved. -/
def MenuRow.written (c : MenuCharacter) (r : MenuRow) : MenuRow :=
  if r.name = c.name then { r with admin := c.admin } else r

/-- Both enumerations are bytes. -/
def MenuLooks.allowed (config : MenuConfig) (looks : MenuLooks) : Bool :=
  let gender := looks.gender.toUInt8
  let race := Int32.ofNat looks.race.toUInt8.toNat
  let hairstyle := Int32.ofNat looks.hairstyle.toNat
  let haircolor := Int32.ofNat looks.haircolor.toNat
  (gender = 0 || gender = 1) &&
    (config.createMinHairStyle ≤ hairstyle && hairstyle ≤ config.createMaxHairStyle) &&
    (config.createMinHairColor ≤ haircolor && haircolor ≤ config.createMaxHairColor) &&
    (config.createMinSkin ≤ race && race ≤ config.createMaxSkin)

namespace MenuPlayer

variable (p : MenuPlayer)

def named (id : ℕ) : Option MenuCharacter := p.characters.find? (·.id = id)

/-- The character that is in the world. -/
def playing : Option MenuCharacter :=
  if p.online then p.characters.find? fun c => p.character = some c.name else none

/-- The characters, with the one of a name changed. -/
def alter (name : RealName) (f : MenuCharacter → MenuCharacter) : MenuPlayer :=
  { p with characters := p.characters.map fun c => if c.name = name then f c else c }

/-- The player once the character in the world has been saved. -/
def saved : MenuPlayer :=
  p.playing.elim p fun c => p.alter c.name fun c => { c with unsaved := false }

end MenuPlayer

namespace MenuWorld

variable (w : MenuWorld)

def others (username : String) : List MenuPlayer := w.players.filter (·.username ≠ username)

/-- A player is written. -/
def put (p : MenuPlayer) : MenuWorld := { w with players := p :: w.others p.username }

/-- `Player::NewCharacterOp`; a client that has not logged in has no operation. -/
def newCharacterOp (p : MenuPlayer) (guests : ℕ) (candidate : UInt16) : Option MenuPlayer :=
  (generateOperationID (w.players.map MenuPlayer.charOpId ++ List.replicate guests 0)
    candidate).map fun id => { p with charOpId := id }

/-- `Character_Request`. -/
def characterRequest (p : MenuPlayer) (guests : ℕ) (candidate : UInt16) (content : String) :
    Option (MenuWorld × MenuReply) :=
  if content ≠ "NEW" then some (w, .closed)
  else (w.newCharacterOp p guests candidate).map fun p' => (w.put p', .operation p'.charOpId)

/-- `Character_Take`. -/
def characterTake (p : MenuPlayer) (guests : ℕ) (candidate : UInt16) (id : ℕ) :
    Option (MenuWorld × MenuReply) :=
  match p.named id with
  | none => some (w, .closed)
  | some _ =>
    (w.newCharacterOp p guests candidate).map fun p' => (w.put p', .confirm p'.charOpId id)

/-- `Player::AddCharacter`, of a player whose operation has ended. It may add nothing. -/
def addCharacter (config : MenuConfig) (p : MenuPlayer) (name : RealName) : MenuWorld :=
  if config.maxCharacters.toInt < p.characters.length then w.put p
  else
    let first := w.adminCount = 0 && config.firstCharacterAdmin
    let c : MenuCharacter :=
      ⟨w.lastCharacterId + 1, name, if first then AdminLevel.hgm else 0, first⟩
    { w.put { p with characters := p.characters ++ [c] } with
      rows := w.rows ++ [⟨name, p.username, 0⟩]
      lastCharacterId := w.lastCharacterId + 1
      adminCount := if first then w.adminCount + 1 else w.adminCount }

/-- `World::CharacterExists`. -/
def characterExists (name : RealName) : Bool := w.rows.any (·.name = name)

/-- `Character_Create`. -/
def characterCreate (config : MenuConfig) (p : MenuPlayer) (createId : UInt16) (looks : MenuLooks)
    (text : List Char) : MenuWorld × MenuReply :=
  if createId ≠ p.charOpId ∨ looks.allowed config = false then (w, .closed)
  else
    let name := RealName.of text
    let p' := { p with charOpId := 0 }
    if sizeOf32 config.maxCharacters ≤ p.characters.length then (w.put p', .full)
    else if name.valid = false then (w.put p', .notApproved)
    else if w.characterExists name then (w.put p', .exists)
    else (w.addCharacter config p' name, .ok)

/-- `Character_Remove`. -/
def characterRemove (p : MenuPlayer) (deleteId : UInt16) (id : ℕ) : MenuWorld × MenuReply :=
  match p.named id with
  | none => (w, .closed)
  | some c =>
    if deleteId ≠ p.charOpId then (w, .closed)
    else
      ({ w.put { p with characters := p.characters.eraseP (·.id = id), charOpId := 0 } with
        rows := w.rows.filter (·.name ≠ c.name)
        adminCount := if c.isStaff then w.adminCount - 1 else w.adminCount }, .deleted)

/-- `Welcome_Request`. -/
def welcomeRequest (p : MenuPlayer) (id : ℕ) : MenuWorld :=
  match p.named id with
  | none => w
  | some c => w.put { p with character := some c.name }

/-- The admin level of a character in the world is set. -/
def setAdmin (p : MenuPlayer) (level : AdminLevel) : MenuWorld :=
  match p.playing with
  | none => w
  | some c =>
    { w.put (p.alter c.name fun c => { c with admin := level }) with
      adminCount :=
        if level = 0 ∧ c.admin ≠ 0 then w.adminCount - 1
        else if level ≠ 0 ∧ c.admin = 0 then w.adminCount + 1
        else w.adminCount }

/-- The rows once the character in the world has been saved. -/
def savedRows (p : MenuPlayer) : List MenuRow :=
  p.playing.elim w.rows fun c => w.rows.map (MenuRow.written c)

/-- `Character::Save` of the character in the world. -/
def save (p : MenuPlayer) : MenuWorld := { w.put p.saved with rows := w.savedRows p }

/-- `Player::Logout`, which saves the character in the world. -/
def logout (p : MenuPlayer) : MenuWorld :=
  { w with
    rows := w.savedRows p
    players := w.others p.username
    lost := w.lost + p.saved.characters.countP MenuCharacter.unsaved }

/-- The characters of a player get the next ids. -/
def loadCharacters : ℕ → List MenuRow → List MenuCharacter
  | _, [] => []
  | lastId, r :: rest => ⟨lastId + 1, r.name, r.admin, false⟩ :: loadCharacters (lastId + 1) rest

/-- `Player::Player`, whose query puts the rows into some order. -/
def login (username : String) (order : List MenuRow) : MenuWorld :=
  { w with
    players := ⟨username, loadCharacters w.lastCharacterId order, 0, none, false⟩ :: w.players
    lastCharacterId := w.lastCharacterId + order.length }

/-- The server starts, and counts the administrators. -/
def start (rows : List MenuRow) : MenuWorld := ⟨rows, [], 0, rows.countP MenuRow.isStaff, 0⟩

end MenuWorld

inductive MenuEvent where
  | login (username : String) (order : List MenuRow)
  | request (username : String) (guests : ℕ) (candidate : UInt16) (content : String)
  | take (username : String) (guests : ℕ) (candidate : UInt16) (id : ℕ)
  | create (username : String) (createId : UInt16) (looks : MenuLooks) (text : List Char)
  | remove (username : String) (deleteId : UInt16) (id : ℕ)
  | choose (username : String) (id : ℕ)
  | enter (username : String)
  | setAdmin (username : String) (level : AdminLevel)
  | save (username : String)
  | logout (username : String)
  | restart

namespace MenuWorld

variable (config : MenuConfig) (w : MenuWorld)

/-- What is done for a player, if there is one. -/
def onPlayer (username : String) (act : MenuPlayer → Option MenuWorld) : Option MenuWorld :=
  (w.players.find? (·.username = username)).elim (some w) act

/-- What is done for a player that has chosen no character. -/
def onMenu (username : String) (act : MenuPlayer → Option MenuWorld) : Option MenuWorld :=
  w.onPlayer username fun p => if p.character.isSome then some w else act p

/-- The menu is left by the choice of a character. A player is logged in once. -/
def step (w : MenuWorld) : MenuEvent → Option MenuWorld
  | .login username order =>
      if (w.players.any (·.username = username)) = true then some w
      else if order.isPerm (w.rows.filter (·.isOf username)) then
        some (w.login username order)
      else none
  | .request username guests candidate content =>
      w.onMenu username fun p => (w.characterRequest p guests candidate content).map Prod.fst
  | .take username guests candidate id =>
      w.onMenu username fun p => (w.characterTake p guests candidate id).map Prod.fst
  | .create username createId looks text =>
      w.onMenu username fun p => some (w.characterCreate config p createId looks text).1
  | .remove username deleteId id =>
      w.onMenu username fun p => some (w.characterRemove p deleteId id).1
  | .choose username id => w.onMenu username fun p => some (w.welcomeRequest p id)
  | .enter username =>
      w.onPlayer username fun p =>
        some (if p.character.isSome then w.put { p with online := true } else w)
  | .setAdmin username level => w.onPlayer username fun p => some (w.setAdmin p level)
  | .save username => w.onPlayer username fun p => some (w.save p)
  | .logout username => w.onPlayer username fun p => some (w.logout p)
  | .restart => some (start w.rows)

def run (w : MenuWorld) : List MenuEvent → Option MenuWorld := RunSteps.run (step config) w

/-! ## What is kept -/

/-- A character is what its row says, unless it is an administrator that has not been saved. -/
def Recorded (rows : List MenuRow) (c : MenuCharacter) : Prop :=
  ∃ row ∈ rows, row.name = c.name ∧
    if c.unsaved then row.admin = 0 ∧ c.isStaff else row.admin = c.admin

def online (account : String) : Bool := account ∈ w.players.map MenuPlayer.username

/-- The administrators: of a player that is there as it has them, of others as their rows say. -/
def staff : ℕ :=
  (w.players.map fun p => p.characters.countP MenuCharacter.isStaff).sum +
    w.rows.countP fun r => r.isStaff && !w.online r.account

structure Kept (config : MenuConfig) (rows : List MenuRow) (w : MenuWorld) : Prop where
  names : (w.rows.map MenuRow.name).Nodup
  usernames : (w.players.map MenuPlayer.username).Nodup
  characters : ∀ p ∈ w.players, (p.characters.map MenuCharacter.name).Perm
    ((w.rows.filter (·.isOf p.username)).map MenuRow.name)
  limit : ∀ account, w.rows.countP (·.isOf account) ≤
    max (rows.countP (·.isOf account)) config.maxCharacters.toInt.toNat
  operations : w.players.Pairwise fun p q => p.charOpId = q.charOpId → p.charOpId = 0
  recorded : ∀ p ∈ w.players, ∀ c ∈ p.characters, p.online = true ∧ p.character = some c.name ∨
    Recorded (w.rows.filter (·.isOf p.username)) c
  count : w.adminCount = w.staff + w.lost

variable {config} {w} {p p' : MenuPlayer} {rows : List MenuRow}

theorem perm_cons_filter {players : List MenuPlayer}
    (h : (players.map MenuPlayer.username).Nodup) (hp : p ∈ players) :
    players.Perm (p :: players.filter (·.username ≠ p.username)) := by
  induction players with
  | nil => cases hp
  | cons q rest ih =>
    rw [List.map_cons, List.nodup_cons] at h
    rcases List.mem_cons.mp hp with rfl | hrest
    · have hall : rest.filter (·.username ≠ p.username) = rest := by
        rw [List.filter_eq_self]
        intro r hr
        have hne : r.username ≠ p.username := fun heq => h.1 (heq ▸ List.mem_map_of_mem hr)
        simpa using hne
      rw [List.filter_cons_of_neg (by simp), hall]
    · have hne : q.username ≠ p.username := fun heq => h.1 (heq ▸ List.mem_map_of_mem hrest)
      rw [List.filter_cons_of_pos (by simpa using hne)]
      exact ((ih h.2 hrest).cons q).trans (List.Perm.swap p q _)

theorem filter_isOf_of_ne {account username : String} (hne : account ≠ username)
    {rows rows' : List MenuRow}
    (h : rows.filter (!·.isOf username) = rows'.filter (!·.isOf username)) :
    rows.filter (·.isOf account) = rows'.filter (·.isOf account) := by
  have haway (l : List MenuRow) :
      l.filter (·.isOf account) = (l.filter (!·.isOf username)).filter (·.isOf account) := by
    rw [List.filter_filter]
    refine List.filter_congr fun r _ => ?_
    by_cases hr : r.account = account
    · have hru : r.account ≠ username := hr ▸ hne
      simp [MenuRow.isOf, hr, hne]
    · simp [MenuRow.isOf, hr]
  rw [haway rows, h, ← haway]

theorem countP_away {username : String} {q : MenuRow → Bool} {rows rows' : List MenuRow}
    (hq : ∀ r, r.account = username → q r = false)
    (h : rows.filter (!·.isOf username) = rows'.filter (!·.isOf username)) :
    rows.countP q = rows'.countP q := by
  have haway (l : List MenuRow) : l.countP q = (l.filter (!·.isOf username)).countP q := by
    rw [List.countP_filter]
    refine List.countP_congr fun r _ => ?_
    by_cases hr : r.account = username
    · simp [hq r hr]
    · simp [MenuRow.isOf, hr]
  rw [haway rows, h, ← haway]

theorem mem_others {q : MenuPlayer} {username : String} :
    q ∈ w.others username ↔ q ∈ w.players ∧ q.username ≠ username := by
  simp [others]

/-- A player and the rows of its account are written. -/
theorem Kept.put {rows₀ : List MenuRow} (h : w.Kept config rows₀) (hp : p ∈ w.players)
    (hname : p'.username = p.username) (lastCharacterId : ℕ) {adminCount : ℤ}
    (hnames : (rows.map MenuRow.name).Nodup)
    (hothers : rows.filter (!·.isOf p.username) = w.rows.filter (!·.isOf p.username))
    (hown : (p'.characters.map MenuCharacter.name).Perm
      ((rows.filter (·.isOf p.username)).map MenuRow.name))
    (hlimit : rows.countP (·.isOf p.username) ≤
      max (rows₀.countP (·.isOf p.username)) config.maxCharacters.toInt.toNat)
    (hoperation : p'.charOpId = 0 ∨ p'.charOpId = p.charOpId ∨
      ∀ q ∈ w.players, q.charOpId ≠ p'.charOpId)
    (hrecorded : ∀ c ∈ p'.characters, p'.online = true ∧ p'.character = some c.name ∨
      Recorded (rows.filter (·.isOf p.username)) c)
    (hcount : adminCount + p.characters.countP MenuCharacter.isStaff =
      w.adminCount + p'.characters.countP MenuCharacter.isStaff) :
    Kept config rows₀ ⟨rows, p' :: w.others p.username, lastCharacterId, adminCount, w.lost⟩ := by
  have hperm := perm_cons_filter h.usernames hp
  have husernames : (w.players.map MenuPlayer.username).Perm
      ((p' :: w.others p.username).map MenuPlayer.username) := by
    rw [List.map_cons, hname]
    exact hperm.map MenuPlayer.username
  have hother {q : MenuPlayer} (hq : q ∈ w.others p.username) :
      rows.filter (·.isOf q.username) = w.rows.filter (·.isOf q.username) :=
    filter_isOf_of_ne (mem_others.mp hq).2 hothers
  refine ⟨hnames, husernames.nodup_iff.mp h.usernames, ?_, ?_, ?_, ?_, ?_⟩
  · intro q hq
    rcases List.mem_cons.mp hq with rfl | hq
    · rw [hname]
      exact hown
    · rw [hother hq]
      exact h.characters q (mem_others.mp hq).1
  · intro account
    by_cases haccount : account = p.username
    · exact haccount ▸ hlimit
    · have hsame : rows.countP (·.isOf account) = w.rows.countP (·.isOf account) := by
        rw [List.countP_eq_length_filter, filter_isOf_of_ne haccount hothers,
          ← List.countP_eq_length_filter]
      exact hsame ▸ h.limit account
  · have hpairs := (hperm.pairwise_iff (fun {q r} hqr heq => heq.trans (hqr heq.symm))).mp
      h.operations
    rw [List.pairwise_cons] at hpairs ⊢
    refine ⟨fun q hq heq => ?_, hpairs.2⟩
    rcases hoperation with hzero | hsame | hnew
    · exact hzero
    · rw [hsame] at heq ⊢
      exact hpairs.1 q hq heq
    · exact absurd heq.symm (hnew q (mem_others.mp hq).1)
  · intro q hq
    rcases List.mem_cons.mp hq with rfl | hq
    · rw [hname]
      exact hrecorded
    · rw [hother hq]
      exact h.recorded q (mem_others.mp hq).1
  · have haway : rows.countP (fun r => r.isStaff && !(MenuWorld.mk rows
        (p' :: w.others p.username) lastCharacterId adminCount w.lost).online r.account) =
        w.rows.countP fun r => r.isStaff && !w.online r.account := by
      have hiff (account : String) : account ∈ (p' :: w.others p.username).map
          MenuPlayer.username ↔ account ∈ w.players.map MenuPlayer.username :=
        husernames.mem_iff.symm
      simp only [online, hiff]
      refine countP_away (fun r hr => ?_) hothers
      have hmem : r.account ∈ w.players.map MenuPlayer.username :=
        hr ▸ List.mem_map_of_mem hp
      simp only [hmem, decide_true, Bool.not_true, Bool.and_false]
    have hsum := (hperm.map fun p => p.characters.countP MenuCharacter.isStaff).sum_eq
    have hbefore := h.count
    rw [staff, hsum, List.map_cons, List.sum_cons] at hbefore
    rw [staff, haway, List.map_cons, List.sum_cons, others]
    push_cast at hbefore ⊢
    omega

theorem Kept.nodup_characters {rows₀ : List MenuRow} (h : w.Kept config rows₀)
    (hp : p ∈ w.players) : (p.characters.map MenuCharacter.name).Nodup :=
  (h.characters p hp).nodup_iff.mpr (h.names.sublist (List.filter_sublist.map MenuRow.name))

/-- The row with the name of a character is of the player's account. -/
theorem Kept.isOf_of_name {rows₀ : List MenuRow} (h : w.Kept config rows₀) (hp : p ∈ w.players)
    {c : MenuCharacter} (hc : c ∈ p.characters) {r : MenuRow} (hr : r ∈ w.rows)
    (hname : r.name = c.name) : r.isOf p.username = true := by
  obtain ⟨r', hr', hname'⟩ := List.mem_map.mp
    ((h.characters p hp).mem_iff.mp (List.mem_map_of_mem hc))
  rw [List.mem_filter] at hr'
  rw [List.inj_on_of_nodup_map h.names hr hr'.1 (hname.trans hname'.symm)]
  exact hr'.2

/-- The player goes on with the same characters. -/
theorem Kept.put_player {rows₀ : List MenuRow} (h : w.Kept config rows₀) (hp : p ∈ w.players)
    (hname : p'.username = p.username) (hcharacters : p'.characters = p.characters)
    (hoperation : p'.charOpId = 0 ∨ p'.charOpId = p.charOpId ∨
      ∀ q ∈ w.players, q.charOpId ≠ p'.charOpId)
    (hplays : ∀ c ∈ p.characters, p.online = true ∧ p.character = some c.name →
      p'.online = true ∧ p'.character = some c.name) : (w.put p').Kept config rows₀ := by
  have hput := h.put hp hname w.lastCharacterId h.names rfl
    (hcharacters ▸ h.characters p hp) (h.limit p.username) hoperation
    (fun c hc => (h.recorded p hp c (hcharacters ▸ hc)).imp_left (hplays c (hcharacters ▸ hc)))
    (by rw [hcharacters])
  rw [MenuWorld.put, hname]
  exact hput

theorem not_mem_of_search {taken : List UInt16} {id r : UInt16} {tries : ℕ}
    (h : FreeIds.search (· + 1) taken tries id = some r) : r ∉ taken := by
  induction tries generalizing id with
  | zero => cases h
  | succ tries ih =>
    by_cases hid : id ∈ taken
    · rw [FreeIds.search_succ_of_mem tries hid] at h
      exact ih h
    · rw [FreeIds.search_succ_of_not_mem tries hid] at h
      exact Option.some_inj.mp h ▸ hid

theorem Kept.newCharacterOp {rows₀ : List MenuRow} (h : w.Kept config rows₀) (hp : p ∈ w.players)
    {guests : ℕ} {candidate : UInt16} (hnew : w.newCharacterOp p guests candidate = some p') :
    (w.put p').Kept config rows₀ := by
  obtain ⟨id, hid, rfl⟩ := Option.map_eq_some_iff.mp hnew
  have hfree := not_mem_of_search hid
  refine h.put_player hp rfl rfl (.inr (.inr fun q hq hsame => hfree ?_)) fun c _ hplays => hplays
  have hid : q.charOpId = id := hsame
  exact List.mem_append_left _ (hid ▸ List.mem_map_of_mem hq)

theorem Kept.endOperation {rows₀ : List MenuRow} (h : w.Kept config rows₀) (hp : p ∈ w.players) :
    (w.put { p with charOpId := 0 }).Kept config rows₀ := by
  refine h.put_player hp ?_ ?_ (.inl ?_) fun c _ hplays => hplays
  all_goals rfl

theorem Kept.addCharacter {rows₀ : List MenuRow} (h : w.Kept config rows₀) (hp : p ∈ w.players)
    {name : RealName} (hnew : ¬ w.characterExists name = true)
    (hroom : p.characters.length < sizeOf32 config.maxCharacters) :
    (w.addCharacter config { p with charOpId := 0 } name).Kept config rows₀ := by
  rw [MenuWorld.addCharacter]
  by_cases hmax : config.maxCharacters.toInt < p.characters.length
  · rw [if_pos hmax]
    exact h.endOperation hp
  rw [if_neg hmax]
  have hmine : (MenuRow.mk name p.username 0).isOf p.username = true := by simp [MenuRow.isOf]
  have hlength : p.characters.length = (w.rows.filter (·.isOf p.username)).length := by
    simpa using (h.characters p hp).length_eq
  refine h.put hp ?_ (w.lastCharacterId + 1) ?_ ?_ ?_ ?_ (.inl ?_) ?_ ?_
  · rfl
  · rw [List.map_append, List.nodup_append]
    refine ⟨h.names, List.nodup_singleton _, ?_⟩
    intro a ha b hb hab
    rw [List.map_singleton, List.mem_singleton] at hb
    obtain ⟨r, hr, hname⟩ := List.mem_map.mp ha
    exact hnew (List.any_eq_true.mpr ⟨r, hr, decide_eq_true (hname.trans (hab.trans hb))⟩)
  · rw [List.filter_append, List.filter_cons_of_neg (by simpa using hmine), List.filter_nil,
      List.append_nil]
  · rw [List.filter_append, List.filter_cons_of_pos hmine, List.filter_nil, List.map_append,
      List.map_append]
    exact (h.characters p hp).append_right _
  · rw [List.countP_append, List.countP_eq_length_filter, ← hlength,
      List.countP_cons_of_pos hmine, List.countP_nil]
    refine le_max_of_le_right ?_
    rw [sizeOf32] at hroom
    have hlt := config.maxCharacters.toInt_lt
    omega
  · rfl
  · intro c hc
    rw [List.filter_append, List.filter_cons_of_pos hmine, List.filter_nil]
    rcases List.mem_append.mp hc with hc | hc
    · refine (h.recorded p hp c hc).imp_right ?_
      rintro ⟨row, hrow, hrecorded⟩
      exact ⟨row, List.mem_append_left _ hrow, hrecorded⟩
    · rw [List.mem_singleton] at hc
      refine .inr ⟨_, List.mem_append_right _ (List.mem_singleton.mpr rfl), hc ▸ rfl, ?_⟩
      subst hc
      cases w.adminCount = 0 && config.firstCharacterAdmin
      · rfl
      · exact ⟨rfl, rfl⟩
  · rw [List.countP_append, List.countP_singleton]
    cases w.adminCount = 0 && config.firstCharacterAdmin
    · simp [MenuCharacter.isStaff]
    · simp [MenuCharacter.isStaff, AdminLevel.hgm]
      ring

theorem named_eq_some {id : ℕ} {c : MenuCharacter} (h : p.named id = some c) :
    ∃ front back, p.characters = front ++ c :: back ∧
      p.characters.eraseP (·.id = id) = front ++ back := by
  obtain ⟨hid, front, back, hsplit, hfront⟩ := List.find?_eq_some_iff_append.mp h
  refine ⟨front, back, hsplit, ?_⟩
  rw [hsplit, List.eraseP_append_right _ (fun a ha => by simpa using hfront a ha)]
  congr 1
  exact List.eraseP_cons_of_pos (p := fun c : MenuCharacter => decide (c.id = id)) hid

theorem filter_of_nodup {α : Type*} [DecidableEq α] {a : α} {front back : List α}
    (h : (front ++ a :: back).Nodup) :
    (front ++ a :: back).filter (· ≠ a) = front ++ back := by
  obtain ⟨-, hback, hne⟩ := List.nodup_append.mp h
  have hfront : front.filter (· ≠ a) = front := by
    rw [List.filter_eq_self]
    exact fun b hb => decide_eq_true (hne b hb a List.mem_cons_self)
  have hrest : back.filter (· ≠ a) = back := by
    rw [List.filter_eq_self]
    exact fun b hb => decide_eq_true fun heq => (List.nodup_cons.mp hback).1 (heq ▸ hb)
  rw [List.filter_append, List.filter_cons_of_neg (by simp), hfront, hrest]

theorem Kept.characterRemove {rows₀ : List MenuRow} (h : w.Kept config rows₀) (hp : p ∈ w.players)
    (deleteId : UInt16) (id : ℕ) : (w.characterRemove p deleteId id).1.Kept config rows₀ := by
  rw [MenuWorld.characterRemove]
  cases hnamed : p.named id with
  | none => exact h
  | some c =>
    dsimp only
    by_cases hdelete : deleteId ≠ p.charOpId
    · rw [if_pos hdelete]
      exact h
    rw [if_neg hdelete]
    obtain ⟨front, back, hsplit, herase⟩ := named_eq_some hnamed
    have hmem : c ∈ p.characters := hsplit ▸ List.mem_append_right _ List.mem_cons_self
    have hnodup := h.nodup_characters hp
    have hleft : (front ++ back).map MenuCharacter.name =
        (p.characters.map MenuCharacter.name).filter (· ≠ c.name) := by
      rw [hsplit, List.map_append, List.map_cons] at hnodup
      rw [List.map_append, ← filter_of_nodup hnodup, hsplit, List.map_append, List.map_cons]
    have hcomm (q : MenuRow → Bool) :
        (w.rows.filter (·.name ≠ c.name)).filter q = (w.rows.filter q).filter (·.name ≠ c.name) :=
      List.filter_comm _ _ _
    refine h.put hp ?_ w.lastCharacterId ?_ ?_ ?_ ?_ (.inl ?_) ?_ ?_
    · rfl
    · exact h.names.sublist (List.filter_sublist.map MenuRow.name)
    · rw [hcomm, List.filter_eq_self]
      intro r hr
      rw [List.mem_filter] at hr
      refine decide_eq_true fun hname => ?_
      have hmine := h.isOf_of_name hp hmem hr.1 hname
      simp [hmine] at hr
    · have hrows : ((w.rows.filter (·.isOf p.username)).filter (·.name ≠ c.name)).map
          MenuRow.name = ((w.rows.filter (·.isOf p.username)).map MenuRow.name).filter
            (· ≠ c.name) := by
        rw [List.filter_map]
        rfl
      rw [hcomm, hrows, herase, hleft]
      exact (h.characters p hp).filter _
    · exact (List.filter_sublist.countP_le).trans (h.limit p.username)
    · rfl
    · intro c' hc'
      rw [herase] at hc'
      have hne : c'.name ≠ c.name := by
        have hname := List.mem_map_of_mem (f := MenuCharacter.name) hc'
        rw [hleft, List.mem_filter] at hname
        exact of_decide_eq_true hname.2
      have hmem' : c' ∈ p.characters := by
        rw [hsplit]
        rcases List.mem_append.mp hc' with hfront | hback
        · exact List.mem_append_left _ hfront
        · exact List.mem_append_right _ (List.mem_cons_of_mem _ hback)
      refine (h.recorded p hp c' hmem').imp_right ?_
      rintro ⟨row, hrow, hname, hrecorded⟩
      rw [hcomm]
      exact ⟨row, List.mem_filter.mpr ⟨hrow, decide_eq_true (hname ▸ hne)⟩, hname, hrecorded⟩
    · rw [herase, hsplit, List.countP_append, List.countP_append, List.countP_cons]
      split_ifs <;> push_cast <;> ring

theorem playing_eq_some {c : MenuCharacter} (h : p.playing = some c) :
    c ∈ p.characters ∧ p.online = true ∧ p.character = some c.name := by
  rw [MenuPlayer.playing] at h
  split_ifs at h with honline
  have hcharacter := List.find?_some h
  exact ⟨List.mem_of_find?_eq_some h, honline, of_decide_eq_true hcharacter⟩

theorem alter_eq {c : MenuCharacter} {f : MenuCharacter → MenuCharacter}
    (h : (p.characters.map MenuCharacter.name).Nodup) (hc : c ∈ p.characters) :
    ∃ front back, p.characters = front ++ c :: back ∧
      (p.alter c.name f).characters = front ++ f c :: back := by
  obtain ⟨front, back, hsplit⟩ := List.append_of_mem hc
  refine ⟨front, back, hsplit, ?_⟩
  rw [hsplit, List.map_append, List.map_cons, List.nodup_append, List.nodup_cons] at h
  obtain ⟨-, ⟨hback, -⟩, hne⟩ := h
  have hkeep {l : List MenuCharacter} (hl : ∀ d ∈ l, d.name ≠ c.name) :
      (l.map fun d => if d.name = c.name then f d else d) = l := by
    rw [List.map_congr_left fun d hd => if_neg (hl d hd), List.map_id']
  rw [MenuPlayer.alter]
  dsimp only
  rw [hsplit, List.map_append, List.map_cons, if_pos rfl,
    hkeep fun d hd => hne _ (List.mem_map_of_mem hd) _ List.mem_cons_self,
    hkeep fun d hd heq => hback (heq ▸ List.mem_map_of_mem hd)]

theorem Kept.welcomeRequest {rows₀ : List MenuRow} (h : w.Kept config rows₀) (hp : p ∈ w.players)
    (hmenu : p.character = none) (id : ℕ) : (w.welcomeRequest p id).Kept config rows₀ := by
  rw [MenuWorld.welcomeRequest]
  cases p.named id with
  | none => exact h
  | some c =>
    refine h.put_player hp rfl rfl (.inr (.inl rfl)) fun c' _ hplays => ?_
    rw [hmenu] at hplays
    cases hplays.2

theorem Kept.enter {rows₀ : List MenuRow} (h : w.Kept config rows₀) (hp : p ∈ w.players) :
    (w.put { p with online := true }).Kept config rows₀ :=
  h.put_player hp rfl rfl (.inr (.inl rfl)) fun _ _ hplays => ⟨rfl, hplays.2⟩

theorem Kept.setAdmin {rows₀ : List MenuRow} (h : w.Kept config rows₀) (hp : p ∈ w.players)
    (level : AdminLevel) : (w.setAdmin p level).Kept config rows₀ := by
  rw [MenuWorld.setAdmin]
  cases hplaying : p.playing with
  | none => exact h
  | some c =>
    obtain ⟨hmem, honline, hcharacter⟩ := playing_eq_some hplaying
    obtain ⟨front, back, hsplit, halter⟩ :=
      alter_eq (f := fun c => { c with admin := level }) (h.nodup_characters hp) hmem
    refine h.put hp ?_ w.lastCharacterId h.names rfl ?_ (h.limit p.username) (.inr (.inl ?_)) ?_ ?_
    · rfl
    · have hcharacters := h.characters p hp
      rw [hsplit, List.map_append, List.map_cons] at hcharacters
      rw [halter, List.map_append, List.map_cons]
      exact hcharacters
    · rfl
    · intro c' hc'
      rw [halter, List.mem_append, List.mem_cons] at hc'
      rcases hc' with hfront | rfl | hback
      · exact h.recorded p hp c' (hsplit ▸ List.mem_append_left _ hfront)
      · exact .inl ⟨honline, hcharacter⟩
      · exact h.recorded p hp c'
          (hsplit ▸ List.mem_append_right _ (List.mem_cons_of_mem _ hback))
    · have hzero (n : AdminLevel) : 0 < n ↔ n ≠ 0 := by
        rw [UInt8.lt_iff_toNat_lt, ne_eq, ← UInt8.toNat_inj]
        exact Nat.pos_iff_ne_zero
      rw [halter, hsplit, List.countP_append, List.countP_append, List.countP_cons,
        List.countP_cons]
      simp only [MenuCharacter.isStaff, decide_eq_true_eq, hzero]
      by_cases hlevel : level = 0 <;> by_cases hadmin : c.admin = 0 <;>
        simp [hlevel, hadmin] <;> ring

@[simp]
theorem name_written (c : MenuCharacter) (r : MenuRow) : (r.written c).name = r.name := by
  rw [MenuRow.written]
  split_ifs <;> rfl

@[simp]
theorem account_written (c : MenuCharacter) (r : MenuRow) : (r.written c).account = r.account := by
  rw [MenuRow.written]
  split_ifs <;> rfl

theorem map_name_written (c : MenuCharacter) (l : List MenuRow) :
    (l.map (MenuRow.written c)).map MenuRow.name = l.map MenuRow.name := by
  rw [List.map_map]
  exact List.map_congr_left fun r _ => name_written c r

theorem filter_isOf_written (c : MenuCharacter) (account : String) (l : List MenuRow) :
    (l.map (MenuRow.written c)).filter (·.isOf account) =
      (l.filter (·.isOf account)).map (MenuRow.written c) := by
  rw [List.filter_map]
  refine congrArg (List.map (MenuRow.written c)) (List.filter_congr fun r _ => ?_)
  simp only [Function.comp_apply, MenuRow.isOf, account_written]

/-- Nobody else's rows are written. -/
theorem filter_not_isOf_written {c : MenuCharacter} {account : String} {l : List MenuRow}
    (h : ∀ r ∈ l, r.name = c.name → r.isOf account = true) :
    (l.map (MenuRow.written c)).filter (fun r => !r.isOf account) =
      l.filter fun r => !r.isOf account := by
  have hcomp : (fun r => !MenuRow.isOf account r) ∘ MenuRow.written c =
      fun r => !MenuRow.isOf account r := by
    funext r
    simp only [Function.comp_apply, MenuRow.isOf, account_written]
  rw [List.filter_map, hcomp, List.map_congr_left (g := id), List.map_id]
  intro r hr
  refine if_neg fun hname => ?_
  have hmine := h r (List.mem_filter.mp hr).1 hname
  rw [List.mem_filter, hmine] at hr
  cases hr.2

/-- Of the characters of a player, a save records the one in the world, and keeps the others. -/
theorem Kept.recorded_saved {rows₀ : List MenuRow} (h : w.Kept config rows₀) (hp : p ∈ w.players)
    {c : MenuCharacter} (hc : c ∈ p.characters) (hcharacter : p.character = some c.name) :
    ∀ c' ∈ (p.alter c.name fun c => { c with unsaved := false }).characters,
      Recorded ((w.rows.map (MenuRow.written c)).filter (·.isOf p.username)) c' := by
  have hnodup := h.nodup_characters hp
  obtain ⟨front, back, hsplit, halter⟩ :=
    alter_eq (f := fun c => { c with unsaved := false }) hnodup hc
  rw [hsplit, List.map_append, List.map_cons, List.nodup_append, List.nodup_cons] at hnodup
  obtain ⟨-, ⟨hback, -⟩, hfront⟩ := hnodup
  have hkeep {c' : MenuCharacter} (hne : c'.name ≠ c.name) (hmem : c' ∈ p.characters) :
      Recorded ((w.rows.filter (·.isOf p.username)).map (MenuRow.written c)) c' := by
    rcases h.recorded p hp c' hmem with ⟨-, hcharacter'⟩ | ⟨row, hrow, hname, hrecorded⟩
    · rw [hcharacter, Option.some_inj] at hcharacter'
      exact absurd hcharacter'.symm hne
    · have hwritten : row.written c = row := if_neg (hname ▸ hne)
      exact ⟨row, List.mem_map.mpr ⟨row, hrow, hwritten⟩, hname, hrecorded⟩
  intro c' hc'
  rw [filter_isOf_written]
  rw [halter, List.mem_append, List.mem_cons] at hc'
  rcases hc' with hc' | rfl | hc'
  · refine hkeep ?_ (hsplit ▸ List.mem_append_left _ hc')
    exact hfront _ (List.mem_map_of_mem hc') _ List.mem_cons_self
  · obtain ⟨row, hrow, hname⟩ := List.mem_map.mp
      ((h.characters p hp).mem_iff.mp (List.mem_map_of_mem hc))
    have hadmin : (row.written c).admin = c.admin := by rw [MenuRow.written, if_pos hname]
    refine ⟨row.written c, List.mem_map_of_mem hrow, (name_written c row).trans hname, ?_⟩
    rw [if_neg Bool.false_ne_true]
    exact hadmin
  · refine hkeep ?_ (hsplit ▸ List.mem_append_right _ (List.mem_cons_of_mem _ hc'))
    exact fun heq => hback (heq ▸ List.mem_map_of_mem hc')

/-- A save leaves the world as it is, and everything recorded of the player. -/
theorem Kept.save_recorded {rows₀ : List MenuRow} (h : w.Kept config rows₀) (hp : p ∈ w.players) :
    (w.save p).Kept config rows₀ ∧
      ∀ c ∈ p.saved.characters, Recorded ((w.savedRows p).filter (·.isOf p.username)) c := by
  rw [MenuWorld.save, savedRows, MenuPlayer.saved]
  cases hplaying : p.playing with
  | none =>
    refine ⟨h.put_player hp rfl rfl (.inr (.inl rfl)) fun _ _ hplays => hplays, fun c hc => ?_⟩
    refine (h.recorded p hp c hc).resolve_left ?_
    rintro ⟨honline, hcharacter⟩
    rw [MenuPlayer.playing, if_pos honline, List.find?_eq_none] at hplaying
    exact hplaying c hc (decide_eq_true hcharacter)
  | some c =>
    obtain ⟨hmem, -, hcharacter⟩ := playing_eq_some hplaying
    have hrecorded := h.recorded_saved hp hmem hcharacter
    obtain ⟨front, back, hsplit, halter⟩ :=
      alter_eq (f := fun c => { c with unsaved := false }) (h.nodup_characters hp) hmem
    refine ⟨?_, hrecorded⟩
    refine h.put hp ?_ w.lastCharacterId ?_ ?_ ?_ ?_ (.inr (.inl ?_))
      (fun c' hc' => .inr (hrecorded c' hc')) ?_
    · rfl
    · exact (map_name_written c w.rows).symm ▸ h.names
    · exact filter_not_isOf_written fun r hr hname => h.isOf_of_name hp hmem hr hname
    · have hcharacters := h.characters p hp
      change List.Perm _ (((w.rows.map (MenuRow.written c)).filter _).map _)
      rw [filter_isOf_written, map_name_written, Option.elim_some, halter, List.map_append,
        List.map_cons]
      rw [hsplit, List.map_append, List.map_cons] at hcharacters
      exact hcharacters
    · change (w.rows.map (MenuRow.written c)).countP _ ≤ _
      rw [List.countP_eq_length_filter, filter_isOf_written, List.length_map,
        ← List.countP_eq_length_filter]
      exact h.limit p.username
    · rfl
    · simp only [Option.elim_some]
      rw [halter, hsplit, List.countP_append, List.countP_append, List.countP_cons,
        List.countP_cons]
      rfl

/-- The administrators of a player, by what the rows say and by what is unsaved. -/
theorem countP_isStaff {characters : List MenuCharacter}
    (hnames : (characters.map MenuCharacter.name).Perm (rows.map MenuRow.name))
    (hnodup : (rows.map MenuRow.name).Nodup) (h : ∀ c ∈ characters, Recorded rows c) :
    characters.countP MenuCharacter.isStaff =
      characters.countP MenuCharacter.unsaved + rows.countP MenuRow.isStaff := by
  induction characters generalizing rows with
  | nil =>
    have hnil := List.map_eq_nil_iff.mp hnames.nil_eq.symm
    rw [hnil]
    rfl
  | cons c rest ih =>
    obtain ⟨row, hrow, hname, hrecorded⟩ := h c List.mem_cons_self
    have herase := List.perm_cons_erase hrow
    have hperm := hnames.trans (herase.map MenuRow.name)
    have hnodup' := (herase.map MenuRow.name).nodup_iff.mp hnodup
    rw [List.map_cons, List.map_cons, hname, List.perm_cons] at hperm
    rw [List.map_cons, List.nodup_cons] at hnodup'
    have hrest : ∀ c' ∈ rest, Recorded (rows.erase row) c' := by
      intro c' hc'
      obtain ⟨row', hrow', hname', hrecorded'⟩ := h c' (List.mem_cons_of_mem c hc')
      refine ⟨row', (List.mem_erase_of_ne ?_).mpr hrow', hname', hrecorded'⟩
      rintro rfl
      refine hnodup'.1 (hperm.mem_iff.mp ?_)
      exact hname' ▸ List.mem_map_of_mem hc'
    rw [herase.countP_eq, List.countP_cons, List.countP_cons, List.countP_cons,
      ih hperm hnodup'.2 hrest]
    have hone : (if c.isStaff = true then 1 else 0) =
        (if c.unsaved = true then 1 else 0) + if row.isStaff = true then 1 else 0 := by
      cases hunsaved : c.unsaved with
      | false =>
        rw [hunsaved, if_neg Bool.false_ne_true] at hrecorded
        have hsame : row.isStaff = c.isStaff := by
          rw [MenuRow.isStaff, hrecorded, MenuCharacter.isStaff]
        rw [hsame, if_neg Bool.false_ne_true, Nat.zero_add]
      | true =>
        rw [hunsaved, if_pos rfl] at hrecorded
        simp [MenuRow.isStaff, hrecorded.1, hrecorded.2]
    omega

/-- The administrators of others, with and without a player that was not there. -/
theorem countP_offline (rows : List MenuRow) {username : String} {usernames : List String}
    (h : username ∉ usernames) :
    rows.countP (fun r => r.isStaff && !decide (r.account ∈ usernames)) =
      rows.countP (fun r => r.isStaff && !decide (r.account ∈ username :: usernames)) +
        (rows.filter (·.isOf username)).countP MenuRow.isStaff := by
  induction rows with
  | nil => rfl
  | cons r rest ih =>
    rw [List.countP_cons, List.countP_cons, List.filter_cons, ih]
    by_cases haccount : r.account = username
    · have hmine : r.isOf username = true := decide_eq_true haccount
      have hoff : (r.isStaff && !decide (r.account ∈ usernames)) = r.isStaff := by
        simp [haccount, h]
      have hon : (r.isStaff && !decide (r.account ∈ username :: usernames)) = false := by
        simp [haccount]
      rw [hoff, hon, if_pos hmine, List.countP_cons, if_neg Bool.false_ne_true]
      omega
    · have hother : ¬ r.isOf username = true := fun hmine => haccount (of_decide_eq_true hmine)
      have hmem : r.account ∈ username :: usernames ↔ r.account ∈ usernames := by
        simp [haccount]
      simp only [hmem, if_neg hother]
      omega

/-- A player leaves of whom everything has been recorded. -/
theorem Kept.leave {rows₀ : List MenuRow} {players : List MenuPlayer} {lastCharacterId lost : ℕ}
    {adminCount : ℤ}
    (h : Kept config rows₀ ⟨rows, p :: players, lastCharacterId, adminCount, lost⟩)
    (hrecorded : ∀ c ∈ p.characters, Recorded (rows.filter (·.isOf p.username)) c) :
    Kept config rows₀ ⟨rows, players, lastCharacterId, adminCount,
      lost + p.characters.countP MenuCharacter.unsaved⟩ := by
  have husernames := h.usernames
  rw [List.map_cons, List.nodup_cons] at husernames
  refine ⟨h.names, husernames.2, fun q hq => h.characters q (List.mem_cons_of_mem p hq), h.limit,
    (List.pairwise_cons.mp h.operations).2,
    fun q hq => h.recorded q (List.mem_cons_of_mem p hq), ?_⟩
  have hnodup : ((rows.filter (·.isOf p.username)).map MenuRow.name).Nodup :=
    h.names.sublist (List.filter_sublist.map MenuRow.name)
  have hstaff := countP_isStaff (h.characters p List.mem_cons_self) hnodup hrecorded
  have hcount := h.count
  have hoffline := countP_offline rows husernames.1
  simp only [staff, online, List.map_cons, List.sum_cons] at hcount hoffline ⊢
  rw [hstaff] at hcount
  rw [hoffline]
  push_cast at hcount ⊢
  omega

theorem map_name_loadCharacters (lastId : ℕ) (order : List MenuRow) :
    (loadCharacters lastId order).map MenuCharacter.name = order.map MenuRow.name := by
  induction order generalizing lastId with
  | nil => rfl
  | cons r rest ih => rw [loadCharacters, List.map_cons, List.map_cons, ih]

theorem recorded_loadCharacters {lastId : ℕ} {order : List MenuRow} {c : MenuCharacter}
    (hc : c ∈ loadCharacters lastId order) : c.unsaved = false ∧ Recorded order c := by
  induction order generalizing lastId with
  | nil => cases hc
  | cons r rest ih =>
    rcases List.mem_cons.mp hc with rfl | hc
    · exact ⟨rfl, r, List.mem_cons_self, rfl, rfl⟩
    · obtain ⟨hunsaved, row, hrow, hrecorded⟩ := ih hc
      exact ⟨hunsaved, row, List.mem_cons_of_mem r hrow, hrecorded⟩

theorem Kept.login {rows₀ : List MenuRow} (h : w.Kept config rows₀) {username : String}
    {order : List MenuRow} (hnew : username ∉ w.players.map MenuPlayer.username)
    (horder : order.Perm (w.rows.filter (·.isOf username))) :
    (w.login username order).Kept config rows₀ := by
  have hnames : ((loadCharacters w.lastCharacterId order).map MenuCharacter.name).Perm
      ((w.rows.filter (·.isOf username)).map MenuRow.name) := by
    rw [map_name_loadCharacters]
    exact horder.map MenuRow.name
  have hrecorded : ∀ c ∈ loadCharacters w.lastCharacterId order,
      c.unsaved = false ∧ Recorded (w.rows.filter (·.isOf username)) c := by
    intro c hc
    obtain ⟨hunsaved, row, hrow, hrecorded⟩ := recorded_loadCharacters hc
    exact ⟨hunsaved, row, horder.mem_iff.mp hrow, hrecorded⟩
  refine ⟨h.names, List.nodup_cons.mpr ⟨hnew, h.usernames⟩, ?_, h.limit,
    List.pairwise_cons.mpr ⟨fun _ _ _ => rfl, h.operations⟩, ?_, ?_⟩
  · intro q hq
    rcases List.mem_cons.mp hq with rfl | hq
    · exact hnames
    · exact h.characters q hq
  · intro q hq c hc
    rcases List.mem_cons.mp hq with rfl | hq
    · exact .inr (hrecorded c hc).2
    · exact h.recorded q hq c hc
  · have hnodup : ((w.rows.filter (·.isOf username)).map MenuRow.name).Nodup :=
      h.names.sublist (List.filter_sublist.map MenuRow.name)
    have hstaff := countP_isStaff hnames hnodup fun c hc => (hrecorded c hc).2
    have hunsaved : (loadCharacters w.lastCharacterId order).countP MenuCharacter.unsaved = 0 := by
      rw [List.countP_eq_zero]
      exact fun c hc => by simp [(hrecorded c hc).1]
    have hcount := h.count
    have hoffline := countP_offline w.rows hnew
    simp only [MenuWorld.login, staff, online, List.map_cons, List.sum_cons] at hcount hoffline ⊢
    rw [hoffline] at hcount
    rw [hstaff, hunsaved]
    push_cast at hcount ⊢
    omega

theorem username_saved (p : MenuPlayer) : p.saved.username = p.username := by
  rw [MenuPlayer.saved]
  cases p.playing <;> rfl

theorem Kept.logout {rows₀ : List MenuRow} (h : w.Kept config rows₀) (hp : p ∈ w.players) :
    (w.logout p).Kept config rows₀ := by
  obtain ⟨hsave, hrecorded⟩ := h.save_recorded hp
  rw [← username_saved p] at hrecorded
  have hleave := Kept.leave hsave hrecorded
  rw [username_saved p] at hleave
  exact hleave

theorem Kept.characterCreate {rows₀ : List MenuRow} (h : w.Kept config rows₀) (hp : p ∈ w.players)
    (createId : UInt16) (looks : MenuLooks) (text : List Char) :
    (w.characterCreate config p createId looks text).1.Kept config rows₀ := by
  rw [MenuWorld.characterCreate]
  by_cases hrefused : createId ≠ p.charOpId ∨ looks.allowed config = false
  · rw [if_pos hrefused]
    exact h
  rw [if_neg hrefused]
  dsimp only
  split_ifs with hfull hvalid hexists
  · exact h.endOperation hp
  · exact h.endOperation hp
  · exact h.endOperation hp
  · exact h.addCharacter hp hexists (not_le.mp hfull)

theorem kept_start {rows₀ : List MenuRow} (hnames : (rows.map MenuRow.name).Nodup)
    (hlimit : ∀ account, rows.countP (·.isOf account) ≤
      max (rows₀.countP (·.isOf account)) config.maxCharacters.toInt.toNat) :
    (start rows).Kept config rows₀ where
  names := hnames
  usernames := List.nodup_nil
  characters := fun _ hp => nomatch hp
  limit := hlimit
  operations := List.Pairwise.nil
  recorded := fun _ hp => nomatch hp
  count := by simp [start, staff, online]

theorem onPlayer_cases {username : String} {act : MenuPlayer → Option MenuWorld} {w' : MenuWorld}
    (hw' : w.onPlayer username act = some w') :
    w' = w ∨ ∃ p ∈ w.players, p.username = username ∧ act p = some w' := by
  rw [MenuWorld.onPlayer] at hw'
  cases hfind : w.players.find? (·.username = username) with
  | none =>
    rw [hfind, Option.elim_none] at hw'
    exact Or.inl (Option.some_inj.mp hw').symm
  | some p =>
    rw [hfind, Option.elim_some] at hw'
    exact Or.inr ⟨p, List.mem_of_find?_eq_some hfind, by simpa using List.find?_some hfind, hw'⟩

theorem onMenu_cases {username : String} {act : MenuPlayer → Option MenuWorld} {w' : MenuWorld}
    (hw' : w.onMenu username act = some w') :
    w' = w ∨ ∃ p ∈ w.players, p.username = username ∧ p.character = none ∧ act p = some w' := by
  rcases onPlayer_cases hw' with rfl | ⟨p, hp, hname, hact⟩
  · exact Or.inl rfl
  · cases hcharacter : p.character with
    | none =>
      rw [hcharacter] at hact
      exact Or.inr ⟨p, hp, hname, hcharacter, hact⟩
    | some name =>
      rw [hcharacter] at hact
      exact Or.inl (Option.some_inj.mp hact).symm

/-- A request for an operation gives the player another one at most. -/
theorem newOperation_cases {guests : ℕ} {candidate : UInt16} {reply : MenuPlayer → MenuReply}
    {result : MenuWorld × MenuReply}
    (h : (w.newCharacterOp p guests candidate).map (fun p' => (w.put p', reply p')) = some result) :
    ∃ p', w.newCharacterOp p guests candidate = some p' ∧ result.1 = w.put p' := by
  obtain ⟨p', hp', rfl⟩ := Option.map_eq_some_iff.mp h
  exact ⟨p', hp', rfl⟩

theorem characterRequest_cases {guests : ℕ} {candidate : UInt16} {content : String} {w' : MenuWorld}
    (h : (w.characterRequest p guests candidate content).map Prod.fst = some w') :
    w' = w ∨ ∃ p', w.newCharacterOp p guests candidate = some p' ∧ w' = w.put p' := by
  obtain ⟨result, hresult, rfl⟩ := Option.map_eq_some_iff.mp h
  rw [characterRequest] at hresult
  split_ifs at hresult
  · exact Or.inl (congrArg Prod.fst (Option.some_inj.mp hresult)).symm
  · exact Or.inr (newOperation_cases hresult)

theorem characterTake_cases {guests : ℕ} {candidate : UInt16} {id : ℕ} {w' : MenuWorld}
    (h : (w.characterTake p guests candidate id).map Prod.fst = some w') :
    w' = w ∨ ∃ p', w.newCharacterOp p guests candidate = some p' ∧ w' = w.put p' := by
  obtain ⟨result, hresult, rfl⟩ := Option.map_eq_some_iff.mp h
  rw [characterTake] at hresult
  cases hnamed : p.named id with
  | none =>
    rw [hnamed] at hresult
    exact Or.inl (congrArg Prod.fst (Option.some_inj.mp hresult)).symm
  | some c =>
    rw [hnamed] at hresult
    exact Or.inr (newOperation_cases hresult)

theorem Kept.step {rows₀ : List MenuRow} (h : w.Kept config rows₀) {event : MenuEvent}
    {w' : MenuWorld} (hstep : w.step config event = some w') : w'.Kept config rows₀ := by
  cases event with
  | login username order =>
    rw [MenuWorld.step] at hstep
    split_ifs at hstep with honline horder
    · exact Option.some_inj.mp hstep ▸ h
    · have hnew : username ∉ w.players.map MenuPlayer.username := by
        intro hmem
        obtain ⟨p, hp, hname⟩ := List.mem_map.mp hmem
        exact honline (List.any_eq_true.mpr ⟨p, hp, decide_eq_true hname⟩)
      exact Option.some_inj.mp hstep ▸ h.login hnew (List.isPerm_iff.mp horder)
  | request username guests candidate content =>
    obtain rfl | ⟨p, hp, -, -, hact⟩ := onMenu_cases hstep
    · exact h
    obtain rfl | ⟨p', hp', rfl⟩ := characterRequest_cases hact
    · exact h
    · exact h.newCharacterOp hp hp'
  | take username guests candidate id =>
    obtain rfl | ⟨p, hp, -, -, hact⟩ := onMenu_cases hstep
    · exact h
    obtain rfl | ⟨p', hp', rfl⟩ := characterTake_cases hact
    · exact h
    · exact h.newCharacterOp hp hp'
  | create username createId looks text =>
    obtain rfl | ⟨p, hp, -, -, hact⟩ := onMenu_cases hstep
    · exact h
    · exact Option.some_inj.mp hact ▸ h.characterCreate hp createId looks text
  | remove username deleteId id =>
    obtain rfl | ⟨p, hp, -, -, hact⟩ := onMenu_cases hstep
    · exact h
    · exact Option.some_inj.mp hact ▸ h.characterRemove hp deleteId id
  | choose username id =>
    obtain rfl | ⟨p, hp, -, hmenu, hact⟩ := onMenu_cases hstep
    · exact h
    · exact Option.some_inj.mp hact ▸ h.welcomeRequest hp hmenu id
  | enter username =>
    obtain rfl | ⟨p, hp, -, hact⟩ := onPlayer_cases hstep
    · exact h
    rw [← Option.some_inj.mp hact]
    split_ifs
    · exact h.enter hp
    · exact h
  | setAdmin username level =>
    obtain rfl | ⟨p, hp, -, hact⟩ := onPlayer_cases hstep
    · exact h
    · exact Option.some_inj.mp hact ▸ h.setAdmin hp level
  | save username =>
    obtain rfl | ⟨p, hp, -, hact⟩ := onPlayer_cases hstep
    · exact h
    · exact Option.some_inj.mp hact ▸ (h.save_recorded hp).1
  | logout username =>
    obtain rfl | ⟨p, hp, -, hact⟩ := onPlayer_cases hstep
    · exact h
    · exact Option.some_inj.mp hact ▸ h.logout hp
  | restart => exact Option.some_inj.mp hstep ▸ kept_start h.names h.limit

theorem Kept.run {rows₀ : List MenuRow} (h : w.Kept config rows₀) {events : List MenuEvent}
    {w' : MenuWorld} (hrun : w.run config events = some w') : w'.Kept config rows₀ := by
  induction events generalizing w with
  | nil => exact Option.some_inj.mp hrun ▸ h
  | cons event rest ih =>
    obtain ⟨w₁, hstep, hrest⟩ := Option.bind_eq_some_iff.mp hrun
    exact ih (h.step hstep) hrest

variable {r : MenuRow} {w' : MenuWorld}

end MenuWorld

end ArenaServ
