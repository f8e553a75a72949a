import Mathlib.Data.Nat.Digits.Defs
import Mathlib.Logic.Function.Basic
import ArenaServ.PacketStream

/-!
# Logging in

The main thread handles one packet after the other. Credentials are checked on worker
threads, which also run the callbacks; every access of a worker to shared state is a step
of its own. `none` is an access to a client that has been deleted.
-/

namespace ArenaServ

/-- `util::lowercase`. -/
def lowercase (s : Bytes) : Bytes := s.map fun c => if 65 ≤ c ∧ c ≤ 90 then c + 32 else c

/-- `Player::ValidName`. -/
def validName (username : Bytes) : Bool :=
  username.all fun c => (97 ≤ c && c ≤ 122) || c = 32 || (48 ≤ c && c ≤ 57)

/-! ## Passwords of old clients -/

def seoseToBase62 (input : ℕ) : Bytes :=
  (Nat.digits 62 input).reverse.map fun x =>
    UInt8.ofNat (if x < 10 then 48 + x else if x < 36 then 55 + x else 61 + x)

def seoseHash (input : Bytes) (method : UInt16) : UInt16 :=
  input.foldl (fun result c =>
    [7, 6, 5, 4, 3, 2, 1, 0].foldl (fun result j =>
      let testBit := (result &&& 0x8000 == 0x8000) ^^ c.toNat.testBit j
      let result := (result &&& 0x7FFF) * 2
      if testBit then result ^^^ method else result) result) 0

/-- `seose_str_hash`; a `'#'` of the key counts as a pound sign. -/
def seoseStrHash (input key : Bytes) : Bytes :=
  key.zipIdx.flatMap fun (kc, i) =>
    let kc := if kc = 35 then 0xA3 else kc
    seoseToBase62 (seoseHash input (UInt16.ofNat ((i + 1) * kc.toNat))).toNat

/-! ## The state -/

inductive ClientState where
  | uninitialized | initialized | loggedIn | playing
  deriving DecidableEq, Repr

inductive LoginReply where
  | wrongUser | wrongUserpass | ok | accountBanned | loggedin | busy
  deriving DecidableEq, Repr

inductive AccountReply where
  | alreadyExists | notApproved | created | changeFailed | changed
  | continues (createId : ℕ)
  deriving DecidableEq, Repr

inductive LoginMessage where
  | initBanned
  | login (reply : LoginReply)
  | account (reply : AccountReply)
  deriving DecidableEq, Repr

structure Player where
  username : Bytes
  /-- A character has been selected. -/
  character : Bool
  deriving DecidableEq, Repr

structure LoginClient where
  connected : Bool
  asyncOpPending : Bool
  state : ClientState
  player : Option Player
  createId : ℕ
  loginAttempts : ℤ
  deriving DecidableEq, Repr

def LoginClient.new : LoginClient := ⟨true, false, .uninitialized, none, 0, 0⟩

/-- What a worker does next for a login. -/
inductive LoginStage where
  | check
  | setPlayer
  | clearPending (result : LoginReply)
  | callback (result : LoginReply)
  | asyncDone
  | complete
  deriving DecidableEq, Repr

inductive AccountStage where
  | check
  | callback (success : Bool)
  | asyncDone
  deriving DecidableEq, Repr

inductive Operation where
  | login (username : Bytes) (stage : LoginStage)
  | createAccount (stage : AccountStage)
  | setPassword (stage : AccountStage)
  deriving DecidableEq, Repr

structure AsyncOperation where
  client : ℕ
  operation : Operation
  deriving DecidableEq, Repr

structure LoginConfig where
  accountMinLength : ℕ
  accountMaxLength : ℕ
  passwordMinLength : ℕ
  passwordMaxLength : ℕ
  realNameMaxLength : ℕ
  locationMaxLength : ℕ
  emailMaxLength : ℕ
  computerNameLength : ℕ
  maxPlayers : ℕ
  maxLoginAttempts : ℤ
  loginQueueSize : ℤ
  initLoginBan : Bool
  /-- `SeoseCompatKey`, when `SeoseCompat` is on. -/
  seoseCompat : Option Bytes

/-- Clients by the order of their connection, deleted ones as `none`. -/
structure LoginServer where
  clients : List (Option LoginClient)
  pendingLogins : Bytes → Bool
  processCount : ℤ
  /-- Operations that are queued or run on the thread pool. -/
  ops : List AsyncOperation
  sent : List (ℕ × LoginMessage)

namespace LoginServer

def empty : LoginServer := ⟨[], fun _ => false, 0, [], []⟩

def client (s : LoginServer) (c : ℕ) : Option LoginClient := s.clients[c]?.join

def modify (s : LoginServer) (c : ℕ) (f : LoginClient → LoginClient) : LoginServer :=
  { s with clients := s.clients.modify c (Option.map f) }

def send (s : LoginServer) (c : ℕ) (message : LoginMessage) : LoginServer :=
  { s with sent := s.sent ++ [(c, message)] }

def close (s : LoginServer) (c : ℕ) : LoginServer :=
  s.modify c fun x => { x with connected := false }

def setAsyncOpPending (s : LoginServer) (c : ℕ) (pending : Bool) : LoginServer :=
  s.modify c fun x => { x with asyncOpPending := pending }

/-- What ends a client when a handler throws, a ping is not answered, the sequence number is
wrong or the action queue is full. -/
def kick (s : LoginServer) (c : ℕ) : LoginServer := (s.setAsyncOpPending c false).close c

def setPendingLogin (s : LoginServer) (username : Bytes) (pending : Bool) : LoginServer :=
  { s with pendingLogins := Function.update s.pendingLogins username pending }

def playerOnline (s : LoginServer) (username : Bytes) : Bool :=
  validName username && (s.pendingLogins username || s.clients.any fun x =>
    x.any fun x => x.player.any fun p => p.username = username)

def loginBusy (config : LoginConfig) (s : LoginServer) : Bool :=
  config.loginQueueSize ≤ s.processCount

/-- `AsyncOperation::Execute` of an operation for the thread pool; it throws when the
client runs another one. -/
def execute (s : LoginServer) (c : ℕ) (operation : Operation) : Option LoginServer := do
  let x ← s.client c
  if x.asyncOpPending then return s.kick c
  else
    let s := s.setAsyncOpPending c true
    return { s with ops := s.ops ++ [⟨c, operation⟩] }

/-! ## Requests -/

/-- The failure callback behind its `SetPendingLogin`. -/
def loginFailed (config : LoginConfig) (s : LoginServer) (c : ℕ) (reason : LoginReply) :
    Option LoginServer := do
  let x ← s.client c
  let s := s.send c (.login reason)
  if config.maxLoginAttempts = 0 then return s
  else
    let s := s.modify c fun x => { x with loginAttempts := x.loginAttempts + 1 }
    if config.maxLoginAttempts ≤ x.loginAttempts + 1 then return s.close c else return s

/-- What the checks of `Login_Request` come to. -/
inductive LoginCheck where
  | ignored
  | banned
  | refused (reply : LoginReply)
  | full
  | online (username : Bytes)
  | accepted (username : Bytes)
  deriving DecidableEq, Repr

/-- The checks of `Login_Request`, given whether the name is banned and how many characters
are in the game; `none` when the reader throws. -/
def checkRequest (config : LoginConfig) (s : LoginServer) (reader : PacketReader) (banned : Bool)
    (characters : ℕ) : Option LoginCheck := do
  let (username, reader) ← reader.getBreakString 0xFF
  let (password, _) ← reader.getBreakString 0xFF
  if username.length > config.accountMaxLength ∨ password.length > config.passwordMaxLength then
    return .ignored
  else
    let username := lowercase username
    let password := config.seoseCompat.elim password (seoseStrHash password)
    if banned then return .banned
    else if username.length < config.accountMinLength then return .refused .wrongUser
    else if password.length < config.passwordMinLength then return .refused .wrongUserpass
    else if characters ≥ config.maxPlayers then return .full
    else if s.playerOnline username then return .online username
    else return .accepted username

/-- `CheckCredential(client)->Execute(..)`; a busy login manager answers at once. -/
def checkCredential (config : LoginConfig) (s : LoginServer) (c : ℕ) (username : Bytes) :
    Option LoginServer := do
  if s.loginBusy config then
    let x ← s.client c
    if x.asyncOpPending then return s.kick c
    else
      let s := (s.setAsyncOpPending c true).setPendingLogin username false
      let s ← s.loginFailed config c .busy
      return s.setAsyncOpPending c false
  else
    let s := { s with processCount := s.processCount + 1 }
    s.execute c (.login username .check)

def loginRequest (config : LoginConfig) (s : LoginServer) (c : ℕ) (reader : PacketReader)
    (banned : Bool) (characters : ℕ) : Option LoginServer := do
  let x ← s.client c
  if ¬ x.connected ∨ x.state ≠ .initialized then return s
  else
    match s.checkRequest config reader banned characters with
    | none => return s.kick c
    | some .ignored => return s
    | some .banned =>
        let message := if config.initLoginBan then .initBanned else .login .accountBanned
        return (s.send c message).close c
    | some (.refused reply) => return s.send c (.login reply)
    | some .full => return (s.send c (.login .busy)).close c
    | some (.online username) =>
        (s.setPendingLogin username false).loginFailed config c .loggedin
    | some (.accepted username) =>
        (s.setPendingLogin username true).checkCredential config c username

/-- What the checks of an account request come to. -/
inductive AccountCheck where
  | ignored
  | closed
  | refused (reply : AccountReply)
  | accepted
  deriving DecidableEq, Repr

/-- The checks of `Account_Create`, given whether the account is in the database. -/
def checkCreate (config : LoginConfig) (x : LoginClient) (reader : PacketReader) (found : Bool) :
    Option AccountCheck := do
  let (createId, reader) ← reader.getShort
  let (byte255, reader) ← reader.getByte
  if createId ≠ x.createId ∨ byte255 ≠ 255 then return .closed
  else
    let (username, reader) ← reader.getBreakString 0xFF
    let (password, reader) ← reader.getBreakString 0xFF
    let (fullname, reader) ← reader.getBreakString 0xFF
    let (location, reader) ← reader.getBreakString 0xFF
    let (email, reader) ← reader.getBreakString 0xFF
    let (computer, reader) ← reader.getBreakString 0xFF
    let (hdid, _) ← reader.getBreakString 0xFF
    let username := lowercase username
    if hdid.any fun c => c < 48 || 57 < c then return .ignored
    else if username.length < config.accountMinLength ∨
        username.length > config.accountMaxLength ∨
        password.length < config.passwordMinLength ∨
        password.length > config.passwordMaxLength ∨
        fullname.length > config.realNameMaxLength ∨
        location.length > config.locationMaxLength ∨
        email.length > config.emailMaxLength ∨
        computer.length > config.computerNameLength then
      return .ignored
    else if !validName username then return .refused .notApproved
    else if found then return .refused .alreadyExists
    else return .accepted

/-- The checks of `Account_Agree`, likewise. -/
def checkAgree (config : LoginConfig) (reader : PacketReader) (found : Bool) :
    Option AccountCheck := do
  let (username, reader) ← reader.getBreakString 0xFF
  let (oldpassword, reader) ← reader.getBreakString 0xFF
  let (newpassword, _) ← reader.getBreakString 0xFF
  if username.length < config.accountMinLength ∨ username.length > config.accountMaxLength ∨
      oldpassword.length < config.passwordMinLength ∨
      oldpassword.length > config.passwordMaxLength ∨
      newpassword.length < config.passwordMinLength ∨
      newpassword.length > config.passwordMaxLength then
    return .ignored
  else if !validName username then return .refused .notApproved
  else if !found then return .ignored
  else return .accepted

/-- What an account request does after its checks. -/
def answerAccount (s : LoginServer) (c : ℕ) (operation : Operation) :
    Option AccountCheck → Option LoginServer
  | none => some (s.kick c)
  | some .ignored => some s
  | some .closed => some (s.close c)
  | some (.refused reply) => some (s.send c (.account reply))
  | some .accepted => s.execute c operation

/-- `Account_Request`; `createId` is the new operation id. -/
def accountRequest (s : LoginServer) (c : ℕ) (reader : PacketReader) (found : Bool)
    (createId : ℕ) : Option LoginServer := do
  let x ← s.client c
  if ¬ x.connected ∨ x.state ≠ .initialized then return s
  else
    match reader.getEndString with
    | none => return s.kick c
    | some (username, _) =>
        if !validName (lowercase username) then return s.send c (.account .notApproved)
        else if found then return s.send c (.account .alreadyExists)
        else
          let s := s.modify c fun x => { x with createId := createId }
          return s.send c (.account (.continues createId))

def accountCreate (config : LoginConfig) (s : LoginServer) (c : ℕ) (reader : PacketReader)
    (found : Bool) : Option LoginServer := do
  let x ← s.client c
  if ¬ x.connected ∨ x.state ≠ .initialized then return s
  else s.answerAccount c (.createAccount .check) (checkCreate config x reader found)

/-- `Account_Agree`, which needs a player without a character in the game. -/
def accountAgree (config : LoginConfig) (s : LoginServer) (c : ℕ) (reader : PacketReader)
    (found : Bool) : Option LoginServer := do
  let x ← s.client c
  if ¬ x.connected ∨ x.state ≠ .loggedIn then return s
  else
    let player ← x.player
    if player.character then return s
    else s.answerAccount c (.setPassword .check) (checkAgree config reader found)

/-! ## Workers -/

/-- What becomes of the work of a stage. A check fails for a reason; an exception in a
callback skips the others. -/
inductive WorkerOutcome where
  | success
  | failure (reason : LoginReply)
  | thrown
  deriving DecidableEq, Repr

/-- The success callback behind its `SetPendingLogin`. -/
def loginSucceeded (s : LoginServer) (c : ℕ) (thrown : Bool) : Option LoginServer := do
  let x ← s.client c
  if ¬ x.connected then return s
  else
    match x.player with
    | none => return if thrown then s else s.send c (.login .wrongUser)
    | some _ =>
        let s := s.modify c fun x => { x with state := .loggedIn }
        return if thrown then s else s.send c (.login .ok)

/-- One stage of a login and the stage after it. -/
def loginWork (config : LoginConfig) (s : LoginServer) (c : ℕ) (username : Bytes) :
    LoginStage → WorkerOutcome → Option (LoginServer × Option LoginStage)
  | .check, .success => some (s, some .setPlayer)
  | .check, .failure reason =>
      if reason = .wrongUser ∨ reason = .wrongUserpass then
        some (s, some (.clearPending reason))
      else none
  | .check, .thrown => some (s, some .asyncDone)
  | .setPlayer, .success => (s.client c).map fun _ =>
      (s.modify c fun x => { x with player := some ⟨username, false⟩ }, some (.clearPending .ok))
  | .setPlayer, .thrown => (s.client c).map fun _ => (s, some .asyncDone)
  | .clearPending result, .success => (s.client c).map fun _ =>
      (s.setPendingLogin username false, some (.callback result))
  | .callback .ok, .success => (s.loginSucceeded c false).map (·, some .asyncDone)
  | .callback .ok, .thrown => (s.loginSucceeded c true).map (·, some .asyncDone)
  | .callback result, .success => (s.loginFailed config c result).map (·, some .asyncDone)
  | .callback _, .thrown => (s.client c).map fun _ => (s, some .asyncDone)
  | .asyncDone, .success => (s.client c).map fun _ =>
      (s.setAsyncOpPending c false, some .complete)
  | .complete, .success => some ({ s with processCount := s.processCount - 1 }, none)
  | _, _ => none

/-- The callbacks of an account operation. -/
def accountCallback (s : LoginServer) (c : ℕ) (x : LoginClient) (create success : Bool) :
    LoginServer :=
  if create then
    if ¬ success then s.close c
    else if ¬ x.connected then s
    else (s.send c (.account .created)).modify c fun x => { x with createId := 0 }
  else if ¬ x.connected then s
  else s.send c (.account (if success then .changed else .changeFailed))

def accountWork (s : LoginServer) (c : ℕ) (create : Bool) :
    AccountStage → WorkerOutcome → Option (LoginServer × Option AccountStage)
  | .check, .success => some (s, some (.callback true))
  | .check, .failure _ => some (s, some (.callback false))
  | .check, .thrown => some (s, some .asyncDone)
  | .callback success, .success => (s.client c).map fun x =>
      (s.accountCallback c x create success, some .asyncDone)
  | .callback _, .thrown => (s.client c).map fun _ => (s, some .asyncDone)
  | .asyncDone, .success => (s.client c).map fun _ => (s.setAsyncOpPending c false, none)
  | _, _ => none

/-- An operation that is done is deleted. -/
def resume (s : LoginServer) (i c : ℕ) : Option Operation → LoginServer
  | some operation => { s with ops := s.ops.set i ⟨c, operation⟩ }
  | none => { s with ops := s.ops.eraseIdx i }

/-- The next stage of the `i`-th operation. -/
def work (config : LoginConfig) (s : LoginServer) (i : ℕ) (outcome : WorkerOutcome) :
    Option LoginServer := do
  let op ← s.ops[i]?
  match op.operation with
  | .login username stage =>
      let (s, next) ← s.loginWork config op.client username stage outcome
      return s.resume i op.client (next.map (.login username))
  | .createAccount stage =>
      let (s, next) ← s.accountWork op.client true stage outcome
      return s.resume i op.client (next.map .createAccount)
  | .setPassword stage =>
      let (s, next) ← s.accountWork op.client false stage outcome
      return s.resume i op.client (next.map .setPassword)

/-! ## Connections -/

def connect (s : LoginServer) : LoginServer :=
  { s with clients := s.clients ++ [some .new] }

/-- `Init_Init`, when it accepts the client. -/
def init (s : LoginServer) (c : ℕ) : Option LoginServer := do
  let x ← s.client c
  if ¬ x.connected ∨ x.state ≠ .uninitialized then return s
  else return s.modify c fun x => { x with state := .initialized }

/-- `Welcome_Request` with one of the player's characters. -/
def welcomeRequest (s : LoginServer) (c : ℕ) : Option LoginServer := do
  let x ← s.client c
  if ¬ x.connected ∨ x.state ≠ .loggedIn then return s
  else return s.modify c fun x => { x with player := x.player.map ({ · with character := true }) }

/-- `Welcome_Msg`. -/
def welcomeMsg (s : LoginServer) (c : ℕ) : Option LoginServer := do
  let x ← s.client c
  if ¬ x.connected ∨ x.state ≠ .loggedIn then return s
  else
    let player ← x.player
    if ¬ player.character then return s
    else return s.modify c fun x => { x with state := .playing }

/-- `BuryTheDead` for one client: the client is deleted, and its player with it. -/
def bury (s : LoginServer) (c : ℕ) : Option LoginServer := do
  let x ← s.client c
  if x.connected ∨ x.asyncOpPending then return s
  else return { s with clients := s.clients.set c none }

end LoginServer

/-! ## Runs -/

inductive LoginStep where
  | connect
  | init (c : ℕ)
  | loginRequest (c : ℕ) (reader : PacketReader) (banned : Bool) (characters : ℕ)
  | accountRequest (c : ℕ) (reader : PacketReader) (found : Bool) (createId : ℕ)
  | accountCreate (c : ℕ) (reader : PacketReader) (found : Bool)
  | accountAgree (c : ℕ) (reader : PacketReader) (found : Bool)
  | welcomeRequest (c : ℕ)
  | welcomeMsg (c : ℕ)
  | close (c : ℕ)
  | kick (c : ℕ)
  | bury (c : ℕ)
  | work (i : ℕ) (outcome : LoginServer.WorkerOutcome)

namespace LoginServer

def step (config : LoginConfig) (s : LoginServer) : LoginStep → Option LoginServer
  | .connect => some s.connect
  | .init c => s.init c
  | .loginRequest c reader banned characters => s.loginRequest config c reader banned characters
  | .accountRequest c reader found createId => s.accountRequest c reader found createId
  | .accountCreate c reader found => s.accountCreate config c reader found
  | .accountAgree c reader found => s.accountAgree config c reader found
  | .welcomeRequest c => s.welcomeRequest c
  | .welcomeMsg c => s.welcomeMsg c
  | .close c => some (s.close c)
  | .kick c => some (s.kick c)
  | .bury c => s.bury c
  | .work i outcome => s.work config i outcome

def run (config : LoginConfig) (s : LoginServer) : List LoginStep → Option LoginServer
  | [] => some s
  | t :: steps => (s.step config t).bind fun s => s.run config steps

/-! ## A small server -/

def defaults : LoginConfig where
  accountMinLength := 4
  accountMaxLength := 16
  passwordMinLength := 6
  passwordMaxLength := 12
  realNameMaxLength := 64
  locationMaxLength := 64
  emailMaxLength := 64
  computerNameLength := 64
  maxPlayers := 200
  maxLoginAttempts := 3
  loginQueueSize := 10
  initLoginBan := true
  seoseCompat := none

def alice : Bytes := [97, 108, 105, 99, 101]

def bobby : Bytes := [98, 111, 98, 98, 121]

/-- The name with the password `secret`. -/
def credentials (username : Bytes) : PacketReader :=
  .ofData ([1, 4] ++ username ++ [255] ++ [115, 101, 99, 114, 101, 116] ++ [255])

/-- All stages of the first operation in flight. -/
def succeeds : List LoginStep := List.replicate 6 (.work 0 .success)

end LoginServer

end ArenaServ
