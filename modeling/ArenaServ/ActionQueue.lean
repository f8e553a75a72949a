import Mathlib.Algebra.Order.Field.Rat
import Mathlib.Tactic.NormNum
import ArenaServ.Login
import ArenaServ.PacketIds
import ArenaServ.RunSteps

/-!
# The queue of actions

A packet that arrives is queued for its first pass. In that pass a handler for the playing
state puts it back at the end of the queue with the delay of the handler, and other handlers
run at once. Times are seconds. `none` is an access through a null pointer.
-/

namespace ArenaServ

/-! ## The clock -/

structure Clock where
  offset : ℚ
  last : UInt32
  maxDelta : ℕ
  deriving DecidableEq, Repr

namespace Clock

/-- The difference of two readings in milliseconds, which may have wrapped around. -/
def getTimeDelta (c : Clock) (ticks : UInt32) : ℕ :=
  let delta := (ticks - c.last).toNat
  let delta := if 2 ^ 31 ≤ delta then 0 else delta
  if c.maxDelta < delta then c.maxDelta else delta

def getTime (c : Clock) (ticks : UInt32) : Clock :=
  { c with offset := c.offset + (c.getTimeDelta ticks : ℚ) / 1000, last := ticks }

def setMaxDelta (c : Clock) (maxDelta : ℤ) : Clock :=
  { c with maxDelta := if maxDelta < 1 then 1000 else maxDelta.toNat }

/-- The time never goes back. -/
theorem offset_le_getTime (c : Clock) (ticks : UInt32) : c.offset ≤ (c.getTime ticks).offset := by
  have hdelta : (0 : ℚ) ≤ (c.getTimeDelta ticks : ℚ) / 1000 :=
    div_nonneg (Nat.cast_nonneg _) (by norm_num)
  exact le_add_of_nonneg_right hdelta

end Clock

/-! ## Handlers -/

namespace AllowState

def uninitialized : UInt16 := 1
def menu : UInt16 := 2
def characterMenu : UInt16 := 4
def loggingIn : UInt16 := 8
def playing : UInt16 := 16
/-- Does not queue the packet. -/
def outOfBand : UInt16 := 32

end AllowState

inductive FunctionType where
  | invalid | clientFn | playerFn | characterFn
  deriving DecidableEq, Repr

structure PacketHandler where
  fnType : FunctionType
  allowStates : UInt16
  delay : ℚ
  deriving DecidableEq, Repr

namespace PacketHandler

def allows (handler : PacketHandler) (flag : UInt16) : Bool := handler.allowStates &&& flag != 0

/-- Handlers for the playing state that are not out of band. -/
def inBand (handler : PacketHandler) : Bool :=
  handler.allows AllowState.playing && !handler.allows AllowState.outOfBand

end PacketHandler

/-- The handlers by family and action. -/
abbrev PacketHandlers := UInt8 → UInt8 → PacketHandler

/-- What `Handle` sees of a client; a player may have selected a character. -/
structure ClientView where
  state : ClientState
  player : Option Bool
  deriving DecidableEq, Repr

def stateCheck (client : ClientView) (handler : PacketHandler) : Option Bool :=
  match client.state with
  | .uninitialized => some (handler.allows AllowState.uninitialized)
  | .initialized => some (handler.allows AllowState.menu)
  | .loggedIn => client.player.map fun character =>
      handler.allows (if character then AllowState.loggingIn else AllowState.characterMenu)
  | .playing => some (handler.allows AllowState.playing)

inductive HandleResult where
  | ignored
  /-- Back to the queue, with the delay of the handler. -/
  | queued (delay : ℚ)
  | called
  | threw
  deriving DecidableEq, Repr

namespace PacketHandlers

variable (handlers : PacketHandlers)

def find (reader : PacketReader) : PacketHandler := handlers reader.family reader.action

/-- The function of a handler that has passed the checks. -/
def callFn (client : ClientView) : FunctionType → HandleResult
  | .invalid => .ignored
  | .clientFn => .called
  | .playerFn => if client.player.isSome then .called else .threw
  | .characterFn => if client.player = some true then .called else .threw

def handle (client : ClientView) (reader : PacketReader) (fromQueue : Bool) :
    Option HandleResult :=
  let handler := find handlers reader
  if handler.fnType = .invalid then some .ignored
  else (stateCheck client handler).map fun ok =>
    if !ok then .ignored
    else if !fromQueue && handler.inBand then .queued handler.delay
    else callFn client handler.fnType

/-- `SetDelay`, which leaves handlers alone that are not registered. -/
def setDelay (family action : UInt8) (delay : ℚ) : PacketHandlers := fun f a =>
  if f = family ∧ a = action ∧ (handlers f a).fnType ≠ .invalid then
    { handlers f a with delay := delay }
  else handlers f a

end PacketHandlers

/-! ## The queue -/

/-- The last two fields tell the packets of the client from the actions of the server, and
number both. -/
structure QueuedAction where
  reader : PacketReader
  time : ℚ
  autoQueue : Bool
  fromClient : Bool
  number : ℕ
  deriving DecidableEq, Repr

/-- A handler has been run, and `delay` is what the client has to wait for then. -/
structure ExecutedAction where
  reader : PacketReader
  fromClient : Bool
  number : ℕ
  start : ℚ
  delay : ℚ
  deriving DecidableEq, Repr

def QueuedAction.executedAt (a : QueuedAction) (start : ℚ) : ExecutedAction :=
  ⟨a.reader, a.fromClient, a.number, start, a.time⟩

/-- One client of the server; the last three fields are its history. -/
structure ActionQueue where
  clock : Clock
  handlers : PacketHandlers
  client : ClientView
  connected : Bool
  queue : List QueuedAction
  next : ℚ
  arrived : List PacketReader
  inserted : List PacketReader
  executed : List ExecutedAction

/-- What a handler does to its own client. -/
structure HandlerEffect where
  inserted : List (PacketReader × ℚ)
  client : ClientView
  /-- It neither closes the connection nor throws. -/
  connected : Bool

inductive QueueEvent where
  | arrive (reader : PacketReader)
  | insert (reader : PacketReader) (time : ℚ)
  /-- Something else changes the client, or closes it. -/
  | change (client : ClientView) (connected : Bool)
  | setDelay (family action : UInt8) (delay : ℚ)
  | setMaxDelta (maxDelta : ℤ)
  | getTime (ticks : UInt32)
  | pump (ticks : UInt32) (packetQueueMax : ℕ) (effect : HandlerEffect)

namespace ActionQueue

def start (clock : Clock) (handlers : PacketHandlers) (client : ClientView) : ActionQueue :=
  ⟨clock, handlers, client, true, [], 0, [], [], []⟩

variable (s : ActionQueue)

/-- The end of `Execute`; the family of the server's own actions is reserved. -/
def arrive (reader : PacketReader) : ActionQueue :=
  if s.connected = false then s
  else if reader.family = PacketFamily.internal.toByte then { s with connected := false }
  else
    { s with
      queue := s.queue ++ [⟨reader, 1 / 50, true, true, s.arrived.length⟩]
      arrived := s.arrived ++ [reader] }

/-- `AddAction` of the server. -/
def insert (reader : PacketReader) (time : ℚ) : ActionQueue :=
  { s with
    queue := s.queue ++ [⟨reader, time, false, false, s.inserted.length⟩]
    inserted := s.inserted ++ [reader] }

def insertAll (actions : List (PacketReader × ℚ)) : ActionQueue :=
  actions.foldl (fun (t : ActionQueue) action => t.insert action.1 action.2) s

def change (client : ClientView) (connected : Bool) : ActionQueue :=
  { s with client := client, connected := s.connected && connected }

/-- The function of the handler runs. -/
def call (a : QueuedAction) (effect : HandlerEffect) : ActionQueue :=
  let s := { s with executed := s.executed ++ [a.executedAt s.clock.offset] }
  (s.insertAll effect.inserted).change effect.client effect.connected

/-- What is done with the action that has been taken from the queue. -/
def perform (a : QueuedAction) (effect : HandlerEffect) : HandleResult → ActionQueue
  | .ignored => s
  | .queued delay => { s with queue := s.queue ++ [{ a with time := delay, autoQueue := false }] }
  | .called => s.call a effect
  | .threw => { s with connected := false }

/-- The first action of the queue, if its time has come. -/
def pumpFront (effect : HandlerEffect) : Option ActionQueue :=
  match s.queue with
  | [] => some s
  | a :: rest =>
      if s.next ≤ s.clock.offset then
        (s.handlers.handle s.client a.reader (!a.autoQueue)).map fun result =>
          { ({ s with queue := rest }.perform a effect result) with
            next := s.clock.offset + a.time }
      else some s

/-- `server_pump_queue` for one client. -/
def pump (ticks : UInt32) (packetQueueMax : ℕ) (effect : HandlerEffect) : Option ActionQueue :=
  let s := { s with clock := s.clock.getTime ticks }
  if s.connected = false then some s
  else if packetQueueMax < s.queue.length then some { s with connected := false }
  else s.pumpFront effect

def step (s : ActionQueue) : QueueEvent → Option ActionQueue
  | .arrive reader => some (s.arrive reader)
  | .insert reader time => some (s.insert reader time)
  | .change client connected => some (s.change client connected)
  | .setDelay family action delay =>
      some { s with handlers := s.handlers.setDelay family action delay }
  | .setMaxDelta maxDelta => some { s with clock := s.clock.setMaxDelta maxDelta }
  | .getTime ticks => some { s with clock := s.clock.getTime ticks }
  | .pump ticks packetQueueMax effect => s.pump ticks packetQueueMax effect

end ActionQueue

end ArenaServ
