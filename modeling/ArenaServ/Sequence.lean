import ArenaServ.EOClient

/-!
# Sequence numbers

The client numbers its packets from a start that the server announces: in the reply to
its first packet, in pings, and in some replies to account requests. Packets and messages
are on their way in both directions; the server checks a number when it receives the
packet, and handles the packet later. Random numbers are part of the step.
-/

namespace ArenaServ

namespace EOClient

/-- `Execute` behind `Decode`. -/
def executeBody (c : EOClient) (env : TickEnv) (body : Bytes) : Option EOClient :=
  if c.connected = false then some c
  else
    let reader := PacketReader.ofData body
    if reader.family = PacketFamily.internal.toByte then some c.refuse
    else if reader.family ≠ PacketFamily.fInit.toByte then do
      let pingReply := reader.family = PacketFamily.connection.toByte ∧
        reader.action = PacketAction.ping.toByte
      let c := if pingReply then c.pongNewSequence else c
      let (serverSeq, c) := c.genSequence
      let (clientSeq, reader) ← if 253 ≤ serverSeq then reader.getShort else reader.getChar
      if env.enforceSequence ∧ (clientSeq : ℤ) ≠ serverSeq then some c.refuse
      else some (c.addAction reader)
    else some (c.genSequence.2.addAction reader)

theorem execute_eq_executeBody (c : EOClient) (env : TickEnv) {data : Bytes}
    (h : 2 ≤ data.length) : c.execute env data = c.executeBody env (c.processor.decode data) := by
  unfold execute executeBody
  rw [if_neg (by omega)]

def initNewSequence (c : EOClient) (start : ℤ) : EOClient := { c with seqStart := start }

def pingNewSequence (c : EOClient) (start : ℤ) : EOClient := { c with upcomingSeqStart := start }

def accountReplyNewSequence (c : EOClient) (start : ℤ) : EOClient := { c with seqStart := start }

/-- The range of the first byte of `GetSeqInitBytes`. -/
def InitByteRange (c : EOClient) (s1 : ℤ) : Prop :=
  max 0 ((c.seqStart - 252 + 13 + 6).tdiv 7) ≤ s1 ∧ s1 ≤ (c.seqStart + 13).tdiv 7

instance (c : EOClient) (s1 : ℤ) : Decidable (c.InitByteRange s1) :=
  inferInstanceAs (Decidable (_ ∧ _))

def getSeqInitBytes (c : EOClient) (s1 : ℤ) : UInt8 × UInt8 :=
  (UInt8.ofInt s1, UInt8.ofInt (c.seqStart - s1 * 7 + 13))

/-- The range of the first number of `GetSeqUpdateBytes`. -/
def UpdateByteRange (c : EOClient) (s1 : ℤ) : Prop :=
  c.upcomingSeqStart ≤ s1 ∧ s1 ≤ c.upcomingSeqStart + 252

instance (c : EOClient) (s1 : ℤ) : Decidable (c.UpdateByteRange s1) :=
  inferInstanceAs (Decidable (_ ∧ _))

def getSeqUpdateBytes (c : EOClient) (s1 : ℤ) : UInt16 × UInt8 :=
  (UInt16.ofInt s1, UInt8.ofInt (s1 - c.upcomingSeqStart))

end EOClient

/-- A packet of the client with its number. -/
structure NumberedPacket where
  family : UInt8
  action : UInt8
  number : ℤ
  payload : Bytes
  deriving DecidableEq, Repr

namespace NumberedPacket

def isPong (p : NumberedPacket) : Bool :=
  p.family = PacketFamily.connection.toByte ∧ p.action = PacketAction.ping.toByte

/-- Numbers from 253 on take two bytes; the first packet has none. -/
def body (p : NumberedPacket) : Bytes :=
  let sequence := PacketProcessor.eNumber p.number.toNat
  [p.action, p.family] ++
    (if p.family = PacketFamily.fInit.toByte then []
      else if 253 ≤ p.number then sequence.take 2 else sequence.take 1) ++ p.payload

end NumberedPacket

inductive StartMessage where
  | initReply (s1 s2 : UInt8)
  | ping (s1 : UInt16) (s2 : UInt8)
  | accountReply (start : UInt8)
  deriving DecidableEq, Repr

namespace StartMessage

def isPing : StartMessage → Bool
  | .ping .. => true
  | .initReply .. | .accountReply _ => false

/-- The start that the client takes from the message. -/
def start : StartMessage → ℤ
  | .initReply s1 s2 => s1.toNat * 7 + s2.toNat - 13
  | .ping s1 s2 => s1.toNat - s2.toNat
  | .accountReply start => start.toNat

end StartMessage

/-- Both sides of a connection and what is on its way between them, oldest first. -/
structure SequenceState where
  server : EOClient
  needpong : Bool
  /-- A packet has been refused for its number. -/
  rejected : Bool
  start : ℤ
  count : ℤ
  toServer : List NumberedPacket
  toClient : List StartMessage
  deriving DecidableEq, Repr

/-- What the handler of a queued packet does to the sequence numbers. -/
inductive SequenceHandler where
  | initOk (start s1 : ℤ)
  | accountOk (start : ℤ)
  | other
  deriving DecidableEq, Repr

inductive SequenceStep where
  | ping (start s1 : ℤ)
  | receive
  | pump (handler : SequenceHandler)
  | close
  | deliver
  | send (family action : UInt8) (payload : Bytes)
  deriving DecidableEq, Repr

namespace SequenceState

/-- `server_ping_all` for one client. -/
def ping (s : SequenceState) (start s1 : ℤ) : Option SequenceState :=
  if s.needpong then some { s with server := s.server.refuse }
  else
    let server := s.server.pingNewSequence start
    if (0 ≤ start ∧ start ≤ 1757) ∧ server.UpdateByteRange s1 then
      let bytes := server.getSeqUpdateBytes s1
      some { s with
        server := server
        needpong := true
        toClient := s.toClient ++ [.ping bytes.1 bytes.2] }
    else none

/-- The server executes the next packet. -/
def receive (env : TickEnv) (s : SequenceState) : Option SequenceState :=
  match s.toServer with
  | [] => none
  | p :: rest => do
      let server ← s.server.executeBody env p.body
      let refused := s.server.connected && !server.connected &&
        p.family != PacketFamily.internal.toByte
      return { s with server := server, rejected := s.rejected || refused, toServer := rest }

/-- `Init_Init`, when it accepts the client. -/
def initInit (s : SequenceState) (start s1 : ℤ) : Option SequenceState :=
  let server := s.server.initNewSequence start
  if (0 ≤ start ∧ start ≤ 1757) ∧ server.InitByteRange s1 then
    let bytes := server.getSeqInitBytes s1
    some { s with server := server, toClient := s.toClient ++ [.initReply bytes.1 bytes.2] }
  else none

/-- `Account_Request` for a name that is free. -/
def accountRequest (s : SequenceState) (start : ℤ) : Option SequenceState :=
  if 0 ≤ start ∧ start ≤ 240 then
    let server := if s.server.seqStart > 240 then s.server.accountReplyNewSequence start
      else s.server
    some { s with
      server := server, toClient := s.toClient ++ [.accountReply (UInt8.ofInt server.seqStart)] }
  else none

/-- `Connection_Ping`. -/
def connectionPing (s : SequenceState) (reader : PacketReader) : Option SequenceState := do
  let (reply, _) ← reader.getEndString
  if reply ≠ [107] then return { s with server := { s.server with connected := false } }
  else return { s with needpong := false }

/-- `server_pump_queue`: the handler of the oldest packet. -/
def pump (s : SequenceState) (handler : SequenceHandler) : Option SequenceState :=
  match s.server.queue with
  | [] => none
  | action :: queue =>
      let s := { s with server := { s.server with queue := queue } }
      let reader := action.reader
      match handler with
      | .initOk start s1 =>
          if reader.family = PacketFamily.fInit.toByte ∧
              reader.action = PacketAction.aInit.toByte then s.initInit start s1
          else none
      | .accountOk start =>
          if reader.family = PacketFamily.account.toByte ∧
              reader.action = PacketAction.request.toByte then s.accountRequest start
          else none
      | .other =>
          if reader.family = PacketFamily.connection.toByte ∧
              reader.action = PacketAction.ping.toByte then s.connectionPing reader
          else some s

/-! ## The client -/

/-- The client numbers a packet and sends it. -/
def sendPacket (s : SequenceState) (family action : UInt8) (payload : Bytes) : SequenceState :=
  { s with
    toServer := s.toServer ++ [⟨family, action, s.start + s.count, payload⟩]
    count := (s.count + 1) % 10 }

/-- The client takes the new start, and answers a ping with it. -/
def deliver (s : SequenceState) : Option SequenceState :=
  match s.toClient with
  | [] => none
  | m :: rest =>
      let s := { s with start := m.start, toClient := rest }
      if m.isPing then
        some (s.sendPacket PacketFamily.connection.toByte PacketAction.ping.toByte [107])
      else some s

/-- The client sends neither reserved packets nor pongs of its own accord. -/
def send (s : SequenceState) (family action : UInt8) (payload : Bytes) : Option SequenceState :=
  if family = PacketFamily.internal.toByte ∨
      (family = PacketFamily.connection.toByte ∧ action = PacketAction.ping.toByte) then none
  else some (s.sendPacket family action payload)

def step (env : TickEnv) (s : SequenceState) : SequenceStep → Option SequenceState
  | .ping start s1 => s.ping start s1
  | .receive => s.receive env
  | .pump handler => s.pump handler
  | .close => some { s with server := { s.server with connected := false } }
  | .deliver => s.deliver
  | .send family action payload => s.send family action payload

def run (env : TickEnv) (s : SequenceState) : List SequenceStep → Option SequenceState
  | [] => some s
  | t :: steps => (s.step env t).bind fun s => s.run env steps

/-- A connection that has just been made. -/
def connected (client : Client) : SequenceState :=
  ⟨.initialized client, false, false, 0, 0, [], []⟩

end SequenceState

end ArenaServ
