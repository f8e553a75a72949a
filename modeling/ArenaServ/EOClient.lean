import ArenaServ.PacketProcessor
import ArenaServ.PacketStream
import ArenaServ.Socket

/-!
# The tick of a game client

`Tick` either sends more of a file or reads from the receive buffer: one byte at a
time for the two length bytes, then as much of the packet as is there. A complete
packet goes to `Execute`, which checks its sequence number and queues it. `none`
stands for undefined behaviour or an exception of the source.
-/

namespace ArenaServ
open PacketProcessor

inductive FileType where
  | fileMap | fileItem | fileNpc | fileSpell | fileClass
  deriving DecidableEq, Repr

inductive PacketState where
  | readLen1 | readLen2 | readData
  deriving DecidableEq, Repr

/-- An action the server will execute for the client; the time is in milliseconds. -/
structure ActionQueueAction where
  reader : PacketReader
  time : ℕ
  autoQueue : Bool
  deriving DecidableEq, Repr

structure EOClient extends Client where
  uploadType : FileType
  /-- What is left to read of the open file. -/
  uploadFh : Option Bytes
  uploadPos : ℕ
  uploadSize : ℕ
  sendBuffer2 : RingBuffer UInt8
  seqStart : ℤ
  upcomingSeqStart : ℤ
  seq : ℤ
  queue : List ActionQueueAction
  packetState : PacketState
  rawLength : UInt8 × UInt8
  length : ℕ
  data : Bytes
  processor : PacketProcessor
  deriving DecidableEq, Repr

/-- What `Tick` reads from the server: two configuration values, and whether the map of
the client's character is exempt from PK, when there is a character. -/
structure TickEnv where
  enforceSequence : Bool
  globalPK : Bool
  pkExcept : Option Bool
  deriving DecidableEq, Repr

namespace EOClient

/-- A client of an accepted socket after `Initialize`. -/
def initialized (client : Client) : EOClient where
  toClient := client
  uploadType := .fileMap
  uploadFh := none
  uploadPos := 0
  uploadSize := 0
  sendBuffer2 := RingBuffer.blank 0 0
  seqStart := 0
  upcomingSeqStart := -1
  seq := 0
  queue := []
  packetState := .readLen1
  rawLength := (0, 0)
  length := 0
  data := []
  processor := ⟨0, 0⟩

def needTick (c : EOClient) : Bool := c.uploadFh.isSome

def pongNewSequence (c : EOClient) : EOClient := { c with seqStart := c.upcomingSeqStart }

def genSequence (c : EOClient) : ℤ × EOClient :=
  (c.seqStart + c.seq, { c with seq := (c.seq + 1) % 10 })

def addAction (c : EOClient) (reader : PacketReader) : EOClient :=
  { c with queue := c.queue ++ [⟨reader, 20, true⟩] }

/-- `AsyncOpPending(false)` and `Close()`. -/
def refuse (c : EOClient) : EOClient := { c with connected := false, asyncOpPending := false }

def execute (c : EOClient) (env : TickEnv) (data : Bytes) : Option EOClient :=
  if data.length < 2 then some c
  else if c.connected = false then some c
  else
    let reader := PacketReader.ofData (c.processor.decode data)
    if reader.family = PacketFamily.internal.toByte then some c.refuse
    else if reader.family ≠ PacketFamily.fInit.toByte then do
      let pingReply := reader.family = PacketFamily.connection.toByte ∧
        reader.action = PacketAction.ping.toByte
      let c := if pingReply then c.pongNewSequence else c
      let (serverSeq, c) := c.genSequence
      let (clientSeq, reader) ← if 253 ≤ serverSeq then reader.getShort else reader.getChar
      if env.enforceSequence ∧ (clientSeq : ℤ) ≠ serverSeq then some c.refuse
      else some (c.addAction reader)
    else some (c.genSequence.2.addAction reader)

/-! ## Sending a file -/

/-- `fread` into the buffer: the bytes go where they go, no mask is applied. -/
def overwrite (buffer : Bytes) (start : ℕ) (chunk : Bytes) : Bytes :=
  buffer.take start ++ chunk ++ buffer.drop (start + chunk.length)

/-- The bytes of a map file that enable PK, as far as they are in the chunk just read. -/
def rewritePK (buffer : Bytes) (ppos pos available : ℕ) : Bytes :=
  let buffer := if pos ≤ 0x03 ∧ pos + available > 0x03 then
    buffer.set (ppos + 1 + 0x03 - pos) 0xFF else buffer
  let buffer := if pos ≤ 0x03 ∧ pos + available > 0x04 then
    buffer.set (ppos + 1 + 0x04 - pos) 0x01 else buffer
  if pos ≤ 0x1F ∧ pos + available > 0x1F then buffer.set (ppos + 1 + 0x1F - pos) 0x04 else buffer

/-- The rewriting, which looks at the map of the client's character. -/
def patchMap (c : EOClient) (env : TickEnv) (buffer : Bytes) (available : ℕ) : Option Bytes :=
  if c.uploadType = .fileMap ∧ env.globalPK then
    env.pkExcept.map fun except =>
      if except then buffer else rewritePK buffer c.sendBuffer.ppos c.uploadPos available
  else some buffer

def tickUpload (c : EOClient) (env : TickEnv) (file : Bytes) : Option EOClient :=
  let available := min (sizeSub c.uploadSize c.uploadPos) c.sendBuffer.free
  if available ≠ 0 then
    let chunk := file.take available
    let available := chunk.length
    let ppos := c.sendBuffer.ppos
    if ppos + 1 + available ≤ c.sendBuffer.size then
      (c.patchMap env (overwrite c.sendBuffer.buffer (ppos + 1) chunk) available).map fun buffer =>
        { c with
          uploadFh := some (file.drop available)
          uploadPos := c.uploadPos + available
          sendBuffer :=
            ⟨buffer, c.sendBuffer.gpos, ppos + available, c.sendBuffer.used + available⟩ }
    else none
  else if c.uploadPos = c.uploadSize ∧ c.sendBuffer.free = c.sendBuffer.size then
    some { c with
      uploadFh := none
      uploadPos := 0
      uploadSize := 0
      sendBuffer := c.sendBuffer2
      sendBuffer2 := { c.sendBuffer with buffer := [] } }
  else some c

/-! ## Receiving -/

/-- One pass of the loop: the bytes left, the strings given to `Execute`, and `done`. -/
structure Pass where
  client : EOClient
  data : Bytes
  executed : List Bytes
  done : Bool

def caseReadData (c : EOClient) (env : TickEnv) (data : Bytes) : Option Pass :=
  let oldlength := c.data.length
  let c₁ := { c with data := c.data ++ data.take c.length }
  let c₂ := { c₁ with length := c.length - (c₁.data.length - oldlength) }
  let data := data.drop c.length
  if c₂.length = 0 then do
    let c₃ ← c₂.execute env c₂.data
    some ⟨{ c₃ with data := [], packetState := .readLen1 }, data, [c₂.data], true⟩
  else some ⟨c₂, data, [], false⟩

def caseReadLen2 (c : EOClient) (env : TickEnv) (data : Bytes) : Option Pass :=
  let raw := (c.rawLength.1, byteAt data 0)
  let c := { c with
    rawLength := raw
    length := number raw.1 raw.2 254 254
    packetState := .readData }
  let data := data.drop 1
  if data.length = 0 then some ⟨c, data, [], false⟩ else c.caseReadData env data

def caseReadLen1 (c : EOClient) (env : TickEnv) (data : Bytes) : Option Pass :=
  let c := { c with rawLength := (byteAt data 0, c.rawLength.2), packetState := .readLen2 }
  let data := data.drop 1
  if data.length = 0 then some ⟨c, data, [], false⟩ else c.caseReadLen2 env data

/-- The `switch` with its two cases that fall through. -/
def readPass (c : EOClient) (env : TickEnv) (data : Bytes) : Option Pass :=
  match c.packetState with
  | .readLen1 => c.caseReadLen1 env data
  | .readLen2 => c.caseReadLen2 env data
  | .readData => c.caseReadData env data

/-- `while (data.length() > 0 && !done)`; `none` when the fuel does not last. -/
def readLoop (env : TickEnv) : ℕ → EOClient → Bytes → Option (EOClient × List Bytes)
  | 0, c, data => if data.length = 0 then some (c, []) else none
  | fuel + 1, c, data =>
      if data.length = 0 then some (c, [])
      else do
        let s ← c.readPass env data
        if s.done then some (s.client, s.executed)
        else do
          let (c, executed) ← readLoop env fuel s.client s.data
          some (c, s.executed ++ executed)

/-- How much `Tick` asks the receive buffer for. -/
def request (c : EOClient) : ℕ := if c.packetState = .readData then c.length else 1

/-- The new state and the strings given to `Execute`. -/
def tick (c : EOClient) (env : TickEnv) : Option (EOClient × List Bytes) :=
  match c.uploadFh with
  | some file => (c.tickUpload env file).map fun c => (c, [])
  | none =>
      let (data, client) := c.toClient.recv c.request
      readLoop env data.length { c with toClient := client } data

/-! ## What `Execute` can do -/

theorem getNumber_isSome (data : Bytes) {k : ℕ} (hk : k ≤ 4) (hlen : 2 ≤ data.length) :
    ((PacketReader.ofData data).getNumber k).isSome := by
  have hrem : (PacketReader.ofData data).remaining = data.length - 2 := sizeSub_of_le hlen
  have hmin : min k (data.length - 2) ≤ data.length - 2 := Nat.min_le_right _ _
  have hfour : min k (data.length - 2) ≤ 4 := Nat.le_trans (Nat.min_le_left _ _) hk
  rw [PacketReader.getNumber, hrem, if_pos]
  · rfl
  · refine ⟨?_, hfour⟩
    simp only [PacketReader.ofData, PacketReader.length]
    omega

theorem length_decode (p : PacketProcessor) (str : Bytes) : (p.decode str).length = str.length := by
  rw [decode]
  split_ifs with h
  · rfl
  · have hne : p.emultiD ≠ 0 := fun h0 => h (Or.inl h0)
    rw [dickWinderD, dickWinder_eq_reverseRuns hne, RunReversal.length_reverseRuns,
      length_deinterleave]

/-- `Execute` never fails, and only sequence numbers, queue and connection change. -/
theorem execute_spec (c : EOClient) (env : TickEnv) (data : Bytes) :
    ∃ connected pending seqStart seq queue, c.execute env data =
      some { c with
        connected := connected, asyncOpPending := pending
        seqStart := seqStart, seq := seq, queue := queue } := by
  rw [execute]
  by_cases hlen : data.length < 2
  · exact ⟨_, _, _, _, _, by rw [if_pos hlen]⟩
  rw [if_neg hlen]
  by_cases hconn : c.connected = false
  · exact ⟨_, _, _, _, _, by rw [if_pos hconn]⟩
  rw [if_neg hconn]
  have hdec : 2 ≤ (c.processor.decode data).length := by
    rw [length_decode]
    omega
  generalize c.processor.decode data = body at hdec
  by_cases hint : (PacketReader.ofData body).family = PacketFamily.internal.toByte
  · exact ⟨_, _, _, _, _, by rw [if_pos hint]; rfl⟩
  simp only [if_neg hint]
  by_cases hinit : (PacketReader.ofData body).family ≠ PacketFamily.fInit.toByte
  · rw [if_pos hinit]
    obtain ⟨start, hpong⟩ : ∃ start, (if (PacketReader.ofData body).family =
        PacketFamily.connection.toByte ∧ (PacketReader.ofData body).action =
          PacketAction.ping.toByte then c.pongNewSequence else c) =
        { c with seqStart := start } := by
      split_ifs
      · exact ⟨_, rfl⟩
      · exact ⟨c.seqStart, rfl⟩
    rw [hpong]
    obtain ⟨short, hshort⟩ : ∃ r, (PacketReader.ofData body).getShort = some r := by
      rw [← Option.isSome_iff_exists, PacketReader.getShort, Option.isSome_map]
      exact getNumber_isSome body (by decide) hdec
    obtain ⟨char, hchar⟩ : ∃ r, (PacketReader.ofData body).getChar = some r := by
      rw [← Option.isSome_iff_exists, PacketReader.getChar, Option.isSome_map]
      exact getNumber_isSome body (by decide) hdec
    simp only [hshort, hchar, Option.bind_eq_bind, Option.bind_some]
    split_ifs <;> exact ⟨_, _, _, _, _, rfl⟩
  · rw [if_neg hinit]
    exact ⟨_, _, _, _, _, rfl⟩

end EOClient

end ArenaServ
