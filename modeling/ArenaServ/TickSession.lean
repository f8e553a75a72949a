import ArenaServ.EOClient
import ArenaServ.FrameParser
import ArenaServ.PacketFields

/-!
# Runs of a client connection

Bytes arrive in chunks, ticks read them, and in between the rest of the server does
what it likes with everything but the receive side: it closes the client, queues
bytes to send or starts an upload.
-/

/-!
## The tick is a frame parser

One `Tick` reads at most what its state asks for and does with these bytes what the
frame parser does one at a time. Hence the strings given to `Execute` depend on the
bytes received only, not on how they are cut into chunks and ticks.
-/

namespace ArenaServ
open PacketProcessor FrameParser

/-- What `Tick` makes of the two length bytes. -/
def frameLength (a b : UInt8) : ℕ := number a b 254 254

namespace EOClient

def phase (c : EOClient) : Phase UInt8 :=
  match c.packetState with
  | .readLen1 => .first
  | .readLen2 => .second c.rawLength.1
  | .readData => .body c.length c.data

/-- Outside a packet nothing of one is kept. -/
def Tidy (c : EOClient) : Prop := c.packetState ≠ .readData → c.data = []

theorem readLoop_nil (c : EOClient) (env : TickEnv) (fuel : ℕ) :
    readLoop env fuel c [] = some (c, []) := by
  cases fuel <;> rfl

/-- What the loop leaves behind after taking `data` from the parser's point of view. -/
structure Parses (c c' : EOClient) (data : Bytes) (executed : List Bytes) : Prop where
  feed_eq : feedAll frameLength c.phase data = (c'.phase, executed)
  tidy : c'.Tidy
  recvBuffer_eq : c'.recvBuffer = c.recvBuffer
  uploadFh_eq : c'.uploadFh = c.uploadFh

variable {c : EOClient} {data : Bytes}

theorem readLoop_length_byte (hstate : c.packetState ≠ .readData) (htidy : c.Tidy) (env : TickEnv)
    (b : UInt8) :
    ∃ c' executed, readLoop env 1 c [b] = some (c', executed) ∧ c.Parses c' [b] executed := by
  have hdata := htidy hstate
  cases hcase : c.packetState with
  | readData => exact absurd hcase hstate
  | readLen1 =>
      refine ⟨{ c with rawLength := (b, c.rawLength.2), packetState := .readLen2 }, [], ?_, ?_⟩
      · simp [readLoop, readPass, hcase, caseReadLen1, byteAt]
      · refine ⟨?_, fun _ => hdata, rfl, rfl⟩
        simp [phase, hcase, feedAll, feed]
  | readLen2 =>
      refine ⟨{ c with
        rawLength := (c.rawLength.1, b), length := frameLength c.rawLength.1 b,
        packetState := .readData }, [], ?_, ?_⟩
      · simp [readLoop, readPass, hcase, caseReadLen2, byteAt, frameLength]
      · refine ⟨?_, fun h => absurd rfl h, rfl, rfl⟩
        simp [phase, hcase, feedAll, feed, hdata]

theorem readLoop_data (hstate : c.packetState = .readData) (env : TickEnv) (hne : data ≠ [])
    (hle : data.length ≤ c.length) :
    ∃ c' executed, readLoop env data.length c data = some (c', executed) ∧
      c.Parses c' data executed := by
  obtain ⟨n, hn⟩ : ∃ n, data.length = n + 1 :=
    ⟨data.length - 1, by have := List.length_pos_iff.mpr hne; omega⟩
  have hnz : ¬ data.length = 0 := by omega
  have htake : data.take c.length = data := List.take_of_length_le hle
  have hdrop : data.drop c.length = [] := List.drop_of_length_le hle
  have hrest : c.length - ((c.data ++ data).length - c.data.length) = c.length - data.length := by
    rw [List.length_append]
    omega
  by_cases hlast : c.length - data.length = 0
  · -- the packet is complete
    have hlen : c.length = data.length := by omega
    obtain ⟨connected, pending, seqStart, seq, queue, hexec⟩ := execute_spec
      { c with data := c.data ++ data, length := 0 } env (c.data ++ data)
    refine ⟨{ c with
      connected := connected, asyncOpPending := pending
      seqStart := seqStart, seq := seq, queue := queue
      length := 0, data := [], packetState := .readLen1 }, [c.data ++ data], ?_, ?_⟩
    · rw [hn, readLoop, if_neg hnz, readPass, hstate]
      simp only [caseReadData, htake, hdrop, hrest, hlast, ↓reduceIte, hexec,
        Option.bind_eq_bind, Option.bind_some]
    · refine ⟨?_, fun _ => rfl, rfl, rfl⟩
      simp only [phase, hstate, hlen]
      exact feedAll_body_exact frameLength c.data hne
  · refine ⟨{ c with data := c.data ++ data, length := c.length - data.length }, [], ?_, ?_⟩
    · rw [hn, readLoop, if_neg hnz, readPass, hstate]
      simp only [caseReadData, htake, hdrop, hrest, hlast, ↓reduceIte, Option.bind_eq_bind,
        Option.bind_some, Bool.false_eq_true, readLoop_nil, List.append_nil]
      simp [hn, hstate]
    · refine ⟨?_, fun h => absurd hstate h, rfl, rfl⟩
      simp only [phase, hstate]
      exact feedAll_body_short frameLength c.length c.data data (by omega)

theorem readLoop_spec (htidy : c.Tidy) (env : TickEnv) (hle : data.length ≤ c.request) :
    ∃ c' executed, readLoop env data.length c data = some (c', executed) ∧
      c.Parses c' data executed := by
  cases data with
  | nil => exact ⟨c, [], readLoop_nil c env _, rfl, htidy, rfl, rfl⟩
  | cons b data =>
      by_cases hstate : c.packetState = .readData
      · rw [request, if_pos hstate] at hle
        exact readLoop_data hstate env (List.cons_ne_nil b data) hle
      · rw [request, if_neg hstate, List.length_cons] at hle
        have hnil : data = [] := List.length_eq_zero_iff.mp (by omega)
        rw [hnil]
        exact readLoop_length_byte hstate htidy env b

/-- One tick feeds the parser what it asks for, as far as it is there. -/
theorem tick_spec {j : ℕ} {q : Bytes} (hrecv : c.recvBuffer.Represents j q) (htidy : c.Tidy)
    (hup : c.uploadFh = none) (env : TickEnv) :
    ∃ c' executed, c.tick env = some (c', executed) ∧
      feedAll frameLength c.phase (q.take c.request) = (c'.phase, executed) ∧
      c'.Tidy ∧ c'.recvBuffer.Represents j (q.drop c.request) ∧ c'.uploadFh = none := by
  obtain ⟨hdata, hbuf, -⟩ := Client.recv_spec hrecv c.request
  have hle : (q.take c.request).length ≤ c.request := List.length_take_le _ _
  obtain ⟨c', executed, hloop, hparses⟩ := readLoop_spec
    (c := { c with toClient := (c.toClient.recv c.request).2 }) htidy env hle
  refine ⟨c', executed, ?_, hparses.feed_eq, hparses.tidy, ?_, hparses.uploadFh_eq.trans hup⟩
  · rw [← hloop, ← hdata, tick]
    simp only [hup]
  · rw [hparses.recvBuffer_eq]
    exact hbuf

end EOClient

end ArenaServ

namespace ArenaServ
open PacketProcessor FrameParser

inductive Event where
  | doRecv (ready : Bytes)
  | tick (env : TickEnv)
  | elsewhere (client : EOClient)

/-- A client with all bytes received so far and all strings given to `Execute`. -/
structure Session where
  client : EOClient
  received : Bytes
  executed : List Bytes
  deriving DecidableEq

namespace Event

/-- No upload is started. -/
def Quiet : Event → Prop
  | .elsewhere client => client.uploadFh = none
  | _ => True

instance (e : Event) : Decidable e.Quiet := by
  cases e with
  | elsewhere client => exact inferInstanceAs (Decidable (client.uploadFh = none))
  | doRecv ready => exact inferInstanceAs (Decidable True)
  | tick env => exact inferInstanceAs (Decidable True)

end Event

namespace Session

/-- A new connection with buffers of the given power-of-two sizes. -/
def start (j k : ℕ) : Session := ⟨EOClient.initialized (Client.withBuffers j k), [], []⟩

def step (s : Session) : Event → Option Session
  | .doRecv ready => some { s with
      client := { s.client with toClient := (s.client.doRecv (some ready)).2 }
      received := s.received ++ s.client.arriving ready }
  | .tick env => (s.client.tick env).map fun (client, executed) =>
      { s with client := client, executed := s.executed ++ executed }
  | .elsewhere client => some { s with client := { client with
      recvBuffer := s.client.recvBuffer
      packetState := s.client.packetState
      rawLength := s.client.rawLength
      length := s.client.length
      data := s.client.data } }

def run (s : Session) : List Event → Option Session
  | [] => some s
  | e :: events => (s.step e).bind fun s => s.run events

/-- The client is where the parser is after the bytes that have left the receive buffer. -/
structure Framed (s : Session) (j : ℕ) (unread : Bytes) : Prop where
  recv : s.client.recvBuffer.Represents j unread
  tidy : s.client.Tidy
  parsed : ∃ consumed, s.received = consumed ++ unread ∧
    feedAll frameLength .first consumed = (s.client.phase, s.executed)

variable {s s' : Session} {j : ℕ} {q : Bytes}

theorem framed_start (j k : ℕ) : (start j k).Framed j [] where
  recv := RingBuffer.represents_blank j 0
  tidy := fun _ => rfl
  parsed := ⟨[], rfl, rfl⟩

theorem Framed.tick (h : s.Framed j q) (hup : s.client.uploadFh = none) (env : TickEnv) :
    ∃ s', s.step (.tick env) = some s' ∧ s'.Framed j (q.drop s.client.request) ∧
      s'.client.uploadFh = none ∧ s'.received = s.received := by
  obtain ⟨c', executed, htick, hfeed, htidy, hrecv, hup'⟩ :=
    EOClient.tick_spec h.recv h.tidy hup env
  obtain ⟨consumed, hbytes, hparsed⟩ := h.parsed
  refine ⟨⟨c', s.received, s.executed ++ executed⟩, ?_, ?_, hup', rfl⟩
  · rw [step, htick]
    rfl
  · refine ⟨hrecv, htidy, consumed ++ q.take s.client.request, ?_, ?_⟩
    · rw [List.append_assoc, List.take_append_drop]
      exact hbytes
    · rw [feedAll_append, hparsed, hfeed]

/-- A tick that goes on with an upload leaves the receive side alone. -/
theorem tickUpload_spec {c c' : EOClient} {env : TickEnv} {file : Bytes}
    (h : c.tickUpload env file = some c') :
    c'.recvBuffer = c.recvBuffer ∧ c'.phase = c.phase ∧ (c.Tidy → c'.Tidy) := by
  simp only [EOClient.tickUpload] at h
  split_ifs at h with havail hfits
  · obtain ⟨buffer, -, hc'⟩ := Option.map_eq_some_iff.mp h
    rw [← hc']
    exact ⟨rfl, rfl, id⟩
  · cases h
    exact ⟨rfl, rfl, id⟩
  · cases h
    exact ⟨rfl, rfl, id⟩

theorem Framed.step (h : s.Framed j q) {e : Event} (hs : s.step e = some s') :
    ∃ q', s'.Framed j q' := by
  obtain ⟨consumed, hbytes, hparsed⟩ := h.parsed
  cases e with
  | doRecv ready =>
      cases hs
      obtain ⟨-, hrecv, -⟩ := Client.doRecv_spec h.recv ready
      refine ⟨_, hrecv, h.tidy, consumed, ?_, hparsed⟩
      rw [← List.append_assoc, ← hbytes]
  | tick env =>
      cases hup : s.client.uploadFh with
      | none =>
          obtain ⟨t, ht, hframed, -, -⟩ := h.tick hup env
          rw [ht] at hs
          cases hs
          exact ⟨_, hframed⟩
      | some file =>
          rw [Session.step, EOClient.tick, hup] at hs
          cases htick : s.client.tickUpload env file with
          | none => simp [htick] at hs
          | some c' =>
              obtain ⟨hrecv, hphase, htidy⟩ := tickUpload_spec htick
              simp only [htick, Option.map_some, Option.some.injEq, List.append_nil] at hs
              rw [← hs]
              refine ⟨q, ?_, htidy h.tidy, consumed, hbytes, ?_⟩
              · simpa only [hrecv] using h.recv
              · simpa only [hphase] using hparsed
  | elsewhere client =>
      cases hs
      exact ⟨q, h.recv, h.tidy, consumed, hbytes, hparsed⟩

theorem Framed.run (h : s.Framed j q) {events : List Event} (hs : s.run events = some s') :
    ∃ q', s'.Framed j q' := by
  induction events generalizing s q with
  | nil =>
      cases hs
      exact ⟨q, h⟩
  | cons e events ih =>
      rw [Session.run, Option.bind_eq_some_iff] at hs
      obtain ⟨t, ht, hrun⟩ := hs
      obtain ⟨q', hq'⟩ := h.step ht
      exact ih hq' hrun

/-- Without uploads no step is undefined. -/
theorem Framed.run_quiet (h : s.Framed j q) (hup : s.client.uploadFh = none)
    {events : List Event} (hquiet : ∀ e ∈ events, e.Quiet) :
    ∃ s', s.run events = some s' ∧ s'.client.uploadFh = none := by
  induction events generalizing s q with
  | nil => exact ⟨s, rfl, hup⟩
  | cons e events ih =>
      have hrest : ∀ e' ∈ events, e'.Quiet := fun e' he' => hquiet e' (List.mem_cons_of_mem _ he')
      obtain ⟨t, ht, hup'⟩ : ∃ t, s.step e = some t ∧ t.client.uploadFh = none := by
        cases e with
        | doRecv ready => exact ⟨_, rfl, by simpa using hup⟩
        | tick env =>
            obtain ⟨t, ht, -, hnone, -⟩ := h.tick hup env
            exact ⟨t, ht, hnone⟩
        | elsewhere client => exact ⟨_, rfl, hquiet _ List.mem_cons_self⟩
      obtain ⟨q', hq'⟩ := h.step ht
      obtain ⟨s', hs', hnone⟩ := ih hq' hup' hrest
      exact ⟨s', by rw [Session.run, ht, Option.bind_some, hs'], hnone⟩

end Session

end ArenaServ
