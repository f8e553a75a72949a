import ArenaServ.PacketNumber
import ArenaServ.RingQueue

/-!
# The buffers of a socket client

A client keeps the bytes it has received and the bytes it has to send in two
ring buffers. The operating system hands over at most what it is asked for and
accepts at most what it is offered; otherwise it is free.
-/

namespace ArenaServ

structure Client where
  connected : Bool
  asyncOpPending : Bool
  recvBuffer : RingBuffer UInt8
  sendBuffer : RingBuffer UInt8
  deriving DecidableEq, Repr

namespace Client

/-- A client of an accepted socket, before its buffers are given a size. -/
def new : Client := ⟨true, false, RingBuffer.blank 0 0, RingBuffer.blank 0 0⟩

/-- Whether the size check returns: it throws on an odd factor and never ends on 0. -/
def assertPowerOfTwo (size : ℕ) : Bool :=
  if size = 0 then false
  else if size &&& 1 = 0 then assertPowerOfTwo (size >>> 1)
  else size ≤ 1
termination_by size
decreasing_by
  rw [Nat.shiftRight_eq_div_pow]
  omega

/-- `std::string::resize`. -/
def resize (s : List UInt8) (size : ℕ) : List UInt8 :=
  s.take size ++ List.replicate (size - s.length) 0

def setRecvBuffer (c : Client) (size : ℕ) : Option Client :=
  if assertPowerOfTwo size then
    some { c with recvBuffer := { c.recvBuffer with buffer := resize c.recvBuffer.buffer size } }
  else none

def setSendBuffer (c : Client) (size : ℕ) : Option Client :=
  if assertPowerOfTwo size then
    some { c with sendBuffer := { c.sendBuffer with buffer := resize c.sendBuffer.buffer size } }
  else none

def close (c : Client) : Client := { c with connected := false }

def recv (c : Client) (length : ℕ) : Bytes × Client :=
  let length := min length c.recvBuffer.used
  let (ret, gpos) := c.recvBuffer.readFrom length c.recvBuffer.gpos
  (ret, { c with recvBuffer :=
    { c.recvBuffer with gpos := gpos, used := c.recvBuffer.used - length } })

def send (c : Client) (data : Bytes) : Client :=
  if data.length > c.sendBuffer.free then c.close
  else { c with sendBuffer := c.sendBuffer.push data }

/-- How many bytes `DoRecv` asks for. -/
def toRecv (c : Client) : ℕ := min c.recvBuffer.free 8192

/-- How many bytes `DoSend` offers. -/
def toSend (c : Client) : ℕ := min c.sendBuffer.used 8192

/-- `ready` is what the operating system has for this client, `none` when `recv` fails. -/
def doRecv (c : Client) (ready : Option Bytes) : Bool × Client :=
  if c.toRecv = 0 then (false, c)
  else
    match ready with
    | none => (false, c)
    | some ready =>
        let buf := ready.take c.toRecv
        if 0 < buf.length then (true, { c with recvBuffer := c.recvBuffer.push buf })
        else (false, c)

/-- `accepts` is how much the operating system takes, `none` when `send` fails. The
bytes it takes are part of the result. -/
def doSend (c : Client) (accepts : Option ℕ) : Bytes × Bool × Client :=
  let (buf, gpos) := c.sendBuffer.readFrom c.toSend c.sendBuffer.gpos
  match accepts with
  | none => ([], false, { c with sendBuffer := { c.sendBuffer with gpos := gpos } })
  | some n =>
      let written := min n c.toSend
      (buf.take written, true, { c with sendBuffer :=
        { c.sendBuffer with
          gpos := (c.sendBuffer.gpos + written) &&& c.sendBuffer.mask
          used := c.sendBuffer.used - written } })

/-! ## Setting the buffers up -/

theorem assertPowerOfTwo_two_pow (k : ℕ) : assertPowerOfTwo (2 ^ k) = true := by
  induction k with
  | zero => decide +kernel
  | succ k ih =>
      have hne : 2 ^ (k + 1) ≠ 0 := (Nat.two_pow_pos _).ne'
      have heven : 2 ^ (k + 1) &&& 1 = 0 := by
        rw [Nat.and_one_is_mod, Nat.pow_succ]
        omega
      have hhalf : 2 ^ (k + 1) >>> 1 = 2 ^ k := by
        rw [Nat.shiftRight_eq_div_pow, Nat.pow_succ]
        omega
      rw [assertPowerOfTwo, if_neg hne, if_pos heven, hhalf, ih]

/-- The size check lets exactly the powers of two through. -/
theorem assertPowerOfTwo_eq_true_iff (size : ℕ) :
    assertPowerOfTwo size = true ↔ ∃ k, size = 2 ^ k := by
  constructor
  · intro h
    induction size using assertPowerOfTwo.induct with
    | case1 => simp [assertPowerOfTwo] at h
    | case2 size hne heven ih =>
        rw [assertPowerOfTwo, if_neg hne, if_pos heven] at h
        obtain ⟨k, hk⟩ := ih h
        rw [Nat.shiftRight_eq_div_pow] at hk
        rw [Nat.and_one_is_mod] at heven
        refine ⟨k + 1, ?_⟩
        rw [Nat.pow_succ]
        omega
    | case3 size hne hodd =>
        rw [assertPowerOfTwo, if_neg hne, if_neg hodd] at h
        refine ⟨0, ?_⟩
        have := of_decide_eq_true h
        omega
  · rintro ⟨k, rfl⟩
    exact assertPowerOfTwo_two_pow k

/-- A new client with buffers of the given power-of-two sizes. -/
def withBuffers (j k : ℕ) : Client :=
  ⟨true, false, RingBuffer.blank (2 ^ j) 0, RingBuffer.blank (2 ^ k) 0⟩

theorem set_buffers_new (j k : ℕ) :
    (new.setRecvBuffer (2 ^ j)).bind (·.setSendBuffer (2 ^ k)) = some (withBuffers j k) := by
  simp [setRecvBuffer, setSendBuffer, assertPowerOfTwo_two_pow, new, withBuffers, resize,
    RingBuffer.blank]

/-! ## One operation -/

variable {c : Client} {k : ℕ} {q : List UInt8}

theorem recv_spec (h : c.recvBuffer.Represents k q) (n : ℕ) :
    (c.recv n).1 = q.take n ∧ (c.recv n).2.recvBuffer.Represents k (q.drop n) ∧
      (c.recv n).2.sendBuffer = c.sendBuffer := by
  have hlen : min n c.recvBuffer.used ≤ q.length := by
    rw [h.used_eq]
    exact Nat.min_le_right _ _
  have htake : q.take (min n c.recvBuffer.used) = q.take n := by
    rw [h.used_eq, ← List.take_take, List.take_length]
  have hdrop : q.drop (min n c.recvBuffer.used) = q.drop n := by
    rw [h.used_eq]
    by_cases hn : n ≤ q.length
    · rw [Nat.min_eq_left hn]
    · rw [Nat.min_eq_right (by omega), List.drop_of_length_le (le_refl _),
        List.drop_of_length_le (by omega)]
  have hread := h.toHolds.readFrom hlen
  have hnext := h.advance hlen
  rw [htake] at hread
  rw [hdrop] at hnext
  refine ⟨?_, ?_, rfl⟩
  · rw [recv, hread]
  · rw [recv, hread]
    exact hnext

theorem send_of_fits (h : c.sendBuffer.Represents k q) {data : Bytes}
    (hfit : q.length + data.length ≤ 2 ^ k) :
    (c.send data).sendBuffer.Represents k (q ++ data) ∧
      (c.send data).recvBuffer = c.recvBuffer := by
  have hfree : ¬ data.length > c.sendBuffer.free := by
    rw [h.free_eq]
    omega
  rw [send, if_neg hfree]
  exact ⟨h.push data hfit, rfl⟩

/-- What does not fit is not sent at all, and the client is closed. -/
theorem send_of_not_fits (h : c.sendBuffer.Represents k q) {data : Bytes}
    (hfit : ¬ q.length + data.length ≤ 2 ^ k) : c.send data = c.close := by
  have hfree : data.length > c.sendBuffer.free := by
    rw [h.free_eq]
    have := h.fits
    omega
  rw [send, if_pos hfree]

/-- The bytes the operating system hands over when asked. -/
def arriving (c : Client) (ready : Bytes) : Bytes := ready.take c.toRecv

theorem doRecv_spec (h : c.recvBuffer.Represents k q) (ready : Bytes) :
    q.length + (c.arriving ready).length ≤ 2 ^ k ∧
      (c.doRecv (some ready)).2.recvBuffer.Represents k (q ++ c.arriving ready) ∧
      (c.doRecv (some ready)).2.sendBuffer = c.sendBuffer := by
  have hroom : q.length + (c.arriving ready).length ≤ 2 ^ k := by
    have hle : (c.arriving ready).length ≤ c.toRecv := List.length_take_le _ _
    have hfree : c.toRecv ≤ 2 ^ k - q.length := by
      rw [← h.free_eq]
      exact Nat.min_le_left _ _
    have := h.fits
    omega
  have hnone : c.arriving ready = [] → (c.doRecv (some ready)).2 = c := by
    intro hnil
    rw [arriving] at hnil
    rw [doRecv]
    by_cases hz : c.toRecv = 0
    · rw [if_pos hz]
    · rw [if_neg hz]
      simp [hnil]
  refine ⟨hroom, ?_⟩
  by_cases hnil : c.arriving ready = []
  · rw [hnone hnil, hnil, List.append_nil]
    exact ⟨h, rfl⟩
  · have hpos : 0 < (ready.take c.toRecv).length := List.length_pos_iff.mpr hnil
    have hask : c.toRecv ≠ 0 := by
      intro hz
      rw [hz] at hpos
      exact absurd hpos (by simp)
    rw [doRecv, if_neg hask]
    simp only [if_pos hpos]
    exact ⟨h.push (c.arriving ready) hroom, trivial⟩

theorem doSend_spec (h : c.sendBuffer.Represents k q) (accepts : ℕ) :
    (c.doSend (some accepts)).1 = q.take (min accepts c.toSend) ∧
      (c.doSend (some accepts)).2.2.sendBuffer.Represents k (q.drop (min accepts c.toSend)) ∧
      (c.doSend (some accepts)).2.2.recvBuffer = c.recvBuffer := by
  have hoffer : c.toSend ≤ q.length := by
    rw [← h.used_eq]
    exact Nat.min_le_left _ _
  have hwritten : min accepts c.toSend ≤ q.length := Nat.le_trans (Nat.min_le_right _ _) hoffer
  have hread := h.toHolds.readFrom hoffer
  have hnext := h.advance hwritten
  rw [doSend, hread]
  refine ⟨?_, ?_, rfl⟩
  · simp only [List.take_take, Nat.min_assoc, Nat.min_self]
  · simp only [h.toHolds.mask_eq]
    exact hnext

end Client

end ArenaServ
