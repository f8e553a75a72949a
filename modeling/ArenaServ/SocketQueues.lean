import ArenaServ.Socket

/-!
# The socket buffers are bounded queues

Any interleaving of the four buffer operations is matched, step for step, by
operations of two bounded queues; what the queues conserve, the buffers conserve.
-/

namespace ArenaServ

inductive SocketOp where
  | doRecv (ready : Bytes)
  | recv (length : ℕ)
  | send (data : Bytes)
  | doSend (accepts : ℕ)
  deriving DecidableEq, Repr

namespace Client

def step (c : Client) : SocketOp → Client
  | .doRecv ready => (c.doRecv (some ready)).2
  | .recv length => (c.recv length).2
  | .send data => c.send data
  | .doSend accepts => (c.doSend (some accepts)).2.2

def run (c : Client) (ops : List SocketOp) : Client := ops.foldl step c

/-- What the operating system delivers. -/
def received (c : Client) : SocketOp → Bytes
  | .doRecv ready => c.arriving ready
  | _ => []

/-- What `Recv` returns. -/
def returned (c : Client) : SocketOp → Bytes
  | .recv length => (c.recv length).1
  | _ => []

/-- The string given to `Send`, unless it closes the client instead of sending. -/
def accepted (c : Client) : SocketOp → Bytes
  | .send data => if data.length > c.sendBuffer.free then [] else data
  | _ => []

/-- What the operating system takes. -/
def written (c : Client) : SocketOp → Bytes
  | .doSend accepts => (c.doSend (some accepts)).1
  | _ => []

/-- One of the four observations over a whole run. -/
def collect (observe : Client → SocketOp → Bytes) (c : Client) : List SocketOp → Bytes
  | [] => []
  | op :: ops => observe c op ++ collect observe (c.step op) ops

/-- What an operation does to the queue of received bytes. -/
def recvOps (c : Client) : SocketOp → List (BoundedQueue.Op UInt8)
  | .doRecv ready => [.enqueue (c.arriving ready)]
  | .recv length => [.dequeue length]
  | _ => []

/-- What an operation does to the queue of bytes to send. -/
def sendOps (c : Client) : SocketOp → List (BoundedQueue.Op UInt8)
  | .send data => [.enqueue data]
  | .doSend accepts => [.dequeue (min accepts c.toSend)]
  | _ => []

def trace (queueOps : Client → SocketOp → List (BoundedQueue.Op UInt8)) (c : Client) :
    List SocketOp → List (BoundedQueue.Op UInt8)
  | [] => []
  | op :: ops => queueOps c op ++ trace queueOps (c.step op) ops

structure Refines (c : Client) (j k : ℕ) (inq outq : BoundedQueue UInt8) : Prop where
  recv : c.recvBuffer.Represents j inq.items
  send : c.sendBuffer.Represents k outq.items
  recv_capacity : inq.capacity = 2 ^ j
  send_capacity : outq.capacity = 2 ^ k

variable {c : Client} {j k : ℕ} {inq outq : BoundedQueue UInt8}

theorem refines_withBuffers (j k : ℕ) :
    (withBuffers j k).Refines j k (BoundedQueue.empty (2 ^ j)) (BoundedQueue.empty (2 ^ k)) where
  recv := RingBuffer.represents_blank j 0
  send := RingBuffer.represents_blank k 0
  recv_capacity := rfl
  send_capacity := rfl

theorem Refines.step_recv (h : c.Refines j k inq outq) (op : SocketOp) :
    (c.step op).recvBuffer.Represents j (inq.run (c.recvOps op)).items ∧
      c.received op = inq.allTaken (c.recvOps op) ∧
      c.returned op = inq.allGiven (c.recvOps op) := by
  cases op with
  | doRecv ready =>
      obtain ⟨hroom, hrep, -⟩ := doRecv_spec h.recv ready
      rw [← h.recv_capacity] at hroom
      have hitems : (inq.run (c.recvOps (.doRecv ready))).items =
          inq.items ++ c.arriving ready := by
        simp [recvOps, BoundedQueue.run, BoundedQueue.step, BoundedQueue.enqueue, hroom]
      rw [hitems]
      refine ⟨hrep, ?_, ?_⟩
      · simp [received, recvOps, BoundedQueue.allTaken, BoundedQueue.taken, hroom]
      · simp [returned, recvOps, BoundedQueue.allGiven, BoundedQueue.given]
  | recv n =>
      obtain ⟨hout, hrep, -⟩ := recv_spec h.recv n
      refine ⟨hrep, ?_, ?_⟩
      · simp [received, recvOps, BoundedQueue.allTaken, BoundedQueue.taken]
      · simp [returned, recvOps, BoundedQueue.allGiven, BoundedQueue.given, hout]
  | send data =>
      have hsame : (c.send data).recvBuffer = c.recvBuffer := by
        rw [Client.send]
        split_ifs <;> rfl
      refine ⟨?_, rfl, rfl⟩
      rw [step, hsame]
      exact h.recv
  | doSend accepts =>
      obtain ⟨-, -, hsame⟩ := doSend_spec h.send accepts
      refine ⟨?_, rfl, rfl⟩
      rw [step, hsame]
      exact h.recv

theorem Refines.step_send (h : c.Refines j k inq outq) (op : SocketOp) :
    (c.step op).sendBuffer.Represents k (outq.run (c.sendOps op)).items ∧
      c.accepted op = outq.allTaken (c.sendOps op) ∧
      c.written op = outq.allGiven (c.sendOps op) := by
  cases op with
  | doRecv ready =>
      obtain ⟨-, -, hsame⟩ := doRecv_spec h.recv ready
      refine ⟨?_, rfl, rfl⟩
      rw [step, hsame]
      exact h.send
  | recv n =>
      obtain ⟨-, -, hsame⟩ := recv_spec h.recv n
      refine ⟨?_, rfl, rfl⟩
      rw [step, hsame]
      exact h.send
  | send data =>
      by_cases hfit : outq.items.length + data.length ≤ outq.capacity
      · have hroom := hfit
        rw [h.send_capacity] at hroom
        obtain ⟨hrep, -⟩ := send_of_fits h.send hroom
        have hitems : (outq.run (c.sendOps (.send data))).items = outq.items ++ data := by
          simp [sendOps, BoundedQueue.run, BoundedQueue.step, BoundedQueue.enqueue, hfit]
        have hfree : ¬ data.length > c.sendBuffer.free := by
          rw [h.send.free_eq]
          omega
        rw [hitems]
        refine ⟨hrep, ?_, ?_⟩
        · simp [accepted, sendOps, BoundedQueue.allTaken, BoundedQueue.taken, hfit, hfree]
        · simp [written, sendOps, BoundedQueue.allGiven, BoundedQueue.given]
      · have hroom := hfit
        rw [h.send_capacity] at hroom
        have hitems : outq.run (c.sendOps (.send data)) = outq := by
          simp [sendOps, BoundedQueue.run, BoundedQueue.step, BoundedQueue.enqueue, hfit]
        have hfree : data.length > c.sendBuffer.free := by
          rw [h.send.free_eq]
          have := h.send.fits
          omega
        rw [hitems, step, send_of_not_fits h.send hroom]
        refine ⟨h.send, ?_, ?_⟩
        · simp [accepted, sendOps, BoundedQueue.allTaken, BoundedQueue.taken, hfit, hfree]
        · simp [written, sendOps, BoundedQueue.allGiven, BoundedQueue.given]
  | doSend accepts =>
      obtain ⟨hout, hrep, -⟩ := doSend_spec h.send accepts
      refine ⟨hrep, ?_, ?_⟩
      · simp [accepted, sendOps, BoundedQueue.allTaken, BoundedQueue.taken]
      · simp [written, sendOps, BoundedQueue.allGiven, BoundedQueue.given, hout]

theorem Refines.step (h : c.Refines j k inq outq) (op : SocketOp) :
    (c.step op).Refines j k (inq.run (c.recvOps op)) (outq.run (c.sendOps op)) where
  recv := (h.step_recv op).1
  send := (h.step_send op).1
  recv_capacity := (inq.run_capacity _).trans h.recv_capacity
  send_capacity := (outq.run_capacity _).trans h.send_capacity

theorem Refines.run (h : c.Refines j k inq outq) (ops : List SocketOp) :
    (c.run ops).Refines j k (inq.run (trace recvOps c ops)) (outq.run (trace sendOps c ops)) := by
  induction ops generalizing c inq outq with
  | nil => exact h
  | cons op ops ih =>
      have hnext := ih (h.step op)
      rw [← BoundedQueue.run_append, ← BoundedQueue.run_append] at hnext
      exact hnext

/-- What goes in and comes out of the buffers is what goes in and comes out of the queues. -/
theorem Refines.collect (h : c.Refines j k inq outq) (ops : List SocketOp) :
    collect received c ops = inq.allTaken (trace recvOps c ops) ∧
      collect returned c ops = inq.allGiven (trace recvOps c ops) ∧
      collect accepted c ops = outq.allTaken (trace sendOps c ops) ∧
      collect written c ops = outq.allGiven (trace sendOps c ops) := by
  induction ops generalizing c inq outq with
  | nil => exact ⟨rfl, rfl, rfl, rfl⟩
  | cons op ops ih =>
      obtain ⟨hrecv, hret, hacc, hwri⟩ := ih (h.step op)
      obtain ⟨-, hrecv₁, hret₁⟩ := h.step_recv op
      obtain ⟨-, hacc₁, hwri₁⟩ := h.step_send op
      simp only [Client.collect, trace, BoundedQueue.allTaken_append,
        BoundedQueue.allGiven_append, hrecv, hret, hacc, hwri, hrecv₁, hret₁, hacc₁, hwri₁,
        and_self]

/-- For power-of-two sizes and any interleaving, the buffers stand for two bounded
queues: nothing is lost, duplicated or reordered, and the counts are the queue lengths. -/
theorem client_refines_queues (j k : ℕ) (ops : List SocketOp) :
    ∃ c₀, (new.setRecvBuffer (2 ^ j)).bind (·.setSendBuffer (2 ^ k)) = some c₀ ∧
      let c := c₀.run ops
      let inq := (BoundedQueue.empty (2 ^ j)).run (trace recvOps c₀ ops)
      let outq := (BoundedQueue.empty (2 ^ k)).run (trace sendOps c₀ ops)
      c.Refines j k inq outq ∧
      Client.collect received c₀ ops = Client.collect returned c₀ ops ++ inq.items ∧
      Client.collect accepted c₀ ops = Client.collect written c₀ ops ++ outq.items ∧
      Client.collect returned c₀ ops <+: Client.collect received c₀ ops ∧
      Client.collect written c₀ ops <+: Client.collect accepted c₀ ops ∧
      c.recvBuffer.used = inq.items.length ∧
      c.sendBuffer.used = outq.items.length ∧
      ∀ data : Bytes, 2 ^ k < outq.items.length + data.length →
        (c.send data).sendBuffer = c.sendBuffer := by
  refine ⟨withBuffers j k, set_buffers_new j k, ?_⟩
  intro c inq outq
  have hstart := refines_withBuffers j k
  have hrun : c.Refines j k inq outq := hstart.run ops
  obtain ⟨hrecv, hret, hacc, hwri⟩ := hstart.collect ops
  have hin := (BoundedQueue.empty (2 ^ j)).run_conserves (trace recvOps (withBuffers j k) ops)
  have hout := (BoundedQueue.empty (2 ^ k)).run_conserves (trace sendOps (withBuffers j k) ops)
  rw [← hrecv, ← hret] at hin
  rw [← hacc, ← hwri] at hout
  refine ⟨hrun, hin, hout, ⟨inq.items, hin.symm⟩, ⟨outq.items, hout.symm⟩, hrun.recv.used_eq,
    hrun.send.used_eq, ?_⟩
  intro data hbig
  rw [send_of_not_fits hrun.send (by omega)]
  rfl

end Client

end ArenaServ
