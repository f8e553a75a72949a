import Mathlib.Algebra.BigOperators.Group.List.Basic
import Mathlib.Algebra.Order.Group.Multiset
import Mathlib.Tactic.Abel
import ArenaServ.RunSteps

/-!
# The thread pool

Any thread may queue work, the work itself included. One thread resizes the pool and shuts it
down. A step of the model is what a thread does between two points where the others can see
the difference: the lock of the queue is held across steps only while a smaller pool joins its
threads.
-/

namespace ArenaServ

/-! ## Sums over the threads -/

section Totals

variable {β M : Type*} [AddCommMonoid M]

def total (f : β → M) (threads : List β) : M := (threads.map f).sum

theorem total_cons (f : β → M) (a : β) (threads : List β) :
    total f (a :: threads) = f a + total f threads := by
  unfold total
  rw [List.map_cons, List.sum_cons]

theorem total_append (f : β → M) (threads more : List β) :
    total f (threads ++ more) = total f threads + total f more := by
  unfold total
  rw [List.map_append, List.sum_append]

theorem total_replicate (f : β → M) (n : ℕ) (a : β) :
    total f (List.replicate n a) = n • f a := by
  unfold total
  rw [List.map_replicate, List.sum_replicate]

theorem total_set (f : β → M) {threads : List β} {i : ℕ} {a : β} (b : β)
    (h : threads[i]? = some a) :
    total f (threads.set i b) + f a = total f threads + f b := by
  induction threads generalizing i with
  | nil => cases h
  | cons c rest ih =>
      cases i with
      | zero =>
          cases h
          rw [List.set_cons_zero, total_cons, total_cons]
          rw [add_right_comm, add_comm (f b) (f a), add_right_comm]
      | succ i =>
          rw [List.set_cons_succ, total_cons, total_cons, add_assoc, ih h, add_assoc]

theorem total_eq_zero {f : β → M} {threads : List β} (h : ∀ a ∈ threads, f a = 0) :
    total f threads = 0 := by
  induction threads with
  | nil => rfl
  | cons a rest ih =>
      rw [total_cons, h a List.mem_cons_self, zero_add]
      exact ih fun b hb => h b (List.mem_cons_of_mem a hb)

theorem le_total {f : β → ℕ} {threads : List β} {a : β} (h : a ∈ threads) :
    f a ≤ total f threads := by
  induction threads with
  | nil => cases h
  | cons b rest ih =>
      rw [total_cons]
      rcases List.mem_cons.mp h with rfl | h
      · omega
      · have := ih h
        omega

theorem total_le_total {f g : β → ℕ} (h : ∀ a, f a ≤ g a) (threads : List β) :
    total f threads ≤ total g threads := by
  induction threads with
  | nil => exact le_rfl
  | cons a rest ih =>
      rw [total_cons, total_cons]
      exact Nat.add_le_add (h a) ih

end Totals

/-! ## Semaphores -/

structure Semaphore where
  count : ℕ
  maxCount : ℕ

namespace Semaphore

def sizeMax : ℕ := 2 ^ 64 - 1

variable (s : Semaphore)

/-- `none` blocks. -/
def wait : Option Semaphore :=
  if 0 < s.count then some { s with count := s.count - 1 } else none

/-- The sum wraps around before it is compared. -/
def release (n : ℕ) : Semaphore :=
  { s with
    count :=
      if s.maxCount ≤ (s.count + n) % 2 ^ 64 then s.maxCount else (s.count + n) % 2 ^ 64 }

def reset (n : ℕ) : Semaphore := ⟨n, sizeMax⟩

theorem release_count_le (n : ℕ) : (s.release n).count ≤ s.count + n := by
  have hmod := Nat.mod_le (s.count + n) (2 ^ 64)
  unfold release
  split <;> simp only <;> omega

theorem release_count {n : ℕ} (hmax : s.maxCount = sizeMax) (h : s.count + n < sizeMax) :
    (s.release n).count = s.count + n := by
  have hmod : (s.count + n) % 2 ^ 64 = s.count + n := by
    apply Nat.mod_eq_of_lt
    unfold sizeMax at h
    omega
  unfold release
  rw [hmod, hmax, if_neg (by omega)]

theorem wait_cases {s t : Semaphore} (h : s.wait = some t) :
    s.count = t.count + 1 ∧ t.maxCount = s.maxCount := by
  unfold wait at h
  split at h
  · cases h
    exact ⟨by simp only; omega, rfl⟩
  · cases h

end Semaphore

/-! ## The pool -/

/-- Where a thread of the pool is in `_workerProc`. -/
inductive PoolWorker (α : Type*) where
  /-- The head of the loop. -/
  | top
  | wait
  /-- It has passed the semaphore and looks at `_terminating` again. -/
  | check
  /-- It wants the lock to take work. -/
  | lock
  | run (item : α)
  /-- The work that it runs wants the lock to queue more. -/
  | push (item next : α)
  | done

namespace PoolWorker

variable {α : Type*}

/-- What a thread has taken and not finished. -/
def holding : PoolWorker α → Multiset α
  | run item => {item}
  | push item _ => {item}
  | _ => 0

/-- A thread that has passed the semaphore has work to take, unless the pool terminates. -/
def claims : PoolWorker α → ℕ
  | check => 1
  | lock => 1
  | _ => 0

def takes : PoolWorker α → ℕ
  | lock => 1
  | _ => 0

def ended : PoolWorker α → ℕ
  | done => 1
  | _ => 0

theorem takes_le_claims (t : PoolWorker α) : t.takes ≤ t.claims := by
  cases t <;> simp [takes, claims]

end PoolWorker

/-- Where the thread is that resizes the pool or shuts it down. -/
inductive PoolControl where
  | idle
  /-- It wants the lock to resize the pool. -/
  | resizing (numWorkers : ℕ)
  /-- It holds the lock and joins the threads. -/
  | joining (numWorkers : ℕ)
  /-- It joins the threads for good. -/
  | stopping

/-- The last three fields are the history of the pool. -/
structure ThreadPool (α : Type*) where
  terminating : Bool
  workReadySemaphore : Semaphore
  work : List α
  threads : List (PoolWorker α)
  /-- What other threads are about to queue and want the lock for. -/
  callers : List α
  control : PoolControl
  queued : Multiset α
  executed : Multiset α
  /-- What has been removed with a smaller pool. -/
  removed : Multiset α

inductive PoolEvent (α : Type*) where
  /-- Another thread calls `Queue`. -/
  | queue (item : α)
  /-- The work that a thread of the pool runs calls `Queue`. -/
  | call (i : ℕ) (item : α)
  | setNumThreads (numWorkers : ℕ)
  | shutdown
  /-- A caller of `Queue` gets the lock. -/
  | resume (k : ℕ)
  | worker (i : ℕ)
  /-- `SetNumThreads` or `Shutdown` goes on. -/
  | proceed

/-- The steps that no call from outside is needed for. -/
def PoolEvent.Own {α : Type*} : PoolEvent α → Prop
  | .resume _ => True
  | .worker _ => True
  | .proceed => True
  | _ => False

namespace ThreadPool

def maxThreads : ℕ := 32

def defaultThreads : ℕ := 4

/-- How many pairs of a function and a pointer a queue can hold. -/
def maxWork : ℕ := (2 ^ 63 - 1) / 40

def numThreads (n : ℕ) : ℕ := if n = 0 ∨ maxThreads < n then defaultThreads else n

variable {α : Type*}

def start (n : ℕ) : ThreadPool α where
  terminating := false
  workReadySemaphore := ⟨0, Semaphore.sizeMax⟩
  work := []
  threads := List.replicate (numThreads n) .top
  callers := []
  control := .idle
  queued := 0
  executed := 0
  removed := 0

variable (p : ThreadPool α)

/-- The lock is held across steps only while the threads of a smaller pool are joined. -/
def free : Bool :=
  match p.control with
  | .joining _ => false
  | _ => true

def setThread (i : ℕ) (next : PoolWorker α) : ThreadPool α :=
  { p with threads := p.threads.set i next }

/-- What `queueInternal` does with the lock; a full queue throws. -/
def push (item : α) : ThreadPool α :=
  if p.work.length < maxWork then
    { p with
      work := p.work ++ [item]
      workReadySemaphore := p.workReadySemaphore.release 1
      queued := p.queued + {item} }
  else p

/-- `none` takes from an empty queue. -/
def take (i : ℕ) : Option (ThreadPool α) :=
  match p.work with
  | [] => none
  | item :: rest => some ({ p with work := rest }.setThread i (.run item))

/-- The next step of `_workerProc`. -/
def workerProc (i : ℕ) : PoolWorker α → Option (ThreadPool α)
  | .top => some (p.setThread i (if p.terminating then .done else .wait))
  | .wait => p.workReadySemaphore.wait.map fun s =>
      { p with workReadySemaphore := s }.setThread i .check
  | .check => some (p.setThread i (if p.terminating then .done else .lock))
  | .lock => if p.free then p.take i else none
  | .run item => some ({ p with executed := p.executed + {item} }.setThread i .top)
  | .push item next => if p.free then some ((p.push next).setThread i (.run item)) else none
  | .done => none

/-- While the pool terminates, `Queue` throws. -/
def queue (item : α) : ThreadPool α :=
  if p.terminating then p else { p with callers := p.callers ++ [item] }

def call (i : ℕ) (item next : α) : ThreadPool α :=
  if p.terminating then p else p.setThread i (.push item next)

def callFrom (i : ℕ) (next : α) : Option (ThreadPool α) :=
  match p.threads[i]? with
  | some (.run item) => some (p.call i item next)
  | _ => none

def resume (k : ℕ) (item : α) : Option (ThreadPool α) :=
  if p.free then some ({ p with callers := p.callers.eraseIdx k }.push item) else none

/-- What `setNumThreadsInternal` does before it has the lock. -/
def setNumThreads (n : ℕ) : Option (ThreadPool α) :=
  match p.control with
  | .idle =>
      if numThreads n = p.threads.length then some p
      else if p.terminating then some p
      else some { p with control := .resizing (numThreads n) }
  | _ => none

def shutdown : Option (ThreadPool α) :=
  match p.control with
  | .idle =>
      if p.terminating then some p
      else some { p with
        terminating := true
        workReadySemaphore := p.workReadySemaphore.release p.threads.length
        control := .stopping }
  | _ => none

/-- A smaller pool removes the work and stops its threads. -/
def shrink (n : ℕ) : ThreadPool α :=
  { p with
    work := []
    removed := p.removed + p.work
    terminating := true
    workReadySemaphore := p.workReadySemaphore.release p.threads.length
    control := .joining n }

def grow (n : ℕ) : ThreadPool α :=
  { p with
    workReadySemaphore := .reset 0
    threads := p.threads ++ List.replicate (n - p.threads.length) .top
    control := .idle }

def joined : Bool := p.threads.all fun t => match t with | .done => true | _ => false

def proceed : Option (ThreadPool α) :=
  match p.control with
  | .idle => none
  | .resizing n => some (if n < p.threads.length then p.shrink n else p.grow n)
  | .joining n =>
      if p.joined then
        some ({ p with threads := [], terminating := false }.grow n)
      else none
  | .stopping => if p.joined then some { p with control := .idle } else none

def step (p : ThreadPool α) : PoolEvent α → Option (ThreadPool α)
  | .queue item => some (p.queue item)
  | .call i next => p.callFrom i next
  | .setNumThreads n => p.setNumThreads n
  | .shutdown => p.shutdown
  | .resume k => p.callers[k]?.bind (p.resume k)
  | .worker i => p.threads[i]?.bind (p.workerProc i)
  | .proceed => p.proceed

/-! ## What every run keeps -/

section Sound

variable {p} {q : ThreadPool α} {i : ℕ}

def running (p : ThreadPool α) : Multiset α := total PoolWorker.holding p.threads

/-- The permits that `Shutdown` has released are not for work. -/
def slack (p : ThreadPool α) : ℕ := if p.terminating then maxThreads else 0

structure Sound (p : ThreadPool α) : Prop where
  maxCount : p.workReadySemaphore.maxCount = Semaphore.sizeMax
  size_pos : 0 < p.threads.length
  size_le : p.threads.length ≤ maxThreads
  work_le : p.work.length ≤ maxWork
  resizing : ∀ n, p.control = .resizing n → p.terminating = false ∧ 0 < n ∧ n ≤ maxThreads
  joining : ∀ n, p.control = .joining n → p.terminating = true ∧ 0 < n ∧ n ≤ maxThreads ∧
    p.work = [] ∧ p.workReadySemaphore.count ≤ maxWork + maxThreads
  stopping : p.control = .stopping → p.terminating = true
  alive : p.terminating = false → total PoolWorker.ended p.threads = 0
  permits : p.free = true →
    p.workReadySemaphore.count + total PoolWorker.claims p.threads ≤ p.work.length + p.slack
  /-- Whoever wants to take work finds some. -/
  takes : p.free = true → total PoolWorker.takes p.threads ≤ p.work.length
  /-- All that has been queued is in one place. -/
  kept : p.queued = p.executed + p.running + p.work + p.removed

theorem not_joining (hfree : p.free = true) (n : ℕ) : p.control ≠ .joining n := by
  intro hn
  unfold free at hfree
  rw [hn] at hfree
  cases hfree

/-- A step of a thread, from `a` to `b`. -/
theorem Sound.move (h : p.Sound) {a b : PoolWorker α} (hi : p.threads[i]? = some a)
    {s : Semaphore} {work : List α} {executed : Multiset α}
    (hmax : s.maxCount = p.workReadySemaphore.maxCount)
    (hwork : work = p.work ∨ p.free = true ∧ work.length ≤ p.work.length)
    (hcount : s.count ≤ p.workReadySemaphore.count)
    (hpermits : s.count + b.claims + p.work.length ≤
      p.workReadySemaphore.count + a.claims + work.length)
    (htakes : p.terminating = true → b.takes + p.work.length ≤ a.takes + work.length)
    (hended : p.terminating = false → b.ended = 0)
    (hkept : p.executed + a.holding + p.work = executed + b.holding + work) :
    Sound (setThread
      { p with workReadySemaphore := s, work := work, executed := executed } i b) := by
  have hclaims := total_set PoolWorker.claims b hi
  have htaken := total_set PoolWorker.takes b hi
  have hpermitted : p.free = true →
      s.count + total PoolWorker.claims (p.threads.set i b) ≤ work.length + p.slack := by
    intro hfree
    have := h.permits hfree
    omega
  constructor
  · exact hmax.trans h.maxCount
  · change 0 < (p.threads.set i b).length
    rw [List.length_set]
    exact h.size_pos
  · change (p.threads.set i b).length ≤ maxThreads
    rw [List.length_set]
    exact h.size_le
  · change work.length ≤ maxWork
    have := h.work_le
    rcases hwork with rfl | ⟨-, hle⟩
    · exact this
    · omega
  · exact h.resizing
  · intro n hn
    obtain ⟨hterm, hpos, hle, hempty, hbound⟩ := h.joining n hn
    rcases hwork with hwork | ⟨hfree, -⟩
    · exact ⟨hterm, hpos, hle, hwork.trans hempty, hcount.trans hbound⟩
    · exact absurd hn (not_joining hfree n)
  · exact h.stopping
  · intro hterm
    have hset := total_set PoolWorker.ended b hi
    rw [h.alive hterm, hended hterm] at hset
    change total PoolWorker.ended (p.threads.set i b) = 0
    omega
  · exact hpermitted
  · intro hfree
    change total PoolWorker.takes (p.threads.set i b) ≤ work.length
    have hbefore := h.takes hfree
    cases hterm : p.terminating with
    | true =>
        have := htakes hterm
        omega
    | false =>
        have hle := total_le_total PoolWorker.takes_le_claims (p.threads.set i b)
        have hafter := hpermitted hfree
        unfold slack at hafter
        rw [hterm] at hafter
        simp only [Bool.false_eq_true, if_false] at hafter
        omega
  · have hset := total_set PoolWorker.holding b hi
    change p.queued = executed + total PoolWorker.holding (p.threads.set i b) + work + p.removed
    apply add_right_cancel (b := a.holding)
    calc p.queued + a.holding
        = total PoolWorker.holding p.threads + p.removed +
            (p.executed + a.holding + p.work) := by
          rw [h.kept]
          unfold running
          abel
      _ = total PoolWorker.holding p.threads + p.removed + (executed + b.holding + work) := by
          rw [hkept]
      _ = total PoolWorker.holding p.threads + b.holding + (executed + work + p.removed) := by
          abel
      _ = total PoolWorker.holding (p.threads.set i b) + a.holding +
            (executed + work + p.removed) := by
          rw [hset]
      _ = executed + total PoolWorker.holding (p.threads.set i b) + work + p.removed +
            a.holding := by
          abel

theorem Sound.setThread (h : p.Sound) {a b : PoolWorker α} (hi : p.threads[i]? = some a)
    (hclaims : b.claims ≤ a.claims) (htakes : p.terminating = true → b.takes ≤ a.takes)
    (hended : p.terminating = false → b.ended = 0) (hholding : b.holding = a.holding) :
    (p.setThread i b).Sound := by
  apply h.move hi rfl (Or.inl rfl) le_rfl _ _ hended
  · rw [hholding]
  · omega
  · intro hterm
    have := htakes hterm
    omega

theorem slack_le (p : ThreadPool α) : p.slack ≤ maxThreads := by
  unfold slack
  split <;> omega

/-- The semaphore never comes near its end. -/
theorem Sound.count_lt (h : p.Sound) (hfree : p.free = true) :
    p.workReadySemaphore.count + maxThreads < Semaphore.sizeMax := by
  have hpermits := h.permits hfree
  have hwork := h.work_le
  have hslack := p.slack_le
  unfold maxWork maxThreads Semaphore.sizeMax at *
  omega

theorem Sound.push (h : p.Sound) (hfree : p.free = true) (item : α) : (p.push item).Sound := by
  unfold ThreadPool.push
  split
  · rename_i hroom
    have hlt := h.count_lt hfree
    have hcount : (p.workReadySemaphore.release 1).count = p.workReadySemaphore.count + 1 := by
      apply Semaphore.release_count p.workReadySemaphore h.maxCount
      unfold maxThreads at hlt
      omega
    have hlength : (p.work ++ [item]).length = p.work.length + 1 := by
      rw [List.length_append, List.length_singleton]
    constructor
    · exact h.maxCount
    · exact h.size_pos
    · exact h.size_le
    · simp only [hlength]
      exact hroom
    · exact h.resizing
    · intro n hn
      exact absurd hn (not_joining hfree n)
    · exact h.stopping
    · exact h.alive
    · intro _
      have hpermits := h.permits hfree
      change (p.workReadySemaphore.release 1).count + total PoolWorker.claims p.threads ≤
        (p.work ++ [item]).length + p.slack
      rw [hcount, hlength]
      omega
    · intro _
      have htakes := h.takes hfree
      simp only [hlength]
      omega
    · change p.queued + {item} = p.executed + p.running + ↑(p.work ++ [item]) + p.removed
      rw [h.kept, ← Multiset.coe_add, Multiset.coe_singleton]
      abel
  · exact h

/-- There are as many permits for the work that is queued. -/
theorem push_balanced (h : p.Sound) (hfree : p.free = true) (item : α) :
    (p.push item).workReadySemaphore.count + p.work.length =
      p.workReadySemaphore.count + (p.push item).work.length := by
  unfold ThreadPool.push
  split
  · have hlt := h.count_lt hfree
    have hcount := Semaphore.release_count (n := 1) p.workReadySemaphore h.maxCount
      (by unfold maxThreads at hlt; omega)
    simp only [List.length_append, List.length_singleton]
    omega
  · rfl

/-- Nobody takes work from an empty queue. -/
theorem Sound.work_ne_nil (h : p.Sound) (hi : p.threads[i]? = some .lock)
    (hfree : p.free = true) : p.work ≠ [] := by
  intro hempty
  have hle := le_total (f := PoolWorker.takes) (List.mem_of_getElem? hi)
  have htakes := h.takes hfree
  rw [hempty] at htakes
  change 1 ≤ _ at hle
  simp only [List.length_nil] at htakes
  omega

theorem threads_push (item : α) : (p.push item).threads = p.threads := by
  unfold ThreadPool.push
  split <;> rfl

theorem control_push (item : α) : (p.push item).control = p.control := by
  unfold ThreadPool.push
  split <;> rfl

theorem callers_push (item : α) : (p.push item).callers = p.callers := by
  unfold ThreadPool.push
  split <;> rfl

theorem terminating_push (item : α) : (p.push item).terminating = p.terminating := by
  unfold ThreadPool.push
  split <;> rfl

theorem length_le_push (item : α) : p.work.length ≤ (p.push item).work.length := by
  unfold ThreadPool.push
  split
  · rw [List.length_append]
    exact Nat.le_add_right ..
  · exact le_rfl

/-- The next step of a thread. -/
theorem Sound.workerProc (h : p.Sound) {now : PoolWorker α} (hi : p.threads[i]? = some now)
    (hq : p.workerProc i now = some q) : q.Sound := by
  cases now with
  | top =>
      cases hq
      split
      · exact h.setThread hi le_rfl (fun _ => le_rfl) (by simp [*]) rfl
      · exact h.setThread hi le_rfl (fun _ => le_rfl) (fun _ => rfl) rfl
  | wait =>
      obtain ⟨s, hs, rfl⟩ := Option.map_eq_some_iff.mp hq
      obtain ⟨hcount, hmax⟩ := Semaphore.wait_cases hs
      apply h.move hi (b := .check) hmax (Or.inl rfl) _ _ (fun _ => le_rfl) (fun _ => rfl) rfl
      · omega
      · change s.count + 1 + p.work.length ≤ p.workReadySemaphore.count + 0 + p.work.length
        omega
  | check =>
      cases hq
      split
      · exact h.setThread hi (Nat.le_succ 0) (fun _ => le_rfl) (by simp [*]) rfl
      · exact h.setThread hi le_rfl (by simp [*]) (fun _ => rfl) rfl
  | lock =>
      change (if p.free then p.take i else none) = some q at hq
      split_ifs at hq with hfree
      unfold ThreadPool.take at hq
      split at hq
      · cases hq
      · rename_i item rest hwork
        cases hq
        have hlength : p.work.length = rest.length + 1 := by
          rw [hwork, List.length_cons]
        apply h.move hi rfl (Or.inr ⟨hfree, by omega⟩) le_rfl _ _ (fun _ => rfl)
        · change p.executed + 0 + p.work = p.executed + {item} + rest
          rw [hwork, ← Multiset.cons_coe, ← Multiset.singleton_add]
          abel
        · change p.workReadySemaphore.count + 0 + p.work.length ≤
            p.workReadySemaphore.count + 1 + rest.length
          omega
        · intro _
          change 0 + p.work.length ≤ 1 + rest.length
          omega
  | run item =>
      cases hq
      apply h.move hi (b := .top) rfl (Or.inl rfl) le_rfl le_rfl (fun _ => le_rfl)
        (fun _ => rfl)
      change p.executed + {item} + p.work = p.executed + {item} + 0 + p.work
      rw [add_zero]
  | push item next =>
      change (if p.free then some ((p.push next).setThread i (.run item)) else none) = some q
        at hq
      split_ifs at hq with hfree
      cases hq
      rw [← threads_push next] at hi
      exact (h.push hfree next).setThread hi le_rfl (fun _ => le_rfl) (fun _ => rfl) rfl
  | done => cases hq

theorem numThreads_pos (n : ℕ) : 0 < numThreads n := by
  unfold numThreads defaultThreads
  split_ifs <;> omega

theorem numThreads_le (n : ℕ) : numThreads n ≤ maxThreads := by
  unfold numThreads defaultThreads maxThreads
  split_ifs <;> omega

theorem sound_start (n : ℕ) : (start (α := α) n).Sound := by
  constructor
  · rfl
  · change 0 < (List.replicate (numThreads n) _).length
    rw [List.length_replicate]
    exact numThreads_pos n
  · change (List.replicate (numThreads n) _).length ≤ maxThreads
    rw [List.length_replicate]
    exact numThreads_le n
  · exact Nat.zero_le _
  · intro m hm
    cases hm
  · intro m hm
    cases hm
  · intro hm
    cases hm
  · intro _
    exact (total_replicate ..).trans (nsmul_zero _)
  · intro _
    change 0 + total PoolWorker.claims (List.replicate (numThreads n) PoolWorker.top) ≤ 0 + 0
    rw [total_replicate]
    simp [PoolWorker.claims]
  · intro _
    change total PoolWorker.takes (List.replicate (numThreads n) PoolWorker.top) ≤ 0
    rw [total_replicate]
    simp [PoolWorker.takes]
  · change 0 = 0 + total PoolWorker.holding (List.replicate (numThreads n) PoolWorker.top) + 0 + 0
    rw [total_replicate]
    simp [PoolWorker.holding]

/-- The callers that wait for the lock are nowhere in the invariant. -/
theorem Sound.callers (h : p.Sound) (callers : List α) :
    Sound { p with callers := callers } :=
  ⟨h.maxCount, h.size_pos, h.size_le, h.work_le, h.resizing, h.joining, h.stopping, h.alive,
    h.permits, h.takes, h.kept⟩

theorem Sound.resume (h : p.Sound) {k : ℕ} {item : α} (hq : p.resume k item = some q) :
    q.Sound := by
  unfold ThreadPool.resume at hq
  split_ifs at hq with hfree
  cases hq
  exact (h.callers (p.callers.eraseIdx k)).push hfree item

theorem Sound.call (h : p.Sound) {item : α} (hi : p.threads[i]? = some (.run item)) (next : α) :
    (p.call i item next).Sound := by
  unfold ThreadPool.call
  split_ifs
  · exact h
  · exact h.setThread hi le_rfl (fun _ => le_rfl) (fun _ => rfl) rfl

theorem Sound.setNumThreads (h : p.Sound) {n : ℕ} (hq : p.setNumThreads n = some q) :
    q.Sound := by
  unfold ThreadPool.setNumThreads at hq
  split at hq
  · rename_i hidle
    split_ifs at hq with hsame hterm
    · cases hq
      exact h
    · cases hq
      exact h
    · cases hq
      have hfree : p.free = true := by
        unfold free
        rw [hidle]
      constructor
      · exact h.maxCount
      · exact h.size_pos
      · exact h.size_le
      · exact h.work_le
      · intro m hm
        cases hm
        exact ⟨Bool.eq_false_iff.mpr hterm, numThreads_pos n, numThreads_le n⟩
      · intro m hm
        cases hm
      · intro hm
        cases hm
      · exact h.alive
      · exact fun _ => h.permits hfree
      · exact fun _ => h.takes hfree
      · exact h.kept
  · cases hq

theorem Sound.release (h : p.Sound) (hfree : p.free = true) :
    (p.workReadySemaphore.release p.threads.length).count =
      p.workReadySemaphore.count + p.threads.length := by
  have hlt := h.count_lt hfree
  have hsize := h.size_le
  exact Semaphore.release_count p.workReadySemaphore h.maxCount (by omega)

theorem Sound.shutdown (h : p.Sound) (hq : p.shutdown = some q) : q.Sound := by
  unfold ThreadPool.shutdown at hq
  split at hq
  · rename_i hidle
    split_ifs at hq with hterm
    · cases hq
      exact h
    · cases hq
      have hfree : p.free = true := by
        unfold free
        rw [hidle]
      constructor
      · exact h.maxCount
      · exact h.size_pos
      · exact h.size_le
      · exact h.work_le
      · intro m hm
        cases hm
      · intro m hm
        cases hm
      · exact fun _ => rfl
      · intro hfalse
        cases hfalse
      · intro _
        have hpermits := h.permits hfree
        have hsize := h.size_le
        change (p.workReadySemaphore.release p.threads.length).count +
          total PoolWorker.claims p.threads ≤ p.work.length + maxThreads
        rw [h.release hfree]
        unfold slack at hpermits
        rw [if_neg hterm] at hpermits
        omega
      · exact fun _ => h.takes hfree
      · exact h.kept
  · cases hq

theorem Sound.shrink (h : p.Sound) (hfree : p.free = true) {n : ℕ} (hpos : 0 < n)
    (hle : n ≤ maxThreads) (hterm : p.terminating = false) : (p.shrink n).Sound := by
  have hpermits := h.permits hfree
  have hwork := h.work_le
  have hsize := h.size_le
  constructor
  · exact h.maxCount
  · exact h.size_pos
  · exact h.size_le
  · exact Nat.zero_le _
  · intro m hm
    cases hm
  · intro m hm
    cases hm
    refine ⟨rfl, hpos, hle, rfl, ?_⟩
    change (p.workReadySemaphore.release p.threads.length).count ≤ _
    rw [h.release hfree]
    unfold slack at hpermits
    rw [hterm] at hpermits
    simp only [Bool.false_eq_true, if_false] at hpermits
    omega
  · intro hm
    cases hm
  · intro hfalse
    cases hfalse
  · intro hfalse
    cases hfalse
  · intro hfalse
    cases hfalse
  · change p.queued = p.executed + p.running + 0 + (p.removed + p.work)
    rw [h.kept]
    abel

theorem total_grow {M : Type*} [AddCommMonoid M] {f : PoolWorker α → M} (htop : f .top = 0)
    (n : ℕ) : total f (p.grow n).threads = total f p.threads := by
  unfold grow
  rw [total_append, total_replicate, htop, nsmul_zero, add_zero]

/-- The threads of the pool and the new ones, which have no permits yet. -/
theorem sound_grow {n : ℕ} (hsize : p.threads.length ≤ n) (hpos : 0 < n) (hle : n ≤ maxThreads)
    (hwork : p.work.length ≤ maxWork) (hended : total PoolWorker.ended p.threads = 0)
    (hclaims : total PoolWorker.claims p.threads ≤ p.work.length)
    (hkept : p.queued = p.executed + p.running + p.work + p.removed) : (p.grow n).Sound := by
  have hlength : (p.grow n).threads.length = n := by
    unfold grow
    simp only [List.length_append, List.length_replicate]
    omega
  constructor
  · rfl
  · rwa [hlength]
  · rwa [hlength]
  · exact hwork
  · intro m hm
    cases hm
  · intro m hm
    cases hm
  · intro hm
    cases hm
  · intro _
    rw [total_grow rfl, hended]
  · intro _
    change 0 + total PoolWorker.claims (p.grow n).threads ≤ p.work.length + _
    rw [total_grow rfl]
    omega
  · intro _
    rw [total_grow rfl]
    exact (total_le_total PoolWorker.takes_le_claims p.threads).trans hclaims
  · change p.queued = p.executed + total PoolWorker.holding (p.grow n).threads + p.work + p.removed
    rw [total_grow rfl]
    exact hkept

theorem eq_done_of_joined (h : p.joined = true) {t : PoolWorker α} (ht : t ∈ p.threads) :
    t = .done := by
  have hdone := List.all_eq_true.mp h t ht
  cases t with
  | done => rfl
  | _ => cases hdone

theorem Sound.proceed (h : p.Sound) (hq : p.proceed = some q) : q.Sound := by
  unfold ThreadPool.proceed at hq
  split at hq
  · cases hq
  · rename_i n hn
    obtain ⟨hterm, hpos, hle⟩ := h.resizing n hn
    have hfree : p.free = true := by
      unfold free
      rw [hn]
    cases hq
    split_ifs with hless
    · exact h.shrink hfree hpos hle hterm
    · have hpermits := h.permits hfree
      unfold slack at hpermits
      rw [hterm] at hpermits
      simp only [Bool.false_eq_true, if_false] at hpermits
      exact sound_grow (Nat.le_of_not_lt hless) hpos hle h.work_le (h.alive hterm)
        (by omega) h.kept
  · rename_i n hn
    obtain ⟨hterm, hpos, hle, hempty, hcount⟩ := h.joining n hn
    split_ifs at hq with hjoined
    cases hq
    have hrunning : p.running = 0 := by
      apply total_eq_zero
      intro t ht
      rw [eq_done_of_joined hjoined ht]
      rfl
    apply sound_grow (p := { p with threads := [], terminating := false }) (Nat.zero_le n) hpos
      hle h.work_le rfl (Nat.zero_le _)
    change p.queued = p.executed + 0 + p.work + p.removed
    rw [h.kept, hrunning]
  · rename_i hstopping
    split_ifs at hq with hjoined
    cases hq
    have hfree : p.free = true := by
      unfold free
      rw [hstopping]
    refine ⟨h.maxCount, h.size_pos, h.size_le, h.work_le, ?_, ?_, ?_, h.alive,
      fun _ => h.permits hfree, fun _ => h.takes hfree, h.kept⟩
    · intro m hm
      cases hm
    · intro m hm
      cases hm
    · intro hm
      cases hm

theorem Sound.step (h : p.Sound) {e : PoolEvent α} (hq : p.step e = some q) : q.Sound := by
  cases e with
  | queue item =>
      cases hq
      unfold ThreadPool.queue
      split_ifs
      · exact h
      · exact h.callers _
  | call i next =>
      change p.callFrom i next = some q at hq
      unfold callFrom at hq
      split at hq
      · rename_i item hi
        cases hq
        exact h.call hi next
      · cases hq
  | setNumThreads n => exact h.setNumThreads hq
  | shutdown => exact h.shutdown hq
  | resume k =>
      obtain ⟨item, -, hresume⟩ := Option.bind_eq_some_iff.mp hq
      exact h.resume hresume
  | worker i =>
      obtain ⟨now, hi, hproc⟩ := Option.bind_eq_some_iff.mp hq
      exact h.workerProc hi hproc
  | proceed => exact h.proceed hq

end Sound

end ThreadPool

end ArenaServ
