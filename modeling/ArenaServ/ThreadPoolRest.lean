import ArenaServ.ThreadPool

/-!
# The thread pool at rest

A larger pool resets the permits, and a smaller one joins its threads with the lock held. Where
no work is waiting for a permit and no thread of the pool wants the lock, neither harms.
-/

namespace ArenaServ

namespace PoolWorker

variable {α : Type*}

def waiting : PoolWorker α → ℕ
  | wait => 1
  | _ => 0

/-- A thread that wants the lock. -/
def blocked : PoolWorker α → ℕ
  | lock => 1
  | push _ _ => 1
  | _ => 0

/-- How far a thread is from its next wait, with five steps for every permit. -/
def cost : PoolWorker α → ℕ
  | top => 1
  | wait => 0
  | check => 4
  | lock => 3
  | run _ => 2
  | push _ _ => 8
  | done => 0

end PoolWorker

/-- What is left for the thread that resizes a pool of `size` threads. -/
def PoolControl.cost (size : ℕ) : PoolControl → ℕ
  | idle => 0
  | resizing n => 5 * size + n + 2
  | joining n => n + 1
  | stopping => 1

namespace ThreadPool

variable {α : Type*} {p q : ThreadPool α} {i : ℕ}

/-- A pool grows while no permits are left, and shrinks while no thread wants the lock. -/
def Clear (p : ThreadPool α) : PoolControl → Prop
  | .resizing n =>
      if n < p.threads.length then total PoolWorker.blocked p.threads = 0
      else p.workReadySemaphore.count = 0
  | _ => True

def Unhindered (p : ThreadPool α) : PoolEvent α → Prop
  | .proceed => p.Clear p.control
  | _ => True

/-- What the steps of an unhindered run keep. -/
structure Steady (p : ThreadPool α) : Prop where
  balanced : p.terminating = false →
    p.workReadySemaphore.count + total PoolWorker.claims p.threads = p.work.length
  unblocked : ∀ n, p.control = .joining n → total PoolWorker.blocked p.threads = 0
  /-- All that wait will wake up. -/
  wakes : p.terminating = true →
    total PoolWorker.waiting p.threads ≤ p.workReadySemaphore.count

theorem Steady.move (h : p.Steady) {a b : PoolWorker α} (hi : p.threads[i]? = some a)
    {s : Semaphore} {work : List α} {executed : Multiset α}
    (hbalanced : p.terminating = false → s.count + b.claims + p.work.length =
      p.workReadySemaphore.count + a.claims + work.length)
    (hblocked : ∀ n, p.control = .joining n → b.blocked ≤ a.blocked)
    (hwakes : p.terminating = true →
      b.waiting + p.workReadySemaphore.count ≤ a.waiting + s.count) :
    Steady (setThread
      { p with workReadySemaphore := s, work := work, executed := executed } i b) := by
  constructor
  · intro hterm
    have hset := total_set PoolWorker.claims b hi
    have hbefore := h.balanced hterm
    have hstep := hbalanced hterm
    change s.count + total PoolWorker.claims (p.threads.set i b) = work.length
    omega
  · intro n hn
    have hset := total_set PoolWorker.blocked b hi
    have hbefore := h.unblocked n hn
    have hstep := hblocked n hn
    have hle := le_total (f := PoolWorker.blocked) (List.mem_of_getElem? hi)
    change total PoolWorker.blocked (p.threads.set i b) = 0
    omega
  · intro hterm
    have hset := total_set PoolWorker.waiting b hi
    have hbefore := h.wakes hterm
    have hstep := hwakes hterm
    change total PoolWorker.waiting (p.threads.set i b) ≤ s.count
    omega

theorem Steady.setThread (h : p.Steady) {a b : PoolWorker α} (hi : p.threads[i]? = some a)
    (hclaims : p.terminating = false → b.claims = a.claims)
    (hblocked : ∀ n, p.control = .joining n → b.blocked ≤ a.blocked)
    (hwakes : p.terminating = true → b.waiting ≤ a.waiting) : (p.setThread i b).Steady := by
  apply h.move hi _ hblocked
  · intro hterm
    have := hwakes hterm
    omega
  · intro hterm
    rw [hclaims hterm]

theorem Steady.push (h : p.Steady) (hsound : p.Sound) (hfree : p.free = true) (item : α) :
    (p.push item).Steady := by
  have hbalanced := push_balanced hsound hfree item
  have hlength := p.length_le_push item
  constructor
  · intro hterm
    rw [terminating_push] at hterm
    have hbefore := h.balanced hterm
    rw [threads_push]
    omega
  · intro n hn
    rw [control_push] at hn
    exact absurd hn (not_joining hfree n)
  · intro hterm
    rw [terminating_push] at hterm
    have hbefore := h.wakes hterm
    rw [threads_push]
    omega

theorem Steady.callers (h : p.Steady) (callers : List α) :
    Steady { p with callers := callers } :=
  ⟨h.balanced, h.unblocked, h.wakes⟩

/-- While the threads are joined, the pool terminates. -/
theorem Sound.not_joining (h : p.Sound) (hterm : ¬ p.terminating = true) (n : ℕ) :
    p.control ≠ .joining n :=
  fun hn => hterm (h.joining n hn).1

theorem Steady.workerProc (h : p.Steady) (hsound : p.Sound) {now : PoolWorker α}
    (hi : p.threads[i]? = some now) (hq : p.workerProc i now = some q) : q.Steady := by
  cases now with
  | top =>
      cases hq
      split_ifs with hterm
      · exact h.setThread hi (fun _ => rfl) (fun _ _ => le_rfl) (fun _ => le_rfl)
      · exact h.setThread hi (fun _ => rfl) (fun _ _ => le_rfl) (fun htrue => absurd htrue hterm)
  | wait =>
      obtain ⟨s, hs, rfl⟩ := Option.map_eq_some_iff.mp hq
      obtain ⟨hcount, -⟩ := Semaphore.wait_cases hs
      apply h.move hi (b := .check) _ (fun _ _ => le_rfl) _
      · intro _
        change s.count + 1 + _ = p.workReadySemaphore.count + 0 + _
        omega
      · intro _
        change 0 + p.workReadySemaphore.count ≤ 1 + s.count
        omega
  | check =>
      cases hq
      split_ifs with hterm
      · apply h.setThread hi (b := .done) _ (fun _ _ => le_rfl) (fun _ => le_rfl)
        intro hfalse
        rw [hterm] at hfalse
        cases hfalse
      · apply h.setThread hi (b := .lock) (fun _ => rfl) _ (fun _ => le_rfl)
        intro n hn
        exact absurd hn (hsound.not_joining hterm n)
  | lock =>
      change (if p.free then p.take i else none) = some q at hq
      split_ifs at hq with hfree
      unfold ThreadPool.take at hq
      split at hq
      · cases hq
      · rename_i item rest hwork
        cases hq
        apply h.move hi (b := .run item) _ _ (fun _ => le_rfl)
        · intro _
          rw [hwork, List.length_cons]
          change _ + 0 + _ = _ + 1 + _
          omega
        · intro n hn
          exact absurd hn (ThreadPool.not_joining hfree n)
  | run item =>
      cases hq
      exact h.move hi (b := .top) (fun _ => rfl) (fun _ _ => le_rfl) (fun _ => le_rfl)
  | push item next =>
      change (if p.free then some ((p.push next).setThread i (.run item)) else none) = some q
        at hq
      split_ifs at hq with hfree
      cases hq
      rw [← threads_push next] at hi
      exact (h.push hsound hfree next).setThread hi (fun _ => rfl) (fun _ _ => Nat.zero_le _)
        (fun _ => le_rfl)
  | done => cases hq

theorem Steady.call (h : p.Steady) (hsound : p.Sound) {item : α}
    (hi : p.threads[i]? = some (.run item)) (next : α) : (p.call i item next).Steady := by
  unfold ThreadPool.call
  split_ifs with hterm
  · exact h
  · apply h.setThread hi (b := .push item next) (fun _ => rfl) _ (fun _ => le_rfl)
    intro n hn
    exact absurd hn (hsound.not_joining hterm n)

theorem waiting_le (threads : List (PoolWorker α)) :
    total PoolWorker.waiting threads ≤ threads.length := by
  induction threads with
  | nil => exact le_rfl
  | cons t rest ih =>
      have hle : t.waiting ≤ 1 := by
        cases t <;> simp [PoolWorker.waiting]
      rw [total_cons, List.length_cons]
      omega

/-- Each thread of a pool that starts to terminate gets a permit. -/
theorem Sound.waiting_le_release (h : p.Sound) (hfree : p.free = true) :
    total PoolWorker.waiting p.threads ≤
      (p.workReadySemaphore.release p.threads.length).count := by
  rw [h.release hfree]
  exact (waiting_le p.threads).trans (Nat.le_add_left ..)

theorem Steady.setNumThreads (h : p.Steady) {n : ℕ} (hq : p.setNumThreads n = some q) :
    q.Steady := by
  unfold ThreadPool.setNumThreads at hq
  split at hq
  · split_ifs at hq with hsame hterm
    · cases hq
      exact h
    · cases hq
      exact h
    · cases hq
      refine ⟨h.balanced, ?_, h.wakes⟩
      intro m hm
      cases hm
  · cases hq

theorem Steady.shutdown (h : p.Steady) (hsound : p.Sound) (hq : p.shutdown = some q) :
    q.Steady := by
  unfold ThreadPool.shutdown at hq
  split at hq
  · rename_i hidle
    split_ifs at hq with hterm
    · cases hq
      exact h
    · cases hq
      have hfree : p.free = true := by
        unfold free
        rw [hidle]
      constructor
      · intro hfalse
        cases hfalse
      · intro n hn
        cases hn
      · exact fun _ => hsound.waiting_le_release hfree
  · cases hq

theorem Steady.proceed (h : p.Steady) (hsound : p.Sound) (hclear : p.Unhindered .proceed)
    (hq : p.proceed = some q) : q.Steady := by
  unfold ThreadPool.proceed at hq
  split at hq
  · cases hq
  · rename_i n hn
    have hfree : p.free = true := by
      unfold free
      rw [hn]
    have hcondition : p.Clear p.control := hclear
    rw [hn] at hcondition
    change if n < p.threads.length then total PoolWorker.blocked p.threads = 0
      else p.workReadySemaphore.count = 0 at hcondition
    cases hq
    split_ifs at hcondition ⊢ with hless
    · constructor
      · intro hfalse
        cases hfalse
      · exact fun _ _ => hcondition
      · exact fun _ => hsound.waiting_le_release hfree
    · have hterm := (hsound.resizing n hn).1
      constructor
      · intro _
        have hbalanced := h.balanced hterm
        change 0 + total PoolWorker.claims (p.grow n).threads = p.work.length
        rw [total_grow rfl]
        omega
      · intro m hm
        cases hm
      · intro htrue
        rw [show p.terminating = true from htrue] at hterm
        cases hterm
  · rename_i n hn
    obtain ⟨-, -, -, hempty, -⟩ := hsound.joining n hn
    split_ifs at hq
    cases hq
    constructor
    · intro _
      change 0 + total PoolWorker.claims (grow _ n).threads = p.work.length
      rw [total_grow rfl, hempty]
      rfl
    · intro m hm
      cases hm
    · intro htrue
      cases htrue
  · rename_i hstopping
    split_ifs at hq
    cases hq
    refine ⟨h.balanced, ?_, h.wakes⟩
    intro m hm
    cases hm

theorem Steady.step (h : p.Steady) (hsound : p.Sound) {e : PoolEvent α}
    (hclear : p.Unhindered e) (hq : p.step e = some q) : q.Steady := by
  cases e with
  | queue item =>
      cases hq
      unfold ThreadPool.queue
      split_ifs
      · exact h
      · exact h.callers _
  | call i next =>
      change p.callFrom i next = some q at hq
      unfold callFrom at hq
      split at hq
      · rename_i item hi
        cases hq
        exact h.call hsound hi next
      · cases hq
  | setNumThreads n => exact h.setNumThreads hq
  | shutdown => exact h.shutdown hsound hq
  | resume k =>
      obtain ⟨item, -, hresume⟩ := Option.bind_eq_some_iff.mp hq
      unfold ThreadPool.resume at hresume
      split_ifs at hresume with hfree
      cases hresume
      exact (h.callers _).push (hsound.callers (p.callers.eraseIdx k)) hfree item
  | worker i =>
      obtain ⟨now, hi, hproc⟩ := Option.bind_eq_some_iff.mp hq
      exact h.workerProc hsound hi hproc
  | proceed => exact h.proceed hsound hclear hq

theorem steady_start (n : ℕ) : (start (α := α) n).Steady := by
  constructor
  · intro _
    change 0 + total PoolWorker.claims (List.replicate (numThreads n) PoolWorker.top) = 0
    rw [total_replicate]
    simp [PoolWorker.claims]
  · intro m hm
    cases hm
  · intro htrue
    cases htrue

/-! ## Rest -/

/-- Nothing happens without a call from outside. -/
def Quiescent (p : ThreadPool α) : Prop := ∀ e : PoolEvent α, e.Own → p.step e = none

/-- How many steps the pool may take on its own. -/
def measure (p : ThreadPool α) : ℕ :=
  total PoolWorker.cost p.threads + 5 * p.workReadySemaphore.count + 6 * p.callers.length +
    p.control.cost p.threads.length

theorem count_push_le (item : α) :
    (p.push item).workReadySemaphore.count ≤ p.workReadySemaphore.count + 1 := by
  unfold ThreadPool.push
  split
  · exact p.workReadySemaphore.release_count_le 1
  · omega

theorem measure_push_le (item : α) : (p.push item).measure ≤ p.measure + 5 := by
  have hcount := p.count_push_le item
  unfold measure
  rw [threads_push, control_push, callers_push]
  omega

theorem measure_setThread (p : ThreadPool α) {a : PoolWorker α} (b : PoolWorker α)
    (hi : p.threads[i]? = some a) : (p.setThread i b).measure + a.cost = p.measure + b.cost := by
  have hset := total_set PoolWorker.cost b hi
  change total PoolWorker.cost (p.threads.set i b) + 5 * p.workReadySemaphore.count +
    6 * p.callers.length + p.control.cost (p.threads.set i b).length + a.cost = _
  rw [List.length_set]
  unfold measure
  omega

theorem workerProc_measure_lt {now : PoolWorker α} (hi : p.threads[i]? = some now)
    (hq : p.workerProc i now = some q) : q.measure < p.measure := by
  cases now with
  | top =>
      cases hq
      split_ifs
      · have := p.measure_setThread .done hi
        simp only [PoolWorker.cost] at this
        omega
      · have := p.measure_setThread .wait hi
        simp only [PoolWorker.cost] at this
        omega
  | wait =>
      obtain ⟨s, hs, rfl⟩ := Option.map_eq_some_iff.mp hq
      obtain ⟨hcount, -⟩ := Semaphore.wait_cases hs
      have hset := measure_setThread { p with workReadySemaphore := s } .check hi
      have hpermit : measure { p with workReadySemaphore := s } + 5 = p.measure := by
        simp only [measure, hcount]
        omega
      simp only [PoolWorker.cost] at hset
      omega
  | check =>
      cases hq
      split_ifs
      · have := p.measure_setThread .done hi
        simp only [PoolWorker.cost] at this
        omega
      · have := p.measure_setThread .lock hi
        simp only [PoolWorker.cost] at this
        omega
  | lock =>
      change (if p.free then p.take i else none) = some q at hq
      split_ifs at hq
      unfold ThreadPool.take at hq
      split at hq
      · cases hq
      · rename_i item rest _
        cases hq
        have hset := measure_setThread { p with work := rest } (.run item) hi
        have hsame : measure { p with work := rest } = p.measure := rfl
        simp only [PoolWorker.cost] at hset
        omega
  | run item =>
      cases hq
      have hset := measure_setThread { p with executed := p.executed + {item} } .top hi
      have hsame : measure { p with executed := p.executed + {item} } = p.measure := rfl
      simp only [PoolWorker.cost] at hset
      omega
  | push item next =>
      change (if p.free then some ((p.push next).setThread i (.run item)) else none) = some q
        at hq
      split_ifs at hq
      cases hq
      rw [← threads_push next] at hi
      have hset := measure_setThread (p.push next) (.run item) hi
      have hpush := p.measure_push_le next
      simp only [PoolWorker.cost] at hset
      omega
  | done => cases hq

theorem resume_measure_lt {k : ℕ} {item : α} (hk : p.callers[k]? = some item)
    (hq : p.resume k item = some q) : q.measure < p.measure := by
  unfold ThreadPool.resume at hq
  split_ifs at hq
  cases hq
  have hlt : k < p.callers.length := (List.getElem?_eq_some_iff.mp hk).1
  have herase : measure { p with callers := p.callers.eraseIdx k } + 6 = p.measure := by
    simp only [measure, List.length_eraseIdx_of_lt hlt]
    omega
  have hpush := measure_push_le (p := { p with callers := p.callers.eraseIdx k }) item
  omega

theorem proceed_measure_lt (hq : p.proceed = some q) : q.measure < p.measure := by
  unfold ThreadPool.proceed at hq
  split at hq
  · cases hq
  · rename_i n hn
    cases hq
    split_ifs with hless
    · have hcount := p.workReadySemaphore.release_count_le p.threads.length
      simp only [measure, ThreadPool.shrink, hn, PoolControl.cost]
      omega
    · have hthreads : total PoolWorker.cost (p.grow n).threads =
          total PoolWorker.cost p.threads + (n - p.threads.length) := by
        unfold ThreadPool.grow
        rw [total_append, total_replicate]
        simp [PoolWorker.cost]
      unfold measure
      rw [hthreads, hn]
      change _ + 5 * 0 + _ + 0 < _ + (5 * p.threads.length + n + 2)
      change _ + 6 * p.callers.length + 0 < _
      omega
  · rename_i n hn
    split_ifs at hq
    cases hq
    unfold measure
    rw [hn]
    change total PoolWorker.cost ([] ++ List.replicate (n - 0) PoolWorker.top) + 5 * 0 +
      6 * p.callers.length + 0 < _ + (n + 1)
    have hnew : (n - 0) • PoolWorker.cost (.top : PoolWorker α) = n := by
      simp [PoolWorker.cost]
    rw [List.nil_append, total_replicate, hnew]
    omega
  · rename_i hstopping
    split_ifs at hq
    cases hq
    simp only [measure, hstopping, PoolControl.cost]
    omega

theorem step_measure_lt {e : PoolEvent α} (hown : e.Own) (hq : p.step e = some q) :
    q.measure < p.measure := by
  cases e with
  | queue item => cases hown
  | call i next => cases hown
  | setNumThreads n => cases hown
  | shutdown => cases hown
  | resume k =>
      obtain ⟨item, hk, hresume⟩ := Option.bind_eq_some_iff.mp hq
      exact resume_measure_lt hk hresume
  | worker i =>
      obtain ⟨now, hi, hproc⟩ := Option.bind_eq_some_iff.mp hq
      exact workerProc_measure_lt hi hproc
  | proceed => exact proceed_measure_lt hq

/-- The pool comes to rest on its own. -/
theorem length_le_measure {steps : List (PoolEvent α)} (hown : ∀ e ∈ steps, e.Own)
    (hq : RunSteps.run step p steps = some q) : steps.length + q.measure ≤ p.measure := by
  induction steps generalizing p with
  | nil =>
      cases hq
      exact Nat.zero_add _ |>.le
  | cons e rest ih =>
      obtain ⟨p', hp', hrest⟩ := Option.bind_eq_some_iff.mp hq
      have hlt := step_measure_lt (hown e List.mem_cons_self) hp'
      have hle := ih (fun e he => hown e (List.mem_cons_of_mem _ he)) hrest
      rw [List.length_cons]
      omega

/-! ## What rests -/

theorem worker_eq_none (h : p.Quiescent) {now : PoolWorker α} (hi : p.threads[i]? = some now) :
    p.workerProc i now = none := by
  have hnone : (p.threads[i]?).bind (p.workerProc i) = none := h (.worker i) trivial
  rw [hi] at hnone
  exact hnone

/-- Where the lock is free, all threads of a pool at rest wait for a permit or are done. -/
theorem Sound.wait_or_done (h : p.Sound) (hrest : p.Quiescent) (hfree : p.free = true)
    {now : PoolWorker α} (hi : p.threads[i]? = some now) :
    now = .wait ∧ p.workReadySemaphore.count = 0 ∨ now = .done := by
  have hnone := worker_eq_none hrest hi
  cases now with
  | top => cases hnone
  | wait =>
      left
      refine ⟨rfl, ?_⟩
      have hwait := Option.map_eq_none_iff.mp hnone
      unfold Semaphore.wait at hwait
      split at hwait
      · cases hwait
      · omega
  | check => cases hnone
  | lock =>
      change (if p.free then p.take i else none) = none at hnone
      rw [if_pos hfree] at hnone
      unfold ThreadPool.take at hnone
      split at hnone
      · rename_i hempty
        exact absurd hempty (h.work_ne_nil hi hfree)
      · cases hnone
  | run item => cases hnone
  | push item next =>
      change (if p.free then some ((p.push next).setThread i (.run item)) else none) = none
        at hnone
      rw [if_pos hfree] at hnone
      cases hnone
  | done => exact Or.inr rfl

/-- All threads are done where the permits suffice and none wants the lock in vain. -/
theorem joined_of_done (h : ∀ (i : ℕ) now, p.threads[i]? = some now → now = PoolWorker.done) :
    p.joined = true := by
  apply List.all_eq_true.mpr
  intro t ht
  obtain ⟨i, hi⟩ := List.getElem?_of_mem ht
  rw [h i t hi]

theorem Steady.waiting_pos (h : p.Steady) (hterm : p.terminating = true)
    (hi : p.threads[i]? = some .wait) : 0 < p.workReadySemaphore.count := by
  have hle := le_total (f := PoolWorker.waiting) (List.mem_of_getElem? hi)
  have hwakes := h.wakes hterm
  change 1 ≤ _ at hle
  omega

/-- A pool at rest is neither being resized nor shut down. -/
theorem Steady.idle (h : p.Steady) (hsound : p.Sound) (hrest : p.Quiescent) :
    p.control = .idle := by
  have hnone : p.proceed = none := hrest .proceed trivial
  unfold ThreadPool.proceed at hnone
  split at hnone
  · assumption
  · cases hnone
  · rename_i n hn
    have hterm := (hsound.joining n hn).1
    rw [if_pos] at hnone
    · cases hnone
    apply joined_of_done
    intro i now hi
    have hstuck := worker_eq_none hrest hi
    have hblocked := le_total (f := PoolWorker.blocked) (List.mem_of_getElem? hi)
    rw [h.unblocked n hn] at hblocked
    cases now with
    | top => cases hstuck
    | wait =>
        have hpos := h.waiting_pos hterm hi
        have hwait := Option.map_eq_none_iff.mp hstuck
        unfold Semaphore.wait at hwait
        rw [if_pos hpos] at hwait
        cases hwait
    | check => cases hstuck
    | lock => cases hblocked
    | run item => cases hstuck
    | push item next => cases hblocked
    | done => rfl
  · rename_i hstopping
    have hterm := hsound.stopping hstopping
    have hfree : p.free = true := by
      unfold free
      rw [hstopping]
    rw [if_pos] at hnone
    · cases hnone
    apply joined_of_done
    intro i now hi
    rcases hsound.wait_or_done hrest hfree hi with ⟨rfl, hzero⟩ | hdone
    · have hpos := h.waiting_pos hterm hi
      omega
    · exact hdone

/-- A pool at rest that does not terminate has executed all that has not been removed. -/
theorem Steady.executed (h : p.Steady) (hsound : p.Sound) (hrest : p.Quiescent)
    (hterm : p.terminating = false) : p.queued = p.executed + p.removed := by
  have hfree : p.free = true := by
    unfold free
    rw [h.idle hsound hrest]
  have hwaiting : ∀ t ∈ p.threads, t = .wait ∧ p.workReadySemaphore.count = 0 := by
    intro t ht
    obtain ⟨i, hi⟩ := List.getElem?_of_mem ht
    rcases hsound.wait_or_done hrest hfree hi with hwait | rfl
    · exact hwait
    · have hle := le_total (f := PoolWorker.ended) ht
      rw [hsound.alive hterm] at hle
      cases hle
  have hrunning : p.running = 0 := by
    apply total_eq_zero
    intro t ht
    rw [(hwaiting t ht).1]
    rfl
  have hclaims : total PoolWorker.claims p.threads = 0 := by
    apply total_eq_zero
    intro t ht
    rw [(hwaiting t ht).1]
    rfl
  have hcount : p.workReadySemaphore.count = 0 := by
    obtain ⟨t, ht⟩ := List.exists_mem_of_length_pos hsound.size_pos
    exact (hwaiting t ht).2
  have hbalanced := h.balanced hterm
  rw [hcount, hclaims] at hbalanced
  have hkept := hsound.kept
  rw [List.length_eq_zero_iff.mp hbalanced.symm, hrunning] at hkept
  rw [hkept]
  simp

instance Clear.decidable (p : ThreadPool α) : ∀ c, Decidable (p.Clear c)
  | .resizing n =>
      inferInstanceAs (Decidable (if n < p.threads.length then
        total PoolWorker.blocked p.threads = 0 else p.workReadySemaphore.count = 0))
  | .idle => isTrue trivial
  | .joining _ => isTrue trivial
  | .stopping => isTrue trivial

instance Unhindered.decidable (p : ThreadPool α) : ∀ e, Decidable (p.Unhindered e)
  | .proceed => inferInstanceAs (Decidable (p.Clear p.control))
  | .queue _ => isTrue trivial
  | .call _ _ => isTrue trivial
  | .setNumThreads _ => isTrue trivial
  | .shutdown => isTrue trivial
  | .resume _ => isTrue trivial
  | .worker _ => isTrue trivial

/-- What the pool promises in a state that is reached. -/
structure LosesNothing (p : ThreadPool α) : Prop where
  /-- A thread that has the lock finds work. -/
  found : ∀ i : ℕ, p.threads[i]? = some PoolWorker.lock → p.free = true → p.work ≠ []
  /-- Work is queued, taken, executed or removed, once for each time that it has been queued. -/
  once : p.queued = p.executed + p.running + p.work + p.removed
  /-- Without more calls the pool comes to rest. -/
  rests : ∀ steps q, (∀ e ∈ steps, e.Own) → RunSteps.run step p steps = some q →
    steps.length ≤ p.measure
  /-- At rest no call hangs, and all is executed that has not been removed. -/
  done : p.Quiescent →
    p.control = .idle ∧ (p.terminating = false → p.queued = p.executed + p.removed)

/-- Between smaller pools, and outside of `Shutdown`, all work is executed once. -/
theorem losesNothing_of_unhindered (n : ℕ) (steps : List (PoolEvent α))
    (h : RunSteps.Every step Unhindered (start n) steps) :
    ∀ p, RunSteps.Reaches step (start n) steps p → p.LosesNothing := by
  intro p hreach
  have hinv : p.Sound ∧ p.Steady :=
    RunSteps.invariant_of_every (fun p => p.Sound ∧ p.Steady)
      (fun p e q hp hclear hstep => ⟨hp.1.step hstep, hp.2.step hp.1 hclear hstep⟩)
      ⟨sound_start n, steady_start n⟩ h hreach
  obtain ⟨hsound, hsteady⟩ := hinv
  constructor
  · exact fun i hi hfree => hsound.work_ne_nil hi hfree
  · exact hsound.kept
  · intro own q hown hq
    have := length_le_measure hown hq
    omega
  · exact fun hrest => ⟨hsteady.idle hsound hrest, hsteady.executed hsound hrest⟩

/-- The pool grows after its work has been taken, and shrinks while the work is run. -/
def resizedEvents : List (PoolEvent ℕ) :=
  [.queue 7, .resume 0, .worker 0, .worker 0, .setNumThreads 2, .worker 0, .proceed, .worker 0,
    .setNumThreads 1, .proceed, .worker 0, .worker 0, .worker 1, .proceed]

theorem losesNothing_of_unhindered_resized :
    ∃ p, RunSteps.run step (start 1) resizedEvents = some p ∧ p.executed = {7} ∧
      p.LosesNothing := by
  have hrun : (RunSteps.run step (start 1) resizedEvents).map (·.executed) = some {7} := by
    decide
  obtain ⟨p, hp, hexecuted⟩ := Option.map_eq_some_iff.mp hrun
  exact ⟨p, hp, hexecuted, losesNothing_of_unhindered 1 resizedEvents (by decide) p
    (RunSteps.reaches_of_run hp)⟩

/-- Nobody calls `Queue`, and every thread waits for a permit or for the lock. -/
def rests (p : ThreadPool α) : Bool :=
  p.callers.isEmpty && p.proceed.isNone &&
    (List.range p.threads.length).all fun i => (p.step (.worker i)).isNone

theorem quiescent_of_rests (h : p.rests = true) : p.Quiescent := by
  unfold rests at h
  rw [Bool.and_eq_true, Bool.and_eq_true] at h
  obtain ⟨⟨hcallers, hproceed⟩, hworkers⟩ := h
  intro e hown
  cases e with
  | queue item => cases hown
  | call i next => cases hown
  | setNumThreads n => cases hown
  | shutdown => cases hown
  | resume k =>
      change p.callers[k]?.bind _ = none
      rw [List.isEmpty_iff.mp hcallers]
      rfl
  | worker i =>
      by_cases hi : i < p.threads.length
      · exact Option.isNone_iff_eq_none.mp
          (List.all_eq_true.mp hworkers i (List.mem_range.mpr hi))
      · change (p.threads[i]?).bind _ = none
        rw [List.getElem?_eq_none (by omega)]
        rfl
  | proceed => exact Option.isNone_iff_eq_none.mp hproceed

/-- A smaller pool removes work that is queued; a larger one leaves it in the queue without a
permit; and a thread that wants the lock is never joined. -/
theorem not_losesNothing :
    (¬ ∀ n steps (p : ThreadPool ℕ), RunSteps.Reaches step (start n) steps p →
      p.Quiescent → p.terminating = false → p.queued = p.executed) ∧
    (¬ ∀ n steps (p : ThreadPool ℕ), RunSteps.Reaches step (start n) steps p →
      p.Quiescent → p.terminating = false → p.queued = p.executed + p.removed) ∧
    (¬ ∀ n steps (p : ThreadPool ℕ), RunSteps.Reaches step (start n) steps p →
      p.Quiescent → p.control = .idle) := by
  refine ⟨?_, ?_, ?_⟩
  · intro hall
    have hrun : (RunSteps.run step (start 2)
        [.queue 7, .resume 0, .setNumThreads 1, .proceed, .worker 0, .worker 1, .proceed,
          .worker 0]).map
        (fun p => (p.rests, p.terminating, p.queued, p.executed)) =
        some (true, false, {7}, 0) := by
      decide
    obtain ⟨p, hp, hview⟩ := Option.map_eq_some_iff.mp hrun
    simp only [Prod.mk.injEq] at hview
    obtain ⟨hrests, hterm, hqueued, hexecuted⟩ := hview
    have heq := hall 2 _ p (RunSteps.reaches_of_run hp) (quiescent_of_rests hrests) hterm
    rw [hqueued, hexecuted] at heq
    exact absurd heq (by decide)
  · intro hall
    have hrun : (RunSteps.run step (start 2)
        [.queue 7, .resume 0, .setNumThreads 3, .proceed, .worker 0, .worker 1, .worker 2]).map
        (fun p => (p.rests, p.terminating, p.queued, p.executed + p.removed)) =
        some (true, false, {7}, 0) := by
      decide
    obtain ⟨p, hp, hview⟩ := Option.map_eq_some_iff.mp hrun
    simp only [Prod.mk.injEq] at hview
    obtain ⟨hrests, hterm, hqueued, hgone⟩ := hview
    have heq := hall 2 _ p (RunSteps.reaches_of_run hp) (quiescent_of_rests hrests) hterm
    rw [hqueued, hgone] at heq
    exact absurd heq (by decide)
  · intro hall
    have hrun : (RunSteps.run step (start 2)
        [.queue 7, .resume 0, .worker 0, .worker 0, .worker 0, .setNumThreads 1, .proceed,
          .worker 1]).map (fun p => (p.rests, p.free)) = some (true, false) := by
      decide
    obtain ⟨p, hp, hview⟩ := Option.map_eq_some_iff.mp hrun
    simp only [Prod.mk.injEq] at hview
    obtain ⟨hrests, hfree⟩ := hview
    have hidle := hall 2 _ p (RunSteps.reaches_of_run hp) (quiescent_of_rests hrests)
    unfold free at hfree
    rw [hidle] at hfree
    cases hfree

end ThreadPool

end ArenaServ
