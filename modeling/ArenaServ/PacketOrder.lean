import Mathlib.Data.List.Basic
import ArenaServ.ActionQueue

/-!
# The order of packets and actions

The packets that have been put back into the queue come before those that wait for their first
pass, and both are in the order of arrival. So a packet that is put back goes from the head of
the second group to the end of the first, and their order is never lost.
-/

namespace ArenaServ

namespace QueuedAction

/-- A packet that waits for its second pass. -/
def returned (a : QueuedAction) : Bool := a.fromClient && !a.autoQueue

/-- A packet that waits for its first pass. -/
def fresh (a : QueuedAction) : Bool := a.fromClient && a.autoQueue

theorem number_executedAt (a : QueuedAction) (start : ℚ) :
    (a.executedAt start).number = a.number := rfl

end QueuedAction

namespace ActionQueue

variable {s t : ActionQueue}

/-- A packet of the client that is for the playing state and not out of band. -/
def inBand (s : ActionQueue) (e : ExecutedAction) : Bool :=
  e.fromClient && (s.handlers.find e.reader).inBand

/-- The packets of the playing state in the order in which they are executed. -/
def packets (s : ActionQueue) : List ℕ :=
  (s.executed.filter s.inBand).map (·.number) ++ (s.queue.filter (·.returned)).map (·.number) ++
    (s.queue.filter (·.fresh)).map (·.number)

/-- The actions of the server in the order in which they are executed. -/
def actions (s : ActionQueue) : List ℕ :=
  (s.executed.filter (!·.fromClient)).map (·.number) ++
    (s.queue.filter (!·.fromClient)).map (·.number)

/-- The number of an action is its place in the order of arrival or of insertion. -/
def Named (s : ActionQueue) (fromClient : Bool) (number : ℕ) (reader : PacketReader) : Prop :=
  (if fromClient then s.arrived else s.inserted)[number]? = some reader

structure Ordered (s : ActionQueue) : Prop where
  packets : s.packets.Pairwise (· < ·)
  packets_lt : ∀ n ∈ s.packets, n < s.arrived.length
  actions : s.actions.Pairwise (· < ·)
  actions_lt : ∀ n ∈ s.actions, n < s.inserted.length
  /-- Only packets of the client wait for a first pass. -/
  firstPass : ∀ a ∈ s.queue, a.autoQueue = true → a.fromClient = true
  queueNamed : ∀ a ∈ s.queue, s.Named a.fromClient a.number a.reader
  executedNamed : ∀ e ∈ s.executed, s.Named e.fromClient e.number e.reader
  spaced : s.executed.Pairwise fun e e' => e.start + e.delay ≤ e'.start
  /-- What has been executed has been waited for, or is being waited for. -/
  waited : ∀ e ∈ s.executed, e.start + e.delay ≤ s.next ∨ e.start + e.delay ≤ s.clock.offset

theorem ordered_start (clock : Clock) (handlers : PacketHandlers) (client : ClientView) :
    (start clock handlers client).Ordered := by
  constructor
  · exact List.Pairwise.nil
  · exact fun n hn => absurd hn List.not_mem_nil
  · exact List.Pairwise.nil
  · exact fun n hn => absurd hn List.not_mem_nil
  · exact fun a ha => absurd ha List.not_mem_nil
  · exact fun a ha => absurd ha List.not_mem_nil
  · exact fun e he => absurd he List.not_mem_nil
  · exact List.Pairwise.nil
  · exact fun e he => absurd he List.not_mem_nil

/-- A later number at the end. -/
theorem pairwise_lt_concat {numbers : List ℕ} {n : ℕ} (h : numbers.Pairwise (· < ·))
    (hn : ∀ m ∈ numbers, m < n) : (numbers ++ [n]).Pairwise (· < ·) := by
  rw [List.pairwise_append]
  refine ⟨h, List.pairwise_singleton _ _, ?_⟩
  intro m hm k hk
  rw [List.mem_singleton.mp hk]
  exact hn m hm

theorem lt_concat {numbers : List ℕ} {n : ℕ} (hn : ∀ m ∈ numbers, m < n) :
    ∀ m ∈ numbers ++ [n], m < n + 1 := by
  intro m hm
  rcases List.mem_append.mp hm with hm | hm
  · have := hn m hm
    omega
  · rw [List.mem_singleton.mp hm]
    omega

theorem Named.mono {number : ℕ} {reader : PacketReader} {fromClient : Bool}
    (harrived : s.arrived <+: t.arrived) (hinserted : s.inserted <+: t.inserted)
    (h : s.Named fromClient number reader) : t.Named fromClient number reader := by
  obtain ⟨later, hlater⟩ := harrived
  obtain ⟨more, hmore⟩ := hinserted
  unfold Named at h ⊢
  cases fromClient with
  | true =>
      change s.arrived[number]? = some reader at h
      change t.arrived[number]? = some reader
      rw [← hlater, List.getElem?_append_left (List.getElem?_eq_some_iff.mp h).1, h]
  | false =>
      change s.inserted[number]? = some reader at h
      change t.inserted[number]? = some reader
      rw [← hmore, List.getElem?_append_left (List.getElem?_eq_some_iff.mp h).1, h]

theorem packets_insert (s : ActionQueue) (reader : PacketReader) (time : ℚ) :
    (s.insert reader time).packets = s.packets := by
  unfold ActionQueue.packets ActionQueue.insert
  simp only [List.filter_append, List.map_append]
  simp [QueuedAction.returned, QueuedAction.fresh]
  rfl

theorem actions_insert (s : ActionQueue) (reader : PacketReader) (time : ℚ) :
    (s.insert reader time).actions = s.actions ++ [s.inserted.length] := by
  simp [ActionQueue.insert, ActionQueue.actions]

theorem Ordered.insert (h : s.Ordered) (reader : PacketReader) (time : ℚ) :
    (s.insert reader time).Ordered := by
  have hnamed : ∀ {fromClient number other}, s.Named fromClient number other →
      (s.insert reader time).Named fromClient number other :=
    fun hold => Named.mono (s := s) (t := s.insert reader time) List.prefix_rfl
      (List.prefix_append ..) hold
  constructor
  · rw [packets_insert]
    exact h.packets
  · rw [packets_insert]
    exact h.packets_lt
  · rw [actions_insert]
    exact pairwise_lt_concat h.actions h.actions_lt
  · rw [actions_insert]
    change ∀ n ∈ _, n < (s.inserted ++ [reader]).length
    rw [List.length_append]
    exact lt_concat h.actions_lt
  · intro a ha hauto
    rcases List.mem_append.mp ha with ha | ha
    · exact h.firstPass a ha hauto
    · rw [List.mem_singleton.mp ha] at hauto
      cases hauto
  · intro a ha
    rcases List.mem_append.mp ha with ha | ha
    · exact hnamed (h.queueNamed a ha)
    · rw [List.mem_singleton.mp ha]
      exact List.getElem?_concat_length
  · exact fun e he => hnamed (h.executedNamed e he)
  · exact h.spaced
  · exact h.waited

theorem Ordered.insertAll (h : s.Ordered) (actions : List (PacketReader × ℚ)) :
    (s.insertAll actions).Ordered := by
  induction actions generalizing s with
  | nil => exact h
  | cons action rest ih => exact ih (h.insert action.1 action.2)

theorem packets_queue (s : ActionQueue) {reader : PacketReader} {queue : List QueuedAction}
    (hqueue : queue = s.queue ++ [⟨reader, 1 / 50, true, true, s.arrived.length⟩])
    (arrived : List PacketReader) :
    ActionQueue.packets { s with queue := queue, arrived := arrived } =
      s.packets ++ [s.arrived.length] := by
  subst hqueue
  unfold ActionQueue.packets
  simp only [List.filter_append, List.map_append]
  simp [QueuedAction.returned, QueuedAction.fresh]
  rfl

theorem actions_queue (s : ActionQueue) {reader : PacketReader} {queue : List QueuedAction}
    (hqueue : queue = s.queue ++ [⟨reader, 1 / 50, true, true, s.arrived.length⟩])
    (arrived : List PacketReader) :
    ActionQueue.actions { s with queue := queue, arrived := arrived } = s.actions := by
  subst hqueue
  simp [ActionQueue.actions]

theorem Ordered.close (h : s.Ordered) (connected : Bool) (client : ClientView) :
    Ordered { s with connected := connected, client := client } :=
  ⟨h.packets, h.packets_lt, h.actions, h.actions_lt, h.firstPass, h.queueNamed,
    h.executedNamed, h.spaced, h.waited⟩

theorem Ordered.arrive (h : s.Ordered) (reader : PacketReader) : (s.arrive reader).Ordered := by
  unfold ActionQueue.arrive
  split
  · exact h
  split
  · exact h.close false s.client
  have hnamed : ∀ {fromClient number other}, s.Named fromClient number other →
      Named { s with arrived := s.arrived ++ [reader] } fromClient number other :=
    fun hold => hold.mono (t := { s with arrived := s.arrived ++ [reader] })
      (List.prefix_append ..) List.prefix_rfl
  constructor
  · rw [packets_queue s rfl]
    exact pairwise_lt_concat h.packets h.packets_lt
  · rw [packets_queue s rfl]
    change ∀ n ∈ _, n < (s.arrived ++ [reader]).length
    rw [List.length_append]
    exact lt_concat h.packets_lt
  · rw [actions_queue s rfl]
    exact h.actions
  · rw [actions_queue s rfl]
    exact h.actions_lt
  · intro a ha hauto
    rcases List.mem_append.mp ha with ha | ha
    · exact h.firstPass a ha hauto
    · rw [List.mem_singleton.mp ha]
  · intro a ha
    rcases List.mem_append.mp ha with ha | ha
    · exact hnamed (h.queueNamed a ha)
    · rw [List.mem_singleton.mp ha]
      exact List.getElem?_concat_length
  · exact fun e he => hnamed (h.executedNamed e he)
  · exact h.spaced
  · exact h.waited

/-- What becomes of the first action: it may be put back, or executed, or neither. -/
structure Popped (s : ActionQueue) (a : QueuedAction) (back : List QueuedAction)
    (done : List ExecutedAction) : Prop where
  back : back = [] ∨ a.autoQueue = true ∧ done = [] ∧
    ∃ time, back = [{ a with time := time, autoQueue := false }]
  done : done = [] ∨ done = [a.executedAt s.clock.offset] ∧
    (a.autoQueue = true → s.inBand (a.executedAt s.clock.offset) = false)

variable {a : QueuedAction} {rest back : List QueuedAction} {done : List ExecutedAction}

/-- The list without its first action, what is put back and what is executed. -/
def popped (s : ActionQueue) (a : QueuedAction) (rest back : List QueuedAction)
    (done : List ExecutedAction) : ActionQueue :=
  { s with
    queue := rest ++ back
    executed := s.executed ++ done
    next := s.clock.offset + a.time }

/-- A packet that is put back is the last of those that wait for the second pass. -/
theorem packets_popped (h : s.Ordered) (hqueue : s.queue = a :: rest)
    (hpop : s.Popped a back done) : (s.popped a rest back done).packets.Sublist s.packets := by
  have hinBand : (s.popped a rest back done).inBand = s.inBand := rfl
  unfold ActionQueue.packets
  rw [hinBand, hqueue]
  cases hauto : a.autoQueue with
  | true =>
      have hclient := h.firstPass a (by rw [hqueue]; exact List.mem_cons_self) hauto
      have hreturned : a.returned = false := by simp [QueuedAction.returned, hauto]
      have hfresh : a.fresh = true := by simp [QueuedAction.fresh, hauto, hclient]
      have hdone : done.filter s.inBand = [] := by
        rcases hpop.done with rfl | ⟨rfl, hout⟩
        · rfl
        · simp [hout hauto]
      rcases hpop.back with rfl | ⟨-, -, time, rfl⟩
      · simp [popped, hreturned, hfresh, hdone]
      · have hagain : QueuedAction.returned { a with time := time, autoQueue := false } = true := by
          simp [QueuedAction.returned, hclient]
        have hpast : QueuedAction.fresh { a with time := time, autoQueue := false } = false := by
          simp [QueuedAction.fresh]
        simp [popped, hreturned, hfresh, hdone, hagain, hpast]
  | false =>
      have hback : back = [] := by
        rcases hpop.back with hback | ⟨htrue, -⟩
        · exact hback
        · rw [hauto] at htrue
          cases htrue
      have hfresh : a.fresh = false := by simp [QueuedAction.fresh, hauto]
      cases hclient : a.fromClient with
      | true =>
          have hreturned : a.returned = true := by simp [QueuedAction.returned, hauto, hclient]
          rcases hpop.done with rfl | ⟨rfl, -⟩
          · simp [popped, hreturned, hfresh, hback]
          · cases hin : s.inBand (a.executedAt s.clock.offset) with
            | true =>
                simp [popped, hreturned, hfresh, hback, hin, QueuedAction.number_executedAt]
            | false => simp [popped, hreturned, hfresh, hback, hin]
      | false =>
          have hreturned : a.returned = false := by simp [QueuedAction.returned, hclient]
          have hout : s.inBand (a.executedAt s.clock.offset) = false := by
            simp [inBand, QueuedAction.executedAt, hclient]
          rcases hpop.done with rfl | ⟨rfl, -⟩
          · simp [popped, hreturned, hfresh, hback]
          · simp [popped, hreturned, hfresh, hback, hout]

theorem actions_popped (h : s.Ordered) (hqueue : s.queue = a :: rest)
    (hpop : s.Popped a back done) : (s.popped a rest back done).actions.Sublist s.actions := by
  unfold ActionQueue.actions
  rw [hqueue]
  cases hclient : a.fromClient with
  | true =>
      have hdone : done.filter (!·.fromClient) = [] := by
        rcases hpop.done with rfl | ⟨rfl, -⟩
        · rfl
        · simp [QueuedAction.executedAt, hclient]
      have hback : back.filter (!·.fromClient) = [] := by
        rcases hpop.back with rfl | ⟨-, -, time, rfl⟩
        · rfl
        · simp [hclient]
      simp [popped, hclient, hdone, hback]
  | false =>
      have hback : back = [] := by
        rcases hpop.back with hback | ⟨hauto, -⟩
        · exact hback
        · have := h.firstPass a (by rw [hqueue]; exact List.mem_cons_self) hauto
          rw [hclient] at this
          cases this
      rcases hpop.done with rfl | ⟨rfl, -⟩
      · simp [popped, hclient, hback]
      · simp [popped, hclient, hback, QueuedAction.executedAt]

theorem Ordered.popped (h : s.Ordered) (hqueue : s.queue = a :: rest)
    (back : List QueuedAction) (done : List ExecutedAction) (hpop : s.Popped a back done) (hnext : s.next ≤ s.clock.offset) :
    (s.popped a rest back done).Ordered := by
  have hpackets := packets_popped h hqueue hpop
  have hactions := actions_popped h hqueue hpop
  have hmem : a ∈ s.queue := by rw [hqueue]; exact List.mem_cons_self
  have hrest : ∀ b ∈ rest, b ∈ s.queue := by
    intro b hb
    rw [hqueue]
    exact List.mem_cons_of_mem a hb
  have hnow : ∀ e ∈ s.executed, e.start + e.delay ≤ s.clock.offset := by
    intro e he
    rcases h.waited e he with hle | hle
    · exact hle.trans hnext
    · exact hle
  have hdone : ∀ e ∈ done, e = a.executedAt s.clock.offset := by
    intro e he
    rcases hpop.done with rfl | ⟨rfl, -⟩
    · cases he
    · exact List.mem_singleton.mp he
  constructor
  · exact h.packets.sublist hpackets
  · exact fun n hn => h.packets_lt n (hpackets.subset hn)
  · exact h.actions.sublist hactions
  · exact fun n hn => h.actions_lt n (hactions.subset hn)
  · intro b hb hauto
    rcases List.mem_append.mp hb with hb | hb
    · exact h.firstPass b (hrest b hb) hauto
    · rcases hpop.back with rfl | ⟨-, -, time, rfl⟩
      · cases hb
      · rw [List.mem_singleton.mp hb] at hauto
        cases hauto
  · intro b hb
    rcases List.mem_append.mp hb with hb | hb
    · exact h.queueNamed b (hrest b hb)
    · rcases hpop.back with rfl | ⟨-, -, time, rfl⟩
      · cases hb
      · rw [List.mem_singleton.mp hb]
        exact h.queueNamed a hmem
  · intro e he
    rcases List.mem_append.mp he with he | he
    · exact h.executedNamed e he
    · rw [hdone e he]
      exact h.queueNamed a hmem
  · change (s.executed ++ done).Pairwise _
    rw [List.pairwise_append]
    refine ⟨h.spaced, ?_, ?_⟩
    · rcases hpop.done with rfl | ⟨rfl, -⟩
      · exact List.Pairwise.nil
      · exact List.pairwise_singleton _ _
    · intro e he e' he'
      rw [hdone e' he']
      exact hnow e he
  · intro e he
    rcases List.mem_append.mp he with he | he
    · exact Or.inr (hnow e he)
    · rw [hdone e he]
      exact Or.inl le_rfl

theorem callFn_ne_queued (client : ClientView) (fnType : FunctionType) (delay : ℚ) :
    PacketHandlers.callFn client fnType ≠ .queued delay := by
  intro h
  cases fnType with
  | invalid => cases h
  | clientFn => cases h
  | playerFn =>
      change (if client.player.isSome then HandleResult.called else .threw) = _ at h
      split at h
      · cases h
      · cases h
  | characterFn =>
      change (if client.player = some true then HandleResult.called else .threw) = _ at h
      split at h
      · cases h
      · cases h

/-- Only a packet in its first pass is put back. -/
theorem handle_queued {handlers : PacketHandlers} {client : ClientView} {reader : PacketReader}
    {fromQueue : Bool} {delay : ℚ}
    (h : handlers.handle client reader fromQueue = some (.queued delay)) : fromQueue = false := by
  unfold PacketHandlers.handle at h
  dsimp only at h
  split at h
  · cases h
  · obtain ⟨ok, -, hok⟩ := Option.map_eq_some_iff.mp h
    split at hok
    · cases hok
    split at hok
    · rename_i hpass
      cases fromQueue with
      | true => cases hpass
      | false => rfl
    · exact absurd hok (callFn_ne_queued _ _ _)

/-- Handlers that queue their packets run in the second pass. -/
theorem handle_called {handlers : PacketHandlers} {client : ClientView} {reader : PacketReader}
    (h : handlers.handle client reader false = some .called) :
    (handlers.find reader).inBand = false := by
  unfold PacketHandlers.handle at h
  dsimp only at h
  split at h
  · cases h
  · obtain ⟨ok, -, hok⟩ := Option.map_eq_some_iff.mp h
    split at hok
    · cases hok
    split at hok
    · cases hok
    · rename_i hpass
      simpa using hpass

/-- What is added to the queue does not matter for the time of the next action. -/
theorem insertAll_next (s : ActionQueue) (actions : List (PacketReader × ℚ)) (next : ℚ) :
    ({ s.insertAll actions with next := next } : ActionQueue) =
      ({ s with next := next } : ActionQueue).insertAll actions := by
  induction actions generalizing s with
  | nil => rfl
  | cons action rest ih => exact ih (s.insert action.1 action.2)

theorem Ordered.pumpFront (h : s.Ordered) {effect : HandlerEffect}
    (ht : s.pumpFront effect = some t) : t.Ordered := by
  unfold ActionQueue.pumpFront at ht
  split at ht
  · cases ht
    exact h
  rename_i a rest hqueue
  split at ht
  · rename_i hnext
    obtain ⟨result, hresult, rfl⟩ := Option.map_eq_some_iff.mp ht
    have hnone : (s.popped a rest [] []).Ordered :=
      h.popped hqueue [] [] ⟨Or.inl rfl, Or.inl rfl⟩ hnext
    unfold ActionQueue.popped at hnone
    rw [List.append_nil, List.append_nil] at hnone
    cases result with
    | ignored => exact hnone
    | queued delay =>
        have hauto : a.autoQueue = true := by
          have := handle_queued hresult
          simpa using this
        have hback := h.popped hqueue [{ a with time := delay, autoQueue := false }] []
          ⟨Or.inr ⟨hauto, rfl, delay, rfl⟩, Or.inl rfl⟩ hnext
        unfold ActionQueue.popped at hback
        rw [List.append_nil] at hback
        exact hback
    | called =>
        have hout : a.autoQueue = true → s.inBand (a.executedAt s.clock.offset) = false := by
          intro hauto
          rw [hauto] at hresult
          have hband := handle_called hresult
          unfold ActionQueue.inBand
          rw [show (a.executedAt s.clock.offset).reader = a.reader from rfl, hband,
            Bool.and_false]
        have hdone := h.popped hqueue [] [a.executedAt s.clock.offset]
          ⟨Or.inl rfl, Or.inr ⟨rfl, hout⟩⟩ hnext
        unfold ActionQueue.popped at hdone
        rw [List.append_nil] at hdone
        have hinserted := hdone.insertAll effect.inserted
        rw [← insertAll_next { s with
          queue := rest, executed := s.executed ++ [a.executedAt s.clock.offset] }] at hinserted
        exact hinserted.close _ effect.client
    | threw => exact hnone.close false s.client
  · cases ht
    exact h

theorem Ordered.getTime (h : s.Ordered) (ticks : UInt32) :
    Ordered { s with clock := s.clock.getTime ticks } := by
  have hle := s.clock.offset_le_getTime ticks
  refine ⟨h.packets, h.packets_lt, h.actions, h.actions_lt, h.firstPass, h.queueNamed,
    h.executedNamed, h.spaced, ?_⟩
  intro e he
  rcases h.waited e he with hnext | hpast
  · exact Or.inl hnext
  · exact Or.inr (hpast.trans hle)

theorem inBand_setDelay (handlers : PacketHandlers) (family action : UInt8) (delay : ℚ)
    (reader : PacketReader) :
    ((handlers.setDelay family action delay).find reader).inBand =
      (handlers.find reader).inBand := by
  unfold PacketHandlers.find PacketHandlers.setDelay
  split <;> rfl

theorem Ordered.setDelay (h : s.Ordered) (family action : UInt8) (delay : ℚ) :
    Ordered { s with handlers := s.handlers.setDelay family action delay } := by
  have hsame : ActionQueue.packets
      { s with handlers := s.handlers.setDelay family action delay } = s.packets := by
    have hinBand : ActionQueue.inBand
        { s with handlers := s.handlers.setDelay family action delay } = s.inBand := by
      funext e
      unfold ActionQueue.inBand
      rw [inBand_setDelay]
    unfold ActionQueue.packets
    rw [hinBand]
  refine ⟨?_, ?_, h.actions, h.actions_lt, h.firstPass, h.queueNamed, h.executedNamed,
    h.spaced, h.waited⟩
  · rw [hsame]
    exact h.packets
  · rw [hsame]
    exact h.packets_lt

theorem Ordered.pump (h : s.Ordered) {ticks : UInt32} {packetQueueMax : ℕ}
    {effect : HandlerEffect} (ht : s.pump ticks packetQueueMax effect = some t) :
    t.Ordered := by
  have htime := h.getTime ticks
  unfold ActionQueue.pump at ht
  simp only at ht
  split at ht
  · cases ht
    exact htime
  split at ht
  · cases ht
    exact htime.close false s.client
  · exact htime.pumpFront ht

theorem Ordered.step (h : s.Ordered) {e : QueueEvent} (ht : s.step e = some t) : t.Ordered := by
  cases e with
  | arrive reader =>
      cases ht
      exact h.arrive reader
  | insert reader time =>
      cases ht
      exact h.insert reader time
  | change client connected =>
      cases ht
      exact h.close (s.connected && connected) client
  | setDelay family action delay =>
      cases ht
      exact h.setDelay family action delay
  | setMaxDelta maxDelta =>
      cases ht
      exact ⟨h.packets, h.packets_lt, h.actions, h.actions_lt, h.firstPass, h.queueNamed,
        h.executedNamed, h.spaced, h.waited⟩
  | getTime ticks =>
      cases ht
      exact h.getTime ticks
  | pump ticks packetQueueMax effect => exact h.pump ht

/-- What has been executed for a client, in this order. -/
structure InOrder (s : ActionQueue) : Prop where
  /-- Packets of the playing state, in the order of arrival and each at most once. -/
  packets : (s.executed.filter s.inBand).Pairwise fun e e' => e.number < e'.number
  /-- Actions of the server, in the order of insertion and each at most once. -/
  actions : (s.executed.filter (!·.fromClient)).Pairwise fun e e' => e.number < e'.number
  named : ∀ e ∈ s.executed, s.Named e.fromClient e.number e.reader
  spaced : s.executed.Pairwise fun e e' => e.start + e.delay ≤ e'.start

theorem Ordered.inOrder (h : s.Ordered) : s.InOrder := by
  constructor
  · have hall := h.packets
    unfold ActionQueue.packets at hall
    rw [List.append_assoc, List.pairwise_append, List.pairwise_map] at hall
    exact hall.1
  · have hall := h.actions
    unfold ActionQueue.actions at hall
    rw [List.pairwise_append, List.pairwise_map] at hall
    exact hall.1
  · exact h.executedNamed
  · exact h.spaced

/-- Whatever arrives, is inserted and happens between the ticks. -/
theorem inOrder_of_reaches (clock : Clock) (handlers : PacketHandlers) (client : ClientView)
    (steps : List QueueEvent) :
    ∀ s, RunSteps.Reaches step (start clock handlers client) steps s → s.InOrder := by
  intro s hreach
  have hevery : RunSteps.Every step (fun _ _ => True) (start clock handlers client) steps :=
    RunSteps.every_of_forall (fun _ _ => trivial) _ _
  have hordered : s.Ordered :=
    RunSteps.invariant_of_every Ordered (fun s e t hs _ (ht : s.step e = some t) => hs.step ht)
      (ordered_start clock handlers client) hevery hreach
  exact hordered.inOrder

/-- Two packets of the playing state and the two actions of a death between them. -/
def deathEvents : List QueueEvent :=
  let tick (ticks : UInt32) : QueueEvent := .pump ticks 40 ⟨[], ⟨.playing, some true⟩, true⟩
  [.arrive (.ofData [1, 7]), .insert (.ofData [128, 0]) (3 / 2), .arrive (.ofData [2, 7]),
    .insert (.ofData [129, 0]) 0, tick 10, tick 30, tick 900, tick 1800, tick 1830, tick 1860,
    tick 1890]

def playingHandlers : PacketHandlers := fun _ _ => ⟨.characterFn, AllowState.playing, 1 / 100⟩

theorem inOrder_of_reaches_death :
    ∃ s, RunSteps.run step (start ⟨0, 0, 1000⟩ playingHandlers ⟨.playing, some true⟩) deathEvents =
      some s ∧ s.executed.map (fun e => (e.fromClient, e.number)) =
        [(false, 0), (false, 1), (true, 0), (true, 1)] ∧ s.InOrder := by
  have hrun : (RunSteps.run step (start ⟨0, 0, 1000⟩ playingHandlers ⟨.playing, some true⟩)
      deathEvents).map (fun s => s.executed.map fun e => (e.fromClient, e.number)) =
      some [(false, 0), (false, 1), (true, 0), (true, 1)] := by
    decide +kernel
  obtain ⟨s, hs, hexecuted⟩ := Option.map_eq_some_iff.mp hrun
  exact ⟨s, hs, hexecuted, inOrder_of_reaches _ _ _ _ s (RunSteps.reaches_of_run hs)⟩

end ActionQueue

end ArenaServ
