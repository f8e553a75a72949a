import ArenaServ.PacketFields
import ArenaServ.Sequence

/-!
# Both sides agree on the sequence numbers

What the server expects of the packets on their way is computed from its own start, the
start of the last ping and its counter. The client agrees when the messages on their way
take it to the start that the server has after all these packets. Pings keep this up in
any order; a start that the server takes at once does if nothing else is on its way.
-/

namespace ArenaServ

/-- The two starts and the counter of the server. -/
structure Numbering where
  start : ℤ
  upcoming : ℤ
  count : ℤ

namespace Numbering

/-- A pong makes the upcoming start the start. -/
def enter (n : Numbering) (p : NumberedPacket) : Numbering :=
  if p.isPong then { n with start := n.upcoming } else n

def number (n : Numbering) : ℤ := n.start + n.count

def next (n : Numbering) (p : NumberedPacket) : Numbering :=
  { n.enter p with count := (n.count + 1) % 10 }

def after (n : Numbering) (ps : List NumberedPacket) : Numbering := ps.foldl next n

/-- The server finds the number right. -/
def Accepts (n : Numbering) (p : NumberedPacket) : Prop :=
  p.family ≠ PacketFamily.internal.toByte ∧
    (p.family ≠ PacketFamily.fInit.toByte → p.number = (n.enter p).number)

def AcceptsAll (n : Numbering) : List NumberedPacket → Prop
  | [] => True
  | p :: ps => n.Accepts p ∧ (n.next p).AcceptsAll ps

/-- The messages take the client from `start` to the start of the server. -/
def Announces (n : Numbering) (start : ℤ) : List StartMessage → Prop
  | [] => start = n.start
  | m :: ms =>
      if m.isPing then start = n.start ∧ m.start = n.upcoming ∧ ms = []
      else n.Announces m.start ms

variable {n n' : Numbering} {p : NumberedPacket} {ps : List NumberedPacket} {m : StartMessage}
  {ms : List StartMessage} {start : ℤ}

theorem after_append : n.after (ps ++ [p]) = (n.after ps).next p := List.foldl_concat ..

theorem acceptsAll_append :
    n.AcceptsAll (ps ++ [p]) ↔ n.AcceptsAll ps ∧ (n.after ps).Accepts p := by
  induction ps generalizing n with
  | nil => simp [AcceptsAll, after]
  | cons q ps ih => simp only [List.cons_append, AcceptsAll, ih, and_assoc, after, List.foldl_cons]

theorem upcoming_after (n : Numbering) (ps : List NumberedPacket) :
    (n.after ps).upcoming = n.upcoming := by
  induction ps generalizing n with
  | nil => rfl
  | cons p ps ih =>
      rw [after, List.foldl_cons, ← after, ih]
      unfold next enter
      split_ifs <;> rfl

theorem count_after (n : Numbering) (ps : List NumberedPacket) (h : 0 ≤ n.count ∧ n.count ≤ 9) :
    0 ≤ (n.after ps).count ∧ (n.after ps).count ≤ 9 := by
  induction ps generalizing n with
  | nil => exact h
  | cons p ps ih =>
      apply ih
      simp only [next]
      omega

/-- Without pongs on the way, the start stays and the upcoming start does not matter. -/
theorem after_of_no_pong (hpong : ∀ p ∈ ps, p.isPong = false) (n' : Numbering)
    (hstart : n'.start = n.start)
    (hcount : n'.count = n.count) :
    (n'.after ps).start = n.start ∧ (n'.after ps).count = (n.after ps).count ∧
      (n.AcceptsAll ps → n'.AcceptsAll ps) := by
  induction ps generalizing n n' with
  | nil => exact ⟨hstart, hcount, fun _ => trivial⟩
  | cons p ps ih =>
      have hp : p.isPong = false := hpong p List.mem_cons_self
      have henter : ∀ n : Numbering, n.enter p = n := by
        intro n
        rw [enter, hp]
        rfl
      have hstart' : (n'.next p).start = (n.next p).start := by
        simp only [next, henter, hstart]
      have hcount' : (n'.next p).count = (n.next p).count := by
        simp only [next, hcount]
      obtain ⟨h₁, h₂, h₃⟩ := ih (fun q hq => hpong q (List.mem_cons_of_mem p hq)) _ hstart' hcount'
      refine ⟨?_, h₂, ?_⟩
      · rw [after, List.foldl_cons, ← after, h₁]
        simp only [next, henter]
      · rintro ⟨⟨hfamily, hnumber⟩, hrest⟩
        refine ⟨⟨hfamily, ?_⟩, h₃ hrest⟩
        simp only [henter, number, hstart, hcount] at hnumber ⊢
        exact hnumber

theorem Announces.congr (h : n.Announces start ms) (hstart : n'.start = n.start)
    (hupcoming : n'.upcoming = n.upcoming) : n'.Announces start ms := by
  induction ms generalizing start with
  | nil => exact h.trans hstart.symm
  | cons m ms ih =>
      unfold Announces at h ⊢
      split_ifs at h ⊢ with hping
      · exact ⟨h.1.trans hstart.symm, h.2.1.trans hupcoming.symm, h.2.2⟩
      · exact ih h

/-- A message with the new start of the server. -/
theorem announces_append (hping : ∀ m ∈ ms, m.isPing = false) (hm : m.isPing = false)
    (hstart : m.start = n.start) (start : ℤ) : n.Announces start (ms ++ [m]) := by
  induction ms generalizing start with
  | nil =>
      rw [List.nil_append, Announces, hm]
      exact hstart
  | cons m' ms ih =>
      rw [List.cons_append, Announces, hping m' List.mem_cons_self]
      exact ih (fun q hq => hping q (List.mem_cons_of_mem m' hq)) m'.start

theorem Announces.ping (h : n.Announces start ms) (hping : ∀ m ∈ ms, m.isPing = false)
    (hm : m.isPing = true) (hstart : n'.start = n.start) (hupcoming : m.start = n'.upcoming) :
    n'.Announces start (ms ++ [m]) := by
  induction ms generalizing start with
  | nil =>
      rw [List.nil_append, Announces, if_pos hm]
      exact ⟨h.trans hstart.symm, hupcoming, rfl⟩
  | cons m' ms ih =>
      have hm' : ¬ m'.isPing = true := by
        rw [hping m' List.mem_cons_self]
        exact Bool.false_ne_true
      rw [Announces, if_neg hm'] at h
      rw [List.cons_append, Announces, if_neg hm']
      exact ih h fun q hq => hping q (List.mem_cons_of_mem m' hq)

/-- When the messages bring nothing new, the client has the start already. -/
theorem Announces.start_eq (h : n.Announces start ms)
    (hsame : ∀ m ∈ ms, m.isPing = false → m.start = start) : start = n.start := by
  induction ms with
  | nil => exact h
  | cons m ms ih =>
      unfold Announces at h
      split_ifs at h with hping
      · exact h.1
      · have hm : m.start = start := hsame m List.mem_cons_self (Bool.eq_false_iff.mpr hping)
        rw [hm] at h
        exact ih h fun q hq => hsame q (List.mem_cons_of_mem m hq)

end Numbering

/-! ## The numbers of `Execute` -/

def EOClient.numbering (c : EOClient) : Numbering := ⟨c.seqStart, c.upcomingSeqStart, c.seq⟩

theorem family_ofData_body (p : NumberedPacket) :
    (PacketReader.ofData p.body).family = p.family := by
  simp [PacketReader.family, PacketReader.ofData, PacketReader.length, NumberedPacket.body, byteAt]

theorem action_ofData_body (p : NumberedPacket) :
    (PacketReader.ofData p.body).action = p.action := by
  simp [PacketReader.action, PacketReader.ofData, PacketReader.length, NumberedPacket.body, byteAt]

/-- The number is read as it was written. -/
theorem read_number (p : NumberedPacket) (hinit : p.family ≠ PacketFamily.fInit.toByte)
    (hnumber : 0 ≤ p.number ∧ p.number ≤ 1766) :
    ∃ clientSeq : ℕ, ∃ pos : ℕ, (clientSeq : ℤ) = p.number ∧
      (if 253 ≤ p.number then (PacketReader.ofData p.body).getShort
        else (PacketReader.ofData p.body).getChar) = some (clientSeq, ⟨p.body, pos⟩) := by
  have hcast : (p.number.toNat : ℤ) = p.number := Int.toNat_of_nonneg hnumber.1
  by_cases hbig : 253 ≤ p.number
  · have hbody : p.body = [p.action, p.family] ++
        ((PacketProcessor.eNumber p.number.toNat).take 2 ++ p.payload) := by
      simp only [NumberedPacket.body, if_neg hinit, if_pos hbig, List.append_assoc]
    have hread := getNumber_eNumber (n := p.number.toNat) (k := 2) (by decide) (by decide)
      (by omega) [p.action, p.family] p.payload
    rw [before, after, ← hbody] at hread
    refine ⟨p.number.toNat, 2 + 2, hcast, ?_⟩
    rw [if_pos hbig, PacketReader.getShort, PacketReader.ofData]
    change Option.map _ (PacketReader.getNumber ⟨p.body, [p.action, p.family].length⟩ 2) = _
    rw [hread, Option.map_some]
    simp only [Nat.mod_eq_of_lt (show p.number.toNat < 2 ^ 16 by omega)]
    rfl
  · have hbody : p.body = [p.action, p.family] ++
        ((PacketProcessor.eNumber p.number.toNat).take 1 ++ p.payload) := by
      simp only [NumberedPacket.body, if_neg hinit, if_neg hbig, List.append_assoc]
    have hread := getNumber_eNumber (n := p.number.toNat) (k := 1) (by decide) (by decide)
      (by omega) [p.action, p.family] p.payload
    rw [before, after, ← hbody] at hread
    refine ⟨p.number.toNat, 2 + 1, hcast, ?_⟩
    rw [if_neg hbig, PacketReader.getChar, PacketReader.ofData]
    change Option.map _ (PacketReader.getNumber ⟨p.body, [p.action, p.family].length⟩ 1) = _
    rw [hread, Option.map_some]
    simp only [Nat.mod_eq_of_lt (show p.number.toNat < 2 ^ 8 by omega)]
    rfl

/-- `Execute` queues a packet with the right number and goes on to the next. -/
theorem executeBody_of_accepts {c : EOClient} (env : TickEnv) {p : NumberedPacket}
    (hconnected : c.connected = true) (hp : c.numbering.Accepts p)
    (hnumber : 0 ≤ p.number ∧ p.number ≤ 1766) :
    ∃ c' pos, c.executeBody env p.body = some c' ∧ c'.connected = true ∧
      c'.numbering = c.numbering.next p ∧ c'.queue = c.queue ++ [⟨⟨p.body, pos⟩, 20, true⟩] := by
  obtain ⟨hfamily, hright⟩ := hp
  unfold EOClient.executeBody
  rw [if_neg (by rw [hconnected]; exact Bool.true_eq_false_eq_False)]
  simp only [family_ofData_body, action_ofData_body, if_neg hfamily]
  by_cases hinit : p.family = PacketFamily.fInit.toByte
  · have hpong : p.isPong = false := by
      rw [NumberedPacket.isPong, hinit]
      exact decide_eq_false fun h => absurd h.1 (by decide)
    rw [if_neg (not_not.mpr hinit)]
    refine ⟨_, 2, rfl, hconnected, ?_, rfl⟩
    simp only [EOClient.numbering, Numbering.next, Numbering.enter, hpong]
    rfl
  · rw [if_pos hinit]
    set c₁ := if p.family = PacketFamily.connection.toByte ∧
      p.action = PacketAction.ping.toByte then c.pongNewSequence else c with hc₁
    have henter : c₁.numbering = c.numbering.enter p := by
      rw [hc₁, Numbering.enter, NumberedPacket.isPong]
      by_cases hpong : p.family = PacketFamily.connection.toByte ∧
          p.action = PacketAction.ping.toByte
      · rw [if_pos hpong, if_pos (decide_eq_true hpong)]
        rfl
      · rw [if_neg hpong, if_neg (by simpa using hpong)]
    have hsame : c₁.connected = true ∧ c₁.queue = c.queue ∧ c₁.seq = c.seq := by
      rw [hc₁]
      split_ifs <;> exact ⟨hconnected, rfl, rfl⟩
    have hseq : c₁.seqStart + c₁.seq = p.number := by
      rw [hright hinit, ← henter]
      rfl
    obtain ⟨clientSeq, pos, hclient, hread⟩ := read_number p hinit hnumber
    refine ⟨{ c₁ with seq := (c₁.seq + 1) % 10 }.addAction ⟨p.body, pos⟩, pos, ?_, hsame.1, ?_, ?_⟩
    · simp only [EOClient.genSequence, hseq]
      split_ifs at hread ⊢ with hbig <;>
        simp only [hread, Option.bind_eq_bind, Option.bind_some, hclient, ne_eq,
          not_true_eq_false, and_false, if_false]
    · rw [Numbering.next, ← henter]
      simp only [EOClient.numbering, EOClient.addAction, hsame.2.2]
    · simp only [EOClient.addAction, hsame.2.1]

namespace ActionQueueAction

def isPong (a : ActionQueueAction) : Bool :=
  a.reader.family = PacketFamily.connection.toByte ∧ a.reader.action = PacketAction.ping.toByte

end ActionQueueAction

namespace SequenceState

/-- No ping is on its way, and no pong. -/
def NoPing (s : SequenceState) : Prop :=
  (∀ m ∈ s.toClient, m.isPing = false) ∧ ∀ p ∈ s.toServer, p.isPong = false

instance (s : SequenceState) : Decidable s.NoPing := inferInstanceAs (Decidable (_ ∧ _))

/-- A start that the server takes at once meets no ping, pong or packet on its way, and the
client waits for a start that is new. -/
def KeepsStart (s : SequenceState) : SequenceStep → Prop
  | .pump (.initOk ..) => s.NoPing ∧ s.toServer = []
  | .pump (.accountOk _) => s.NoPing ∧ (s.server.seqStart > 240 → s.toServer = [])
  | .send .. => ∀ m ∈ s.toClient, m.isPing = false → m.start = s.start
  | .pump .other | .ping .. | .receive | .close | .deliver => True

instance (s : SequenceState) : ∀ t, Decidable (s.KeepsStart t)
  | .pump (.initOk ..) => inferInstanceAs (Decidable (s.NoPing ∧ s.toServer = []))
  | .pump (.accountOk _) => inferInstanceAs
      (Decidable (s.NoPing ∧ (s.server.seqStart > 240 → s.toServer = [])))
  | .send .. => inferInstanceAs
      (Decidable (∀ m ∈ s.toClient, m.isPing = false → m.start = s.start))
  | .pump .other | .ping .. | .receive | .close | .deliver => inferInstanceAs (Decidable True)

def AllKeepStart (env : TickEnv) (s : SequenceState) : List SequenceStep → Prop
  | [] => True
  | t :: steps => s.KeepsStart t ∧ ∀ s' ∈ s.step env t, s'.AllKeepStart env steps

instance decidableAllKeepStart (env : TickEnv) (s : SequenceState) :
    ∀ steps, Decidable (s.AllKeepStart env steps)
  | [] => inferInstanceAs (Decidable True)
  | t :: steps =>
      have (s' : SequenceState) : Decidable (s'.AllKeepStart env steps) :=
        decidableAllKeepStart env s' steps
      inferInstanceAs (Decidable (s.KeepsStart t ∧ ∀ s' ∈ s.step env t, s'.AllKeepStart env steps))

/-- Pings and pongs that the server has not handled. -/
def pings (s : SequenceState) : ℕ :=
  s.toClient.countP (·.isPing) + s.toServer.countP (·.isPong) + s.server.queue.countP (·.isPong)

structure Agrees (s : SequenceState) : Prop where
  accepts : s.server.numbering.AcceptsAll s.toServer
  numbers : ∀ p ∈ s.toServer, 0 ≤ p.number ∧ p.number ≤ 1766
  count : (s.server.numbering.after s.toServer).count = s.count
  count_lt : 0 ≤ s.server.seq ∧ s.server.seq ≤ 9
  announces : (s.server.numbering.after s.toServer).Announces s.start s.toClient
  single : s.pings ≤ s.needpong.toNat
  serverStart : 0 ≤ s.server.seqStart ∧ s.server.seqStart ≤ 1757
  pongStart : ∀ p ∈ s.toServer, p.isPong = true →
    0 ≤ s.server.upcomingSeqStart ∧ s.server.upcomingSeqStart ≤ 1757
  start : 0 ≤ s.start ∧ s.start ≤ 1757
  starts : ∀ m ∈ s.toClient, 0 ≤ m.start ∧ m.start ≤ 1757

/-- Nothing has been refused, and both sides agree while they are connected. -/
structure Accepting (s : SequenceState) : Prop where
  rejected : s.rejected = false
  agrees : s.server.connected = true → s.Agrees

variable {env : TickEnv} {s s' : SequenceState}

theorem Agrees.count_bounds (h : s.Agrees) : 0 ≤ s.count ∧ s.count ≤ 9 := by
  rw [← h.count]
  exact Numbering.count_after _ _ h.count_lt

theorem Agrees.noPing (h : s.Agrees) (hidle : s.needpong = false) :
    s.NoPing ∧ ∀ a ∈ s.server.queue, a.isPong = false := by
  have hzero := h.single
  rw [hidle, pings] at hzero
  have hclient : s.toClient.countP (·.isPing) = 0 := by simp only [Bool.toNat_false] at hzero; omega
  have hserver : s.toServer.countP (·.isPong) = 0 := by simp only [Bool.toNat_false] at hzero; omega
  have hqueue : s.server.queue.countP (·.isPong) = 0 := by
    simp only [Bool.toNat_false] at hzero
    omega
  rw [List.countP_eq_zero] at hclient hserver hqueue
  exact ⟨⟨fun m hm => Bool.eq_false_iff.mpr (hclient m hm),
    fun p hp => Bool.eq_false_iff.mpr (hserver p hp)⟩,
    fun a ha => Bool.eq_false_iff.mpr (hqueue a ha)⟩

/-! ## The numbers in messages -/

theorem start_ping (start s1 : ℤ) (hs1 : start ≤ s1 ∧ s1 ≤ start + 252)
    (hstart : 0 ≤ start ∧ start ≤ 1757) :
    (StartMessage.ping (UInt16.ofInt s1) (UInt8.ofInt (s1 - start))).start = start := by
  have h₁ : (UInt16.ofInt s1).toNat = s1.toNat := by
    rw [UInt16.ofInt, UInt16.toNat_ofNat']
    omega
  have h₂ : (UInt8.ofInt (s1 - start)).toNat = (s1 - start).toNat := by
    rw [UInt8.ofInt, UInt8.toNat_ofNat']
    omega
  rw [StartMessage.start, h₁, h₂]
  omega

theorem start_initReply (c : EOClient) (s1 : ℤ) (hs1 : c.InitByteRange s1)
    (hstart : 0 ≤ c.seqStart ∧ c.seqStart ≤ 1757) :
    (StartMessage.initReply (c.getSeqInitBytes s1).1 (c.getSeqInitBytes s1).2).start =
      c.seqStart := by
  obtain ⟨hlow, hhigh⟩ := hs1
  have hlow' : c.seqStart - 239 ≤ s1 * 7 := by
    by_cases hneg : 0 ≤ c.seqStart - 252 + 13 + 6
    · rw [Int.tdiv_eq_ediv_of_nonneg hneg] at hlow
      omega
    · omega
  have hzero : 0 ≤ s1 := le_trans (le_max_left _ _) hlow
  rw [Int.tdiv_eq_ediv_of_nonneg (by omega)] at hhigh
  have h₁ : (UInt8.ofInt s1).toNat = s1.toNat := by
    rw [UInt8.ofInt, UInt8.toNat_ofNat']
    omega
  have h₂ : (UInt8.ofInt (c.seqStart - s1 * 7 + 13)).toNat = (c.seqStart - s1 * 7 + 13).toNat := by
    rw [UInt8.ofInt, UInt8.toNat_ofNat']
    omega
  rw [EOClient.getSeqInitBytes, StartMessage.start, h₁, h₂]
  omega

theorem start_accountReply (start : ℤ) (hstart : 0 ≤ start ∧ start ≤ 240) :
    (StartMessage.accountReply (UInt8.ofInt start)).start = start := by
  rw [StartMessage.start, UInt8.ofInt, UInt8.toNat_ofNat']
  omega

/-! ## Steps of the server -/

theorem Accepting.ping (h : s.Accepting) {start s1 : ℤ} (hstep : s.ping start s1 = some s') :
    s'.Accepting := by
  unfold SequenceState.ping at hstep
  by_cases hneed : s.needpong = true
  · rw [if_pos hneed] at hstep
    cases hstep
    exact ⟨h.rejected, fun hconnected => nomatch hconnected⟩
  · rw [if_neg hneed] at hstep
    simp only [Option.ite_none_right_eq_some, Option.some.injEq] at hstep
    obtain ⟨hrange, rfl⟩ := hstep
    refine ⟨h.rejected, fun hconnected => ?_⟩
    have h := h.agrees hconnected
    have hneed : s.needpong = false := Bool.eq_false_iff.mpr hneed
    obtain ⟨⟨hclient, hserver⟩, hqueue⟩ := h.noPing hneed
    obtain ⟨hstart, hcount, haccepts⟩ := Numbering.after_of_no_pong (n := s.server.numbering)
      hserver (s.server.pingNewSequence start).numbering rfl rfl
    obtain ⟨hstart₀, -, -⟩ := Numbering.after_of_no_pong (n := s.server.numbering)
      hserver s.server.numbering rfl rfl
    have hvalue : (StartMessage.ping ((s.server.pingNewSequence start).getSeqUpdateBytes s1).1
        ((s.server.pingNewSequence start).getSeqUpdateBytes s1).2).start = start :=
      start_ping start s1 hrange.2 hrange.1
    refine ⟨haccepts h.accepts, h.numbers, hcount.trans h.count, h.count_lt, ?_, ?_,
      h.serverStart, ?_, h.start, ?_⟩
    · apply h.announces.ping hclient rfl (hstart.trans hstart₀.symm)
      rw [hvalue, Numbering.upcoming_after]
      rfl
    · have hsingle := h.single
      rw [hneed] at hsingle
      simp only [pings, List.countP_append, List.countP_singleton, StartMessage.isPing,
        Bool.toNat_false, Bool.toNat_true, EOClient.pingNewSequence, if_true] at hsingle ⊢
      omega
    · intro p hp hpong
      rw [hserver p hp] at hpong
      cases hpong
    · intro m hm
      rcases List.mem_append.mp hm with hold | hnew
      · exact h.starts m hold
      · rw [List.mem_singleton.mp hnew, hvalue]
        exact hrange.1

theorem Accepting.receive (h : s.Accepting) (hstep : s.receive env = some s') :
    s'.Accepting := by
  unfold SequenceState.receive at hstep
  cases hserver : s.toServer with
  | nil =>
      rw [hserver] at hstep
      cases hstep
  | cons p rest =>
      simp only [hserver, Option.bind_eq_bind, Option.bind_eq_some_iff, Option.pure_def,
        Option.some.injEq] at hstep
      obtain ⟨server, hexecute, rfl⟩ := hstep
      by_cases hconnected : s.server.connected = true
      · have h' := h.agrees hconnected
        have haccepts := h'.accepts
        rw [hserver] at haccepts
        have hnumber := h'.numbers p (by rw [hserver]; exact List.mem_cons_self)
        obtain ⟨c', pos, hc', hconnected', hnumbering, hqueue⟩ :=
          executeBody_of_accepts env hconnected haccepts.1 hnumber
        rw [hexecute, Option.some.injEq] at hc'
        subst hc'
        have hafter : server.numbering.after rest = s.server.numbering.after s.toServer := by
          rw [hserver, hnumbering]
          rfl
        refine ⟨?_, fun _ => ⟨?_, ?_, ?_, ?_, ?_, ?_, ?_, ?_, h'.start, h'.starts⟩⟩
        · simp only [h.rejected, hconnected']
          simp
        · rw [hnumbering]
          exact haccepts.2
        · intro q hq
          exact h'.numbers q (by rw [hserver]; exact List.mem_cons_of_mem p hq)
        · rw [hafter]
          exact h'.count
        · have hcount : server.seq = (s.server.seq + 1) % 10 := congrArg Numbering.count hnumbering
          rw [hcount]
          omega
        · rw [hafter]
          exact h'.announces
        · have hsingle := h'.single
          have hpong : ActionQueueAction.isPong ⟨⟨p.body, pos⟩, 20, true⟩ = p.isPong := by
            have hfamily : PacketReader.family ⟨p.body, pos⟩ = p.family := family_ofData_body p
            have haction : PacketReader.action ⟨p.body, pos⟩ = p.action := action_ofData_body p
            simp only [ActionQueueAction.isPong, NumberedPacket.isPong, hfamily, haction]
          simp only [pings, hserver, hqueue, List.countP_append, List.countP_cons,
            List.countP_nil, hpong] at hsingle ⊢
          omega
        · have hstart : server.seqStart = ((s.server.numbering).enter p).start :=
            congrArg Numbering.start hnumbering
          rw [hstart, Numbering.enter]
          split_ifs with hpong
          · exact h'.pongStart p (by rw [hserver]; exact List.mem_cons_self) hpong
          · exact h'.serverStart
        · intro q hq hpong
          have hupcoming : server.upcomingSeqStart = s.server.upcomingSeqStart := by
            have heq := congrArg Numbering.upcoming hnumbering
            exact heq.trans (Numbering.upcoming_after s.server.numbering [p])
          rw [hupcoming]
          exact h'.pongStart q (by rw [hserver]; exact List.mem_cons_of_mem p hq) hpong
      · rw [EOClient.executeBody, if_pos (Bool.eq_false_iff.mpr hconnected),
          Option.some.injEq] at hexecute
        subst hexecute
        refine ⟨?_, fun hyes => absurd hyes hconnected⟩
        simp only [h.rejected, Bool.eq_false_iff.mpr hconnected]
        simp

theorem announces_single (n : Numbering) (m : StartMessage) (start : ℤ)
    (hm : m.isPing = false) (hstart : m.start = n.start) : n.Announces start [m] := by
  have hnone : ∀ m' ∈ ([] : List StartMessage), m'.isPing = false := fun _ h => by cases h
  exact Numbering.announces_append hnone hm hstart start

theorem Accepting.pump (h : s.Accepting) {handler : SequenceHandler}
    (hkeeps : s.KeepsStart (.pump handler)) (hstep : s.pump handler = some s') :
    s'.Accepting := by
  unfold SequenceState.pump at hstep
  cases hqueue : s.server.queue with
  | nil =>
      rw [hqueue] at hstep
      cases hstep
  | cons a queue =>
      rw [hqueue] at hstep
      have hsingle (h : s.Agrees) : s.toClient.countP (·.isPing) + s.toServer.countP (·.isPong) +
          queue.countP (·.isPong) + (if a.isPong then 1 else 0) ≤ s.needpong.toNat := by
        have hsingle := h.single
        simp only [pings, hqueue, List.countP_cons] at hsingle
        omega
      cases handler with
      | initOk start s1 =>
          obtain ⟨⟨hclient, -⟩, hserver⟩ := hkeeps
          simp only [Option.ite_none_right_eq_some, initInit, Option.some.injEq] at hstep
          obtain ⟨-, ⟨hstart, hrange⟩, rfl⟩ := hstep
          refine ⟨h.rejected, fun hconnected => ?_⟩
          have h := h.agrees hconnected
          have hvalue := start_initReply _ s1 hrange hstart
          have hcount := h.count
          rw [hserver] at hcount
          refine ⟨?_, h.numbers, ?_, h.count_lt, ?_, ?_, hstart, h.pongStart, h.start, ?_⟩
          · simp only [hserver]
            trivial
          · simp only [hserver]
            exact hcount
          · simp only [hserver]
            exact Numbering.announces_append hclient rfl hvalue s.start
          · have hle := hsingle h
            simp only [pings, List.countP_append, EOClient.initNewSequence]
            change _ + 0 + _ + _ ≤ _
            omega
          · intro m hm
            rcases List.mem_append.mp hm with hold | hnew
            · exact h.starts m hold
            · rw [List.mem_singleton.mp hnew, hvalue]
              exact hstart
      | accountOk start =>
          obtain ⟨⟨hclient, hnopong⟩, hempty⟩ := hkeeps
          simp only [Option.ite_none_right_eq_some, accountRequest, Option.some.injEq] at hstep
          obtain ⟨-, hrange, rfl⟩ := hstep
          refine ⟨h.rejected, fun hconnected => ?_⟩
          by_cases hbig : s.server.seqStart > 240
          · simp only [if_pos hbig] at hconnected ⊢
            have h := h.agrees hconnected
            have hserver := hempty hbig
            have hvalue := start_accountReply start hrange
            have hcount := h.count
            rw [hserver] at hcount
            refine ⟨?_, h.numbers, ?_, h.count_lt, ?_, ?_, ?_, h.pongStart, h.start, ?_⟩
            · simp only [hserver]
              trivial
            · simp only [hserver]
              exact hcount
            · simp only [hserver]
              exact Numbering.announces_append hclient rfl hvalue s.start
            · have hle := hsingle h
              simp only [pings, List.countP_append, EOClient.accountReplyNewSequence]
              change _ + 0 + _ + _ ≤ _
              omega
            · change 0 ≤ start ∧ start ≤ 1757
              omega
            · intro m hm
              rcases List.mem_append.mp hm with hold | hnew
              · exact h.starts m hold
              · have hm : m.start = start := by
                  rw [List.mem_singleton.mp hnew]
                  exact hvalue
                omega
          · simp only [if_neg hbig] at hconnected ⊢
            have h := h.agrees hconnected
            have hvalue := start_accountReply s.server.seqStart ⟨h.serverStart.1, by omega⟩
            obtain ⟨hstart, -, -⟩ := Numbering.after_of_no_pong (n := s.server.numbering)
              hnopong s.server.numbering rfl rfl
            refine ⟨h.accepts, h.numbers, h.count, h.count_lt, ?_, ?_, h.serverStart, h.pongStart,
              h.start, ?_⟩
            · exact Numbering.announces_append hclient rfl (hvalue.trans hstart.symm) s.start
            · have hle := hsingle h
              simp only [pings, List.countP_append]
              change _ + 0 + _ + _ ≤ _
              omega
            · intro m hm
              rcases List.mem_append.mp hm with hold | hnew
              · exact h.starts m hold
              · have hm : m.start = s.server.seqStart := by
                  rw [List.mem_singleton.mp hnew]
                  exact hvalue
                rw [hm]
                exact h.serverStart
      | other =>
          simp only at hstep
          by_cases hpong : a.reader.family = PacketFamily.connection.toByte ∧
              a.reader.action = PacketAction.ping.toByte
          · rw [if_pos hpong] at hstep
            simp only [connectionPing, Option.bind_eq_bind, Option.bind_eq_some_iff,
              Option.pure_def] at hstep
            obtain ⟨⟨reply, reader⟩, -, hstep⟩ := hstep
            split_ifs at hstep
            · cases hstep
              exact ⟨h.rejected, fun hconnected => nomatch hconnected⟩
            · cases hstep
              refine ⟨h.rejected, fun hconnected => ?_⟩
              have h := h.agrees hconnected
              refine ⟨h.accepts, h.numbers, h.count, h.count_lt, h.announces, ?_, h.serverStart,
                h.pongStart, h.start, h.starts⟩
              have hle := hsingle h
              have ha : a.isPong = true := decide_eq_true hpong
              have hone := Bool.toNat_le s.needpong
              rw [if_pos ha] at hle
              simp only [pings, Bool.toNat_false]
              omega
          · rw [if_neg hpong] at hstep
            cases hstep
            refine ⟨h.rejected, fun hconnected => ?_⟩
            have h := h.agrees hconnected
            refine ⟨h.accepts, h.numbers, h.count, h.count_lt, h.announces, ?_, h.serverStart,
              h.pongStart, h.start, h.starts⟩
            have hle := hsingle h
            simp only [pings]
            omega

/-! ## Steps of the client -/

theorem Accepting.sendPacket (h : s.Accepting) {family action : UInt8} {payload : Bytes}
    (hinternal : family ≠ PacketFamily.internal.toByte)
    (hpong : NumberedPacket.isPong ⟨family, action, s.start + s.count, payload⟩ = false)
    (hnew : ∀ m ∈ s.toClient, m.isPing = false → m.start = s.start) :
    (s.sendPacket family action payload).Accepting := by
  refine ⟨h.rejected, fun hconnected => ?_⟩
  have h := h.agrees hconnected
  have hstart := h.announces.start_eq hnew
  have henter : ∀ n : Numbering, n.enter ⟨family, action, s.start + s.count, payload⟩ = n := by
    intro n
    rw [Numbering.enter, hpong]
    rfl
  have hcount := h.count_bounds
  refine ⟨?_, ?_, ?_, h.count_lt, ?_, ?_, h.serverStart, ?_, h.start, h.starts⟩
  · apply Numbering.acceptsAll_append.mpr
    refine ⟨h.accepts, hinternal, fun _ => ?_⟩
    change s.start + s.count = ((s.server.numbering.after s.toServer).enter _).number
    rw [henter, Numbering.number, ← hstart, h.count]
  · intro p hp
    rcases List.mem_append.mp hp with hold | hsent
    · exact h.numbers p hold
    · rw [List.mem_singleton.mp hsent]
      have hbounds := h.start
      change 0 ≤ s.start + s.count ∧ s.start + s.count ≤ 1766
      omega
  · rw [SequenceState.sendPacket, Numbering.after_append, Numbering.next]
    simp only [h.count]
  · apply h.announces.congr
    · rw [SequenceState.sendPacket, Numbering.after_append, Numbering.next, henter]
    · rw [SequenceState.sendPacket, Numbering.after_append, Numbering.next, henter]
  · have hsingle := h.single
    simp only [SequenceState.sendPacket, pings, List.countP_append, List.countP_singleton, hpong]
      at hsingle ⊢
    simpa using hsingle
  · intro p hp hyes
    rcases List.mem_append.mp hp with hold | hsent
    · exact h.pongStart p hold hyes
    · rw [List.mem_singleton.mp hsent, hpong] at hyes
      cases hyes

theorem Accepting.send (h : s.Accepting) {family action : UInt8} {payload : Bytes}
    (hkeeps : s.KeepsStart (.send family action payload))
    (hstep : s.send family action payload = some s') : s'.Accepting := by
  unfold SequenceState.send at hstep
  split_ifs at hstep with hnot
  · rw [Option.some.injEq] at hstep
    rw [← hstep]
    obtain ⟨hinternal, hpong⟩ := not_or.mp hnot
    exact h.sendPacket hinternal (decide_eq_false hpong) hkeeps

theorem Accepting.deliver (h : s.Accepting) (hstep : s.deliver = some s') : s'.Accepting := by
  unfold SequenceState.deliver at hstep
  cases hclient : s.toClient with
  | nil =>
      rw [hclient] at hstep
      cases hstep
  | cons m rest =>
      rw [hclient] at hstep
      simp only at hstep
      by_cases hping : m.isPing = true
      · rw [if_pos hping] at hstep
        cases hstep
        refine ⟨h.rejected, fun hconnected => ?_⟩
        have h := h.agrees hconnected
        have hannounces := h.announces
        rw [hclient, Numbering.Announces, if_pos hping, Numbering.upcoming_after] at hannounces
        obtain ⟨-, hupcoming, hrest⟩ := hannounces
        have hbounds := h.starts m (by rw [hclient]; exact List.mem_cons_self)
        have hcount := h.count_bounds
        have hserver : s.server.numbering.upcoming = s.server.upcomingSeqStart := rfl
        have hyes : NumberedPacket.isPong ⟨PacketFamily.connection.toByte,
            PacketAction.ping.toByte, m.start + s.count, [107]⟩ = true := by
          simp [NumberedPacket.isPong]
        refine ⟨?_, ?_, ?_, h.count_lt, ?_, ?_, h.serverStart, ?_, hbounds, ?_⟩
        · apply Numbering.acceptsAll_append.mpr
          refine ⟨h.accepts, ?_, fun _ => ?_⟩
          · change PacketFamily.connection.toByte ≠ PacketFamily.internal.toByte
            decide
          · change m.start + s.count = ((s.server.numbering.after s.toServer).enter _).number
            rw [Numbering.enter, if_pos hyes, Numbering.number, Numbering.upcoming_after, h.count,
              hupcoming]
        · intro p hp
          rcases List.mem_append.mp hp with hold | hsent
          · exact h.numbers p hold
          · rw [List.mem_singleton.mp hsent]
            change 0 ≤ m.start + s.count ∧ m.start + s.count ≤ 1766
            omega
        · rw [SequenceState.sendPacket, Numbering.after_append, Numbering.next]
          simp only [h.count]
        · rw [SequenceState.sendPacket, Numbering.after_append, Numbering.next, hrest,
            Numbering.Announces, Numbering.enter, if_pos hyes, Numbering.upcoming_after]
          exact hupcoming
        · have hsingle := h.single
          simp only [SequenceState.sendPacket, pings, hclient, hrest, List.countP_append,
            List.countP_cons, List.countP_nil, hping, hyes] at hsingle ⊢
          omega
        · intro p hp _
          change 0 ≤ s.server.upcomingSeqStart ∧ s.server.upcomingSeqStart ≤ 1757
          rw [← hserver, ← hupcoming]
          exact hbounds
        · intro q hq
          exact h.starts q (by rw [hclient]; exact List.mem_cons_of_mem m hq)
      · rw [if_neg hping] at hstep
        cases hstep
        refine ⟨h.rejected, fun hconnected => ?_⟩
        have h := h.agrees hconnected
        have hannounces := h.announces
        rw [hclient, Numbering.Announces, if_neg hping] at hannounces
        refine ⟨h.accepts, h.numbers, h.count, h.count_lt, hannounces, ?_, h.serverStart,
          h.pongStart, ?_, ?_⟩
        · have hsingle := h.single
          simp only [pings, hclient, List.countP_cons] at hsingle ⊢
          omega
        · exact h.starts m (by rw [hclient]; exact List.mem_cons_self)
        · intro q hq
          exact h.starts q (by rw [hclient]; exact List.mem_cons_of_mem m hq)

/-! ## Runs -/

theorem Accepting.step (h : s.Accepting) (t : SequenceStep) (hkeeps : s.KeepsStart t)
    (hstep : s.step env t = some s') : s'.Accepting := by
  cases t with
  | ping start s1 => exact h.ping hstep
  | receive => exact h.receive hstep
  | pump handler => exact h.pump hkeeps hstep
  | close =>
      cases hstep
      exact ⟨h.rejected, fun hconnected => nomatch hconnected⟩
  | deliver => exact h.deliver hstep
  | send family action payload => exact h.send hkeeps hstep

theorem Accepting.run (h : s.Accepting) (steps : List SequenceStep)
    (hkeeps : s.AllKeepStart env steps) (hrun : s.run env steps = some s') : s'.Accepting := by
  induction steps generalizing s with
  | nil =>
      cases hrun
      exact h
  | cons t steps ih =>
      obtain ⟨s₁, hs₁, hrest⟩ := Option.bind_eq_some_iff.mp hrun
      exact ih (h.step t hkeeps.1 hs₁) (hkeeps.2 s₁ hs₁) hrest

theorem accepting_connected (client : Client) : (connected client).Accepting := by
  have hzero : (0 : ℤ) ≤ 0 ∧ (0 : ℤ) ≤ 1757 := by decide
  refine ⟨rfl, fun _ => ⟨trivial, ?_, rfl, ⟨le_rfl, ?_⟩, rfl, le_rfl, hzero, ?_, hzero, ?_⟩⟩
  · intro p hp
    cases hp
  · change (0 : ℤ) ≤ 9
    decide
  · intro p hp
    cases hp
  · intro m hm
    cases hm

/-- The server refuses no packet of a client that follows the protocol. -/
theorem not_rejected_of_keepsStart (client : Client) (steps : List SequenceStep)
    (hkeeps : (connected client).AllKeepStart env steps)
    (hrun : (connected client).run env steps = some s) : s.rejected = false :=
  ((accepting_connected client).run steps hkeeps hrun).rejected

def enforcing : TickEnv := ⟨true, false, none⟩

/-- The first packet, whose reply brings the start 1000. -/
def initialized : List SequenceStep :=
  [.send 255 255 [], .receive, .pump (.initOk 1000 144), .deliver]

/-- An account request, a ping, its answer and another request. -/
def pingLater : List SequenceStep :=
  initialized ++ [.send 2 1 [97], .receive, .pump (.accountOk 5), .ping 900 950, .deliver,
    .send 2 1 [98], .deliver, .receive, .receive, .pump .other, .pump .other, .send 2 1 [99],
    .receive, .pump (.accountOk 7)]

theorem not_rejected_of_keepsStart_pingLater :
    ∃ s, (connected Client.new).run enforcing pingLater = some s ∧ s.rejected = false := by
  have hsome : ((connected Client.new).run enforcing pingLater).isSome = true := by
    decide
  obtain ⟨s, hs⟩ := Option.isSome_iff_exists.mp hsome
  have hkeeps : (connected Client.new).AllKeepStart enforcing pingLater := by decide
  exact ⟨s, hs, not_rejected_of_keepsStart Client.new pingLater hkeeps hs⟩

/-- A second request is on its way when the first one changes the start. -/
def requestTwice : List SequenceStep :=
  initialized ++ [.send 2 1 [97], .send 2 1 [98], .receive, .pump (.accountOk 5), .receive]

theorem rejected_requestTwice :
    ∃ s, (connected Client.new).run enforcing requestTwice = some s ∧ s.rejected = true := by
  have hrun : ((connected Client.new).run enforcing requestTwice).map (·.rejected) =
      some true := by
    decide
  obtain ⟨s, hs, hview⟩ := Option.map_eq_some_iff.mp hrun
  exact ⟨s, hs, hview⟩

end SequenceState

end ArenaServ
