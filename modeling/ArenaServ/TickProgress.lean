import ArenaServ.TickSession

/-!
# What ticks deliver, and when they get on

A tick with bytes to read takes at least one of them, unless it waits for the data of
a packet whose length is 0: then it asks for nothing, forever. Streams of frames never
lead there, and all their bodies are executed in order.
-/

namespace ArenaServ
open PacketProcessor FrameParser

theorem digit_eq_zero_iff (b : UInt8) : digit b = 0 ↔ b = 1 ∨ b = 254 := by
  revert b
  decide +kernel

/-- The length prefixes that stand for 0. -/
theorem frameLength_eq_zero_iff (a b : UInt8) :
    frameLength a b = 0 ↔ (a = 1 ∨ a = 254) ∧ (b = 1 ∨ b = 254) := by
  have h254 : digit 254 = 0 := (digit_eq_zero_iff 254).mpr (by decide)
  have hmax : 0 < max1 := by decide
  rw [frameLength, number, h254, ← digit_eq_zero_iff a, ← digit_eq_zero_iff b]
  constructor
  · intro h
    have hb : digit b * max1 = 0 := by omega
    rcases Nat.mul_eq_zero.mp hb with h0 | h0
    · exact ⟨by omega, h0⟩
    · omega
  · rintro ⟨ha, hb⟩
    rw [ha, hb]
    simp

/-- Waiting for the data of a packet of length 0. -/
def EOClient.Wedged (c : EOClient) : Prop := c.packetState = .readData ∧ c.length = 0

namespace Session

variable {s s' : Session} {j k : ℕ} {q : Bytes}

/-- Some number of ticks, whatever the configuration, takes a byte from the buffer. -/
def Progresses (s : Session) : Prop :=
  ∃ n, ∀ envs : List TickEnv, envs.length = n → ∃ s', s.run (envs.map .tick) = some s' ∧
    s'.client.recvBuffer.used < s.client.recvBuffer.used

theorem wedged_iff_phase : s.client.Wedged ↔ ∃ acc, s.client.phase = .body 0 acc := by
  rw [EOClient.Wedged, EOClient.phase]
  cases s.client.packetState <;> simp

theorem request_pos (h : ¬ s.client.Wedged) : 0 < s.client.request := by
  rw [EOClient.request]
  split_ifs with hstate
  · exact Nat.pos_of_ne_zero fun hzero => h ⟨hstate, hzero⟩
  · exact Nat.one_pos

theorem Framed.used_eq (h : s.Framed j q) : s.client.recvBuffer.used = q.length := h.recv.used_eq

/-- Away from a wedge one tick is enough. -/
theorem Framed.progresses (h : s.Framed j q) (hup : s.client.uploadFh = none) (hq : q ≠ [])
    (hw : ¬ s.client.Wedged) : s.Progresses := by
  refine ⟨1, fun envs henvs => ?_⟩
  obtain ⟨env, rfl⟩ := List.length_eq_one_iff.mp henvs
  obtain ⟨s', hs', hframed, -, -⟩ := h.tick hup env
  refine ⟨s', ?_, ?_⟩
  · simp [Session.run, hs']
  · have hpos := request_pos hw
    have hlen := List.length_pos_iff.mpr hq
    rw [hframed.used_eq, h.used_eq, List.length_drop]
    omega

/-- A wedged client is left as it is by every tick. -/
theorem step_tick_of_wedged (hup : s.client.uploadFh = none) (hw : s.client.Wedged)
    (env : TickEnv) : s.step (.tick env) = some s := by
  have hreq : s.client.request = 0 := by
    rw [EOClient.request, if_pos hw.1]
    exact hw.2
  have hrecv : s.client.toClient.recv 0 = ([], s.client.toClient) := by
    simp [Client.recv, RingBuffer.readFrom]
  have htick : s.client.tick env = some (s.client, []) := by
    rw [EOClient.tick]
    simp only [hup, hreq, hrecv]
    rw [← hup]
    exact EOClient.readLoop_nil s.client env 0
  rw [step, htick]
  simp

theorem run_ticks_of_wedged (hup : s.client.uploadFh = none) (hw : s.client.Wedged)
    (envs : List TickEnv) : s.run (envs.map .tick) = some s := by
  induction envs with
  | nil => rfl
  | cons env envs ih =>
      rw [List.map_cons, Session.run, step_tick_of_wedged hup hw, Option.bind_some, ih]

theorem not_progresses_of_wedged (hup : s.client.uploadFh = none) (hw : s.client.Wedged) :
    ¬ s.Progresses := by
  rintro ⟨n, hn⟩
  obtain ⟨s', hs', hlt⟩ := hn (List.replicate n ⟨false, false, none⟩) List.length_replicate
  rw [run_ticks_of_wedged hup hw] at hs'
  cases hs'
  exact lt_irrefl _ hlt

/-- In every reachable state with unread bytes and no upload, ticks get on exactly when
the client is not wedged; it is not when no length prefix received stands for 0. -/
theorem progresses_iff_not_wedged (events : List Event)
    (hs : (start j k).run events = some s) (hup : s.client.uploadFh = none)
    (hused : 2 ≤ s.client.recvBuffer.used) :
    (s.Progresses ↔ ¬ s.client.Wedged) ∧
      ((∀ bytes, bytes <+: s.received → ∀ acc,
        (feedAll frameLength .first bytes).1 ≠ .body 0 acc) → s.Progresses) := by
  obtain ⟨q, hq⟩ := (framed_start j k).run hs
  have hne : q ≠ [] := by
    rw [hq.used_eq] at hused
    exact List.length_pos_iff.mp (by omega)
  have hprogress := hq.progresses hup hne
  refine ⟨⟨fun hp hw => not_progresses_of_wedged hup hw hp, hprogress⟩, ?_⟩
  intro hstream
  obtain ⟨consumed, hbytes, hparsed⟩ := hq.parsed
  refine hprogress fun hw => ?_
  obtain ⟨acc, hacc⟩ := wedged_iff_phase.mp hw
  refine hstream consumed ⟨q, hbytes.symm⟩ acc ?_
  rw [hparsed]
  exact hacc

theorem progresses_iff_not_wedged_twoBytes :
    ∃ s, (start 3 3).run [.doRecv [3, 254]] = some s ∧ s.Progresses :=
  ⟨_, rfl, (progresses_iff_not_wedged (j := 3) (k := 3) [.doRecv [3, 254]] rfl rfl
    (by decide)).1.mpr fun h => absurd h.1 (by decide)⟩

/-- A length of 0 and two more bytes, then the ticks that read the length. -/
def zeroLengthEvents : List Event :=
  [.doRecv [254, 254, 1, 1], .tick ⟨true, false, none⟩, .tick ⟨true, false, none⟩]

theorem not_progresses_zeroLengthEvents :
    ∃ s, (start 3 3).run zeroLengthEvents = some s ∧ s.client.uploadFh = none ∧
      2 ≤ s.client.recvBuffer.used ∧ ¬ s.Progresses :=
  ⟨_, rfl, rfl, by decide, not_progresses_of_wedged rfl ⟨rfl, rfl⟩⟩

/-! ## Streams of frames -/

theorem Framed.run_ticks (h : s.Framed j q) (hup : s.client.uploadFh = none)
    (frames : List (Frame frameLength)) (hstream : s.received = frames.flatMap Frame.elems)
    (envs : List TickEnv) (henvs : q.length ≤ envs.length) :
    ∃ s', s.run (envs.map .tick) = some s' ∧ s'.Framed j [] ∧ s'.received = s.received := by
  induction envs generalizing s q with
  | nil =>
      have hnil : q = [] := List.length_eq_zero_iff.mp (Nat.le_zero.mp henvs)
      exact ⟨s, rfl, hnil ▸ h, rfl⟩
  | cons env envs ih =>
      obtain ⟨t, ht, hframed, hup', hsame⟩ := h.tick hup env
      have hw : ¬ s.client.Wedged := by
        intro hw
        obtain ⟨acc, hacc⟩ := wedged_iff_phase.mp hw
        obtain ⟨consumed, hbytes, hparsed⟩ := h.parsed
        have hpre : consumed <+: frames.flatMap Frame.elems := ⟨q, by rw [← hstream, hbytes]⟩
        refine fst_feedAll_frames_ne_body_zero frames hpre acc ?_
        rw [hparsed]
        exact hacc
      have hpos := request_pos hw
      have hshort : (q.drop s.client.request).length ≤ envs.length := by
        rw [List.length_drop]
        rw [List.length_cons] at henvs
        omega
      obtain ⟨s', hs', hdone, hrecv⟩ := ih hframed hup' (hsame.trans hstream) hshort
      exact ⟨s', by rw [List.map_cons, Session.run, ht, Option.bind_some, hs'], hdone,
        hrecv.trans hsame⟩

/-- When the buffer is empty after a stream of frames, all bodies have been executed. -/
theorem Framed.executed_eq (h : s.Framed j []) (frames : List (Frame frameLength))
    (hstream : s.received = frames.flatMap Frame.elems) :
    s.executed = frames.map Frame.body ∧ s.client.packetState = .readLen1 ∧
      s.client.data = [] := by
  obtain ⟨consumed, hbytes, hparsed⟩ := h.parsed
  rw [List.append_nil] at hbytes
  rw [← hbytes, hstream, feedAll_frames, Prod.mk.injEq] at hparsed
  obtain ⟨hphase, hexec⟩ := hparsed
  have hstate : s.client.packetState = .readLen1 := by
    rw [EOClient.phase] at hphase
    cases hcase : s.client.packetState with
    | readLen1 => rfl
    | readLen2 => simp [hcase] at hphase
    | readData => simp [hcase] at hphase
  exact ⟨hexec.symm, hstate, h.tidy (by rw [hstate]; decide)⟩

/-- However a stream of frames is cut into chunks and ticks: what is executed is always
a part of the bodies in order, and it is all of them once the ticks have caught up. -/
theorem executed_of_frames (j k : ℕ) (frames : List (Frame frameLength)) (events : List Event)
    (hquiet : ∀ e ∈ events, e.Quiet) :
    ∃ s, (start j k).run events = some s ∧
      (s.received <+: frames.flatMap Frame.elems → s.executed <+: frames.map Frame.body) ∧
      (s.received = frames.flatMap Frame.elems →
        (s.client.recvBuffer.used = 0 → s.executed = frames.map Frame.body ∧
          s.client.packetState = .readLen1 ∧ s.client.data = []) ∧
        ∀ envs : List TickEnv, s.client.recvBuffer.used ≤ envs.length →
          ∃ s', s.run (envs.map .tick) = some s' ∧ s'.client.recvBuffer.used = 0 ∧
            s'.executed = frames.map Frame.body ∧
            s'.client.packetState = .readLen1 ∧ s'.client.data = []) := by
  obtain ⟨s, hs, hup⟩ := (framed_start j k).run_quiet rfl hquiet
  obtain ⟨q, hq⟩ := (framed_start j k).run hs
  refine ⟨s, hs, ?_, ?_⟩
  · intro hpre
    obtain ⟨consumed, hbytes, hparsed⟩ := hq.parsed
    have hconsumed : consumed <+: frames.flatMap Frame.elems :=
      List.IsPrefix.trans ⟨q, hbytes.symm⟩ hpre
    have hout := snd_feedAll_prefix frameLength .first hconsumed
    rwa [hparsed, feedAll_frames] at hout
  · intro hstream
    refine ⟨?_, ?_⟩
    · intro hused
      have hnil : q = [] := List.length_eq_zero_iff.mp (hq.used_eq.symm.trans hused)
      rw [hnil] at hq
      exact hq.executed_eq frames hstream
    · intro envs henvs
      rw [hq.used_eq] at henvs
      obtain ⟨s', hs', hdone, hrecv⟩ := hq.run_ticks hup frames hstream envs henvs
      exact ⟨s', hs', hdone.used_eq, hdone.executed_eq frames (hrecv.trans hstream)⟩

/-- A payload behind the length prefix that `ENumber` gives it. -/
def frameOf (payload : Bytes) (hne : payload ≠ []) (hlt : payload.length < max2) :
    Frame frameLength where
  first := byteAt (eNumber payload.length) 0
  second := byteAt (eNumber payload.length) 1
  body := payload
  decode_eq := number_take_two hlt
  body_ne_nil := hne

/-- A pong of three bytes, cut between its length bytes and inside its data. -/
def pongFrame : Frame frameLength := frameOf [241, 1, 7] (by decide) (by decide)

def pongEvents : List Event :=
  [.doRecv [4], .tick ⟨true, false, none⟩, .doRecv [254, 241], .tick ⟨true, false, none⟩,
    .tick ⟨true, false, none⟩, .doRecv [1, 7]]

theorem executed_of_frames_pong :
    ∃ s, (start 3 3).run pongEvents = some s ∧
      ∃ s', s.run (List.map .tick (List.replicate 2 ⟨true, false, none⟩)) = some s' ∧
        s'.executed = [[241, 1, 7]] := by
  obtain ⟨s, hs, -, hall⟩ := executed_of_frames 3 3 [pongFrame] pongEvents (by decide)
  have hrecv : ((start 3 3).run pongEvents).map Session.received = some pongFrame.elems := by
    decide
  have hused : ((start 3 3).run pongEvents).map (·.client.recvBuffer.used) = some 2 := by
    decide
  rw [hs, Option.map_some, Option.some.injEq] at hrecv hused
  obtain ⟨s', hs', -, hexec, -⟩ := (hall (by simpa using hrecv)).2
    (List.replicate 2 ⟨true, false, none⟩) hused.le
  exact ⟨s, hs, s', hs', hexec⟩

end Session

end ArenaServ
