import ArenaServ.FairRuns
import ArenaServ.UploadOrder
import Mathlib.Tactic.IntervalCases

/-!
# A whole upload

Whatever the socket takes at a time, an upload sends its header and its file and comes to its end.
The buffer is a power of two with room for both, but a file that fills it up is not read into it in
one piece: the read position is at the last byte of the header, and the file is read behind it.
-/

namespace ArenaServ
open RunSteps

/-- What happens to a client during an upload: ticks, and writes that take as many bytes. -/
inductive PumpStep where
  | tick
  | write (accepts : ℕ)
  deriving DecidableEq, Repr

def PumpStep.sendStep : PumpStep → SendStep
  | tick => .tick
  | write accepts => .doSend accepts

namespace EOClient

/-- A step of an upload, with all that has been sent in it. Its end is the end. -/
def uploadStep (env : TickEnv) (s : EOClient × Bytes) (t : PumpStep) : Option (EOClient × Bytes) :=
  if s.1.uploadFh = none then some s
  else (s.1.sendStep env t.sendStep).map fun c => (c, s.2 ++ delivered s.1 t.sendStep)

/-- The client when the upload has been started, and nothing of it has been sent. -/
def started (c : EOClient) (type : FileType) (file : Bytes) (reply : UInt8) : EOClient × Bytes :=
  ((c.upload type (some file) reply).elim c (·.2), [])

/-- A tick always comes again, and so does a write that takes something. -/
structure Fair (f : ℕ → PumpStep) : Prop where
  ticks : ∀ i, ∃ j, i ≤ j ∧ f j = .tick
  writes : ∀ i, ∃ j, i ≤ j ∧ ∃ accepts, 0 < accepts ∧ f j = .write accepts

/-- All that is ever sent in an upload is its header and the file, all of it in the end, when the
send buffer is what it has been before. -/
structure UploadExact (env : TickEnv) (c : EOClient) (type : FileType) (file : Bytes)
    (reply : UInt8) : Prop where
  safe : ∀ steps, ∃ s, run (uploadStep env) (c.started type file reply) steps = some s ∧
    s.2 <+: (uploadHeader type reply file.length).get ++ file ∧
    (s.1.uploadFh = none → s.2 = (uploadHeader type reply file.length).get ++ file ∧
      s.1.sendBuffer = c.sendBuffer)
  ends : ∀ f, Fair f → ∃ n s, s.1.uploadFh = none ∧
    run (uploadStep env) (c.started type file reply) ((List.range n).map f) = some s

/-- A file that is not a map does not fill the buffer up behind its header, and a map that is to be
changed for PK is for somebody in the game. -/
def UploadRuns (env : TickEnv) (c : EOClient) (type : FileType) (file : Bytes) : Prop :=
  (type ≠ .fileMap → grow (file.length + 6) c.sendBuffer.size ≠ file.length + 6) ∧
    (file ≠ [] → type = .fileMap → env.globalPK = true → env.pkExcept ≠ none)

/-- An upload runs, and the file is not changed for PK on the way. -/
def UploadFits (env : TickEnv) (c : EOClient) (type : FileType) (file : Bytes) : Prop :=
  UploadRuns env c type file ∧ served env type file = file

/-- An upload that has `q` in its buffer and has not read `rest`. -/
structure Pumping (env : TickEnv) (type : FileType) (original : RingBuffer UInt8)
    (promise : Bytes) (s : EOClient × Bytes) (q rest : Bytes) : Prop where
  fh : s.1.uploadFh = some rest
  type_eq : s.1.uploadType = type
  aside : s.1.sendBuffer2 = original
  reads : ∃ k, s.1.sendBuffer.Represents k q ∧
    (s.1.Unread k q rest ∨ rest = [] ∧ s.1.uploadPos = s.1.uploadSize)
  chars : rest ≠ [] → type = .fileMap → env.globalPK = true → env.pkExcept ≠ none
  promised : promise = s.2 ++ q ++ served env type rest

/-- An upload that is over. -/
structure Pumped (original : RingBuffer UInt8) (promise : Bytes) (s : EOClient × Bytes) : Prop where
  fh : s.1.uploadFh = none
  restored : s.1.sendBuffer = original
  promised : promise = s.2

variable {env : TickEnv} {c : EOClient} {type : FileType} {reply : UInt8} {k : ℕ}
  {original : RingBuffer UInt8} {promise q rest file : Bytes} {s s' : EOClient × Bytes}

/-! ## Steps -/

theorem Pumping.not_over (h : Pumping env type original promise s q rest) :
    s.1.uploadFh ≠ none := by
  rw [h.fh]
  exact Option.some_ne_none rest

theorem Pumping.used_eq (h : Pumping env type original promise s q rest) :
    s.1.sendBuffer.used = q.length := by
  obtain ⟨k, hrep, -⟩ := h.reads
  exact hrep.used_eq

theorem Pumping.write (h : Pumping env type original promise s q rest) (accepts : ℕ) :
    ∃ s', uploadStep env s (.write accepts) = some s' ∧
      Pumping env type original promise s' (q.drop (min accepts s.1.toClient.toSend)) rest := by
  obtain ⟨k, hrep, hread⟩ := h.reads
  obtain ⟨hout, hrep', -⟩ := Client.doSend_spec hrep accepts
  refine ⟨_, by rw [uploadStep, if_neg h.not_over]; rfl, ?_⟩
  refine
    { fh := h.fh
      type_eq := h.type_eq
      aside := h.aside
      reads := ⟨k, hrep', ?_⟩
      chars := h.chars
      promised := ?_ }
  · rcases hread with hunread | hall
    · refine Or.inl ⟨hunread.pos, hunread.size, ?_⟩
      have hle : (s.1.toClient.doSend (some accepts)).2.2.sendBuffer.gpos ≤
          s.1.sendBuffer.gpos + min accepts s.1.toClient.toSend := by
        simp only [Client.doSend, hrep.toHolds.mask_eq]
        exact Nat.mod_le _ _
      have hwritten : min accepts s.1.toClient.toSend ≤ q.length := by
        rw [← hrep.used_eq]
        exact (Nat.min_le_right _ _).trans (Nat.min_le_left _ _)
      have hroom := hunread.room
      rw [List.length_drop]
      change (s.1.toClient.doSend (some accepts)).2.2.sendBuffer.gpos + _ + _ < _
      omega
    · exact Or.inr hall
  · change promise = (s.2 ++ (s.1.toClient.doSend (some accepts)).1) ++ _ ++ _
    rw [hout, List.append_assoc s.2, List.take_append_drop]
    exact h.promised

theorem Pumping.uploadStep_tick (h : Pumping env type original promise s q rest) :
    uploadStep env s .tick = (s.1.tickUpload env rest).map fun c => (c, s.2 ++ []) := by
  rw [uploadStep, if_neg h.not_over, PumpStep.sendStep, sendStep, h.fh, Option.elim_some]
  rfl

theorem Pumping.tick_unread (h : Pumping env type original promise s q rest) (hne : rest ≠ []) :
    ∃ s', uploadStep env s .tick = some s' ∧
      Pumping env type original promise s' (q ++ served env type rest) [] := by
  obtain ⟨k, hrep, hread⟩ := h.reads
  have hunread : s.1.Unread k q rest := hread.resolve_right fun hall => hne hall.1
  have hroom := hunread.room
  have hchar : s.1.uploadType = .fileMap → env.globalPK = true → env.pkExcept ≠ none := by
    rw [h.type_eq]
    exact h.chars hne
  have htick := tickUpload_unread hrep hunread hchar hne
  have hnil : served env type [] = [] := List.eq_nil_of_length_eq_zero (length_served env type [])
  have hstep := h.uploadStep_tick
  rw [htick, Option.map_some] at hstep
  refine ⟨_, hstep, ?_⟩
  refine
    { fh := rfl
      type_eq := h.type_eq
      aside := h.aside
      reads := ⟨k, ?_, Or.inr ⟨rfl, rfl⟩⟩
      chars := fun h => absurd rfl h
      promised := ?_ }
  · rw [← h.type_eq]
    exact hrep.push _ (by rw [length_served]; omega)
  · rw [hnil, List.append_nil]
    change promise = (s.2 ++ []) ++ (q ++ _)
    rw [List.append_nil, ← List.append_assoc]
    exact h.promised

/-- A tick when all has been read: it waits for the buffer to be empty and puts the other one back
then. -/
theorem Pumping.tick_read (h : Pumping env type original promise s q []) :
    q ≠ [] ∧ uploadStep env s .tick = some s ∨
      q = [] ∧ ∃ s', uploadStep env s .tick = some s' ∧ Pumped original promise s' := by
  obtain ⟨k, hrep, hread⟩ := h.reads
  have hall : s.1.uploadPos = s.1.uploadSize := by
    rcases hread with hunread | hall
    · rw [hunread.pos, hunread.size, List.length_nil]
    · exact hall.2
  have havailable : min (sizeSub s.1.uploadSize s.1.uploadPos) s.1.sendBuffer.free = 0 := by
    rw [hall, sizeSub_of_le le_rfl, Nat.sub_self, Nat.zero_min]
  have hempty : s.1.sendBuffer.free = s.1.sendBuffer.size ↔ q = [] := by
    have hfits := hrep.fits
    have hpos := Nat.two_pow_pos k
    rw [hrep.free_eq, hrep.size_eq, ← List.length_eq_zero_iff]
    omega
  rw [h.uploadStep_tick]
  unfold tickUpload
  simp only [havailable, ne_eq, not_true_eq_false, ↓reduceIte]
  by_cases hq : q = []
  · right
    refine ⟨hq, ?_⟩
    rw [if_pos ⟨hall, hempty.mpr hq⟩]
    refine ⟨_, rfl, ⟨rfl, h.aside, ?_⟩⟩
    have hnil : served env type [] = [] := List.eq_nil_of_length_eq_zero (length_served env type [])
    have hpromised := h.promised
    rw [hq, hnil, List.append_nil] at hpromised
    exact hpromised
  · left
    rw [if_neg (fun h => hq (hempty.mp h.2)), Option.map_some, List.append_nil]
    exact ⟨hq, rfl⟩

/-! ## The start -/

theorem length_resize (bytes : Bytes) (size : ℕ) : (Client.resize bytes size).length = size := by
  unfold Client.resize
  rw [List.length_append, List.length_take, List.length_replicate]
  omega

/-- The buffer is empty before the header is in it, whatever it has been used for. -/
theorem represents_resize (bytes : Bytes) (k : ℕ) :
    (⟨Client.resize bytes (2 ^ k), 0, 0, 0⟩ : RingBuffer UInt8).Represents k [] where
  size_eq := length_resize bytes (2 ^ k)
  gpos_lt := Nat.two_pow_pos k
  ppos_eq := (Nat.zero_mod _).symm
  fits := Nat.zero_le _
  cells i hi := absurd hi (Nat.not_lt_zero i)
  used_eq := rfl

theorem gpos_foldl_write (xs : Bytes) (r : RingBuffer UInt8) :
    (xs.foldl RingBuffer.write r).gpos = r.gpos := by
  induction xs generalizing r with
  | nil => rfl
  | cons x rest ih =>
      rw [List.foldl_cons, ih]
      rfl

/-- A client that has just started an upload, with a buffer of `2 ^ k` bytes. -/
structure Begun (c : EOClient) (type : FileType) (file : Bytes) (reply : UInt8) (k : ℕ) : Prop where
  size_eq : grow (file.length + 6) c.sendBuffer.size = 2 ^ k
  room : file.length + 6 ≤ 2 ^ k
  fh : (c.started type file reply).1.uploadFh = some file
  type_eq : (c.started type file reply).1.uploadType = type
  pos : (c.started type file reply).1.uploadPos = 0
  size : (c.started type file reply).1.uploadSize = file.length
  aside : (c.started type file reply).1.sendBuffer2 = c.sendBuffer
  represents : (c.started type file reply).1.sendBuffer.Represents k
    (uploadHeader type reply file.length).get
  gpos : (c.started type file reply).1.sendBuffer.gpos = 0

theorem length_header_le (type : FileType) (reply : UInt8) (size : ℕ) :
    (uploadHeader type reply size).get.length ≤ 6 := by
  rw [length_uploadHeader]
  split_ifs <;> omega

theorem begun_started (hidle : c.uploadFh = none) (h : c.sendBuffer.Represents k q)
    (type : FileType) (file : Bytes) (reply : UInt8) : ∃ j, Begun c type file reply j := by
  obtain ⟨j, hgrow, hneed⟩ := grow_spec (file.length + 6) k
  rw [← h.size_eq] at hgrow
  have hlen := length_header_le type reply file.length
  have hempty := represents_resize c.sendBuffer2.buffer j
  have hfits : ([] : Bytes).length + (uploadHeader type reply file.length).get.length ≤ 2 ^ j := by
    rw [List.length_nil]
    omega
  have hstarted : c.upload type (some file) reply = some (true, { c with
      uploadFh := some file
      uploadType := type
      uploadPos := 0
      uploadSize := file.length
      sendBuffer := RingBuffer.push ⟨Client.resize c.sendBuffer2.buffer (2 ^ j), 0, 0, 0⟩
        (uploadHeader type reply file.length).get
      sendBuffer2 := c.sendBuffer }) := by
    have hfree : ¬ (uploadHeader type reply file.length).get.length >
        RingBuffer.free (⟨Client.resize c.sendBuffer2.buffer (2 ^ j), 0, 0, 0⟩ :
          RingBuffer UInt8) := by
      rw [hempty.free_eq, List.length_nil]
      omega
    unfold EOClient.upload
    simp only [hidle, hgrow, Option.isSome_none, Bool.false_eq_true, ↓reduceIte, Client.send,
      if_neg hfree]
  refine ⟨j, hgrow, hneed, ?_, ?_, ?_, ?_, ?_, ?_, ?_⟩
  all_goals
    unfold started
    rw [hstarted, Option.elim_some]
  · exact hempty.push _ hfits
  · exact gpos_foldl_write _ _

theorem Begun.pumping (h : Begun c type file reply k) (hruns : UploadRuns env c type file) :
    Pumping env type c.sendBuffer
      ((uploadHeader type reply file.length).get ++ served env type file)
      (c.started type file reply) (uploadHeader type reply file.length).get file where
  fh := h.fh
  type_eq := h.type_eq
  aside := h.aside
  reads := by
    refine ⟨k, h.represents, Or.inl ⟨h.pos, h.size, ?_⟩⟩
    have hfill := hruns.1
    have hroom := h.room
    rw [h.size_eq] at hfill
    rw [h.gpos, length_uploadHeader]
    split_ifs with htype
    · omega
    · have := hfill htype
      omega
  chars := hruns.2
  promised := rfl

theorem two_pow_ne_six (k : ℕ) : 2 ^ k ≠ 0 + 6 := by
  rcases Nat.lt_or_ge k 3 with hlt | hge
  · interval_cases k <;> decide
  · have hpow := Nat.pow_le_pow_right (show 0 < 2 by decide) hge
    omega

/-- The first tick writes behind the buffer, or looks for somebody in the game. -/
theorem Begun.tick_fails (h : Begun c type file reply k) (hnot : ¬ UploadRuns env c type file) :
    uploadStep env (c.started type file reply) .tick = none := by
  have hroom := h.room
  have hlen := length_header_le type reply file.length
  have hne : file ≠ [] := by
    rintro rfl
    apply hnot
    refine ⟨fun _ hfull => ?_, fun h => absurd rfl h⟩
    rw [h.size_eq, List.length_nil] at hfull
    exact two_pow_ne_six k hfull
  have havailable : min (sizeSub (c.started type file reply).1.uploadSize
      (c.started type file reply).1.uploadPos) (c.started type file reply).1.sendBuffer.free =
      file.length := by
    rw [h.size, h.pos, sizeSub_of_le (Nat.zero_le _), h.represents.free_eq]
    omega
  have hppos : (c.started type file reply).1.sendBuffer.ppos =
      (uploadHeader type reply file.length).get.length := by
    have hpos : 0 < file.length := List.length_pos_iff.mpr hne
    rw [h.represents.ppos_eq, h.gpos, Nat.zero_add, Nat.mod_eq_of_lt (by omega)]
  have hover : (c.started type file reply).1.uploadFh ≠ none := by
    rw [h.fh]
    exact Option.some_ne_none file
  have hpos : file.length ≠ 0 := fun hzero => hne (List.length_eq_zero_iff.mp hzero)
  rw [uploadStep, if_neg hover, PumpStep.sendStep, sendStep, h.fh, Option.elim_some,
    Option.map_eq_none_iff]
  unfold tickUpload
  rw [havailable]
  dsimp only
  rw [if_pos hpos, List.take_length, hppos, h.represents.size_eq, length_uploadHeader]
  by_cases hfull : type ≠ .fileMap ∧ 2 ^ k = file.length + 6
  · rw [if_neg hfull.1, if_neg (by omega)]
  · rw [ite_eq_right_iff]
    intro _
    have hchar : type = .fileMap ∧ env.globalPK = true ∧ env.pkExcept = none := by
      by_contra hsafe
      apply hnot
      refine ⟨?_, ?_⟩
      · intro htype hgrow
        rw [h.size_eq] at hgrow
        exact hfull ⟨htype, hgrow⟩
      · intro _ htype hpk hexcept
        exact hsafe ⟨htype, hpk, hexcept⟩
    unfold patchMap
    rw [h.type_eq, if_pos hchar.1, hchar.2.2, if_pos ⟨hchar.1, hchar.2.1⟩, Option.map_none,
      Option.map_none]

/-! ## Runs -/

/-- An upload is going on as it should, or over. -/
def InUpload (env : TickEnv) (type : FileType) (original : RingBuffer UInt8) (promise : Bytes)
    (s : EOClient × Bytes) : Prop :=
  (∃ q rest, Pumping env type original promise s q rest) ∨ Pumped original promise s

/-- A tick reads the file or finds the buffer empty, or a write takes something from it. -/
def Useful (s : EOClient × Bytes) : PumpStep → Prop
  | .tick => s.1.uploadFh ≠ some [] ∨ s.1.sendBuffer.used = 0
  | .write accepts => 0 < accepts ∧ s.1.sendBuffer.used ≠ 0

/-- How much there is to read, which is to be written after that, and to write. -/
def toPump (s : EOClient × Bytes) : ℕ :=
  2 * (s.1.uploadFh.elim 0 List.length) + s.1.sendBuffer.used

theorem Pumping.toPump_eq (h : Pumping env type original promise s q rest) :
    toPump s = 2 * rest.length + q.length := by
  unfold toPump
  rw [h.fh, Option.elim_some, h.used_eq]

theorem Pumping.useful_tick_iff (h : Pumping env type original promise s q rest) :
    Useful s .tick ↔ rest ≠ [] ∨ q = [] := by
  change s.1.uploadFh ≠ some [] ∨ s.1.sendBuffer.used = 0 ↔ _
  rw [h.fh, h.used_eq, List.length_eq_zero_iff, Ne, Option.some_inj]

theorem Pumping.useful_write_iff (h : Pumping env type original promise s q rest) (accepts : ℕ) :
    Useful s (.write accepts) ↔ 0 < accepts ∧ q ≠ [] := by
  change 0 < accepts ∧ s.1.sendBuffer.used ≠ 0 ↔ _
  rw [h.used_eq, Ne, List.length_eq_zero_iff]

theorem Pumping.toSend_eq (h : Pumping env type original promise s q rest) :
    s.1.toClient.toSend = min q.length 8192 := by
  have hused := h.used_eq
  unfold Client.toSend
  rw [hused]

theorem progresses_upload (env : TickEnv) (type : FileType) (original : RingBuffer UInt8)
    (promise : Bytes) : Progresses (uploadStep env) (InUpload env type original promise)
      (fun s => s.1.uploadFh = none) Useful toPump := by
  have hpump : ∀ s, InUpload env type original promise s → s.1.uploadFh ≠ none →
      ∃ q rest, Pumping env type original promise s q rest :=
    fun s hs hnot => hs.resolve_right fun hover => hnot hover.fh
  constructor
  · intro s t hs hnot
    obtain ⟨q, rest, h⟩ := hpump s hs hnot
    cases t with
    | write accepts =>
        obtain ⟨s', hs', h'⟩ := h.write accepts
        exact ⟨s', hs', Or.inl ⟨_, _, h'⟩⟩
    | tick =>
        by_cases hrest : rest = []
        · rw [hrest] at h
          rcases h.tick_read with ⟨-, hwait⟩ | ⟨-, s', hs', hend⟩
          · exact ⟨s, hwait, Or.inl ⟨_, _, h⟩⟩
          · exact ⟨s', hs', Or.inr hend⟩
        · obtain ⟨s', hs', h'⟩ := h.tick_unread hrest
          exact ⟨s', hs', Or.inl ⟨_, _, h'⟩⟩
  · intro s t s' hs hnot hnext huseful
    obtain ⟨q, rest, h⟩ := hpump s hs hnot
    cases t with
    | write accepts =>
        obtain ⟨haccepts, hq⟩ := (h.useful_write_iff accepts).mp huseful
        obtain ⟨s'', hs'', h'⟩ := h.write accepts
        obtain rfl := Option.some.inj (hnext.symm.trans hs'')
        have hpos : 0 < q.length := List.length_pos_iff.mpr hq
        right
        rw [h.toPump_eq, h'.toPump_eq, List.length_drop, h.toSend_eq]
        omega
    | tick =>
        by_cases hrest : rest = []
        · rw [hrest] at h
          rcases h.tick_read with ⟨hq, -⟩ | ⟨-, s'', hs'', hend⟩
          · rw [h.useful_tick_iff] at huseful
            exact absurd (huseful.resolve_left fun hne => hne rfl) hq
          · obtain rfl := Option.some.inj (hnext.symm.trans hs'')
            exact Or.inl hend.fh
        · obtain ⟨s'', hs'', h'⟩ := h.tick_unread hrest
          obtain rfl := Option.some.inj (hnext.symm.trans hs'')
          have hpos : 0 < rest.length := List.length_pos_iff.mpr hrest
          right
          rw [h.toPump_eq, h'.toPump_eq, List.length_append, length_served, List.length_nil]
          omega
  · intro s t s' hs hnot hnext hidle
    obtain ⟨q, rest, h⟩ := hpump s hs hnot
    right
    cases t with
    | write accepts =>
        obtain ⟨s'', hs'', h'⟩ := h.write accepts
        obtain rfl := Option.some.inj (hnext.symm.trans hs'')
        rw [h.useful_write_iff, not_and, not_not] at hidle
        have hsame : q.drop (min accepts s.1.toClient.toSend) = q := by
          by_cases haccepts : 0 < accepts
          · rw [hidle haccepts, List.drop_nil]
          · rw [Nat.eq_zero_of_not_pos haccepts, Nat.zero_min, List.drop_zero]
        rw [hsame] at h'
        refine ⟨by rw [h.toPump_eq, h'.toPump_eq], ?_⟩
        intro t ht
        cases t with
        | tick => rwa [h'.useful_tick_iff, ← h.useful_tick_iff]
        | write accepts => rwa [h'.useful_write_iff, ← h.useful_write_iff]
    | tick =>
        rw [h.useful_tick_iff, not_or, not_not] at hidle
        rw [hidle.1] at h
        obtain ⟨-, hwait⟩ := h.tick_read.resolve_right fun hend => hidle.2 hend.1
        obtain rfl := Option.some.inj (hnext.symm.trans hwait)
        exact ⟨le_rfl, fun _ => id⟩

theorem run_inUpload (h : InUpload env type original promise s) (steps : List PumpStep) :
    ∃ s', run (uploadStep env) s steps = some s' ∧ InUpload env type original promise s' := by
  induction steps generalizing s with
  | nil => exact ⟨s, rfl, h⟩
  | cons t rest ih =>
      have hnext : ∃ s', uploadStep env s t = some s' ∧ InUpload env type original promise s' := by
        by_cases hover : s.1.uploadFh = none
        · exact ⟨s, by rw [uploadStep, if_pos hover], h⟩
        · exact (progresses_upload env type original promise).defined s t h hover
      obtain ⟨s', hs', h'⟩ := hnext
      obtain ⟨s'', hrun, h''⟩ := ih h'
      refine ⟨s'', ?_, h''⟩
      rw [run, hs']
      exact hrun

theorem InUpload.sent_isPrefix (h : InUpload env type original promise s) : s.2 <+: promise := by
  rcases h with ⟨q, rest, h⟩ | h
  · exact ⟨q ++ served env type rest, by rw [h.promised, List.append_assoc]⟩
  · exact ⟨[], by rw [h.promised, List.append_nil]⟩

theorem InUpload.pumped (h : InUpload env type original promise s) (hover : s.1.uploadFh = none) :
    Pumped original promise s :=
  h.resolve_left fun ⟨_, _, hpump⟩ => hpump.not_over hover

/-- An upload that goes on as it should comes to its end. -/
theorem InUpload.ends (h : InUpload env type original promise s) {f : ℕ → PumpStep}
    (hf : Fair f) : ∃ n s', run (uploadStep env) s ((List.range n).map f) = some s' ∧
      s'.1.uploadFh = none := by
  have hfair : ∀ s, InUpload env type original promise s → s.1.uploadFh ≠ none →
      ∀ i, ∃ j, i ≤ j ∧ Useful s (f j) := by
    intro s hs hover i
    obtain ⟨q, rest, hpump⟩ := hs.resolve_right fun hend => hover hend.fh
    by_cases htick : rest ≠ [] ∨ q = []
    · obtain ⟨j, hij, hj⟩ := hf.ticks i
      refine ⟨j, hij, ?_⟩
      rw [hj, hpump.useful_tick_iff]
      exact htick
    · obtain ⟨j, hij, accepts, haccepts, hj⟩ := hf.writes i
      refine ⟨j, hij, ?_⟩
      rw [hj, hpump.useful_write_iff]
      exact ⟨haccepts, (not_or.mp htick).2⟩
  obtain ⟨n, s', hrun, -, hover⟩ :=
    (progresses_upload env type original promise).exists_done h f hfair
  exact ⟨n, s', hrun, hover⟩

theorem fair_alternating : Fair fun i => if i % 2 = 0 then .tick else .write 1 := by
  constructor
  · intro i
    exact ⟨2 * i, by omega, if_pos (by omega)⟩
  · intro i
    exact ⟨2 * i + 1, by omega, 1, Nat.one_pos, if_neg (by omega)⟩

/-- An upload is exact if and only if its file leaves a byte free in the buffer and is not changed
on the way. -/
theorem uploadExact_iff (env : TickEnv) (type : FileType) (file : Bytes) (reply : UInt8)
    (hidle : c.uploadFh = none) (h : c.sendBuffer.Represents k q) :
    c.UploadExact env type file reply ↔ UploadFits env c type file := by
  obtain ⟨j, hbegun⟩ := begun_started hidle h type file reply
  constructor
  · intro hexact
    have hruns : UploadRuns env c type file := by
      by_contra hnot
      obtain ⟨s, hrun, -⟩ := hexact.safe [.tick]
      rw [run, hbegun.tick_fails hnot] at hrun
      cases hrun
    refine ⟨hruns, ?_⟩
    obtain ⟨n, s, hover, hrun⟩ := hexact.ends _ fair_alternating
    obtain ⟨s', hrun', hs'⟩ := run_inUpload (Or.inl ⟨_, _, hbegun.pumping hruns⟩)
      ((List.range n).map fun i => if i % 2 = 0 then PumpStep.tick else .write 1)
    obtain rfl := Option.some.inj (hrun.symm.trans hrun')
    obtain ⟨s', hrun', -, hall⟩ := hexact.safe
      ((List.range n).map fun i => if i % 2 = 0 then PumpStep.tick else .write 1)
    obtain rfl := Option.some.inj (hrun.symm.trans hrun')
    have hsent := (hs'.pumped hover).promised
    rw [(hall hover).1] at hsent
    exact List.append_cancel_left hsent
  · rintro ⟨hruns, hserved⟩
    have hpump := hbegun.pumping hruns
    rw [hserved] at hpump
    have hin : InUpload env type c.sendBuffer
        ((uploadHeader type reply file.length).get ++ file) (c.started type file reply) :=
      Or.inl ⟨_, _, hpump⟩
    constructor
    · intro steps
      obtain ⟨s, hrun, hs⟩ := run_inUpload hin steps
      refine ⟨s, hrun, hs.sent_isPrefix, ?_⟩
      intro hover
      have hend := hs.pumped hover
      exact ⟨hend.promised.symm, hend.restored⟩
    · intro f hf
      obtain ⟨n, s, hrun, hover⟩ := hin.ends hf
      exact ⟨n, s, hover, hrun⟩

/-! ## A buffer of thirty-two bytes -/

theorem uploadExact_iff_small :
    (start 5 5 ⟨7, 9⟩).UploadExact noPK .fileClass [1, 2, 3] 11 ↔
      UploadFits noPK (start 5 5 ⟨7, 9⟩) .fileClass [1, 2, 3] :=
  uploadExact_iff noPK .fileClass [1, 2, 3] 11 rfl (RingBuffer.represents_blank 5 0)

/-- A file of twenty-six bytes. -/
theorem not_uploadExact_full :
    (start 5 5 ⟨7, 9⟩).uploadFh = none ∧ (start 5 5 ⟨7, 9⟩).sendBuffer.Represents 5 [] ∧
      ¬ (start 5 5 ⟨7, 9⟩).UploadExact noPK .fileClass (List.replicate 26 1) 11 := by
  refine ⟨rfl, RingBuffer.represents_blank 5 0, ?_⟩
  intro hexact
  obtain ⟨s, hrun, -⟩ := hexact.safe [.tick]
  have hnone : run (uploadStep noPK)
      ((start 5 5 ⟨7, 9⟩).started .fileClass (List.replicate 26 1) 11) [.tick] = none := by
    decide +kernel
  rw [hnone] at hrun
  cases hrun

end EOClient

end ArenaServ
