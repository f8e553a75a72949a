import ArenaServ.EOClient

/-!
# Packets and files arrive in order

While a file is uploaded the stream still to come is what is in the upload buffer, what
has not been read of the file, and what is in the buffer set aside. This is the order of
the calls if nothing was waiting when the upload began.
-/

/-!
## Sending packets and files

`Upload` sets the send buffer aside and fills another one with a header and, tick by
tick, the file; packets that are sent meanwhile go to the buffer set aside, which comes
back when the other one is drained.
-/

namespace ArenaServ

namespace EOClient

/-- The size of the upload buffer. The source doubles it; it never ends on 0. -/
def grow (need size : ℕ) : ℕ :=
  if 0 < size ∧ size < need then grow need (size * 2) else size
termination_by need - size

def uploadHeader (type : FileType) (reply : UInt8) (size : ℕ) : PacketBuilder :=
  let builder := (PacketBuilder.new .fInit .aInit).addChar reply
  let builder := if type ≠ .fileMap then builder.addChar 1 else builder
  builder.addSizeOf size

/-- `Upload` of a file that can be opened or not; `none` when it throws. -/
def upload (c : EOClient) (type : FileType) (file : Option Bytes) (reply : UInt8) :
    Option (Bool × EOClient) :=
  if c.uploadFh.isSome then none
  else
    match file with
    | none => some (false, c)
    | some file =>
        let size := grow (file.length + 6) c.sendBuffer.size
        let c := { c with
          uploadFh := some file
          uploadType := type
          uploadPos := 0
          uploadSize := file.length
          sendBuffer := ⟨Client.resize c.sendBuffer2.buffer size, 0, 0, 0⟩
          sendBuffer2 := c.sendBuffer }
        some (true, { c with
          toClient := c.toClient.send (uploadHeader type reply file.length).get })

def send (c : EOClient) (builder : PacketBuilder) : EOClient :=
  let data := c.processor.encode builder.get
  if c.uploadFh.isSome then
    if data.length > c.sendBuffer2.free then { c with connected := false }
    else { c with sendBuffer2 := c.sendBuffer2.push data }
  else { c with toClient := c.toClient.send data }

end EOClient

inductive SendStep where
  | send (builder : PacketBuilder)
  | upload (type : FileType) (file : Option Bytes) (reply : UInt8)
  | tick
  | doSend (accepts : ℕ)
  deriving DecidableEq, Repr

namespace EOClient

/-- One step; an `Upload` that throws has changed nothing. -/
def sendStep (env : TickEnv) (c : EOClient) : SendStep → Option EOClient
  | .send builder => some (c.send builder)
  | .upload type file reply => some ((c.upload type file reply).elim c (·.2))
  | .tick => c.uploadFh.elim (some c) (c.tickUpload env)
  | .doSend accepts => some { c with toClient := (c.toClient.doSend (some accepts)).2.2 }

def sendRun (env : TickEnv) (c : EOClient) : List SendStep → Option EOClient
  | [] => some c
  | t :: steps => (c.sendStep env t).bind fun c => c.sendRun env steps

/-- A map that is changed to allow PK. -/
def patchFile (file : Bytes) : Bytes := ((file.set 0x03 0xFF).set 0x04 0x01).set 0x1F 0x04

/-- The bytes of a file as they are uploaded. -/
def served (env : TickEnv) (type : FileType) (file : Bytes) : Bytes :=
  if type = .fileMap ∧ env.globalPK ∧ env.pkExcept = some false then patchFile file else file

/-- What a step adds to the stream that the client should get. A packet for which there is
no room closes the client instead. -/
def promised (env : TickEnv) (c : EOClient) : SendStep → Bytes
  | .send builder =>
      let data := c.processor.encode builder.get
      let room := if c.uploadFh.isSome then c.sendBuffer2.free else c.sendBuffer.free
      if data.length > room then [] else data
  | .upload type (some file) reply =>
      if c.uploadFh.isSome then []
      else (uploadHeader type reply file.length).get ++ served env type file
  | .upload _ none _ | .tick | .doSend _ => []

/-- What the operating system takes. -/
def delivered (c : EOClient) : SendStep → Bytes
  | .doSend accepts => (c.toClient.doSend (some accepts)).1
  | .send _ | .upload .. | .tick => []

/-- An observation over a whole run. -/
def streamOf (observe : EOClient → SendStep → Bytes) (env : TickEnv) (c : EOClient) :
    List SendStep → Bytes
  | [] => []
  | t :: steps => observe c t ++ (c.sendStep env t).elim [] fun c => c.streamOf observe env steps

end EOClient

end ArenaServ

namespace ArenaServ

namespace EOClient

/-- An upload starts with nothing waiting to be sent, the header and the file do not fill
its buffer to the last cell, and a map that is changed for PK is asked for in the game. -/
def KeepsOrder (env : TickEnv) (c : EOClient) : SendStep → Prop
  | .upload type (some file) _ => c.uploadFh = none →
      c.sendBuffer.used = 0 ∧
      (type ≠ .fileMap → grow (file.length + 6) c.sendBuffer.size ≠ file.length + 6) ∧
      (type = .fileMap → env.globalPK = true → env.pkExcept ≠ none)
  | .upload _ none _ | .send _ | .tick | .doSend _ => True

instance (env : TickEnv) (c : EOClient) : ∀ t, Decidable (KeepsOrder env c t)
  | .upload type (some file) _ => inferInstanceAs (Decidable (c.uploadFh = none →
      c.sendBuffer.used = 0 ∧
      (type ≠ .fileMap → grow (file.length + 6) c.sendBuffer.size ≠ file.length + 6) ∧
      (type = .fileMap → env.globalPK = true → env.pkExcept ≠ none)))
  | .upload _ none _ | .send _ | .tick | .doSend _ => inferInstanceAs (Decidable True)

def AllKeepOrder (env : TickEnv) (c : EOClient) : List SendStep → Prop
  | [] => True
  | t :: steps => KeepsOrder env c t ∧ ∀ c' ∈ c.sendStep env t, c'.AllKeepOrder env steps

instance decidableAllKeepOrder (env : TickEnv) (c : EOClient) :
    ∀ steps, Decidable (c.AllKeepOrder env steps)
  | [] => inferInstanceAs (Decidable True)
  | t :: steps =>
      have (c' : EOClient) : Decidable (c'.AllKeepOrder env steps) :=
        decidableAllKeepOrder env c' steps
      inferInstanceAs (Decidable
        (KeepsOrder env c t ∧ ∀ c' ∈ c.sendStep env t, c'.AllKeepOrder env steps))

/-- Nothing of the file has been read, and the rest of the buffer has room for it. -/
structure Unread (c : EOClient) (k : ℕ) (q rest : Bytes) : Prop where
  pos : c.uploadPos = 0
  size : c.uploadSize = rest.length
  room : c.sendBuffer.gpos + q.length + rest.length < 2 ^ k

/-- The bytes given to the operating system, and those to come, are the bytes promised. -/
inductive InOrder (env : TickEnv) (c : EOClient) (given promise : Bytes) : Prop where
  | idle (k : ℕ) (q : Bytes) (hfh : c.uploadFh = none) (hbuffer : c.sendBuffer2.buffer = [])
      (h : c.sendBuffer.Represents k q) (heq : promise = given ++ q)
  | uploading (k k₂ : ℕ) (q q₂ rest : Bytes) (hfh : c.uploadFh = some rest)
      (h : c.sendBuffer.Represents k q) (h₂ : c.sendBuffer2.Represents k₂ q₂)
      (hread : c.Unread k q rest ∨ (rest = [] ∧ c.uploadPos = c.uploadSize))
      (hchar : c.uploadType = .fileMap → env.globalPK = true → env.pkExcept ≠ none)
      (heq : promise = given ++ q ++ served env c.uploadType rest ++ q₂)

variable {env : TickEnv} {c c' : EOClient} {k : ℕ} {q rest given promise : Bytes}
  {type : FileType} {reply : UInt8}

/-! ## The upload buffer -/

theorem grow_spec (need k : ℕ) : ∃ j, grow need (2 ^ k) = 2 ^ j ∧ need ≤ 2 ^ j := by
  by_cases hlt : 2 ^ k < need
  · obtain ⟨j, hj, hneed⟩ := grow_spec need (k + 1)
    refine ⟨j, ?_, hneed⟩
    rw [grow, if_pos ⟨Nat.two_pow_pos k, hlt⟩, ← Nat.pow_succ]
    exact hj
  · refine ⟨k, ?_, by omega⟩
    rw [grow, if_neg (fun h => hlt h.2)]
termination_by need - 2 ^ k
decreasing_by
  have := Nat.two_pow_pos k
  rw [Nat.pow_succ]
  omega

theorem length_uploadHeader (type : FileType) (reply : UInt8) (size : ℕ) :
    (uploadHeader type reply size).get.length = if type = .fileMap then 5 else 6 := by
  by_cases htype : type = .fileMap
  · simp [uploadHeader, htype, PacketBuilder.get, PacketBuilder.addChar, PacketBuilder.addSizeOf,
      PacketProcessor.length_eNumber]
  · simp [uploadHeader, htype, PacketBuilder.get, PacketBuilder.addChar, PacketBuilder.addSizeOf,
      PacketProcessor.length_eNumber]

theorem overwrite_set (buffer chunk : Bytes) {start : ℕ} (h : start ≤ buffer.length) (i : ℕ)
    (a : UInt8) (hi : i < chunk.length) :
    (overwrite buffer start chunk).set (start + i) a = overwrite buffer start (chunk.set i a) := by
  have hlen : (buffer.take start).length = start := List.length_take_of_le h
  rw [overwrite, overwrite, List.append_assoc, List.append_assoc, List.set_append_right _ _
    (by omega), hlen, Nat.add_sub_cancel_left, List.set_append_left _ _ hi, List.length_set]

/-- Rewriting the map in the buffer is rewriting the map. -/
theorem rewritePK_overwrite (buffer chunk : Bytes) {ppos : ℕ}
    (h : ppos + 1 ≤ buffer.length) :
    rewritePK (overwrite buffer (ppos + 1) chunk) ppos 0 chunk.length =
      overwrite buffer (ppos + 1) (patchFile chunk) := by
  have hset : ∀ (i : ℕ) (a : UInt8) (s : Bytes), s.length = chunk.length →
      (if 0 ≤ i ∧ 0 + chunk.length > i then (overwrite buffer (ppos + 1) s).set
        (ppos + 1 + i - 0) a else overwrite buffer (ppos + 1) s) =
      overwrite buffer (ppos + 1) (s.set i a) := by
    intro i a s hs
    by_cases hi : i < chunk.length
    · rw [if_pos ⟨Nat.zero_le i, by omega⟩, Nat.sub_zero]
      exact overwrite_set buffer s h i a (by omega)
    · rw [if_neg (by omega), List.set_eq_of_length_le (by omega)]
  have h₁ := hset 0x03 0xFF chunk rfl
  have h₂ := hset 0x04 0x01 (chunk.set 0x03 0xFF) (by simp)
  have h₃ := hset 0x1F 0x04 ((chunk.set 0x03 0xFF).set 0x04 0x01) (by simp)
  simp only [Nat.zero_le, true_and] at h₁ h₂ h₃
  simp only [rewritePK, Nat.zero_le, true_and, h₁, h₂, h₃, patchFile]

theorem length_served (env : TickEnv) (type : FileType) (file : Bytes) :
    (served env type file).length = file.length := by
  unfold served patchFile
  split_ifs <;> simp

/-- The whole file goes to the buffer. -/
theorem patchMap_overwrite (hchar : c.uploadType = .fileMap → env.globalPK = true →
      env.pkExcept ≠ none) (hpos : c.uploadPos = 0)
    (hlen : c.sendBuffer.ppos + 1 ≤ c.sendBuffer.buffer.length) :
    c.patchMap env (overwrite c.sendBuffer.buffer (c.sendBuffer.ppos + 1) rest) rest.length =
      some (overwrite c.sendBuffer.buffer (c.sendBuffer.ppos + 1)
        (served env c.uploadType rest)) := by
  unfold patchMap served
  by_cases hpk : c.uploadType = .fileMap ∧ env.globalPK = true
  · obtain ⟨except, hexcept⟩ := Option.ne_none_iff_exists'.mp (hchar hpk.1 hpk.2)
    rw [if_pos hpk, hexcept, Option.map_some, hpos]
    cases except with
    | false =>
        rw [if_neg Bool.false_ne_true, rewritePK_overwrite _ _ hlen, if_pos ⟨hpk.1, hpk.2, rfl⟩]
    | true => rw [if_pos rfl, if_neg (fun h => by cases h.2.2)]
  · rw [if_neg hpk, if_neg (fun h => hpk ⟨h.1, h.2.1⟩)]

/-! ## Steps -/

theorem InOrder.doSend (h : InOrder env c given promise) (accepts : ℕ) :
    InOrder env { c with toClient := (c.toClient.doSend (some accepts)).2.2 }
      (given ++ (c.toClient.doSend (some accepts)).1) promise := by
  cases h with
  | idle k q hfh hbuffer h heq =>
      obtain ⟨hout, hrep, -⟩ := Client.doSend_spec h accepts
      refine .idle k _ hfh hbuffer hrep ?_
      rw [hout, List.append_assoc, List.take_append_drop]
      exact heq
  | uploading k k₂ q q₂ rest hfh h h₂ hread hchar heq =>
      obtain ⟨hout, hrep, -⟩ := Client.doSend_spec h accepts
      refine .uploading k k₂ _ q₂ rest hfh hrep h₂ ?_ hchar ?_
      · rcases hread with hunread | hall
        · refine Or.inl ⟨hunread.pos, hunread.size, ?_⟩
          have hle : (c.toClient.doSend (some accepts)).2.2.sendBuffer.gpos ≤
              c.sendBuffer.gpos + min accepts c.toClient.toSend := by
            simp only [Client.doSend, h.toHolds.mask_eq]
            exact Nat.mod_le _ _
          have hwritten : min accepts c.toClient.toSend ≤ q.length := by
            rw [← h.used_eq]
            exact (Nat.min_le_right _ _).trans (Nat.min_le_left _ _)
          have hroom := hunread.room
          rw [List.length_drop]
          change (c.toClient.doSend (some accepts)).2.2.sendBuffer.gpos + _ + _ < _
          omega
        · exact Or.inr hall
      · rw [hout, List.append_assoc given, List.take_append_drop]
        exact heq

theorem InOrder.send (h : InOrder env c given promise) (builder : PacketBuilder) :
    InOrder env (c.send builder) given (promise ++ promised env c (.send builder)) := by
  cases h with
  | idle k q hfh hbuffer h heq =>
      have hsend : c.send builder =
          { c with toClient := c.toClient.send (c.processor.encode builder.get) } := by
        rw [EOClient.send, hfh]
        rfl
      have hpromised : promised env c (.send builder) =
          if (c.processor.encode builder.get).length > c.sendBuffer.free then []
          else c.processor.encode builder.get := by
        rw [promised, hfh]
        rfl
      rw [hsend, hpromised]
      by_cases hfit : q.length + (c.processor.encode builder.get).length ≤ 2 ^ k
      · obtain ⟨hrep, -⟩ := Client.send_of_fits h hfit
        have hroom : ¬ (c.processor.encode builder.get).length > c.sendBuffer.free := by
          rw [h.free_eq]
          omega
        refine .idle k _ hfh hbuffer hrep ?_
        rw [if_neg hroom, heq, List.append_assoc]
      · have hroom : (c.processor.encode builder.get).length > c.sendBuffer.free := by
          have := h.fits
          rw [h.free_eq]
          omega
        rw [Client.send_of_not_fits h hfit, if_pos hroom, List.append_nil]
        exact .idle k q hfh hbuffer h heq
  | uploading k k₂ q q₂ rest hfh h h₂ hread hchar heq =>
      have hup : c.uploadFh.isSome = true := by rw [hfh, Option.isSome_some]
      unfold EOClient.send promised
      simp only [hup, ↓reduceIte]
      by_cases hroom : (c.processor.encode builder.get).length > c.sendBuffer2.free
      · rw [if_pos hroom, if_pos hroom, List.append_nil]
        exact .uploading k k₂ q q₂ rest hfh h h₂ (hread.imp (fun hu => ⟨hu.1, hu.2, hu.3⟩) id)
          hchar heq
      · rw [if_neg hroom, if_neg hroom]
        have hfit : q₂.length + (c.processor.encode builder.get).length ≤ 2 ^ k₂ := by
          have := h₂.fits
          rw [h₂.free_eq] at hroom
          omega
        refine .uploading k k₂ q _ rest hfh h (h₂.push _ hfit)
          (hread.imp (fun hu => ⟨hu.1, hu.2, hu.3⟩) id) hchar ?_
        rw [heq]
        simp only [List.append_assoc]

/-- The next part of the file is the whole file, and it goes behind what is in the buffer. -/
theorem tickUpload_unread (h : c.sendBuffer.Represents k q)
    (hunread : c.Unread k q rest)
    (hchar : c.uploadType = .fileMap → env.globalPK = true → env.pkExcept ≠ none)
    (hne : rest ≠ []) :
    c.tickUpload env rest = some { c with
      uploadFh := some []
      uploadPos := c.uploadSize
      sendBuffer := c.sendBuffer.push (served env c.uploadType rest) } := by
  have hpos : 0 < rest.length := List.length_pos_iff.mpr hne
  have hroom := hunread.room
  have hppos : c.sendBuffer.ppos = c.sendBuffer.gpos + q.length := by
    rw [h.ppos_eq, Nat.mod_eq_of_lt (by omega)]
  have hsize : c.sendBuffer.buffer.length = 2 ^ k := h.size_eq
  have havailable : min (sizeSub c.uploadSize c.uploadPos) c.sendBuffer.free = rest.length := by
    rw [hunread.pos, hunread.size, sizeSub_of_le (Nat.zero_le _), h.free_eq]
    omega
  have hpush := RingBuffer.foldl_write_of_lt h.size_eq (served env c.uploadType rest)
    (by rw [length_served]; omega)
  unfold tickUpload
  simp only [havailable, List.take_length, List.drop_length]
  rw [if_pos hpos.ne', if_pos (by rw [RingBuffer.size]; omega),
    patchMap_overwrite hchar hunread.pos (by omega), Option.map_some, RingBuffer.push, hpush,
    length_served, hunread.pos, hunread.size, Nat.zero_add, overwrite, length_served]

theorem InOrder.tick (h : InOrder env c given promise) :
    ∃ c', c.sendStep env .tick = some c' ∧ InOrder env c' given promise := by
  cases h with
  | idle k q hfh hbuffer h heq =>
      refine ⟨c, ?_, .idle k q hfh hbuffer h heq⟩
      rw [sendStep, hfh, Option.elim_none]
  | uploading k k₂ q q₂ rest hfh h h₂ hread hchar heq =>
      rw [sendStep, hfh, Option.elim_some]
      by_cases hne : rest = []
      · have hall : c.uploadPos = c.uploadSize := by
          rcases hread with hunread | hall
          · rw [hunread.pos, hunread.size, hne, List.length_nil]
          · exact hall.2
        have havailable : min (sizeSub c.uploadSize c.uploadPos) c.sendBuffer.free = 0 := by
          rw [hall, sizeSub_of_le le_rfl, Nat.sub_self, Nat.zero_min]
        subst hne
        have hnil : served env c.uploadType [] = [] :=
          List.eq_nil_of_length_eq_zero (length_served env c.uploadType [])
        rw [hnil, List.append_nil] at heq
        unfold tickUpload
        simp only [havailable, ne_eq, not_true_eq_false, ↓reduceIte]
        by_cases hdone : c.uploadPos = c.uploadSize ∧ c.sendBuffer.free = c.sendBuffer.size
        · rw [if_pos hdone]
          have hq : q = [] := by
            have hfree := hdone.2
            rw [h.free_eq, h.size_eq] at hfree
            have := Nat.two_pow_pos k
            have := h.fits
            exact List.eq_nil_of_length_eq_zero (by omega)
          refine ⟨_, rfl, .idle k₂ q₂ rfl rfl h₂ ?_⟩
          rw [heq, hq, List.append_nil]
        · rw [if_neg hdone]
          refine ⟨c, rfl, .uploading k k₂ q q₂ [] hfh h h₂ (Or.inr ⟨rfl, hall⟩) hchar ?_⟩
          rw [hnil, List.append_nil]
          exact heq
      · have hunread : c.Unread k q rest := hread.resolve_right fun hall => hne hall.1
        have hroom := hunread.room
        refine ⟨_, tickUpload_unread h hunread hchar hne,
          .uploading k k₂ (q ++ served env c.uploadType rest) q₂ [] rfl (h.push _ ?_) h₂
            (Or.inr ⟨rfl, rfl⟩) hchar ?_⟩
        · rw [length_served]
          omega
        · have hnil : served env c.uploadType [] = [] :=
            List.eq_nil_of_length_eq_zero (length_served env c.uploadType [])
          rw [hnil, heq]
          simp only [List.append_assoc, List.nil_append]

theorem InOrder.upload (h : InOrder env c given promise) (type : FileType)
    (file : Option Bytes) (reply : UInt8) (hkeeps : KeepsOrder env c (.upload type file reply)) :
    InOrder env ((c.upload type file reply).elim c (·.2)) given
      (promise ++ promised env c (.upload type file reply)) := by
  cases h with
  | uploading k k₂ q q₂ rest hfh h h₂ hread hchar heq =>
      have hthrows : c.upload type file reply = none := by
        unfold EOClient.upload
        rw [if_pos (by rw [hfh, Option.isSome_some])]
      have hnone : promised env c (.upload type file reply) = [] := by
        cases file with
        | none => rfl
        | some file => rw [promised, hfh]; rfl
      rw [hthrows, hnone, List.append_nil]
      exact .uploading k k₂ q q₂ rest hfh h h₂ hread hchar heq
  | idle k q hfh hbuffer h heq =>
      cases file with
      | none =>
          have hsame : (c.upload type none reply).elim c (·.2) = c := by
            rw [EOClient.upload, hfh]
            rfl
          rw [hsame, promised, List.append_nil]
          exact .idle k q hfh hbuffer h heq
      | some file =>
          obtain ⟨hused, hfill, hchar⟩ := hkeeps hfh
          have hq : q = [] := List.eq_nil_of_length_eq_zero (h.used_eq ▸ hused)
          obtain ⟨j, hgrow, hneed⟩ := grow_spec (file.length + 6) k
          rw [h.size_eq, hgrow] at hfill
          have hblank : (⟨Client.resize c.sendBuffer2.buffer (2 ^ j), 0, 0, 0⟩ :
              RingBuffer UInt8) = RingBuffer.blank (2 ^ j) 0 := by
            simp [hbuffer, Client.resize, RingBuffer.blank]
          have hempty := RingBuffer.represents_blank j (0 : UInt8)
          have hlen := length_uploadHeader type reply file.length
          have hstrict :
              (uploadHeader type reply file.length).get.length + file.length < 2 ^ j := by
            rw [hlen]
            split_ifs with htype
            · omega
            · have := hfill htype
              omega
          have hpush := RingBuffer.foldl_write_of_lt hempty.size_eq
            (uploadHeader type reply file.length).get
            (by simp only [RingBuffer.blank]; omega)
          have hrep := hempty.push (uploadHeader type reply file.length).get
            (by simp only [List.length_nil]; omega)
          have hfree : ¬ (uploadHeader type reply file.length).get.length >
              (RingBuffer.blank (2 ^ j) (0 : UInt8)).free := by
            rw [hempty.free_eq, List.length_nil]
            omega
          unfold EOClient.upload promised
          simp only [hfh, h.size_eq, hgrow, hblank, Option.isSome_none, Bool.false_eq_true,
            ↓reduceIte, Option.elim_some, Client.send, if_neg hfree]
          refine .uploading j k _ q file rfl hrep h (Or.inl ⟨rfl, rfl, ?_⟩) hchar ?_
          · have hgpos : ((RingBuffer.blank (2 ^ j) (0 : UInt8)).push
                (uploadHeader type reply file.length).get).gpos = 0 := by
              rw [RingBuffer.push, hpush]
              rfl
            rw [hgpos, Nat.zero_add]
            exact hstrict
          · rw [heq, hq]
            simp only [List.append_nil, List.nil_append, List.append_assoc]

theorem InOrder.step (h : InOrder env c given promise) (t : SendStep)
    (hkeeps : KeepsOrder env c t) :
    ∃ c', c.sendStep env t = some c' ∧
      InOrder env c' (given ++ delivered c t) (promise ++ promised env c t) := by
  cases t with
  | send builder =>
      refine ⟨_, rfl, ?_⟩
      rw [delivered, List.append_nil]
      exact h.send builder
  | upload type file reply =>
      refine ⟨_, rfl, ?_⟩
      rw [delivered, List.append_nil]
      exact h.upload type file reply hkeeps
  | tick =>
      rw [delivered, promised, List.append_nil, List.append_nil]
      exact h.tick
  | doSend accepts =>
      refine ⟨_, rfl, ?_⟩
      rw [promised, List.append_nil]
      exact h.doSend accepts

/-! ## Runs -/

theorem InOrder.run (h : InOrder env c given promise) (steps : List SendStep)
    (hkeeps : c.AllKeepOrder env steps) :
    ∃ c', c.sendRun env steps = some c' ∧
      InOrder env c' (given ++ c.streamOf delivered env steps)
        (promise ++ c.streamOf (promised env) env steps) := by
  induction steps generalizing c given promise with
  | nil =>
      refine ⟨c, rfl, ?_⟩
      rw [streamOf, streamOf, List.append_nil, List.append_nil]
      exact h
  | cons t steps ih =>
      obtain ⟨c₁, hstep, h₁⟩ := h.step t hkeeps.1
      obtain ⟨c', hrun, h'⟩ := ih h₁ (hkeeps.2 c₁ hstep)
      refine ⟨c', ?_, ?_⟩
      · rw [sendRun, hstep, Option.bind_some]
        exact hrun
      · rw [streamOf, streamOf, hstep, Option.elim_some, Option.elim_some, ← List.append_assoc,
          ← List.append_assoc]
        exact h'

/-- A new client with a send buffer of `2 ^ k` bytes. -/
def start (j k : ℕ) (processor : PacketProcessor) : EOClient :=
  { initialized (Client.withBuffers j k) with processor := processor }

/-- What the client gets is always the start of the packets and files in the order of the
calls, and all of it when nothing is left to send. -/
theorem delivered_in_order (j k : ℕ) (processor : PacketProcessor) (steps : List SendStep)
    (hkeeps : (start j k processor).AllKeepOrder env steps) :
    ∃ c', (start j k processor).sendRun env steps = some c' ∧
      (start j k processor).streamOf delivered env steps <+:
        (start j k processor).streamOf (promised env) env steps ∧
      (c'.uploadFh = none → c'.sendBuffer.used = 0 →
        (start j k processor).streamOf delivered env steps =
          (start j k processor).streamOf (promised env) env steps) := by
  have hstart : InOrder env (start j k processor) [] [] :=
    .idle k [] rfl rfl (RingBuffer.represents_blank k 0) rfl
  obtain ⟨c', hrun, h⟩ := hstart.run steps hkeeps
  rw [List.nil_append, List.nil_append] at h
  refine ⟨c', hrun, ?_⟩
  cases h with
  | idle k q hfh hbuffer h heq =>
      refine ⟨⟨q, heq.symm⟩, fun _ hused => ?_⟩
      have hq : q = [] := List.eq_nil_of_length_eq_zero (h.used_eq ▸ hused)
      rw [heq, hq, List.append_nil]
  | uploading k k₂ q q₂ rest hfh h h₂ hread hchar heq =>
      refine ⟨⟨q ++ served env c'.uploadType rest ++ q₂, ?_⟩, fun hnone => ?_⟩
      · rw [heq]
        simp only [List.append_assoc]
      · rw [hnone] at hfh
        cases hfh

def noPK : TickEnv := ⟨true, false, none⟩

/-- The packet is on its way before the file is asked for. -/
def fileLater : List SendStep :=
  [.send (PacketBuilder.new .message .pong), .doSend 100, .upload .fileClass (some [1, 2, 3]) 11,
    .tick, .send (PacketBuilder.new .message .ping), .doSend 7, .doSend 7, .tick, .doSend 100]

theorem delivered_in_order_fileLater :
    (start 5 5 ⟨7, 9⟩).streamOf delivered noPK fileLater <+:
      (start 5 5 ⟨7, 9⟩).streamOf (promised noPK) noPK fileLater := by
  have hkeeps : (start 5 5 ⟨7, 9⟩).AllKeepOrder noPK fileLater := by decide +kernel
  obtain ⟨c', -, h, -⟩ := delivered_in_order 5 5 ⟨7, 9⟩ fileLater hkeeps
  exact h

/-- Half of the packet is on its way when the file is asked for. -/
def fileBetween : List SendStep :=
  [.send (PacketBuilder.new .message .pong), .doSend 2, .upload .fileClass (some [1, 2, 3]) 11,
    .tick, .doSend 100, .tick, .doSend 100]

theorem not_delivered_in_order_fileBetween :
    ∃ c', (start 5 5 ⟨7, 9⟩).sendRun noPK fileBetween = some c' ∧
      ¬ (start 5 5 ⟨7, 9⟩).streamOf delivered noPK fileBetween <+:
        (start 5 5 ⟨7, 9⟩).streamOf (promised noPK) noPK fileBetween := by
  have hsome : ((start 5 5 ⟨7, 9⟩).sendRun noPK fileBetween).isSome = true := by decide +kernel
  obtain ⟨c', hc'⟩ := Option.isSome_iff_exists.mp hsome
  exact ⟨c', hc', by decide +kernel⟩

end EOClient

end ArenaServ
