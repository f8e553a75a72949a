import ArenaServ.PacketRoundTrip
import ArenaServ.PacketFields

/-!
# The length prefix under `Encode`

`Encode` reverses the runs of the whole packet, the length prefix included, and
copies the first two bytes of the result. The receiver can frame the packet
exactly when those two bytes are still the prefix.
-/

namespace ArenaServ.PacketProcessor
open RunReversal

/-- The prefix survives and counts the bytes behind it. -/
def KeepsPrefix (m : UInt8) (b : PacketBuilder) : Prop :=
  let out := (withKey m).encode b.get
  byteAt out 0 = byteAt b.get 0 ∧ byteAt out 1 = byteAt b.get 1 ∧
    number (byteAt out 0) (byteAt out 1) 254 254 = out.length - 2

/-- The packet is sent unencoded, or the runs of multiples at its front reverse onto the
prefix itself. -/
def PrefixFixed (m : UInt8) (b : PacketBuilder) : Prop :=
  epid b.id = (initByte, initByte) ∨
    front (isMultiple m) (byteAt b.get 0) (byteAt b.get 1) (b.get.drop 2) =
      [byteAt b.get 0, byteAt b.get 1]

theorem get_eq (b : PacketBuilder) :
    b.get = byteAt b.get 0 :: byteAt b.get 1 :: b.get.drop 2 := rfl

theorem length_encode {m : UInt8} (hm : m ≠ 0) (rawstr : Bytes) :
    ((withKey m).encode rawstr).length = rawstr.length := by
  by_cases h : byteAt rawstr 2 = initByte ∧ byteAt rawstr 3 = initByte
  · exact congrArg List.length (if_pos (Or.inr h))
  · rw [encode_withKey hm h, length_interleave, length_reverseRuns]

theorem encode_of_init {m : UInt8} {b : PacketBuilder} (h : epid b.id = (initByte, initByte)) :
    (withKey m).encode b.get = b.get := by
  have h1 : (epid b.id).1 = initByte := congrArg Prod.fst h
  have h2 : (epid b.id).2 = initByte := congrArg Prod.snd h
  exact if_pos (Or.inr ⟨h1, h2⟩)

theorem take_two_encode {m : UInt8} (hm : m ≠ 0) {b : PacketBuilder}
    (h : epid b.id ≠ (initByte, initByte)) :
    [byteAt ((withKey m).encode b.get) 0, byteAt ((withKey m).encode b.get) 1] =
      front (isMultiple m) (byteAt b.get 0) (byteAt b.get 1) (b.get.drop 2) := by
  have hraw : ¬ (byteAt b.get 2 = initByte ∧ byteAt b.get 3 = initByte) :=
    fun hc => h (Prod.ext hc.1 hc.2)
  have hlen : 2 ≤ (reverseRuns (isMultiple m) b.get).length := by
    rw [length_reverseRuns, get_eq]
    simp
  rw [encode_withKey hm hraw, byteAt_interleave_prefix _ (by omega) (by omega),
    byteAt_interleave_prefix _ (by omega) (by omega), ← take_two_reverseRuns, ← get_eq]
  obtain ⟨x, y, t, ht⟩ : ∃ x y t, reverseRuns (isMultiple m) b.get = x :: y :: t := by
    match hr : reverseRuns (isMultiple m) b.get with
    | [] => simp [hr] at hlen
    | [x] => simp [hr] at hlen
    | x :: y :: t => exact ⟨x, y, t, rfl⟩
  rw [ht]
  rfl

theorem number_get {b : PacketBuilder} (hsize : b.addSize = 0) (hlen : b.data.length + 2 < max2) :
    number (byteAt b.get 0) (byteAt b.get 1) 254 254 = b.get.length - 2 := by
  have hmod : (b.data.length + 2 + b.addSize) % 2 ^ 32 = b.data.length + 2 := by
    rw [hsize]
    exact Nat.mod_eq_of_lt (hlen.trans (by decide))
  have h0 : byteAt b.get 0 = byteAt (eNumber (b.data.length + 2)) 0 := by
    simp only [PacketBuilder.get, hmod]
    rfl
  have h1 : byteAt b.get 1 = byteAt (eNumber (b.data.length + 2)) 1 := by
    simp only [PacketBuilder.get, hmod]
    rfl
  rw [h0, h1, number_take_two hlen]
  simp [PacketBuilder.get]

/-- For every key and every packet whose length fits the prefix, the encoded packet can be
framed exactly when `PrefixFixed` holds. -/
theorem keepsPrefix_iff_prefixFixed (m : UInt8) (hlo : 6 ≤ m) (hhi : m ≤ 12) (b : PacketBuilder)
    (hsize : b.addSize = 0) (hlen : b.data.length + 2 < max2) :
    KeepsPrefix m b ↔ PrefixFixed m b := by
  have hm : m ≠ 0 := (key_facts hlo hhi).1
  by_cases hinit : epid b.id = (initByte, initByte)
  · have henc := encode_of_init (m := m) hinit
    simp only [KeepsPrefix, henc, true_and]
    exact iff_of_true (number_get hsize hlen) (Or.inl hinit)
  · rw [PrefixFixed, or_iff_right hinit, ← take_two_encode hm hinit]
    constructor
    · rintro ⟨h0, h1, -⟩
      rw [h0, h1]
    · intro h
      obtain ⟨h0, h1⟩ : byteAt ((withKey m).encode b.get) 0 = byteAt b.get 0 ∧
          byteAt ((withKey m).encode b.get) 1 = byteAt b.get 1 := by simpa using h
      refine ⟨h0, h1, ?_⟩
      rw [h0, h1, length_encode hm]
      exact number_get hsize hlen

/-- A message of 1274 data bytes: its prefix is 12, 6, both multiples of the key 6. -/
def longMessage : PacketBuilder :=
  ⟨pid .talk .player, List.replicate 1274 65, 0⟩

theorem longMessage_short : longMessage.data.length + 2 < max2 := by
  have hlength : longMessage.data.length = 1274 := List.length_replicate
  rw [hlength]
  decide

theorem keepsPrefix_iff_prefixFixed_longMessage :
    KeepsPrefix 7 longMessage ↔ PrefixFixed 7 longMessage :=
  keepsPrefix_iff_prefixFixed 7 (by decide) (by decide) longMessage rfl longMessage_short

/-- Under key 6 the prefix of `longMessage` is exchanged to 6, 12. -/
theorem not_keepsPrefix_longMessage :
    ¬ ∀ (m : UInt8) (b : PacketBuilder), 6 ≤ m → m ≤ 12 → b.addSize = 0 →
      b.data.length + 2 < max2 → KeepsPrefix m b := by
  intro h
  obtain ⟨h0, -, -⟩ := h 6 longMessage (by decide) (by decide) rfl longMessage_short
  have hfront := take_two_encode (m := 6) (by decide) (b := longMessage) (by decide)
  rw [h0] at hfront
  exact absurd (congrArg List.head? hfront) (by decide +kernel)

end ArenaServ.PacketProcessor
