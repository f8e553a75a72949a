import ArenaServ.PacketProcessor
import Mathlib.Tactic.IntervalCases

/-!
# When `Decode` undoes `Encode`

`Encode` exchanges 0 and 128 in every byte behind the length prefix, `Decode`
only from the third byte of what it is given. The two cancel unless the run
reversal carries a 0 or a 128 into the first two bytes, or the encoded packet
starts with the two bytes by which `Decode` recognises an unencoded one.
-/

namespace ArenaServ.PacketProcessor
open RunReversal

/-- The two length bytes `PacketBuilder::Get` puts in front of `n` bytes. -/
def lengthBytes (n : ℕ) : Bytes := (eNumber n).take 2

def packet (action family : UInt8) (data : Bytes) : Bytes :=
  lengthBytes (data.length + 2) ++ action :: family :: data

/-- Two ends of a connection that share the key `m`. -/
def withKey (m : UInt8) : PacketProcessor := ⟨m, m⟩

def RoundTrips (m action family : UInt8) (data : Bytes) : Prop :=
  (withKey m).decode (((withKey m).encode (packet action family data)).drop 2) =
    action :: family :: data

/-- Nothing the fix-ups disagree on reaches the first two bytes, and the encoded
packet cannot be taken for an unencoded one. -/
def KeepsBody (m action family : UInt8) (data : Bytes) : Prop :=
  ¬ (action = 127 ∧ (action :: family :: data).getLast? = some 127) ∧
    ∀ c ∈ front (isMultiple m) action family data, c ≠ 0 ∧ c ≠ 128

instance (m action family : UInt8) (data : Bytes) : Decidable (RoundTrips m action family data) :=
  inferInstanceAs (Decidable (_ = _))

instance (m action family : UInt8) (data : Bytes) : Decidable (KeepsBody m action family data) :=
  inferInstanceAs (Decidable (_ ∧ _))

theorem xor_xor_high (c : UInt8) : c ^^^ 0x80 ^^^ 0x80 = c := by
  rw [UInt8.xor_assoc, UInt8.xor_self, UInt8.xor_zero]

theorem xor_high_eq_iff (c d : UInt8) : c ^^^ 0x80 = d ↔ c = d ^^^ 0x80 := by
  constructor
  · rintro rfl
    exact (xor_xor_high c).symm
  · rintro rfl
    exact xor_xor_high d

theorem scramble_eq (c : UInt8) :
    scramble c = if c = 0 then 0 else if c = 128 then 128 else c ^^^ 0x80 := by
  have h128 : c ^^^ 0x80 = 128 ↔ c = 0 := xor_high_eq_iff c 128
  have h0 : c ^^^ 0x80 = 0 ↔ c = 128 := xor_high_eq_iff c 0
  simp only [scramble, swapSpecial, h128, h0]

theorem scramble_scramble (c : UInt8) : scramble (scramble c) = c := by
  rw [scramble_eq c]
  by_cases h0 : c = 0
  · subst h0
    rfl
  · by_cases h128 : c = 128
    · subst h128
      rfl
    · rw [if_neg h0, if_neg h128, scramble, xor_xor_high]
      simp only [swapSpecial, if_neg h0, if_neg h128]

theorem scramble_xor_eq_iff (c : UInt8) : scramble c ^^^ 0x80 = c ↔ c ≠ 0 ∧ c ≠ 128 := by
  rw [scramble_eq]
  by_cases h0 : c = 0
  · subst h0
    decide
  · by_cases h128 : c = 128
    · subst h128
      decide
    · rw [if_neg h0, if_neg h128, xor_xor_high]
      exact ⟨fun _ => ⟨h0, h128⟩, fun _ => rfl⟩

theorem scramble_eq_initByte_iff (c : UInt8) : scramble c = initByte ↔ c = 127 := by
  constructor
  · intro h
    rw [← scramble_scramble c, h]
    rfl
  · rintro rfl
    rfl

theorem key_facts {m : UInt8} (hlo : 6 ≤ m) (hhi : m ≤ 12) :
    m ≠ 0 ∧ isMultiple m 254 = false ∧ isMultiple m 127 = false := by
  have hlo' : 6 ≤ m.toNat := UInt8.le_iff_toNat_le.mp hlo
  have hhi' : m.toNat ≤ 12 := UInt8.le_iff_toNat_le.mp hhi
  rw [← UInt8.ofNat_toNat (x := m)]
  generalize m.toNat = n at hlo' hhi'
  interval_cases n <;> decide

/-- A separator in second place keeps the two bytes in front of the body. -/
theorem reverseRuns_behind_separator {p : UInt8 → Bool} (a : UInt8) {b : UInt8} (hb : p b = false)
    (s : Bytes) : reverseRuns p (a :: b :: s) = a :: b :: reverseRuns p s := by
  cases ha : p a with
  | true => exact reverseRuns_append_cons (r := [a]) (by simpa using ha) hb s
  | false => rw [reverseRuns_cons ha, reverseRuns_cons hb]

theorem encode_withKey {m : UInt8} (hm : m ≠ 0) {rawstr : Bytes}
    (hinit : ¬ (byteAt rawstr 2 = initByte ∧ byteAt rawstr 3 = initByte)) :
    (withKey m).encode rawstr = interleave (reverseRuns (isMultiple m) rawstr) := by
  rw [← dickWinder_eq_reverseRuns hm]
  exact if_neg (not_or.mpr ⟨hm, hinit⟩)

theorem decode_withKey {m : UInt8} (hm : m ≠ 0) {str : Bytes}
    (hinit : ¬ (byteAt str 0 = initByte ∧ byteAt str 1 = initByte)) :
    (withKey m).decode str = reverseRuns (isMultiple m) (deinterleave str) := by
  rw [← dickWinder_eq_reverseRuns hm]
  exact if_neg (not_or.mpr ⟨hm, hinit⟩)

section Body
variable {m a b action family : UInt8} {data : Bytes}

/-- What `Encode` leaves behind the prefix, for a prefix whose second byte ends no run. -/
def encodedBody (m : UInt8) (s : Bytes) : Bytes :=
  (interleave (254 :: 254 :: reverseRuns (isMultiple m) s)).drop 2

theorem length_encodedBody (s : Bytes) : (encodedBody m s).length = s.length := by
  simp [encodedBody, length_interleave]

theorem byteAt_drop_interleave (w : Bytes) {q : ℕ} (hq : q < w.length) :
    byteAt ((interleave (a :: b :: w)).drop 2) q = scramble (byteAt w (drawn w.length q)) := by
  have hbody := byteAt_interleave_body (a :: b :: w) (q := q) (by simpa using hq)
  rw [show (a :: b :: w).length - 2 = w.length from rfl] at hbody
  rw [byteAt, List.getD_eq_getElem?_getD, List.getElem?_drop, Nat.add_comm 2 q,
    ← List.getD_eq_getElem?_getD]
  exact hbody

theorem byteAt_encodedBody (s : Bytes) {q : ℕ} (hq : q < s.length) :
    byteAt (encodedBody m s) q =
      scramble (byteAt (reverseRuns (isMultiple m) s) (drawn s.length q)) := by
  rw [encodedBody, byteAt_drop_interleave _ (by simpa using hq), length_reverseRuns]

theorem drop_encode (hm : m ≠ 0) (hb : isMultiple m b = false)
    (hinit : ¬ (action = initByte ∧ family = initByte)) :
    ((withKey m).encode (a :: b :: action :: family :: data)).drop 2 =
      encodedBody m (action :: family :: data) := by
  have hraw : ¬ (byteAt (a :: b :: action :: family :: data) 2 = initByte ∧
      byteAt (a :: b :: action :: family :: data) 3 = initByte) := hinit
  rw [encode_withKey hm hraw, reverseRuns_behind_separator a hb]
  apply ext_byteAt (by simp [encodedBody, length_interleave])
  intro q hq
  have hq' : q < (reverseRuns (isMultiple m) (action :: family :: data)).length := by
    simp only [List.length_drop, length_interleave, List.length_cons] at hq
    omega
  rw [byteAt_drop_interleave _ hq', encodedBody, byteAt_drop_interleave _ hq']

/-- The encoded body looks unencoded exactly when the body starts and ends with 127. -/
theorem encodedBody_init_iff (h127 : isMultiple m 127 = false) :
    (byteAt (encodedBody m (action :: family :: data)) 0 = initByte ∧
        byteAt (encodedBody m (action :: family :: data)) 1 = initByte) ↔
      action = 127 ∧ (action :: family :: data).getLast? = some 127 := by
  rw [byteAt_encodedBody _ (by simp), byteAt_encodedBody _ (by simp), scramble_eq_initByte_iff,
    scramble_eq_initByte_iff]
  have hne : reverseRuns (isMultiple m) (action :: family :: data) ≠ [] := by
    intro h
    have := congrArg List.length h
    simp at this
  have hfirst : byteAt (reverseRuns (isMultiple m) (action :: family :: data))
      (drawn (action :: family :: data).length 0) = 127 ↔ action = 127 := by
    have h := head?_reverseRuns_eq_some_iff h127 (action :: family :: data)
    rw [List.head?_eq_some_head hne, List.head?_cons, Option.some.injEq, Option.some.injEq] at h
    rw [← h, List.head_eq_getElem, ← byteAt_eq_getElem]
    rfl
  have hlast : byteAt (reverseRuns (isMultiple m) (action :: family :: data))
      (drawn (action :: family :: data).length 1) = 127 ↔
      (action :: family :: data).getLast? = some 127 := by
    have h := getLast?_reverseRuns_eq_some_iff h127 (action :: family :: data)
    rw [List.getLast?_eq_some_getLast hne, Option.some.injEq] at h
    rw [← h, List.getLast_eq_getElem, ← byteAt_eq_getElem, length_reverseRuns]
    rfl
  rw [hfirst, hlast]

/-- De-interleaving restores the reversed body up to the fix-ups of the first two bytes. -/
theorem byteAt_deinterleave_encodedBody {s : Bytes} (hs : 2 ≤ s.length) {k : ℕ}
    (hk : k < s.length) :
    byteAt (deinterleave (encodedBody m s)) k =
      if 2 ≤ k then byteAt (reverseRuns (isMultiple m) s) k
      else scramble (byteAt (reverseRuns (isMultiple m) s) k) ^^^ 0x80 := by
  rw [byteAt_deinterleave (by rwa [length_encodedBody]) (by rwa [length_encodedBody]),
    length_encodedBody, byteAt_encodedBody _ (slot_lt hk), drawn_slot hk, scramble_scramble]

theorem deinterleave_encodedBody_eq_iff :
    deinterleave (encodedBody m (action :: family :: data)) =
        reverseRuns (isMultiple m) (action :: family :: data) ↔
      ∀ c ∈ front (isMultiple m) action family data, c ≠ 0 ∧ c ≠ 128 := by
  set s := action :: family :: data with hs
  have hlen : s.length = data.length + 2 := rfl
  have hfront : front (isMultiple m) action family data =
      [byteAt (reverseRuns (isMultiple m) s) 0, byteAt (reverseRuns (isMultiple m) s) 1] := by
    rw [← take_two_reverseRuns]
    apply ext_byteAt (by simp [← hs, hlen])
    intro i hi
    have hi2 : i < 2 := by simpa [← hs, hlen] using hi
    rcases (by omega : i = 0 ∨ i = 1) with rfl | rfl <;>
      simp [byteAt, List.getD_eq_getElem?_getD, hs]
  have hpoint : deinterleave (encodedBody m s) = reverseRuns (isMultiple m) s ↔
      ∀ k < 2, scramble (byteAt (reverseRuns (isMultiple m) s) k) ^^^ 0x80 =
        byteAt (reverseRuns (isMultiple m) s) k := by
    constructor
    · intro h k hk
      have hk' := byteAt_deinterleave_encodedBody (m := m) (s := s) (by omega) (k := k) (by omega)
      rw [h, if_neg (by omega)] at hk'
      exact hk'.symm
    · intro h
      apply ext_byteAt (by simp [length_deinterleave, length_encodedBody])
      intro k hk
      rw [length_deinterleave, length_encodedBody] at hk
      rw [byteAt_deinterleave_encodedBody (by omega) hk]
      split_ifs with h2
      · rfl
      · exact h k (by omega)
  rw [hpoint, hfront]
  constructor
  · intro h c hc
    rcases (by simpa using hc :
        c = byteAt (reverseRuns (isMultiple m) s) 0 ∨ c = byteAt (reverseRuns (isMultiple m) s) 1)
      with rfl | rfl
    · exact (scramble_xor_eq_iff _).mp (h 0 (by omega))
    · exact (scramble_xor_eq_iff _).mp (h 1 (by omega))
  · intro h k hk
    apply (scramble_xor_eq_iff _).mpr
    rcases (by omega : k = 0 ∨ k = 1) with rfl | rfl
    · exact h _ (by simp)
    · exact h _ (by simp)

/-- `Decode` restores the body exactly when `KeepsBody` holds. -/
theorem decode_encodedBody_iff (hm : m ≠ 0) (h127 : isMultiple m 127 = false)
    (hinit : ¬ (action = initByte ∧ family = initByte)) :
    (withKey m).decode (encodedBody m (action :: family :: data)) = action :: family :: data ↔
      KeepsBody m action family data := by
  by_cases hraw : action = 127 ∧ (action :: family :: data).getLast? = some 127
  · have hbytes := (encodedBody_init_iff h127).mpr hraw
    have hsame : (withKey m).decode (encodedBody m (action :: family :: data)) =
        encodedBody m (action :: family :: data) := if_pos (Or.inr hbytes)
    constructor
    · intro h
      rw [hsame] at h
      rw [h] at hbytes
      exact absurd hbytes hinit
    · intro h
      exact absurd hraw h.1
  · rw [decode_withKey hm (mt (encodedBody_init_iff h127).mp hraw), KeepsBody,
      ← deinterleave_encodedBody_eq_iff]
    constructor
    · intro h
      refine ⟨hraw, reverseRuns_injective (p := isMultiple m) ?_⟩
      rw [h, reverseRuns_reverseRuns]
    · intro h
      rw [h.2, reverseRuns_reverseRuns]

end Body

theorem lengthBytes_of_lt {n : ℕ} (hn : n < max1) :
    lengthBytes n = [byteAt (eNumber n) 0, 254] := by
  rw [← eNumber_getD_of_lt_max1 hn]
  rfl

/-- For every key and every packet shorter than 253 bytes, `Decode` gives back what
`Encode` was given exactly when `KeepsBody` holds. -/
theorem roundTrips_iff_keepsBody (m action family : UInt8) (data : Bytes)
    (hlo : 6 ≤ m) (hhi : m ≤ 12) (hinit : ¬ (action = initByte ∧ family = initByte))
    (hlen : (packet action family data).length < 253) :
    RoundTrips m action family data ↔ KeepsBody m action family data := by
  obtain ⟨hm, h254, h127⟩ := key_facts hlo hhi
  have hn : data.length + 2 < max1 := by
    have : (packet action family data).length = 2 + (data.length + 2) := by
      simp [packet, lengthBytes, length_eNumber]
    unfold max1
    omega
  rw [RoundTrips, packet, lengthBytes_of_lt hn]
  simp only [List.cons_append, List.nil_append]
  rw [drop_encode hm h254 hinit]
  exact decode_encodedBody_iff hm h127 hinit

theorem roundTrips_iff_keepsBody_walk :
    RoundTrips 7 8 6 [128, 3, 0] ↔ KeepsBody 7 8 6 [128, 3, 0] :=
  roundTrips_iff_keepsBody 7 8 6 [128, 3, 0] (by decide) (by decide) (by decide) (by decide)

/-- A walk request whose first data byte is 0, under key 6: the family and the 0 form a
run, and the 0 is read back as the family 128. -/
theorem not_roundTrips_walk_zero :
    ¬ ∀ (m action family : UInt8) (data : Bytes), 6 ≤ m → m ≤ 12 →
      ¬ (action = initByte ∧ family = initByte) → (action ≠ 0 ∧ action ≠ 128) →
      (family ≠ 0 ∧ family ≠ 128) → (packet action family data).length < 253 →
      RoundTrips m action family data := by
  intro h
  exact absurd (h 6 1 6 [0] (by decide) (by decide) (by decide) (by decide) (by decide)
    (by decide)) (by decide +kernel)

end ArenaServ.PacketProcessor

/-!
## What the packet scrambling moves

`DickWinder` exchanges bytes in pairs and only inside a run of multiples of its key, so that it
undoes itself. The loops of `Encode` put every byte of a body at a place of its own, from which
those of `Decode` fetch it again.
-/

namespace ArenaServ.PacketProcessor
open RunReversal

/-- Bytes change places in pairs, and only inside a run of multiples of `emulti`. -/
def PermutesInRuns (emulti : UInt8) (str newstr : Bytes) : Prop :=
  newstr.length = str.length ∧ ∃ σ : ℕ → ℕ, ∀ i < str.length,
    σ i < str.length ∧ σ (σ i) = i ∧ newstr[i]? = str[σ i]? ∧
      (σ i ≠ i → SameRun (isMultiple emulti) str i (σ i))

/-- The loops of the two functions are inverse to each other on this body, behind any length bytes,
and each moves its bytes along one of two inverse permutations of the positions. -/
structure Interleaves (a b : UInt8) (body : Bytes) : Prop where
  gather_spread : gather ((spread (a :: b :: body)).drop 2) = body
  spread_gather : spread (a :: b :: gather body) = a :: b :: body
  drawn_slot : ∀ k < body.length, slot body.length k < body.length ∧
    drawn body.length (slot body.length k) = k
  slot_drawn : ∀ q < body.length, drawn body.length q < body.length ∧
    slot body.length (drawn body.length q) = q
  spread_slot : ∀ k < body.length,
    byteAt (spread (a :: b :: body)) (slot body.length k + 2) = byteAt body k ^^^ 0x80
  gather_drawn : ∀ q < body.length,
    byteAt (gather body) (drawn body.length q) = byteAt body q ^^^ 0x80

/-! ## The run reversal -/

theorem dickWinder_dickWinder (str : Bytes) (emulti : UInt8) :
    dickWinder (dickWinder str emulti) emulti = str := by
  by_cases h : emulti = 0
  · subst h
    rfl
  · rw [dickWinder_eq_reverseRuns h, dickWinder_eq_reverseRuns h, reverseRuns_reverseRuns]

theorem permutesInRuns_dickWinder (str : Bytes) (emulti : UInt8) :
    PermutesInRuns emulti str (dickWinder str emulti) := by
  by_cases h : emulti = 0
  · subst h
    exact ⟨rfl, id, fun i hi => ⟨hi, rfl, rfl, fun hne => absurd rfl hne⟩⟩
  · rw [dickWinder_eq_reverseRuns h]
    exact ⟨length_reverseRuns str, exists_mirror str⟩

/-! ## The loops -/

theorem drawn_lt {n q : ℕ} (h : q < n) : drawn n q < n := by
  unfold drawn
  split_ifs <;> omega

theorem slot_drawn {n q : ℕ} (h : q < n) : slot n (drawn n q) = q := by
  unfold slot drawn
  split_ifs <;> omega

variable (a b : UInt8) (body : Bytes)

theorem byteAt_spread_cons {q : ℕ} (hq : q < body.length) :
    byteAt (spread (a :: b :: body)) (q + 2) = byteAt body (drawn body.length q) ^^^ 0x80 :=
  byteAt_spread_body (a :: b :: body) (by simpa using hq)

theorem byteAt_drop_spread {q : ℕ} (hq : q < body.length) :
    byteAt ((spread (a :: b :: body)).drop 2) q =
      byteAt body (drawn body.length q) ^^^ 0x80 := by
  rw [← byteAt_spread_cons a b body hq, byteAt, List.getD_eq_getElem?_getD, List.getElem?_drop,
    Nat.add_comm 2 q, ← List.getD_eq_getElem?_getD]
  rfl

theorem length_drop_spread : ((spread (a :: b :: body)).drop 2).length = body.length := by
  simp [length_spread]

theorem gather_drop_spread (hlen : 2 ≤ body.length) :
    gather ((spread (a :: b :: body)).drop 2) = body := by
  apply ext_byteAt (by rw [length_gather, length_drop_spread])
  intro k hk
  rw [length_gather, length_drop_spread] at hk
  rw [byteAt_gather (by rwa [length_drop_spread]) (by rwa [length_drop_spread]),
    length_drop_spread, byteAt_drop_spread a b body (slot_lt hk), drawn_slot hk, xor_xor_high]

theorem spread_cons_gather (hlen : 2 ≤ body.length) :
    spread (a :: b :: gather body) = a :: b :: body := by
  have hfirst : (spread (a :: b :: gather body)).length = body.length + 2 := by
    rw [length_spread, List.length_cons, List.length_cons, length_gather]
  apply ext_byteAt hfirst
  intro i hi
  rw [hfirst] at hi
  by_cases hi2 : i < 2
  · rw [byteAt_spread_front _ hi2 (by simp only [List.length_cons]; omega)]
    rcases (by omega : i = 0 ∨ i = 1) with rfl | rfl <;> rfl
  · obtain ⟨q, rfl⟩ : ∃ q, i = q + 2 := ⟨i - 2, by omega⟩
    have hq : q < body.length := by omega
    rw [byteAt_spread_cons a b _ (by rwa [length_gather]), length_gather,
      byteAt_gather hlen (drawn_lt hq), slot_drawn hq, xor_xor_high]
    rfl

theorem interleaves (hlen : 2 ≤ body.length) : Interleaves a b body where
  gather_spread := gather_drop_spread a b body hlen
  spread_gather := spread_cons_gather a b body hlen
  drawn_slot := fun _ hk => ⟨slot_lt hk, drawn_slot hk⟩
  slot_drawn := fun _ hq => ⟨drawn_lt hq, slot_drawn hq⟩
  spread_slot := fun k hk => by rw [byteAt_spread_cons a b body (slot_lt hk), drawn_slot hk]
  gather_drawn := fun q hq => by rw [byteAt_gather hlen (drawn_lt hq), slot_drawn hq]

/-- `DickWinder` undoes itself and moves bytes only inside runs, and the loops of `Encode` and
`Decode` undo each other on every body of two bytes or more. -/
theorem scrambling_undone :
    (∀ str emulti, dickWinder (dickWinder str emulti) emulti = str ∧
      PermutesInRuns emulti str (dickWinder str emulti)) ∧
    ∀ a b body, 2 ≤ body.length → Interleaves a b body :=
  ⟨fun str emulti => ⟨dickWinder_dickWinder str emulti, permutesInRuns_dickWinder str emulti⟩,
    interleaves⟩

end ArenaServ.PacketProcessor
