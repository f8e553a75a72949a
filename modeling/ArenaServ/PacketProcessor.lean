import ArenaServ.PacketNumber
import ArenaServ.RunReversal

/-!
# The packet scrambling of `PacketProcessor`

`encode` and `decode` follow the source loop by loop. The run reversal of
`DickWinder` is an instance of `RunReversal.reverseRuns`; the two interleaving
loops are described by the index each position is written from.
-/

namespace ArenaServ

/-- The connection's keys for encoding and decoding. -/
structure PacketProcessor where
  emultiE : UInt8
  emultiD : UInt8
  deriving DecidableEq, Repr

namespace PacketProcessor

/-- `PACKET_A_INIT` and `PACKET_F_INIT`. -/
def initByte : UInt8 := 255

def windStep (emulti : UInt8) : Bytes × Bytes → UInt8 → Bytes × Bytes
  | (newstr, buffer), c =>
    if c % emulti = 0 then (newstr, buffer ++ [c])
    else ((if 0 < buffer.length then newstr ++ buffer.reverse else newstr) ++ [c], [])

def dickWinder (str : Bytes) (emulti : UInt8) : Bytes :=
  if emulti = 0 then str
  else
    let (newstr, buffer) := str.foldl (windStep emulti) ([], [])
    if 0 < buffer.length then newstr ++ buffer.reverse else newstr

def dickWinderE (p : PacketProcessor) (str : Bytes) : Bytes := dickWinder str p.emultiE

def dickWinderD (p : PacketProcessor) (str : Bytes) : Bytes := dickWinder str p.emultiD

/-- The body of both fix-up loops. -/
def swapSpecial (c : UInt8) : UInt8 := if c = 128 then 0 else if c = 0 then 128 else c

/-- `for (i = 2; i < length; ++i)` of both functions. -/
def fixUp (newstr : Bytes) : Bytes :=
  newstr.mapIdx fun i c => if 2 ≤ i then swapSpecial c else c

/-- `while (i < length) { newstr[i] = str[ii++] ^ 0x80; i += 2; }`, with the final `ii`. -/
def interleaveUp (str : Bytes) (length i ii : ℕ) (newstr : Bytes) : ℕ × Bytes :=
  if i < length then
    interleaveUp str length (i + 2) (ii + 1) (newstr.set i (byteAt str ii ^^^ 0x80))
  else (ii, newstr)
termination_by length - i

/-- `while (i >= 2) { newstr[i] = str[ii++] ^ 0x80; i -= 2; }`. -/
def interleaveDown (str : Bytes) : ℕ → ℕ → Bytes → Bytes
  | i + 2, ii, newstr =>
      interleaveDown str i (ii + 1) (newstr.set (i + 2) (byteAt str ii ^^^ 0x80))
  | _, _, newstr => newstr

/-- `Encode` after `DickWinderE`: the prefix is copied, the rest interleaved. -/
def interleave (str : Bytes) : Bytes :=
  let length := str.length
  let newstr := ((List.replicate length 0).set 0 (byteAt str 0)).set 1 (byteAt str 1)
  let (ii, newstr) := interleaveUp str length 2 2 newstr
  let i := if length % 2 = 1 then length - 1 - 1 else length - 1
  fixUp (interleaveDown str i ii newstr)

/-- The two loops of `Encode` alone. -/
def spread (str : Bytes) : Bytes :=
  let length := str.length
  let newstr := ((List.replicate length 0).set 0 (byteAt str 0)).set 1 (byteAt str 1)
  let (ii, newstr) := interleaveUp str length 2 2 newstr
  let i := if length % 2 = 1 then length - 1 - 1 else length - 1
  interleaveDown str i ii newstr

def encode (p : PacketProcessor) (rawstr : Bytes) : Bytes :=
  if p.emultiE = 0 ∨ (byteAt rawstr 2 = initByte ∧ byteAt rawstr 3 = initByte) then rawstr
  else interleave (p.dickWinderE rawstr)

/-- `while (i < length) { newstr[ii++] = str[i] ^ 0x80; i += 2; }`, with the final `i` and `ii`. -/
def gatherUp (str : Bytes) (length i ii : ℕ) (newstr : Bytes) : ℕ × ℕ × Bytes :=
  if i < length then
    gatherUp str length (i + 2) (ii + 1) (newstr.set ii (byteAt str i ^^^ 0x80))
  else (i, ii, newstr)
termination_by length - i

/-- `do { newstr[ii++] = str[i] ^ 0x80; i -= 2; } while (i >= 0)`. The index is
negative only for strings shorter than two bytes, which no caller passes. -/
def gatherDown (str : Bytes) (i : ℤ) (ii : ℕ) (newstr : Bytes) : Bytes :=
  let newstr := newstr.set ii (byteAt str i.toNat ^^^ 0x80)
  if 0 ≤ i - 2 then gatherDown str (i - 2) (ii + 1) newstr else newstr
termination_by i.toNat

/-- `Decode` before `DickWinderD`. -/
def deinterleave (str : Bytes) : Bytes :=
  let length := str.length
  let (i, ii, newstr) := gatherUp str length 0 0 (List.replicate length 0)
  let i : ℤ := i - 1
  let i := if length % 2 = 1 then i - 2 else i
  fixUp (gatherDown str i ii newstr)

/-- The two loops of `Decode` alone. -/
def gather (str : Bytes) : Bytes :=
  let length := str.length
  let (i, ii, newstr) := gatherUp str length 0 0 (List.replicate length 0)
  let i : ℤ := i - 1
  let i := if length % 2 = 1 then i - 2 else i
  gatherDown str i ii newstr

def decode (p : PacketProcessor) (str : Bytes) : Bytes :=
  if p.emultiD = 0 ∨ (byteAt str 0 = initByte ∧ byteAt str 1 = initByte) then str
  else p.dickWinderD (deinterleave str)

/-! ## Run reversal -/

def isMultiple (emulti c : UInt8) : Bool := c % emulti == 0

theorem foldl_windStep (emulti : UInt8) (str newstr buffer : Bytes) :
    (let r := str.foldl (windStep emulti) (newstr, buffer)
     if 0 < r.2.length then r.1 ++ r.2.reverse else r.1) =
      newstr ++ RunReversal.reverseRunsFrom (isMultiple emulti) buffer.reverse str := by
  induction str generalizing newstr buffer with
  | nil => cases buffer <;> simp [RunReversal.reverseRunsFrom]
  | cons c str ih =>
      by_cases hc : c % emulti = 0
      · simp only [List.foldl_cons, windStep, RunReversal.reverseRunsFrom, isMultiple, hc,
          beq_self_eq_true, ↓reduceIte]
        rw [ih]
        simp
      · have hflush : (if 0 < buffer.length then newstr ++ buffer.reverse else newstr) =
            newstr ++ buffer.reverse := by cases buffer <;> simp
        simp only [List.foldl_cons, windStep, if_neg hc, hflush, RunReversal.reverseRunsFrom,
          isMultiple, beq_eq_false_iff_ne.mpr hc, Bool.false_eq_true, ↓reduceIte]
        rw [ih]
        simp

theorem dickWinder_eq_reverseRuns {emulti : UInt8} (h : emulti ≠ 0) (str : Bytes) :
    dickWinder str emulti = RunReversal.reverseRuns (isMultiple emulti) str := by
  have hf := foldl_windStep emulti str [] []
  simpa only [dickWinder, if_neg h, RunReversal.reverseRuns, List.reverse_nil,
    List.nil_append] using hf

/-! ## The interleaving loops -/

theorem length_interleaveUp (str : Bytes) (length i ii : ℕ) (newstr : Bytes) :
    (interleaveUp str length i ii newstr).2.length = newstr.length := by
  fun_induction interleaveUp with
  | case1 i ii newstr hi ih => simpa using ih
  | case2 i ii newstr hi => rfl

theorem fst_interleaveUp (str : Bytes) (length i ii : ℕ) (newstr : Bytes) :
    (interleaveUp str length i ii newstr).1 = ii + (length + 1 - i) / 2 := by
  fun_induction interleaveUp with
  | case1 i ii newstr hi ih => rw [ih]; omega
  | case2 i ii newstr hi => simp only; omega

theorem byteAt_interleaveUp (str : Bytes) (length i ii : ℕ) (newstr : Bytes) {j : ℕ}
    (hj : j < newstr.length) :
    byteAt (interleaveUp str length i ii newstr).2 j =
      if i ≤ j ∧ j < length ∧ (j - i) % 2 = 0 then byteAt str (ii + (j - i) / 2) ^^^ 0x80
      else byteAt newstr j := by
  fun_induction interleaveUp with
  | case1 i ii newstr hi ih =>
      rw [ih (by simpa using hj), byteAt_set hj]
      by_cases hij : i = j
      · subst hij
        simp [hi]
      · have hcond : (i + 2 ≤ j ∧ j < length ∧ (j - (i + 2)) % 2 = 0) ↔
            (i ≤ j ∧ j < length ∧ (j - i) % 2 = 0) := by omega
        have hidx : i + 2 ≤ j → ii + 1 + (j - (i + 2)) / 2 = ii + (j - i) / 2 := by omega
        rw [if_neg hij]
        split_ifs with h1 h2 h2
        · rw [hidx h1.1]
        · exact absurd (hcond.mp h1) h2
        · exact absurd (hcond.mpr h2) h1
        · rfl
  | case2 i ii newstr hi => rw [if_neg (by omega)]

theorem length_interleaveDown (str : Bytes) (i ii : ℕ) (newstr : Bytes) :
    (interleaveDown str i ii newstr).length = newstr.length := by
  fun_induction interleaveDown with
  | case1 i ii newstr ih => simpa using ih
  | case2 i ii newstr hi => rfl

theorem byteAt_interleaveDown (str : Bytes) (i ii : ℕ) (newstr : Bytes) {j : ℕ}
    (hj : j < newstr.length) :
    byteAt (interleaveDown str i ii newstr) j =
      if 2 ≤ j ∧ j ≤ i ∧ (i - j) % 2 = 0 then byteAt str (ii + (i - j) / 2) ^^^ 0x80
      else byteAt newstr j := by
  fun_induction interleaveDown with
  | case1 i ii newstr ih =>
      rw [ih (by simpa using hj), byteAt_set hj]
      by_cases hij : i + 2 = j
      · subst hij
        simp
      · have hidx : j ≤ i → ii + 1 + (i - j) / 2 = ii + (i + 2 - j) / 2 := by omega
        rw [if_neg hij]
        split_ifs with h1 h2 h2
        · rw [hidx h1.2.1]
        · omega
        · omega
        · rfl
  | case2 i ii newstr hi =>
      have hi2 : i < 2 := by
        by_contra h
        obtain ⟨k, rfl⟩ : ∃ k, i = k + 2 := ⟨i - 2, by omega⟩
        exact hi k rfl
      rw [if_neg (by omega)]

theorem fst_gatherUp (str : Bytes) (length i ii : ℕ) (newstr : Bytes) :
    (gatherUp str length i ii newstr).1 = i + 2 * ((length + 1 - i) / 2) := by
  fun_induction gatherUp with
  | case1 i ii newstr hi ih => rw [ih]; omega
  | case2 i ii newstr hi => simp only; omega

theorem fst_snd_gatherUp (str : Bytes) (length i ii : ℕ) (newstr : Bytes) :
    (gatherUp str length i ii newstr).2.1 = ii + (length + 1 - i) / 2 := by
  fun_induction gatherUp with
  | case1 i ii newstr hi ih => rw [ih]; omega
  | case2 i ii newstr hi => simp only; omega

theorem length_gatherUp (str : Bytes) (length i ii : ℕ) (newstr : Bytes) :
    (gatherUp str length i ii newstr).2.2.length = newstr.length := by
  fun_induction gatherUp with
  | case1 i ii newstr hi ih => simpa using ih
  | case2 i ii newstr hi => rfl

theorem byteAt_gatherUp (str : Bytes) (length i ii : ℕ) (newstr : Bytes) {j : ℕ}
    (hj : j < newstr.length) :
    byteAt (gatherUp str length i ii newstr).2.2 j =
      if ii ≤ j ∧ i + 2 * (j - ii) < length then byteAt str (i + 2 * (j - ii)) ^^^ 0x80
      else byteAt newstr j := by
  fun_induction gatherUp with
  | case1 i ii newstr hi ih =>
      rw [ih (by simpa using hj), byteAt_set hj]
      by_cases hij : ii = j
      · subst hij
        simp [hi]
      · have hidx : ii + 1 ≤ j → i + 2 + 2 * (j - (ii + 1)) = i + 2 * (j - ii) := by omega
        rw [if_neg hij]
        split_ifs with h1 h2 h2
        · rw [hidx h1.1]
        · omega
        · omega
        · rfl
  | case2 i ii newstr hi => rw [if_neg (by omega)]

theorem length_gatherDown (str : Bytes) (i : ℤ) (ii : ℕ) (newstr : Bytes) :
    (gatherDown str i ii newstr).length = newstr.length := by
  fun_induction gatherDown with
  | case1 i ii newstr newstr' hi ih => simpa [newstr'] using ih
  | case2 i ii newstr newstr' hi => simp [newstr']

theorem byteAt_gatherDown (str : Bytes) (i : ℤ) (ii : ℕ) (newstr : Bytes) (hi : 0 ≤ i) {j : ℕ}
    (hj : j < newstr.length) :
    byteAt (gatherDown str i ii newstr) j =
      if ii ≤ j ∧ 2 * (j - ii) ≤ i.toNat then byteAt str (i.toNat - 2 * (j - ii)) ^^^ 0x80
      else byteAt newstr j := by
  fun_induction gatherDown with
  | case1 i ii newstr newstr' hi' ih =>
      rw [ih hi' (by simpa [newstr'] using hj), byteAt_set hj]
      by_cases hij : ii = j
      · subst hij
        simp
      · have hidx : ii + 1 ≤ j → (i - 2).toNat - 2 * (j - (ii + 1)) = i.toNat - 2 * (j - ii) := by
          omega
        rw [if_neg hij]
        split_ifs with h1 h2 h2
        · rw [hidx h1.1]
        · omega
        · omega
        · rfl
  | case2 i ii newstr newstr' hi' =>
      rw [byteAt_set hj]
      by_cases hij : ii = j
      · subst hij
        simp
      · rw [if_neg hij, if_neg (by omega)]

theorem length_fixUp (s : Bytes) : (fixUp s).length = s.length := by simp [fixUp]

theorem byteAt_fixUp {s : Bytes} {i : ℕ} (h : i < s.length) :
    byteAt (fixUp s) i = if 2 ≤ i then swapSpecial (byteAt s i) else byteAt s i := by
  rw [byteAt_eq_getElem (by simpa [fixUp] using h), byteAt_eq_getElem h]
  simp [fixUp]

/-! ## Positions -/

/-- Where byte `k` of a body of `n` bytes is put. -/
def slot (n k : ℕ) : ℕ := if 2 * k < n then 2 * k else 2 * (n - k) - 1

/-- Which byte of the body position `q` is filled from. -/
def drawn (n q : ℕ) : ℕ := if q % 2 = 0 then q / 2 else n - (q + 1) / 2

theorem slot_lt {n k : ℕ} (h : k < n) : slot n k < n := by
  unfold slot
  split_ifs <;> omega

theorem drawn_slot {n k : ℕ} (h : k < n) : drawn n (slot n k) = k := by
  unfold drawn slot
  split_ifs <;> omega

/-- The change `Encode` makes to every byte behind the prefix. -/
def scramble (c : UInt8) : UInt8 := swapSpecial (c ^^^ 0x80)

theorem interleave_eq (str : Bytes) : interleave str = fixUp (spread str) := rfl

theorem deinterleave_eq (str : Bytes) : deinterleave str = fixUp (gather str) := rfl

theorem length_spread (str : Bytes) : (spread str).length = str.length := by
  simp [spread, length_interleaveDown, length_interleaveUp]

theorem length_interleave (str : Bytes) : (interleave str).length = str.length := by
  rw [interleave_eq, length_fixUp, length_spread]

theorem byteAt_spread_front (str : Bytes) {i : ℕ} (hi : i < 2) (hlen : i < str.length) :
    byteAt (spread str) i = byteAt str i := by
  have hbuf : i < (((List.replicate str.length 0).set 0 (byteAt str 0)).set 1
      (byteAt str 1)).length := by simpa using hlen
  simp only [spread]
  rw [byteAt_interleaveDown _ _ _ _ (by simpa [length_interleaveUp] using hlen),
    if_neg (by omega), byteAt_interleaveUp _ _ _ _ _ hbuf, if_neg (by omega),
    byteAt_set (by simpa using hlen), byteAt_set (by simpa using hlen)]
  rcases (by omega : i = 0 ∨ i = 1) with rfl | rfl <;> rfl

theorem byteAt_spread_body (str : Bytes) {q : ℕ} (hq : q + 2 < str.length) :
    byteAt (spread str) (q + 2) = byteAt str (drawn (str.length - 2) q + 2) ^^^ 0x80 := by
  have hbuf : q + 2 < (((List.replicate str.length 0).set 0 (byteAt str 0)).set 1
      (byteAt str 1)).length := by simpa using hq
  simp only [spread]
  rw [byteAt_interleaveDown _ _ _ _ (by simpa [length_interleaveUp] using hq),
    byteAt_interleaveUp _ _ _ _ _ hbuf, fst_interleaveUp]
  unfold drawn
  by_cases heven : q % 2 = 0
  · rw [if_neg (by split_ifs <;> omega), if_pos (by omega), if_pos heven]
    congr 2
    omega
  · rw [if_pos (by split_ifs <;> omega), if_neg heven]
    congr 2
    split_ifs <;> omega

theorem byteAt_interleave_prefix (str : Bytes) {i : ℕ} (hi : i < 2) (hlen : i < str.length) :
    byteAt (interleave str) i = byteAt str i := by
  rw [interleave_eq, byteAt_fixUp (by rwa [length_spread]), if_neg (by omega),
    byteAt_spread_front str hi hlen]

theorem byteAt_interleave_body (str : Bytes) {q : ℕ} (hq : q + 2 < str.length) :
    byteAt (interleave str) (q + 2) =
      scramble (byteAt str (drawn (str.length - 2) q + 2)) := by
  rw [interleave_eq, byteAt_fixUp (by rwa [length_spread]), if_pos (by omega),
    byteAt_spread_body str hq, scramble]

theorem length_gather (str : Bytes) : (gather str).length = str.length := by
  simp [gather, length_gatherDown, length_gatherUp]

theorem length_deinterleave (str : Bytes) : (deinterleave str).length = str.length := by
  rw [deinterleave_eq, length_fixUp, length_gather]

theorem byteAt_gather {str : Bytes} (hlen : 2 ≤ str.length) {k : ℕ} (hk : k < str.length) :
    byteAt (gather str) k = byteAt str (slot str.length k) ^^^ 0x80 := by
  simp only [gather]
  rw [fst_gatherUp, fst_snd_gatherUp, byteAt_gatherDown _ _ _ _ (by split_ifs <;> omega)
    (by simpa [length_gatherUp] using hk), byteAt_gatherUp _ _ _ _ _ (by simpa using hk)]
  unfold slot
  by_cases hup : 2 * k < str.length
  · rw [if_neg (by omega), if_pos (by omega), if_pos hup]
    congr 2
    omega
  · rw [if_pos (by split_ifs <;> omega), if_neg hup]
    congr 2
    split_ifs <;> omega

theorem byteAt_deinterleave {str : Bytes} (hlen : 2 ≤ str.length) {k : ℕ} (hk : k < str.length) :
    byteAt (deinterleave str) k =
      if 2 ≤ k then scramble (byteAt str (slot str.length k))
      else byteAt str (slot str.length k) ^^^ 0x80 := by
  rw [deinterleave_eq, byteAt_fixUp (by rwa [length_gather]), byteAt_gather hlen hk]
  rfl

end PacketProcessor

end ArenaServ
