import Mathlib.Data.Vector.Basic
import ArenaServ.BlockDigests
import ArenaServ.PacketNumber

/-!
# SHA-256

A password is hashed in blocks of 64 bytes. The context of a hash keeps what does not fill a block
in a buffer, whatever is in the rest of it. The digest is that of the standard, for a message in
any pieces, and its text has two hexadecimal digits for each of its bytes.
-/

namespace ArenaServ

/-! ## Words -/

def packU32 (src : Bytes) : UInt32 :=
  (src.getD 0 0).toUInt32 <<< 24 ||| (src.getD 1 0).toUInt32 <<< 16 |||
    (src.getD 2 0).toUInt32 <<< 8 ||| (src.getD 3 0).toUInt32

def unpackU32 (src : UInt32) : Bytes :=
  [(src >>> 24).toUInt8, (src >>> 16).toUInt8, (src >>> 8).toUInt8, src.toUInt8]

def rr32 (x y : UInt32) : UInt32 := x >>> y ||| x <<< (32 - y)

/-- `ctx->h`. -/
abbrev HashWords := Vector UInt32 8

namespace Sha256

def k : Array UInt32 := #[
  0x428A2F98, 0x71374491, 0xB5C0FBCF, 0xE9B5DBA5, 0x3956C25B, 0x59F111F1, 0x923F82A4, 0xAB1C5ED5,
  0xD807AA98, 0x12835B01, 0x243185BE, 0x550C7DC3, 0x72BE5D74, 0x80DEB1FE, 0x9BDC06A7, 0xC19BF174,
  0xE49B69C1, 0xEFBE4786, 0x0FC19DC6, 0x240CA1CC, 0x2DE92C6F, 0x4A7484AA, 0x5CB0A9DC, 0x76F988DA,
  0x983E5152, 0xA831C66D, 0xB00327C8, 0xBF597FC7, 0xC6E00BF3, 0xD5A79147, 0x06CA6351, 0x14292967,
  0x27B70A85, 0x2E1B2138, 0x4D2C6DFC, 0x53380D13, 0x650A7354, 0x766A0ABB, 0x81C2C92E, 0x92722C85,
  0xA2BFE8A1, 0xA81A664B, 0xC24B8B70, 0xC76C51A3, 0xD192E819, 0xD6990624, 0xF40E3585, 0x106AA070,
  0x19A4C116, 0x1E376C08, 0x2748774C, 0x34B0BCB5, 0x391C0CB3, 0x4ED8AA4A, 0x5B9CCA4F, 0x682E6FF3,
  0x748F82EE, 0x78A5636F, 0x84C87814, 0x8CC70208, 0x90BEFFFA, 0xA4506CEB, 0xBEF9A3F7, 0xC67178F2]

def h : HashWords := #v[
  0x6A09E667, 0xBB67AE85, 0x3C6EF372, 0xA54FF53A, 0x510E527F, 0x9B05688C, 0x1F83D9AB, 0x5BE0CD19]

/-- One turn of the loop that fills `w` up from 16 words. -/
def expand (w : Array UInt32) : Array UInt32 :=
  let i := w.size
  w.push (w[i - 16]! + (rr32 w[i - 15]! 7 ^^^ rr32 w[i - 15]! 18 ^^^ w[i - 15]! >>> 3) + w[i - 7]! +
    (rr32 w[i - 2]! 17 ^^^ rr32 w[i - 2]! 19 ^^^ w[i - 2]! >>> 10))

/-- One turn of the loop over `s`, all of whose words move on by one. -/
def mix (s : HashWords) (k w : UInt32) : HashWords :=
  let t := s[7] + (rr32 s[4] 6 ^^^ rr32 s[4] 11 ^^^ rr32 s[4] 25) +
    (s[6] ^^^ (s[4] &&& (s[5] ^^^ s[6]))) + k + w
  #v[t + (rr32 s[0] 2 ^^^ rr32 s[0] 13 ^^^ rr32 s[0] 22) + (s[0] &&& s[1] ||| s[2] &&& (s[0] ||| s[1])),
    s[0], s[1], s[2], s[3] + t, s[4], s[5], s[6]]

/-- `w`, from the 16 words of the block. -/
def words (data : Bytes) : Array UInt32 :=
  expand^[48] (Array.ofFn fun i : Fin 16 => packU32 (data.drop (4 * i)))

def process (h : HashWords) (data : Bytes) : HashWords :=
  let w := words data
  Vector.zipWith (· + ·) h ((List.range 64).foldl (fun s i => mix s k[i]! w[i]!) h)

end Sha256

/-! ## A context -/

structure Sha256Context where
  h : HashWords
  buf : Vector UInt8 64
  length : UInt64

namespace Sha256Context

open Sha256

/-- `memcpy` into the buffer at `pos`. -/
def copy (buf : Vector UInt8 64) (pos : ℕ) (input : Bytes) : Vector UInt8 64 :=
  Vector.ofFn fun i => if pos ≤ i then input.getD (i - pos) buf[i] else buf[i]

/-- Zeros from `pos` up to `bound`. -/
def zero (buf : Vector UInt8 64) (pos bound : ℕ) : Vector UInt8 64 :=
  copy buf pos (List.replicate (bound - pos) 0)

/-- The buffer is left as it was. -/
def start (ctx : Sha256Context) : Sha256Context := { ctx with h := Sha256.h, length := 0 }

def updateLoop (ctx : Sha256Context) (pos : ℕ) (input : Bytes) : Sha256Context :=
  if input.length = 0 ∨ 64 ≤ pos then ctx
  else if 64 ≤ input.length ∧ pos = 0 then
    updateLoop { ctx with h := process ctx.h (input.take 64) } pos (input.drop 64)
  else
    let n := if input.length < 64 - pos then input.length else 64 - pos
    let buf := copy ctx.buf pos (input.take n)
    if pos + n = 64 then
      updateLoop { ctx with h := process ctx.h buf.toList, buf := buf } 0 (input.drop n)
    else updateLoop { ctx with buf := buf } (pos + n) (input.drop n)
termination_by input.length
decreasing_by
  all_goals
    rw [List.length_drop]
    grind

def update (ctx : Sha256Context) (input : Bytes) : Sha256Context :=
  updateLoop { ctx with length := ctx.length + UInt64.ofNat input.length }
    (ctx.length &&& 63).toNat input

/-- `sha256_finish` up to the zeros in front of the length, and the position that it is at. -/
def closeMessage (ctx : Sha256Context) : Sha256Context × ℕ :=
  let pos := (ctx.length &&& 0x3F).toNat
  let buf := copy ctx.buf pos [0x80]
  if 56 < pos + 1 then
    let buf := zero buf (pos + 1) 64
    ({ ctx with h := process ctx.h buf.toList, buf := buf }, 0)
  else ({ ctx with buf := buf }, pos + 1)

def finish (ctx : Sha256Context) : Bytes :=
  let (ctx, pos) := ctx.closeMessage
  let buf := copy (zero ctx.buf pos 56) 56
    (unpackU32 (ctx.length >>> 29).toUInt32 ++ unpackU32 (ctx.length <<< 3).toUInt32)
  (process ctx.h buf.toList).toList.flatMap unpackU32

end Sha256Context

/-! ## The hasher -/

namespace Sha256Hasher

def hexDigit (n : UInt8) : UInt8 := "0123456789abcdef".toUTF8.data.getD n.toNat 0

def hexText (digest : Bytes) : Bytes :=
  digest.flatMap fun d : UInt8 => [hexDigit (d >>> 4 &&& 0x0F), hexDigit (d &&& 0x0F)]

/-- A context on the stack, with anything in it. -/
def hash (ctx : Sha256Context) (input : Bytes) : Bytes :=
  hexText (ctx.start.update input).finish

def check (ctx : Sha256Context) (toCheck hashed : Bytes) : Bool := hash ctx toCheck == hashed

end Sha256Hasher

/-! ## The standard -/

namespace Sha256

def ch (x y z : UInt32) : UInt32 := (x &&& y) ^^^ (~~~x &&& z)
def maj (x y z : UInt32) : UInt32 := (x &&& y) ^^^ (x &&& z) ^^^ (y &&& z)
def rotr (x : UInt32) (n : ℕ) : UInt32 := ⟨x.toBitVec.rotateRight n⟩
def bigSigma0 (x : UInt32) : UInt32 := rotr x 2 ^^^ rotr x 13 ^^^ rotr x 22
def bigSigma1 (x : UInt32) : UInt32 := rotr x 6 ^^^ rotr x 11 ^^^ rotr x 25
def smallSigma0 (x : UInt32) : UInt32 := rotr x 7 ^^^ rotr x 18 ^^^ x >>> 3
def smallSigma1 (x : UInt32) : UInt32 := rotr x 17 ^^^ rotr x 19 ^^^ x >>> 10

/-- The big-endian value of some bytes. -/
def beValue (bytes : Bytes) : ℕ := bytes.foldl (fun n b => 256 * n + b.toNat) 0

def beBytes : ℕ → ℕ → Bytes
  | 0, _ => []
  | size + 1, n => beBytes size (n / 256) ++ [UInt8.ofNat n]

/-- The message schedule of a block. -/
def schedule (block : Bytes) (t : ℕ) : UInt32 :=
  if t < 16 then UInt32.ofNat (beValue ((block.drop (4 * t)).take 4))
  else smallSigma1 (schedule block (t - 2)) + schedule block (t - 7) +
    smallSigma0 (schedule block (t - 15)) + schedule block (t - 16)
termination_by t

def step (s : HashWords) (k w : UInt32) : HashWords :=
  let t₁ := s[7] + bigSigma1 s[4] + ch s[4] s[5] s[6] + k + w
  let t₂ := bigSigma0 s[0] + maj s[0] s[1] s[2]
  #v[t₁ + t₂, s[0], s[1], s[2], s[3] + t₁, s[4], s[5], s[6]]

def rounds (block : Bytes) (s : HashWords) : ℕ → HashWords
  | 0 => s
  | t + 1 => step (rounds block s t) k[t]! (schedule block t)

def compress (s : HashWords) (block : Bytes) : HashWords :=
  Vector.zipWith (· + ·) s (rounds block s 64)

/-- A one bit, zeros, and the length of the message in bits as 64 bits. -/
def padding (length : ℕ) : Bytes :=
  0x80 :: (List.replicate ((119 - length % 64) % 64) 0 ++ beBytes 8 (8 * length))

def pad (message : Bytes) : Bytes := message ++ padding message.length

def digest (message : Bytes) : Bytes :=
  (BlockDigest.absorb 64 compress h (pad message)).toList.flatMap fun w => beBytes 4 w.toNat

/-- The primes up to 311, which are the first 64 ones. -/
def primes : List ℕ :=
  (List.range 312).filter fun p => 2 ≤ p ∧ ∀ d ∈ List.range p, 2 ≤ d → p % d ≠ 0

/-- The constants are the first 32 bits of the fractions of cube roots of primes. -/
theorem k_spec : ∀ t < 64, ∃ i < 7, (i * 2 ^ 32 + k[t]!.toNat) ^ 3 ≤ primes[t]! * 2 ^ 96 ∧
    primes[t]! * 2 ^ 96 < (i * 2 ^ 32 + k[t]!.toNat + 1) ^ 3 := by decide +kernel

theorem h_spec : ∀ i : Fin 8, ∃ j < 5, (j * 2 ^ 32 + h[i].toNat) ^ 2 ≤ primes[i]! * 2 ^ 64 ∧
    primes[i]! * 2 ^ 64 < (j * 2 ^ 32 + h[i].toNat + 1) ^ 2 := by decide +kernel

/-! ## Bits -/

theorem toBitVec_inj_getElem {x y : UInt32}
    (h : ∀ i (hi : i < 32), x.toBitVec[i] = y.toBitVec[i]) : x = y :=
  UInt32.toBitVec_inj.mp (BitVec.eq_of_getElem_eq h)

theorem xor_and_xor (x y z : UInt32) : z ^^^ (x &&& (y ^^^ z)) = ch x y z := by
  apply toBitVec_inj_getElem
  intro i hi
  simp only [ch, UInt32.toBitVec_xor, UInt32.toBitVec_and, UInt32.toBitVec_not,
    BitVec.getElem_xor, BitVec.getElem_and, BitVec.getElem_not]
  cases x.toBitVec[i] <;> cases y.toBitVec[i] <;> cases z.toBitVec[i] <;> rfl

theorem and_or_and (x y z : UInt32) : (x &&& y) ||| (z &&& (x ||| y)) = maj x y z := by
  apply toBitVec_inj_getElem
  intro i hi
  simp only [maj, UInt32.toBitVec_xor, UInt32.toBitVec_and, UInt32.toBitVec_or,
    BitVec.getElem_xor, BitVec.getElem_and, BitVec.getElem_or]
  cases x.toBitVec[i] <;> cases y.toBitVec[i] <;> cases z.toBitVec[i] <;> rfl

theorem rr32_eq_rotr (x : UInt32) {y : UInt32} (hpos : 0 < y.toNat) (hlt : y.toNat < 32) :
    rr32 x y = rotr x y.toNat := by
  have hsub : (32 - y).toBitVec.toNat = 32 - y.toNat := by
    rw [UInt32.toNat_toBitVec, UInt32.toNat_sub_of_le]
    · rfl
    · rw [UInt32.le_iff_toNat_le]
      exact hlt.le
  have hright : y.toBitVec.toNat % (32#32).toNat = y.toNat := Nat.mod_eq_of_lt hlt
  have hleft : (32 - y.toNat) % (32#32).toNat = 32 - y.toNat :=
    Nat.mod_eq_of_lt (Nat.sub_lt (by decide) hpos)
  apply UInt32.toBitVec_inj.mp
  rw [rr32, rotr, UInt32.toBitVec_or, UInt32.toBitVec_shiftRight, UInt32.toBitVec_shiftLeft,
    BitVec.rotateRight_def, BitVec.ushiftRight_eq', BitVec.shiftLeft_eq', BitVec.toNat_umod,
    BitVec.toNat_umod, hsub, Nat.mod_eq_of_lt hlt]
  exact congrArg₂ _ (congrArg _ hright) (congrArg _ hleft)

theorem xor_rr32 (x : UInt32) {a b c : UInt32} (ha : 0 < a.toNat ∧ a.toNat < 32)
    (hb : 0 < b.toNat ∧ b.toNat < 32) (hc : 0 < c.toNat ∧ c.toNat < 32) :
    rr32 x a ^^^ rr32 x b ^^^ rr32 x c =
      rotr x a.toNat ^^^ rotr x b.toNat ^^^ rotr x c.toNat := by
  rw [rr32_eq_rotr x ha.1 ha.2, rr32_eq_rotr x hb.1 hb.2, rr32_eq_rotr x hc.1 hc.2]

theorem bigSigma0_eq (x : UInt32) : rr32 x 2 ^^^ rr32 x 13 ^^^ rr32 x 22 = bigSigma0 x :=
  xor_rr32 x (by decide) (by decide) (by decide)

theorem bigSigma1_eq (x : UInt32) : rr32 x 6 ^^^ rr32 x 11 ^^^ rr32 x 25 = bigSigma1 x :=
  xor_rr32 x (by decide) (by decide) (by decide)

theorem smallSigma0_eq (x : UInt32) : rr32 x 7 ^^^ rr32 x 18 ^^^ x >>> 3 = smallSigma0 x := by
  have h7 : rr32 x 7 = rotr x 7 := rr32_eq_rotr x (by decide) (by decide)
  have h18 : rr32 x 18 = rotr x 18 := rr32_eq_rotr x (by decide) (by decide)
  simp only [h7, h18, smallSigma0]

theorem smallSigma1_eq (x : UInt32) : rr32 x 17 ^^^ rr32 x 19 ^^^ x >>> 10 = smallSigma1 x := by
  have h17 : rr32 x 17 = rotr x 17 := rr32_eq_rotr x (by decide) (by decide)
  have h19 : rr32 x 19 = rotr x 19 := rr32_eq_rotr x (by decide) (by decide)
  simp only [h17, h19, smallSigma1]

theorem mix_eq_step (s : HashWords) (k w : UInt32) : mix s k w = step s k w := by
  simp only [mix, step, bigSigma0_eq, bigSigma1_eq, xor_and_xor, and_or_and, UInt32.add_assoc]

/-! ## Bytes and words -/

theorem beValue_append_singleton (bytes : Bytes) (b : UInt8) :
    beValue (bytes ++ [b]) = 256 * beValue bytes + b.toNat := by
  rw [beValue, List.foldl_append]
  rfl

theorem length_beBytes (size n : ℕ) : (beBytes size n).length = size := by
  induction size generalizing n with
  | zero => rfl
  | succ size ih => rw [beBytes, List.length_append, ih, List.length_singleton]

theorem beValue_beBytes (size n : ℕ) : beValue (beBytes size n) = n % 256 ^ size := by
  induction size generalizing n with
  | zero => rw [Nat.pow_zero, Nat.mod_one]; rfl
  | succ size ih =>
      rw [beBytes, beValue_append_singleton, ih, UInt8.toNat_ofNat', Nat.pow_succ' (m := 256),
        Nat.mod_mul, Nat.add_comm]

/-- The bytes in front are those of the number without the bytes behind. -/
theorem beBytes_add (j size n : ℕ) :
    beBytes (j + size) n = beBytes j (n / 256 ^ size) ++ beBytes size n := by
  induction size generalizing n with
  | zero => rw [Nat.pow_zero, Nat.div_one, beBytes, List.append_nil]; rfl
  | succ size ih =>
      rw [← Nat.add_assoc, beBytes, ih, Nat.div_div_eq_div_mul, ← Nat.pow_succ', beBytes,
        List.append_assoc]

theorem beBytes_mod (size n : ℕ) : beBytes size (n % 256 ^ size) = beBytes size n := by
  induction size generalizing n with
  | zero => rfl
  | succ size ih =>
      have hdiv : n % 256 ^ (size + 1) / 256 = n / 256 % 256 ^ size := by
        rw [Nat.pow_succ', Nat.mod_mul_right_div_self]
      have hlast : UInt8.ofNat (n % 256 ^ (size + 1)) = UInt8.ofNat n := by
        apply UInt8.toNat_inj.mp
        rw [UInt8.toNat_ofNat', UInt8.toNat_ofNat', Nat.pow_succ', Nat.mod_mul_right_mod]
      rw [beBytes, hdiv, ih, hlast, beBytes]

theorem toUInt8_shiftRight (w : UInt32) {n : UInt32} (hn : n.toNat < 32) :
    (w >>> n).toUInt8 = UInt8.ofNat (w.toNat / 2 ^ n.toNat) := by
  apply UInt8.toNat_inj.mp
  rw [UInt32.toNat_toUInt8, UInt32.toNat_shiftRight, Nat.mod_eq_of_lt hn,
    Nat.shiftRight_eq_div_pow, UInt8.toNat_ofNat']

theorem unpackU32_eq (w : UInt32) : unpackU32 w = beBytes 4 w.toNat := by
  have h24 : (w >>> 24).toUInt8 = UInt8.ofNat (w.toNat / 256 / 256 / 256) := by
    rw [toUInt8_shiftRight w (by decide), Nat.div_div_eq_div_mul, Nat.div_div_eq_div_mul]
    rfl
  have h16 : (w >>> 16).toUInt8 = UInt8.ofNat (w.toNat / 256 / 256) := by
    rw [toUInt8_shiftRight w (by decide), Nat.div_div_eq_div_mul]
    rfl
  have h8 : (w >>> 8).toUInt8 = UInt8.ofNat (w.toNat / 256) := toUInt8_shiftRight w (by decide)
  have h0 : w.toUInt8 = UInt8.ofNat w.toNat := by
    apply UInt8.toNat_inj.mp
    rw [UInt32.toNat_toUInt8, UInt8.toNat_ofNat']
  rw [unpackU32, h24, h16, h8, h0]
  rfl

theorem toNat_shiftLeft_toUInt32 (b : UInt8) {n : UInt32} (hn : n.toNat ≤ 24) :
    (b.toUInt32 <<< n).toNat = 2 ^ n.toNat * b.toNat := by
  have hb := b.toNat_lt
  have hpow : 2 ^ n.toNat ≤ 2 ^ 24 := Nat.pow_le_pow_right (by decide) hn
  have hlt : b.toNat * 2 ^ n.toNat < 2 ^ 32 :=
    calc b.toNat * 2 ^ n.toNat ≤ b.toNat * 2 ^ 24 := Nat.mul_le_mul_left _ hpow
      _ < 2 ^ 8 * 2 ^ 24 := Nat.mul_lt_mul_of_pos_right hb (by decide)
  rw [UInt32.toNat_shiftLeft, UInt8.toNat_toUInt32,
    Nat.mod_eq_of_lt (show n.toNat < 32 by omega), Nat.shiftLeft_eq, Nat.mod_eq_of_lt hlt, Nat.mul_comm]

theorem packU32_eq (b₀ b₁ b₂ b₃ : UInt8) (rest : Bytes) :
    packU32 (b₀ :: b₁ :: b₂ :: b₃ :: rest) = UInt32.ofNat (beValue [b₀, b₁, b₂, b₃]) := by
  have h₀ := b₀.toNat_lt
  have h₁ := b₁.toNat_lt
  have h₂ := b₂.toNat_lt
  have h₃ := b₃.toNat_lt
  have hvalue : beValue [b₀, b₁, b₂, b₃] =
      2 ^ 24 * b₀.toNat + (2 ^ 16 * b₁.toNat + (2 ^ 8 * b₂.toNat + b₃.toNat)) := by
    simp only [beValue, List.foldl_cons, List.foldl_nil]
    omega
  have hbytes : packU32 (b₀ :: b₁ :: b₂ :: b₃ :: rest) =
      b₀.toUInt32 <<< 24 ||| b₁.toUInt32 <<< 16 ||| b₂.toUInt32 <<< 8 ||| b₃.toUInt32 := rfl
  have h24 := toNat_shiftLeft_toUInt32 b₀ (n := 24) (by decide)
  have h16 := toNat_shiftLeft_toUInt32 b₁ (n := 16) (by decide)
  have h8 := toNat_shiftLeft_toUInt32 b₂ (n := 8) (by decide)
  apply UInt32.toNat_inj.mp
  rw [hbytes, UInt32.toNat_or, UInt32.toNat_or, UInt32.toNat_or, h24, h16, h8,
    UInt8.toNat_toUInt32, UInt32.toNat_ofNat', Nat.or_assoc, Nat.or_assoc]
  change 2 ^ 24 * b₀.toNat ||| (2 ^ 16 * b₁.toNat ||| (2 ^ 8 * b₂.toNat ||| b₃.toNat)) = _
  rw [← Nat.two_pow_add_eq_or_of_lt (show b₃.toNat < 2 ^ 8 by omega) b₂.toNat,
    ← Nat.two_pow_add_eq_or_of_lt (show 2 ^ 8 * b₂.toNat + b₃.toNat < 2 ^ 16 by omega) b₁.toNat,
    ← Nat.two_pow_add_eq_or_of_lt
      (show 2 ^ 16 * b₁.toNat + (2 ^ 8 * b₂.toNat + b₃.toNat) < 2 ^ 24 by omega) b₀.toNat,
    hvalue, Nat.mod_eq_of_lt (by omega)]

/-! ## The compression -/

theorem packU32_drop {block : Bytes} {t : ℕ} (h : 4 * t + 4 ≤ block.length) :
    packU32 (block.drop (4 * t)) = UInt32.ofNat (beValue ((block.drop (4 * t)).take 4)) := by
  have hlen : 4 ≤ (block.drop (4 * t)).length := by
    rw [List.length_drop]
    omega
  match hdrop : block.drop (4 * t), hlen with
  | b₀ :: b₁ :: b₂ :: b₃ :: rest, _ => exact packU32_eq b₀ b₁ b₂ b₃ rest

/-- The words of a block so far are those of its schedule. -/
structure Scheduled (block : Bytes) (n : ℕ) (w : Array UInt32) : Prop where
  size : w.size = n
  get (t : ℕ) (ht : t < n) : w[t]! = schedule block t

theorem Scheduled.expand {block : Bytes} {n : ℕ} {w : Array UInt32}
    (h : Scheduled block n w) (hn : 16 ≤ n) : Scheduled block (n + 1) (expand w) where
  size := by rw [Sha256.expand, Array.size_push, h.size]
  get t ht := by
    have hw := h.size
    obtain hlt | rfl := Nat.lt_succ_iff_lt_or_eq.mp ht
    · rw [← h.get t hlt, Sha256.expand, getElem!_pos _ t (by rw [Array.size_push]; omega),
        Array.getElem_push_lt (by omega), getElem!_pos _ t (by omega)]
    · have hget := h.get
      subst hw
      rw [Sha256.expand, getElem!_pos _ w.size (by rw [Array.size_push]; omega),
        Array.getElem_push_eq, smallSigma0_eq, smallSigma1_eq, hget _ (by omega),
        hget _ (by omega), hget _ (by omega), hget _ (by omega)]
      conv_rhs => rw [schedule, if_neg (by omega)]
      ac_rfl

theorem scheduled_words {block : Bytes} (h : block.length = 64) :
    Scheduled block 64 (words block) := by
  have hstart : Scheduled block 16 (Array.ofFn fun i : Fin 16 => packU32 (block.drop (4 * i))) := by
    refine ⟨Array.size_ofFn, fun t ht => ?_⟩
    rw [getElem!_pos _ t (by rwa [Array.size_ofFn]), Array.getElem_ofFn, schedule, if_pos ht,
      packU32_drop (by omega)]
  have hiterate (i : ℕ) : Scheduled block (16 + i)
      (expand^[i] (Array.ofFn fun i : Fin 16 => packU32 (block.drop (4 * i)))) := by
    induction i with
    | zero => exact hstart
    | succ i ih =>
        rw [Function.iterate_succ_apply']
        exact ih.expand (by omega)
  exact hiterate 48

/-- The rounds of the loop are those of the standard. -/
theorem process_eq_compress (s : HashWords) {block : Bytes} (h : block.length = 64) :
    process s block = compress s block := by
  have hwords := scheduled_words h
  have hrounds (t : ℕ) (ht : t ≤ 64) :
      (List.range t).foldl (fun s i => mix s k[i]! (words block)[i]!) s = rounds block s t := by
    induction t with
    | zero => rfl
    | succ t ih =>
        rw [List.range_succ, List.foldl_append, ih (by omega), List.foldl_cons, List.foldl_nil,
          mix_eq_step, hwords.get t (by omega), rounds]
  rw [process, hrounds 64 le_rfl, compress]

set_option maxRecDepth 4000 in
/-- The text `abc`. -/
example : process h (pad [97, 98, 99]) = #v[0xBA7816BF, 0x8F01CFEA, 0x414140DE, 0x5DAE2223,
    0xB00361A3, 0x96177A9C, 0xB410FF61, 0xF20015AD] := by decide +kernel

end Sha256

/-! ## A message in pieces -/

namespace Sha256Context

open Sha256

theorem getElem_copy (buf : Vector UInt8 64) (pos : ℕ) (input : Bytes) {i : ℕ} (hi : i < 64) :
    (copy buf pos input)[i] = if pos ≤ i then input.getD (i - pos) buf[i] else buf[i] :=
  Vector.getElem_ofFn hi

theorem take_copy (buf : Vector UInt8 64) {pos : ℕ} {input : Bytes}
    (h : pos + input.length ≤ 64) :
    (copy buf pos input).toList.take (pos + input.length) = buf.toList.take pos ++ input := by
  apply List.ext_getElem
  · simp only [List.length_take, Vector.length_toList, List.length_append]
    omega
  · intro i hi hi'
    simp only [List.length_take, Vector.length_toList] at hi
    have hfront : (buf.toList.take pos).length = pos := by
      rw [List.length_take, Vector.length_toList]
      omega
    rw [List.getElem_take, Vector.getElem_toList, getElem_copy _ _ _ (by omega)]
    by_cases hpos : pos ≤ i
    · rw [if_pos hpos, List.getD_eq_getElem _ _ (by omega), List.getElem_append_right (by omega)]
      simp only [hfront]
    · rw [if_neg hpos, List.getElem_append_left (by omega), List.getElem_take,
        Vector.getElem_toList]

theorem copy_full {buf : Vector UInt8 64} {pos : ℕ} {input : Bytes}
    (h : pos + input.length = 64) : (copy buf pos input).toList = buf.toList.take pos ++ input := by
  rw [← take_copy buf h.le, h, List.take_of_length_le (by rw [Vector.length_toList])]

/-- A context has read a message: what does not fill a block is at the front of the buffer. -/
structure HasRead (message : Bytes) (ctx : Sha256Context) : Prop where
  holds : BlockDigest.Holds 64 process Sha256.h message ctx.h
    (ctx.buf.toList.take (message.length % 64))
  length : ctx.length = UInt64.ofNat message.length

variable {message input : Bytes} {ctx : Sha256Context}

theorem hasRead_start (ctx : Sha256Context) : HasRead [] ctx.start :=
  ⟨BlockDigest.holds_nil, rfl⟩

theorem HasRead.pos (h : HasRead message ctx) : (ctx.length &&& 63).toNat = message.length % 64 := by
  rw [h.length, UInt64.toNat_and, UInt64.toNat_ofNat']
  change _ &&& (2 ^ 6 - 1) = _
  rw [Nat.and_two_pow_sub_one_eq_mod]
  omega

theorem holds_updateLoop (input : Bytes) : ∀ (message : Bytes) (ctx : Sha256Context) (pos : ℕ),
    BlockDigest.Holds 64 process Sha256.h message ctx.h (ctx.buf.toList.take pos) → pos < 64 →
    let ctx' := updateLoop ctx pos input
    BlockDigest.Holds 64 process Sha256.h (message ++ input) ctx'.h
      (ctx'.buf.toList.take ((message ++ input).length % 64)) ∧ ctx'.length = ctx.length := by
  induction hlen : input.length using Nat.strong_induction_on generalizing input with
  | _ len ih =>
      intro message ctx pos hholds hpos
      have hwait : (ctx.buf.toList.take pos).length = pos := by
        rw [List.length_take, Vector.length_toList]
        omega
      have hmod := hholds.length_waiting
      rw [hwait] at hmod
      rw [updateLoop]
      split
      · rename_i hend
        have hnil : input = [] := List.length_eq_zero_iff.mp (by omega)
        rw [hnil, List.append_nil, ← hmod]
        exact ⟨hholds, rfl⟩
      have hsplit (n : ℕ) : message ++ input = message ++ input.take n ++ input.drop n := by
        rw [List.append_assoc, List.take_append_drop]
      split
      · -- A block of the input, which is not copied.
        rename_i hnext hblock
        obtain ⟨hfull, rfl⟩ := hblock
        have hpiece : (input.take 64).length = 64 := by
          rw [List.length_take]
          omega
        have hfill := hholds.fill (by decide) (input.take 64) (by rw [hwait, hpiece])
        have hdrop : (input.drop 64).length = input.length - 64 := List.length_drop
        rw [hsplit 64]
        exact ih _ (by omega) (input.drop 64) rfl _ { ctx with h := process ctx.h (input.take 64) } 0
          hfill (by decide)
      · rename_i hnext hblock
        set n := if input.length < 64 - pos then input.length else 64 - pos with hn
        have hnle : n ≤ input.length ∧ pos + n ≤ 64 ∧ 0 < n := by
          rw [hn]
          split <;> omega
        have hpiece : (input.take n).length = n := by
          rw [List.length_take]
          omega
        have hdrop : (input.drop n).length = input.length - n := List.length_drop
        rw [hsplit n]
        dsimp only
        split
        · rename_i hfull
          have hfill := hholds.fill (by decide) (input.take n) (by rw [hwait, hpiece, hfull])
          rw [← copy_full (by rw [hpiece, hfull])] at hfill
          exact ih _ (by omega) (input.drop n) rfl _ _ 0 hfill (by decide)
        · rename_i hfull
          have hmore := hholds.wait (by decide) (input.take n) (by rw [hwait, hpiece]; omega)
          rw [← take_copy _ (by rw [hpiece]; omega), hpiece] at hmore
          exact ih _ (by omega) (input.drop n) rfl _ _ (pos + n) hmore (by omega)

theorem HasRead.update (h : HasRead message ctx) (input : Bytes) :
    HasRead (message ++ input) (ctx.update input) := by
  have hlt : message.length % 64 < 64 := Nat.mod_lt _ (by decide)
  have hloop := holds_updateLoop input message
    { ctx with length := ctx.length + UInt64.ofNat input.length } _ h.holds hlt
  rw [Sha256Context.update, h.pos]
  refine ⟨hloop.1, ?_⟩
  rw [hloop.2, h.length, List.length_append, UInt64.ofNat_add]

theorem HasRead.updates (h : HasRead message ctx) (pieces : List Bytes) :
    HasRead (message ++ pieces.flatten) (pieces.foldl Sha256Context.update ctx) := by
  induction pieces generalizing message ctx with
  | nil => rwa [List.flatten_nil, List.append_nil]
  | cons piece pieces ih =>
      rw [List.flatten_cons, ← List.append_assoc]
      exact ih (h.update piece)

theorem take_zero {buf : Vector UInt8 64} {pos bound : ℕ} (hpos : pos ≤ bound)
    (hbound : bound ≤ 64) :
    (zero buf pos bound).toList.take bound =
      buf.toList.take pos ++ List.replicate (bound - pos) 0 := by
  have htake := take_copy buf (show pos + (List.replicate (bound - pos) (0 : UInt8)).length ≤ 64 by
    rw [List.length_replicate]
    omega)
  rwa [List.length_replicate, Nat.add_sub_cancel' hpos] at htake

/-- The two words of the length, of which the source cuts off what 64 bits cannot hold. -/
theorem unpackU32_length (n : ℕ) :
    unpackU32 (UInt64.ofNat n >>> 29).toUInt32 ++ unpackU32 (UInt64.ofNat n <<< 3).toUInt32 =
      beBytes 8 (8 * n) := by
  have hhigh : (UInt64.ofNat n >>> 29).toUInt32.toNat = 8 * n / 256 ^ 4 % 256 ^ 4 := by
    rw [UInt64.toNat_toUInt32, UInt64.toNat_shiftRight, UInt64.toNat_ofNat',
      Nat.shiftRight_eq_div_pow]
    change n % 2 ^ 64 / 2 ^ 29 % 2 ^ 32 = _
    omega
  have hlow : (UInt64.ofNat n <<< 3).toUInt32.toNat = 8 * n % 256 ^ 4 := by
    rw [UInt64.toNat_toUInt32, UInt64.toNat_shiftLeft, UInt64.toNat_ofNat', Nat.shiftLeft_eq]
    change n % 2 ^ 64 * 2 ^ 3 % 2 ^ 64 % 2 ^ 32 = _
    omega
  rw [unpackU32_eq, unpackU32_eq, hhigh, hlow, beBytes_mod, beBytes_mod]
  exact (beBytes_add 4 4 (8 * n)).symm

/-- The last block, whose length field is written behind zeros. -/
theorem lastBlock_eq (buf : Vector UInt8 64) {pos : ℕ} (hpos : pos ≤ 56) (n : ℕ) :
    (copy (zero buf pos 56) 56 (beBytes 8 n)).toList =
      buf.toList.take pos ++ (List.replicate (56 - pos) 0 ++ beBytes 8 n) := by
  rw [copy_full (by rw [length_beBytes]), take_zero hpos (by decide), List.append_assoc]

theorem take_copy_one (buf : Vector UInt8 64) {pos : ℕ} (hpos : pos < 64) :
    (copy buf pos [0x80]).toList.take (pos + 1) = buf.toList.take pos ++ [0x80] := by
  have htake := take_copy buf (show pos + [(0x80 : UInt8)].length ≤ 64 by
    rw [List.length_singleton]
    omega)
  rwa [List.length_singleton] at htake

/-- The block that has no room for the length. -/
theorem fullBlock_eq (buf : Vector UInt8 64) {pos : ℕ} (hpos : pos < 64) :
    (zero (copy buf pos [0x80]) (pos + 1) 64).toList =
      buf.toList.take pos ++ ([0x80] ++ List.replicate (64 - (pos + 1)) 0) := by
  have hall : (zero (copy buf pos [0x80]) (pos + 1) 64).toList.take 64 =
      (zero (copy buf pos [0x80]) (pos + 1) 64).toList :=
    List.take_of_length_le (Vector.length_toList).le
  rw [← hall, take_zero hpos le_rfl, take_copy_one buf hpos, List.append_assoc]

variable {s : HashWords} {waiting : Bytes}

theorem state_eq_digest
    (h : BlockDigest.Holds 64 process Sha256.h (pad message) s waiting) :
    s.toList.flatMap unpackU32 = digest message := by
  rw [h.state, BlockDigest.absorb_congr fun s block hblock => process_eq_compress s hblock, digest]
  exact congrArg₂ _ (funext unpackU32_eq) rfl

theorem holds_pad_short (h : BlockDigest.Holds 64 process Sha256.h message s waiting)
    (hshort : message.length % 64 < 56) :
    BlockDigest.Holds 64 process Sha256.h (pad message) (process s (waiting ++ [0x80] ++
      (List.replicate (56 - (message.length % 64 + 1)) 0 ++ beBytes 8 (8 * message.length)))) [] := by
  have hzeros : (119 - message.length % 64) % 64 = 56 - (message.length % 64 + 1) := by omega
  have hfill := h.fill (by decide) ([0x80] ++
    (List.replicate (56 - (message.length % 64 + 1)) 0 ++ beBytes 8 (8 * message.length))) (by
      rw [h.length_waiting]
      simp only [List.length_append, List.length_singleton, List.length_replicate, length_beBytes]
      omega)
  rw [pad, padding, hzeros, List.append_assoc]
  exact hfill

theorem holds_pad_long (h : BlockDigest.Holds 64 process Sha256.h message s waiting)
    (hlong : 56 ≤ message.length % 64) :
    BlockDigest.Holds 64 process Sha256.h (pad message) (process (process s (waiting ++
      ([0x80] ++ List.replicate (64 - (message.length % 64 + 1)) 0)))
      (List.replicate 56 0 ++ beBytes 8 (8 * message.length))) [] := by
  have hone := h.fill (by decide)
    ([0x80] ++ List.replicate (64 - (message.length % 64 + 1)) 0) (by
      rw [h.length_waiting]
      simp only [List.length_append, List.length_singleton, List.length_replicate]
      omega)
  have htwo := hone.fill (by decide)
    (List.replicate 56 0 ++ beBytes 8 (8 * message.length)) (by
      simp only [List.length_append, List.length_nil, List.length_replicate, length_beBytes])
  have hzeros : (119 - message.length % 64) % 64 = 64 - (message.length % 64 + 1) + 56 := by omega
  have hpad : pad message = message ++ ([0x80] ++
      List.replicate (64 - (message.length % 64 + 1)) 0) ++
      (List.replicate 56 0 ++ beBytes 8 (8 * message.length)) := by
    rw [pad, padding, hzeros, List.replicate_add, List.append_assoc message, List.append_assoc [0x80],
      List.append_assoc]
    rfl
  rw [hpad]
  exact htwo

theorem HasRead.closeMessage_short (h : HasRead message ctx) (hshort : message.length % 64 < 56) :
    ctx.closeMessage = ({ ctx with buf := copy ctx.buf (message.length % 64) [0x80] },
      message.length % 64 + 1) := by
  have hpos : (ctx.length &&& 0x3F).toNat = message.length % 64 := h.pos
  rw [closeMessage, hpos, if_neg (by omega)]

theorem HasRead.closeMessage_long (h : HasRead message ctx) (hlong : 56 ≤ message.length % 64) :
    ctx.closeMessage =
      let buf := zero (copy ctx.buf (message.length % 64) [0x80]) (message.length % 64 + 1) 64
      ({ ctx with h := process ctx.h buf.toList, buf := buf }, 0) := by
  have hpos : (ctx.length &&& 0x3F).toNat = message.length % 64 := h.pos
  rw [closeMessage, hpos, if_pos (by omega)]

/-- What `finish` hands to the last one or two rounds is the padded message. -/
theorem HasRead.finish (h : HasRead message ctx) : ctx.finish = digest message := by
  have hlt : message.length % 64 < 64 := Nat.mod_lt _ (by decide)
  obtain hshort | hlong := Nat.lt_or_ge (message.length % 64) 56
  · rw [Sha256Context.finish, h.closeMessage_short hshort]
    dsimp only
    rw [h.length, unpackU32_length, lastBlock_eq _ hshort, take_copy_one _ hlt]
    exact state_eq_digest (holds_pad_short h.holds hshort)
  · rw [Sha256Context.finish, h.closeMessage_long hlong]
    dsimp only
    rw [h.length, unpackU32_length, lastBlock_eq _ (by decide), fullBlock_eq _ hlt]
    exact state_eq_digest (holds_pad_long h.holds hlong)

/-- The digest of a message in pieces, in a context with anything in it, is that of the standard. -/
theorem finish_updates (ctx : Sha256Context) (pieces : List Bytes) :
    (pieces.foldl update ctx.start).finish = digest pieces.flatten :=
  ((hasRead_start ctx).updates pieces).finish

end Sha256Context

/-! ## Padded messages -/

namespace Sha256

theorem length_pad (message : Bytes) :
    (pad message).length = message.length + 1 + (119 - message.length % 64) % 64 + 8 := by
  rw [pad, padding, List.length_append, List.length_cons, List.length_append, List.length_replicate,
    length_beBytes]
  omega

theorem dvd_length_pad (message : Bytes) : 64 ∣ (pad message).length := by
  rw [length_pad]
  omega

def blocks (message : Bytes) : List Bytes := BlockDigest.fullBlocks 64 (pad message)

theorem blocks_ne_nil (message : Bytes) : blocks message ≠ [] := by
  intro h
  have hlen := BlockDigest.length_fullBlocks 64 (pad message)
  rw [← blocks, h, length_pad, List.length_nil] at hlen
  have hdvd := dvd_length_pad message
  rw [length_pad] at hdvd
  omega

variable {message message' : Bytes}

theorem drop_pad (message : Bytes) :
    (pad message).drop ((pad message).length - 8) = beBytes 8 (8 * message.length) := by
  have hsplit : pad message = message ++
      0x80 :: List.replicate ((119 - message.length % 64) % 64) 0 ++ beBytes 8 (8 * message.length) := by
    rw [pad, padding, List.append_assoc]
    rfl
  rw [hsplit, List.length_append, length_beBytes, Nat.add_sub_cancel, List.drop_left]

/-- The last block has the length of the message. -/
theorem length_eq_of_last (hlt : message.length < 2 ^ 61) (hlt' : message'.length < 2 ^ 61)
    (h : (pad message).drop ((pad message).length - 64) =
      (pad message').drop ((pad message').length - 64)) : message.length = message'.length := by
  have hend (m : Bytes) : ((pad m).drop ((pad m).length - 64)).drop 56 =
      beBytes 8 (8 * m.length) := by
    have hle : 64 ≤ (pad m).length := by
      have hdvd := dvd_length_pad m
      have hlen := length_pad m
      omega
    rw [List.drop_drop, ← drop_pad]
    congr 1
    omega
  have hbytes : beBytes 8 (8 * message.length) = beBytes 8 (8 * message'.length) := by
    rw [← hend, ← hend, h]
  have hvalue := congrArg beValue hbytes
  rw [beValue_beBytes, beValue_beBytes] at hvalue
  omega

theorem pad_injective (hlt : message.length < 2 ^ 61) (hlt' : message'.length < 2 ^ 61)
    (h : pad message = pad message') : message = message' := by
  have hlen := length_eq_of_last hlt hlt' (by rw [h])
  have htake := congrArg (List.take message.length) h
  rw [pad, pad, List.take_left] at htake
  rwa [hlen, List.take_left] at htake

/-- Two messages with one digest lead to a collision of the compression. -/
theorem collide_of_absorb_eq (hlt : message.length < 2 ^ 61) (hlt' : message'.length < 2 ^ 61)
    (hne : message ≠ message')
    (h : BlockDigest.absorb 64 compress Sha256.h (pad message) =
      BlockDigest.absorb 64 compress Sha256.h (pad message')) :
    BlockDigest.Collide compress Sha256.h (blocks message) (blocks message') := by
  have hpos : 0 < 64 := by decide
  refine BlockDigest.collide_of_ne ?_ h (blocks_ne_nil message) (blocks_ne_nil message') ?_
  · intro hblocks
    have hflat := congrArg List.flatten hblocks
    rw [blocks, blocks, BlockDigest.flatten_fullBlocks hpos (dvd_length_pad _),
      BlockDigest.flatten_fullBlocks hpos (dvd_length_pad _)] at hflat
    exact hne (pad_injective hlt hlt' hflat)
  · intro hlast
    have hlen := length_eq_of_last hlt hlt' (by
      rw [← BlockDigest.getLast_fullBlocks hpos (dvd_length_pad _) (blocks_ne_nil message),
        ← BlockDigest.getLast_fullBlocks hpos (dvd_length_pad _) (blocks_ne_nil message')]
      exact hlast)
    rw [blocks, blocks, BlockDigest.length_fullBlocks, BlockDigest.length_fullBlocks, length_pad,
      length_pad, hlen]

/-- The bytes of some words are those of no others. -/
theorem flatMap_beBytes_injective {ws ws' : List UInt32} (hlen : ws.length = ws'.length)
    (h : (ws.flatMap fun w => beBytes 4 w.toNat) = ws'.flatMap fun w => beBytes 4 w.toNat) :
    ws = ws' := by
  induction ws generalizing ws' with
  | nil => exact (List.length_eq_zero_iff.mp hlen.symm).symm
  | cons w ws ih =>
      cases ws' with
      | nil => cases hlen
      | cons w' ws' =>
          rw [List.flatMap_cons, List.flatMap_cons] at h
          obtain ⟨hword, hrest⟩ := List.append_inj h (by rw [length_beBytes, length_beBytes])
          have hvalue := congrArg beValue hword
          rw [beValue_beBytes, beValue_beBytes] at hvalue
          have hlt := w.toNat_lt
          have hlt' := w'.toNat_lt
          have hword : w.toNat = w'.toNat := by omega
          rw [UInt32.toNat_inj.mp hword, ih (Nat.succ.inj hlen) hrest]

theorem digest_injective (h : digest message = digest message') :
    BlockDigest.absorb 64 compress Sha256.h (pad message) =
      BlockDigest.absorb 64 compress Sha256.h (pad message') := by
  have hwords := flatMap_beBytes_injective (by rw [Vector.length_toList, Vector.length_toList]) h
  exact Vector.toList_inj.mp hwords

end Sha256

/-! ## Passwords -/

namespace Sha256Hasher

def unhexDigit (c : UInt8) : UInt8 := if c < 58 then c - 48 else c - 87

theorem unhexDigit_hexDigit (d : UInt8) :
    unhexDigit (hexDigit (d >>> 4 &&& 0x0F)) * 16 + unhexDigit (hexDigit (d &&& 0x0F)) = d := by
  have hall : ∀ n < 256, unhexDigit (hexDigit (UInt8.ofNat n >>> 4 &&& 0x0F)) * 16 +
      unhexDigit (hexDigit (UInt8.ofNat n &&& 0x0F)) = UInt8.ofNat n := by decide +kernel
  have hd := hall d.toNat d.toNat_lt
  rwa [UInt8.ofNat_toNat] at hd

theorem hexText_injective {digest digest' : Bytes} (h : hexText digest = hexText digest') :
    digest = digest' := by
  induction digest generalizing digest' with
  | nil =>
      cases digest' with
      | nil => rfl
      | cons d ds => cases h
  | cons d ds ih =>
      cases digest' with
      | nil => cases h
      | cons d' ds' =>
          obtain ⟨hhigh, hrest⟩ := List.cons.inj h
          obtain ⟨hlow, hrest⟩ := List.cons.inj hrest
          rw [← unhexDigit_hexDigit d, ← unhexDigit_hexDigit d', hhigh, hlow, ih hrest]

theorem hash_eq (ctx : Sha256Context) (input : Bytes) :
    hash ctx input = hexText (Sha256.digest input) := by
  have hfinish := ((Sha256Context.hasRead_start ctx).updates [input]).finish
  rw [List.flatten_singleton] at hfinish
  exact congrArg hexText hfinish

/-- A stored password is accepted, and another one only where two compressions that are made for
the two have one value. -/
theorem check_hash (ctx ctx' : Sha256Context) {password toCheck : Bytes}
    (hpassword : password.length < 2 ^ 61) (htoCheck : toCheck.length < 2 ^ 61) :
    (check ctx toCheck (hash ctx' password) = true ↔
      Sha256.digest toCheck = Sha256.digest password) ∧
    check ctx password (hash ctx' password) = true ∧
    (check ctx toCheck (hash ctx' password) = true → toCheck ≠ password →
      BlockDigest.Collide Sha256.compress Sha256.h (Sha256.blocks toCheck)
        (Sha256.blocks password)) := by
  have hiff (toCheck : Bytes) : check ctx toCheck (hash ctx' password) = true ↔
      Sha256.digest toCheck = Sha256.digest password := by
    rw [check, hash_eq, hash_eq, beq_iff_eq]
    exact ⟨hexText_injective, congrArg hexText⟩
  refine ⟨hiff toCheck, (hiff password).mpr rfl, ?_⟩
  intro haccepted hne
  exact Sha256.collide_of_absorb_eq htoCheck hpassword hne
    (Sha256.digest_injective ((hiff toCheck).mp haccepted))

def blankContext : Sha256Context := ⟨Vector.replicate 8 0, Vector.replicate 64 0, 0⟩

theorem check_hash_abc : check blankContext [97, 98, 99] (hash blankContext [97, 98, 99]) = true :=
  have hlt : ([97, 98, 99] : Bytes).length < 2 ^ 61 := by decide
  (check_hash blankContext blankContext hlt hlt).2.1

end Sha256Hasher

end ArenaServ
