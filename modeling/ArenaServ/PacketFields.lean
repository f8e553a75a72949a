import ArenaServ.PacketStream

/-!
# Typed fields written and read back

A list of typed fields is written by the `Add` calls of `PacketBuilder` and read
by the matching `Get` calls of `PacketReader`. The reader is told the kinds of
the fields only, and the lengths of the strings that no break character ends.
-/

namespace ArenaServ
open PacketProcessor

/-- The break character used on the wire. -/
def breakchar : UInt8 := 0xFF

inductive Field where
  | byte (b : UInt8)
  | char (n : Fin max1)
  | short (n : Fin max2)
  | three (n : Fin max3)
  | int (n : Fin (253 ^ 4))
  | breakString (s : Bytes)
  | string (s : Bytes)
  deriving Repr

/-- What a reader knows of a field before reading it. -/
inductive FieldKind where
  | byte | char | short | three | int | breakString
  | string (length : ℕ)
  deriving DecidableEq, Repr

inductive FieldValue where
  | number (n : ℕ)
  | text (s : Bytes)
  deriving DecidableEq, Repr

namespace Field

def kind : Field → FieldKind
  | byte _ => .byte
  | char _ => .char
  | short _ => .short
  | three _ => .three
  | int _ => .int
  | breakString _ => .breakString
  | string s => .string s.length

/-- The value the other side should get; a break string cannot carry the break character. -/
def value : Field → FieldValue
  | byte b => .number b.toNat
  | char n => .number n
  | short n => .number n
  | three n => .number n
  | int n => .number n
  | breakString s => .text (s.map fun c => if c = breakchar then 121 else c)
  | string s => .text s

def add (b : PacketBuilder) : Field → PacketBuilder
  | byte c => b.addByte c
  | char n => b.addChar (UInt8.ofNat n)
  | short n => b.addShort (UInt16.ofNat n)
  | three n => b.addThree (UInt32.ofNat n)
  | int n => b.addInt (UInt32.ofNat n)
  | breakString s => b.addBreakString s breakchar
  | string s => b.addString s

/-- The bytes a field takes. -/
def bytes : Field → Bytes
  | byte c => [c]
  | char n => (eNumber n).take 1
  | short n => (eNumber n).take 2
  | three n => (eNumber n).take 3
  | int n => (eNumber n).take 4
  | breakString s => PacketBuilder.replaceBreaks s breakchar ++ [breakchar]
  | string s => s

end Field

def FieldKind.get (r : PacketReader) : FieldKind → Option (FieldValue × PacketReader)
  | .byte => r.getByte.map fun (n, r) => (.number n, r)
  | .char => r.getChar.map fun (n, r) => (.number n, r)
  | .short => r.getShort.map fun (n, r) => (.number n, r)
  | .three => r.getThree.map fun (n, r) => (.number n, r)
  | .int => r.getInt.map fun (n, r) => (.number n, r)
  | .breakString => (r.getBreakString breakchar).map fun (s, r) => (.text s, r)
  | .string length => (r.getFixedString length).map fun (s, r) => (.text s, r)

/-- Write a list of fields, then at most one trailing string. -/
def buildPacket (family : PacketFamily) (action : PacketAction) (fields : List Field)
    (trailing : Option Bytes) : PacketBuilder :=
  let b := fields.foldl Field.add (PacketBuilder.new family action)
  match trailing with
  | some s => b.addString s
  | none => b

/-- Read fields of the given kinds in order. -/
def readFields : List FieldKind → PacketReader → Option (List FieldValue × PacketReader)
  | [], r => some ([], r)
  | k :: ks, r => do
      let (v, r) ← k.get r
      let (vs, r) ← readFields ks r
      return (v :: vs, r)

/-- Read the trailing string, when there is one, with `GetEndString`. -/
def readTrailing (hasTrailing : Bool) (r : PacketReader) : Option (Option Bytes × PacketReader) :=
  if hasTrailing then r.getEndString.map fun (s, r) => (some s, r) else some (none, r)

/-! ## Writing -/

theorem add_data (b : PacketBuilder) (f : Field) : (f.add b).data = b.data ++ f.bytes := by
  cases f with
  | byte c => rfl
  | char n =>
      have hn : (UInt8.ofNat n).toNat = n := UInt8.toNat_ofNat_of_lt' (n.isLt.trans (by decide))
      simp only [Field.add, PacketBuilder.addChar, Field.bytes, hn]
  | short n =>
      have hn : (UInt16.ofNat n).toNat = n := UInt16.toNat_ofNat_of_lt' (n.isLt.trans (by decide))
      simp only [Field.add, PacketBuilder.addShort, Field.bytes, hn]
  | three n =>
      have hn : (UInt32.ofNat n).toNat = n := UInt32.toNat_ofNat_of_lt' (n.isLt.trans (by decide))
      simp only [Field.add, PacketBuilder.addThree, Field.bytes, hn]
  | int n =>
      have hn : (UInt32.ofNat n).toNat = n := UInt32.toNat_ofNat_of_lt' (n.isLt.trans (by decide))
      simp only [Field.add, PacketBuilder.addInt, Field.bytes, hn]
  | breakString s => simp [Field.add, PacketBuilder.addBreakString, Field.bytes]
  | string s => rfl

theorem foldl_add (b : PacketBuilder) (fields : List Field) :
    fields.foldl Field.add b = { b with data := b.data ++ fields.flatMap Field.bytes } := by
  induction fields generalizing b with
  | nil => simp
  | cons f fields ih =>
      have hf : f.add b = { b with data := b.data ++ f.bytes } := by
        rw [← add_data b f]
        cases f <;> rfl
      rw [List.foldl_cons, ih, hf]
      simp

theorem buildPacket_eq (family : PacketFamily) (action : PacketAction) (fields : List Field)
    (trailing : Option Bytes) :
    buildPacket family action fields trailing =
      ⟨pid family action, fields.flatMap Field.bytes ++ trailing.getD [], 0⟩ := by
  have hnew : PacketBuilder.new family action = ⟨pid family action, [], 0⟩ := by
    rw [PacketBuilder.new, PacketBuilder.setID, if_neg (pid_ne_zero family action)]
  cases trailing <;> simp [buildPacket, foldl_add, hnew, PacketBuilder.addString]

/-! ## Reading -/

section Reading
variable (pre s rest : Bytes)

/-- A reader that has `s` and then `rest` in front of it. -/
def before : PacketReader := ⟨pre ++ (s ++ rest), pre.length⟩

def after : PacketReader := ⟨pre ++ (s ++ rest), pre.length + s.length⟩

theorem remaining_before : (before pre s rest).remaining = s.length + rest.length := by
  simp [before, PacketReader.remaining, PacketReader.length, sizeSub]

theorem remaining_after : (after pre s rest).remaining = rest.length := by
  rw [PacketReader.remaining, sizeSub_of_le (by simp [after, PacketReader.length])]
  simp only [after, PacketReader.length, List.length_append]
  omega

theorem after_append (t : Bytes) : after pre s (t ++ rest) = before (pre ++ s) t rest := by
  simp [before, after]

theorem drop_before : (before pre s rest).data.drop (before pre s rest).pos = s ++ rest := by
  simp [before]

theorem getFixedString_before :
    (before pre s rest).getFixedString s.length = some (s, after pre s rest) := by
  rw [PacketReader.getFixedString, if_neg (by rw [remaining_before]; omega),
    if_pos (by simp [before, PacketReader.length]), drop_before]
  simp [before, after]

theorem getNumber_before (hs : s.length ≤ 4) :
    (before pre s rest).getNumber s.length =
      some (number (byteAt (s ++ List.replicate (4 - s.length) 254) 0)
        (byteAt (s ++ List.replicate (4 - s.length) 254) 1)
        (byteAt (s ++ List.replicate (4 - s.length) 254) 2)
        (byteAt (s ++ List.replicate (4 - s.length) 254) 3), after pre s rest) := by
  have hmin : min s.length (before pre s rest).remaining = s.length := by
    rw [remaining_before]
    omega
  have hfit : (before pre s rest).pos + s.length ≤ (before pre s rest).length := by
    simp [before, PacketReader.length]
  simp only [PacketReader.getNumber, hmin, hfit, hs, and_self, ↓reduceIte, drop_before,
    List.take_left]
  rfl

theorem getByte_before (c : UInt8) :
    (before pre [c] rest).getByte = some (c.toNat, after pre [c] rest) := by
  have hrem := remaining_before pre [c] rest
  rw [PacketReader.getByte, if_neg (by rw [hrem]; simp),
    if_pos (by simp [before, PacketReader.length])]
  simp [before, after, byteAt]

theorem getBreakString_before (c : UInt8) (hs : c ∉ s) :
    (before pre (s ++ [c]) rest).getBreakString c =
      some (s, after pre (s ++ [c]) rest) := by
  have hpos : findFirstOf (before pre (s ++ [c]) rest).data c (before pre (s ++ [c]) rest).pos =
      pre.length + s.length := by
    rw [findFirstOf, drop_before]
    have hidx : ((s ++ [c]) ++ rest).findIdx? (· == c) = some s.length := by
      rw [List.findIdx?_eq_some_iff_getElem]
      refine ⟨by simp, by simp, ?_⟩
      intro j hj
      have hne : s[j] ≠ c := fun h => hs (h ▸ List.getElem_mem hj)
      simpa [List.getElem_append_left, hj] using hne
    rw [hidx]
    rfl
  have hlen : sizeSub (pre.length + s.length) (before pre (s ++ [c]) rest).pos = s.length := by
    simp [before, sizeSub]
  have hread := getFixedString_before pre s (c :: rest)
  rw [PacketReader.getBreakString, hpos, hlen]
  have hsame : before pre (s ++ [c]) rest = before pre s (c :: rest) := by simp [before]
  rw [hsame, hread]
  simp [after, Nat.add_assoc]

end Reading

/-- The bytes a narrow number leaves out are the unused 254. -/
theorem drop_eNumber {k n : ℕ} (hk : 1 ≤ k) (hk4 : k ≤ 4) (hn : n < 253 ^ k) :
    (eNumber n).drop k = List.replicate (4 - k) 254 := by
  have hpow : ∀ j, k ≤ j → ¬ 253 ^ j ≤ n := fun j hkj =>
    Nat.not_le.mpr (hn.trans_le (Nat.pow_le_pow_right (by decide) hkj))
  have h1 : k ≤ 1 → ¬ max1 ≤ n := hpow 1
  have h2 : k ≤ 2 → ¬ max2 ≤ n := hpow 2
  have h3 : k ≤ 3 → ¬ max3 ≤ n := hpow 3
  rcases (by omega : k = 1 ∨ k = 2 ∨ k = 3 ∨ k = 4) with rfl | rfl | rfl | rfl
  · simp [eNumber, h1, h2, h3, List.replicate]
  · simp [eNumber, h2, h3, List.replicate]
  · simp [eNumber, h3]
  · simp [eNumber]

theorem getNumber_eNumber {k n : ℕ} (hk : 1 ≤ k) (hk4 : k ≤ 4) (hn : n < 253 ^ k)
    (pre rest : Bytes) :
    (before pre ((eNumber n).take k) rest).getNumber k =
      some (n, after pre ((eNumber n).take k) rest) := by
  have hlen : ((eNumber n).take k).length = k := by simp [length_eNumber, hk4]
  have hfill : (eNumber n).take k ++ List.replicate (4 - k) 254 = eNumber n := by
    rw [← drop_eNumber hk hk4 hn, List.take_append_drop]
  have hread := getNumber_before pre ((eNumber n).take k) rest (by omega)
  rw [hlen, hfill, number_eNumber (hn.trans_le (Nat.pow_le_pow_right (by decide) hk4))] at hread
  exact hread

/-- Reading one field gives its value and stops right behind it. -/
theorem get_before (pre rest : Bytes) (f : Field) :
    f.kind.get (before pre f.bytes rest) = some (f.value, after pre f.bytes rest) := by
  cases f with
  | byte c =>
      simp [FieldKind.get, Field.kind, Field.bytes, Field.value, getByte_before]
  | char n =>
      have hread := getNumber_eNumber (k := 1) (by decide) (by decide) n.isLt pre rest
      have hlt : (n : ℕ) < 256 := n.isLt.trans (by decide)
      simp [FieldKind.get, Field.kind, Field.bytes, Field.value, PacketReader.getChar, hread, hlt]
  | short n =>
      have hread := getNumber_eNumber (k := 2) (by decide) (by decide) n.isLt pre rest
      have hlt : (n : ℕ) < 65536 := n.isLt.trans (by decide)
      simp [FieldKind.get, Field.kind, Field.bytes, Field.value, PacketReader.getShort, hread, hlt]
  | three n =>
      have hread := getNumber_eNumber (k := 3) (by decide) (by decide) n.isLt pre rest
      simp [FieldKind.get, Field.kind, Field.bytes, Field.value, PacketReader.getThree, hread]
  | int n =>
      have hread := getNumber_eNumber (k := 4) (by decide) (by decide) n.isLt pre rest
      simp [FieldKind.get, Field.kind, Field.bytes, Field.value, PacketReader.getInt, hread]
  | breakString s =>
      have hfree : breakchar ∉ PacketBuilder.replaceBreaks s breakchar := by
        simp only [PacketBuilder.replaceBreaks, List.mem_map, not_exists, not_and]
        intro c _ hc
        split_ifs at hc with h
        · exact absurd hc (by decide)
        · exact h hc
      have hread := getBreakString_before pre _ rest breakchar hfree
      simp only [FieldKind.get, Field.kind, Field.bytes, hread, Option.map_some]
      rfl
  | string s =>
      simp [FieldKind.get, Field.kind, Field.bytes, Field.value, getFixedString_before]

theorem readFields_before (pre rest : Bytes) (fields : List Field) :
    readFields (fields.map Field.kind) (before pre (fields.flatMap Field.bytes) rest) =
      some (fields.map Field.value, after pre (fields.flatMap Field.bytes) rest) := by
  induction fields generalizing pre with
  | nil => simp [readFields, before, after]
  | cons f fields ih =>
      have hhead : before pre ((f :: fields).flatMap Field.bytes) rest =
          before pre f.bytes (fields.flatMap Field.bytes ++ rest) := by
        simp [before]
      have hlast : after (pre ++ f.bytes) (fields.flatMap Field.bytes) rest =
          after pre ((f :: fields).flatMap Field.bytes) rest := by
        simp [after, Nat.add_assoc]
      simp only [List.map_cons, readFields]
      rw [hhead, get_before, after_append]
      simp only [Option.bind_eq_bind, Option.bind_some, ih, hlast]
      rfl

theorem readTrailing_before (pre : Bytes) (trailing : Option Bytes) :
    readTrailing trailing.isSome (before pre (trailing.getD []) []) =
      some (trailing, after pre (trailing.getD []) []) := by
  cases trailing with
  | none => simp [readTrailing, before, after]
  | some s =>
      have hrem : (before pre s []).remaining = s.length := by simpa using remaining_before pre s []
      simp [readTrailing, PacketReader.getEndString, hrem, getFixedString_before]

theorem number_take_two {n : ℕ} (hn : n < max2) :
    number (byteAt (eNumber n) 0) (byteAt (eNumber n) 1) 254 254 = n := by
  have h := number_eNumber (n := n) (hn.trans (by decide))
  rwa [eNumber_getD_of_lt_max2 hn, eNumber_getD_of_lt_max3 (hn.trans (by decide))] at h

/-- Everything written is read back in order, nothing is left over, the ids are those
the builder was made with, and the length prefix counts the bytes behind it. -/
theorem readFields_buildPacket (family : PacketFamily) (action : PacketAction)
    (fields : List Field) (trailing : Option Bytes) :
    let b := buildPacket family action fields trailing
    let r := PacketReader.ofData (b.get.drop 2)
    (∃ r₁ r₂ : PacketReader,
      readFields (fields.map Field.kind) r = some (fields.map Field.value, r₁) ∧
      readTrailing trailing.isSome r₁ = some (trailing, r₂) ∧
      r₂.remaining = 0) ∧
    r.action = action.toByte ∧ r.family = family.toByte ∧
    (b.data.length ≤ 64006 →
      number (byteAt b.get 0) (byteAt b.get 1) 254 254 = (b.get.drop 2).length) := by
  intro b r
  set body := fields.flatMap Field.bytes ++ trailing.getD [] with hbody
  have hb : b = ⟨pid family action, body, 0⟩ := buildPacket_eq family action fields trailing
  have hget : b.get = (eNumber ((body.length + 2) % 2 ^ 32)).take 2 ++
      ([action.toByte, family.toByte] ++ body) := by
    rw [hb, PacketBuilder.get, epid_pid]
    rfl
  have hdrop : b.get.drop 2 = [action.toByte, family.toByte] ++ body := by
    rw [hget]
    rfl
  have hr : r = before [action.toByte, family.toByte] (fields.flatMap Field.bytes)
      (trailing.getD []) := by
    simp only [r, hdrop]
    rfl
  have hfields := readFields_before [action.toByte, family.toByte] (trailing.getD []) fields
  have htrailing := readTrailing_before
    ([action.toByte, family.toByte] ++ fields.flatMap Field.bytes) trailing
  have hnext := after_append [action.toByte, family.toByte] (fields.flatMap Field.bytes) []
    (trailing.getD [])
  rw [List.append_nil] at hnext
  rw [hnext, ← hr] at hfields
  refine ⟨⟨_, _, hfields, htrailing, ?_⟩, ?_, ?_, ?_⟩
  · exact remaining_after _ _ _
  · simp [r, hdrop, PacketReader.ofData, PacketReader.action, PacketReader.length, byteAt]
  · simp [r, hdrop, PacketReader.ofData, PacketReader.family, PacketReader.length, byteAt]
  · intro hlen
    have hlen' : body.length + 2 < max2 := by
      have : body.length ≤ 64006 := by simpa only [hb] using hlen
      unfold max2
      omega
    have hmod : (body.length + 2) % 2 ^ 32 = body.length + 2 :=
      Nat.mod_eq_of_lt (hlen'.trans (by decide))
    rw [hdrop, hget, hmod]
    exact (number_take_two hlen').trans (by simp)

/-- The fields of a trade request. -/
def tradeRequestFields : List Field := [.char ⟨3, by decide⟩, .short ⟨500, by decide⟩]

theorem readFields_buildPacket_tradeRequest :
    let b := buildPacket .trade .request tradeRequestFields (some [97, 255, 98])
    number (byteAt b.get 0) (byteAt b.get 1) 254 254 = (b.get.drop 2).length :=
  (readFields_buildPacket .trade .request tradeRequestFields (some [97, 255, 98])).2.2.2
    (by decide)

end ArenaServ
