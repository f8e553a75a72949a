import ArenaServ.PacketFields
import ArenaServ.RunSteps

/-!
# Reading any packet

A packet may be shorter than what a handler reads from it. Numbers are padded then, and strings are
empty; but a break string goes on behind a delimiter that is not there, and then the position may
be behind the end.
-/

namespace ArenaServ
open PacketProcessor RunSteps

/-- The calls that take something from a packet. -/
inductive ReadCall where
  | number (length : ℕ)
  | byte
  | char
  | short
  | three
  | int
  | fixedString (length : ℕ)
  | breakString (breakchar : UInt8)
  | endString
  deriving DecidableEq, Repr

inductive ReadResult where
  | value (n : ℕ)
  | text (s : Bytes)
  deriving DecidableEq, Repr

/-- The number of at most four bytes, with 254 for those that are not there. -/
def paddedNumber (s : Bytes) : ℕ :=
  number (byteAt (s ++ List.replicate (4 - s.length) 254) 0)
    (byteAt (s ++ List.replicate (4 - s.length) 254) 1)
    (byteAt (s ++ List.replicate (4 - s.length) 254) 2)
    (byteAt (s ++ List.replicate (4 - s.length) 254) 3)

/-- What a call is to take from the bytes that are left, and what it returns for them. -/
inductive Reads : ReadCall → Bytes → Bytes → ReadResult → Prop
  | number (n : ℕ) (left : Bytes) (h : (left.take n).length ≤ 4) :
      Reads (.number n) left (left.take n) (.value (paddedNumber (left.take n)))
  | byte (b : UInt8) (rest : Bytes) : Reads .byte (b :: rest) [b] (.value b.toNat)
  | noByte : Reads .byte [] [] (.value 0)
  | char (left : Bytes) :
      Reads .char left (left.take 1) (.value (paddedNumber (left.take 1) % 2 ^ 8))
  | short (left : Bytes) :
      Reads .short left (left.take 2) (.value (paddedNumber (left.take 2) % 2 ^ 16))
  | three (left : Bytes) : Reads .three left (left.take 3) (.value (paddedNumber (left.take 3)))
  | int (left : Bytes) : Reads .int left (left.take 4) (.value (paddedNumber (left.take 4)))
  | fixedString (s rest : Bytes) : Reads (.fixedString s.length) (s ++ rest) s (.text s)
  | noString (n : ℕ) (left : Bytes) (h : left.length < n) :
      Reads (.fixedString n) left [] (.text [])
  | breakString (s rest : Bytes) (c : UInt8) (h : c ∉ s) :
      Reads (.breakString c) (s ++ [c] ++ rest) (s ++ [c]) (.text s)
  | endString (left : Bytes) : Reads .endString left left (.text left)

/-- A break string has its delimiter in the bytes that are left, and a number has four at most. -/
def ReadCall.Finds (left : Bytes) : ReadCall → Prop
  | .breakString c => c ∈ left
  | .number n => (left.take n).length ≤ 4
  | _ => True

namespace PacketReader

def call (r : PacketReader) : ReadCall → Option (ReadResult × PacketReader)
  | .number length => (r.getNumber length).map fun a => (.value a.1, a.2)
  | .byte => r.getByte.map fun a => (.value a.1, a.2)
  | .char => r.getChar.map fun a => (.value a.1, a.2)
  | .short => r.getShort.map fun a => (.value a.1, a.2)
  | .three => r.getThree.map fun a => (.value a.1, a.2)
  | .int => r.getInt.map fun a => (.value a.1, a.2)
  | .fixedString length => (r.getFixedString length).map fun a => (.text a.1, a.2)
  | .breakString breakchar => (r.getBreakString breakchar).map fun a => (.text a.1, a.2)
  | .endString => r.getEndString.map fun a => (.text a.1, a.2)

/-- The reader after a call. -/
def next (r : PacketReader) (c : ReadCall) : Option PacketReader := (r.call c).map (·.2)

/-- The bytes that have not been read. -/
def left (r : PacketReader) : Bytes := r.data.drop r.pos

/-- A call takes the next piece of the packet, and the position and the number of bytes that remain
are those behind it. -/
def ReadsExactly (r : PacketReader) (c : ReadCall) : Prop :=
  ∃ result r' piece, r.call c = some (result, r') ∧ Reads c r.left piece result ∧
    r'.data = r.data ∧ r'.pos = r.pos + piece.length ∧ r'.pos ≤ r'.length ∧
    r'.remaining = r'.length - r'.pos

variable {r : PacketReader} {piece rest : Bytes} {c : ReadCall}

/-! ## One call -/

/-- A reader that is within its packet is before what is left. -/
theorem eq_before (h : r.pos ≤ r.length) (hleft : r.left = piece ++ rest) :
    r = before (r.data.take r.pos) piece rest := by
  have hpos : (r.data.take r.pos).length = r.pos := List.length_take_of_le h
  unfold before
  rw [← hleft, left, List.take_append_drop, hpos]

/-- What a call of the source does that reads the piece that it is to read. -/
theorem readsExactly_of_after {result : ReadResult} (h : r.pos ≤ r.length)
    (hleft : r.left = piece ++ rest) (hreads : Reads c r.left piece result)
    (hcall : (before (r.data.take r.pos) piece rest).call c =
      some (result, after (r.data.take r.pos) piece rest)) : r.ReadsExactly c := by
  have hbefore := eq_before h hleft
  have hdata : r.data = r.data.take r.pos ++ (piece ++ rest) :=
    congrArg PacketReader.data hbefore
  have hpos : (r.data.take r.pos).length = r.pos := List.length_take_of_le h
  have hlength := congrArg List.length hdata
  rw [List.length_append, List.length_append, hpos] at hlength
  have hlen : (after (r.data.take r.pos) piece rest).length = r.data.length := by
    rw [hlength]
    simp only [after, PacketReader.length, List.length_append, hpos]
  rw [← hbefore] at hcall
  refine ⟨result, _, piece, hcall, hreads, hdata.symm, ?_, ?_, ?_⟩
  · change (r.data.take r.pos).length + _ = _
    rw [hpos]
  · rw [hlen]
    change (r.data.take r.pos).length + _ ≤ _
    omega
  · rw [remaining_after, hlen]
    change _ = _ - ((r.data.take r.pos).length + _)
    omega

theorem getNumber_min (r : PacketReader) (n : ℕ) :
    r.getNumber (min n r.remaining) = r.getNumber n := by
  unfold getNumber
  rw [Nat.min_assoc, Nat.min_self]

/-- A number takes what there is of its bytes. -/
theorem getNumber_left (r : PacketReader) {n : ℕ} (hfour : (r.left.take n).length ≤ 4) :
    (before (r.data.take r.pos) (r.left.take n) (r.left.drop n)).getNumber n =
      some (paddedNumber (r.left.take n),
        after (r.data.take r.pos) (r.left.take n) (r.left.drop n)) := by
  have hlength : min n (before (r.data.take r.pos) (r.left.take n) (r.left.drop n)).remaining =
      (r.left.take n).length := by
    rw [remaining_before, List.length_take, List.length_drop]
    omega
  rw [← getNumber_min, hlength]
  exact getNumber_before _ _ _ hfour

theorem length_take_le_four (left : Bytes) {n : ℕ} (h : n ≤ 4) : (left.take n).length ≤ 4 :=
  (List.length_take_le n left).trans h

theorem left_eq_take_append (r : PacketReader) (n : ℕ) :
    r.left = r.left.take n ++ r.left.drop n :=
  (List.take_append_drop n r.left).symm

/-- A call reads exactly if and only if it finds what it looks for. -/
theorem readsExactly_iff (h : r.pos ≤ r.length) : r.ReadsExactly c ↔ c.Finds r.left := by
  constructor
  · rintro ⟨result, r', piece, -, hreads, -⟩
    generalize r.left = left at hreads ⊢
    cases hreads with
    | number n left hfour => exact hfour
    | breakString s rest b hs =>
        exact List.mem_append_left rest (List.mem_append_right s (List.mem_singleton_self b))
    | _ => trivial
  · intro hfinds
    cases c with
    | number n =>
        apply readsExactly_of_after h (r.left_eq_take_append n) (.number n _ hfinds)
        rw [call, r.getNumber_left hfinds, Option.map_some]
    | byte =>
        cases hleft : r.left with
        | nil =>
            have hreads : Reads .byte r.left [] (.value 0) := by
              rw [hleft]
              exact .noByte
            apply @readsExactly_of_after r [] [] _ _ h hleft hreads
            rw [call, getByte, if_pos (by rw [remaining_before]; exact Nat.one_pos)]
            rfl
        | cons b rest =>
            have hreads : Reads .byte r.left [b] (.value b.toNat) := by
              rw [hleft]
              exact .byte b rest
            apply @readsExactly_of_after r [b] rest _ _ h hleft hreads
            rw [call, getByte_before, Option.map_some]
    | char =>
        apply readsExactly_of_after h (r.left_eq_take_append 1) (.char _)
        rw [call, getChar, r.getNumber_left (length_take_le_four _ (by decide))]
        rfl
    | short =>
        apply readsExactly_of_after h (r.left_eq_take_append 2) (.short _)
        rw [call, getShort, r.getNumber_left (length_take_le_four _ (by decide))]
        rfl
    | three =>
        apply readsExactly_of_after h (r.left_eq_take_append 3) (.three _)
        rw [call, getThree, r.getNumber_left (length_take_le_four _ (by decide))]
        rfl
    | int =>
        apply readsExactly_of_after h (r.left_eq_take_append 4) (.int _)
        rw [call, getInt, r.getNumber_left (length_take_le_four _ (by decide))]
        rfl
    | fixedString n =>
        by_cases hn : n ≤ r.left.length
        · have hlength : (r.left.take n).length = n := List.length_take_of_le hn
          have hsplit := r.left_eq_take_append n
          apply @readsExactly_of_after r _ _ _ (.text (r.left.take n)) h hsplit
          · have hreads := Reads.fixedString (r.left.take n) (r.left.drop n)
            rwa [hlength, ← hsplit] at hreads
          · have hread := getFixedString_before (r.data.take r.pos) (r.left.take n) (r.left.drop n)
            rw [hlength] at hread
            rw [call, hread, Option.map_some]
        · have hshort : r.left.length < n := Nat.lt_of_not_le hn
          apply @readsExactly_of_after r [] r.left _ _ h rfl (.noString n r.left hshort)
          rw [call, getFixedString, if_pos (by rw [remaining_before, List.length_nil]; omega)]
          rfl
    | breakString b =>
        obtain ⟨text, rest, hcons, hfirst⟩ := List.eq_append_cons_of_mem hfinds
        have hsplit : r.left = text ++ [b] ++ rest := by
          rw [hcons, List.append_assoc, List.singleton_append]
        have hreads : Reads (.breakString b) r.left (text ++ [b]) (.text text) := by
          rw [hsplit]
          exact .breakString text rest b hfirst
        apply @readsExactly_of_after r (text ++ [b]) rest _ _ h hsplit hreads
        rw [call, getBreakString_before _ _ _ _ hfirst, Option.map_some]
    | endString =>
        have hread := getFixedString_before (r.data.take r.pos) r.left []
        apply @readsExactly_of_after r r.left [] _ _ h (List.append_nil r.left).symm
          (.endString r.left)
        rw [call, getEndString, remaining_before, List.length_nil, Nat.add_zero, hread,
          Option.map_some]

/-! ## Runs -/

/-- A call that reads exactly leaves the reader within its packet. -/
theorem ReadsExactly.pos_le {r' : PacketReader} (h : r.ReadsExactly c)
    (hnext : r.next c = some r') : r'.pos ≤ r'.length := by
  obtain ⟨result, r'', piece, hcall, -, -, -, hle, -⟩ := h
  rw [next, hcall, Option.map_some] at hnext
  obtain rfl := Option.some.inj hnext
  exact hle

/-- All calls on a packet read exactly if and only if each finds what it looks for. -/
theorem every_readsExactly_iff (data : Bytes) (hlength : 2 ≤ data.length)
    (calls : List ReadCall) :
    Every next ReadsExactly (ofData data) calls ↔
      Every next (fun r c => c.Finds r.left) (ofData data) calls := by
  apply every_iff (fun r => r.pos ≤ r.length) (fun _ _ h => readsExactly_iff h) _ hlength
  intro r c r' h hfinds hnext
  exact ((readsExactly_iff h).mpr hfinds).pos_le hnext

/-! ## A packet without a delimiter -/

theorem every_readsExactly_iff_chat :
    Every next ReadsExactly (ofData [18, 1, 104, 105, 255, 5]) [.breakString 255, .char, .int] ↔
      Every next (fun r c => c.Finds r.left) (ofData [18, 1, 104, 105, 255, 5])
        [.breakString 255, .char, .int] :=
  every_readsExactly_iff [18, 1, 104, 105, 255, 5] (by decide) [.breakString 255, .char, .int]

/-- The break string of an empty packet puts the position behind its end, and nothing can be read
there. -/
theorem not_readsExactly_empty :
    2 ≤ ([18, 1] : Bytes).length ∧
      ¬ Every next ReadsExactly (ofData [18, 1]) [.breakString 255, .endString] := by
  refine ⟨by decide, ?_⟩
  rintro ⟨⟨result, r', piece, hcall, -, -, -, hle, -⟩, -⟩
  have hbehind : (ofData [18, 1]).call (.breakString 255) = some (.text [], ⟨[18, 1], 3⟩) := by
    decide
  rw [hbehind] at hcall
  obtain ⟨-, rfl⟩ := Prod.mk.inj (Option.some.inj hcall)
  exact absurd hle (by decide)

end PacketReader

end ArenaServ
