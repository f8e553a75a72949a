import ArenaServ.BinaryFiles
import ArenaServ.PacketNumber

/-!
# Pub files

The data of items, NPCs, spells and classes are read from four files of one kind: a header with the
number of records, and the records one behind the other, each with the lengths of its texts in front
of it. A file may end before all records are there, but not inside one.
-/

namespace ArenaServ

open BinaryFile PacketProcessor

/-- What the four kinds differ in: how many texts a record has, how long its data are, and what is
made of them. -/
structure PubFormat (ρ : Type) where
  texts : ℕ
  texts_pos : 0 < texts
  dataSize : ℕ
  record : ℕ → List Bytes → Bytes → ρ
  blank : ρ
  id : ρ → ℕ
  name : ρ → Bytes
  id_record (i : ℕ) (names : List Bytes) (buf : Bytes) : id (record i names buf) = i
  id_blank : id blank = 0
  name_blank : name blank = []

structure PubFile (ρ : Type) where
  rid : Bytes
  len : Bytes
  data : List ρ

namespace PubFormat

variable {ρ : Type} (fmt : PubFormat ρ)

/-- A text for each length. -/
def readTexts : Bytes → Reader UInt8 (List Bytes)
  | [] => pure []
  | size :: sizes => do
      let text ← read (digit size)
      let texts ← readTexts sizes
      return text :: texts

/-- The loop over the records from `i` on. It is left where no lengths of a next one are there. -/
def readRecords : ℕ → ℕ → Bytes → Reader UInt8 (List ρ)
  | 0, _, _ => pure []
  | n + 1, i, sizes => do
      let texts ← readTexts sizes
      let buf ← read fmt.dataSize
      match ← readSome fmt.texts with
      | none => return fmt.record i texts buf :: List.replicate n fmt.blank
      | some sizes => do
          let records ← readRecords n (i + 1) sizes
          return fmt.record i texts buf :: records

/-- `numobj`. -/
def numobj (len : Bytes) : ℕ := number (byteAt len 0) (byteAt len 1) 254 254

/-- The table of some records, without a last one that is called `eof`. -/
def closeTable (records : List ρ) : List ρ :=
  if fmt.name ((fmt.blank :: records).getLast (List.cons_ne_nil _ _)) = [101, 111, 102] then
    (fmt.blank :: records).dropLast
  else fmt.blank :: records

/-- `EIF::Read` and the others. -/
def readPub : Reader UInt8 (PubFile ρ) := do
  seekSet 3
  let rid ← read 4
  let len ← read 2
  seekCur 1
  let sizes ← read fmt.texts
  let records ← fmt.readRecords (numobj len) 1 sizes
  return ⟨rid, len, fmt.closeTable records⟩

/-- What `Read` makes of the contents of a file. -/
def ofContents (contents : Bytes) : Option (PubFile ρ) :=
  (fmt.readPub ⟨contents, 0⟩).map Prod.fst

/-- `Get`. -/
def get (pub : PubFile ρ) (id : ℕ) : ρ := pub.data.getD id (pub.data.headD fmt.blank)

/-! ## Records in a file -/

/-- A record as it stands in a file. -/
structure Entry where
  sizes : Bytes
  names : List Bytes
  buf : Bytes
  length_sizes : sizes.length = fmt.texts
  length_names : names.map List.length = sizes.map digit
  length_buf : buf.length = fmt.dataSize

def Entry.encode {fmt : PubFormat ρ} (entry : fmt.Entry) : Bytes :=
  entry.sizes ++ (entry.names.flatten ++ entry.buf)

/-- The records of a file, with numbers from `i` on. -/
def records : ℕ → List fmt.Entry → List ρ
  | _, [] => []
  | i, entry :: entries => fmt.record i entry.names entry.buf :: records (i + 1) entries

/-- A table of `n` records from `i` on that comes from `text`. -/
def Table (n i : ℕ) (text : Bytes) (rs : List ρ) : Prop :=
  ∃ (entries : List fmt.Entry) (tail : Bytes), text = entries.flatMap Entry.encode ++ tail ∧
    (entries.length = n ∨ entries ≠ [] ∧ entries.length < n ∧ tail.length < fmt.texts) ∧
    rs = fmt.records i entries ++ List.replicate (n - entries.length) fmt.blank

variable {fmt}

theorem readTexts_eq_some {sizes : Bytes} {f f' : BinaryFile UInt8} {names : List Bytes} :
    readTexts sizes f = some (names, f') ↔
      names.map List.length = sizes.map digit ∧ f' = f.advance names.flatten.length ∧
        ∃ rest, f.left = names.flatten ++ rest := by
  induction sizes generalizing f f' names with
  | nil =>
      constructor
      · intro h
        cases h
        exact ⟨rfl, rfl, f.left, rfl⟩
      · rintro ⟨hnil, rfl, -⟩
        rw [List.map_eq_nil_iff.mp hnil]
        rfl
  | cons size sizes ih =>
      rw [readTexts, run_bind]
      constructor
      · intro h
        obtain ⟨⟨name, f₁⟩, hread, h⟩ := Option.bind_eq_some_iff.mp h
        obtain ⟨⟨names', f₂⟩, hnames, h⟩ := Option.bind_eq_some_iff.mp h
        cases h
        obtain ⟨hlen, rfl, rest, hleft⟩ := read_eq_some.mp hread
        obtain ⟨hmap, rfl, rest', hleft'⟩ := ih.mp hnames
        refine ⟨by rw [List.map_cons, List.map_cons, hlen, hmap], ?_, rest', ?_⟩
        · rw [advance_advance, List.flatten_cons, List.length_append, hlen]
        · rw [← hlen, left_advance hleft] at hleft'
          rw [hleft, hleft', List.flatten_cons, List.append_assoc]
      · rintro ⟨hmap, rfl, rest, hleft⟩
        cases names with
        | nil => cases hmap
        | cons name names =>
            rw [List.map_cons, List.map_cons, List.cons.injEq] at hmap
            rw [List.flatten_cons, List.append_assoc] at hleft
            have hread : read (digit size) f = some (name, f.advance name.length) :=
              read_eq_some.mpr ⟨hmap.1, by rw [hmap.1], _, hleft⟩
            have hnames := ih.mpr ⟨hmap.2, rfl, rest, left_advance hleft⟩
            rw [hread, Option.bind_some, run_bind, hnames, advance_advance, ← List.length_append]
            rfl

theorem Entry.le_length (entry : fmt.Entry) (rest : Bytes) :
    fmt.texts ≤ (entry.encode ++ rest).length := by
  rw [Entry.encode, List.append_assoc, List.length_append, entry.length_sizes]
  exact Nat.le_add_right _ _

/-- What the loop gives is a table that comes from the rest of the file. -/
theorem table_of_readRecords {n i : ℕ} {sizes : Bytes} {f : BinaryFile UInt8}
    {r : List ρ × BinaryFile UInt8} (hsizes : sizes.length = fmt.texts)
    (h : fmt.readRecords n i sizes f = some r) : fmt.Table n i (sizes ++ f.left) r.1 := by
  induction n generalizing i sizes f r with
  | zero =>
      cases h
      exact ⟨[], sizes ++ f.left, rfl, Or.inl rfl, rfl⟩
  | succ n ih =>
      rw [readRecords, run_bind] at h
      obtain ⟨⟨names, f₁⟩, hnames, h⟩ := Option.bind_eq_some_iff.mp h
      obtain ⟨⟨buf, f₂⟩, hbuf, h⟩ := Option.bind_eq_some_iff.mp h
      obtain ⟨hmap, rfl, rest, hleft⟩ := readTexts_eq_some.mp hnames
      obtain ⟨hlen, rfl, rest', hleft'⟩ := read_eq_some.mp hbuf
      rw [left_advance hleft] at hleft'
      let entry : fmt.Entry := ⟨sizes, names, buf, hsizes, hmap, hlen⟩
      have htext : sizes ++ f.left = entry.encode ++ rest' := by
        rw [hleft, hleft', Entry.encode, List.append_assoc, List.append_assoc]
      have hrest : ((f.advance names.flatten.length).advance fmt.dataSize).left = rest' := by
        rw [← hlen]
        exact left_advance (by rw [left_advance hleft, hleft'])
      by_cases hmore : rest'.length < fmt.texts
      · dsimp only at h
        rw [run_bind, readSome_of_lt (by rwa [hrest]), Option.bind_some] at h
        cases h
        refine ⟨[entry], rest', by rw [htext, List.flatMap_singleton], ?_, rfl⟩
        rcases Nat.eq_zero_or_pos n with rfl | hpos
        · exact Or.inl rfl
        · exact Or.inr ⟨List.cons_ne_nil _ _, Nat.succ_lt_succ hpos, hmore⟩
      · have hsplit := (List.take_append_drop fmt.texts rest').symm
        have hnext : (rest'.take fmt.texts).length = fmt.texts :=
          List.length_take_of_le (Nat.not_lt.mp hmore)
        have hread := readSome_of_append (hrest.trans hsplit)
        rw [hnext] at hread
        dsimp only at h
        rw [run_bind, hread, Option.bind_some] at h
        obtain ⟨⟨rs, f₃⟩, hrs, h⟩ := Option.bind_eq_some_iff.mp h
        cases h
        have htable := ih hnext hrs
        have hleft₃ := left_advance (hrest.trans hsplit)
        rw [hnext] at hleft₃
        rw [hleft₃, ← hsplit] at htable
        obtain ⟨entries, tail, hentries, hcount, rfl⟩ := htable
        refine ⟨entry :: entries, tail, ?_, ?_, ?_⟩
        · rw [htext, hentries, List.flatMap_cons, List.append_assoc]
        · rcases hcount with hcount | ⟨hne, hlt, hshort⟩
          · exact Or.inl (congrArg (· + 1) hcount)
          · exact Or.inr ⟨List.cons_ne_nil _ _, Nat.succ_lt_succ hlt, hshort⟩
        · rw [records, List.length_cons, Nat.add_sub_add_right]
          rfl

theorem Table.readRecords {n i : ℕ} {sizes : Bytes} {f : BinaryFile UInt8} {rs : List ρ}
    (hsizes : sizes.length = fmt.texts) (h : fmt.Table n i (sizes ++ f.left) rs) :
    ∃ f', fmt.readRecords n i sizes f = some (rs, f') := by
  induction n generalizing i sizes f rs with
  | zero =>
      obtain ⟨entries, tail, -, hcount, rfl⟩ := h
      have hnil : entries = [] :=
        List.eq_nil_of_length_eq_zero (hcount.resolve_right fun hlt => Nat.not_lt_zero _ hlt.2.1)
      rw [hnil]
      exact ⟨f, rfl⟩
  | succ n ih =>
      obtain ⟨entries, tail, htext, hcount, rfl⟩ := h
      cases entries with
      | nil => exact absurd rfl ((hcount.resolve_left (Nat.succ_ne_zero n).symm).1)
      | cons entry entries =>
          rw [List.flatMap_cons, Entry.encode, List.append_assoc, List.append_assoc] at htext
          obtain ⟨rfl, hleft⟩ := List.append_inj htext (hsizes.trans entry.length_sizes.symm)
          rw [List.append_assoc] at hleft
          have hnames := readTexts_eq_some.mpr ⟨entry.length_names, rfl, _, hleft⟩
          have hbuf := read_eq_some.mpr ⟨entry.length_buf, rfl, _, left_advance hleft⟩
          have hrest := left_advance (left_advance hleft)
          rw [entry.length_buf] at hrest
          rw [PubFormat.readRecords, run_bind, hnames, Option.bind_some, run_bind, hbuf,
            Option.bind_some]
          dsimp only
          rw [run_bind]
          by_cases hmore : (entries.flatMap Entry.encode ++ tail).length < fmt.texts
          · rw [readSome_of_lt (by rwa [hrest]), Option.bind_some]
            have hnil : entries = [] := by
              cases entries with
              | nil => rfl
              | cons next entries =>
                  rw [List.flatMap_cons, List.append_assoc] at hmore
                  exact absurd hmore (Nat.not_lt.mpr (next.le_length _))
            rw [hnil]
            exact ⟨_, rfl⟩
          · have hsplit := (List.take_append_drop fmt.texts
              (entries.flatMap Entry.encode ++ tail)).symm
            have hnext := List.length_take_of_le (Nat.not_lt.mp hmore)
            have hread := readSome_of_append (hrest.trans hsplit)
            have hleft' := left_advance (hrest.trans hsplit)
            rw [hnext] at hread hleft'
            rw [hread, Option.bind_some]
            have htable : fmt.Table n (i + 1) (entries.flatMap Entry.encode ++ tail)
                (fmt.records (i + 1) entries ++
                  List.replicate (n - entries.length) fmt.blank) := by
              refine ⟨entries, tail, rfl, ?_, rfl⟩
              rcases hcount with hcount | ⟨-, hlt, hshort⟩
              · exact Or.inl (Nat.succ.inj hcount)
              · refine Or.inr ⟨?_, Nat.lt_of_succ_lt_succ hlt, hshort⟩
                rintro rfl
                exact hmore hshort
            rw [hsplit, ← hleft'] at htable
            obtain ⟨f', hf'⟩ := ih hnext htable
            refine ⟨f', ?_⟩
            dsimp only
            rw [run_bind, hf', records, List.length_cons, Nat.add_sub_add_right]
            rfl

/-! ## Whole files -/

variable (fmt) in
/-- A file with its header and a table that comes from the rest of it. -/
structure IsPub (contents : Bytes) (pub : PubFile ρ) : Prop where
  split : ∃ head version text records, contents = head ++ (pub.rid ++ (pub.len ++
    (version ++ text))) ∧ head.length = 3 ∧ version.length = 1 ∧ fmt.texts ≤ text.length ∧
    fmt.Table (numobj pub.len) 1 text records ∧ pub.data = fmt.closeTable records
  length_rid : pub.rid.length = 4
  length_len : pub.len.length = 2

/-- `Read` accepts the files that are headers with tables, and no others. -/
theorem ofContents_eq_some_iff {contents : Bytes} {pub : PubFile ρ} :
    fmt.ofContents contents = some pub ↔ fmt.IsPub contents pub := by
  rw [ofContents, Option.map_eq_some_iff]
  constructor
  · rintro ⟨⟨pub, f⟩, h, rfl⟩
    rw [readPub, run_bind, seekSet, Option.bind_some, run_bind] at h
    obtain ⟨⟨rid, f₁⟩, hrid, h⟩ := Option.bind_eq_some_iff.mp h
    obtain ⟨hridlen, rfl, rest₁, hleft₁⟩ := read_eq_some.mp hrid
    obtain ⟨⟨len, f₂⟩, hlen, h⟩ := Option.bind_eq_some_iff.mp h
    obtain ⟨hlenlen, rfl, rest₂, hleft₂⟩ := read_eq_some.mp hlen
    dsimp only at h hleft₂
    rw [run_bind, seekCur, Option.bind_some, run_bind] at h
    obtain ⟨⟨sizes, f₃⟩, hsizes, h⟩ := Option.bind_eq_some_iff.mp h
    obtain ⟨hsizeslen, rfl, rest₃, hleft₃⟩ := read_eq_some.mp hsizes
    obtain ⟨⟨records, f₄⟩, hrecords, h⟩ := Option.bind_eq_some_iff.mp h
    cases h
    have htable := table_of_readRecords hsizeslen hrecords
    have hrest₁ : rest₁ = len ++ rest₂ := by
      rw [← hleft₂, ← hridlen]
      exact (left_advance hleft₁).symm
    have hrest₂ : rest₂.drop 1 = sizes ++ rest₃ := by
      rw [← hleft₃, left_advance_eq_drop, ← hlenlen, left_advance hleft₂]
    have hrest₃ := left_advance hleft₃
    rw [hsizeslen] at hrest₃
    rw [hrest₃] at htable
    refine ⟨⟨contents.take 3, rest₂.take 1, sizes ++ rest₃, records, ?_, ?_, ?_, ?_, htable, rfl⟩,
      hridlen, hlenlen⟩
    · rw [← hrest₂, List.take_append_drop, ← hrest₁]
      exact (List.take_append_drop 3 contents).symm.trans (congrArg (contents.take 3 ++ ·) hleft₁)
    · have hlength := congrArg List.length hleft₁
      rw [List.length_append, hridlen, left, List.length_drop] at hlength
      exact List.length_take_of_le (by dsimp only at hlength; omega)
    · have hlength := congrArg List.length hrest₂
      rw [List.length_append, hsizeslen, List.length_drop] at hlength
      have hpos := fmt.texts_pos
      exact List.length_take_of_le (by omega)
    · rw [List.length_append, hsizeslen]
      exact Nat.le_add_right _ _
  · rintro ⟨⟨head, version, text, records, rfl, hhead, hversion, htext, htable, hdata⟩, hrid, hlen⟩
    obtain ⟨rid, len, data⟩ := pub
    dsimp only at hrid hlen htable hdata ⊢
    have hleft₁ : (BinaryFile.mk (head ++ (rid ++ (len ++ (version ++ text)))) 3).left =
        rid ++ (len ++ (version ++ text)) := by
      rw [left, ← hhead, List.drop_left]
    have hleft₂ := left_advance hleft₁
    have hleft₃ := left_advance (left_advance hleft₂)
    have hsplit := (List.take_append_drop fmt.texts text).symm
    have hsizes := List.length_take_of_le htext
    have hleft₄ := left_advance (hleft₃.trans hsplit)
    rw [hsplit, ← hleft₄] at htable
    rw [hrid, hlen, hversion, hsizes] at htable
    obtain ⟨f', hrecords⟩ := htable.readRecords hsizes
    refine ⟨⟨⟨rid, len, data⟩, f'⟩, ?_, rfl⟩
    rw [readPub, run_bind, seekSet, Option.bind_some, run_bind,
      read_eq_some.mpr ⟨hrid, rfl, _, hleft₁⟩, Option.bind_some, run_bind]
    rw [hrid] at hleft₂ hleft₃
    rw [read_eq_some.mpr ⟨hlen, rfl, _, hleft₂⟩, Option.bind_some]
    dsimp only
    rw [run_bind, seekCur, Option.bind_some, run_bind]
    rw [hlen, hversion] at hleft₃
    rw [read_eq_some.mpr ⟨hsizes, rfl, _, hleft₃.trans hsplit⟩, Option.bind_some, run_bind]
    dsimp only
    rw [hrecords, Option.bind_some, hdata]
    rfl

/-! ## What is in a table -/

theorem length_records (i : ℕ) (entries : List fmt.Entry) :
    (fmt.records i entries).length = entries.length := by
  induction entries generalizing i with
  | nil => rfl
  | cons entry entries ih => rw [records, List.length_cons, List.length_cons, ih]

theorem id_records {i k : ℕ} {entries : List fmt.Entry} {r : ρ}
    (h : (fmt.records i entries)[k]? = some r) : fmt.id r = i + k := by
  induction entries generalizing i k with
  | nil => cases h
  | cons entry entries ih =>
      cases k with
      | zero =>
          cases h
          exact fmt.id_record i entry.names entry.buf
      | succ k =>
          rw [records, List.getElem?_cons_succ] at h
          rw [ih h]
          omega

/-- A record has its place in the table for an id, or it is blank. -/
theorem Table.id_eq {n : ℕ} {text : Bytes} {rs : List ρ} (h : fmt.Table n 1 text rs) {k : ℕ} {r : ρ}
    (hr : (fmt.blank :: rs)[k]? = some r) : r = fmt.blank ∨ fmt.id r = k := by
  obtain ⟨entries, tail, -, -, rfl⟩ := h
  cases k with
  | zero =>
      cases hr
      exact Or.inl rfl
  | succ k =>
      rw [List.getElem?_cons_succ, List.getElem?_append] at hr
      split_ifs at hr
      · exact Or.inr ((id_records hr).trans (Nat.add_comm 1 k))
      · exact Or.inl (List.eq_of_mem_replicate (List.mem_of_getElem? hr))

theorem Table.length {n i : ℕ} {text : Bytes} {rs : List ρ} (h : fmt.Table n i text rs) :
    rs.length = n := by
  obtain ⟨entries, tail, -, hcount, rfl⟩ := h
  rw [List.length_append, length_records, List.length_replicate]
  rcases hcount with hcount | hcount
  · omega
  · omega

variable (fmt) in
/-- Nothing but a last record is left out, and the blank record stays in front. -/
theorem closeTable_cases (records : List ρ) :
    fmt.closeTable records = fmt.blank :: records ∨
      records ≠ [] ∧ fmt.closeTable records = fmt.blank :: records.dropLast := by
  unfold closeTable
  split_ifs with hname
  · cases records with
    | nil =>
        rw [List.getLast_singleton, fmt.name_blank] at hname
        cases hname
    | cons r records => exact Or.inr ⟨List.cons_ne_nil _ _, rfl⟩
  · exact Or.inl rfl

/-- Every file that is read gives a table of the length it says, or of one less where the last
record is `eof`, in which a record has its own id or is the blank one. -/
theorem id_get {contents : Bytes} {pub : PubFile ρ} (h : fmt.ofContents contents = some pub) :
    (pub.data.length = numobj pub.len + 1 ∨
      0 < numobj pub.len ∧ pub.data.length = numobj pub.len) ∧
    ∀ id, fmt.get pub id = fmt.blank ∨ id < pub.data.length ∧ fmt.id (fmt.get pub id) = id := by
  obtain ⟨-, version, text, records, -, -, -, -, htable, hdata⟩ := (ofContents_eq_some_iff.mp h).split
  have hlength := htable.length
  have hprefix : pub.data <+: fmt.blank :: records ∧ pub.data.headD fmt.blank = fmt.blank := by
    rw [hdata]
    rcases closeTable_cases fmt records with hclose | ⟨-, hclose⟩ <;> rw [hclose]
    · exact ⟨List.prefix_rfl, rfl⟩
    · exact ⟨List.cons_prefix_cons.mpr ⟨rfl, List.dropLast_prefix _⟩, rfl⟩
  constructor
  · rw [hdata]
    rcases closeTable_cases fmt records with hclose | ⟨hne, hclose⟩ <;> rw [hclose]
    · exact Or.inl (by rw [List.length_cons, hlength])
    · have hpos := List.length_pos_iff.mpr hne
      refine Or.inr ⟨hlength ▸ hpos, ?_⟩
      rw [List.length_cons, List.length_dropLast]
      omega
  · intro id
    rw [get, hprefix.2]
    by_cases hid : id < pub.data.length
    · rw [List.getD_eq_getElem _ _ hid]
      obtain ⟨rest, hrest⟩ := hprefix.1
      have hsome : (fmt.blank :: records)[id]? = some pub.data[id] := by
        rw [← hrest, List.getElem?_append_left hid, List.getElem?_eq_getElem hid]
      exact (htable.id_eq hsome).imp_right fun heq => ⟨hid, heq⟩
    · exact Or.inl (List.getD_eq_default _ _ (Nat.not_lt.mp hid))

end PubFormat

/-! ## The four kinds -/

/-- `PacketProcessor::Number` of the bytes from `i` on. -/
def number1 (buf : Bytes) (i : ℕ) : ℕ := number (byteAt buf i) 254 254 254

def number2 (buf : Bytes) (i : ℕ) : ℕ := number (byteAt buf i) (byteAt buf (i + 1)) 254 254

def number3 (buf : Bytes) (i : ℕ) : ℕ :=
  number (byteAt buf i) (byteAt buf (i + 1)) (byteAt buf (i + 2)) 254

/-- A two-byte number in a `short`. -/
def short2 (buf : Bytes) (i : ℕ) : Int16 := Int16.ofNat (number2 buf i)

def byte1 (buf : Bytes) (i : ℕ) : UInt8 := UInt8.ofNat (number1 buf i)

/-- `EIF_Data`. The kinds of an item are kept as numbers. -/
structure EifData where
  id : ℕ
  name : Bytes
  graphic : Int16
  type : ℕ
  subtype : ℕ
  special : ℕ
  hp : Int16
  tp : Int16
  mindam : Int16
  maxdam : Int16
  accuracy : Int16
  evade : Int16
  armor : Int16
  /-- `str` to `cha`. -/
  stats : Vector UInt8 6
  /-- `light` to `fire`. -/
  elements : Vector UInt8 6
  scrollmap : ℕ
  scrollx : UInt8
  scrolly : UInt8
  levelreq : Int16
  classreq : Int16
  /-- `strreq` to `chareq`. -/
  statreqs : Vector Int16 6
  weight : UInt8
  size : ℕ
  deriving DecidableEq

namespace EifData

def special.lore : ℕ := 4

def blank : EifData :=
  ⟨0, [], 0, 0, 0, special.lore, 0, 0, 0, 0, 0, 0, 0, Vector.replicate 6 0, Vector.replicate 6 0, 0,
    0, 0, 0, 0, Vector.replicate 6 0, 0, 0⟩

def ofRecord (id : ℕ) (name buf : Bytes) : EifData where
  id := id
  name := name
  graphic := short2 buf 0
  type := number1 buf 2
  -- "Gun", which is made a ranged weapon.
  subtype := if id = 365 ∧ name = [71, 117, 110] then 1 else number1 buf 3
  special := number1 buf 4
  hp := short2 buf 5
  tp := short2 buf 7
  mindam := short2 buf 9
  maxdam := short2 buf 11
  accuracy := short2 buf 13
  evade := short2 buf 15
  armor := short2 buf 17
  stats := Vector.ofFn fun k => byte1 buf (20 + k)
  elements := Vector.ofFn fun k => byte1 buf (26 + k)
  scrollmap := number3 buf 32
  scrollx := byte1 buf 35
  scrolly := byte1 buf 36
  levelreq := short2 buf 37
  classreq := short2 buf 39
  statreqs := Vector.ofFn fun k => short2 buf (41 + 2 * k)
  weight := byte1 buf 55
  size := number1 buf 57

end EifData

/-- The first text of a record. -/
def firstName (names : List Bytes) : Bytes := names.headD []

/-- `EIF`. -/
def eif : PubFormat EifData where
  texts := 1
  texts_pos := Nat.one_pos
  dataSize := 58
  record id names buf := EifData.ofRecord id (firstName names) buf
  blank := EifData.blank
  id := EifData.id
  name := EifData.name
  id_record _ _ _ := rfl
  id_blank := rfl
  name_blank := rfl

/-- A key for a lock. -/
def IsKey (pub : PubFile EifData) (keynum i : ℕ) : Prop :=
  (eif.get pub i).type = 9 ∧ (eif.get pub i).scrollmap = keynum

instance (pub : PubFile EifData) (keynum i : ℕ) : Decidable (IsKey pub keynum i) :=
  inferInstanceAs (Decidable (_ ∧ _))

/-- `EIF::GetKey`. -/
def getKey (pub : PubFile EifData) (keynum : ℕ) : ℕ :=
  ((List.range pub.data.length).find? fun i => IsKey pub keynum i).getD 0

/-- The item for a lock is one of its keys under its own id, the first one, or there is none. -/
theorem getKey_cases {contents : Bytes} {pub : PubFile EifData}
    (h : eif.ofContents contents = some pub) (keynum : ℕ) :
    (getKey pub keynum = 0 ∧ ∀ i, ¬ IsKey pub keynum i) ∨
      (IsKey pub keynum (getKey pub keynum) ∧
        (eif.get pub (getKey pub keynum)).id = getKey pub keynum ∧
        ∀ j < getKey pub keynum, ¬ IsKey pub keynum j) := by
  have hblank {i : ℕ} (hkey : IsKey pub keynum i) : i < pub.data.length ∧ (eif.get pub i).id = i := by
    refine ((PubFormat.id_get h).2 i).resolve_left fun hblank => ?_
    have htype := hkey.1
    rw [hblank] at htype
    cases htype
  cases hfind : (List.range pub.data.length).find? fun i => IsKey pub keynum i with
  | none =>
      refine Or.inl ⟨by rw [getKey, hfind]; rfl, fun i hkey => ?_⟩
      exact List.find?_eq_none.mp hfind i (List.mem_range.mpr (hblank hkey).1) (decide_eq_true hkey)
  | some k =>
      have hget : getKey pub keynum = k := by rw [getKey, hfind]; rfl
      obtain ⟨hkey, -, hbefore⟩ := List.find?_range_eq_some.mp hfind
      rw [hget]
      have hkey := of_decide_eq_true hkey
      exact Or.inr ⟨hkey, (hblank hkey).2, fun j hj hkeyj => by
        have hnot := hbefore j hj
        rw [decide_eq_true hkeyj] at hnot
        cases hnot⟩

/-- `ENF_Data`. -/
structure EnfData where
  id : ℕ
  name : Bytes
  graphic : ℕ
  boss : Int16
  child : Int16
  type : ℕ
  vendorId : Int16
  hp : ℕ
  exp : ℕ
  mindam : Int16
  maxdam : Int16
  accuracy : Int16
  evade : Int16
  armor : Int16
  deriving DecidableEq

/-- `ENF`. -/
def enf : PubFormat EnfData where
  texts := 1
  texts_pos := Nat.one_pos
  dataSize := 39
  record id names buf :=
    { id := id, name := firstName names, graphic := number2 buf 0, boss := short2 buf 3
      child := short2 buf 5, type := number2 buf 7, vendorId := short2 buf 9, hp := number3 buf 11
      exp := number3 buf 36, mindam := short2 buf 16, maxdam := short2 buf 18
      accuracy := short2 buf 20, evade := short2 buf 22, armor := short2 buf 24 }
  blank := ⟨0, [], 0, 0, 0, 0, 0, 0, 0, 0, 0, 0, 0, 0⟩
  id := EnfData.id
  name := EnfData.name
  id_record _ _ _ := rfl
  id_blank := rfl
  name_blank := rfl

/-- `ESF_Data`. -/
structure EsfData where
  id : ℕ
  name : Bytes
  shout : Bytes
  icon : Int16
  graphic : Int16
  tp : Int16
  sp : Int16
  castTime : UInt8
  type : ℕ
  targetRestrict : ℕ
  target : ℕ
  mindam : Int16
  maxdam : Int16
  accuracy : Int16
  hp : Int16
  deriving DecidableEq

/-- `ESF`. -/
def esf : PubFormat EsfData where
  texts := 2
  texts_pos := Nat.two_pos
  dataSize := 51
  record id names buf :=
    { id := id, name := firstName names, shout := firstName names.tail, icon := short2 buf 0
      graphic := short2 buf 2, tp := short2 buf 4, sp := short2 buf 6, castTime := byte1 buf 8
      type := number1 buf 11, targetRestrict := number1 buf 17, target := number1 buf 18
      mindam := short2 buf 23, maxdam := short2 buf 25, accuracy := short2 buf 27
      hp := short2 buf 34 }
  -- A spell that is not there is one of damage.
  blank := ⟨0, [], [], 0, 0, 0, 0, 0, 1, 0, 0, 0, 0, 0, 0⟩
  id := EsfData.id
  name := EsfData.name
  id_record _ _ _ := rfl
  id_blank := rfl
  name_blank := rfl

/-- `ECF_Data`. -/
structure EcfData where
  id : ℕ
  name : Bytes
  base : UInt8
  type : UInt8
  /-- `str` to `cha`. -/
  stats : Vector Int16 6
  deriving DecidableEq

/-- `ECF`. -/
def ecf : PubFormat EcfData where
  texts := 1
  texts_pos := Nat.one_pos
  dataSize := 14
  record id names buf :=
    { id := id, name := firstName names, base := byte1 buf 0, type := byte1 buf 1
      stats := Vector.ofFn fun k => short2 buf (2 + 2 * k) }
  blank := ⟨0, [], 4, 4, Vector.replicate 6 0⟩
  id := EcfData.id
  name := EcfData.name
  id_record _ _ _ := rfl
  id_blank := rfl
  name_blank := rfl

/-- A class and the end of the file, with the lengths 1 and 3 of their names. -/
def classFile : Bytes :=
  [69, 67, 70, 1, 1, 1, 1, 3, 254, 1, 2, 97] ++ List.replicate 14 5 ++ [4, 101, 111, 102] ++
    List.replicate 14 1

theorem PubFormat.id_get_class :
    ∃ pub, ecf.ofContents classFile = some pub ∧ pub.data.length = 2 ∧
      (ecf.get pub 1 = ecf.blank ∨ 1 < pub.data.length ∧ ecf.id (ecf.get pub 1) = 1) :=
  ⟨_, rfl, rfl, (PubFormat.id_get (show ecf.ofContents classFile = some _ from rfl)).2 1⟩

end ArenaServ
