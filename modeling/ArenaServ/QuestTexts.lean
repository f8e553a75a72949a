import ArenaServ.QuestRecords

/-!
# Saved quests read back

Counters and records go through their texts unchanged, each text being read exactly as far as
it was written.
-/

namespace ArenaServ

open Util

/-! ## Counters -/

namespace ProgressScan

variable {s : ProgressScan}

theorem scan_key (hs : s.readingValue = false) {key : List Char} (hequals : '=' ∉ key)
    (hbrace : '\x7d' ∉ key) (rest : List Char) :
    s.scan (key ++ rest) = scan { s with key := s.key ++ key } rest := by
  induction key generalizing s with
  | nil => rw [List.nil_append, List.append_nil]
  | cons c key ih =>
      rw [List.mem_cons, not_or] at hequals hbrace
      have hstep : s.step c = { s with key := s.key ++ [c] } := by
        rw [step, hs, if_neg Bool.false_ne_true, if_neg (Ne.symm hequals.1)]
      have hrest := ih (s := { s with key := s.key ++ [c] }) hs hequals.2 hbrace.2
      rw [List.cons_append, scan, if_neg (Ne.symm hbrace.1), hstep, hrest, List.append_assoc]
      rfl

/-- The value with the characters of a text behind it. -/
def pushChars (value : Int16) (text : List Char) : Int16 :=
  text.foldl (fun value c => value * 10 + Int16.ofInt (charValue c - charValue '0')) value

theorem scan_value (hs : s.readingValue = true) {text : List Char} (hcomma : ',' ∉ text)
    (hbrace : '\x7d' ∉ text) (rest : List Char) :
    s.scan (text ++ rest) = scan { s with value := pushChars s.value text } rest := by
  induction text generalizing s with
  | nil => rfl
  | cons c text ih =>
      rw [List.mem_cons, not_or] at hcomma hbrace
      have hstep : s.step c = { s with
          value := s.value * 10 + Int16.ofInt (charValue c - charValue '0') } := by
        rw [step, hs, if_pos rfl, if_neg (Ne.symm hcomma.1)]
      have hrest := ih (s := { s with
        value := s.value * 10 + Int16.ofInt (charValue c - charValue '0') }) hs hcomma.2 hbrace.2
      rw [List.cons_append, scan, if_neg (Ne.symm hbrace.1), hstep, hrest]
      rfl

/-- What a value is read back as. -/
def readBack (value : Int16) : Int16 := pushChars 0 (toText value).toList

/-- The digits of a number behind another one. -/
theorem pushChars_digits {digits : List Char} (hdigits : ∀ c ∈ digits, c.isDigit = true) (z : ℤ) :
    pushChars (Int16.ofInt z) digits =
      Int16.ofInt (z * 10 ^ digits.length + Nat.ofDigitChars 10 digits 0) := by
  induction digits generalizing z with
  | nil =>
      rw [Nat.ofDigitChars_nil, List.length_nil, pow_zero, mul_one, Nat.cast_zero, add_zero]
      rfl
  | cons c digits ih =>
      have hbounds := Char.isDigit_iff_toNat.mp (hdigits c List.mem_cons_self)
      have hlow : 48 ≤ c.toNat := hbounds.1
      have hhigh : c.toNat ≤ 57 := hbounds.2
      have hvalue : charValue c - charValue '0' = ((c.toNat - '0'.toNat : ℕ) : ℤ) := by
        have hsmall : charValue c = c.toNat := if_pos (by omega)
        rw [hsmall]
        change (c.toNat : ℤ) - 48 = ((c.toNat - 48 : ℕ) : ℤ)
        omega
      have hpush : Int16.ofInt z * 10 + Int16.ofInt (charValue c - charValue '0') =
          Int16.ofInt (z * 10 + (c.toNat - '0'.toNat : ℕ)) := by
        rw [hvalue, Int16.ofInt_add, Int16.ofInt_mul]
        rfl
      have hrest := ih (fun c hc => hdigits c (List.mem_cons_of_mem _ hc))
        (z * 10 + (c.toNat - '0'.toNat : ℕ))
      rw [← hpush] at hrest
      refine hrest.trans (congrArg Int16.ofInt ?_)
      rw [Nat.ofDigitChars_cons, @Nat.ofDigitChars_eq_ofDigitChars_zero _ (_ + _),
        List.length_cons]
      push_cast
      ring

/-- A value that is not negative is read back. -/
theorem readBack_of_nonneg {value : Int16} (h : 0 ≤ value.toInt) : readBack value = value := by
  have hread := pushChars_digits
    (fun _ => isDigit_of_mem_toDigits (n := value.toInt.toNat)) 0
  rw [zero_mul, zero_add, Nat.ofDigitChars_ten_toDigits, Int.toNat_of_nonneg h,
    Int16.ofInt_toInt] at hread
  rw [readBack, toList_toText, if_pos h]
  exact hread

/-- A counter is read back under its name. -/
theorem scan_entry (progress : SortedMap String Int16) {key : String}
    (hequals : '=' ∉ key.toList) (hbrace : '\x7d' ∉ key.toList) (value : Int16)
    (rest : List Char) :
    (start progress).scan ((key ++ "=" ++ toText value).toList ++ rest) =
      scan ⟨key.toList, readBack value, true, progress⟩ rest := by
  have hsign : (⟨key.toList, 0, false, progress⟩ : ProgressScan).scan
      ('=' :: ((toText value).toList ++ rest)) =
        scan ⟨key.toList, 0, true, progress⟩ ((toText value).toList ++ rest) := rfl
  have hvalue : (⟨key.toList, 0, true, progress⟩ : ProgressScan).scan
      ((toText value).toList ++ rest) =
        scan ⟨key.toList, readBack value, true, progress⟩ rest :=
    scan_value rfl (notMem_toText value (by decide) (by decide))
      (notMem_toText value (by decide) (by decide)) rest
  rw [String.toList_append, String.toList_append, List.append_assoc, List.append_assoc,
    scan_key rfl hequals hbrace]
  exact hsign.trans hvalue

/-- The entries are stored one by one, and the scan stops at the brace. -/
theorem scan_serializeEntries {entries : List (String × Int16)}
    (hentries : ∀ e ∈ entries, '=' ∉ e.1.toList ∧ '\x7d' ∉ e.1.toList)
    (progress : SortedMap String Int16) (rest : List Char) :
    ((start progress).scan ((serializeEntries entries).toList ++ '\x7d' :: rest)).2 =
        '\x7d' :: rest ∧
      ((start progress).scan ((serializeEntries entries).toList ++ '\x7d' :: rest)).1.finish =
        entries.foldl (fun m e => m.insert e.1 (readBack e.2)) progress := by
  induction entries generalizing progress with
  | nil => exact ⟨rfl, rfl⟩
  | cons e tail ih =>
      obtain ⟨⟨hequals, hbrace⟩, htail⟩ := List.forall_mem_cons.mp hentries
      have hstored : (⟨e.1.toList, readBack e.2, true, progress⟩ : ProgressScan).store =
          progress.insert e.1 (readBack e.2) := by
        rw [store, String.ofList_toList]
      cases tail with
      | nil =>
          rw [serializeEntries, scan_entry progress hequals hbrace]
          exact ⟨rfl, hstored⟩
      | cons e' tail =>
          have hcomma (rest : List Char) :
              (⟨e.1.toList, readBack e.2, true, progress⟩ : ProgressScan).scan (',' :: rest) =
                (start (progress.insert e.1 (readBack e.2))).scan rest := by
            rw [← hstored]
            rfl
          rw [serializeEntries_cons_cons, String.toList_append, String.toList_append,
            List.append_assoc, List.append_assoc, scan_entry progress hequals hbrace]
          have hrest := ih htail (progress.insert e.1 (readBack e.2))
          rw [← hcomma] at hrest
          exact hrest

end ProgressScan

/-- Counters are read back with their values as they are read, whatever follows them. -/
theorem unserializeProgress_eq {progress : SortedMap String Int16}
    (hkeys : ∀ e ∈ progress.entries, '=' ∉ e.1.toList ∧ '\x7d' ∉ e.1.toList) (rest : List Char) :
    unserializeProgress ((serializeProgress progress).toList ++ rest) SortedMap.empty =
      (progress.map ProgressScan.readBack, rest) := by
  obtain ⟨hstop, hread⟩ := ProgressScan.scan_serializeEntries hkeys SortedMap.empty rest
  have htext : (serializeProgress progress).toList ++ rest =
      '\x7b' :: ((serializeEntries progress.entries).toList ++ '\x7d' :: rest) := by
    rw [serializeProgress, String.toList_append, String.toList_append, List.append_assoc]
    simp
  have hscan (text : List Char) : unserializeProgress ('\x7b' :: text) SortedMap.empty =
      (((ProgressScan.start SortedMap.empty).scan text).1.finish,
        ((ProgressScan.start SortedMap.empty).scan text).2.tail) := rfl
  have hmap := (progress.map ProgressScan.readBack).foldl_insert_entries
  have hentries : (progress.map ProgressScan.readBack).entries =
      progress.entries.map fun e => (e.1, ProgressScan.readBack e.2) := rfl
  rw [hentries, List.foldl_map] at hmap
  rw [htext, hscan, hstop, hread, hmap]
  rfl

/-- Counters that are not negative are read back, whatever follows them. -/
theorem unserializeProgress_serializeProgress {progress : SortedMap String Int16}
    (hprogress : ∀ e ∈ progress.entries, IsProgressKey e.1 ∧ 0 ≤ e.2.toInt) (rest : List Char) :
    unserializeProgress ((serializeProgress progress).toList ++ rest) SortedMap.empty =
      (progress, rest) := by
  have hkeys : ∀ e ∈ progress.entries, '=' ∉ e.1.toList ∧ '\x7d' ∉ e.1.toList :=
    fun e he => ⟨(hprogress e he).1.1, (hprogress e he).1.2.1⟩
  have hsame : progress.map ProgressScan.readBack = progress := by
    apply SortedMap.ext
    intro key
    rw [SortedMap.find?_map]
    cases hfind : progress.find? key with
    | none => rfl
    | some value =>
        have hnonneg := (hprogress _ (SortedMap.mem_entries_iff.mpr hfind)).2
        exact congrArg some (ProgressScan.readBack_of_nonneg hnonneg)
  rw [unserializeProgress_eq hkeys, hsame]

/-! ## Records -/

/-- A name that the text of a record keeps. -/
def IsStateName (name : String) : Prop := ',' ∉ name.toList ∧ ';' ∉ name.toList

instance (name : String) : Decidable (IsStateName name) :=
  inferInstanceAs (Decidable (_ ∧ _))

theorem val_convertProgress {progress : List Char} (h : ';' ∉ progress)
    (hformat : progress.head? ∈ [none, some '\x7b']) :
    (convertProgress progress h).val = String.ofList progress := by
  cases progress with
  | nil => rfl
  | cons c rest =>
      have hc : c = '\x7b' := by
        simpa using hformat
      rw [convertProgress, dif_pos hc]

theorem convertProgress_toList (text : ProgressText) :
    convertProgress text.val.toList text.property.1 = text := by
  apply Subtype.ext
  rw [val_convertProgress _ text.property.2, String.ofList_toList]

/-- The text of a record without the delimiter after it. -/
def recordPart (id : Int16) (r : CharacterQuestState) : List Char :=
  (toText id).toList ++ ',' :: (r.questState.toList ++ ',' :: r.questProgress.val.toList)

theorem toList_serializeRecord (id : Int16) (r : CharacterQuestState) :
    (serializeRecord id r).toList = recordPart id r ++ [';'] := by
  unfold serializeRecord recordPart
  simp

theorem notMem_recordPart (id : Int16) {r : CharacterQuestState} (hr : IsStateName r.questState) :
    ';' ∉ recordPart id r := by
  unfold recordPart
  simp only [List.mem_append, List.mem_cons, not_or]
  exact ⟨notMem_toText id (by decide) (by decide), by decide, hr.2, by decide,
    r.questProgress.property.1⟩

theorem parseRecord_recordPart (id : Int16) {r : CharacterQuestState}
    (hr : IsStateName r.questState) :
    parseRecord (recordPart id r) (notMem_recordPart id hr) = some (id, r) := by
  have hid : cutFirst ',' (recordPart id r) =
      some ((toText id).toList, r.questState.toList ++ ',' :: r.questProgress.val.toList) :=
    cutFirst_append (notMem_toText id (by decide) (by decide)) _
  have hstate : cutFirst ',' (r.questState.toList ++ ',' :: r.questProgress.val.toList) =
      some (r.questState.toList, r.questProgress.val.toList) := cutFirst_append hr.1 _
  unfold parseRecord
  split
  next h =>
    rw [hid] at h
    cases h
  next h =>
    rw [hid] at h
    cases h
    dsimp only
    split
    next h =>
      rw [hstate] at h
      cases h
      rw [toInt_toText, String.ofList_toList, convertProgress_toList]
    next h =>
      rw [hstate] at h
      cases h

/-- What is saved is read back record by record. -/
theorem parseRecords_serializeRecords {records : List (Int16 × CharacterQuestState)}
    (h : ∀ e ∈ records, IsStateName e.2.questState) :
    parseRecords (serializeRecords records) = records := by
  induction records with
  | nil => rfl
  | cons e rest ih =>
      obtain ⟨he, hrest⟩ := List.forall_mem_cons.mp h
      have htext : (serializeRecords (e :: rest)).toList =
          recordPart e.1 e.2 ++ ';' :: (serializeRecords rest).toList := by
        unfold serializeRecords
        rw [List.map_cons, String.join_cons, String.toList_append, toList_serializeRecord,
          List.append_assoc]
        rfl
      have hpieces : explode ';' (serializeRecords (e :: rest)).toList =
          recordPart e.1 e.2 :: explode ';' (serializeRecords rest).toList := by
        rw [htext, explode_append (notMem_recordPart e.1 he)]
      have hread : parseRecords (serializeRecords rest) = rest := ih hrest
      have hparse {pieces : List (List Char)} (hends : ∀ piece ∈ pieces, ';' ∉ piece)
          (hcut : pieces = recordPart e.1 e.2 :: explode ';' (serializeRecords rest).toList) :
          (pieces.pmap parseRecord hends).reduceOption =
            e :: parseRecords (serializeRecords rest) := by
        subst hcut
        rw [List.pmap, parseRecord_recordPart e.1 he, List.reduceOption_cons_of_some]
        rfl
      rw [hread] at hparse
      exact hparse (fun _ => notMem_of_mem_explode) hpieces

end ArenaServ

/-!
## Counters that are negative

A minus sign is read as if it were a digit, which is minus three. With the digits of a number
behind it, that is almost never the number it was.
-/

namespace ArenaServ.ProgressScan

open Util

theorem length_toDigits_of_lt {n : ℕ} (h : n < 10) : (Nat.toDigits 10 n).length = 1 := by
  rw [Nat.toDigits_of_lt_base h, List.length_singleton]

theorem length_toDigits_of_le {n : ℕ} (h : 10 ≤ n) :
    (Nat.toDigits 10 n).length = (Nat.toDigits 10 (n / 10)).length + 1 := by
  rw [Nat.toDigits_of_base_le (by omega) h, List.length_append, List.length_singleton]

theorem length_toDigits_of_pow {k n : ℕ} (hlow : 10 ^ k ≤ n) (hhigh : n < 10 ^ (k + 1)) :
    (Nat.toDigits 10 n).length = k + 1 := by
  induction k generalizing n with
  | zero => exact length_toDigits_of_lt hhigh
  | succ k ih =>
      have hpos : 0 < 10 ^ k := Nat.pow_pos (by omega)
      rw [Nat.pow_succ] at hlow hhigh
      have hten : 10 ≤ n := by omega
      have hlow' : 10 ^ k ≤ n / 10 := (Nat.le_div_iff_mul_le (by omega)).2 hlow
      have hhigh' : n / 10 < 10 ^ (k + 1) := Nat.div_lt_of_lt_mul (by omega)
      rw [length_toDigits_of_le hten, ih hlow' hhigh']

/-- How many digits the values of a short have. -/
theorem length_toDigits_cases {n : ℕ} (h : n < 100000) :
    (n < 10 ∧ (Nat.toDigits 10 n).length = 1) ∨
      (10 ≤ n ∧ n < 100 ∧ (Nat.toDigits 10 n).length = 2) ∨
      (100 ≤ n ∧ n < 1000 ∧ (Nat.toDigits 10 n).length = 3) ∨
      (1000 ≤ n ∧ n < 10000 ∧ (Nat.toDigits 10 n).length = 4) ∨
      (10000 ≤ n ∧ (Nat.toDigits 10 n).length = 5) := by
  rcases lt_or_ge n 10 with h1 | h1
  · exact Or.inl ⟨h1, length_toDigits_of_lt h1⟩
  · right
    rcases lt_or_ge n 100 with h2 | h2
    · exact Or.inl ⟨h1, h2, length_toDigits_of_pow (k := 1) h1 h2⟩
    · right
      rcases lt_or_ge n 1000 with h3 | h3
      · exact Or.inl ⟨h2, h3, length_toDigits_of_pow (k := 2) h2 h3⟩
      · right
        rcases lt_or_ge n 10000 with h4 | h4
        · exact Or.inl ⟨h3, h4, length_toDigits_of_pow (k := 3) h3 h4⟩
        · exact Or.inr ⟨h4, length_toDigits_of_pow (k := 4) h4 h⟩

theorem readBack_of_neg {value : Int16} (h : value.toInt < 0) :
    readBack value = Int16.ofInt
      (-3 * 10 ^ (Nat.toDigits 10 (-value.toInt).toNat).length + (-value.toInt).toNat) := by
  have hsign : ∀ text : List Char, pushChars 0 ('-' :: text) = pushChars (Int16.ofInt (-3)) text :=
    fun _ => rfl
  have hread := pushChars_digits
    (fun _ => isDigit_of_mem_toDigits (n := (-value.toInt).toNat)) (-3)
  rw [Nat.ofDigitChars_ten_toDigits] at hread
  rw [readBack, toList_toText, if_neg (by omega), hsign, hread]

/-- One negative value is read back by accident. -/
theorem readBack_eq_iff (value : Int16) :
    readBack value = value ↔ 0 ≤ value.toInt ∨ value.toInt = -18928 := by
  by_cases hpos : 0 ≤ value.toInt
  · exact iff_of_true (readBack_of_nonneg hpos) (Or.inl hpos)
  · have hlow := value.le_toInt
    have hneg : value.toInt < 0 := by omega
    rw [readBack_of_neg hneg, Int16.ofInt_eq_iff_bmod_eq_toInt, Int.bmod_def]
    obtain ⟨n, hn⟩ : ∃ n : ℕ, value.toInt = -(n : ℤ) := ⟨(-value.toInt).toNat, by omega⟩
    have hnat : (-value.toInt).toNat = n := by omega
    rw [hnat, hn]
    have hbound : n ≤ 32768 := by omega
    obtain ⟨hn, hlen⟩ | ⟨hn, hn', hlen⟩ | ⟨hn, hn', hlen⟩ | ⟨hn, hn', hlen⟩ | ⟨hn, hlen⟩ :=
      length_toDigits_cases (n := n) (by omega)
    all_goals
      rw [hlen]
      split <;> omega

/-- Counters are restored, whatever text follows, if and only if they are not negative, but for that
one value. -/
theorem unserializeProgress_eq_iff {progress : SortedMap String Int16}
    (hkeys : ∀ e ∈ progress.entries, '=' ∉ e.1.toList ∧ ',' ∉ e.1.toList ∧ '\x7d' ∉ e.1.toList)
    (rest : List Char) :
    unserializeProgress ((serializeProgress progress).toList ++ rest) SortedMap.empty =
        (progress, rest) ↔
      ∀ e ∈ progress.entries, 0 ≤ e.2.toInt ∨ e.2.toInt = -18928 := by
  rw [unserializeProgress_eq fun e he => ⟨(hkeys e he).1, (hkeys e he).2.2⟩]
  constructor
  · intro h e he
    have hmap : progress.map readBack = progress := congrArg Prod.fst h
    have hfind : (progress.map readBack).find? e.1 = some e.2 := by
      rw [hmap]
      exact SortedMap.mem_entries_iff.mp he
    rw [SortedMap.find?_map, SortedMap.mem_entries_iff.mp he, Option.map_some] at hfind
    exact (readBack_eq_iff e.2).1 (Option.some.inj hfind)
  · intro h
    have hmap : progress.map readBack = progress := by
      apply SortedMap.ext
      intro key
      rw [SortedMap.find?_map]
      cases hfind : progress.find? key with
      | none => rfl
      | some value =>
          have hvalue := h _ (SortedMap.mem_entries_iff.mpr hfind)
          exact congrArg some ((readBack_eq_iff value).2 hvalue)
    rw [hmap]

theorem unserializeProgress_eq_iff_daily :
    let progress := (SortedMap.empty.insert "c" (2 : Int16)).insert "killednpcs/5" (-18928)
    unserializeProgress ((serializeProgress progress).toList ++ "; and more".toList)
        SortedMap.empty = (progress, "; and more".toList) ↔
      ∀ e ∈ progress.entries, 0 ≤ e.2.toInt ∨ e.2.toInt = -18928 :=
  unserializeProgress_eq_iff (by decide) _

/-- A counter that has wrapped around is read back as another value. -/
theorem unserializeProgress_ne_wrapped :
    let progress := SortedMap.empty.insert "killedplayers" (-32768 : Int16)
    unserializeProgress (serializeProgress progress).toList SortedMap.empty ≠ (progress, []) := by
  intro progress h
  have hread : (unserializeProgress (serializeProgress progress).toList
      SortedMap.empty).1.find? "killedplayers" ≠ progress.find? "killedplayers" := by
    decide
  exact hread (by rw [h])

end ArenaServ.ProgressScan
