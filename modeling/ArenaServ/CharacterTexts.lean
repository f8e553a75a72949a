import ArenaServ.Inventory
import ArenaServ.TextUtil

/-!
# The texts of a character

Inventories, spells, paperdolls and the ranks of a guild are stored as texts: numbers or
names, each followed by a delimiter. What was written is read back in the same order.
-/

namespace ArenaServ

structure CharacterSpell where
  id : Int16
  level : UInt8
  deriving DecidableEq, Repr

namespace CharacterTexts

open Util

def itemSerialize : List CharacterItem → List Char
  | [] => []
  | item :: list =>
      intText item.id.toInt32 ++ ',' :: (intText item.amount ++ ';' :: itemSerialize list)

/-- A pair of numbers in a part; `none` for a part without a comma. -/
def numbers (part : List Char) : Option (Int32 × Int32) :=
  (cutFirst ',' part).map (Prod.map toInt toInt)

def itemPart (part : List Char) : Option CharacterItem :=
  match numbers part with
  | none => none
  | some (id, amount) =>
      if id < 1 ∨ 65535 < id ∨ amount < 1 then none else some ⟨id.toInt16, amount⟩

def itemUnserialize (serialized : List Char) : List CharacterItem :=
  (explode ';' serialized).filterMap itemPart

def spellSerialize : List CharacterSpell → List Char
  | [] => []
  | spell :: list =>
      intText spell.id.toInt32 ++ ',' ::
        (intText (Int32.ofInt spell.level.toNat) ++ ';' :: spellSerialize list)

def spellPart (part : List Char) : Option CharacterSpell :=
  match numbers part with
  | none => none
  | some (id, level) =>
      if id < 1 ∨ 65535 < id ∨ level < 0 then none
      else some ⟨id.toInt16, level.toUInt32.toUInt8⟩

def spellUnserialize (serialized : List Char) : List CharacterSpell :=
  (explode ';' serialized).filterMap spellPart

def dollText : List Int32 → List Char
  | [] => []
  | item :: list => intText item ++ ',' :: dollText list

def dollSerialize (list : Vector Int32 15) : List Char := dollText list.toList

/-- The loop of `DollUnserialize`, with the next slot `i`; `none` when it writes behind the
last slot, which discarded parts can make it do. -/
def dollLoop (list : Vector Int32 15) (i : ℕ) : List (List Char) → Option (Vector Int32 15)
  | [] => some list
  | part :: parts =>
      if toInt part < 0 ∨ 65535 < toInt part then dollLoop list (i + 1) parts
      else if h : i < 15 then
        if i + 1 = 15 then some (list.set i (toInt part))
        else dollLoop (list.set i (toInt part)) (i + 1) parts
      else none

def dollUnserialize (serialized : List Char) : Option (Vector Int32 15) :=
  dollLoop (Vector.replicate 15 0) 0 (explode ',' serialized)

def rankText : List (List Char) → List Char
  | [] => []
  | rank :: list => rank ++ ',' :: rankText list

def rankSerialize (list : Vector (List Char) 9) : List Char := rankText list.toList

/-- The loop of `RankUnserialize`, with the text behind the last comma. -/
def rankLoop (list : Vector (List Char) 9) (i : ℕ) (rest : List Char) : Vector (List Char) 9 :=
  if h : i < 9 then
    match cutFirst ',' rest with
    | none => list
    | some (rank, rest) => rankLoop (list.set i rank) (i + 1) rest
  else list
  termination_by 9 - i

def rankUnserialize (serialized : List Char) : Vector (List Char) 9 :=
  rankLoop (Vector.replicate 9 []) 0
    (if serialized ≠ [] ∧ serialized.getLast? ≠ some ',' then serialized ++ [',']
      else serialized)

/-! ## Items and spells -/

theorem numbers_pair (a b : Int32) :
    numbers (intText a ++ ',' :: intText b) = some (a, b) := by
  rw [numbers, cutFirst_append (notMem_intText a (by decide) (by decide)), Option.map_some,
    Prod.map_apply, toInt_intText, toInt_intText]

theorem explode_pair (a b : Int32) (rest : List Char) :
    explode ';' (intText a ++ ',' :: (intText b ++ ';' :: rest)) =
      (intText a ++ ',' :: intText b) :: explode ';' rest := by
  have hnot : ';' ∉ intText a ++ ',' :: intText b := by
    rw [List.mem_append, List.mem_cons, not_or, not_or]
    exact ⟨notMem_intText a (by decide) (by decide), by decide,
      notMem_intText b (by decide) (by decide)⟩
  rw [← explode_append hnot, List.append_assoc, List.cons_append]

theorem toInt_toInt32 (id : Int16) : id.toInt32.toInt = id.toInt := by simp

theorem itemPart_pair {item : CharacterItem} (hid : 1 ≤ item.id.toInt)
    (hamount : 1 ≤ item.amount.toInt) :
    itemPart (intText item.id.toInt32 ++ ',' :: intText item.amount) = some item := by
  have hlt := item.id.toInt_lt
  unfold itemPart
  rw [numbers_pair]
  dsimp only
  rw [if_neg]
  · simp
  · simp only [Int32.lt_iff_toInt_lt, toInt_toInt32]
    rw [show (1 : Int32).toInt = 1 from rfl, show (65535 : Int32).toInt = 65535 from rfl]
    omega

/-- The empty piece behind the last delimiter is skipped. -/
theorem itemUnserialize_itemSerialize {list : List CharacterItem}
    (h : ∀ item ∈ list, 1 ≤ item.id.toInt ∧ 1 ≤ item.amount.toInt) :
    itemUnserialize (itemSerialize list) = list := by
  induction list with
  | nil => rfl
  | cons item list ih =>
      obtain ⟨hid, hamount⟩ := h item List.mem_cons_self
      rw [itemUnserialize, itemSerialize, explode_pair,
        List.filterMap_cons_some (itemPart_pair hid hamount)]
      exact congrArg (item :: ·) (ih fun other hother => h other (List.mem_cons_of_mem _ hother))

theorem toInt_level (level : UInt8) : (Int32.ofInt level.toNat).toInt = level.toNat := by
  have hlt := level.toNat_lt
  exact Int32.toInt_ofInt_of_le (by omega) (by omega)

theorem spellPart_pair {spell : CharacterSpell} (hid : 1 ≤ spell.id.toInt) :
    spellPart (intText spell.id.toInt32 ++ ',' :: intText (Int32.ofInt spell.level.toNat)) =
      some spell := by
  have hlt := spell.id.toInt_lt
  have hlevel : (Int32.ofInt spell.level.toNat).toUInt32.toUInt8 = spell.level := by
    rw [Int32.ofInt_eq_ofNat]
    exact (UInt32.toUInt8_ofNat' spell.level.toNat).trans UInt8.ofNat_toNat
  unfold spellPart
  rw [numbers_pair]
  dsimp only
  rw [if_neg, hlevel]
  · simp
  · simp only [Int32.lt_iff_toInt_lt, toInt_toInt32, toInt_level]
    rw [show (1 : Int32).toInt = 1 from rfl, show (65535 : Int32).toInt = 65535 from rfl,
      show (0 : Int32).toInt = 0 from rfl]
    omega

theorem spellUnserialize_spellSerialize {list : List CharacterSpell}
    (h : ∀ spell ∈ list, 1 ≤ spell.id.toInt) :
    spellUnserialize (spellSerialize list) = list := by
  induction list with
  | nil => rfl
  | cons spell list ih =>
      rw [spellUnserialize, spellSerialize, explode_pair,
        List.filterMap_cons_some (spellPart_pair (h spell List.mem_cons_self))]
      exact congrArg (spell :: ·) (ih fun other hother => h other (List.mem_cons_of_mem _ hother))

/-! ## Slots -/

/-- What has been filled in, with one more slot. -/
theorem take_set_succ {α : Type*} {list : List α} {i : ℕ} (h : i < list.length) (a : α) :
    (list.set i a).take (i + 1) = list.take i ++ [a] := by
  rw [List.take_succ_eq_append_getElem (by rwa [List.length_set]), List.take_set_of_le le_rfl,
    List.getElem_set_self]

theorem dollLoop_dollText (list : Vector Int32 15) {i : ℕ} {rest : List Int32}
    (hlength : i + rest.length = 15) (hne : rest ≠ [])
    (hrest : ∀ id ∈ rest, 0 ≤ id.toInt ∧ id.toInt ≤ 65535) :
    ∃ doll, dollLoop list i (explode ',' (dollText rest)) = some doll ∧
      doll.toList = list.toList.take i ++ rest := by
  induction rest generalizing list i with
  | nil => exact absurd rfl hne
  | cons item rest ih =>
      rw [List.length_cons] at hlength
      have hi : i < 15 := by omega
      have hin : ¬ (item < 0 ∨ 65535 < item) := by
        have hitem := hrest item List.mem_cons_self
        simp only [Int32.lt_iff_toInt_lt]
        rw [show (65535 : Int32).toInt = 65535 from rfl, show (0 : Int32).toInt = 0 from rfl]
        omega
      have htake : (list.set i item).toList.take (i + 1) = list.toList.take i ++ [item] := by
        rw [Vector.toList_set hi]
        exact take_set_succ (by rwa [Vector.length_toList]) item
      rw [dollText, explode_append (notMem_intText item (by decide) (by decide)), dollLoop,
        toInt_intText, if_neg hin, dif_pos hi]
      by_cases hlast : i + 1 = 15
      · -- the empty piece behind the last comma is not looked at
        have hnil : rest = [] := List.eq_nil_of_length_eq_zero (by omega)
        rw [if_pos hlast, hnil, ← htake, hlast, List.take_of_length_le (by simp)]
        exact ⟨_, rfl, rfl⟩
      · have hne' : rest ≠ [] := by
          rintro rfl
          rw [List.length_nil] at hlength
          omega
        have hlength' : i + 1 + rest.length = 15 := by omega
        obtain ⟨doll, hloop, hdoll⟩ := ih (list.set i item) hlength' hne'
          fun id hid => hrest id (List.mem_cons_of_mem _ hid)
        rw [if_neg hlast]
        refine ⟨doll, hloop, ?_⟩
        rw [hdoll, htake, List.append_assoc, List.singleton_append]

theorem dollUnserialize_dollSerialize {list : Vector Int32 15}
    (h : ∀ id ∈ list, 0 ≤ id.toInt ∧ id.toInt ≤ 65535) :
    dollUnserialize (dollSerialize list) = some list := by
  have hne : list.toList ≠ [] := by
    intro hnil
    have hlength := list.length_toList
    rw [hnil] at hlength
    cases hlength
  obtain ⟨doll, hloop, hdoll⟩ := dollLoop_dollText (Vector.replicate 15 0)
    ((Nat.zero_add _).trans list.length_toList) hne fun id hid => h id (Vector.mem_toList_iff.mp hid)
  rw [dollUnserialize, dollSerialize, hloop]
  exact congrArg some (Vector.toList_inj.mp hdoll)

theorem getLast?_rankText {list : List (List Char)} (h : list ≠ []) :
    (rankText list).getLast? = some ',' := by
  induction list with
  | nil => exact absurd rfl h
  | cons rank list ih =>
      rw [rankText]
      cases list with
      | nil => simp [rankText]
      | cons next list =>
          rw [List.getLast?_append_of_ne_nil _ (List.cons_ne_nil _ _), List.getLast?_cons,
            ih (List.cons_ne_nil _ _)]
          rfl

theorem rankLoop_rankText {list : Vector (List Char) 9} {i : ℕ} {rest : List (List Char)}
    (hlength : i + rest.length = 9) (hrest : ∀ rank ∈ rest, ',' ∉ rank) :
    (rankLoop list i (rankText rest)).toList = list.toList.take i ++ rest := by
  induction rest generalizing list i with
  | nil =>
      rw [List.length_nil] at hlength
      rw [rankLoop, dif_neg (by omega), List.append_nil, List.take_of_length_le (by simp; omega)]
  | cons rank rest ih =>
      rw [List.length_cons] at hlength
      have hi : i < 9 := by omega
      have htake : (list.set i rank).toList.take (i + 1) = list.toList.take i ++ [rank] := by
        rw [Vector.toList_set hi]
        exact take_set_succ (by rwa [Vector.length_toList]) rank
      rw [rankLoop, dif_pos hi, rankText, cutFirst_append (hrest rank List.mem_cons_self)]
      dsimp only
      rw [ih (by omega) fun other hother => hrest other (List.mem_cons_of_mem _ hother), htake,
        List.append_assoc, List.singleton_append]

theorem rankUnserialize_rankSerialize {list : Vector (List Char) 9}
    (h : ∀ rank ∈ list, ',' ∉ rank) : rankUnserialize (rankSerialize list) = list := by
  have hne : list.toList ≠ [] := by
    intro hnil
    have hlength := list.length_toList
    rw [hnil] at hlength
    cases hlength
  rw [rankUnserialize, rankSerialize, if_neg fun hboth => hboth.2 (getLast?_rankText hne)]
  apply Vector.toList_inj.mp
  exact rankLoop_rankText (by rw [Vector.length_toList]) fun rank hrank =>
    h rank (Vector.mem_toList_iff.mp hrank)

/-- What is stored of a character and of a guild's ranks is read back as it was. -/
theorem unserialize_serialize :
    (∀ list : List CharacterItem,
      (∀ item ∈ list, 1 ≤ item.id.toInt ∧ 1 ≤ item.amount.toInt) →
        itemUnserialize (itemSerialize list) = list) ∧
    (∀ list : List CharacterSpell, (∀ spell ∈ list, 1 ≤ spell.id.toInt) →
      spellUnserialize (spellSerialize list) = list) ∧
    (∀ list : Vector Int32 15, (∀ id ∈ list, 0 ≤ id.toInt ∧ id.toInt ≤ 65535) →
      dollUnserialize (dollSerialize list) = some list) ∧
    (∀ list : Vector (List Char) 9, (∀ rank ∈ list, ',' ∉ rank) →
      rankUnserialize (rankSerialize list) = list) :=
  ⟨fun _ => itemUnserialize_itemSerialize, fun _ => spellUnserialize_spellSerialize,
    fun _ => dollUnserialize_dollSerialize, fun _ => rankUnserialize_rankSerialize⟩

theorem unserialize_serialize_items :
    itemUnserialize (itemSerialize [⟨1, 2147483647⟩, ⟨32767, 1⟩]) =
        [⟨1, 2147483647⟩, ⟨32767, 1⟩] ∧
      spellUnserialize (spellSerialize [⟨3, 255⟩]) = [⟨3, 255⟩] ∧
      dollUnserialize (dollSerialize (Vector.replicate 15 65535)) =
        some (Vector.replicate 15 65535) ∧
      rankUnserialize (rankSerialize (Vector.replicate 9 ['a'])) = Vector.replicate 9 ['a'] := by
  obtain ⟨hitems, hspells, hdoll, hranks⟩ := unserialize_serialize
  exact ⟨hitems _ (by decide), hspells _ (by decide),
    hdoll _ (by simp only [Vector.mem_replicate]; rintro id ⟨-, rfl⟩; decide),
    hranks _ (by simp only [Vector.mem_replicate]; rintro rank ⟨-, rfl⟩; decide)⟩

end CharacterTexts

end ArenaServ
