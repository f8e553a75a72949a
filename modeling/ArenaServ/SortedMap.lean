import Mathlib.Data.List.Pairwise
import Mathlib.Data.String.Basic
import Mathlib.Order.Basic

/-!
# Maps in the order of their keys

A map whose entries stand in the order of their keys, each key once. Two maps are equal
when they give the same values, so that what is read from a map determines its entries and
their order.
-/

structure SortedMap (κ ν : Type*) [LinearOrder κ] where
  entries : List (κ × ν)
  sorted : entries.Pairwise fun a b => a.1 < b.1

namespace SortedMap

variable {κ ν μ : Type*} [LinearOrder κ]

/-! ## Lists of entries -/

def lookup (k : κ) : List (κ × ν) → Option ν
  | [] => none
  | (k', v) :: rest => if k = k' then some v else lookup k rest

def put (k : κ) (v : ν) : List (κ × ν) → List (κ × ν)
  | [] => [(k, v)]
  | (k', v') :: rest =>
      if k < k' then (k, v) :: (k', v') :: rest
      else if k = k' then (k, v) :: rest
      else (k', v') :: put k v rest

theorem eq_or_mem_of_mem_put {k : κ} {v : ν} {e : κ × ν} {l : List (κ × ν)} (h : e ∈ put k v l) :
    e = (k, v) ∨ e ∈ l := by
  induction l with
  | nil => exact Or.inl (List.mem_singleton.mp h)
  | cons head rest ih =>
      rw [put] at h
      split_ifs at h with hlt heq
      · exact List.mem_cons.mp h
      · exact (List.mem_cons.mp h).imp_right (List.mem_cons_of_mem _)
      · rcases List.mem_cons.mp h with rfl | hrest
        · exact Or.inr List.mem_cons_self
        · exact (ih hrest).imp_right (List.mem_cons_of_mem _)

theorem sorted_put (k : κ) (v : ν) {l : List (κ × ν)}
    (h : l.Pairwise fun a b => a.1 < b.1) : (put k v l).Pairwise fun a b => a.1 < b.1 := by
  induction l with
  | nil => exact List.pairwise_singleton _ _
  | cons head rest ih =>
      obtain ⟨hhead, hrest⟩ := List.pairwise_cons.mp h
      rw [put]
      split_ifs with hlt heq
      · refine List.pairwise_cons.mpr ⟨?_, h⟩
        intro e he
        rcases List.mem_cons.mp he with rfl | he
        · exact hlt
        · exact hlt.trans (hhead e he)
      · refine List.pairwise_cons.mpr ⟨?_, hrest⟩
        intro e he
        exact heq.trans_lt (hhead e he)
      · refine List.pairwise_cons.mpr ⟨?_, ih hrest⟩
        intro e he
        rcases eq_or_mem_of_mem_put he with rfl | he
        · exact lt_of_le_of_ne (not_lt.mp hlt) (Ne.symm heq)
        · exact hhead e he

theorem lookup_put (k j : κ) (v : ν) (l : List (κ × ν)) :
    lookup j (put k v l) = if j = k then some v else lookup j l := by
  induction l with
  | nil => rfl
  | cons head rest ih =>
      rw [put]
      by_cases hlt : k < head.1
      · rw [if_pos hlt]
        rfl
      · rw [if_neg hlt]
        by_cases heq : k = head.1
        · rw [if_pos heq, lookup, lookup, heq]
          split_ifs <;> rfl
        · rw [if_neg heq, lookup, lookup, ih]
          by_cases hj : j = head.1
          · rw [if_pos hj, if_pos hj, if_neg (hj ▸ Ne.symm heq)]
          · rw [if_neg hj, if_neg hj]

theorem mem_of_lookup {k : κ} {v : ν} {l : List (κ × ν)} (h : lookup k l = some v) :
    (k, v) ∈ l := by
  induction l with
  | nil => cases h
  | cons head rest ih =>
      rw [lookup] at h
      split_ifs at h with hk
      · rw [Option.some.injEq] at h
        rw [hk, ← h]
        exact List.mem_cons_self
      · exact List.mem_cons_of_mem _ (ih h)

theorem lookup_of_mem {k : κ} {v : ν} {l : List (κ × ν)}
    (hl : l.Pairwise fun a b => a.1 < b.1) (h : (k, v) ∈ l) : lookup k l = some v := by
  induction l with
  | nil => cases h
  | cons head rest ih =>
      obtain ⟨hhead, hrest⟩ := List.pairwise_cons.mp hl
      rw [lookup]
      rcases List.mem_cons.mp h with rfl | h
      · rw [if_pos rfl]
      · rw [if_neg (hhead _ h).ne', ih hrest h]

theorem lookup_eq_none {k : κ} {l : List (κ × ν)} (h : ∀ e ∈ l, e.1 ≠ k) : lookup k l = none := by
  induction l with
  | nil => rfl
  | cons head rest ih =>
      rw [lookup, if_neg (h head List.mem_cons_self).symm]
      exact ih fun e he => h e (List.mem_cons_of_mem _ he)

/-- Entries in order are determined by what they are. -/
theorem eq_of_mem_iff {l l' : List (κ × ν)} (hl : l.Pairwise fun a b => a.1 < b.1)
    (hl' : l'.Pairwise fun a b => a.1 < b.1) (hmem : ∀ e, e ∈ l ↔ e ∈ l') : l = l' := by
  have hnodup {l : List (κ × ν)} (hl : l.Pairwise fun a b => a.1 < b.1) : l.Nodup :=
    hl.imp fun hlt heq => hlt.ne (congrArg Prod.fst heq)
  have hperm : l.Perm l' := (List.perm_ext_iff_of_nodup (hnodup hl) (hnodup hl')).mpr hmem
  refine hperm.eq_of_pairwise ?_ hl hl'
  intro a b _ _ hab hba
  exact absurd (hab.trans hba) (lt_irrefl _)

/-- They are determined by the values they give. -/
theorem eq_of_lookup {l l' : List (κ × ν)} (hl : l.Pairwise fun a b => a.1 < b.1)
    (hl' : l'.Pairwise fun a b => a.1 < b.1) (h : ∀ k, lookup k l = lookup k l') : l = l' := by
  apply eq_of_mem_iff hl hl'
  intro e
  constructor
  · intro he
    exact mem_of_lookup ((h e.1).symm.trans (lookup_of_mem hl he))
  · intro he
    exact mem_of_lookup ((h e.1).trans (lookup_of_mem hl' he))

theorem lookup_map (f : ν → μ) (k : κ) (l : List (κ × ν)) :
    lookup k (l.map fun e => (e.1, f e.2)) = (lookup k l).map f := by
  induction l with
  | nil => rfl
  | cons head rest ih =>
      rw [List.map_cons, lookup, lookup, ih]
      split_ifs <;> rfl

/-! ## Maps -/

def empty : SortedMap κ ν := ⟨[], List.Pairwise.nil⟩

def find? (m : SortedMap κ ν) (k : κ) : Option ν := lookup k m.entries

def insert (m : SortedMap κ ν) (k : κ) (v : ν) : SortedMap κ ν :=
  ⟨put k v m.entries, sorted_put k v m.sorted⟩

/-- An insertion that leaves a key that is there as it is. -/
def insertNew (m : SortedMap κ ν) (k : κ) (v : ν) : SortedMap κ ν :=
  if (m.find? k).isSome then m else m.insert k v

def filterKeys (m : SortedMap κ ν) (p : κ → Bool) : SortedMap κ ν :=
  ⟨m.entries.filter fun e => p e.1, m.sorted.filter _⟩

def erase (m : SortedMap κ ν) (k : κ) : SortedMap κ ν := m.filterKeys (· ≠ k)

def map (f : ν → μ) (m : SortedMap κ ν) : SortedMap κ μ :=
  ⟨m.entries.map fun e => (e.1, f e.2), List.pairwise_map.mpr m.sorted⟩

/-- The first entry, or the first one past a key. -/
def next? (m : SortedMap κ ν) : Option κ → Option (κ × ν)
  | none => m.entries.head?
  | some k => m.entries.find? fun e => k < e.1

instance [DecidableEq ν] : DecidableEq (SortedMap κ ν) := fun m n =>
  decidable_of_iff (m.entries = n.entries) <| by
    cases m
    cases n
    exact (SortedMap.mk.injEq ..).symm.to_iff

instance : Inhabited (SortedMap κ ν) := ⟨empty⟩

@[simp] theorem find?_empty (k : κ) : (empty : SortedMap κ ν).find? k = none := rfl

theorem find?_insert (m : SortedMap κ ν) (k j : κ) (v : ν) :
    (m.insert k v).find? j = if j = k then some v else m.find? j :=
  lookup_put k j v m.entries

theorem find?_insertNew (m : SortedMap κ ν) (k j : κ) (v : ν) :
    (m.insertNew k v).find? j = if j = k then some ((m.find? k).getD v) else m.find? j := by
  unfold insertNew
  cases hk : m.find? k with
  | none => exact find?_insert m k j v
  | some old =>
      rw [if_pos (by rfl)]
      split_ifs with hj
      · rw [hj, hk]
        rfl
      · rfl

theorem find?_map (f : ν → μ) (m : SortedMap κ ν) (k : κ) :
    (m.map f).find? k = (m.find? k).map f :=
  lookup_map f k m.entries

theorem mem_entries_iff {m : SortedMap κ ν} {k : κ} {v : ν} :
    (k, v) ∈ m.entries ↔ m.find? k = some v :=
  ⟨lookup_of_mem m.sorted, mem_of_lookup⟩

@[ext] theorem ext {m n : SortedMap κ ν} (h : ∀ k, m.find? k = n.find? k) : m = n := by
  have hentries : m.entries = n.entries := eq_of_lookup m.sorted n.sorted h
  cases m
  cases n
  simp only [mk.injEq]
  exact hentries

theorem find?_filterKeys (m : SortedMap κ ν) (p : κ → Bool) (k : κ) :
    (m.filterKeys p).find? k = if p k then m.find? k else none := by
  have hmem (v : ν) : (k, v) ∈ (m.filterKeys p).entries ↔ (k, v) ∈ m.entries ∧ p k = true :=
    List.mem_filter
  apply Option.ext
  intro v
  rw [← mem_entries_iff, hmem, mem_entries_iff]
  by_cases hp : p k = true
  · rw [if_pos hp, and_iff_left hp]
  · rw [if_neg hp]
    exact ⟨fun h => absurd h.2 hp, fun h => nomatch h⟩

theorem eq_or_mem_of_mem_insert {m : SortedMap κ ν} {k : κ} {v : ν} {e : κ × ν}
    (h : e ∈ (m.insert k v).entries) : e = (k, v) ∨ e ∈ m.entries :=
  eq_or_mem_of_mem_put h

theorem mem_of_mem_filterKeys {m : SortedMap κ ν} {p : κ → Bool} {e : κ × ν}
    (h : e ∈ (m.filterKeys p).entries) : e ∈ m.entries :=
  List.mem_of_mem_filter h

theorem find?_erase (m : SortedMap κ ν) (k j : κ) :
    (m.erase k).find? j = if j = k then none else m.find? j := by
  unfold erase
  rw [find?_filterKeys]
  by_cases hj : j = k <;> simp [hj]

/-- What each entry of a list of distinct keys gives, once all are inserted. -/
theorem find?_foldl_insert {l : List (κ × ν)} (hl : l.Pairwise fun a b => a.1 < b.1)
    (m : SortedMap κ ν) (k : κ) :
    (l.foldl (fun m e => m.insert e.1 e.2) m).find? k = (lookup k l).or (m.find? k) := by
  induction l generalizing m with
  | nil => rfl
  | cons head rest ih =>
      obtain ⟨hhead, hrest⟩ := List.pairwise_cons.mp hl
      rw [List.foldl_cons, ih hrest, find?_insert, lookup]
      split_ifs with hk
      · have hnone : lookup k rest = none :=
          lookup_eq_none fun e he => hk ▸ (hhead e he).ne'
        rw [hnone]
        rfl
      · rfl

/-- A map is put together from its entries. -/
theorem foldl_insert_entries (m : SortedMap κ ν) :
    m.entries.foldl (fun m e => m.insert e.1 e.2) empty = m := by
  ext k : 1
  rw [find?_foldl_insert m.sorted, find?_empty, Option.or_none]
  rfl

theorem mem_of_next? {m : SortedMap κ ν} {after : Option κ} {k : κ} {v : ν}
    (h : m.next? after = some (k, v)) : m.find? k = some v := by
  rw [← mem_entries_iff]
  cases after with
  | none => exact List.mem_of_head? h
  | some j => exact List.mem_of_find?_eq_some h

end SortedMap

/-! ## Machine integers in the order of their values -/

instance linearOrderInt16 : LinearOrder Int16 where
  le_refl _ := Int16.le_refl _
  le_trans _ _ _ := Int16.le_trans
  le_antisymm _ _ := Int16.le_antisymm
  le_total := Int16.le_total
  lt_iff_le_not_ge a b := by
    rw [Int16.lt_iff_toInt_lt, Int16.le_iff_toInt_le, Int16.le_iff_toInt_le]
    omega
  toDecidableLE := inferInstance
  toDecidableEq := inferInstance
  toDecidableLT := inferInstance

instance linearOrderInt32 : LinearOrder Int32 where
  le_refl _ := Int32.le_refl _
  le_trans _ _ _ := Int32.le_trans
  le_antisymm _ _ := Int32.le_antisymm
  le_total := Int32.le_total
  lt_iff_le_not_ge a b := by
    rw [Int32.lt_iff_toInt_lt, Int32.le_iff_toInt_le, Int32.le_iff_toInt_le]
    omega
  toDecidableLE := inferInstance
  toDecidableEq := inferInstance
  toDecidableLT := inferInstance
