import Mathlib.Logic.Function.Iterate
import Mathlib.Data.Nat.Find
import Mathlib.Data.Nat.Notation
import Mathlib.Data.Int.Notation

/-!
# The lowest id that is free

A search for an id goes over a list, and begins it again with the next id whenever it meets the one
that it is at. Where ids wrap it may not end, or come to one that is not positive.
-/

namespace FreeIds

variable {ι : Type*} [DecidableEq ι] (next : ι → ι) (ids : List ι)

def search : ℕ → ι → Option ι
  | 0, _ => none
  | tries + 1, id => (ids.find? (· = id)).elim (some id) fun found => search tries (next found)

/-- The smallest positive number with which nothing is used. -/
structure Smallest (used : ℤ → Prop) (r : ℤ) : Prop where
  positive : 0 < r
  free : ¬ used r
  below : ∀ s, 0 < s → s < r → used s

theorem Smallest.unique {used : ℤ → Prop} {r s : ℤ} (hr : Smallest used r)
    (hs : Smallest used s) : r = s := by
  rcases Int.lt_trichotomy r s with hlt | heq | hlt
  · exact absurd (hs.below r hr.positive hlt) hr.free
  · exact heq
  · exact absurd (hr.below s hs.positive hlt) hs.free

variable {next ids} {id r : ι}

theorem search_succ_of_mem (tries : ℕ) (h : id ∈ ids) :
    search next ids (tries + 1) id = search next ids tries (next id) := by
  have hsome : (ids.find? (· = id)).isSome := by
    rw [List.find?_isSome]
    exact ⟨id, h, decide_eq_true rfl⟩
  obtain ⟨found, hfound⟩ := Option.isSome_iff_exists.mp hsome
  have hid := List.find?_some hfound
  rw [decide_eq_true_iff] at hid
  rw [search, hfound, Option.elim_some, hid]

theorem search_succ_of_not_mem (tries : ℕ) (h : id ∉ ids) :
    search next ids (tries + 1) id = some id := by
  have hnone : ids.find? (· = id) = none := by
    rw [List.find?_eq_none]
    intro found hfound hid
    rw [decide_eq_true_iff] at hid
    exact h (hid ▸ hfound)
  rw [search, hnone, Option.elim_none]

/-- The search goes from one used id to the next one. -/
theorem search_iterate {n : ℕ} (tries : ℕ) (h : ∀ m < n, next^[m] id ∈ ids) :
    search next ids (n + tries) id = search next ids tries (next^[n] id) := by
  induction n generalizing id with
  | zero => rw [Nat.zero_add, Function.iterate_zero_apply]
  | succ n ih =>
      have hid : id ∈ ids := h 0 (Nat.succ_pos n)
      rw [Nat.add_right_comm, search_succ_of_mem _ hid, ih, Function.iterate_succ_apply]
      intro m hm
      rw [← Function.iterate_succ_apply]
      exact h (m + 1) (Nat.succ_lt_succ hm)

section Numbers
variable {value : ι → ℤ} {bound : ℤ}

omit [DecidableEq ι] in
theorem value_iterate (hstart : value id = 1)
    (hnext : ∀ x, 0 < value x → value x < bound → value (next x) = value x + 1) {n : ℕ}
    (hn : (n : ℤ) < bound) : value (next^[n] id) = n + 1 := by
  induction n with
  | zero => rw [Function.iterate_zero_apply, hstart]; rfl
  | succ n ih =>
      rw [Int.natCast_succ] at hn
      have hvalue := ih (by omega)
      rw [Function.iterate_succ_apply', hnext _ (by omega) (by omega), hvalue, Int.natCast_succ]

/-- A search from 1 ends with the smallest free number, where there is one before ids wrap. -/
theorem search_smallest (next : ι → ι) (ids : List ι) (id : ι) (value : ι → ℤ) (bound : ℤ)
    (hinj : Function.Injective value) (hstart : value id = 1)
    (hnext : ∀ x, 0 < value x → value x < bound → value (next x) = value x + 1)
    (hfree : ∃ s, 0 < s ∧ s ≤ bound ∧ s ∉ ids.map value) :
    ∃ tries r, search next ids tries id = some r ∧ Smallest (· ∈ ids.map value) (value r) ∧
      value r ≤ bound := by
  have hexists : ∃ n : ℕ, (n : ℤ) < bound ∧ (n : ℤ) + 1 ∉ ids.map value := by
    obtain ⟨s, hs, hbound, hmem⟩ := hfree
    refine ⟨(s - 1).toNat, by omega, ?_⟩
    rwa [Int.toNat_of_nonneg (by omega), Int.sub_add_cancel]
  classical
  obtain ⟨hn, hnot⟩ := Nat.find_spec hexists
  have hbelow : ∀ m < Nat.find hexists, (m : ℤ) + 1 ∈ ids.map value := by
    intro m hm
    have hmin := Nat.find_min hexists hm
    rw [not_and, not_not] at hmin
    exact hmin (by omega)
  have hvalue := value_iterate hstart hnext hn
  have hused : ∀ m < Nat.find hexists, next^[m] id ∈ ids := by
    intro m hm
    obtain ⟨x, hx, hxm⟩ := List.mem_map.mp (hbelow m hm)
    rw [← value_iterate hstart hnext (by omega)] at hxm
    rwa [← hinj hxm]
  refine ⟨Nat.find hexists + 1, next^[Nat.find hexists] id, ?_, ⟨?_, ?_, ?_⟩, ?_⟩
  · rw [search_iterate _ hused, search_succ_of_not_mem]
    intro hmem
    rw [← hvalue] at hnot
    exact hnot (List.mem_map_of_mem hmem)
  · omega
  · rwa [hvalue]
  · intro s hs hlt
    rw [hvalue] at hlt
    have hmem := hbelow (s - 1).toNat (by omega)
    rwa [Int.toNat_of_nonneg (by omega), Int.sub_add_cancel] at hmem
  · omega

end Numbers

end FreeIds
