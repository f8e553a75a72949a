import Mathlib.Data.List.Basic
import Mathlib.Data.List.TakeWhile

/-!
# Reversal of maximal runs

`reverseRuns p` reverses every maximal run of elements satisfying `p` and keeps
the other elements in place. It is an involution, and the two elements it
brings to the front can be read off the first run.
-/

namespace RunReversal
variable {α : Type*} (p : α → Bool)

/-- One pass with the current run held back, latest element first. -/
def reverseRunsFrom : List α → List α → List α
  | run, [] => run
  | run, c :: s => if p c then reverseRunsFrom (c :: run) s else run ++ c :: reverseRunsFrom [] s

def reverseRuns (s : List α) : List α := reverseRunsFrom p [] s

variable {p}

theorem reverseRunsFrom_append {r : List α} (hr : ∀ c ∈ r, p c) (run s : List α) :
    reverseRunsFrom p run (r ++ s) = reverseRunsFrom p (r.reverse ++ run) s := by
  induction r generalizing run with
  | nil => rfl
  | cons c r ih =>
      have hc : p c := hr c (by simp)
      have htail : ∀ x ∈ r, p x := fun x hx => hr x (by simp [hx])
      simp only [List.cons_append, reverseRunsFrom, if_pos hc, ih htail, List.reverse_cons,
        List.append_assoc, List.nil_append]

theorem reverseRuns_of_all {r : List α} (hr : ∀ c ∈ r, p c) :
    reverseRuns p r = r.reverse := by
  have h := reverseRunsFrom_append hr [] []
  simpa only [reverseRuns, List.append_nil, reverseRunsFrom] using h

theorem reverseRuns_append_cons {r : List α} {c : α} (hr : ∀ x ∈ r, p x) (hc : p c = false)
    (s : List α) : reverseRuns p (r ++ c :: s) = r.reverse ++ c :: reverseRuns p s := by
  rw [reverseRuns, reverseRunsFrom_append hr]
  simp [reverseRunsFrom, hc, reverseRuns]

theorem reverseRuns_cons {c : α} (hc : p c = false) (s : List α) :
    reverseRuns p (c :: s) = c :: reverseRuns p s :=
  reverseRuns_append_cons (r := []) (by simp) hc s

/-- Every list is one run, or a run, a separator and a shorter list. -/
theorem runInduction {motive : List α → Prop}
    (all : ∀ r, (∀ c ∈ r, p c) → motive r)
    (sep : ∀ r c s, (∀ x ∈ r, p x) → p c = false → motive s → motive (r ++ c :: s)) :
    ∀ s, motive s := by
  suffices h : ∀ n s, s.length ≤ n → motive s from fun s => h s.length s le_rfl
  intro n
  induction n with
  | zero =>
      intro s hs
      exact all s (by simp [List.length_eq_zero_iff.mp (Nat.le_zero.mp hs)])
  | succ n ih =>
      intro s hs
      have hrun : ∀ x ∈ s.takeWhile p, p x := fun x hx => List.mem_takeWhile_imp hx
      cases hd : s.dropWhile p with
      | nil =>
          have heq : s.takeWhile p = s := by
            simpa [hd] using List.takeWhile_append_dropWhile (p := p) (l := s)
          exact all s (heq ▸ hrun)
      | cons c t =>
          have heq : s.takeWhile p ++ c :: t = s := by
            rw [← hd, List.takeWhile_append_dropWhile]
          have hc : p c = false := by
            have h := List.head?_dropWhile_not p s
            simpa [hd] using h
          have hlen : t.length ≤ n := by
            have := congrArg List.length heq
            simp only [List.length_append, List.length_cons] at this
            omega
          exact heq ▸ sep _ c t hrun hc (ih t hlen)

theorem reverseRuns_reverseRuns (s : List α) : reverseRuns p (reverseRuns p s) = s := by
  induction s using runInduction (p := p) with
  | all r hr =>
      rw [reverseRuns_of_all hr, reverseRuns_of_all (by simpa using hr), List.reverse_reverse]
  | sep r c s hr hc ih =>
      rw [reverseRuns_append_cons hr hc, reverseRuns_append_cons (by simpa using hr) hc, ih,
        List.reverse_reverse]

theorem reverseRuns_injective : Function.Injective (reverseRuns p) :=
  Function.LeftInverse.injective reverseRuns_reverseRuns

theorem reverseRuns_perm (s : List α) : (reverseRuns p s).Perm s := by
  induction s using runInduction (p := p) with
  | all r hr => rw [reverseRuns_of_all hr]; exact r.reverse_perm
  | sep r c s hr hc ih =>
      rw [reverseRuns_append_cons hr hc]
      exact r.reverse_perm.append (ih.cons c)

@[simp] theorem length_reverseRuns (s : List α) : (reverseRuns p s).length = s.length :=
  (reverseRuns_perm s).length_eq

/-- The two positions and all those between them hold elements of a run. -/
def SameRun (p : α → Bool) (s : List α) (i j : ℕ) : Prop :=
  ∀ m, min i j ≤ m → m ≤ max i j → ∃ c, s[m]? = some c ∧ p c

theorem SameRun.append {s : List α} {i j : ℕ} (h : SameRun p s i j) (r : List α) :
    SameRun p (r ++ s) (r.length + i) (r.length + j) := by
  intro m hlo hhi
  obtain ⟨c, hget, hc⟩ := h (m - r.length) (by omega) (by omega)
  exact ⟨c, by rw [List.getElem?_append_right (by omega), hget], hc⟩

theorem sameRun_of_all {r : List α} (hr : ∀ c ∈ r, p c) (s : List α) {i j : ℕ}
    (hi : i < r.length) (hj : j < r.length) : SameRun p (r ++ s) i j := by
  intro m _ hhi
  have hm : m < r.length := by omega
  exact ⟨r[m], by rw [List.getElem?_append_left hm, List.getElem?_eq_getElem hm],
    hr _ (List.getElem_mem hm)⟩

/-- The mirror image of the first `n` positions, the separator behind them, and `σ` from there. -/
def mirror (n : ℕ) (σ : ℕ → ℕ) (i : ℕ) : ℕ :=
  if i < n then n - 1 - i else if i = n then n else n + (1 + σ (i - n - 1))

theorem mirror_of_lt {n i : ℕ} (σ : ℕ → ℕ) (hi : i < n) : mirror n σ i = n - 1 - i := if_pos hi

theorem mirror_self (n : ℕ) (σ : ℕ → ℕ) : mirror n σ n = n := by
  rw [mirror, if_neg (lt_irrefl n), if_pos rfl]

theorem mirror_add (n k : ℕ) (σ : ℕ → ℕ) : mirror n σ (n + (1 + k)) = n + (1 + σ k) := by
  rw [mirror, if_neg (by omega), if_neg (by omega), show n + (1 + k) - n - 1 = k by omega]

/-- Elements change places in pairs, and only inside a run. -/
theorem exists_mirror (s : List α) : ∃ σ : ℕ → ℕ, ∀ i < s.length,
    σ i < s.length ∧ σ (σ i) = i ∧ (reverseRuns p s)[i]? = s[σ i]? ∧
      (σ i ≠ i → SameRun p s i (σ i)) := by
  induction s using runInduction (p := p) with
  | all r hr =>
      refine ⟨mirror r.length id, fun i hi => ?_⟩
      rw [mirror_of_lt _ hi, mirror_of_lt _ (by omega)]
      refine ⟨by omega, by omega, ?_, fun _ => ?_⟩
      · rw [reverseRuns_of_all hr, List.getElem?_reverse hi]
      · have hrun := sameRun_of_all hr [] hi (j := r.length - 1 - i) (by omega)
        rwa [List.append_nil] at hrun
  | sep r c s hr hc ih =>
      obtain ⟨σ, hσ⟩ := ih
      refine ⟨mirror r.length σ, fun i hi => ?_⟩
      rw [List.length_append, List.length_cons] at hi ⊢
      rw [reverseRuns_append_cons hr hc]
      rcases lt_trichotomy i r.length with hlt | rfl | hgt
      · rw [mirror_of_lt _ hlt, mirror_of_lt _ (by omega)]
        refine ⟨by omega, by omega, ?_, fun _ => sameRun_of_all hr _ hlt (by omega)⟩
        rw [List.getElem?_append_left (by simpa using hlt), List.getElem?_reverse hlt,
          List.getElem?_append_left (by omega)]
      · rw [mirror_self, mirror_self]
        refine ⟨by omega, rfl, ?_, fun h => absurd rfl h⟩
        rw [List.getElem?_append_right (by simp), List.getElem?_append_right le_rfl]
        simp
      · obtain ⟨k, rfl⟩ : ∃ k, i = r.length + (1 + k) := ⟨i - r.length - 1, by omega⟩
        obtain ⟨hlen, hinv, hget, hrun⟩ := hσ k (by omega)
        rw [mirror_add, mirror_add, hinv]
        refine ⟨by omega, rfl, ?_, fun hne => ?_⟩
        · rw [List.getElem?_append_right (by simp), List.getElem?_append_right (by omega),
            List.length_reverse, Nat.add_sub_cancel_left, Nat.add_sub_cancel_left, Nat.add_comm 1,
            Nat.add_comm 1, List.getElem?_cons_succ, List.getElem?_cons_succ, hget]
        · exact ((hrun (by omega)).append [c]).append r

theorem reverseRuns_concat {c : α} (hc : p c = false) (s : List α) :
    reverseRuns p (s ++ [c]) = reverseRuns p s ++ [c] := by
  induction s using runInduction (p := p) with
  | all r hr => rw [reverseRuns_append_cons hr hc, reverseRuns_of_all hr]; rfl
  | sep r d s hr hd ih =>
      rw [List.append_assoc, List.cons_append, reverseRuns_append_cons hr hd,
        reverseRuns_append_cons hr hd, ih, List.append_assoc, List.cons_append]

/-- A separator ends the reversed list exactly when it ends the list itself. -/
theorem getLast?_reverseRuns_eq_some_iff {c : α} (hc : p c = false) (s : List α) :
    (reverseRuns p s).getLast? = some c ↔ s.getLast? = some c := by
  have forward : ∀ t : List α, t.getLast? = some c → (reverseRuns p t).getLast? = some c := by
    intro t ht
    obtain ⟨u, rfl⟩ := List.getLast?_eq_some_iff.mp ht
    rw [reverseRuns_concat hc, List.getLast?_concat]
  refine ⟨fun h => ?_, forward s⟩
  simpa only [reverseRuns_reverseRuns] using forward _ h

theorem head?_reverseRuns_eq_some_iff {c : α} (hc : p c = false) (s : List α) :
    (reverseRuns p s).head? = some c ↔ s.head? = some c := by
  have forward : ∀ t : List α, t.head? = some c → (reverseRuns p t).head? = some c := by
    intro t ht
    obtain ⟨u, rfl⟩ := List.head?_eq_some_iff.mp ht
    rw [reverseRuns_cons hc, List.head?_cons]
  refine ⟨fun h => ?_, forward s⟩
  simpa only [reverseRuns_reverseRuns] using forward _ h

theorem take_reverseRuns {k : ℕ} (s : List α) (hk : k ≤ (s.takeWhile p).length) :
    (reverseRuns p s).take k = (s.takeWhile p).reverse.take k := by
  have hrun : ∀ x ∈ s.takeWhile p, p x := fun x hx => List.mem_takeWhile_imp hx
  have hsplit := List.takeWhile_append_dropWhile (p := p) (l := s)
  cases hd : s.dropWhile p with
  | nil =>
      rw [hd, List.append_nil] at hsplit
      rw [hsplit, reverseRuns_of_all (hsplit ▸ hrun)]
  | cons c t =>
      have hc : p c = false := by simpa [hd] using List.head?_dropWhile_not p s
      have hrev := reverseRuns_append_cons hrun hc t
      rw [← hd, hsplit] at hrev
      rw [hrev, List.take_append_of_le_length (by simpa using hk)]

/-- The two elements brought to the front, read off the runs the list starts with. -/
def front (p : α → Bool) (a b : α) (s : List α) : List α :=
  if p a then
    if p b then ((a :: b :: s).takeWhile p).reverse.take 2 else [a, b]
  else
    a :: if p b then ((b :: s).takeWhile p).reverse.take 1 else [b]

theorem take_two_reverseRuns (a b : α) (s : List α) :
    (reverseRuns p (a :: b :: s)).take 2 = front p a b s := by
  unfold front
  split_ifs with ha hb hb
  · exact take_reverseRuns _ (by simp [ha, hb])
  · have h := reverseRuns_append_cons (r := [a]) (by simpa using ha) (by simpa using hb) s
    rw [List.singleton_append] at h
    simp [h]
  · rw [reverseRuns_cons (by simpa using ha), List.take_succ_cons,
      take_reverseRuns _ (by simp [hb])]
  · rw [reverseRuns_cons (by simpa using ha), reverseRuns_cons (by simpa using hb)]
    rfl

end RunReversal
