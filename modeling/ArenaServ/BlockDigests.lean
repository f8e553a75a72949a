import Mathlib.Data.List.Basic
import Mathlib.Data.List.Induction
import Mathlib.Algebra.Order.Ring.Nat

/-!
# Digests of blocks

A digest goes over a message in blocks of `n`, with a function that takes its state and one block
to the next state. Messages may arrive in pieces, and what does not fill a block is left over. Two
messages with one digest lead back to two different arguments of the function with one value.
-/

namespace BlockDigest

variable {σ α : Type*}

/-! ## Blocks -/

/-- The blocks that `xs` fills. -/
def fullBlocks (n : ℕ) (xs : List α) : List (List α) :=
  (List.range (xs.length / n)).map fun i => (xs.drop (i * n)).take n

def leftOver (n : ℕ) (xs : List α) : List α := xs.drop (xs.length / n * n)

def absorb (n : ℕ) (f : σ → List α → σ) (s : σ) (xs : List α) : σ := (fullBlocks n xs).foldl f s

variable {n : ℕ} {f : σ → List α → σ} {s : σ} {xs ys : List α}

theorem length_of_mem_fullBlocks {block : List α} (h : block ∈ fullBlocks n xs) :
    block.length = n := by
  obtain ⟨i, hi, rfl⟩ := List.mem_map.mp h
  have hlt := List.mem_range.mp hi
  have hle : (i + 1) * n ≤ xs.length :=
    (Nat.mul_le_mul_right n hlt).trans (Nat.div_mul_le_self _ _)
  rw [Nat.succ_mul] at hle
  rw [List.length_take, List.length_drop]
  omega

theorem fullBlocks_of_lt (h : xs.length < n) : fullBlocks n xs = [] := by
  rw [fullBlocks, Nat.div_eq_of_lt h]
  rfl

theorem leftOver_of_lt (h : xs.length < n) : leftOver n xs = xs := by
  rw [leftOver, Nat.div_eq_of_lt h, Nat.zero_mul, List.drop_zero]

theorem fullBlocks_of_length_eq (hn : 0 < n) (h : xs.length = n) : fullBlocks n xs = [xs] := by
  rw [fullBlocks, h, Nat.div_self hn, List.range_one, List.map_singleton, Nat.zero_mul,
    List.drop_zero, List.take_of_length_le h.le]

theorem leftOver_of_dvd (h : n ∣ xs.length) : leftOver n xs = [] := by
  rw [leftOver, Nat.div_mul_cancel h]
  exact List.drop_eq_nil_of_le le_rfl

theorem length_leftOver : (leftOver n xs).length = xs.length % n := by
  rw [leftOver, List.length_drop]
  have hdiv := Nat.div_add_mod' xs.length n
  omega

/-- Whole blocks in front stay the blocks that they are. -/
theorem fullBlocks_append (hn : 0 < n) (h : n ∣ xs.length) :
    fullBlocks n (xs ++ ys) = fullBlocks n xs ++ fullBlocks n ys := by
  obtain ⟨k, hk⟩ := h
  have hlen : (xs ++ ys).length / n = k + ys.length / n := by
    rw [List.length_append, hk, Nat.add_comm, Nat.add_mul_div_left _ _ hn, Nat.add_comm]
  have hxs : xs.length / n = k := by rw [hk, Nat.mul_div_cancel_left _ hn]
  rw [fullBlocks, fullBlocks, fullBlocks, hlen, hxs, List.range_add, List.map_append, List.map_map]
  congr 1
  · apply List.map_congr_left
    intro i hi
    have hle : (i + 1) * n ≤ k * n := Nat.mul_le_mul_right n (List.mem_range.mp hi)
    rw [Nat.succ_mul, Nat.mul_comm k] at hle
    rw [List.drop_append_of_le_length (by omega), List.take_append_of_le_length]
    rw [List.length_drop]
    omega
  · apply List.map_congr_left
    intro i _
    have hdrop : (k + i) * n = xs.length + i * n := by rw [Nat.add_mul, hk, Nat.mul_comm n]
    rw [Function.comp_apply, hdrop, List.drop_append, List.drop_eq_nil_of_le (Nat.le_add_right _ _),
      List.nil_append, Nat.add_sub_cancel_left]

theorem leftOver_append (hn : 0 < n) (h : n ∣ xs.length) :
    leftOver n (xs ++ ys) = leftOver n ys := by
  obtain ⟨k, hk⟩ := h
  rw [leftOver, leftOver, List.length_append, hk, Nat.mul_add_div hn, Nat.add_mul,
    Nat.mul_comm k, ← hk, List.drop_append, List.drop_eq_nil_of_le (Nat.le_add_right _ _),
    List.nil_append, Nat.add_sub_cancel_left]

theorem flatten_fullBlocks (hn : 0 < n) (h : n ∣ xs.length) : (fullBlocks n xs).flatten = xs := by
  obtain ⟨k, hk⟩ := h
  induction k generalizing xs with
  | zero =>
      rw [Nat.mul_zero] at hk
      rw [List.length_eq_zero_iff.mp hk, fullBlocks_of_lt hn]
      rfl
  | succ k ih =>
      rw [Nat.mul_succ] at hk
      have hfirst : (xs.take n).length = n := by
        rw [List.length_take]
        omega
      have hrest : (xs.drop n).length = n * k := by
        rw [List.length_drop]
        omega
      have hblocks : fullBlocks n xs = xs.take n :: fullBlocks n (xs.drop n) := by
        conv_lhs => rw [← List.take_append_drop n xs]
        rw [fullBlocks_append hn (by rw [hfirst]), fullBlocks_of_length_eq hn hfirst]
        rfl
      rw [hblocks, List.flatten_cons, ih hrest, List.take_append_drop]

theorem length_fullBlocks (n : ℕ) (xs : List α) : (fullBlocks n xs).length = xs.length / n := by
  rw [fullBlocks, List.length_map, List.length_range]

theorem getLast_fullBlocks (hn : 0 < n) (h : n ∣ xs.length) (hne : fullBlocks n xs ≠ []) :
    (fullBlocks n xs).getLast hne = xs.drop (xs.length - n) := by
  have hle : n ≤ xs.length := by
    by_contra hlt
    exact hne (fullBlocks_of_lt (Nat.lt_of_not_le hlt))
  have hlast : (xs.drop (xs.length - n)).length = n := by
    rw [List.length_drop]
    omega
  have hfront : n ∣ (xs.take (xs.length - n)).length := by
    rw [List.length_take, Nat.min_eq_left (Nat.sub_le _ _)]
    exact Nat.dvd_sub h (Nat.dvd_refl n)
  have hblocks : fullBlocks n xs =
      fullBlocks n (xs.take (xs.length - n)) ++ [xs.drop (xs.length - n)] := by
    rw [← fullBlocks_of_length_eq hn hlast, ← fullBlocks_append hn hfront, List.take_append_drop]
  simp only [hblocks, List.getLast_append_singleton]

theorem absorb_append (hn : 0 < n) (h : n ∣ xs.length) :
    absorb n f s (xs ++ ys) = absorb n f (absorb n f s xs) ys := by
  rw [absorb, fullBlocks_append hn h, List.foldl_append]
  rfl

theorem absorb_block (hn : 0 < n) (h : xs.length = n) : absorb n f s xs = f s xs := by
  rw [absorb, fullBlocks_of_length_eq hn h]
  rfl

theorem absorb_of_lt (h : xs.length < n) : absorb n f s xs = s := by
  rw [absorb, fullBlocks_of_lt h]
  rfl

/-- Only what the function does to whole blocks matters. -/
theorem absorb_congr {g : σ → List α → σ}
    (h : ∀ s block, block.length = n → f s block = g s block) :
    absorb n f s xs = absorb n g s xs := by
  have hfold : ∀ blocks : List (List α), (∀ block ∈ blocks, block.length = n) → ∀ s : σ,
      blocks.foldl f s = blocks.foldl g s := by
    intro blocks hblocks
    induction blocks with
    | nil => exact fun _ => rfl
    | cons block blocks ih =>
        intro s
        rw [List.foldl_cons, List.foldl_cons, h s block (hblocks block List.mem_cons_self)]
        exact ih (fun b hb => hblocks b (List.mem_cons_of_mem _ hb)) _
  exact hfold _ (fun block => length_of_mem_fullBlocks) s

/-- What is left over comes behind whole blocks. -/
theorem append_leftOver (n : ℕ) (xs : List α) :
    ∃ whole, xs = whole ++ leftOver n xs ∧ n ∣ whole.length := by
  refine ⟨xs.take (xs.length / n * n), (List.take_append_drop _ _).symm, ?_⟩
  rw [List.length_take, Nat.min_eq_left (Nat.div_mul_le_self _ _)]
  exact Nat.dvd_mul_left _ _

/-! ## Messages in pieces -/

/-- A state and what waits for a block are those of a message. -/
structure Holds (n : ℕ) (f : σ → List α → σ) (s₀ : σ) (message : List α) (s : σ)
    (waiting : List α) : Prop where
  state : s = absorb n f s₀ message
  waiting : waiting = leftOver n message

variable {s₀ : σ} {message piece waiting : List α}

theorem holds_nil : Holds n f s₀ [] s₀ [] :=
  ⟨by rw [absorb, fullBlocks, List.length_nil, Nat.zero_div]; rfl, by rw [leftOver, List.drop_nil]⟩

theorem Holds.length_waiting (h : Holds n f s₀ message s waiting) :
    waiting.length = message.length % n := by
  rw [h.waiting, length_leftOver]

/-- A piece that does not fill the block waits behind the others. -/
theorem Holds.wait (h : Holds n f s₀ message s waiting) (hn : 0 < n) (piece : List α)
    (hlt : waiting.length + piece.length < n) :
    Holds n f s₀ (message ++ piece) s (waiting ++ piece) := by
  obtain ⟨whole, hwhole, hdvd⟩ := append_leftOver n message
  rw [← h.waiting] at hwhole
  have hshort : (waiting ++ piece).length < n := by rwa [List.length_append]
  have hmessage : message ++ piece = whole ++ (waiting ++ piece) := by
    rw [hwhole, List.append_assoc]
  constructor
  · rw [h.state, hmessage, absorb_append hn hdvd, absorb_of_lt hshort, hwhole, absorb_append hn hdvd,
      absorb_of_lt (by omega)]
  · rw [hmessage, leftOver_append hn hdvd, leftOver_of_lt hshort]

/-- A piece that fills the block is absorbed with what has waited. -/
theorem Holds.fill (h : Holds n f s₀ message s waiting) (hn : 0 < n) (piece : List α)
    (hlen : waiting.length + piece.length = n) :
    Holds n f s₀ (message ++ piece) (f s (waiting ++ piece)) [] := by
  obtain ⟨whole, hwhole, hdvd⟩ := append_leftOver n message
  rw [← h.waiting] at hwhole
  have hblock : (waiting ++ piece).length = n := by rwa [List.length_append]
  have hlt : waiting.length < n := by
    rw [h.length_waiting]
    exact Nat.mod_lt _ hn
  have hmessage : message ++ piece = whole ++ (waiting ++ piece) := by
    rw [hwhole, List.append_assoc]
  constructor
  · rw [h.state, hmessage, absorb_append hn hdvd, absorb_block hn hblock, hwhole,
      absorb_append hn hdvd, absorb_of_lt hlt]
  · rw [hmessage, leftOver_append hn hdvd, leftOver_of_dvd (by rw [hblock])]

/-! ## Collisions -/

variable {β : Type*} {g : σ → β → σ} {as bs : List β}

/-- Among the steps of the digest of `as` and of that of `bs` are two with different arguments and
one value. -/
def Collide (g : σ → β → σ) (s : σ) (as bs : List β) : Prop :=
  ∃ as₁ a as₂ bs₁ b bs₂, as = as₁ ++ a :: as₂ ∧ bs = bs₁ ++ b :: bs₂ ∧
    (as₁.foldl g s, a) ≠ (bs₁.foldl g s, b) ∧ g (as₁.foldl g s) a = g (bs₁.foldl g s) b

theorem Collide.append (h : Collide g s as bs) (as' bs' : List β) :
    Collide g s (as ++ as') (bs ++ bs') := by
  obtain ⟨as₁, a, as₂, bs₁, b, bs₂, rfl, rfl, hne, heq⟩ := h
  exact ⟨as₁, a, as₂ ++ as', bs₁, b, bs₂ ++ bs', by rw [List.append_assoc, List.cons_append],
    by rw [List.append_assoc, List.cons_append], hne, heq⟩

/-- Last blocks that are not the same, with one digest, are a collision. -/
theorem collide_of_last_ne {a b : β} (hne : a ≠ b)
    (heq : (as ++ [a]).foldl g s = (bs ++ [b]).foldl g s) : Collide g s (as ++ [a]) (bs ++ [b]) := by
  rw [List.foldl_append, List.foldl_append] at heq
  exact ⟨as, a, [], bs, b, [], rfl, rfl, fun h => hne (Prod.mk.inj h).2, heq⟩

/-- As many blocks, which are not the same, with one digest lead to a collision. -/
theorem collide_of_length_eq (hlen : as.length = bs.length) (hne : as ≠ bs)
    (heq : as.foldl g s = bs.foldl g s) : Collide g s as bs := by
  induction as using List.reverseRecOn generalizing bs with
  | nil => exact absurd (List.length_eq_zero_iff.mp hlen.symm).symm hne
  | append_singleton as a ih =>
      obtain rfl | ⟨bs, b, rfl⟩ := bs.eq_nil_or_concat'
      · rw [List.length_append] at hlen
        cases hlen
      rw [List.foldl_append, List.foldl_append] at heq
      by_cases hstep : (as.foldl g s, a) = (bs.foldl g s, b)
      · obtain ⟨hfold, rfl⟩ := Prod.mk.inj hstep
        rw [List.length_append, List.length_append] at hlen
        exact (ih (Nat.add_right_cancel hlen) (fun has => hne (by rw [has])) hfold).append [a] [a]
      · exact ⟨as, a, [], bs, b, [], rfl, rfl, hstep, heq⟩

/-- Blocks of which the last one tells how many there are: two messages with one digest lead to a
collision. -/
theorem collide_of_ne (hne : as ≠ bs) (heq : as.foldl g s = bs.foldl g s)
    (has : as ≠ []) (hbs : bs ≠ [])
    (hlast : as.getLast has = bs.getLast hbs → as.length = bs.length) : Collide g s as bs := by
  by_cases hsame : as.getLast has = bs.getLast hbs
  · exact collide_of_length_eq (hlast hsame) hne heq
  · rw [← List.dropLast_append_getLast has, ← List.dropLast_append_getLast hbs] at heq ⊢
    exact collide_of_last_ne hsame heq

end BlockDigest
