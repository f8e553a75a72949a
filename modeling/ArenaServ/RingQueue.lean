import Mathlib.Data.List.GetD
import Mathlib.Data.Int.ModEq

/-!
# Ring buffers and bounded queues

A ring buffer of power-of-two size keeps a read position, a write position and a
count; both positions are advanced before they are used and wrapped by a mask.
`Represents` says which queue a ring stands for. A bounded queue refuses what
does not fit, and what it was given is always what it gave back followed by what
it still holds.
-/

structure RingBuffer (α : Type*) where
  buffer : List α
  gpos : ℕ
  ppos : ℕ
  used : ℕ
  deriving DecidableEq, Repr

namespace RingBuffer
variable {α : Type*}

def size (r : RingBuffer α) : ℕ := r.buffer.length

def mask (r : RingBuffer α) : ℕ := r.size - 1

def free (r : RingBuffer α) : ℕ := r.size - r.used

/-- An unused ring whose cells all hold `a`. -/
def blank (size : ℕ) (a : α) : RingBuffer α := ⟨List.replicate size a, 0, 0, 0⟩

/-- Write one element; the count is the caller's business. -/
def write (r : RingBuffer α) (a : α) : RingBuffer α :=
  let ppos := (r.ppos + 1) &&& r.mask
  { r with ppos := ppos, buffer := r.buffer.set ppos a }

def push (r : RingBuffer α) (xs : List α) : RingBuffer α :=
  { xs.foldl write r with used := r.used + xs.length }

/-- Read `n` elements behind position `g`, with the position reached. -/
def readFrom [Inhabited α] (r : RingBuffer α) : ℕ → ℕ → List α × ℕ
  | 0, g => ([], g)
  | n + 1, g =>
      let g := (g + 1) &&& r.mask
      let (xs, last) := r.readFrom n g
      (r.buffer.getD g default :: xs, last)

/-- The positions and cells of `r` hold `q`, oldest element first. -/
structure Holds [Inhabited α] (r : RingBuffer α) (k : ℕ) (q : List α) : Prop where
  size_eq : r.size = 2 ^ k
  gpos_lt : r.gpos < 2 ^ k
  ppos_eq : r.ppos = (r.gpos + q.length) % 2 ^ k
  fits : q.length ≤ 2 ^ k
  cells : ∀ i (hi : i < q.length), r.buffer.getD ((r.gpos + 1 + i) % 2 ^ k) default = q[i]

structure Represents [Inhabited α] (r : RingBuffer α) (k : ℕ) (q : List α) : Prop extends
    Holds r k q where
  used_eq : r.used = q.length

variable [Inhabited α] {r : RingBuffer α} {k : ℕ} {q : List α}

theorem Holds.mask_eq (h : r.Holds k q) (n : ℕ) : n &&& r.mask = n % 2 ^ k := by
  rw [mask, h.size_eq, Nat.and_two_pow_sub_one_eq_mod]

theorem Represents.free_eq (h : r.Represents k q) : r.free = 2 ^ k - q.length := by
  rw [free, h.size_eq, h.used_eq]

theorem represents_blank (k : ℕ) (a : α) : (blank (2 ^ k) a).Represents k [] where
  size_eq := by simp [size, blank]
  gpos_lt := Nat.two_pow_pos k
  ppos_eq := by simp [blank]
  fits := Nat.zero_le _
  cells := by simp
  used_eq := rfl

theorem Holds.write (h : r.Holds k q) (hroom : q.length < 2 ^ k) (a : α) :
    (r.write a).Holds k (q ++ [a]) := by
  have hpos : (r.ppos + 1) &&& r.mask = (r.gpos + 1 + q.length) % 2 ^ k := by
    rw [h.mask_eq, h.ppos_eq, Nat.mod_add_mod]
    congr 1
    omega
  have hlt : (r.gpos + 1 + q.length) % 2 ^ k < r.buffer.length := by
    rw [show r.buffer.length = 2 ^ k from h.size_eq]
    exact Nat.mod_lt _ (Nat.two_pow_pos k)
  refine ⟨?_, h.gpos_lt, ?_, ?_, ?_⟩
  · simpa [size, RingBuffer.write] using h.size_eq
  · simp only [RingBuffer.write, hpos, List.length_append, List.length_singleton]
    congr 1
    omega
  · rw [List.length_append]
    exact hroom
  · intro i hi
    simp only [RingBuffer.write, hpos, List.getD_eq_getElem?_getD, List.getElem?_set]
    by_cases hold : i < q.length
    · -- the cell just written is none of those in use
      have hne : (r.gpos + 1 + q.length) % 2 ^ k ≠ (r.gpos + 1 + i) % 2 ^ k := by
        intro heq
        have hdiv := (Nat.modEq_iff_dvd' (show r.gpos + 1 + i ≤ r.gpos + 1 + q.length by omega)).mp
          (Nat.ModEq.symm heq)
        have := Nat.le_of_dvd (by omega) hdiv
        omega
      rw [if_neg hne, ← List.getD_eq_getElem?_getD, h.cells i hold, List.getElem_append_left hold]
    · have heq : i = q.length := by
        simp at hi
        omega
      subst heq
      simp [hlt]

theorem Holds.foldl_write (h : r.Holds k q) (xs : List α) (hroom : q.length + xs.length ≤ 2 ^ k) :
    (xs.foldl RingBuffer.write r).Holds k (q ++ xs) := by
  induction xs generalizing r q with
  | nil => simpa using h
  | cons a xs ih =>
      have hlen : q.length + (xs.length + 1) ≤ 2 ^ k := hroom
      have hstep := ih (h.write (by omega) a) (by simp; omega)
      simpa using hstep

theorem Represents.push (h : r.Represents k q) (xs : List α)
    (hroom : q.length + xs.length ≤ 2 ^ k) : (r.push xs).Represents k (q ++ xs) where
  size_eq := (h.toHolds.foldl_write xs hroom).size_eq
  gpos_lt := (h.toHolds.foldl_write xs hroom).gpos_lt
  ppos_eq := (h.toHolds.foldl_write xs hroom).ppos_eq
  fits := (h.toHolds.foldl_write xs hroom).fits
  cells := (h.toHolds.foldl_write xs hroom).cells
  used_eq := by simp [RingBuffer.push, h.used_eq]

/-- Dropping `n` elements only moves the read position. -/
theorem Holds.advance (h : r.Holds k q) {n : ℕ} (hn : n ≤ q.length) :
    Holds { r with gpos := (r.gpos + n) % 2 ^ k } k (q.drop n) where
  size_eq := h.size_eq
  gpos_lt := Nat.mod_lt _ (Nat.two_pow_pos k)
  ppos_eq := by
    rw [List.length_drop, Nat.mod_add_mod, show r.gpos + n + (q.length - n) = r.gpos + q.length by
      omega]
    exact h.ppos_eq
  fits := by
    rw [List.length_drop]
    exact Nat.le_trans (Nat.sub_le _ _) h.fits
  cells := by
    intro i hi
    have hlt : n + i < q.length := by
      rw [List.length_drop] at hi
      omega
    have hpos : ((r.gpos + n) % 2 ^ k + 1 + i) % 2 ^ k = (r.gpos + 1 + (n + i)) % 2 ^ k := by
      rw [Nat.add_assoc, Nat.mod_add_mod]
      congr 1
      omega
    rw [List.getElem_drop]
    simp only [hpos]
    exact h.cells (n + i) hlt

theorem Represents.advance (h : r.Represents k q) {n : ℕ} (hn : n ≤ q.length) :
    Represents { r with gpos := (r.gpos + n) % 2 ^ k, used := r.used - n } k (q.drop n) where
  size_eq := (h.toHolds.advance hn).size_eq
  gpos_lt := (h.toHolds.advance hn).gpos_lt
  ppos_eq := (h.toHolds.advance hn).ppos_eq
  fits := (h.toHolds.advance hn).fits
  cells := (h.toHolds.advance hn).cells
  used_eq := by rw [List.length_drop, ← h.used_eq]

theorem Holds.readFrom (h : r.Holds k q) {n : ℕ} (hn : n ≤ q.length) :
    r.readFrom n r.gpos = (q.take n, (r.gpos + n) % 2 ^ k) := by
  induction n generalizing r q with
  | zero => simp [RingBuffer.readFrom, Nat.mod_eq_of_lt h.gpos_lt]
  | succ n ih =>
      have hpos : 0 < q.length := by omega
      have hnext := h.advance (n := 1) hpos
      have htail := ih hnext (by simp; omega)
      have hsame : ∀ m g, RingBuffer.readFrom { r with gpos := (r.gpos + 1) % 2 ^ k } m g =
          r.readFrom m g := by
        intro m
        induction m with
        | zero => intro g; rfl
        | succ m ihm => intro g; simp only [RingBuffer.readFrom, mask, size, ihm]
      rw [hsame] at htail
      have hcell := h.cells 0 hpos
      simp only [RingBuffer.readFrom, h.mask_eq, htail]
      refine Prod.ext ?_ ?_
      · cases q with
        | nil => simp at hpos
        | cons a q => simpa using hcell
      · simp only [Nat.mod_add_mod]
        congr 1
        omega

omit [Inhabited α] in
/-- Writing that does not wrap. -/
theorem foldl_write_of_lt (hsize : r.size = 2 ^ k) (xs : List α)
    (hlt : r.ppos + xs.length < 2 ^ k) :
    xs.foldl write r =
      ⟨r.buffer.take (r.ppos + 1) ++ xs ++ r.buffer.drop (r.ppos + 1 + xs.length), r.gpos,
        r.ppos + xs.length, r.used⟩ := by
  induction xs generalizing r with
  | nil => simp
  | cons a xs ih =>
      rw [List.length_cons] at hlt
      have hmask : (r.ppos + 1) &&& r.mask = r.ppos + 1 := by
        rw [mask, hsize, Nat.and_two_pow_sub_one_eq_mod, Nat.mod_eq_of_lt (by omega)]
      have hwrite : r.write a =
          { r with ppos := r.ppos + 1, buffer := r.buffer.set (r.ppos + 1) a } := by
        rw [write, hmask]
      have hsize' : (r.write a).size = 2 ^ k := by
        rw [hwrite]
        simpa [size] using hsize
      have hlen : r.ppos + 1 < r.buffer.length := by
        rw [show r.buffer.length = 2 ^ k from hsize]
        omega
      rw [List.foldl_cons, ih hsize' (by rw [hwrite]; simp only; omega), hwrite]
      simp only [List.length_cons, RingBuffer.mk.injEq, true_and]
      refine ⟨?_, by omega, trivial⟩
      have hset : r.buffer.set (r.ppos + 1) a =
          r.buffer.take (r.ppos + 1) ++ a :: r.buffer.drop (r.ppos + 1 + 1) := by
        rw [List.set_eq_take_append_cons_drop, if_pos hlen]
      have htake : (r.buffer.take (r.ppos + 1)).length = r.ppos + 1 :=
        List.length_take_of_le hlen.le
      rw [hset, show r.ppos + 1 + 1 + xs.length = (r.buffer.take (r.ppos + 1)).length +
          (1 + xs.length) by omega, List.drop_length_add_append]
      nth_rewrite 1 [← htake]
      rw [List.take_length_add_append]
      simp [Nat.add_comm, Nat.add_left_comm]

end RingBuffer

/-- A queue that never holds more than its capacity. -/
structure BoundedQueue (α : Type*) where
  capacity : ℕ
  items : List α
  fits : items.length ≤ capacity

namespace BoundedQueue
variable {α : Type*}

inductive Op (α : Type*) where
  | enqueue (xs : List α)
  | dequeue (n : ℕ)

def empty (capacity : ℕ) : BoundedQueue α := ⟨capacity, [], Nat.zero_le _⟩

/-- All of `xs`, or none of it when it does not fit. -/
def enqueue (q : BoundedQueue α) (xs : List α) : BoundedQueue α :=
  if h : q.items.length + xs.length ≤ q.capacity then
    ⟨q.capacity, q.items ++ xs, by simpa using h⟩
  else q

def dequeue (q : BoundedQueue α) (n : ℕ) : BoundedQueue α :=
  ⟨q.capacity, q.items.drop n, by
    rw [List.length_drop]
    exact Nat.le_trans (Nat.sub_le _ _) q.fits⟩

def step (q : BoundedQueue α) : Op α → BoundedQueue α
  | .enqueue xs => q.enqueue xs
  | .dequeue n => q.dequeue n

/-- What one operation puts in. -/
def taken (q : BoundedQueue α) : Op α → List α
  | .enqueue xs => if q.items.length + xs.length ≤ q.capacity then xs else []
  | .dequeue _ => []

/-- What one operation gives back. -/
def given (q : BoundedQueue α) : Op α → List α
  | .enqueue _ => []
  | .dequeue n => q.items.take n

theorem step_conserves (q : BoundedQueue α) (op : Op α) :
    q.items ++ q.taken op = q.given op ++ (q.step op).items := by
  cases op with
  | enqueue xs =>
      simp only [taken, given, step, enqueue]
      split_ifs <;> simp
  | dequeue n => simp [taken, given, step, dequeue]

@[simp] theorem step_capacity (q : BoundedQueue α) (op : Op α) :
    (q.step op).capacity = q.capacity := by
  cases op with
  | enqueue xs => simp only [step, enqueue]; split_ifs <;> rfl
  | dequeue n => rfl

def run (q : BoundedQueue α) (ops : List (Op α)) : BoundedQueue α := ops.foldl step q

def allTaken (q : BoundedQueue α) : List (Op α) → List α
  | [] => []
  | op :: ops => q.taken op ++ (q.step op).allTaken ops

def allGiven (q : BoundedQueue α) : List (Op α) → List α
  | [] => []
  | op :: ops => q.given op ++ (q.step op).allGiven ops

theorem run_append (q : BoundedQueue α) (ops ops' : List (Op α)) :
    q.run (ops ++ ops') = (q.run ops).run ops' := by
  rw [run, List.foldl_append]
  rfl

theorem allTaken_append (q : BoundedQueue α) (ops ops' : List (Op α)) :
    q.allTaken (ops ++ ops') = q.allTaken ops ++ (q.run ops).allTaken ops' := by
  induction ops generalizing q with
  | nil => rfl
  | cons op ops ih =>
      rw [List.cons_append, allTaken, allTaken, ih, List.append_assoc]
      rfl

theorem allGiven_append (q : BoundedQueue α) (ops ops' : List (Op α)) :
    q.allGiven (ops ++ ops') = q.allGiven ops ++ (q.run ops).allGiven ops' := by
  induction ops generalizing q with
  | nil => rfl
  | cons op ops ih =>
      rw [List.cons_append, allGiven, allGiven, ih, List.append_assoc]
      rfl

theorem run_capacity (q : BoundedQueue α) (ops : List (Op α)) :
    (q.run ops).capacity = q.capacity := by
  induction ops generalizing q with
  | nil => rfl
  | cons op ops ih => exact (ih (q.step op)).trans (q.step_capacity op)

/-- Over any run nothing is lost, duplicated or reordered. -/
theorem run_conserves (q : BoundedQueue α) (ops : List (Op α)) :
    q.items ++ q.allTaken ops = q.allGiven ops ++ (q.run ops).items := by
  induction ops generalizing q with
  | nil => simp [allTaken, allGiven, run]
  | cons op ops ih =>
      rw [allTaken, allGiven, ← List.append_assoc, step_conserves, List.append_assoc, ih,
        ← List.append_assoc]
      rfl

end BoundedQueue
