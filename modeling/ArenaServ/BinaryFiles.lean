import Mathlib.Data.List.Basic

/-!
# Files that are read in parts

A file is read from where the last part ended, or from where a seek has gone. A reader that runs
into the end of the file gives up. What a reader makes of a text that starts with what it is for,
and what can be said of anything that it gives, follow the reader's binds and loops.
-/

/-- A file, and how much of it is behind the reader. -/
structure BinaryFile (α : Type) where
  contents : List α
  pos : ℕ

namespace BinaryFile

variable {α β γ : Type}

def left (f : BinaryFile α) : List α := f.contents.drop f.pos

def advance (f : BinaryFile α) (n : ℕ) : BinaryFile α := { f with pos := f.pos + n }

theorem left_advance_eq_drop (f : BinaryFile α) (n : ℕ) : (f.advance n).left = f.left.drop n :=
  List.drop_drop.symm

theorem left_advance {f : BinaryFile α} {ts rest : List α} (h : f.left = ts ++ rest) :
    (f.advance ts.length).left = rest := by
  rw [left_advance_eq_drop, h, List.drop_left]

theorem advance_advance (f : BinaryFile α) (m n : ℕ) :
    (f.advance m).advance n = f.advance (m + n) :=
  congrArg (BinaryFile.mk f.contents) (Nat.add_assoc f.pos m n)

abbrev Reader (α β : Type) := StateT (BinaryFile α) Option β

/-- `fread`, where a short read is an error. -/
def read (n : ℕ) : Reader α (List α) := fun f =>
  if n ≤ f.left.length then some (f.left.take n, f.advance n) else none

/-- `fread`, where a short read is the end. -/
def readSome (n : ℕ) : Reader α (Option (List α)) := fun f =>
  if n ≤ f.left.length then some (some (f.left.take n), f.advance n) else some (none, f)

/-- `fseek` from the start. -/
def seekSet (n : ℕ) : Reader α Unit := fun f => some ((), { f with pos := n })

/-- `fseek` from where the file is. -/
def seekCur (n : ℕ) : Reader α Unit := fun f => some ((), f.advance n)

/-- A body that is run so many times. -/
def loop (body : β → Reader α β) : ℕ → β → Reader α β
  | 0, b => pure b
  | n + 1, b => body b >>= loop body n

theorem run_bind (m : Reader α β) (k : β → Reader α γ) (f : BinaryFile α) :
    (m >>= k) f = (m f).bind fun r => k r.1 r.2 :=
  rfl

theorem read_eq_some {n : ℕ} {f f' : BinaryFile α} {ts : List α} :
    read n f = some (ts, f') ↔
      ts.length = n ∧ f' = f.advance n ∧ ∃ rest, f.left = ts ++ rest := by
  unfold read
  constructor
  · intro h
    split_ifs at h with hle
    cases h
    exact ⟨List.length_take_of_le hle, rfl, f.left.drop n, (List.take_append_drop n f.left).symm⟩
  · rintro ⟨rfl, rfl, rest, h⟩
    rw [h, if_pos (by rw [List.length_append]; exact Nat.le_add_right _ _), List.take_left]

theorem readSome_of_append {f : BinaryFile α} {ts rest : List α} (h : f.left = ts ++ rest) :
    readSome ts.length f = some (some ts, f.advance ts.length) := by
  unfold readSome
  rw [h, if_pos (by rw [List.length_append]; exact Nat.le_add_right _ _), List.take_left]

theorem readSome_of_lt {f : BinaryFile α} {n : ℕ} (h : f.left.length < n) :
    readSome n f = some (none, f) :=
  if_neg (Nat.not_le.mpr h)

/-! ## What is read -/

/-- Where `ts` comes next, the reader reads it and gives `b`. -/
def Reads (m : Reader α β) (ts : List α) (b : β) : Prop :=
  ∀ f rest, f.left = ts ++ rest → m f = some (b, f.advance ts.length)

theorem reads_pure (b : β) : Reads (pure b : Reader α β) [] b := fun _ _ _ => rfl

theorem reads_read {ts : List α} {n : ℕ} (h : ts.length = n) : Reads (read n) ts ts :=
  fun _ rest hf => read_eq_some.mpr ⟨h, by rw [h], rest, hf⟩

theorem reads_seekCur {ts : List α} {n : ℕ} (h : ts.length = n) :
    Reads (seekCur n : Reader α Unit) ts () :=
  fun f _ _ => by rw [seekCur, h]

theorem Reads.bind {m : Reader α β} {k : β → Reader α γ} {ts us : List α} {b : β} {c : γ}
    (hm : Reads m ts b) (hk : Reads (k b) us c) : Reads (m >>= k) (ts ++ us) c := by
  intro f rest hf
  rw [List.append_assoc] at hf
  rw [run_bind, hm f _ hf]
  refine (hk (f.advance ts.length) rest (left_advance hf)).trans ?_
  rw [advance_advance, List.length_append]

/-- What comes after a part that is read goes on behind it. -/
theorem Reads.run_bind {m : Reader α β} {k : β → Reader α γ} {ts rest : List α} {b : β}
    (hm : Reads m ts b) {f : BinaryFile α} (hf : f.left = ts ++ rest) :
    (m >>= k) f = k b (f.advance ts.length) := by
  rw [BinaryFile.run_bind, hm f rest hf, Option.bind_some]

theorem Reads.map {m : Reader α β} {ts : List α} {b : β} (hm : Reads m ts b) (g : β → γ) :
    Reads (m >>= fun b => pure (g b)) ts (g b) := by
  have h := hm.bind (k := fun b => pure (g b)) (reads_pure (g b))
  rwa [List.append_nil] at h

/-- A loop reads one part after the other. -/
theorem reads_loop {body : β → Reader α β} {encode : γ → List α} {step : β → γ → β} {xs : List γ}
    (h : ∀ b, ∀ x ∈ xs, Reads (body b) (encode x) (step b x)) (b : β) :
    Reads (loop body xs.length b) (xs.flatMap encode) (xs.foldl step b) := by
  induction xs generalizing b with
  | nil => exact reads_pure b
  | cons x xs ih =>
      exact (h b x List.mem_cons_self).bind
        (ih (fun b y hy => h b y (List.mem_cons_of_mem x hy)) (step b x))

/-! ## What is given -/

/-- Whatever the file is, what the reader gives has `P`. -/
def Gives (m : Reader α β) (P : β → Prop) : Prop := ∀ f r, m f = some r → P r.1

theorem gives_pure {P : β → Prop} {b : β} (h : P b) : Gives (pure b : Reader α β) P := by
  intro f r hr
  cases hr
  exact h

theorem gives_true (m : Reader α β) : Gives m fun _ => True := fun _ _ _ => trivial

theorem Gives.bind {m : Reader α β} {k : β → Reader α γ} {Q : β → Prop} {P : γ → Prop}
    (hm : Gives m Q) (hk : ∀ b, Q b → Gives (k b) P) : Gives (m >>= k) P := by
  intro f r hr
  obtain ⟨r', hr', hr⟩ := Option.bind_eq_some_iff.mp hr
  exact hk r'.1 (hm f r' hr') r'.2 r hr

theorem gives_loop {body : β → Reader α β} {P : β → Prop}
    (h : ∀ b, P b → Gives (body b) P) (n : ℕ) {b : β} (hb : P b) :
    Gives (loop body n b) P := by
  induction n generalizing b with
  | zero => exact gives_pure hb
  | succ n ih => exact (h b hb).bind fun b hb => ih hb

end BinaryFile
