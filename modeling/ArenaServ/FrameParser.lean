import Mathlib.Data.List.Basic

/-!
# Length-prefixed frames

A stream of frames, each a two-element prefix that `decode` turns into the length
of the body behind it. The parser takes one element at a time and hands out a body
when its last element arrives, so that it does not matter how the stream is cut.
-/

namespace FrameParser

inductive Phase (α : Type*) where
  | first
  | second (a : α)
  | body (remaining : ℕ) (acc : List α)
  deriving DecidableEq, Repr

variable {α : Type*} (decode : α → α → ℕ)

/-- The next phase and the body completed. A body of length 0 never completes. -/
def feed : Phase α → α → Phase α × Option (List α)
  | .first, a => (.second a, none)
  | .second b, a => (.body (decode b a) [], none)
  | .body 0 acc, _ => (.body 0 acc, none)
  | .body 1 acc, a => (.first, some (acc ++ [a]))
  | .body (n + 2) acc, a => (.body (n + 1) (acc ++ [a]), none)

def feedAll : Phase α → List α → Phase α × List (List α)
  | p, [] => (p, [])
  | p, a :: s =>
      let (p, done) := feed decode p a
      let (p, rest) := feedAll p s
      (p, done.toList ++ rest)

theorem feedAll_append (p : Phase α) (s t : List α) :
    feedAll decode p (s ++ t) =
      ((feedAll decode (feedAll decode p s).1 t).1,
        (feedAll decode p s).2 ++ (feedAll decode (feedAll decode p s).1 t).2) := by
  induction s generalizing p with
  | nil => rfl
  | cons a s ih => simp only [List.cons_append, feedAll, ih, List.append_assoc]

/-- What was handed out stays handed out. -/
theorem snd_feedAll_prefix (p : Phase α) {s t : List α} (h : s <+: t) :
    (feedAll decode p s).2 <+: (feedAll decode p t).2 := by
  obtain ⟨u, rfl⟩ := h
  rw [feedAll_append]
  exact List.prefix_append _ _

theorem feedAll_body_short (n : ℕ) (acc s : List α) (h : s.length < n) :
    feedAll decode (.body n acc) s = (.body (n - s.length) (acc ++ s), []) := by
  induction s generalizing n acc with
  | nil => simp [feedAll]
  | cons a s ih =>
      rw [List.length_cons] at h
      obtain ⟨m, rfl⟩ : ∃ m, n = m + 2 := ⟨n - 2, by omega⟩
      have hstep := ih (m + 1) (acc ++ [a]) (by omega)
      simp only [feedAll, feed, hstep, List.length_cons, List.append_assoc, List.singleton_append,
        Option.toList_none, List.nil_append, Prod.mk.injEq, and_true, Phase.body.injEq]
      omega

theorem feedAll_body_exact (acc : List α) {s : List α} (h : s ≠ []) :
    feedAll decode (.body s.length acc) s = (.first, [acc ++ s]) := by
  induction s generalizing acc with
  | nil => exact absurd rfl h
  | cons a s ih =>
      cases s with
      | nil => rfl
      | cons b s =>
          have hstep := ih (acc ++ [a]) (List.cons_ne_nil b s)
          simp only [List.length_cons] at hstep ⊢
          simp only [feedAll, feed] at hstep ⊢
          simp [hstep]

/-- A frame whose prefix tells the length of its body, which is not empty. -/
structure Frame where
  first : α
  second : α
  body : List α
  decode_eq : decode first second = body.length
  body_ne_nil : body ≠ []

variable {decode}

def Frame.elems (f : Frame decode) : List α := f.first :: f.second :: f.body

theorem feedAll_frame (f : Frame decode) :
    feedAll decode .first f.elems = (.first, [f.body]) := by
  simp only [Frame.elems, feedAll, feed, f.decode_eq, feedAll_body_exact decode [] f.body_ne_nil,
    List.nil_append, Option.toList_none]

theorem feedAll_frames (frames : List (Frame decode)) :
    feedAll decode .first (frames.flatMap Frame.elems) = (.first, frames.map Frame.body) := by
  induction frames with
  | nil => rfl
  | cons f frames ih =>
      rw [List.flatMap_cons, feedAll_append, feedAll_frame, ih]
      rfl

theorem fst_feedAll_frame_ne_body_zero (f : Frame decode) {s : List α} (h : s <+: f.elems)
    (acc : List α) : (feedAll decode .first s).1 ≠ .body 0 acc := by
  have hpos : 0 < f.body.length := List.length_pos_iff.mpr f.body_ne_nil
  match s, h with
  | [], _ => simp [feedAll]
  | [a], _ => simp [feedAll, feed]
  | a :: b :: t, h =>
      rw [Frame.elems, List.cons_prefix_cons, List.cons_prefix_cons] at h
      obtain ⟨rfl, rfl, ht⟩ := h
      simp only [feedAll, feed, f.decode_eq]
      by_cases hshort : t.length < f.body.length
      · rw [feedAll_body_short decode _ _ _ hshort]
        intro heq
        injection heq with hzero
        omega
      · have hall : t = f.body := ht.eq_of_length_le (Nat.not_lt.mp hshort)
        rw [hall, feedAll_body_exact decode [] f.body_ne_nil]
        simp

/-- Inside a stream of frames the parser never waits for a body of length 0. -/
theorem fst_feedAll_frames_ne_body_zero (frames : List (Frame decode)) {s : List α}
    (h : s <+: frames.flatMap Frame.elems) (acc : List α) :
    (feedAll decode .first s).1 ≠ .body 0 acc := by
  induction frames generalizing s with
  | nil =>
      rw [List.flatMap_nil, List.prefix_nil] at h
      rw [h]
      simp [feedAll]
  | cons f frames ih =>
      rw [List.flatMap_cons] at h
      by_cases hlen : s.length ≤ f.elems.length
      · have hpre : s <+: f.elems :=
          List.prefix_of_prefix_length_le h (List.prefix_append _ _) hlen
        exact fst_feedAll_frame_ne_body_zero f hpre acc
      · have hpre : f.elems <+: s :=
          List.prefix_of_prefix_length_le (List.prefix_append _ _) h (by omega)
        obtain ⟨t, rfl⟩ := hpre
        rw [List.prefix_append_right_inj] at h
        rw [feedAll_append, feedAll_frame]
        exact ih h

end FrameParser
