import ArenaServ.Exec
import Mathlib.Data.List.Chain
import Mathlib.Tactic.SplitIfs

/-!
# Chains of branches

A flat list of steps, some of which have conditions: a step stands alone, opens a chain of
branches, continues one or ends it. `runList` goes through the list with one flag, whether the
condition that was tested last held. It is shown to do with each chain what a chain is for: the
first branch whose condition holds, and the end of the chain if there is none.
-/

namespace BranchChain

inductive Place where
  | alone
  | opens
  | continues
  | ends
  deriving DecidableEq

theorem Place.eq_ends {p : Place} (halone : p ≠ .alone) (hopens : p ≠ .opens)
    (hcontinues : p ≠ .continues) : p = .ends := by
  cases p with
  | alone => exact absurd rfl halone
  | opens => exact absurd rfl hopens
  | continues => exact absurd rfl hcontinues
  | ends => rfl

variable {σ ε φ α : Type} (place : α → Place)

/-! ## The list in blocks -/

structure Branches where
  first : α
  further : List α
  place_first : place first = .opens
  place_further : ∀ a ∈ further, place a = .continues

/-- Branches, and what is done where none of them is. -/
structure Chain where
  branches : Branches place
  last : Option α
  place_last : ∀ a ∈ last, place a = .ends

inductive Block where
  | alone (a : α) (h : place a = .alone)
  | chain (c : Chain place)
  /-- There is no chain in front of the step that it could be a part of. -/
  | stray (a : α) (h : place a = .continues ∨ place a = .ends)

variable {place}

def Branches.items (b : Branches place) : List α := b.first :: b.further

def Branches.add (b : Branches place) (a : α) (h : place a = .continues) : Branches place where
  first := b.first
  further := b.further ++ [a]
  place_first := b.place_first
  place_further a' ha' := by
    rcases List.mem_append.1 ha' with ha' | ha'
    · exact b.place_further a' ha'
    · rw [List.mem_singleton.1 ha', h]

namespace Block

def items : Block place → List α
  | alone a _ => [a]
  | chain c => c.branches.items ++ c.last.toList
  | stray a _ => [a]

/-- The second block does not go on with the first. -/
def Apart : Block place → Block place → Prop
  | chain ⟨_, none, _⟩, stray _ _ => False
  | _, _ => True

end Block

/-- A list in blocks, whose chains are as long as they can be. -/
structure InBlocks (place : α → Place) (list : List α) where
  blocks : List (Block place)
  items_eq : blocks.flatMap Block.items = list
  isChain : blocks.IsChain Block.Apart

/-- The branches in front of the list, as a chain that does not go on. -/
def closed (opened : Option (Branches place)) : List (Block place) :=
  opened.toList.map fun b => .chain ⟨b, none, fun _ h => by cases h⟩

/-- The blocks of a list behind branches of a chain. -/
def scan : List α → Option (Branches place) → List (Block place)
  | [], opened => closed opened
  | a :: rest, opened =>
      if halone : place a = .alone then closed opened ++ .alone a halone :: scan rest none
      else if hopens : place a = .opens then
        closed opened ++ scan rest (some ⟨a, [], hopens, fun _ h => by cases h⟩)
      else if hcontinues : place a = .continues then
        match opened with
        | none => .stray a (Or.inl hcontinues) :: scan rest none
        | some b => scan rest (some (b.add a hcontinues))
      else
        have hends : place a = .ends := Place.eq_ends halone hopens hcontinues
        match opened with
        | none => .stray a (Or.inr hends) :: scan rest none
        | some b => .chain ⟨b, some a, fun _ h => by cases h; exact hends⟩ :: scan rest none

theorem apart_alone (b : Block place) {a : α} (h : place a = .alone) :
    Block.Apart b (.alone a h) := by
  rcases b with _ | ⟨_, _ | _, _⟩ | _ <;> trivial

theorem apart_chain (b : Block place) (c : Chain place) : Block.Apart b (.chain c) := by
  rcases b with _ | ⟨_, _ | _, _⟩ | _ <;> trivial

theorem items_closed (opened : Option (Branches place)) :
    (closed opened).flatMap Block.items = opened.toList.flatMap Branches.items := by
  cases opened with
  | none => rfl
  | some b => simp [closed, Block.items]

theorem items_add (b : Branches place) {a : α} (h : place a = .continues) :
    (b.add a h).items = b.items ++ [a] := rfl

/-- No step is lost and the order is kept. -/
theorem items_scan (list : List α) (opened : Option (Branches place)) :
    (scan list opened).flatMap Block.items = opened.toList.flatMap Branches.items ++ list := by
  induction list generalizing opened with
  | nil => rw [scan, items_closed, List.append_nil]
  | cons a rest ih =>
      unfold scan
      split_ifs with halone hopens hcontinues
      · rw [List.flatMap_append, items_closed, List.flatMap_cons, ih]
        rfl
      · rw [List.flatMap_append, items_closed, ih]
        rfl
      · cases opened with
        | none =>
            rw [List.flatMap_cons, ih]
            rfl
        | some b =>
            rw [ih]
            simp [items_add]
      · cases opened with
        | none =>
            rw [List.flatMap_cons, ih]
            rfl
        | some b =>
            rw [List.flatMap_cons, ih]
            simp [Block.items]

theorem isChain_closed_append {opened : Option (Branches place)} {blocks : List (Block place)}
    (hhead : ∀ b ∈ blocks.head?, ∀ c, Block.Apart (.chain c) b)
    (h : blocks.IsChain Block.Apart) : (closed opened ++ blocks).IsChain Block.Apart := by
  cases opened with
  | none => exact h
  | some b => exact List.isChain_cons.2 ⟨fun b' hb' => hhead b' hb' _, h⟩

/-- An opened chain is the first block. -/
theorem head_scan (list : List α) (b : Branches place) :
    ∃ c more, scan list (some b) = .chain c :: more := by
  induction list generalizing b with
  | nil => exact ⟨_, _, rfl⟩
  | cons a rest ih =>
      unfold scan
      split_ifs
      · exact ⟨_, _, rfl⟩
      · exact ⟨_, _, rfl⟩
      · exact ih _
      · exact ⟨_, _, rfl⟩

theorem isChain_scan (list : List α) (opened : Option (Branches place)) :
    (scan list opened).IsChain Block.Apart := by
  induction list generalizing opened with
  | nil =>
      cases opened with
      | none => exact List.isChain_nil
      | some b => exact List.isChain_singleton _
  | cons a rest ih =>
      unfold scan
      split_ifs with halone hopens hcontinues
      · apply isChain_closed_append
        · intro b hb c
          cases hb
          exact apart_alone _ halone
        · exact List.isChain_cons.2 ⟨fun _ _ => trivial, ih none⟩
      · apply isChain_closed_append _ (ih _)
        intro b hb c
        obtain ⟨c', more, hscan⟩ := head_scan rest
          (⟨a, [], hopens, fun _ h => by cases h⟩ : Branches place)
        rw [hscan] at hb
        cases hb
        exact apart_chain _ c'
      · cases opened with
        | none => exact List.isChain_cons.2 ⟨fun _ _ => trivial, ih none⟩
        | some b => exact ih _
      · cases opened with
        | none => exact List.isChain_cons.2 ⟨fun _ _ => trivial, ih none⟩
        | some b => exact List.isChain_cons.2 ⟨fun _ _ => trivial, ih none⟩

def InBlocks.of (place : α → Place) (list : List α) : InBlocks place list :=
  ⟨scan list none, items_scan list none, isChain_scan list none⟩

/-! ## What is done -/

variable (place) (test : α → Exec σ ε φ Bool) (perform : α → Exec σ ε φ Unit)

def runList : List α → Bool → Exec σ ε φ Unit
  | [], _ => pure ()
  | a :: rest, held =>
      if (place a = .continues ∨ place a = .ends) ∧ held = true then runList rest held
      else if place a = .opens ∨ place a = .continues then do
        let holds ← test a
        Exec.onlyIf holds (perform a)
        runList rest holds
      else do
        perform a
        runList rest held

/-- What a step does that is a part of no chain, by whether the last condition held. -/
def runStray (a : α) (held : Bool) : Exec σ ε φ Bool := do
  if held then pure true
  else if place a = .continues then do
    let holds ← test a
    Exec.onlyIf holds (perform a)
    pure holds
  else do
    perform a
    pure false

variable {place}

/-- The first branch whose condition holds, without a look at the ones after it, or else the end of
the chain. -/
def Chain.run (c : Chain place) : Exec σ ε φ Bool := do
  let taken ← Exec.findM? c.branches.items test
  Exec.forEach (taken.or c.last).toList perform
  pure taken.isSome

/-- Only what is a part of no chain depends on the blocks before it. -/
def runBlocks : List (Block place) → Bool → Exec σ ε φ Unit
  | [], _ => pure ()
  | .alone a _ :: rest, held => do
      perform a
      runBlocks rest held
  | .chain c :: rest, _ => do
      let held ← c.run test perform
      runBlocks rest held
  | .stray a _ :: rest, held => do
      let held ← runStray place test perform a held
      runBlocks rest held

/-! ## The flag and the blocks -/

variable {test : α → Exec σ ε φ Bool} {perform : α → Exec σ ε φ Unit}

theorem runList_skip {a : α} (h : place a = .continues ∨ place a = .ends) (rest : List α) :
    runList place test perform (a :: rest) true = runList place test perform rest true := by
  rw [runList, if_pos ⟨h, rfl⟩]

theorem runList_alone {a : α} (h : place a = .alone) (rest : List α) (held : Bool) :
    runList place test perform (a :: rest) held =
      perform a >>= fun _ => runList place test perform rest held := by
  simp [runList, h]

theorem runList_opens {a : α} (h : place a = .opens) (rest : List α) (held : Bool) :
    runList place test perform (a :: rest) held =
      test a >>= fun holds => Exec.onlyIf holds (perform a) >>= fun _ =>
        runList place test perform rest holds := by
  simp [runList, h]

theorem runList_continues {a : α} (h : place a = .continues) (rest : List α) :
    runList place test perform (a :: rest) false =
      test a >>= fun holds => Exec.onlyIf holds (perform a) >>= fun _ =>
        runList place test perform rest holds := by
  simp [runList, h]

theorem runList_ends {a : α} (h : place a = .ends) (rest : List α) :
    runList place test perform (a :: rest) false =
      perform a >>= fun _ => runList place test perform rest false := by
  simp [runList, h]

/-- Behind a condition that held, a chain is skipped to its end. -/
theorem runList_skips (list rest : List α)
    (h : ∀ a ∈ list, place a = .continues ∨ place a = .ends) :
    runList place test perform (list ++ rest) true = runList place test perform rest true := by
  induction list with
  | nil => rfl
  | cons a list ih =>
      rw [List.cons_append, runList_skip (h a List.mem_cons_self)]
      exact ih fun a ha => h a (List.mem_cons_of_mem _ ha)

theorem forEach_some (a : α) :
    Exec.forEach (some a).toList perform = perform a := bind_pure_unit

theorem runList_last {last : Option α} (h : ∀ a ∈ last, place a = .ends) (rest : List α) :
    runList place test perform (last.toList ++ rest) false =
      Exec.forEach last.toList perform >>= fun _ => runList place test perform rest false := by
  cases last with
  | none => rfl
  | some a =>
      rw [forEach_some]
      exact runList_ends (h a rfl) rest

variable (place) (test) (perform) in
/-- What is done from branches that are still to be tried. -/
def runFurther (further : List α) (last : Option α) (rest : List α) : Exec σ ε φ Unit := do
  let taken ← Exec.findM? further test
  Exec.forEach (taken.or last).toList perform
  runList place test perform rest taken.isSome

/-- The branch whose condition holds is done and the others are skipped. -/
theorem runFurther_cons (a : α) {further : List α}
    (hfurther : ∀ a ∈ further, place a = .continues) {last : Option α}
    (hlast : ∀ a ∈ last, place a = .ends) (rest : List α)
    (h : runList place test perform (further ++ (last.toList ++ rest)) false =
      runFurther place test perform further last rest) :
    (test a >>= fun holds => Exec.onlyIf holds (perform a) >>= fun _ =>
      runList place test perform (further ++ (last.toList ++ rest)) holds) =
      runFurther place test perform (a :: further) last rest := by
  rw [runFurther, Exec.findM?, bind_assoc]
  apply bind_congr
  intro holds
  cases holds with
  | true =>
      have hskips : runList place test perform (further ++ (last.toList ++ rest)) true =
          runList place test perform rest true := by
        rw [← List.append_assoc]
        apply runList_skips
        intro a' ha'
        rcases List.mem_append.1 ha' with ha' | ha'
        · exact Or.inl (hfurther a' ha')
        · exact Or.inr (hlast a' (Option.mem_toList.1 ha'))
      rw [hskips]
      change perform a >>= _ = Exec.forEach (some a).toList perform >>= _
      rw [forEach_some]
      rfl
  | false => exact h

theorem runList_further {further : List α} (hfurther : ∀ a ∈ further, place a = .continues)
    {last : Option α} (hlast : ∀ a ∈ last, place a = .ends) (rest : List α) :
    runList place test perform (further ++ (last.toList ++ rest)) false =
      runFurther place test perform further last rest := by
  induction further with
  | nil => exact runList_last hlast rest
  | cons a further ih =>
      have hrest : ∀ a ∈ further, place a = .continues :=
        fun a ha => hfurther a (List.mem_cons_of_mem _ ha)
      rw [List.cons_append, runList_continues (hfurther a List.mem_cons_self)]
      exact runFurther_cons a hrest hlast rest (ih hrest)

/-- Whatever was in front of it, a chain is run. -/
theorem runList_chain (c : Chain place) (rest : List α) (held : Bool) :
    runList place test perform (c.branches.items ++ c.last.toList ++ rest) held =
      c.run test perform >>= fun held => runList place test perform rest held := by
  have hfurther :
      runList place test perform (c.branches.further ++ (c.last.toList ++ rest)) false =
        runFurther place test perform c.branches.further c.last rest :=
    runList_further c.branches.place_further c.place_last rest
  have hchain := runFurther_cons c.branches.first c.branches.place_further c.place_last rest
    hfurther
  rw [Branches.items, List.cons_append, List.cons_append, List.append_assoc,
    runList_opens c.branches.place_first, hchain, runFurther, Chain.run, Branches.items]
  simp only [bind_assoc, pure_bind]

/-- A flag does for a list what is to be done for its blocks, one behind the other. -/
theorem runList_items (blocks : List (Block place)) (held : Bool) :
    runList place test perform (blocks.flatMap Block.items) held =
      runBlocks test perform blocks held := by
  induction blocks generalizing held with
  | nil => rfl
  | cons b rest ih =>
      rw [List.flatMap_cons]
      cases b with
      | alone a h =>
          rw [runBlocks, ← ih held]
          exact runList_alone h _ held
      | chain c =>
          rw [runBlocks]
          simp only [← ih]
          exact runList_chain c _ held
      | stray a h =>
          rw [runBlocks]
          simp only [← ih]
          cases held with
          | true => exact runList_skip h _
          | false =>
              rw [runStray, if_neg Bool.false_ne_true]
              rcases h with h | h
              · rw [if_pos h]
                simp only [bind_assoc, pure_bind]
                exact runList_continues h _
              · have hends : place a ≠ .continues := by
                  rw [h]
                  decide
                rw [if_neg hends]
                simp only [bind_assoc, pure_bind]
                exact runList_ends h _

end BranchChain
