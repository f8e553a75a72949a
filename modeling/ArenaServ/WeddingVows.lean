import ArenaServ.RunSteps
import ArenaServ.Weddings

/-!
# The vows of a couple

A wedding goes through any run of starts, ticks and vows while its couple and its priest come and
go. A couple is only married once both have said it, each when asked, in the ceremony that is
under way.
-/

namespace ArenaServ

inductive WeddingEvent where
  | start (player1 player2 : List Char)
  | tick
  | iDo (name : List Char) (here : Bool)
  | arrive (name : List Char)
  | leave (name : List Char)
  | priest (there : Bool)

/-- A wedding, who is there, and what has been said in this ceremony and in which state. -/
structure WeddingHall where
  scene : WeddingScene
  wedding : Ceremony
  vows : List (List Char × ℕ)

namespace WeddingHall

/-- A wedding that has just been made. -/
def fresh (scene : WeddingScene) : WeddingHall where
  scene := scene
  wedding :=
    { state := 0, tick := 0, ticking := false, partner1 := [], partner2 := [], requests := [],
      married := [], fault := false }
  vows := []

def next (w : WeddingHall) : WeddingEvent → WeddingHall
  | .start player1 player2 =>
      { w with
        wedding := w.wedding.startWedding w.scene player1 player2
        vows := if w.wedding.state = 0 then [] else w.vows }
  | .tick => { w with wedding := w.wedding.tickOnce w.scene }
  | .iDo name here =>
      { w with
        wedding := w.wedding.iDo w.scene name here
        vows := w.vows ++ [(name, w.wedding.state)] }
  | .arrive name =>
      { w with scene := { w.scene with onMap := Function.update w.scene.onMap name true } }
  | .leave name =>
      { w with scene := { w.scene with onMap := Function.update w.scene.onMap name false } }
  | .priest there => { w with scene := { w.scene with priest := there } }

def step (w : WeddingHall) (e : WeddingEvent) : Option WeddingHall := some (w.next e)

/-- The first partner has said it while the state was 4, and then the second one while it was 6. -/
def Vowed (w : WeddingHall) : Prop :=
  [(w.wedding.partner1, 4), (w.wedding.partner2, 6)].Sublist w.vows

instance (w : WeddingHall) : Decidable w.Vowed := inferInstanceAs (Decidable (List.Sublist _ _))

/-- Nobody is recorded as married but the couple of this ceremony after its vows. -/
def MarriesVowed (w : WeddingHall) (e : WeddingEvent) : Prop :=
  (w.next e).wedding.married = w.wedding.married ∨
    (w.next e).wedding.married =
        w.wedding.married ++ [(w.wedding.partner1, w.wedding.partner2)] ∧ w.Vowed

/-- What has been said by the state the ceremony is in. -/
structure Orderly (w : WeddingHall) : Prop where
  tick : 0 ≤ w.wedding.tick
  state : w.wedding.state ≤ 12
  fault : w.wedding.fault = false
  first : w.wedding.state = 5 ∨ w.wedding.state = 6 → (w.wedding.partner1, 4) ∈ w.vows
  second : w.wedding.state = 7 → w.Vowed

variable {w : WeddingHall}

theorem orderly_fresh (scene : WeddingScene) : (fresh scene).Orderly where
  tick := Int.le_refl 0
  state := Nat.zero_le 12
  fault := rfl
  first := by
    rintro (h | h)
    · cases h
    · cases h
  second := fun h => by cases h

/-- Nothing has to have been said when a ceremony is over or has just begun. -/
theorem orderly_of_early (hstate : w.wedding.state ≤ 4) (htick : 0 ≤ w.wedding.tick)
    (hfault : w.wedding.fault = false) : w.Orderly where
  tick := htick
  state := Nat.le_trans hstate (by decide)
  fault := hfault
  first := by
    rintro (h | h)
    · omega
    · omega
  second := by
    intro h
    omega

/-- A ceremony that is over leaves it open who is there and what has been said. -/
theorem orderly_of_reset {w' : WeddingHall} (hfault : w.wedding.fault = false)
    (hreset : w'.wedding = w.wedding.reset) : w'.Orderly := by
  apply orderly_of_early
  · rw [hreset]
    exact Nat.zero_le 4
  · rw [hreset]
    exact Int.le_refl 0
  · rw [hreset]
    exact hfault

theorem Orderly.tick_next (h : w.Orderly) :
    w.MarriesVowed .tick ∧ (w.next .tick).Orderly := by
  have hticked := @Ceremony.ticked_tickOnce w.scene w.wedding h.tick h.state
  unfold MarriesVowed next
  dsimp only
  generalize Ceremony.tickOnce w.scene w.wedding = c at hticked ⊢
  cases hticked with
  | stays t ticking ht => exact ⟨Or.inl rfl, ⟨ht, h.state, h.fault, h.first, h.second⟩⟩
  | resets =>
      exact ⟨Or.inl rfl, orderly_of_reset h.fault rfl⟩
  | advances hpresent hasked hseven =>
      unfold Ceremony.begun
      by_cases hover : w.wedding.state + 1 = 13
      · rw [if_pos hover]
        exact ⟨Or.inl rfl, orderly_of_reset h.fault rfl⟩
      rw [if_neg hover]
      constructor
      · by_cases hseven : w.wedding.state + 1 = 8
        · rw [if_pos hseven]
          exact Or.inr ⟨rfl, h.second (Nat.succ.inj hseven)⟩
        · rw [if_neg hseven]
          exact Or.inl (List.append_nil _)
      · have hle := h.state
        constructor
        · exact Int.le_refl 0
        · change w.wedding.state + 1 ≤ 12
          omega
        · exact h.fault
        · intro hstate
          apply h.first
          change w.wedding.state + 1 = 5 ∨ w.wedding.state + 1 = 6 at hstate
          omega
        · intro hstate
          change w.wedding.state + 1 = 7 at hstate
          omega

theorem Orderly.start_next (h : w.Orderly) (player1 player2 : List Char) :
    w.MarriesVowed (.start player1 player2) ∧ (w.next (.start player1 player2)).Orderly := by
  unfold MarriesVowed next
  dsimp only
  by_cases hidle : w.wedding.state = 0
  · obtain hstart | ⟨-, hstart⟩ :=
      @Ceremony.startWedding_cases w.scene w.wedding player1 player2 hidle
    · rw [hstart]
      refine ⟨Or.inl rfl, ?_⟩
      apply orderly_of_early
      · exact Nat.zero_le 4
      · exact Int.le_refl 0
      · exact h.fault
    · rw [hstart]
      refine ⟨Or.inl rfl, ?_⟩
      apply orderly_of_early
      · exact Nat.le_add_left 1 3
      · exact Int.zero_le_ofNat 1
      · exact h.fault
  · rw [Ceremony.startWedding_of_busy player1 player2 hidle, if_neg hidle]
    exact ⟨Or.inl rfl, h⟩

theorem Orderly.iDo_next (h : w.Orderly) (name : List Char) (here : Bool) :
    w.MarriesVowed (.iDo name here) ∧ (w.next (.iDo name here)).Orderly := by
  unfold MarriesVowed next
  dsimp only
  have hmore : w.vows.Sublist (w.vows ++ [(name, w.wedding.state)]) :=
    List.sublist_append_left w.vows _
  obtain hdone | hdone | ⟨-, hturn, hdone⟩ :=
    @Ceremony.iDo_cases w.scene w.wedding name here
  · rw [hdone]
    exact ⟨Or.inl rfl, ⟨h.tick, h.state, h.fault, fun hstate => hmore.subset (h.first hstate),
      fun hstate => (h.second hstate).trans hmore⟩⟩
  · rw [hdone]
    exact ⟨Or.inl rfl, orderly_of_reset h.fault rfl⟩
  · rw [hdone]
    refine ⟨Or.inl rfl, ⟨Int.le_refl 0, ?_, h.fault, ?_, ?_⟩⟩
    · dsimp only
      omega
    · intro hstate
      obtain ⟨hname, hfour⟩ | ⟨-, -, hsix⟩ := hturn
      · rw [hname, hfour]
        exact List.mem_append_right _ (List.mem_singleton.mpr rfl)
      · dsimp only at hstate
        omega
    · intro hstate
      obtain ⟨-, hfour⟩ | ⟨-, hname, hsix⟩ := hturn
      · dsimp only at hstate
        omega
      · have hfirst := List.singleton_sublist.mpr (h.first (Or.inr hsix))
        rw [hname, hsix]
        exact hfirst.append (List.Sublist.refl [(w.wedding.partner2, 6)])

theorem Orderly.next (h : w.Orderly) (e : WeddingEvent) :
    w.MarriesVowed e ∧ (w.next e).Orderly := by
  cases e with
  | start player1 player2 => exact h.start_next player1 player2
  | tick => exact h.tick_next
  | iDo name here => exact h.iDo_next name here
  | arrive name => exact ⟨Or.inl rfl, h.tick, h.state, h.fault, h.first, h.second⟩
  | leave name => exact ⟨Or.inl rfl, h.tick, h.state, h.fault, h.first, h.second⟩
  | priest there => exact ⟨Or.inl rfl, h.tick, h.state, h.fault, h.first, h.second⟩

theorem Orderly.step {e : WeddingEvent} {w' : WeddingHall} (h : w.Orderly)
    (hs : w.step e = some w') : w'.Orderly := by
  cases hs
  exact (h.next e).2

/-- In every run of a wedding, a couple is only recorded as married after both have said it in
this ceremony when asked, and no tick uses a partner that is not there. -/
theorem married_of_vows (scene : WeddingScene) (steps : List WeddingEvent) :
    RunSteps.Every step MarriesVowed (fresh scene) steps ∧
      ∀ t, RunSteps.Reaches step (fresh scene) steps t → t.wedding.fault = false := by
  have hgood : RunSteps.Every step (fun _ _ => True) (fresh scene) steps :=
    RunSteps.every_of_forall (fun _ _ => trivial) (fresh scene) steps
  constructor
  · apply RunSteps.every_of_every Orderly (fun w e h _ => (h.next e).1) _
      (orderly_fresh scene) hgood
    exact fun w e w' h _ hs => h.step hs
  · intro t ht
    have horderly : t.Orderly := RunSteps.invariant_of_every Orderly
      (fun w e w' h _ hs => h.step hs) (orderly_fresh scene) hgood ht
    exact horderly.fault

/-- A whole ceremony. -/
example :
    (RunSteps.run step (fresh ⟨fun _ => true, true⟩)
      ([.start ['a', 'n', 'n', 'a'] ['o', 't', 't', 'o']] ++ List.replicate 31 .tick ++
        [.iDo ['a', 'n', 'n', 'a'] true] ++ List.replicate 7 .tick ++
        [.iDo ['o', 't', 't', 'o'] true, .tick])).map (fun w => w.wedding.married) =
      some [(['a', 'n', 'n', 'a'], ['o', 't', 't', 'o'])] := by
  decide +kernel

end WeddingHall

end ArenaServ
