import ArenaServ.QuestPlay

/-!
# The arguments that are read

The tables of the check and the functions of the interpreter side by side: an action that
the check has passed has every argument that is read, and so has a rule, except for what
counts things and for goals. Conditions are rules that are not checked.
-/

namespace ArenaServ

open EOPlus Exec

variable {σ : Type} {I : σ → Prop} {expr : Expression} {table : String → Option ArgumentInfo}

/-- The only fault is a stack that is used up. -/
def NoBadArgument (f : QuestFault) : Prop := f = .outOfFuel

theorem sat_arg {i : ℕ} (h : i < expr.args.length) :
    Sat I NoBadArgument (arg expr i) fun a => expr.args[i]? = some a := by
  unfold arg
  rw [List.getElem?_eq_getElem h]
  exact sat_pure rfl

theorem finishes_arg {i : ℕ} (h : i < expr.args.length) : Finishes I (arg expr i) := by
  unfold arg
  rw [List.getElem?_eq_getElem h]
  exact finishes_pure _

theorem keeps_arg {i : ℕ} (h : i < expr.args.length) : Keeps I NoBadArgument (arg expr i) :=
  (sat_arg h).keeps

/-- What a table says about a function. -/
theorem Known.length_le (h : Known table expr) {f : String} {info : ArgumentInfo}
    (hf : expr.function = f) (hinfo : table f = some info) : info.minArgs ≤ expr.args.length := by
  obtain ⟨info', hinfo', hlen⟩ := h
  rw [hf, hinfo, Option.some.injEq] at hinfo'
  rw [hinfo']
  exact hlen

/-! ## Actions -/

theorem keeps_amount : Keeps I NoBadArgument (amount expr : Exec σ _ _ _) := by
  unfold amount
  split_ifs with h
  · exact (keeps_arg h).bind fun _ => keeps_pure _
  · exact keeps_pure _

theorem keeps_strength : Keeps I NoBadArgument (strength expr : Exec σ _ _ _) := by
  unfold strength
  split_ifs with h
  · exact (keeps_arg h).bind fun _ => keeps_pure _
  · exact keeps_pure _

theorem keeps_modifyStat {change : StatChange} (h : 2 ≤ expr.args.length) :
    Keeps I NoBadArgument (modifyStat change expr : Exec σ _ _ _) := by
  unfold modifyStat
  apply (keeps_arg (by omega)).bind
  intro stat
  apply (keeps_arg h).bind
  intro value
  split_ifs
  · exact keeps_pure _
  · exact sat_throw _

/-- An action with one argument. -/
theorem keeps_oneArg {α : Type} {f : Variant → α} (h : 1 ≤ expr.args.length) :
    Keeps I NoBadArgument (do return f (← arg expr 0) : Exec σ QuestError QuestFault α) :=
  (keeps_arg h).bind fun _ => keeps_pure _

theorem keeps_characterCall (h : Known actionArgumentInfo expr) :
    Keeps I NoBadArgument (characterCall expr : Exec σ _ _ _) := by
  unfold characterCall
  split
  -- Quakes may go without arguments, a warp has three, items and stats have their own readers.
  case h_2 | h_3 => exact keeps_strength.bind fun _ => keeps_pure _
  case h_4 hf | h_5 hf =>
    have hlen : 3 ≤ expr.args.length := h.length_le hf rfl
    apply (keeps_arg (by omega)).bind
    intro _
    apply (keeps_arg (by omega)).bind
    intro _
    exact (keeps_arg hlen).bind fun _ => keeps_pure _
  case h_8 hf | h_9 hf =>
    apply (keeps_arg (h.length_le hf rfl)).bind
    intro _
    exact keeps_amount.bind fun _ => keeps_pure _
  case h_18 hf | h_19 hf | h_20 hf =>
    exact (keeps_modifyStat (h.length_le hf rfl)).bind fun _ => keeps_pure _
  case h_21 => exact keeps_pure _
  all_goals
    rename_i hf
    exact keeps_oneArg (h.length_le hf rfl)

theorem keeps_startState (expr : Expression) :
    Keeps I NoBadArgument (QuestHost.startState expr : Exec σ _ _ _) := by
  unfold QuestHost.startState
  split_ifs with h
  · exact (keeps_arg h).bind fun _ => keeps_pure _
  · exact keeps_pure _

theorem finishes_beginAction {J : QuestContext → Prop}
    (hJ : ∀ vendor change c, J c → J (c.addDialog vendor change))
    (h : Known actionArgumentInfo expr) : Finishes J (QuestContext.beginAction expr) := by
  unfold QuestContext.beginAction
  split
  next hf =>
    have hlen : 2 ≤ expr.args.length := h.length_le hf rfl
    apply (finishes_arg (by omega)).bind
    intro vendor
    apply (finishes_arg hlen).bind
    intro text
    exact finishes_modify fun c hc => hJ _ _ c hc
  next hf =>
    have hlen : 3 ≤ expr.args.length := h.length_le hf rfl
    apply (finishes_arg (by omega)).bind
    intro vendor
    apply (finishes_arg (by omega)).bind
    intro link
    apply (finishes_arg hlen).bind
    intro text
    exact finishes_modify fun c hc => hJ _ _ c hc
  next => exact finishes_pure _

/-- Entering a state of a quest that was checked goes through. -/
theorem finishes_beginState {J : QuestContext → Prop}
    (hJ : ∀ vendor change c, J c → J (c.addDialog vendor change)) {state : State}
    (hclear : ∀ c, J c → J (c.clearState state.desc)) (hstate : Quest.Checked state) :
    Finishes J (QuestContext.beginState state) := by
  unfold QuestContext.beginState
  apply (finishes_modify hclear).bind
  intro _
  apply finishes_get.bind
  intro c
  split_ifs
  · exact finishes_pure ()
  · apply finishes_forEach
    intro action haction
    exact finishes_beginAction hJ (hstate.action action haction)

/-! ## Rules and conditions -/

/-- How many arguments the evaluation of a rule reads. -/
def ruleReads : String → ℕ
  | "donedaily" | "entermap" | "leavemap" | "gotitems" | "lostitems" | "gotspell" | "lostspell"
  | "isgender" | "isclass" | "israce" | "iswearing" | "citizenof" | "rolled" | "statrpn" => 1
  | "statis" | "statnot" | "statgreater" | "statless" => 2
  | "entercoord" | "leavecoord" | "statbetween" => 3
  | _ => 0

theorem ruleReads_le (h : Known ruleArgumentInfo expr) :
    ruleReads expr.function ≤ expr.args.length := by
  unfold ruleReads
  split
  all_goals first | exact Nat.zero_le _ | (rename_i hf; exact h.length_le hf rfl)

theorem length_of_ruleReads (h : ruleReads expr.function ≤ expr.args.length) {f : String}
    (hf : expr.function = f) : ruleReads f ≤ expr.args.length := by
  rw [← hf]
  exact h

theorem keeps_rpnCharEval {τ : Type} {J : QuestWorld τ → Prop} (view : CharacterView)
    (values : List Variant) : Keeps J NoBadArgument (QuestHost.rpnCharEval view values) := by
  unfold QuestHost.rpnCharEval
  split
  · exact keeps_pure _
  · exact sat_throw _

/-- Two arguments and what is made of them. -/
theorem keeps_twoArgs {τ β : Type} {J : τ → Prop} {f : Variant → Variant → Exec τ _ _ β}
    (h : 2 ≤ expr.args.length) (hf : ∀ a b, Keeps J NoBadArgument (f a b)) :
    Keeps J NoBadArgument (do f (← arg expr 1) (← arg expr 0)) := by
  apply (keeps_arg h).bind
  intro a
  apply (keeps_arg (by omega)).bind
  intro b
  exact hf a b

theorem keeps_viewRule {τ : Type} {J : QuestWorld τ → Prop} (host : QuestHost τ)
    (view : CharacterView) (h : ruleReads expr.function ≤ expr.args.length) :
    Keeps J NoBadArgument (host.viewRule view expr) := by
  unfold QuestHost.viewRule
  split
  -- The rules about places and about two stats read on only while they hold.
  case h_1 | h_21 => exact keeps_pure _
  case h_3 hf | h_5 hf =>
    have hlen : 3 ≤ expr.args.length := length_of_ruleReads h hf
    apply (keeps_arg (by omega)).bind
    intro map
    split_ifs
    · apply (keeps_arg (by omega)).bind
      intro x
      split_ifs
      · exact (keeps_arg hlen).bind fun _ => keeps_pure _
      · exact keeps_pure _
    · exact keeps_pure _
  case h_6 hf =>
    apply keeps_amount.bind
    intro _
    exact (keeps_arg (length_of_ruleReads h hf)).bind fun _ => keeps_pure _
  case h_7 hf =>
    apply (keeps_arg (length_of_ruleReads h hf)).bind
    intro _
    exact keeps_amount.bind fun _ => keeps_pure _
  case h_8 hf =>
    apply (keeps_arg (length_of_ruleReads h hf)).bind
    intro id
    dsimp only
    split_ifs with hspell hfew
    · exact keeps_pure _
    · exact (keeps_arg (by omega)).bind fun _ => keeps_pure _
    · exact keeps_pure _
  case h_15 hf | h_16 hf | h_17 hf | h_18 hf =>
    exact keeps_twoArgs (length_of_ruleReads h hf) fun _ _ => keeps_rpnCharEval view _
  case h_19 hf =>
    have hlen : 3 ≤ expr.args.length := length_of_ruleReads h hf
    apply (keeps_arg (by omega)).bind
    intro low
    apply (keeps_arg (by omega)).bind
    intro stat
    apply (keeps_arg hlen).bind
    intro high
    exact keeps_rpnCharEval view _
  case h_20 hf =>
    apply (keeps_arg (length_of_ruleReads h hf)).bind
    intro _
    exact keeps_rpnCharEval view _
  all_goals
    rename_i hf
    exact keeps_oneArg (length_of_ruleReads h hf)

/-! ## Goals and counters -/

open QuestContext

/-- A rule that counts one thing and names it by a short. -/
def CountsThing (expr : Expression) : Prop :=
  expr.function ∈ ["useditem", "usedspell", "killednpcs"] ∧
    ∀ a ∈ expr.args.head?, a.toInt.toInt16.toInt32 = a.toInt

instance (expr : Expression) : Decidable (CountsThing expr) :=
  inferInstanceAs (Decidable (_ ∧ _))

section
variable {J : QuestContext → Prop}

theorem keeps_goalTarget : Keeps J NoBadArgument (goalTarget expr) := by
  unfold goalTarget
  split_ifs with h
  · exact (keeps_arg h).bind fun _ => keeps_pure _
  · exact keeps_pure _

theorem keeps_countedProgress {icon : BookIcon} (h : 1 ≤ expr.args.length) :
    Keeps J NoBadArgument (countedProgress icon expr) := by
  unfold countedProgress
  apply sat_get.keeps.bind
  intro c
  apply (keeps_arg h).bind
  intro id
  exact keeps_goalTarget.bind fun _ => keeps_pure _

/-- The progress towards a goal reads what the check asks for, and the second argument of a
goal about items or spells. -/
theorem keeps_goalProgress (view : CharacterView) (h : Known ruleArgumentInfo expr)
    (hgoal : expr.function ∈ ["gotitems", "gotspell"] → 2 ≤ expr.args.length) :
    Keeps J NoBadArgument (goalProgress view expr) := by
  unfold goalProgress
  split
  case h_1 hf | h_2 hf =>
    have hlen : 2 ≤ expr.args.length := hgoal (by rw [hf]; decide)
    apply (keeps_arg hlen).bind
    intro target
    apply (keeps_arg (by omega)).bind
    intro id
    exact keeps_goalTarget.bind fun _ => keeps_pure _
  case h_3 hf | h_4 hf | h_5 hf => exact keeps_countedProgress (h.length_le hf rfl)
  case h_6 hf =>
    apply sat_get.keeps.bind
    intro c
    exact (keeps_arg (h.length_le hf rfl)).bind fun _ => keeps_pure _
  all_goals exact keeps_pure _

theorem keeps_argIs (id : Int32) (h : 1 ≤ expr.args.length) :
    Keeps J NoBadArgument (argIs id expr) :=
  (keeps_arg h).bind fun _ => keeps_pure _

/-- The second argument is read if the first one is the id. -/
theorem keeps_argReached (id amount : Int16) (h : 1 ≤ expr.args.length)
    (hthing : (∀ a ∈ expr.args.head?, a.toInt.toInt16.toInt32 = a.toInt) →
      2 ≤ expr.args.length) :
    Keeps J NoBadArgument (argReached id amount expr) := by
  unfold argReached
  apply (sat_arg h).bind
  intro a ha
  split_ifs with hid
  · have hlen : 2 ≤ expr.args.length := by
      apply hthing
      intro b hb
      rw [List.head?_eq_getElem?, ha] at hb
      rw [← Option.some.inj hb, hid, Int16.toInt16_toInt32]
    exact (keeps_arg hlen).bind fun _ => keeps_pure _
  · exact keeps_pure _

end

end ArenaServ
