import ArenaServ.QuestPlay
import ArenaServ.RpnReference
import Mathlib.Data.Rat.Floor
import Mathlib.Tactic.Linarith

/-!
# Rules about stats

The rules `statis` to `statbetween` are formulas of a stat and of one or two numbers. They are
evaluated with the variables of the character, which are integers.
-/

namespace Rpn

open ArenaServ (QuestError QuestExec QuestHost QuestWorld idleHost)
open ArenaServ.EOPlus Exec

/-! ## The variables of a character -/

/-- The names of `FormulaVars`. -/
def formulaNames : List String :=
  ["level", "experience", "hp", "maxhp", "tp", "maxtp", "maxsp", "weight", "maxweight", "karma",
    "mindam", "maxdam", "str", "int", "wis", "agi", "con", "cha", "base_str", "base_int",
    "base_wis", "base_agi", "base_con", "base_cha", "display_str", "display_int", "display_wis",
    "display_agi", "display_con", "display_cha", "accuracy", "evade", "armor", "admin", "bot",
    "usage", "class", "gender", "race", "hairstyle", "haircolor", "mapid", "x", "y", "direction",
    "sitting", "hidden", "whispers", "goldbank", "statpoints", "skillpoints"]

section Variables
variable {K : Type} [Field K]

def formulaVars (stats : String → ℤ) (name : String) : Option K :=
  if name ∈ formulaNames then some (stats name : K) else none

/-! ## Operands -/

/-- A name or a number, which no function is called. -/
def IsOperand (val : Variant) : Prop := rpnEvalFuncs.find? (RpnFunc.isMatch val.toText) = none

theorem isOperand_of_name {s : Variant} (h : s.toText ∈ formulaNames) : IsOperand s := by
  have hall : ∀ name ∈ formulaNames, rpnEvalFuncs.find? (RpnFunc.isMatch name) = none := by
    decide
  exact hall s.toText h

theorem operand_of_name (stats : String → ℤ) {s : Variant} (h : s.toText ∈ formulaNames) :
    (operand (formulaVars stats) s : K) = stats s.toText := by
  rw [operand, formulaVars, if_pos h, Option.getD_some]

/-- A number begins with a digit. -/
theorem head_toText {v : Variant} {n : ℕ} (h : v.toText = toString (n : ℤ)) :
    v.toText.toList.head?.any Char.isDigit = true := by
  have hdigits : v.toText.toList = Nat.toDigits 10 n := by
    rw [h, ArenaServ.Util.toList_toString, if_pos (Int.natCast_nonneg n), Int.toNat_natCast]
  obtain ⟨c, rest, hcons⟩ := List.exists_cons_of_ne_nil (Nat.toDigits_ne_nil (n := n) (b := 10))
  have hc : c.isDigit = true := by
    apply ArenaServ.Util.isDigit_of_mem_toDigits (n := n)
    rw [hcons]
    exact List.mem_cons_self
  rw [hdigits, hcons, List.head?_cons, Option.any_some, hc]

/-- The symbols and names of functions do not begin with digits. -/
theorem isOperand_of_number {v : Variant} {n : ℕ} (h : v.toText = toString (n : ℤ)) :
    IsOperand v := by
  have hfuncs : ∀ f ∈ rpnEvalFuncs,
      f.name.toList.head?.any Char.isDigit = false ∧ f.op.isDigit = false := by
    decide
  have hdigit := head_toText h
  rw [IsOperand, List.find?_eq_none]
  intro f hf hmatch
  obtain ⟨hname, hop⟩ := hfuncs f hf
  rw [RpnFunc.isMatch, Bool.or_eq_true, Bool.and_eq_true, decide_eq_true_eq, decide_eq_true_eq,
    decide_eq_true_eq] at hmatch
  rcases hmatch with heq | ⟨-, hsymbol⟩
  · rw [heq, hname] at hdigit
    cases hdigit
  · rw [hsymbol, Option.any_some, hop] at hdigit
    cases hdigit

theorem toNumber_of_toText [CharZero K] {v : Variant} {z : ℤ} (h : v.toText = toString z) :
    (toNumber v : K) = z := by
  cases v with
  | int value =>
      have hvalue : value.toInt = z := by
        have hparse := congrArg (fun text : String => ArenaServ.Util.tdparse text.toList) h
        rw [Variant.toText, ArenaServ.Util.tdparse_toString,
          ArenaServ.Util.tdparse_toString] at hparse
        exact Int.cast_inj.1 hparse
      rw [toNumber, hvalue]
  | text value =>
      rw [Variant.toText] at h
      rw [toNumber, h, ArenaServ.Util.tdparse_toString, Rat.cast_intCast]

theorem operand_of_number [CharZero K] (stats : String → ℤ) {v : Variant} {n : ℕ}
    (h : v.toText = toString (n : ℤ)) : (operand (formulaVars stats) v : K) = (n : ℤ) := by
  have hnames : ∀ name ∈ formulaNames, name.toList.head?.any Char.isDigit = false := by
    decide
  have hname : v.toText ∉ formulaNames := by
    intro hmem
    have hdigit := head_toText h
    rw [hnames _ hmem] at hdigit
    cases hdigit
  rw [operand, formulaVars, if_neg hname, Option.getD_none, toNumber_of_toText h]

end Variables

variable {K ρ σ : Type} [Field K] [LinearOrder K] [FloorRing K]

/-- `rpn_char_eval`. What is not defined is an exception here. -/
def formulaHolds (math : RpnMath K ρ) (stats : String → ℤ) (rest : ρ) (values : List Variant) :
    Except QuestError Bool :=
  match rpnEval math (formulaVars stats) values rest with
  | .ok (x, _) => .ok (x ≠ 0)
  | .error .underflow => .error (.other "RPN Stack underflow")
  | .error .undefined => .error (.other "")

/-- The world whose characters have these stats. -/
def withStats (host : QuestHost σ) (math : RpnMath K ρ) (random : σ → ρ)
    (stats : σ → ℕ → String → ℤ) : QuestHost σ :=
  { host with
    view := fun rest character =>
      { host.view rest character with
        rpnEval := formulaHolds math (stats rest character) (random rest) } }

/-! ## Comparisons -/

section Comparisons
variable [IsStrictOrderedRing K]

/-- Between integers, less than one makes no difference. -/
theorem lt_sub_iff {e : K} (hpos : 0 ≤ e) (hone : e < 1) (z n : ℤ) : (z : K) < n - e ↔ z < n := by
  constructor
  · intro h
    have hlt : (z : K) < n := by linarith
    exact Int.cast_lt.1 hlt
  · intro h
    have hle : (z : K) + 1 ≤ n := by exact_mod_cast h
    linarith

theorem add_lt_iff {e : K} (hpos : 0 ≤ e) (hone : e < 1) (z n : ℤ) : (n : K) + e < z ↔ n < z := by
  have hsub := lt_sub_iff hpos hone n z
  rw [← hsub, lt_sub_iff_add_lt]

theorem sub_le_iff {e : K} (hpos : 0 ≤ e) (hone : e < 1) (z n : ℤ) : (n : K) - e ≤ z ↔ n ≤ z := by
  rw [← not_lt, lt_sub_iff hpos hone, not_lt]

theorem le_add_iff {e : K} (hpos : 0 ≤ e) (hone : e < 1) (z n : ℤ) : (z : K) ≤ n + e ↔ z ≤ n := by
  rw [← not_lt, add_lt_iff hpos hone, not_lt]

theorem rpnCmpEpsilon_nonneg : (0 : K) ≤ rpnCmpEpsilon := by
  unfold rpnCmpEpsilon
  positivity

theorem rpnCmpEpsilon_lt_one : (rpnCmpEpsilon : K) < 1 := by
  unfold rpnCmpEpsilon
  norm_num

theorem rpnCmpEpsilon2_nonneg : (0 : K) ≤ rpnCmpEpsilon2 :=
  div_nonneg rpnCmpEpsilon_nonneg zero_le_two

theorem rpnCmpEpsilon2_lt_one : (rpnCmpEpsilon2 : K) < 1 :=
  (half_le_self rpnCmpEpsilon_nonneg).trans_lt rpnCmpEpsilon_lt_one

theorem eq_epsilon_iff (z n : ℤ) :
    (n : K) - rpnCmpEpsilon2 ≤ z ∧ (z : K) ≤ n + rpnCmpEpsilon2 ↔ z = n := by
  rw [sub_le_iff rpnCmpEpsilon2_nonneg rpnCmpEpsilon2_lt_one,
    le_add_iff rpnCmpEpsilon2_nonneg rpnCmpEpsilon2_lt_one, le_antisymm_iff, and_comm]

theorem toInt_ofBool (b : Bool) : toInt (ofBool b : K) = if b then 1 else 0 := by
  unfold toInt ofBool
  cases b with
  | true =>
      rw [if_pos rfl, Int.floor_eq_iff]
      norm_num
  | false =>
      rw [if_neg Bool.false_ne_true, Int.floor_eq_iff]
      norm_num

end Comparisons

/-! ## Formulas of two operands -/

variable {math : RpnMath K ρ} {vars : String → Option K} {rest : ρ}

theorem ofBool_ne_zero (b : Bool) : decide ((ofBool b : K) ≠ 0) = b := by
  cases b <;> simp [ofBool]

theorem rpnEval_compare {v s op : Variant} {f : RpnFunc} {x : K} {rest' : ρ}
    (hv : IsOperand v) (hs : IsOperand s)
    (hfind : rpnEvalFuncs.find? (RpnFunc.isMatch op.toText) = some f) (hargs : f.args = 2)
    (hvalue : evalFunc math f.func [operand vars s, operand vars v] rest = some (x, rest')) :
    rpnEval math vars [v, s, op] rest = .ok (x, rest') := by
  rw [rpnEval, rpnLoop_operand hv, rpnLoop_operand hs, rpnLoop_binary hfind hargs hvalue]
  rfl

theorem formulaHolds_of_ofBool {stats : String → ℤ} {values : List Variant} {b : Bool} {rest' : ρ}
    (h : rpnEval math (formulaVars stats) values rest = .ok (ofBool b, rest')) :
    formulaHolds math stats rest values = .ok b := by
  rw [formulaHolds, h]
  exact congrArg Except.ok (ofBool_ne_zero b)

/-- A statistic is compared with a number. -/
theorem formulaHolds_compare [CharZero K] {stats : String → ℤ} {s v op : Variant} {n : ℕ}
    {f : RpnFunc} {p : Prop} [Decidable p] (hs : s.toText ∈ formulaNames)
    (hv : v.toText = toString (n : ℤ))
    (hfind : rpnEvalFuncs.find? (RpnFunc.isMatch op.toText) = some f) (hargs : f.args = 2)
    (hvalue : evalFunc math f.func [(stats s.toText : K), (n : ℤ)] rest =
      some (ofBool (decide p), rest)) :
    formulaHolds math stats rest [v, s, op] = .ok (decide p) := by
  apply formulaHolds_of_ofBool
  apply rpnEval_compare (isOperand_of_number hv) (isOperand_of_name hs) hfind hargs
  rw [operand_of_name stats hs, operand_of_number stats hv, hvalue]

section Stats
variable [IsStrictOrderedRing K] {stats : String → ℤ} {s v high : Variant} {n m : ℕ}

theorem formulaHolds_eq (hs : s.toText ∈ formulaNames) (hv : v.toText = toString (n : ℤ)) :
    formulaHolds math stats rest [v, s, .text "="] = .ok (decide (stats s.toText = n)) := by
  have hfind : rpnEvalFuncs.find? (RpnFunc.isMatch (Variant.text "=").toText) =
      some ⟨'=', "eq", 2, .eq⟩ := by
    decide
  have heq := eq_epsilon_iff (K := K) (stats s.toText) n
  apply formulaHolds_compare hs hv hfind rfl
  rw [evalFunc, ← Bool.decide_and, decide_eq_decide.2 heq]

theorem formulaHolds_lt (hs : s.toText ∈ formulaNames) (hv : v.toText = toString (n : ℤ)) :
    formulaHolds math stats rest [v, s, .text "<"] = .ok (decide (stats s.toText < n)) := by
  have hfind : rpnEvalFuncs.find? (RpnFunc.isMatch (Variant.text "<").toText) =
      some ⟨'<', "lt", 2, .lt⟩ := by
    decide
  have hlt := lt_sub_iff (K := K) rpnCmpEpsilon_nonneg rpnCmpEpsilon_lt_one (stats s.toText) n
  apply formulaHolds_compare hs hv hfind rfl
  rw [evalFunc, decide_eq_decide.2 hlt]

theorem formulaHolds_gt (hs : s.toText ∈ formulaNames) (hv : v.toText = toString (n : ℤ)) :
    formulaHolds math stats rest [v, s, .text ">"] = .ok (decide (n < stats s.toText)) := by
  have hfind : rpnEvalFuncs.find? (RpnFunc.isMatch (Variant.text ">").toText) =
      some ⟨'>', "gt", 2, .gt⟩ := by
    decide
  have hgt := add_lt_iff (K := K) rpnCmpEpsilon_nonneg rpnCmpEpsilon_lt_one (stats s.toText) n
  apply formulaHolds_compare hs hv hfind rfl
  rw [evalFunc, decide_eq_decide.2 hgt]

theorem land_ofBool (a b : Bool) :
    (((toInt (ofBool a : K)).land (toInt (ofBool b : K)) : ℤ) : K) = ofBool (a && b) := by
  have hland : Int.land (if a then 1 else 0) (if b then 1 else 0) = if a && b then 1 else 0 := by
    cases a <;> cases b <;> rfl
  rw [toInt_ofBool, toInt_ofBool, hland, ofBool]
  split_ifs <;> simp

/-- Both comparisons are made, and the values are taken as bits. -/
theorem formulaHolds_between (hs : s.toText ∈ formulaNames) (hv : v.toText = toString (n : ℤ))
    (hhigh : high.toText = toString (m : ℤ)) :
    formulaHolds math stats rest [v, s, .text "gte", high, s, .text "lte", .text "&"] =
      .ok (decide (stats s.toText ≤ m) && decide (n ≤ stats s.toText)) := by
  have hgte : rpnEvalFuncs.find? (RpnFunc.isMatch (Variant.text "gte").toText) =
      some ⟨' ', "gte", 2, .gte⟩ := by
    decide
  have hlte : rpnEvalFuncs.find? (RpnFunc.isMatch (Variant.text "lte").toText) =
      some ⟨' ', "lte", 2, .lte⟩ := by
    decide
  have hand : rpnEvalFuncs.find? (RpnFunc.isMatch (Variant.text "&").toText) =
      some ⟨'&', "and", 2, .and⟩ := by
    decide
  have hname := isOperand_of_name hs
  have hlow : evalFunc math .gte [(stats s.toText : K), (n : ℤ)] rest =
      some (ofBool (decide (n ≤ stats s.toText)), rest) := by
    rw [evalFunc, decide_eq_decide.2 (sub_le_iff rpnCmpEpsilon_nonneg rpnCmpEpsilon_lt_one _ _)]
  have hup : evalFunc math .lte [(stats s.toText : K), (m : ℤ)] rest =
      some (ofBool (decide (stats s.toText ≤ m)), rest) := by
    rw [evalFunc, decide_eq_decide.2 (le_add_iff rpnCmpEpsilon_nonneg rpnCmpEpsilon_lt_one _ _)]
  have hboth : evalFunc math .and
      [ofBool (decide (stats s.toText ≤ m)), (ofBool (decide (n ≤ stats s.toText)) : K)] rest =
        some (ofBool (decide (stats s.toText ≤ m) && decide (n ≤ stats s.toText)), rest) := by
    rw [evalFunc, land_ofBool]
  apply formulaHolds_of_ofBool
  rw [rpnEval, rpnLoop_operand (isOperand_of_number hv), rpnLoop_operand hname,
    operand_of_name stats hs, operand_of_number stats hv, rpnLoop_binary hgte rfl hlow,
    rpnLoop_operand (isOperand_of_number hhigh), rpnLoop_operand hname,
    operand_of_name stats hs, operand_of_number stats hhigh, rpnLoop_binary hlte rfl hup,
    rpnLoop_binary hand rfl hboth]
  rfl

end Stats

/-! ## Rules -/

/-- The rule is checked and holds. -/
def Holds (host : QuestHost σ) (x : ℕ) (w : QuestWorld σ) (expr : Expression) : Prop :=
  ∃ w', host.checkRule x expr w = .done true w'

variable {host : QuestHost σ} {random : σ → ρ} {stats : σ → ℕ → String → ℤ} {x : ℕ}
  {w : QuestWorld σ} {s v high : Variant} {n m : ℕ}

theorem checkRule_of_enabled (h : (w.contexts x).quest.disabled = false) (expr : Expression) :
    host.checkRule x expr w = host.checkEnabledRule x expr w := by
  change (if (w.contexts x).quest.disabled then pure false else _ : QuestExec σ Bool) w = _
  rw [h, if_neg Bool.false_ne_true]

/-- A rule that is a formula holds where the formula does. -/
theorem holds_iff_of_formula {expr : Expression} {values : List Variant} {b : Bool}
    (henabled : (w.contexts x).quest.disabled = false)
    (hrule : (withStats host math random stats).checkEnabledRule x expr w =
      ArenaServ.QuestHost.rpnCharEval
        ((withStats host math random stats).view w.rest (w.contexts x).character) values w)
    (hformula : formulaHolds math (stats w.rest (w.contexts x).character) (random w.rest) values =
      .ok b) :
    Holds (withStats host math random stats) x w expr ↔ b = true := by
  have hcheck : (withStats host math random stats).checkRule x expr w = .done b w := by
    have hview : ((withStats host math random stats).view w.rest (w.contexts x).character).rpnEval
        values = .ok b := hformula
    rw [checkRule_of_enabled henabled, hrule, ArenaServ.QuestHost.rpnCharEval, hview]
    rfl
  rw [Holds, hcheck]
  constructor
  · rintro ⟨w', h⟩
    cases h
    rfl
  · rintro rfl
    exact ⟨w, rfl⟩

section Rules
variable [IsStrictOrderedRing K] (henabled : (w.contexts x).quest.disabled = false)
  (hs : s.toText ∈ formulaNames) (hv : v.toText = toString (n : ℤ))

include henabled hs hv

theorem holds_statis_iff :
    Holds (withStats host math random stats) x w ⟨"statis", [s, v]⟩ ↔
      stats w.rest (w.contexts x).character s.toText = n := by
  rw [holds_iff_of_formula henabled rfl (formulaHolds_eq hs hv), decide_eq_true_eq]

theorem holds_statless_iff :
    Holds (withStats host math random stats) x w ⟨"statless", [s, v]⟩ ↔
      stats w.rest (w.contexts x).character s.toText < n := by
  rw [holds_iff_of_formula henabled rfl (formulaHolds_lt hs hv), decide_eq_true_eq]

theorem holds_statgreater_iff :
    Holds (withStats host math random stats) x w ⟨"statgreater", [s, v]⟩ ↔
      n < stats w.rest (w.contexts x).character s.toText := by
  rw [holds_iff_of_formula henabled rfl (formulaHolds_gt hs hv), decide_eq_true_eq]

theorem holds_statbetween_iff (hhigh : high.toText = toString (m : ℤ)) :
    Holds (withStats host math random stats) x w ⟨"statbetween", [s, v, high]⟩ ↔
      stats w.rest (w.contexts x).character s.toText ≤ m ∧
        n ≤ stats w.rest (w.contexts x).character s.toText := by
  rw [holds_iff_of_formula henabled rfl (formulaHolds_between hs hv hhigh), Bool.and_eq_true,
    decide_eq_true_eq, decide_eq_true_eq]

end Rules

/-- The rule `statnot` is the rule `statis`, so it never holds exactly where that does not. The
others agree: a stat is less than a number, is it or is greater, and it is between two numbers where
it is not less than the first and not greater than the second. -/
theorem stat_rules [IsStrictOrderedRing K] (host : QuestHost σ) (math : RpnMath K ρ)
    (random : σ → ρ) (stats : σ → ℕ → String → ℤ) (x : ℕ) (w : QuestWorld σ) (s v high : Variant) :
    let known := withStats host math random stats
    ¬(Holds known x w ⟨"statnot", [s, v]⟩ ↔ ¬Holds known x w ⟨"statis", [s, v]⟩) ∧
    ((w.contexts x).quest.disabled = false → s.toText ∈ formulaNames →
      ∀ n m : ℕ, v.toText = toString (n : ℤ) → high.toText = toString (m : ℤ) →
        ((Holds known x w ⟨"statless", [s, v]⟩ ∧ ¬Holds known x w ⟨"statis", [s, v]⟩ ∧
            ¬Holds known x w ⟨"statgreater", [s, v]⟩) ∨
          (¬Holds known x w ⟨"statless", [s, v]⟩ ∧ Holds known x w ⟨"statis", [s, v]⟩ ∧
            ¬Holds known x w ⟨"statgreater", [s, v]⟩) ∨
          (¬Holds known x w ⟨"statless", [s, v]⟩ ∧ ¬Holds known x w ⟨"statis", [s, v]⟩ ∧
            Holds known x w ⟨"statgreater", [s, v]⟩)) ∧
        (Holds known x w ⟨"statbetween", [s, v, high]⟩ ↔
          ¬Holds known x w ⟨"statless", [s, v]⟩ ∧
            ¬Holds known x w ⟨"statgreater", [s, high]⟩)) := by
  intro known
  constructor
  · have hsame : Holds known x w ⟨"statnot", [s, v]⟩ ↔ Holds known x w ⟨"statis", [s, v]⟩ := Iff.rfl
    rw [hsame]
    exact iff_not_self
  · intro henabled hs n m hv hhigh
    rw [holds_statis_iff henabled hs hv, holds_statless_iff henabled hs hv,
      holds_statgreater_iff henabled hs hv, holds_statbetween_iff henabled hs hv hhigh,
      holds_statgreater_iff henabled hs hhigh]
    constructor
    · omega
    · omega

def leveledQuest : ArenaServ.Quest :=
  ⟨1, ⟨⟨.notHidden, false⟩, SortedMap.empty⟩, ArenaServ.validateQuest_stateless⟩

/-- A character whose stats are all 5 has a quest. -/
def leveledWorld : QuestWorld Unit :=
  (QuestWorld.start (.single leveledQuest) ()).newContext (.new 3 leveledQuest)

theorem stat_rules_level :
    let known := withStats idleHost plainMath id fun _ _ _ => 5
    ¬(Holds known 0 leveledWorld ⟨"statnot", [.text "level", .int 5]⟩ ↔
        ¬Holds known 0 leveledWorld ⟨"statis", [.text "level", .int 5]⟩) ∧
      (Holds known 0 leveledWorld ⟨"statbetween", [.text "level", .int 5, .int 7]⟩ ↔
        ¬Holds known 0 leveledWorld ⟨"statless", [.text "level", .int 5]⟩ ∧
          ¬Holds known 0 leveledWorld ⟨"statgreater", [.text "level", .int 7]⟩) := by
  have hrules := stat_rules idleHost plainMath id (fun _ _ _ => 5) 0 leveledWorld (.text "level")
    (.int 5) (.int 7)
  have hlevel : (Variant.text "level").toText ∈ formulaNames := by decide
  have hfive : (Variant.int 5).toText = toString ((5 : ℕ) : ℤ) := by decide
  have hseven : (Variant.int 7).toText = toString ((7 : ℕ) : ℤ) := by decide
  exact ⟨hrules.1, (hrules.2 rfl hlevel 5 7 hfive hseven).2⟩

/-- At level 5, the level is 5 and is not. -/
theorem not_statnot_level :
    Holds (withStats idleHost plainMath id fun _ _ _ => 5) 0 leveledWorld
        ⟨"statis", [.text "level", .int 5]⟩ ∧
      Holds (withStats idleHost plainMath id fun _ _ _ => 5) 0 leveledWorld
        ⟨"statnot", [.text "level", .int 5]⟩ := by
  have hlevel : (Variant.text "level").toText ∈ formulaNames := by decide
  have hfive : (Variant.int 5).toText = toString ((5 : ℕ) : ℤ) := by decide
  have hstatis : Holds (withStats idleHost plainMath id fun _ _ _ => 5) 0 leveledWorld
      ⟨"statis", [.text "level", .int 5]⟩ := by
    rw [holds_statis_iff rfl hlevel hfive]
    rfl
  exact ⟨hstatis, hstatis⟩

end Rpn
