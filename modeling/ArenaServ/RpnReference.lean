import ArenaServ.Rpn
import Mathlib.Data.Rat.Floor

/-!
# Formulas and what they stand for

A formula is a program of a stack machine, a token an instruction. `rpn_eval` runs this program
unless there are no tokens or one of them, which is not the symbol of a function, begins with one.
-/

namespace Rpn

open ArenaServ.EOPlus StackMachine

/-! ## The program of a formula -/

/-- What stands between spaces. -/
def tokens (expr : String) : List Variant :=
  ((ArenaServ.Util.explode ' ' expr.toList).filter (· ≠ [])).map fun tok => .text (String.ofList tok)

/-- The token is the name or the symbol of the function. -/
def RpnFunc.isToken (val : String) (f : RpnFunc) : Bool :=
  val = f.name || (f.op ≠ ' ' && val.toList = [f.op])

/-- A token that begins with the symbol of a function is itself one. -/
def IsPlain (val : String) : Prop :=
  rpnEvalFuncs.any (RpnFunc.isMatch val) = true → rpnEvalFuncs.any (RpnFunc.isToken val) = true

variable {K ρ : Type} [Field K] [LinearOrder K] [FloorRing K]

def instr (math : RpnMath K ρ) (vars : String → Option K) (val : Variant) : Instr K ρ :=
  match rpnEvalFuncs.find? (RpnFunc.isToken val.toText) with
  | some f => .call f.args (evalFunc math f.func)
  | none => .push (operand vars val)

def reference (math : RpnMath K ρ) (vars : String → Option K) (expr : String) (rest : ρ) :
    Except Failure (K × ρ) := run ((tokens expr).map (instr math vars)) [] rest

/-- `rpn_eval` of `rpn_parse`. -/
def evalText (math : RpnMath K ρ) (vars : String → Option K) (expr : String) (rest : ρ) :
    Except Failure (K × ρ) :=
  match rpnParse expr with
  | .error e => .error e
  | .ok stack => rpnEval math vars stack rest

/-- The outcome is the one of the reference, a stack underflow or a value. -/
def Meets (o reference : Except Failure (K × ρ)) : Prop := o = reference ∧ o ≠ .error .undefined

/-! ## Parsing -/

/-- By induction from the last character: what is collected is the first piece, backwards, and the
tokens are the other pieces. -/
theorem explode_eq_parse (l : List Char) :
    ∃ pieces, ArenaServ.Util.explode ' ' l = (l.foldr parseChar ([], [])).2.reverse :: pieces ∧
      pieces.filter (· ≠ []) = (l.foldr parseChar ([], [])).1 := by
  induction l with
  | nil => exact ⟨[], rfl, rfl⟩
  | cons c rest ih =>
      obtain ⟨pieces, hexplode, hpieces⟩ := ih
      rw [List.foldr_cons]
      generalize rest.foldr parseChar ([], []) = s at hexplode hpieces
      obtain ⟨stack, tok⟩ := s
      rw [ArenaServ.Util.explode, hexplode, parseChar]
      by_cases hc : c = ' '
      · rw [if_pos hc, if_neg (not_not_intro hc)]
        refine ⟨tok.reverse :: pieces, ?_, ?_⟩
        · split_ifs with htok
          · rfl
          · obtain rfl : tok = [] := not_not.1 htok
            rfl
        · rw [List.filter_cons, hpieces]
          by_cases htok : tok = [] <;> simp [htok]
      · rw [if_neg hc, if_pos hc]
        exact ⟨pieces, by simp, hpieces⟩

theorem rpnParse_eq (expr : String) :
    rpnParse expr = if expr.toList = [] then .error .undefined else .ok (tokens expr) := by
  obtain ⟨pieces, hexplode, hpieces⟩ := explode_eq_parse expr.toList
  rw [rpnParse, tokens, hexplode, List.filter_cons, hpieces]
  by_cases htok : (expr.toList.foldr parseChar ([], [])).2 = [] <;> simp [htok]

theorem tokens_of_empty {expr : String} (h : expr.toList = []) : tokens expr = [] := by
  rw [tokens, h]
  rfl

/-! ## Functions and operands -/

/-- No name or symbol stands for another function. -/
theorem find?_isMatch_of_mem :
    ∀ f ∈ rpnEvalFuncs,
      rpnEvalFuncs.find? (RpnFunc.isMatch f.name) =
        rpnEvalFuncs.find? (RpnFunc.isToken f.name) ∧
      (f.op ≠ ' ' → rpnEvalFuncs.find? (RpnFunc.isMatch (String.ofList [f.op])) =
        rpnEvalFuncs.find? (RpnFunc.isToken (String.ofList [f.op]))) := by
  decide

theorem find?_eq_none_of_any {p : RpnFunc → Bool} (h : ¬rpnEvalFuncs.any p = true) :
    rpnEvalFuncs.find? p = none := by
  rw [List.find?_eq_none]
  intro f hf hp
  exact h (List.any_eq_true.2 ⟨f, hf, hp⟩)

theorem find?_isMatch {val : String} (h : IsPlain val) :
    rpnEvalFuncs.find? (RpnFunc.isMatch val) = rpnEvalFuncs.find? (RpnFunc.isToken val) := by
  by_cases htoken : rpnEvalFuncs.any (RpnFunc.isToken val) = true
  · obtain ⟨f, hf, hval⟩ := List.any_eq_true.1 htoken
    obtain ⟨hname, hop⟩ := find?_isMatch_of_mem f hf
    rw [RpnFunc.isToken, Bool.or_eq_true, Bool.and_eq_true, decide_eq_true_eq, decide_eq_true_eq,
      decide_eq_true_eq] at hval
    rcases hval with rfl | ⟨hspace, hsymbol⟩
    · exact hname
    · have hval : val = String.ofList [f.op] := by rw [← hsymbol, String.ofList_toList]
      rw [hval]
      exact hop hspace
  · rw [find?_eq_none_of_any htoken, find?_eq_none_of_any fun hmatch => htoken (h hmatch)]

/-! ## Evaluation -/

variable {math : RpnMath K ρ} {vars : String → Option K} {rest : ρ}

/-- By induction on the tokens: the loop and the program make the same step. -/
theorem rpnLoop_eq_run {stack : List Variant} {argstack : List K}
    (hplain : ∀ val ∈ stack, IsPlain val.toText) (hne : stack ≠ [] ∨ argstack ≠ []) :
    rpnLoop math vars stack argstack rest = run (stack.map (instr math vars)) argstack rest := by
  induction stack generalizing argstack rest with
  | nil =>
      cases argstack with
      | nil => simp at hne
      | cons x argstack => rfl
  | cons val stack ih =>
      have hfind := find?_isMatch (hplain val List.mem_cons_self)
      have hrest : ∀ v ∈ stack, IsPlain v.toText := fun v hv => hplain v (List.mem_cons_of_mem _ hv)
      rw [List.map_cons]
      cases hfound : rpnEvalFuncs.find? (RpnFunc.isToken val.toText) with
      | none =>
          have hinstr : instr math vars val = .push (operand vars val) := by rw [instr, hfound]
          rw [rpnLoop_operand (hfind.trans hfound), hinstr, run_push]
          exact ih hrest (Or.inr (List.cons_ne_nil _ _))
      | some f =>
          have hcall : rpnEvalFuncs.find? (RpnFunc.isMatch val.toText) = some f :=
            hfind.trans hfound
          have hinstr : instr math vars val = .call f.args (evalFunc math f.func) := by
            rw [instr, hfound]
          rw [hinstr]
          by_cases hargs : argstack.length < f.args
          · rw [rpnLoop_underflow hcall hargs, run_of_error]
            rw [step, if_pos hargs]
          · have hle := Nat.not_lt.1 hargs
            cases hvalue : evalFunc math f.func (argstack.take f.args) rest with
            | none =>
                rw [rpnLoop_undefined hcall hle hvalue, run_of_error]
                rw [step, if_neg hargs, apply, hvalue]
            | some r =>
                obtain ⟨x, rest'⟩ := r
                rw [rpnLoop_call hcall hle hvalue, run_call hle hvalue]
                exact ih hrest (Or.inr (List.cons_ne_nil _ _))

theorem evalText_of_tokens {expr : String} (h : tokens expr ≠ []) :
    evalText math vars expr rest = rpnLoop math vars (tokens expr) [] rest := by
  have hne : expr.toList ≠ [] := fun hempty => h (tokens_of_empty hempty)
  rw [evalText, rpnParse_eq, if_neg hne]
  rfl

theorem evalText_of_noTokens {expr : String} (h : tokens expr = []) :
    evalText math vars expr rest = .error .undefined := by
  rw [evalText, rpnParse_eq]
  split_ifs
  · rfl
  · rw [h]
    rfl

/-! ## A token that is misread -/

/-- The loop never asks for the variable of a token that it takes for a function. -/
theorem rpnLoop_update {name : String} (hname : rpnEvalFuncs.any (RpnFunc.isMatch name) = true)
    (x : K) (stack : List Variant) (argstack : List K) :
    rpnLoop math (Function.update vars name (some x)) stack argstack rest =
      rpnLoop math vars stack argstack rest := by
  induction stack generalizing argstack rest with
  | nil => cases argstack <;> rfl
  | cons val stack ih =>
      cases hfind : rpnEvalFuncs.find? (RpnFunc.isMatch val.toText) with
      | none =>
          have hval : val.toText ≠ name := by
            rintro rfl
            obtain ⟨f, hf, hmatch⟩ := List.any_eq_true.1 hname
            exact List.find?_eq_none.1 hfind f hf hmatch
          have hoperand : operand (Function.update vars name (some x)) val = operand vars val := by
            rw [operand, operand, Function.update_of_ne hval]
          rw [rpnLoop_operand hfind, rpnLoop_operand hfind, hoperand, ih]
      | some f =>
          by_cases hargs : argstack.length < f.args
          · rw [rpnLoop_underflow hfind hargs, rpnLoop_underflow hfind hargs]
          · have hle := Nat.not_lt.1 hargs
            cases hvalue : evalFunc math f.func (argstack.take f.args) rest with
            | none =>
                rw [rpnLoop_undefined hfind hle hvalue, rpnLoop_undefined hfind hle hvalue]
            | some r =>
                obtain ⟨y, rest'⟩ := r
                rw [rpnLoop_call hfind hle hvalue, rpnLoop_call hfind hle hvalue, ih]

theorem reference_update {expr : String} {val : Variant} {x y : K} {rest' : ρ}
    (hlast : (tokens expr).getLast? = some val)
    (hval : ¬rpnEvalFuncs.any (RpnFunc.isToken val.toText) = true)
    (h : reference math (Function.update vars val.toText (some x)) expr rest = .ok (y, rest')) :
    y = x := by
  obtain ⟨front, hfront⟩ := List.getLast?_eq_some_iff.1 hlast
  have hinstr : instr math (Function.update vars val.toText (some x)) val = .push x := by
    rw [instr, find?_eq_none_of_any hval, operand, Function.update_self]
    rfl
  rw [reference, hfront, List.map_append, List.map_singleton, hinstr] at h
  exact run_concat_push _ x y [] rest rest' h

/-- A formula whose tokens are read for what they are gives what its program gives, if and only if
there is a token and the program has an outcome. Where the last token is misread, there are
variables for which the formula gives something else, unless it throws. -/
theorem evalText_meets_iff (math : RpnMath K ρ) (vars : String → Option K) (expr : String)
    (rest : ρ) :
    ((∀ val ∈ tokens expr, IsPlain val.toText) →
      (Meets (evalText math vars expr rest) (reference math vars expr rest) ↔
        tokens expr ≠ [] ∧ reference math vars expr rest ≠ .error .undefined)) ∧
    (∀ val, (tokens expr).getLast? = some val → ¬IsPlain val.toText →
      evalText math vars expr rest ≠ .error .underflow →
      ∃ x, ¬Meets (evalText math (Function.update vars val.toText (some x)) expr rest)
        (reference math (Function.update vars val.toText (some x)) expr rest)) := by
  constructor
  · intro hplain
    by_cases htokens : tokens expr = []
    · rw [evalText_of_noTokens htokens]
      exact iff_of_false (fun h => h.2 rfl) fun h => h.1 htokens
    · have hsame : evalText math vars expr rest = reference math vars expr rest := by
        rw [evalText_of_tokens htokens, rpnLoop_eq_run hplain (Or.inl htokens), reference]
      rw [Meets, hsame]
      exact ⟨fun h => ⟨htokens, h.2⟩, fun h => ⟨rfl, h.2⟩⟩
  · intro val hlast hval hthrows
    obtain ⟨hmatch, htoken⟩ := Classical.not_imp.1 hval
    have htokens : tokens expr ≠ [] := by
      intro hnil
      rw [hnil] at hlast
      cases hlast
    have hupdate : ∀ x, evalText math (Function.update vars val.toText (some x)) expr rest =
        evalText math vars expr rest := by
      intro x
      rw [evalText_of_tokens htokens, evalText_of_tokens htokens, rpnLoop_update hmatch]
    cases hout : evalText math vars expr rest with
    | error e =>
        cases e with
        | underflow => exact absurd hout hthrows
        | undefined => exact ⟨0, fun h => h.2 ((hupdate 0).trans hout)⟩
    | ok r =>
        obtain ⟨y, rest'⟩ := r
        refine ⟨y + 1, ?_⟩
        rintro ⟨hsame, -⟩
        have hy : y = y + 1 :=
          reference_update hlast htoken (hsame.symm.trans ((hupdate (y + 1)).trans hout))
        exact one_ne_zero (left_eq_add.1 hy)

/-! ## A negative number -/

/-- No function but those of the field has a value, and nothing is random. -/
def plainMath : RpnMath ℚ Unit where
  pow _ _ := none
  sqrt _ := none
  log10 _ := none
  exp _ := none
  log _ := none
  sin _ := none
  cos _ := none
  tan _ := none
  rand _ low _ := (low, ())

/-- The last token subtracts, and the formula gives 4 - 3. -/
theorem not_meets_negative :
    ¬(evalText plainMath (fun _ => none) "3 4 -5" () = .error .underflow ∨
      Meets (evalText plainMath (fun _ => none) "3 4 -5" ())
        (reference plainMath (fun _ => none) "3 4 -5" ())) := by
  have hcode : evalText plainMath (fun _ => none) "3 4 -5" () = .ok (1, ()) := by decide +kernel
  have hreference : reference plainMath (fun _ => none) "3 4 -5" () = .ok (-5, ()) := by
    decide +kernel
  rw [hcode, hreference]
  rintro (h | ⟨h, -⟩)
  · cases h
  · exact absurd (congrArg Prod.fst (Except.ok.inj h)) (by decide)

end Rpn
