import ArenaServ.QuestFile
import ArenaServ.StackMachine
import Mathlib.Algebra.Order.Field.Basic
import Mathlib.Algebra.Order.Floor.Ring
import Mathlib.Data.Int.Bitwise

/-!
# Formulas in reverse notation

`rpn_parse` and `rpn_eval`. Numbers are exact: they are of an ordered field with integer parts.
What the field leaves open, a division by zero among it, has no result.
-/

namespace Rpn

open ArenaServ.EOPlus StackMachine

/-! ## Functions -/

/-- The functions of `<cmath>`, and the random numbers. -/
structure RpnMath (K ρ : Type) where
  pow : K → K → Option K
  sqrt : K → Option K
  log10 : K → Option K
  exp : K → Option K
  log : K → Option K
  sin : K → Option K
  cos : K → Option K
  tan : K → Option K
  rand : ρ → K → K → K × ρ

inductive RpnCode where
  | add | sub | mul | div | mod | and | or | xor | not | pow | sqrt | log | exp | ln | sin | cos
  | tan | rand | min | max | ceil | round | floor | lt | lte | eq | gte | gt | iif
  deriving DecidableEq

/-- `rpn_eval_func`. -/
structure RpnFunc where
  op : Char
  name : String
  args : ℕ
  func : RpnCode
  deriving DecidableEq

def rpnEvalFuncs : List RpnFunc :=
  [⟨'+', "add", 2, .add⟩, ⟨'-', "sub", 2, .sub⟩, ⟨'*', "mul", 2, .mul⟩, ⟨'/', "div", 2, .div⟩,
    ⟨'%', "mod", 2, .mod⟩, ⟨'&', "and", 2, .and⟩, ⟨'|', "or", 2, .or⟩, ⟨'^', "xor", 2, .xor⟩,
    ⟨'~', "not", 1, .not⟩, ⟨' ', "pow", 2, .pow⟩, ⟨' ', "sqrt", 1, .sqrt⟩, ⟨' ', "log", 1, .log⟩,
    ⟨' ', "exp", 1, .exp⟩, ⟨' ', "ln", 1, .ln⟩, ⟨' ', "sin", 1, .sin⟩, ⟨' ', "cos", 1, .cos⟩,
    ⟨' ', "tan", 1, .tan⟩, ⟨' ', "rand", 2, .rand⟩, ⟨' ', "min", 2, .min⟩, ⟨' ', "max", 2, .max⟩,
    ⟨' ', "ceil", 1, .ceil⟩, ⟨' ', "round", 1, .round⟩, ⟨' ', "floor", 1, .floor⟩,
    ⟨'<', "lt", 2, .lt⟩, ⟨' ', "lte", 2, .lte⟩, ⟨'=', "eq", 2, .eq⟩, ⟨' ', "gte", 2, .gte⟩,
    ⟨'>', "gt", 2, .gt⟩, ⟨'?', "iif", 3, .iif⟩]

section
variable {K ρ : Type} [Field K] [LinearOrder K] [FloorRing K]

def rpnCmpEpsilon : K := 1 / 10000

def rpnCmpEpsilon2 : K := rpnCmpEpsilon / 2

/-- `int(std::floor(x + 0.5))`. -/
def toInt (x : K) : ℤ := ⌊x + 1 / 2⌋

def ofBool (b : Bool) : K := if b then 1 else 0

def evalFunc (math : RpnMath K ρ) : RpnCode → List K → ρ → Option (K × ρ)
  | .add, [x, y], r => some (x + y, r)
  | .sub, [x, y], r => some (x - y, r)
  | .mul, [x, y], r => some (x * y, r)
  | .div, [x, y], r => if y = 0 then none else some (x / y, r)
  | .mod, [x, y], r => if toInt y = 0 then none else some (((toInt x).tmod (toInt y) : ℤ), r)
  | .and, [x, y], r => some (((toInt x).land (toInt y) : ℤ), r)
  | .or, [x, y], r => some (((toInt x).lor (toInt y) : ℤ), r)
  | .xor, [x, y], r => some (((toInt x).xor (toInt y) : ℤ), r)
  | .not, [x], r => some (((toInt x).lnot : ℤ), r)
  | .pow, [x, y], r => (math.pow x y).map (·, r)
  | .sqrt, [x], r => (math.sqrt x).map (·, r)
  | .log, [x], r => (math.log10 x).map (·, r)
  | .exp, [x], r => (math.exp x).map (·, r)
  | .ln, [x], r => (math.log x).map (·, r)
  | .sin, [x], r => (math.sin x).map (·, r)
  | .cos, [x], r => (math.cos x).map (·, r)
  | .tan, [x], r => (math.tan x).map (·, r)
  | .rand, [x, y], r => some (math.rand r x y)
  | .min, [x, y], r => some (min x y, r)
  | .max, [x, y], r => some (max x y, r)
  | .ceil, [x], r => some ((⌈x⌉ : ℤ), r)
  | .round, [x], r => some ((toInt x : ℤ), r)
  | .floor, [x], r => some ((⌊x⌋ : ℤ), r)
  | .lt, [x, y], r => some (ofBool (x < y - rpnCmpEpsilon), r)
  | .lte, [x, y], r => some (ofBool (x ≤ y + rpnCmpEpsilon), r)
  | .eq, [x, y], r =>
      some (ofBool (y - rpnCmpEpsilon2 ≤ x && decide (x ≤ y + rpnCmpEpsilon2)), r)
  | .gte, [x, y], r => some (ofBool (y - rpnCmpEpsilon ≤ x), r)
  | .gt, [x, y], r => some (ofBool (y + rpnCmpEpsilon < x), r)
  | .iif, [x, y, z], r => some (if toInt x = 0 then z else y, r)
  | _, _, _ => none

/-! ## The stack of tokens -/

/-- One character of the loop of `rpn_parse`, which goes from the last to the first; `tok` is
reversed. -/
def parseChar (c : Char) (s : List (List Char) × List Char) : List (List Char) × List Char :=
  if c ≠ ' ' then (s.1, s.2 ++ [c])
  else if s.2 ≠ [] then (s.2.reverse :: s.1, [])
  else s

/-- The tokens, the first on top. From an empty text, a character in front of it would be read. -/
def rpnParse (expr : String) : Except Failure (List Variant) :=
  let s := expr.toList.foldr parseChar ([], [])
  if expr.toList = [] then .error .undefined
  else .ok ((if s.2 ≠ [] then s.2.reverse :: s.1 else s.1).map fun tok => .text (String.ofList tok))

/-! ## Evaluation -/

/-- A token stands for a function by its name or by its first character. -/
def RpnFunc.isMatch (val : String) (f : RpnFunc) : Bool :=
  val = f.name || (f.op ≠ ' ' && val.toList.head? = some f.op)

/-- A variant as a number. -/
def toNumber : Variant → K
  | .int value => (value.toInt : ℤ)
  | .text value => (ArenaServ.Util.tdparse value.toList : ℚ)

def operand (vars : String → Option K) (val : Variant) : K :=
  (vars val.toText).getD (toNumber val)

/-- The loop of `rpn_eval`. Without an argument on the stack there is no top of it. -/
def rpnLoop (math : RpnMath K ρ) (vars : String → Option K) :
    List Variant → List K → ρ → Except Failure (K × ρ)
  | [], [], _ => .error .undefined
  | [], x :: _, rest => .ok (x, rest)
  | val :: stack, argstack, rest =>
      match rpnEvalFuncs.find? (RpnFunc.isMatch val.toText) with
      | some f =>
          if argstack.length < f.args then .error .underflow
          else match evalFunc math f.func (argstack.take f.args) rest with
            | none => .error .undefined
            | some (x, rest') =>
                if stack.isEmpty then .ok (x, rest')
                else rpnLoop math vars stack (x :: argstack.drop f.args) rest'
      | none => rpnLoop math vars stack (operand vars val :: argstack) rest

def rpnEval (math : RpnMath K ρ) (vars : String → Option K) (stack : List Variant) (rest : ρ) :
    Except Failure (K × ρ) := rpnLoop math vars stack [] rest

/-! ## One token -/

variable {math : RpnMath K ρ} {vars : String → Option K} {val : Variant} {stack : List Variant}
  {argstack : List K} {rest rest' : ρ} {f : RpnFunc} {x : K}

theorem rpnLoop_operand (h : rpnEvalFuncs.find? (RpnFunc.isMatch val.toText) = none) :
    rpnLoop math vars (val :: stack) argstack rest =
      rpnLoop math vars stack (operand vars val :: argstack) rest := by
  simp only [rpnLoop, h]

theorem rpnLoop_underflow (h : rpnEvalFuncs.find? (RpnFunc.isMatch val.toText) = some f)
    (hargs : argstack.length < f.args) :
    rpnLoop math vars (val :: stack) argstack rest = .error .underflow := by
  simp only [rpnLoop, h, if_pos hargs]

theorem rpnLoop_undefined (h : rpnEvalFuncs.find? (RpnFunc.isMatch val.toText) = some f)
    (hargs : f.args ≤ argstack.length)
    (hvalue : evalFunc math f.func (argstack.take f.args) rest = none) :
    rpnLoop math vars (val :: stack) argstack rest = .error .undefined := by
  simp only [rpnLoop, h, if_neg (Nat.not_lt.2 hargs), hvalue]

/-- At the last token, the value is the top of the stack. -/
theorem rpnLoop_call (h : rpnEvalFuncs.find? (RpnFunc.isMatch val.toText) = some f)
    (hargs : f.args ≤ argstack.length)
    (hvalue : evalFunc math f.func (argstack.take f.args) rest = some (x, rest')) :
    rpnLoop math vars (val :: stack) argstack rest =
      rpnLoop math vars stack (x :: argstack.drop f.args) rest' := by
  simp only [rpnLoop, h, if_neg (Nat.not_lt.2 hargs), hvalue]
  cases stack <;> rfl

theorem rpnLoop_binary {y z : K} (h : rpnEvalFuncs.find? (RpnFunc.isMatch val.toText) = some f)
    (hargs : f.args = 2) (hvalue : evalFunc math f.func [x, y] rest = some (z, rest')) :
    rpnLoop math vars (val :: stack) (x :: y :: argstack) rest =
      rpnLoop math vars stack (z :: argstack) rest' := by
  have hle : f.args ≤ (x :: y :: argstack).length := by
    rw [hargs, List.length_cons, List.length_cons]
    omega
  have htake : evalFunc math f.func ((x :: y :: argstack).take f.args) rest = some (z, rest') := by
    rw [hargs]
    exact hvalue
  rw [rpnLoop_call h hle htake, hargs]
  rfl

end

end Rpn
