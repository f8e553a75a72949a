import Mathlib.Data.List.Basic

/-!
# A stack machine

A program pushes values and calls functions, which take their arguments off the stack, the top
first, and push what they give. A function need not be defined, and it may use and change a rest of
the world.
-/

namespace StackMachine

variable {α ρ : Type*}

inductive Failure where
  | underflow
  | undefined
  deriving DecidableEq

inductive Instr (α ρ : Type*) where
  | push (a : α)
  | call (args : ℕ) (func : List α → ρ → Option (α × ρ))

/-- The call of a function whose arguments are on the stack. -/
def apply (args : ℕ) (func : List α → ρ → Option (α × ρ)) (stack : List α) (rest : ρ) :
    Except Failure (List α × ρ) :=
  match func (stack.take args) rest with
  | none => .error .undefined
  | some (a, rest') => .ok (a :: stack.drop args, rest')

def step : Instr α ρ → List α → ρ → Except Failure (List α × ρ)
  | .push a, stack, rest => .ok (a :: stack, rest)
  | .call args func, stack, rest =>
      if stack.length < args then .error .underflow else apply args func stack rest

/-- What is on top of the stack at the end of a program. -/
def run : List (Instr α ρ) → List α → ρ → Except Failure (α × ρ)
  | [], [], _ => .error .underflow
  | [], a :: _, rest => .ok (a, rest)
  | i :: program, stack, rest =>
      match step i stack rest with
      | .error e => .error e
      | .ok (stack', rest') => run program stack' rest'

theorem run_of_ok {i : Instr α ρ} {stack stack' : List α} {rest rest' : ρ}
    (h : step i stack rest = .ok (stack', rest')) (program : List (Instr α ρ)) :
    run (i :: program) stack rest = run program stack' rest' := by
  rw [run, h]

theorem run_of_error {i : Instr α ρ} {stack : List α} {rest : ρ} {e : Failure}
    (h : step i stack rest = .error e) (program : List (Instr α ρ)) :
    run (i :: program) stack rest = .error e := by
  rw [run, h]

theorem run_push (a : α) (program : List (Instr α ρ)) (stack : List α) (rest : ρ) :
    run (.push a :: program) stack rest = run program (a :: stack) rest := run_of_ok rfl program

theorem run_call {args : ℕ} {func : List α → ρ → Option (α × ρ)} {stack : List α} {rest rest' : ρ}
    {a : α} (hargs : args ≤ stack.length) (h : func (stack.take args) rest = some (a, rest'))
    (program : List (Instr α ρ)) :
    run (.call args func :: program) stack rest = run program (a :: stack.drop args) rest' := by
  apply run_of_ok
  rw [step, if_neg (Nat.not_lt.2 hargs), apply, h]

/-- A value that is pushed last is what is left on top, unless the program fails before. -/
theorem run_concat_push (program : List (Instr α ρ)) (a b : α) (stack : List α) (rest rest' : ρ)
    (h : run (program ++ [.push a]) stack rest = .ok (b, rest')) : b = a := by
  induction program generalizing stack rest with
  | nil =>
      cases h
      rfl
  | cons i program ih =>
      rw [List.cons_append] at h
      cases hstep : step i stack rest with
      | error e =>
          rw [run_of_error hstep] at h
          cases h
      | ok s =>
          obtain ⟨stack', rest₁⟩ := s
          rw [run_of_ok hstep] at h
          exact ih stack' rest₁ h

end StackMachine
