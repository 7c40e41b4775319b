import PatchScript.Number.Basic

/-!
# Arithmetic expressions

An expression is a number, a signed expression, or two expressions joined by one of the operators
`+ - * / %`. It has a value unless an operation overflows; operands are evaluated from the left, so
the first overflow is the one reported.

## Main definitions

* `Expression`: the expressions.
* `Expression.value`: the value, by recursion on the expression.
* `Task`, `runTasks`, `Expression.evaluate`: the value, by a machine with a list of tasks and a
  stack of numbers, which needs no recursion as deep as the expression.
-/

namespace PatchScript

/-- The signs. -/
inductive Sign where
  | plus
  | minus
deriving DecidableEq

/-- The operators. -/
inductive Operator where
  | add
  | sub
  | mul
  | div
  | rem
deriving DecidableEq

/-- The character of a sign. -/
def Sign.symbol : Sign → Char
  | .plus => '+'
  | .minus => '-'

/-- The character of an operator. -/
def Operator.symbol : Operator → Char
  | .add => '+'
  | .sub => '-'
  | .mul => '*'
  | .div => '/'
  | .rem => '%'

/-- An arithmetic expression. -/
inductive Expression where
  | number (n : Number)
  | signed (sign : Sign) (operand : Expression)
  | binary (operator : Operator) (left right : Expression)
deriving DecidableEq

/-- Applies a sign. -/
def Sign.apply : Sign → Number → Number
  | .plus, n => n
  | .minus, n => n.neg

/-- Applies an operator. -/
def Operator.apply : Operator → Number → Number → Except Overflow Number
  | .add => Number.add
  | .sub => Number.sub
  | .mul => Number.mul
  | .div => Number.divide
  | .rem => Number.remainder

namespace Expression

/-- The value of an expression. -/
def value : Expression → Except Overflow Number
  | .number n => .ok n
  | .signed sign operand => do return sign.apply (← value operand)
  | .binary operator left right => do
    let a ← value left
    let b ← value right
    operator.apply a b

/-- The number of parts of an expression. -/
def size : Expression → Nat
  | .number _ => 1
  | .signed _ operand => size operand + 1
  | .binary _ left right => size left + size right + 1

end Expression

/-! ### Evaluation with a stack -/

/-- What the machine still has to do: evaluate an expression, or apply a sign or an operator to the
numbers on top of its stack. -/
inductive Task where
  | visit (e : Expression)
  | sign (s : Sign)
  | operate (o : Operator)

/-- Why the machine stops without a number. -/
inductive MachineFault where
  | overflow (cause : Overflow)
  /-- The stack does not hold the numbers that a task needs. -/
  | stack
  /-- Tasks are left when the bound on the steps is reached. -/
  | unfinished
deriving DecidableEq

/-- Runs a list of tasks on a stack, for a bounded number of steps. -/
def runTasks : (bound : Nat) → List Task → List Number → Except MachineFault Number
  | _, [], [n] => .ok n
  | _, [], _ => .error .stack
  | 0, _ :: _, _ => .error .unfinished
  | bound + 1, .visit (.number n) :: tasks, stack => runTasks bound tasks (n :: stack)
  | bound + 1, .visit (.signed s e) :: tasks, stack =>
    runTasks bound (.visit e :: .sign s :: tasks) stack
  | bound + 1, .visit (.binary o a b) :: tasks, stack =>
    runTasks bound (.visit a :: .visit b :: .operate o :: tasks) stack
  | bound + 1, .sign s :: tasks, n :: stack => runTasks bound tasks (s.apply n :: stack)
  | bound + 1, .operate o :: tasks, b :: a :: stack =>
    match o.apply a b with
    | .ok n => runTasks bound tasks (n :: stack)
    | .error cause => .error (.overflow cause)
  | _ + 1, _ :: _, _ => .error .stack

/-- The value of an expression, found by the machine. Each part is visited once and applied at most
once. -/
def Expression.evaluate (e : Expression) : Except MachineFault Number :=
  runTasks (2 * e.size) [.visit e] []

end PatchScript
