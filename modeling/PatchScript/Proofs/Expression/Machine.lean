import PatchScript.Expression.Basic

/-!
# The machine computes the value

Running the machine on an expression, with other tasks behind it, either puts the value of the
expression on the stack and goes on with those tasks, or stops at the overflow that the expression
has for a value. No task ever misses its numbers, and the bound on the steps is never reached.

## Main results

* `runTasks_visit` — visiting an expression in front of other tasks
* `Expression.evaluate_eq_value` — the machine finds the value
-/

namespace PatchScript

namespace Expression

/-- How many steps the machine takes for an expression that has a value. -/
def steps : Expression → Nat
  | .number _ => 1
  | .signed _ operand => operand.steps + 2
  | .binary _ left right => left.steps + right.steps + 2

theorem steps_le (e : Expression) : e.steps + 1 ≤ 2 * e.size := by
  induction e with
  | number n => simp [steps, size]
  | signed sign operand ih => simp only [steps, size]; omega
  | binary operator left right ihl ihr => simp only [steps, size]; omega

end Expression

/-- What the machine answers when an expression in front of other tasks has the given value. -/
def continueWith (bound : Nat) (tasks : List Task) (stack : List Number) :
    Except Overflow Number → Except MachineFault Number
  | .ok n => runTasks bound tasks (n :: stack)
  | .error cause => .error (.overflow cause)

/-- **Visiting an expression** takes its steps and leaves its value, or stops at its overflow. -/
theorem runTasks_visit (e : Expression) (bound : Nat) (tasks : List Task) (stack : List Number) :
    runTasks (e.steps + bound) (.visit e :: tasks) stack =
      continueWith bound tasks stack e.value := by
  induction e generalizing bound tasks stack with
  | number n =>
    rw [Expression.steps, Nat.add_comm, runTasks]
    rfl
  | signed sign operand ih =>
    have count : (Expression.signed sign operand).steps + bound =
        operand.steps + (bound + 1) + 1 := by
      rw [Expression.steps]
      omega
    rw [count, runTasks, ih, Expression.value]
    cases operand.value with
    | ok n => rfl
    | error cause => rfl
  | binary operator left right ihl ihr =>
    have count : (Expression.binary operator left right).steps + bound =
        left.steps + (right.steps + (bound + 1)) + 1 := by
      rw [Expression.steps]
      omega
    rw [count, runTasks, ihl, Expression.value]
    cases left.value with
    | error cause => rfl
    | ok a =>
      rw [continueWith, ihr]
      cases right.value with
      | error cause => rfl
      | ok b =>
        rw [continueWith, runTasks]
        cases happly : operator.apply a b <;> simp [bind, Except.bind, happly, continueWith]

/-- With enough steps the machine finds the value of an expression, or its first overflow. -/
theorem runTasks_of_steps_le {e : Expression} {bound : Nat} (h : e.steps ≤ bound) :
    runTasks bound [.visit e] [] = e.value.mapError .overflow := by
  obtain ⟨more, rfl⟩ := Nat.exists_eq_add_of_le h
  rw [runTasks_visit]
  cases e.value with
  | ok n =>
    rw [continueWith, runTasks]
    rfl
  | error cause => rfl

/-- **The machine finds the value** of an expression, or its first overflow. -/
theorem Expression.evaluate_eq_value (e : Expression) :
    e.evaluate = e.value.mapError .overflow :=
  runTasks_of_steps_le (Nat.le_of_succ_le e.steps_le)

end PatchScript
