import PatchScript.Proofs.Except
import PatchScript.Proofs.Expression.Machine

/-!
# The run of the machine

The machine takes its tasks one by one. Each state of its run is seen from what is still to come:
the tasks that are left, with the numbers on the stack, stand for the value of the whole expression,
and for the applications of operators that are still to be made. One step changes neither, so every
state can be read off the expression: the numbers that a task needs are there, the applications are
made in the order of the expression, and the run ends after a known number of steps.

## Main definitions

* `Application`, `Expression.applications` — the applications of operators, in their order
* `Task.perform` — what the first task does
* `Reaches` — the states of the run for an expression
* `Outlook` — what comes next in a state

## Main results

* `runTasks_cons` — the machine performs its first task and goes on
* `Reaches.pending` — what is still to come is the same in every state
* `Expression.run_as_valued` — the machine follows the value of the expression step by step
-/

namespace PatchScript

/-! ### Applications -/

/-- An operator with the two numbers to which it is applied. -/
structure Application where
  operator : Operator
  left : Number
  right : Number
deriving DecidableEq

/-- The result of an application. -/
def Application.result (a : Application) : Except Overflow Number :=
  a.operator.apply a.left a.right

/-- The applications made for an expression: those of the left operand, then those of the right one,
and then its own. None is made after one that overflows. -/
def Expression.applications : Expression → List Application
  | .number _ => []
  | .signed _ operand => operand.applications
  | .binary operator left right =>
    match left.value, right.value with
    | .error _, _ => left.applications
    | .ok _, .error _ => left.applications ++ right.applications
    | .ok a, .ok b => left.applications ++ right.applications ++ [⟨operator, a, b⟩]

/-! ### Single tasks -/

/-- The stack with a result on top, unless there is none. -/
def pushed : Except Overflow Number → List Number → Except MachineFault (List Number)
  | .ok n, stack => .ok (n :: stack)
  | .error cause, _ => .error (.overflow cause)

@[simp] theorem pushed_ok (n : Number) (stack : List Number) :
    pushed (.ok n) stack = .ok (n :: stack) := rfl

@[simp] theorem pushed_error (cause : Overflow) (stack : List Number) :
    pushed (.error cause) stack = .error (.overflow cause) := rfl

namespace Task

/-- What a task does: the tasks that take its place, and the stack behind it. -/
def perform : Task → List Number → Except MachineFault (List Task × List Number)
  | .visit (.number n), stack => .ok ([], n :: stack)
  | .visit (.signed s operand), stack => .ok ([.visit operand, .sign s], stack)
  | .visit (.binary o left right), stack => .ok ([.visit left, .visit right, .operate o], stack)
  | .sign s, n :: stack => .ok ([], s.apply n :: stack)
  | .operate o, b :: a :: stack =>
    match o.apply a b with
    | .ok n => .ok ([], n :: stack)
    | .error cause => .error (.overflow cause)
  | _, _ => .error .stack

/-- The application that a task makes itself. -/
def application? : Task → List Number → Option Application
  | .operate o, b :: a :: _ => some ⟨o, a, b⟩
  | _, _ => none

/-- The stack behind a task and all that takes its place, by the values of expressions. -/
def settle : Task → List Number → Except MachineFault (List Number)
  | .visit e, stack => pushed e.value stack
  | .sign s, n :: stack => .ok (s.apply n :: stack)
  | .operate o, b :: a :: stack => pushed (o.apply a b) stack
  | _, _ => .error .stack

/-- The applications of a task and of all that takes its place. -/
def applications : Task → List Number → List Application
  | .visit e, _ => e.applications
  | t, stack => (t.application? stack).toList

/-- The number of steps for a task and for all that takes its place. -/
def steps : Task → Nat
  | .visit e => e.steps
  | .sign _ | .operate _ => 1

end Task

/-- The machine performs its first task and goes on with what takes its place. -/
theorem runTasks_cons (bound : Nat) (t : Task) (tasks : List Task) (stack : List Number) :
    runTasks (bound + 1) (t :: tasks) stack =
      t.perform stack >>= fun next => runTasks bound (next.1 ++ tasks) next.2 := by
  match t, stack with
  | .visit (.number n), stack => rfl
  | .visit (.signed s operand), stack => rfl
  | .visit (.binary o left right), stack => rfl
  | .sign s, [] => rfl
  | .sign s, n :: stack => rfl
  | .operate o, [] => rfl
  | .operate o, [b] => rfl
  | .operate o, b :: a :: stack =>
    rw [runTasks, Task.perform]
    cases o.apply a b <;> rfl

/-! ### Pending tasks -/

/-- The stack behind some tasks, by the values of the expressions in them. -/
def settleAll : List Task → List Number → Except MachineFault (List Number)
  | [], stack => .ok stack
  | t :: tasks, stack => t.settle stack >>= settleAll tasks

/-- The applications that are still to be made for some tasks. -/
def pendingApplications : List Task → List Number → List Application
  | [], _ => []
  | t :: tasks, stack =>
    t.applications stack ++
      match t.settle stack with
      | .ok stack => pendingApplications tasks stack
      | .error _ => []

/-- The number of steps that are still to be taken for some tasks, if none fails. -/
def pendingSteps : List Task → Nat
  | [] => 0
  | t :: tasks => t.steps + pendingSteps tasks

variable {t : Task} {tasks more : List Task} {stack stack' : List Number}

theorem settleAll_append (more tasks : List Task) (stack : List Number) :
    settleAll (more ++ tasks) stack = settleAll more stack >>= settleAll tasks := by
  induction more generalizing stack with
  | nil => rfl
  | cons t more ih =>
    rw [List.cons_append, settleAll, settleAll]
    cases t.settle stack with
    | error fault => rfl
    | ok stack => exact ih stack

theorem pendingApplications_append (more tasks : List Task) (stack : List Number) :
    pendingApplications (more ++ tasks) stack =
      pendingApplications more stack ++
        match settleAll more stack with
        | .ok stack => pendingApplications tasks stack
        | .error _ => [] := by
  induction more generalizing stack with
  | nil => rfl
  | cons t more ih =>
    rw [List.cons_append, pendingApplications, pendingApplications, settleAll, List.append_assoc]
    cases t.settle stack with
    | error fault => rfl
    | ok stack =>
      simp only [ih]
      rfl

theorem pendingSteps_append (more tasks : List Task) :
    pendingSteps (more ++ tasks) = pendingSteps more + pendingSteps tasks := by
  induction more with
  | nil => exact (Nat.zero_add _).symm
  | cons t more ih => rw [List.cons_append, pendingSteps, pendingSteps, ih, Nat.add_assoc]

/-! ### One step -/

namespace Task

/-- The ways in which a task is performed. -/
inductive Performs : Task → List Number → List Task → List Number → Prop
  | number (n : Number) (stack : List Number) :
      Performs (.visit (.number n)) stack [] (n :: stack)
  | signed (s : Sign) (operand : Expression) (stack : List Number) :
      Performs (.visit (.signed s operand)) stack [.visit operand, .sign s] stack
  | binary (o : Operator) (left right : Expression) (stack : List Number) :
      Performs (.visit (.binary o left right)) stack [.visit left, .visit right, .operate o] stack
  | sign (s : Sign) (n : Number) (stack : List Number) :
      Performs (.sign s) (n :: stack) [] (s.apply n :: stack)
  | operate {o : Operator} {a b n : Number} (stack : List Number) (found : o.apply a b = .ok n) :
      Performs (.operate o) (b :: a :: stack) [] (n :: stack)

theorem performs_of_perform (h : t.perform stack = .ok (more, stack')) :
    t.Performs stack more stack' := by
  match t, stack with
  | .visit (.number n), stack =>
    obtain ⟨rfl, rfl⟩ := by simpa [perform] using h
    exact .number n stack
  | .visit (.signed s operand), stack =>
    obtain ⟨rfl, rfl⟩ := by simpa [perform] using h
    exact .signed s operand stack
  | .visit (.binary o left right), stack =>
    obtain ⟨rfl, rfl⟩ := by simpa [perform] using h
    exact .binary o left right stack
  | .sign s, n :: stack =>
    obtain ⟨rfl, rfl⟩ := by simpa [perform] using h
    exact .sign s n stack
  | .operate o, b :: a :: stack =>
    rw [perform] at h
    cases found : o.apply a b with
    | error cause => simp [found] at h
    | ok n =>
      obtain ⟨rfl, rfl⟩ := by simpa [found] using h
      exact .operate stack found

/-- A task that cannot be performed misses numbers, or makes an application that overflows. -/
theorem fails_of_perform {fault : MachineFault} (h : t.perform stack = .error fault) :
    t.settle stack = .error fault ∧
      (fault = .stack ∨ ∃ a cause, fault = .overflow cause ∧ t.application? stack = some a ∧
        a.result = .error cause ∧ t.applications stack = [a]) := by
  match t, stack with
  | .visit (.number n), stack | .visit (.signed s operand), stack
  | .visit (.binary o left right), stack | .sign s, n :: stack => cases h
  | .sign s, [] | .operate o, [] | .operate o, [b] =>
    obtain rfl := by simpa [perform] using h
    exact ⟨rfl, .inl rfl⟩
  | .operate o, b :: a :: stack =>
    rw [perform] at h
    cases found : o.apply a b with
    | ok n => simp [found] at h
    | error cause =>
      obtain rfl := by simpa [found] using h
      refine ⟨?_, .inr ⟨⟨o, a, b⟩, cause, rfl, rfl, found, rfl⟩⟩
      rw [settle, found]
      rfl

/-- What takes the place of a task comes to the same stack. -/
theorem Performs.settle_eq (h : t.Performs stack more stack') :
    t.settle stack = settleAll more stack' := by
  cases h with
  | number | sign => rfl
  | signed s operand =>
    simp only [settle, settleAll, Expression.value]
    cases operand.value <;> rfl
  | binary o left right =>
    simp only [settle, settleAll, Expression.value]
    cases left.value with
    | error cause => rfl
    | ok a =>
      cases right.value with
      | error cause => rfl
      | ok b =>
        simp only [pushed_ok, ok_bind]
        cases o.apply a b <;> rfl
  | operate stack found =>
    rw [settle, found]
    rfl

/-- What takes the place of a task makes its applications, but for one that it makes itself. -/
theorem Performs.applications_eq (h : t.Performs stack more stack') :
    t.applications stack = (t.application? stack).toList ++ pendingApplications more stack' := by
  cases h with
  | number | sign | operate => rfl
  | signed s operand =>
    simp only [applications, application?, pendingApplications, Expression.applications, settle]
    cases operand.value <;> simp
  | binary o left right =>
    simp only [applications, application?, pendingApplications, Expression.applications, settle]
    cases left.value with
    | error cause => simp
    | ok a =>
      cases right.value with
      | error cause => simp
      | ok b =>
        simp only [pushed_ok]
        cases o.apply a b <;> simp

/-- What takes the place of a task takes one step less. -/
theorem Performs.steps_eq (h : t.Performs stack more stack') : t.steps = pendingSteps more + 1 := by
  cases h with
  | number | sign | operate | signed => rfl
  | binary o left right => simp [steps, pendingSteps, Expression.steps, Nat.add_assoc]

end Task

/-! ### The run -/

/-- The states of the run for an expression, each with the number of steps that lead to it and with
the applications made on the way. -/
inductive Reaches (e : Expression) : Nat → List Application → List Task → List Number → Prop
  | start : Reaches e 0 [] [.visit e] []
  | step {n : Nat} {made : List Application} {t : Task} {tasks more : List Task}
      {stack stack' : List Number} (reached : Reaches e n made (t :: tasks) stack)
      (performed : t.perform stack = .ok (more, stack')) :
      Reaches e (n + 1) (made ++ (t.application? stack).toList) (more ++ tasks) stack'

/-- What comes next in a state of the run for an expression. -/
inductive Outlook (e : Expression) (made : List Application) : List Task → List Number → Prop
  /-- No task is left, all applications are made, and the value is the only number on the stack. -/
  | finished {n : Number} (value : e.value = .ok n) (all : made = e.applications) :
      Outlook e made [] [n]
  /-- The next task makes the application that overflows, and so does the expression. -/
  | overflows {t : Task} {stack : List Number} {a : Application} {cause : Overflow}
      (tasks : List Task) (next : t.application? stack = some a) (fails : a.result = .error cause)
      (stops : t.perform stack = .error (.overflow cause)) (value : e.value = .error cause)
      (last : made ++ [a] = e.applications) : Outlook e made (t :: tasks) stack
  /-- The next task finds its numbers, and is performed. -/
  | goesOn {t : Task} {more : List Task} {stack stack' : List Number} (tasks : List Task)
      (performed : t.perform stack = .ok (more, stack')) : Outlook e made (t :: tasks) stack

variable {e : Expression} {n : Nat} {made : List Application}

/-- **What is still to come is the same in every state**: the tasks that are left come to the value
of the expression, make its other applications, and take the other steps of the run. -/
theorem Reaches.pending (h : Reaches e n made tasks stack) :
    settleAll tasks stack = pushed e.value [] ∧
      made ++ pendingApplications tasks stack = e.applications ∧
      n + pendingSteps tasks = e.steps := by
  induction h with
  | start =>
    simp only [settleAll, Task.settle, pendingApplications, Task.applications]
    cases e.value <;> simp [pendingSteps, Task.steps] <;> rfl
  | @step n made t tasks more stack stack' _ performed ih =>
    obtain ⟨settled, applied, taken⟩ := ih
    have performs := Task.performs_of_perform performed
    refine ⟨?_, ?_, ?_⟩
    · rw [← settled, settleAll_append, settleAll, performs.settle_eq]
    · rw [← applied, pendingApplications_append, pendingApplications, performs.applications_eq,
        performs.settle_eq]
      simp only [List.append_assoc]
    · rw [← taken]
      rw [pendingSteps_append, pendingSteps, performs.steps_eq]
      omega

/-- The states that are reached are those of the machine. -/
theorem Reaches.runTasks_eq (h : Reaches e n made tasks stack) (bound : Nat) :
    runTasks (n + bound) [.visit e] [] = runTasks bound tasks stack := by
  induction h generalizing bound with
  | start => rw [Nat.zero_add]
  | step _ performed ih =>
    rw [Nat.add_right_comm, Nat.add_assoc, ih, runTasks_cons, performed]
    rfl

/-- In every state the run is finished, or the next task finds its numbers. -/
theorem Reaches.outlook (h : Reaches e n made tasks stack) : Outlook e made tasks stack := by
  obtain ⟨settled, applied, -⟩ := h.pending
  cases tasks with
  | nil =>
    cases value : e.value with
    | error cause => simp [value, settleAll] at settled
    | ok v =>
      obtain rfl : stack = [v] := by simpa [value, settleAll] using settled
      exact .finished value (by simpa [pendingApplications] using applied)
  | cons t tasks =>
    cases performed : t.perform stack with
    | ok next => exact .goesOn tasks performed
    | error fault =>
      obtain ⟨stuck, fails⟩ := Task.fails_of_perform performed
      rw [settleAll, stuck] at settled
      obtain rfl | ⟨a, cause, rfl, next, fails, alone⟩ := fails
      · -- the tasks come to a value or to an overflow, so no number is missing
        cases value : e.value <;> simp [value, bind, Except.bind] at settled
      · have value : e.value = .error cause := by
          cases value : e.value <;> simp_all [bind, Except.bind]
        refine .overflows tasks next fails performed value ?_
        rw [← applied, pendingApplications, stuck, alone, List.append_nil]

/-- **The machine follows the value of an expression step by step.** It finds that value or that
overflow, and a larger bound on its steps changes nothing. Its run is no longer than the bound. In
every state of the run the next task finds its numbers, or the run is finished with one number on
the stack, or the next application overflows; and the applications are those of the expression, in
its order, up to the first that overflows. -/
theorem Expression.run_as_valued (e : Expression) :
    e.evaluate = e.value.mapError .overflow ∧
      (∀ more, runTasks (2 * e.size + more) [.visit e] [] = e.evaluate) ∧
      ∀ n made tasks stack, Reaches e n made tasks stack →
        n ≤ 2 * e.size ∧
          (∀ bound, runTasks (n + bound) [.visit e] [] = runTasks bound tasks stack) ∧
          Outlook e made tasks stack := by
  have enough := e.steps_le
  refine ⟨e.evaluate_eq_value, fun more => ?_, fun n made tasks stack reached => ?_⟩
  · rw [runTasks_of_steps_le (by omega), e.evaluate_eq_value]
  · have taken := reached.pending.2.2
    exact ⟨by omega, reached.runTasks_eq, reached.outlook⟩

/-- Of two sums that would overflow the left one does, behind the product and before the right sum
is begun. -/
theorem Expression.run_overflows_first :
    let huge : Number := .int (Int.pow 10 400)
    let ratio : Number := .float .nan
    let sum : Expression := .binary .add (.number huge) (.number ratio)
    let e : Expression := .binary .sub (.binary .mul (.number (.int 2)) (.number (.int 3)))
      (.binary .div sum (.binary .sub (.number ratio) (.number huge)))
    Reaches e 9 [⟨.mul, .int 2, .int 3⟩]
        [.operate .add, .visit (.binary .sub (.number ratio) (.number huge)), .operate .div,
          .operate .sub]
        [ratio, huge, .int 6] ∧
      9 ≤ 2 * e.size ∧ e.evaluate = .error (.overflow .operand) ∧
      e.applications = [⟨.mul, .int 2, .int 3⟩, ⟨.add, huge, ratio⟩] := by
  intro huge ratio sum e
  have begun : Reaches e 0 [] [.visit e] [] := .start
  have product := ((((begun.step rfl).step rfl).step rfl).step rfl).step rfl
  have reached := (((product.step rfl).step rfl).step rfl).step rfl
  obtain ⟨found, -, states⟩ := e.run_as_valued
  obtain ⟨bounded, -, outlook⟩ := states _ _ _ _ reached
  have unfit : Binary64.ofInt? (Int.pow 10 400) = none := by decide +kernel
  have overflow : Application.result ⟨.add, huge, ratio⟩ = .error .operand := by
    simp only [Application.result, Operator.apply, Number.add, Number.lift, Number.toBinary64, huge,
      ratio, unfit]
    rfl
  have stuck : Task.perform (.operate .add) [ratio, huge, .int 6] =
      .error (.overflow .operand) := by
    rw [Task.perform, show Operator.apply .add huge ratio = .error .operand from overflow]
  cases outlook with
  | overflows _ next fails stops value last =>
    obtain rfl := Option.some.inj next
    obtain rfl := Except.error.inj (overflow.symm.trans fails)
    exact ⟨reached, bounded, by rw [found, value]; rfl, last.symm⟩
  | goesOn _ performed => cases stuck.symm.trans performed

end PatchScript
