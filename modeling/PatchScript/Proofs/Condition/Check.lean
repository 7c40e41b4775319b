import PatchScript.Proofs.Except

/-!
# Checks that may stop

A check answers yes or no, or it stops without an answer. Checks in a row are made only up to the one
that settles the answer, so whether the row stops is a question of order, while its answer, if it has
one, is not: it is that of all the checks, or of some check, in any order.

## Main definitions

* `Decides` — a check with what it asks for and where it stops
* `StopsIn` — a row of checks arrives at one that stops
* `checkEach` — the checks of a list, up to the first that is not met

## Main results

* `Decides.eq_ok_iff` — the answer of a check, exactly
* `Decides.each`, `Decides.some`, `Decides.not` — rows of checks and their negations
-/

namespace PatchScript

/-- A check that may stop without an answer: it stops exactly where `stops` says so, and its answer,
if it has one, tells whether `meets` holds. -/
structure Decides {ε : Type} (r : Except ε Bool) (meets stops : Prop) : Prop where
  answer : ∀ b, r = .ok b → (b = true ↔ meets)
  stop : r.isOk = false ↔ stops

/-- An item stops the checks of a list when those before it have gone on. -/
inductive StopsIn {α : Type} (goesOn stops : α → Prop) : List α → Prop
  | here {a rest} : stops a → StopsIn goesOn stops (a :: rest)
  | later {a rest} : goesOn a → StopsIn goesOn stops rest → StopsIn goesOn stops (a :: rest)

/-- Checks the items of a list up to the first one that does not meet the check. -/
def checkEach {ε α : Type} (check : α → Except ε Bool) : List α → Except ε Bool
  | [] => .ok true
  | a :: rest => do if ← check a then checkEach check rest else return false

variable {ε α : Type} {r : Except ε Bool} {P Q S : Prop} {check : α → Except ε Bool}
  {meets stops goesOn : α → Prop} {a : α} {l : List α}

theorem stopsIn_nil : ¬ StopsIn goesOn stops [] := by
  rintro ⟨⟩

theorem stopsIn_cons :
    StopsIn goesOn stops (a :: l) ↔ stops a ∨ goesOn a ∧ StopsIn goesOn stops l := by
  constructor
  · rintro (here | ⟨first, others⟩)
    · exact .inl here
    · exact .inr ⟨first, others⟩
  · rintro (here | ⟨first, others⟩)
    · exact .here here
    · exact .later first others

/-- A row that is stopped has an item that stops it. -/
theorem StopsIn.exists_stops (h : StopsIn goesOn stops l) : ∃ a ∈ l, stops a := by
  induction h with
  | here first => exact ⟨_, List.mem_cons_self .., first⟩
  | later _ _ ih =>
    obtain ⟨a, mem, stopped⟩ := ih
    exact ⟨a, List.mem_cons_of_mem _ mem, stopped⟩

namespace Decides

theorem of_ok {b : Bool} (h : b = true ↔ P) : Decides (.ok b : Except ε Bool) P False where
  answer := by
    rintro b' ⟨⟩
    exact h
  stop := by simp [Except.isOk, Except.toBool]

theorem of_error {e : ε} (h : S) : Decides (.error e) P S where
  answer := by simp
  stop := by simp [Except.isOk, Except.toBool, h]

theorem not (h : Decides r P S) : Decides (r.map (!·)) (¬ P) S := by
  cases r with
  | error e => exact of_error (h.stop.1 rfl)
  | ok b =>
    have answer := h.answer b rfl
    have goes : ¬ S := fun stop => by simpa [Except.isOk, Except.toBool] using h.stop.2 stop
    exact ⟨by rintro b' ⟨⟩; simp [← answer], by simp [goes, Except.isOk, Except.toBool, Except.map]⟩

/-- Whether a check finds an answer, and which one. -/
theorem eq_ok_iff (h : Decides r P S) {b : Bool} : r = .ok b ↔ ¬ S ∧ (b = true ↔ P) := by
  cases r with
  | error e => simp [h.stop.1 rfl]
  | ok c =>
    have answer := h.answer c rfl
    have goes : ¬ S := fun stop => by simpa [Except.isOk, Except.toBool] using h.stop.2 stop
    cases b <;> cases c <;> simp_all

/-- All items of a list are checked, up to the first one that does not meet the check. -/
theorem each (h : ∀ a ∈ l, Decides (check a) (meets a) (stops a)) :
    Decides (checkEach check l) (∀ a ∈ l, meets a) (StopsIn meets stops l) := by
  induction l with
  | nil => exact ⟨by rintro b ⟨⟩; simp, by simp [checkEach, stopsIn_nil, Except.isOk, Except.toBool]⟩
  | cons a l ih =>
    obtain ⟨first, others⟩ := List.forall_mem_cons.1 h
    have rest := ih others
    rw [checkEach, stopsIn_cons, List.forall_mem_cons]
    cases ha : check a with
    | error e =>
      have stopped : stops a := (first.stop.1 (by simp [ha, Except.isOk, Except.toBool]))
      exact of_error (.inl stopped)
    | ok b =>
      obtain ⟨goes, met⟩ := first.eq_ok_iff.1 ha
      cases b with
      | false =>
        have unmet : ¬ meets a := fun h => by simpa using met.2 h
        simp only [goes, unmet, false_and, or_self]
        exact of_ok (by simp)
      | true =>
        have met : meets a := met.1 rfl
        simp only [goes, met, true_and, false_or]
        exact rest

/-- The items of a list are checked up to the first one that meets the check. -/
theorem some (h : ∀ a ∈ l, Decides (check a) (meets a) (stops a)) :
    Decides ((checkEach (fun a => (check a).map (!·)) l).map (!·)) (∃ a ∈ l, meets a)
      (StopsIn (fun a => ¬ meets a) stops l) := by
  have none := (each fun a ha => (h a ha).not).not
  simpa using none

end Decides

end PatchScript
