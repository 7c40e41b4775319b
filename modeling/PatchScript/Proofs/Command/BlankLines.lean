import PatchScript.Command.Text
import PatchScript.Proofs.Command.Batches
import PatchScript.Proofs.Command.Calls

/-!
# Blank lines between lines

Where a block was cut out of a text, the pieces around it are glued with a line feed, which leaves
an empty line. An empty line is no command. The readers of calls do not stop at line feeds, so a
call may reach over several lines, and its text then differs with the empty lines inside it; a call
that lies within one line is found as it stands, and one that is never closed stays so.

## Main definitions

* `Spaced` — a text with further line feeds between its lines
* `CallSite.OnOneLine` — a call that, if it is closed, lies within one line

## Main results

* `closed_callSites_spaced` — the calls of a text with further line feeds
* `commands_readCalls_spaced` — the commands of its calls
-/

namespace PatchScript

variable {text x y : List Char} {start : Bool} {receiver : List Char}

/-- The second text is the first one with further line feeds, each where a line starts. The flag
says whether a line starts at the front. -/
inductive Spaced : Bool → List Char → List Char → Prop
  | nil (start : Bool) : Spaced start [] []
  | char {start : Bool} (c : Char) {x y : List Char} :
      Spaced (c == '\n') x y → Spaced start (c :: x) (c :: y)
  | blank {x y : List Char} : Spaced true x y → Spaced true x ('\n' :: y)

/-! ### Closing brackets -/

/-- Further line feeds do not close a bracket that is never closed. -/
theorem closingFrom_spaced {stack : List Char} {quote : Option Char} {escaped : Bool}
    (spaced : Spaced start x y) (unhidden : start = true → escaped = false)
    (isQuote : ∀ q ∈ quote, isQuote q = true) (h : closingFrom stack quote escaped x = none) :
    closingFrom stack quote escaped y = none := by
  induction spaced generalizing stack quote escaped with
  | nil => exact h
  | blank spaced ih =>
    obtain rfl := unhidden rfl
    rw [closingFrom_lineFeed isQuote, ih (fun _ => rfl) isQuote h]
    rfl
  | @char _ c x y spaced ih =>
    obtain ⟨stack', quote', escaped', isQuote', hides, further⟩ | fails | ends :=
      closingFrom_cons stack escaped isQuote c
    · rw [further, Option.map_eq_none_iff] at h ⊢
      refine ih (fun feed => ?_) isQuote' h
      -- only a backslash hides the next character
      rw [← Bool.not_eq_true]
      intro hidden
      rw [hides hidden] at feed
      exact absurd feed (by decide)
    · exact fails y
    · rw [ends] at h
      cases h

/-! ### Fronts of calls -/

/-- A beginning without a line feed is the beginning of both texts or of neither. -/
theorem Spaced.isPrefixOf? {head : List Char} (h : '\n' ∉ head) (spaced : Spaced false x y) :
    Option.Rel (Spaced false) (head.isPrefixOf? x) (head.isPrefixOf? y) := by
  induction head generalizing x y with
  | nil => exact .some spaced
  | cons d head ih =>
    cases spaced with
    | nil => exact .none
    | char c spaced =>
      simp only [List.isPrefixOf?]
      split_ifs with here
      · obtain rfl := beq_iff_eq.1 here
        have inside : (d == '\n') = false := beq_false_of_ne (by rintro rfl; simp at h)
        exact ih (by simp_all) (inside ▸ spaced)
      · exact .none

theorem Spaced.tail (spaced : Spaced false x y) : ∃ start', Spaced start' x.tail y.tail := by
  cases spaced with
  | nil => exact ⟨false, .nil false⟩
  | char c spaced => exact ⟨_, spaced⟩

/-- Line feeds are blanks. -/
theorem Spaced.dropWhile_isBlank (spaced : Spaced start x y) :
    (x.dropWhile Text.isBlank = [] ∧ y.dropWhile Text.isBlank = []) ∨
      ∃ c x' y', x.dropWhile Text.isBlank = c :: x' ∧ y.dropWhile Text.isBlank = c :: y' ∧
        Spaced (c == '\n') x' y' := by
  induction spaced with
  | nil => exact .inl ⟨rfl, rfl⟩
  | @char start c x y spaced ih =>
    by_cases blank : Text.isBlank c = true
    · rwa [List.dropWhile_cons_of_pos blank, List.dropWhile_cons_of_pos blank]
    · rw [List.dropWhile_cons_of_neg blank, List.dropWhile_cons_of_neg blank]
      exact .inr ⟨c, x, y, rfl, rfl, spaced⟩
  | blank spaced ih => rwa [List.dropWhile_cons_of_pos (show Text.isBlank '\n' = true by decide)]

theorem Spaced.takeWhile_isBlank (spaced : Spaced false x y)
    (h : '\n' ∉ x.takeWhile Text.isBlank) :
    y.takeWhile Text.isBlank = x.takeWhile Text.isBlank := by
  generalize hb : false = start at spaced
  induction spaced with
  | nil => rfl
  | blank => cases hb
  | @char start c x y spaced ih =>
    by_cases blank : Text.isBlank c = true
    · simp only [List.takeWhile_cons_of_pos blank, List.mem_cons, not_or] at h ⊢
      rw [ih h.2 (beq_false_of_ne (Ne.symm h.1)).symm]
    · simp [blank]

/-- Fronts of calls of one method, the second with further line feeds. A head without a line feed
is the same in both. -/
structure SameFront (f f' : CallFront) : Prop where
  method : f'.method = f.method
  head : '\n' ∉ f.head → f'.head = f.head
  opened : Spaced false f.opened f'.opened

theorem CallMethod.lineFeed_not_mem_name (method : CallMethod) : '\n' ∉ method.name.toList := by
  cases method <;> decide

theorem Spaced.methodFront? (h : '\n' ∉ receiver)
    (spaced : Spaced false x y) (method : CallMethod) :
    Option.Rel SameFront (methodFront? receiver x method) (methodFront? receiver y method) := by
  have noFeed : '\n' ∉ receiver ++ method.name.toList := by
    simp [h, method.lineFeed_not_mem_name]
  have heads := spaced.isPrefixOf? noFeed
  simp only [PatchScript.methodFront?]
  generalize (receiver ++ method.name.toList).isPrefixOf? x = found at heads ⊢
  generalize (receiver ++ method.name.toList).isPrefixOf? y = found' at heads ⊢
  cases heads with
  | none => exact .none
  | @some after after' spaced =>
    have blanks := spaced.takeWhile_isBlank
    obtain ⟨hx, hy⟩ | ⟨c, x', y', hx, hy, opened⟩ := spaced.dropWhile_isBlank
    · simp only [hx, hy]
      exact .none
    · simp only [hx, hy]
      split
      · next rest equal =>
        obtain ⟨rfl, rfl⟩ := List.cons.inj equal
        refine .some ⟨rfl, fun head => ?_, .char '(' opened⟩
        rw [blanks (fun feed => head (List.mem_append_right _ feed))]
      · next other =>
        split
        · next rest equal => exact absurd (by rw [(List.cons.inj equal).1]) (other x')
        · exact .none

theorem Spaced.callFront? (h : '\n' ∉ receiver)
    (spaced : Spaced false x y) :
    Option.Rel SameFront (callFront? receiver x) (callFront? receiver y) := by
  simp only [PatchScript.callFront?]
  generalize CallMethod.all = methods
  induction methods with
  | nil => exact .none
  | cons method methods ih =>
    have first := spaced.methodFront? h method
    simp only [List.findSome?]
    generalize PatchScript.methodFront? receiver x method = found at first ⊢
    generalize PatchScript.methodFront? receiver y method = found' at first ⊢
    cases first with
    | none => exact ih
    | some same => exact .some same

/-! ### Calls -/

/-- A call that is closed. -/
def CallSite.isClosed : CallSite → Bool
  | .closed .. => true
  | .unterminated _ => false

/-- A call that, if it is closed, lies within one line. -/
def CallSite.OnOneLine : CallSite → Prop
  | .closed _ source _ => '\n' ∉ source
  | .unterminated _ => True

instance : DecidablePred CallSite.OnOneLine
  | .closed _ source _ => inferInstanceAs (Decidable ('\n' ∉ source))
  | .unterminated _ => inferInstanceAs (Decidable True)

/-- A bracket that is closed on its line is closed there in the spaced text as well. -/
theorem SameFront.closes {f f' : CallFront} {n : Nat} (same : SameFront f f')
    (closes : closing? f.opened = some n) (oneLine : '\n' ∉ f.opened.take n) :
    closing? f'.opened = some n ∧ f'.opened.take n = f.opened.take n ∧
      Spaced false (f.opened.drop n) (f'.opened.drop n) := by
  have begins := same.opened.isPrefixOf? oneLine
  have here : (f.opened.take n).isPrefixOf? f.opened = some (f.opened.drop n) :=
    List.isPrefixOf?_eq_some_iff_append_eq.2 (List.take_append_drop n f.opened)
  rw [here] at begins
  cases there : (f.opened.take n).isPrefixOf? f'.opened with
  | none =>
    rw [there] at begins
    cases begins
  | some rest =>
    rw [there] at begins
    cases begins with
    | some spaced =>
      have whole := Text.append_eq_of_isPrefixOf? there
      have length : (f.opened.take n).length = n :=
        List.length_take_of_le (closingFrom_bounds (by simp) closes).2
      refine ⟨?_, ?_, ?_⟩
      · rw [← whole]
        exact closingFrom_front (by simp) closes rest
      · rw [← whole, List.take_left' length]
      · rwa [← whole, List.drop_left' length]

/-- **Further line feeds between lines do not change the calls that are closed**, provided that
each of these lies within one line. -/
theorem closed_callSites_spaced (some_character : receiver ≠ []) (h : '\n' ∉ receiver)
    (spaced : Spaced start x y) (within : ∀ site ∈ callSites receiver x, site.OnOneLine) :
    (callSites receiver y).filter CallSite.isClosed =
      (callSites receiver x).filter CallSite.isClosed := by
  induction hn : y.length using Nat.strong_induction_on generalizing x y start with
  | h n ih =>
    subst hn
    cases spaced with
    | nil => rfl
    | @blank x y spaced =>
      have noCall : callFront? receiver ('\n' :: y) = none := by
        refine callFront?_eq_none fun begins => ?_
        obtain ⟨c, rest, rfl⟩ := List.exists_cons_of_ne_nil some_character
        obtain ⟨rfl, -⟩ := List.cons_prefix_cons.1 begins
        simp at h
      rw [callSites_cons_of_none noCall]
      exact ih y.length (by simp) spaced within rfl
    | @char _ c x y spaced =>
      have fronts : Option.Rel SameFront (callFront? receiver (c :: x))
          (callFront? receiver (c :: y)) := Spaced.callFront? h (.char c spaced)
      generalize front : callFront? receiver (c :: x) = found at fronts
      generalize front' : callFront? receiver (c :: y) = found' at fronts
      cases fronts with
      | none =>
        rw [callSites_cons_of_none front] at within ⊢
        rw [callSites_cons_of_none front']
        exact ih y.length (by simp) spaced within rfl
      | @some f f' same =>
        obtain ⟨whole, inside, opened⟩ := eq_append_of_callFront? front'
        have length := congrArg List.length whole
        simp only [opened, List.length_cons, List.length_append] at length
        cases closes : closing? f.opened with
        | none =>
          have never : closing? f'.opened = none :=
            closingFrom_spaced same.opened (by simp) (by simp) closes
          obtain ⟨_, behind⟩ := same.opened.tail
          rw [callSites_of_unterminated front closes, List.forall_mem_cons] at within
          rw [callSites_of_unterminated front closes, callSites_of_unterminated front' never]
          exact ih _ (by simp [opened]; omega) behind within.2 rfl
        | some n =>
          rw [callSites_of_closed front closes, List.forall_mem_cons] at within
          obtain ⟨oneLine, within⟩ := within
          simp only [CallSite.OnOneLine, List.mem_append, not_or] at oneLine
          obtain ⟨closes', taken, behind⟩ := same.closes closes oneLine.2
          have pos := (closingFrom_bounds (by simp) closes).1
          rw [callSites_of_closed front closes, callSites_of_closed front' closes', same.method,
            same.head oneLine.1, taken, List.filter_cons_of_pos rfl, List.filter_cons_of_pos rfl,
            ih _ (by simp [opened]; omega) behind within rfl]

/-- A call that is never closed gives no command. -/
theorem commands_readCalls (receiver text : List Char) (n : Nat) :
    (readCalls receiver text n).commands =
      (readEach readCall ((callSites receiver text).filter CallSite.isClosed) n).commands := by
  rw [readCalls]
  generalize callSites receiver text = sites
  induction sites generalizing n with
  | nil => rfl
  | cons site sites ih =>
    cases site with
    | unterminated text => exact ih n
    | closed method source arguments =>
      rw [List.filter_cons_of_pos rfl, readEach, readEach, Reading.andThen, Reading.andThen, ih]

/-- The commands of calls that lie within one line each do not change with further line feeds. -/
theorem commands_readCalls_spaced (some_character : receiver ≠ []) (h : '\n' ∉ receiver)
    (spaced : Spaced start x y) (within : ∀ site ∈ callSites receiver x, site.OnOneLine)
    (n : Nat) : (readCalls receiver y n).commands = (readCalls receiver x n).commands := by
  rw [commands_readCalls, closed_callSites_spaced some_character h spaced within,
    ← commands_readCalls]

end PatchScript
