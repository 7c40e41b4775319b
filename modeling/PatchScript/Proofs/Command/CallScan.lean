import PatchScript.Proofs.Command.Accounts
import PatchScript.Proofs.Command.Calls
import PatchScript.Proofs.Command.Closing

/-!
# The search for calls

A text is searched for calls from the front. The next call is the first one that begins where the
search stands, or later. If its parenthesis is closed, the search goes on behind it, whatever stands
in it and whether that can be used or not; if it is never closed, the search goes on right behind
the opening parenthesis. Either way the search passes at least over the receiver, a method and a
parenthesis, so it comes to an end, and no place is visited twice.

## Main definitions

* `SpellsCall`, `BeginsCall` — what the front of a call looks like
* `CallVisit`, `IsVisit` — a call that the search comes to, and what becomes of it
* `CallScan` — the calls that the search comes to, one after the other

## Main results

* `callFront?_eq_none_iff` — where a call begins
* `exists_callScan` — the search comes to an end, and finds the calls of the text
* `CallScan.pairwise` — each visit begins behind the one before
* `readCalls_visits_once` — what calls are read, and where their commands come from
-/

namespace PatchScript

variable {receiver text : List Char} {method : CallMethod} {position : Nat}

/-! ### The front of a call -/

/-- The front of a call: the receiver, a method, blanks and an opening parenthesis. -/
def SpellsCall (receiver : List Char) (method : CallMethod) (blanks inside text : List Char) :
    Prop :=
  (∀ c ∈ blanks, Text.isBlank c = true) ∧
    text = receiver ++ (method.name.toList ++ (blanks ++ '(' :: inside))

/-- A call begins at the front of the text. -/
def BeginsCall (receiver text : List Char) : Prop :=
  ∃ method blanks inside, SpellsCall receiver method blanks inside text

theorem methodFront?_eq_some_iff {front : CallFront} :
    methodFront? receiver text method = some front ↔
      ∃ blanks inside, SpellsCall receiver method blanks inside text ∧
        front = ⟨method, receiver ++ method.name.toList ++ blanks, '(' :: inside⟩ := by
  constructor
  · intro found
    rw [methodFront?] at found
    split at found
    · cases found
    · next after begins =>
      have whole := Text.append_eq_of_isPrefixOf? begins
      split at found
      · next inside dropped =>
        refine ⟨after.takeWhile Text.isBlank, inside, ⟨fun c => List.mem_takeWhile_imp, ?_⟩,
          (Option.some.inj found).symm⟩
        rw [← whole, ← dropped, List.takeWhile_append_dropWhile, List.append_assoc]
      · cases found
  · rintro ⟨blanks, inside, ⟨blank, rfl⟩, rfl⟩
    have begins : (receiver ++ method.name.toList).isPrefixOf?
        (receiver ++ (method.name.toList ++ (blanks ++ '(' :: inside))) =
          some (blanks ++ '(' :: inside) := by
      rw [List.isPrefixOf?_eq_some_iff_append_eq, List.append_assoc]
    have paren : Text.isBlank '(' = false := by decide
    rw [methodFront?, begins]
    simp [List.dropWhile_append_of_pos blank, List.takeWhile_append_of_pos blank, paren]

theorem CallMethod.mem_all (method : CallMethod) : method ∈ all := by
  cases method <;> decide

theorem CallMethod.two_le_length_name (method : CallMethod) : 2 ≤ method.name.toList.length := by
  cases method <;> decide

/-- Nothing is found at the front of a text exactly where no call begins. -/
theorem callFront?_eq_none_iff : callFront? receiver text = none ↔ ¬ BeginsCall receiver text := by
  rw [callFront?, List.findSome?_eq_none_iff]
  constructor
  · rintro nothing ⟨method, blanks, inside, spells⟩
    have found := methodFront?_eq_some_iff.2 ⟨blanks, inside, spells, rfl⟩
    rw [nothing method method.mem_all] at found
    cases found
  · intro nothing method _
    by_contra found
    obtain ⟨front, found⟩ := Option.ne_none_iff_exists'.1 found
    obtain ⟨blanks, inside, spells, -⟩ := methodFront?_eq_some_iff.1 found
    exact nothing ⟨method, blanks, inside, spells⟩

theorem not_beginsCall_nil : ¬ BeginsCall receiver [] := by
  rintro ⟨method, blanks, inside, -, whole⟩
  simp at whole

/-! ### Visits -/

/-- A call that the search comes to: its method, and the places of its receiver, of its opening
parenthesis and of the one that closes it. -/
structure CallVisit where
  method : CallMethod
  start : Nat
  opening : Nat
  closing : Option Nat
deriving DecidableEq

namespace CallVisit

/-- Where the search goes on: behind the closing parenthesis, or else behind the opening one. -/
def resume (v : CallVisit) : Nat := v.closing.getD v.opening + 1

/-- What the search passes over. For a call that is closed this is its whole text. -/
def source (text : List Char) (v : CallVisit) : List Char :=
  (text.drop v.start).take (v.resume - v.start)

/-- The call as it is read. -/
def site (text : List Char) (v : CallVisit) : CallSite :=
  match v.closing with
  | none => .unterminated (text.drop v.start)
  | some c =>
    .closed v.method (v.source text) ((text.drop (v.opening + 1)).take (c - v.opening - 1))

end CallVisit

/-- A call of the text, with its parenthesis closed where it should be, if at all. -/
structure IsVisit (receiver text : List Char) (v : CallVisit) : Prop where
  /-- The receiver, the method and blanks stand before the opening parenthesis. -/
  front : ∃ blanks inside, SpellsCall receiver v.method blanks inside (text.drop v.start) ∧
    v.opening = v.start + (receiver.length + v.method.name.toList.length + blanks.length)
  /-- The closing parenthesis closes the opening one. -/
  closed : ∀ c, v.closing = some c → ∃ inner behind, Balanced inner ∧
    text.drop v.opening = '(' :: (inner ++ ')' :: behind) ∧ c = v.opening + (inner.length + 1)
  /-- Without one, a wrong closing bracket comes first, or the text ends. -/
  unclosed : v.closing = none →
    Mismatched '(' (text.drop v.opening) ∨ Unfinished '(' (text.drop v.opening)

/-- The receiver, a method and a parenthesis are passed over, and nothing behind the text. -/
theorem IsVisit.bounds {v : CallVisit} (h : IsVisit receiver text v) :
    v.start + (receiver.length + 2) ≤ v.opening ∧ v.opening < v.resume ∧
      v.resume ≤ text.length := by
  obtain ⟨blanks, inside, ⟨-, whole⟩, opening⟩ := h.front
  have name := v.method.two_le_length_name
  have length := congrArg List.length whole
  simp only [List.length_drop, List.length_append, List.length_cons] at length
  refine ⟨by omega, ?_⟩
  rw [CallVisit.resume]
  cases closing : v.closing with
  | none => exact ⟨by simp, by simp; omega⟩
  | some c =>
    obtain ⟨inner, behind, -, rest, rfl⟩ := h.closed c closing
    have length := congrArg List.length rest
    simp only [List.length_drop, List.length_append, List.length_cons] at length
    simp only [Option.getD_some]
    omega

/-- **The search for calls** from a position on. -/
inductive CallScan (receiver text : List Char) : Nat → List CallVisit → Prop
  | done {position : Nat} (nothing : ∀ i, position ≤ i → ¬ BeginsCall receiver (text.drop i)) :
    CallScan receiver text position []
  | visit {position : Nat} {v : CallVisit} {visits : List CallVisit}
      (notBefore : position ≤ v.start)
      (first : ∀ i, position ≤ i → i < v.start → ¬ BeginsCall receiver (text.drop i))
      (isVisit : IsVisit receiver text v) (rest : CallScan receiver text v.resume visits) :
    CallScan receiver text position (v :: visits)

/-- The visit that begins with a front at a position. -/
def CallFront.visit (front : CallFront) (position : Nat) : CallVisit :=
  let opening := position + front.head.length
  ⟨front.method, position, opening, (closing? front.opened).map fun n => opening + (n - 1)⟩

section

variable (front : CallFront) (position : Nat)

@[simp]
theorem CallFront.visit_method : (front.visit position).method = front.method := rfl

@[simp]
theorem CallFront.visit_start : (front.visit position).start = position := rfl

@[simp]
theorem CallFront.visit_opening :
    (front.visit position).opening = position + front.head.length := rfl

end

theorem isVisit_visit {front : CallFront}
    (h : callFront? receiver (text.drop position) = some front) :
    IsVisit receiver text (front.visit position) := by
  obtain ⟨method, -, found⟩ := List.exists_of_findSome?_eq_some h
  obtain ⟨blanks, inside, spells, rfl⟩ := methodFront?_eq_some_iff.1 found
  have opened : text.drop (position + (receiver ++ method.name.toList ++ blanks).length) =
      '(' :: inside := by
    rw [← List.drop_drop, spells.2, ← List.append_assoc, ← List.append_assoc, List.drop_left]
  constructor
  case front => exact ⟨blanks, inside, spells, by simp [CallFront.visit, Nat.add_assoc]⟩
  case closed =>
    intro c hc
    obtain ⟨n, closes, rfl⟩ := Option.map_eq_some_iff.1 hc
    obtain ⟨inner, behind, balanced, rfl, rfl⟩ := (closing?_eq_some_iff rfl).1 closes
    exact ⟨inner, behind, balanced, opened, rfl⟩
  case unclosed =>
    intro never
    have fails := Option.map_eq_none_iff.1 never
    change Mismatched '(' (text.drop (position + _)) ∨ Unfinished '(' (text.drop (position + _))
    rw [opened]
    exact (closing?_eq_none_iff rfl).1 fails

/-- Where a call begins, it is the next one, and the search goes on where it resumes. -/
theorem callSites_drop_of_front {front : CallFront}
    (h : callFront? receiver (text.drop position) = some front) :
    callSites receiver (text.drop position) =
      (front.visit position).site text ::
        callSites receiver (text.drop (front.visit position).resume) := by
  obtain ⟨whole, inside, opened⟩ := eq_append_of_callFront? h
  have behind : text.drop (position + front.head.length) = front.opened := by
    rw [← List.drop_drop, whole, List.drop_left]
  cases closes : closing? front.opened with
  | none =>
    have closing : (front.visit position).closing = none := by simp [CallFront.visit, closes]
    have rest : text.drop (front.visit position).resume = front.opened.tail := by
      rw [CallVisit.resume, closing, ← List.tail_drop]
      exact congrArg List.tail behind
    rw [callSites_of_unterminated h closes, rest, CallVisit.site, closing]
    rfl
  | some n =>
    rw [opened] at closes
    obtain ⟨inner, after, -, rfl, rfl⟩ := (closing?_eq_some_iff rfl).1 closes
    have closing : (front.visit position).closing =
        some (position + front.head.length + (inner.length + 1)) := by
      simp [CallFront.visit, opened, closes]
    have resume : (front.visit position).resume =
        position + front.head.length + (inner.length + 2) := by
      rw [CallVisit.resume, closing]
      rfl
    have rest : text.drop (front.visit position).resume =
        front.opened.drop (inner.length + 2) := by
      rw [resume, ← List.drop_drop, behind]
    have source : (front.visit position).source text =
        front.head ++ front.opened.take (inner.length + 2) := by
      have length : position + front.head.length + (inner.length + 2) - position =
          front.head.length + (inner.length + 2) := by omega
      rw [CallVisit.source, resume, CallFront.visit_start, length, whole,
        List.take_length_add_append]
    -- the arguments are the balanced text between the two parentheses, by either description
    have taken : (front.opened.take (inner.length + 2)).tail.dropLast = inner := by
      simp [opened, List.take_append]
    have between : (text.drop (position + front.head.length + 1)).take inner.length = inner := by
      rw [← List.drop_drop, behind, opened, List.drop_succ_cons, List.drop_zero, List.take_left]
    have length : position + front.head.length + (inner.length + 1) -
        (position + front.head.length) - 1 = inner.length := by omega
    rw [← opened] at closes
    rw [callSites_of_closed h closes, rest, CallVisit.site, closing]
    simp only [source, taken, CallFront.visit_method, CallFront.visit_opening, length, between]

/-! ### The whole search -/

/-- Where no call begins, the search from one place further on is the search from there. -/
theorem CallScan.earlier {visits : List CallVisit}
    (h : CallScan receiver text (position + 1) visits)
    (nothing : ¬ BeginsCall receiver (text.drop position)) :
    CallScan receiver text position visits := by
  have here {i : Nat} (hi : position ≤ i) : i = position ∨ position + 1 ≤ i := by omega
  cases h with
  | done later =>
    refine .done fun i hi => ?_
    obtain rfl | hi := here hi
    · exact nothing
    · exact later i hi
  | visit notBefore first isVisit rest =>
    refine .visit (by omega) (fun i hi before => ?_) isVisit rest
    obtain rfl | hi := here hi
    · exact nothing
    · exact first i hi before

/-- **The search comes to an end**, and finds the calls of the text. -/
theorem exists_callScan (receiver text : List Char) (position : Nat) :
    ∃ visits, CallScan receiver text position visits ∧
      callSites receiver (text.drop position) = visits.map (CallVisit.site text) := by
  induction left : text.length - position using Nat.strong_induction_on generalizing position with
  | _ left ih =>
    subst left
    by_cases ended : text.length ≤ position
    · -- behind the text nothing begins
      have empty {i : Nat} (hi : position ≤ i) : text.drop i = [] :=
        List.drop_eq_nil_iff.2 (by omega)
      refine ⟨[], .done fun i hi => ?_, ?_⟩
      · rw [empty hi]
        exact not_beginsCall_nil
      · rw [empty (le_refl _)]
        rfl
    · cases found : callFront? receiver (text.drop position) with
      | none =>
        obtain ⟨visits, scan, sites⟩ :=
          ih (text.length - (position + 1)) (by omega) (position + 1) rfl
        refine ⟨visits, scan.earlier (callFront?_eq_none_iff.1 found), ?_⟩
        rw [List.drop_eq_getElem_cons (Nat.lt_of_not_le ended)] at found ⊢
        rw [callSites_cons_of_none found, sites]
      | some front =>
        have isVisit := isVisit_visit found
        have bounds := isVisit.bounds
        rw [CallFront.visit_start] at bounds
        obtain ⟨visits, scan, sites⟩ :=
          ih (text.length - (front.visit position).resume) (by omega) _ rfl
        refine ⟨front.visit position :: visits, ?_, ?_⟩
        · exact .visit (le_refl _) (fun i hi before => absurd hi (Nat.not_le.2 before)) isVisit scan
        · rw [callSites_drop_of_front found, sites, List.map_cons]

namespace CallScan

variable {visits : List CallVisit}

theorem isVisit (h : CallScan receiver text position visits) :
    ∀ v ∈ visits, position ≤ v.start ∧ IsVisit receiver text v := by
  induction h with
  | done => simp
  | visit notBefore _ isVisit _ ih =>
    have bounds := isVisit.bounds
    intro w hw
    obtain rfl | hw := List.mem_cons.1 hw
    · exact ⟨notBefore, isVisit⟩
    · exact ⟨by have := (ih w hw).1; omega, (ih w hw).2⟩

/-- Each visit begins behind the one before. -/
theorem pairwise (h : CallScan receiver text position visits) :
    visits.Pairwise fun v w => v.resume ≤ w.start := by
  induction h with
  | done => exact .nil
  | visit _ _ _ rest ih => exact .cons (fun w hw => (rest.isVisit w hw).1) ih

/-- Of two visits one begins behind the other. -/
theorem eq_or_behind (h : CallScan receiver text position visits) {v w : CallVisit}
    (hv : v ∈ visits) (hw : w ∈ visits) : v = w ∨ v.resume ≤ w.start ∨ w.resume ≤ v.start := by
  induction h with
  | done => cases hv
  | visit _ _ _ rest ih =>
    rcases List.mem_cons.1 hv with rfl | laterV <;> rcases List.mem_cons.1 hw with rfl | laterW
    · exact .inl rfl
    · exact .inr (.inl (rest.isVisit w laterW).1)
    · exact .inr (.inr (rest.isVisit v laterV).1)
    · exact ih laterV laterW

/-- Nothing is visited between the parentheses of a call that is closed. -/
theorem not_within (h : CallScan receiver text position visits) {v w : CallVisit} (hv : v ∈ visits)
    (hw : w ∈ visits) {c : Nat} (closing : v.closing = some c) :
    ¬ (v.opening < w.start ∧ w.start ≤ c) := by
  rintro ⟨opened, notClosed⟩
  have bounds := (h.isVisit v hv).2.bounds
  have bounds' := (h.isVisit w hw).2.bounds
  have resume : v.resume = c + 1 := by rw [CallVisit.resume, closing]; rfl
  obtain rfl | behind | before := h.eq_or_behind hv hw
  · omega
  · omega
  · omega

/-- There are no more visits than there is text to pass over. -/
theorem length_mul_le (h : CallScan receiver text position visits) :
    visits.length * (receiver.length + 3) ≤ text.length - position := by
  induction h with
  | done => simp
  | visit notBefore _ isVisit _ ih =>
    have bounds := isVisit.bounds
    rw [List.length_cons, Nat.succ_mul]
    omega

end CallScan

/-! ### What is read -/

theorem source_of_mem_found {surface : Surface} {source : List Char} {tag : Option BatchTag}
    {operations : List Operation} {n : Nat} {c : Command}
    (h : c ∈ (Reading.found surface source tag operations n).commands) :
    c.surface = surface ∧ c.source = String.ofList source := by
  obtain ⟨o, -, rfl⟩ := List.mem_map.1 h
  exact ⟨rfl, rfl⟩

/-- A command comes from the text of a call that is closed. -/
theorem source_of_mem_readCall {site : CallSite} {n : Nat} {c : Command}
    (h : c ∈ (readCall site n).commands) :
    ∃ method source arguments, site = .closed method source arguments ∧ c.surface = .call ∧
      c.source = String.ofList source := by
  cases site with
  | unterminated text => cases h
  | closed method source arguments =>
    refine ⟨method, source, arguments, rfl, ?_⟩
    rw [readCall] at h
    split at h
    · cases h
    · rw [Reading.request] at h
      split at h
      · exact source_of_mem_found h
      · exact source_of_mem_found h
    · exact source_of_mem_found h

/-- What the commands of a visited call have in common. -/
theorem CallVisit.source_of_mem_readCall {v : CallVisit} {n : Nat} {c : Command}
    (h : c ∈ (readCall (v.site text) n).commands) :
    c.surface = .call ∧ c.source = String.ofList (v.source text) ∧ v.closing.isSome = true := by
  obtain ⟨method, source, arguments, closed, surface, from_source⟩ :=
    PatchScript.source_of_mem_readCall h
  rw [CallVisit.site] at closed
  split at closed
  · cases closed
  · next closing =>
    obtain ⟨-, rfl, -⟩ := CallSite.closed.inj closed
    exact ⟨surface, from_source, by rw [closing]; rfl⟩

/-- **No call is read twice.** The search visits calls of the text one behind the other, each of
them the first that begins where the search went on, and no more of them than there is room for. It
visits nothing between the parentheses of a call that is closed. What is read is what the visits
give, and the commands of a visit have one source: the text of the call, up to the parenthesis that
closes it. So the sources of two visits have no place in common. -/
theorem readCalls_visits_once (receiver text : List Char) (next : Nat) :
    ∃ (visits : List CallVisit) (readings : List Reading),
      CallScan receiver text 0 visits ∧
      visits.length * (receiver.length + 3) ≤ text.length ∧
      visits.Pairwise (fun v w => v.start < w.start ∧ v.resume ≤ w.start) ∧
      (∀ v ∈ visits, ∀ c, v.closing = some c →
        ∀ w ∈ visits, ¬ (v.opening < w.start ∧ w.start ≤ c)) ∧
      (readCalls receiver text next).commands = readings.flatMap Reading.commands ∧
      (readCalls receiver text next).diagnostics = readings.flatMap Reading.diagnostics ∧
      List.Forall₂ (fun v r => (∃ n, r = readCall (v.site text) n) ∧
        ∀ c ∈ r.commands, c.surface = .call ∧ c.source = String.ofList (v.source text) ∧
          v.closing.isSome = true) visits readings := by
  obtain ⟨visits, scan, sites⟩ := exists_callScan receiver text 0
  obtain ⟨readings, read, commands, diagnostics⟩ :=
    exists_readings_of_readEach (fun v => readCall (CallVisit.site text v)) visits next
  have whole : readCalls receiver text next =
      readEach (fun v => readCall (CallVisit.site text v)) visits next := by
    rw [← readEach_map, ← sites]
    rfl
  have ordered : visits.Pairwise fun v w => v.start < w.start ∧ v.resume ≤ w.start := by
    refine scan.pairwise.imp_of_mem fun {v w} hv _ behind => ⟨?_, behind⟩
    have bounds := (scan.isVisit v hv).2.bounds
    omega
  refine ⟨visits, readings, scan, scan.length_mul_le, ordered,
    fun v hv c closing w hw => scan.not_within hv hw closing, ?_, ?_, ?_⟩
  · rw [whole, commands]
  · rw [whole, diagnostics]
  · refine read.imp ?_
    rintro v r ⟨n, rfl⟩
    exact ⟨⟨n, rfl⟩, fun c => CallVisit.source_of_mem_readCall⟩

/-- What stands in a call that cannot be used is passed over, and what stands behind a parenthesis
that is never closed is not. -/
example :
    callSites "_.".toList "_.set(_.remove('a')) _.add(_.remove('b')".toList =
      [.closed .set "_.set(_.remove('a'))".toList "_.remove('a')".toList,
        .unterminated "_.add(_.remove('b')".toList,
        .closed .remove "_.remove('b')".toList "'b'".toList] := by decide

end PatchScript
