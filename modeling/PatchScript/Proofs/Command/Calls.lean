import PatchScript.Command.Call
import PatchScript.Proofs.Command.Brackets
import PatchScript.Proofs.Text.Cut
import PatchScript.Proofs.Text.Lines
import PatchScript.Proofs.Text.Trim

/-!
# Calls in a text

The arguments of a call may hold commas, quotes and parentheses, and even the text of another call:
the call ends where it should, and nothing in it is searched for calls again. Where the receiver does
not occur, there is no call at all.

## Main results

* `callSites_of_whole` — a text that is one call
* `callSites_append`, `callSites_of_not_infix` — texts in which no call begins
* `lineParts?_of_foreign` — a line that begins like no verb
-/

namespace PatchScript

variable {text : List Char}

/-! ### Lines -/

/-- No verb begins with a given character. -/
theorem LineVerb.ofName?_eq_none {c : Char} (foreign : ∀ v ∈ all, v.name.toList.head? ≠ some c)
    (rest : List Char) : ofName? (String.ofList (c :: rest)) = none := by
  rw [ofName?, List.find?_eq_none]
  intro v hv spelled
  refine foreign v hv ?_
  rw [beq_iff_eq.1 spelled, String.toList_ofList]
  rfl

/-- A line that begins like no verb, and not with a blank, is prose. -/
theorem lineParts?_of_foreign {c : Char} (notBlank : Text.isBlank c = false)
    (foreign : ∀ v ∈ LineVerb.all, v.name.toList.head? ≠ some c) (rest : List Char) :
    lineParts? [] (c :: rest) = none := by
  have word : (c :: rest).takeWhile (!Text.isBlank ·) =
      c :: rest.takeWhile (!Text.isBlank ·) := by simp [notBlank]
  have noVerb : verbParts? (c :: rest) = none := by
    rw [verbParts?, Text.trimLeft, List.dropWhile_cons_of_neg (by simp [notBlank]), word,
      LineVerb.ofName?_eq_none foreign]
    split <;> simp_all
  simp [lineParts?, notBlank, noVerb]

/-! ### The text of a call -/

theorem callSitesFrom_of_length_le (receiver : List Char) {skip : Nat} (h : text.length ≤ skip) :
    callSitesFrom receiver skip text = [] := by
  induction text generalizing skip with
  | nil => cases skip <;> rfl
  | cons c rest ih =>
    obtain ⟨skip, rfl⟩ := Nat.exists_eq_add_of_lt (Nat.lt_of_lt_of_le (Nat.zero_lt_succ _) h)
    rw [Nat.zero_add, callSitesFrom]
    exact ih (by simpa using h)

/-! ### From call to call -/

/-- What belongs to the call before is passed over. -/
theorem callSitesFrom_eq_drop (receiver : List Char) (skip : Nat) (text : List Char) :
    callSitesFrom receiver skip text = callSites receiver (text.drop skip) := by
  induction skip generalizing text with
  | zero => rfl
  | succ skip ih =>
    cases text with
    | nil => rfl
    | cons c rest => exact ih rest

/-- The front of a call is its head, and the text from the parenthesis on. -/
theorem eq_append_of_callFront? {receiver : List Char} {front : CallFront}
    (h : callFront? receiver text = some front) :
    text = front.head ++ front.opened ∧ ∃ inside, front.opened = '(' :: inside := by
  obtain ⟨method, -, found⟩ := List.exists_of_findSome?_eq_some h
  rw [methodFront?] at found
  split at found
  · cases found
  · next after begins =>
    split at found
    · next rest dropped =>
      obtain rfl := Option.some.inj found
      refine ⟨?_, rest, rfl⟩
      rw [← Text.append_eq_of_isPrefixOf? begins]
      simp only [← dropped, List.append_assoc, List.takeWhile_append_dropWhile]
    · cases found

section

variable {receiver : List Char}

theorem callSites_cons_of_none {c : Char} {rest : List Char}
    (h : callFront? receiver (c :: rest) = none) :
    callSites receiver (c :: rest) = callSites receiver rest := by
  rw [callSites, callSitesFrom, h]
  rfl

theorem callSites_of_unterminated {front : CallFront}
    (h : callFront? receiver text = some front) (never : closing? front.opened = none) :
    callSites receiver text =
      .unterminated text :: callSites receiver front.opened.tail := by
  obtain ⟨whole, inside, opened⟩ := eq_append_of_callFront? h
  cases text with
  | nil => simp [opened] at whole
  | cons c rest =>
    rw [callSites, callSitesFrom, h]
    simp only [never, callSitesFrom_eq_drop]
    have behind : rest.drop front.head.length = front.opened.tail := by
      rw [← List.drop_succ_cons (a := c), whole, List.drop_length_add_append, List.drop_one]
    rw [behind]

theorem callSites_of_closed {front : CallFront} {n : Nat}
    (h : callFront? receiver text = some front) (closes : closing? front.opened = some n) :
    callSites receiver text =
      .closed front.method (front.head ++ front.opened.take n)
          ((front.opened.take n).tail.dropLast) :: callSites receiver (front.opened.drop n) := by
  obtain ⟨whole, inside, opened⟩ := eq_append_of_callFront? h
  have pos := (closingFrom_bounds (by simp) closes).1
  cases text with
  | nil => simp [opened] at whole
  | cons c rest =>
    rw [callSites, callSitesFrom, h]
    simp only [closes, callSitesFrom_eq_drop]
    have behind : rest.drop (front.head.length + n - 1) = front.opened.drop n := by
      rw [← List.drop_succ_cons (a := c), whole, Nat.sub_add_cancel (by omega),
        List.drop_length_add_append]
    rw [behind]

end

/-- A text that is one call holds no other call. -/
theorem callSites_of_whole {receiver head inside : List Char} {method : CallMethod}
    (whole : text = head ++ '(' :: (inside ++ [')']))
    (front : callFront? receiver text = some ⟨method, head, '(' :: (inside ++ [')'])⟩)
    (balanced : Balanced inside) : callSites receiver text = [.closed method text inside] := by
  have closes : closing? ('(' :: (inside ++ [')'])) = some (inside.length + 2) :=
    closing?_bracketed rfl balanced []
  have taken : ('(' :: (inside ++ [')'])).take (inside.length + 2) = '(' :: (inside ++ [')']) :=
    List.take_of_length_le (by simp)
  obtain ⟨c, rest, start⟩ : ∃ c rest, text = c :: rest :=
    List.exists_cons_of_ne_nil (by simp [whole])
  -- the call is as long as the text, so nothing is left to be searched
  have left : rest.length ≤ head.length + (inside.length + 2) - 1 := by
    have := congrArg List.length (start.symm.trans whole)
    simp only [List.length_cons, List.length_append, List.length_nil] at this
    omega
  rw [start] at front
  rw [callSites, start, callSitesFrom, front]
  simp only [closes, taken, callSitesFrom_of_length_le receiver left]
  rw [← start, ← whole]
  simp

/-! ### Texts without calls -/

section

variable {receiver : List Char}

theorem callFront?_eq_none (h : ¬ receiver <+: text) : callFront? receiver text = none := by
  refine List.findSome?_eq_none_iff.2 fun method _ => ?_
  have noHead : (receiver ++ method.name.toList).isPrefixOf? text = none :=
    Text.isPrefixOf?_eq_none_iff.2 fun longer => h ((List.prefix_append ..).trans longer)
  rw [methodFront?, noHead]

/-- Where no call begins in the front of a text, the search goes on behind it. -/
theorem callSites_append {front back : List Char}
    (h : ∀ rest, rest <:+ front → rest ≠ [] → callFront? receiver (rest ++ back) = none) :
    callSites receiver (front ++ back) = callSites receiver back := by
  induction front with
  | nil => rfl
  | cons c front ih =>
    have here : callFront? receiver (c :: (front ++ back)) = none :=
      h (c :: front) (List.suffix_refl _) (List.cons_ne_nil _ _)
    rw [callSites, List.cons_append, callSitesFrom, here]
    exact ih fun rest suffix => h rest (suffix.trans (List.suffix_cons c front))

/-- Where the receiver does not occur, there is no call. -/
theorem callSites_of_not_infix (h : ¬ receiver <:+: text) : callSites receiver text = [] := by
  have none_begins : callSites receiver (text ++ []) = callSites receiver [] :=
    callSites_append fun rest suffix _ => callFront?_eq_none fun front => by
      rw [List.append_nil] at front
      exact h (front.isInfix.trans suffix.isInfix)
  rwa [List.append_nil] at none_begins

end

/-! ### Batches -/

/-- The items of a batch are read as operations. -/
theorem mapM_ofValue_of_valid {items : List Value} {operations : List Operation}
    (valid : items.map Operation.ofValue = operations.map .ok) :
    items.mapM Shorthand.ofValue = .ok operations := by
  induction operations generalizing items with
  | nil =>
    obtain rfl : items = [] := by simpa using valid
    rfl
  | cons o operations ih =>
    obtain ⟨item, rest, rfl, head, tail⟩ := List.map_eq_cons_iff.1 valid
    have first : Shorthand.ofValue item = .ok o := by rw [Shorthand.ofValue, head]
    rw [List.mapM_cons, first, ih tail]
    rfl

end PatchScript
