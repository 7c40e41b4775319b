import PatchScript.Condition
import PatchScript.Proofs.Condition.Check
import PatchScript.Proofs.Value.Size

/-!
# The meaning of conditions

What a value means as a condition is said here by recursion on the value, in the words of its keys:
which mappings combine which conditions, and what each comparison asks for. Nothing in it refers to
the reading of conditions or to the order in which they are checked.

Evaluation differs from it in two ways. It takes every value that is not truthy for a condition that
holds, also false, zero, an empty text and an empty list, where only null and the empty mapping are
conditions without content. And it stops without an answer at a pattern that cannot even be tried,
unless the answer was settled before. The meaning therefore has a parameter for the first difference,
and the second is a predicate on its own.

## Main definitions

* `Comparator.Meets` — what a comparison asks for
* `Condition.Means` — what a value means as a condition
* `Condition.Stops` — evaluation arrives at a pattern that cannot be tried
* `Condition.HoldsBlank` — a value that is not truthy stands for a condition somewhere in it
* `Condition.Faithful` — evaluation gives the answer that the value means

## Main results

* `Condition.decides_valueHolds` — evaluation, exactly
* `Condition.faithful_iff` — the headline: when evaluation is faithful
* `Condition.blank_member_holds` — where it is not
-/

namespace PatchScript

/-! ### Comparisons -/

namespace Comparator

/-- What a comparison asks for. A missing value is given as null. -/
def Meets (value operand : Value) : Comparator → Prop
  | .present => value ≠ .null ↔ operand.isTruthy = true
  | .equal => value.same operand = true
  | .unequal => value.same operand = false
  | .above => ∃ a b, value = .number a ∧ operand = .number b ∧ b.lt a = true
  | .atLeast => ∃ a b, value = .number a ∧ operand = .number b ∧ b.le a = true
  | .below => ∃ a b, value = .number a ∧ operand = .number b ∧ a.lt b = true
  | .atMost => ∃ a b, value = .number a ∧ operand = .number b ∧ a.le b = true
  | .oneOf => ∃ options, operand = .list options ∧ ∃ x ∈ options, value.same x = true
  | .noneOf => ∃ options, operand = .list options ∧ ∀ x ∈ options, value.same x = false
  | .pattern => ∃ s written p, value = .text s ∧ operand = .text written ∧
      Pattern.ofText written.toList = .ok (some p) ∧ p.occursIn s.toList = true
  | .exactly => value.strictlySame operand = true

/-- A comparison that gives no answer: its operand cannot even be tried as a pattern. -/
def Stops (operand : Value) (c : Comparator) : Prop :=
  c = .pattern ∧ ∃ written m, operand = .text written ∧ Pattern.ofText written.toList = .error m

variable {value operand : Value}

theorem ordered_eq_true_iff {compare : Number → Number → Bool} :
    ordered compare value operand = true ↔
      ∃ a b, value = .number a ∧ operand = .number b ∧ compare a b = true := by
  unfold ordered
  split
  · simp
  · next other =>
    simp only [Bool.false_eq_true, false_iff]
    rintro ⟨a, b, rfl, rfl, -⟩
    exact other a b rfl rfl

theorem decides_occurs (value operand : Value) :
    Decides (occurs value operand) (Meets value operand .pattern) (Stops operand .pattern) := by
  cases operand with
  | text written =>
    cases read : Pattern.ofText written.toList with
    | error m =>
      have equal : occurs value (.text written) = .error m := by
        simp only [occurs, read]
        rfl
      rw [equal]
      exact .of_error ⟨rfl, written, m, rfl, read⟩
    | ok found =>
      have goes : Stops (.text written) .pattern ↔ False := by simp [Stops, read]
      have met : Meets value (.text written) .pattern ↔
          ∃ s p, value = .text s ∧ found = some p ∧ p.occursIn s.toList = true := by
        simp [Meets, read]
      rw [goes, met]
      simp only [occurs, read, bind, Except.bind]
      split
      · exact .of_ok (by simp)
      · next other =>
        refine .of_ok ?_
        simp only [Bool.false_eq_true, false_iff]
        rintro ⟨s, p, rfl, rfl, -⟩
        exact other p s rfl rfl
  | _ => exact ⟨by rintro b ⟨⟩; simp [Meets], by simp [Stops, occurs, Except.isOk, Except.toBool]⟩

/-- A comparison has the answer that it asks for, unless its pattern cannot be tried. -/
theorem decides_holds (value operand : Value) (c : Comparator) :
    Decides (c.holds value operand) (c.Meets value operand) (c.Stops operand) := by
  have answered {b : Bool} (other : c ≠ .pattern) (h : b = true ↔ c.Meets value operand) :
      Decides (.ok b : Except PatternMishap Bool) (c.Meets value operand) (c.Stops operand) := by
    have goes : c.Stops operand ↔ False := by simp [Stops, other]
    rw [goes]
    exact .of_ok h
  cases c with
  | pattern => exact decides_occurs value operand
  | present => exact answered (by decide) (by rw [beq_iff_eq, Bool.eq_iff_iff, bne_iff_ne]; rfl)
  | equal | unequal | exactly => exact answered (by decide) (by simp [Meets])
  | above | atLeast | below | atMost =>
    exact answered (by decide) (by simp only [Meets]; exact ordered_eq_true_iff)
  | oneOf => exact answered (by decide) (by cases operand <;> simp [Meets, member?])
  | noneOf => exact answered (by decide) (by cases operand <;> simp [Meets, member?])

end Comparator

/-! ### Meanings -/

namespace Condition

/-- The conditions that a mapping combines: the members of the list under `and`, or else under `or`,
or else the mapping under `not`. -/
inductive Part (m : Mapping) : Value → Prop
  | conjunct {items x} : m.get? "and" = some (.list items) → x ∈ items → Part m x
  | disjunct {items x} : m.get? "and" = none → m.get? "or" = some (.list items) → x ∈ items →
      Part m x
  | denied {n} : m.get? "and" = none → m.get? "or" = none → m.get? "not" = some (.mapping n) →
      Part m (.mapping n)

variable {m : Mapping} {x v : Value} {store : Store}

/-- A part is smaller than the mapping. -/
theorem Part.sizeOf_lt (h : Part m x) : sizeOf x < sizeOf (Value.mapping m) := by
  cases h with
  | @conjunct items _ found mem | @disjunct items _ _ found mem =>
    have := Mapping.sizeOf_erase found
    have := List.sizeOf_lt_of_mem mem
    simp only [Prod.mk.sizeOf_spec, Value.list.sizeOf_spec, Value.mapping.sizeOf_spec] at *
    omega
  | denied _ _ found =>
    have := Mapping.sizeOf_erase found
    simp only [Prod.mk.sizeOf_spec, Value.mapping.sizeOf_spec] at *
    omega

/-- Induction along the parts of conditions. -/
theorem part_induction {motive : Value → Prop}
    (bare : ∀ v, (∀ m, v ≠ .mapping m) → motive v)
    (mapping : ∀ m, (∀ x, Part m x → motive x) → motive (.mapping m)) (v : Value) : motive v := by
  induction hsize : sizeOf v using Nat.strongRecOn generalizing v with
  | _ size ih =>
    subst hsize
    cases v with
    | mapping m => exact mapping m fun x part => ih _ part.sizeOf_lt x rfl
    | _ => exact bare _ (by simp)

/-- The meaning of a mapping that combines no conditions: it has a path, and the value there meets
every comparison on it or, without comparisons, is truthy. -/
def LeafMeans (store : Store) (m : Mapping) : Prop :=
  ∃ path, m.get? "path" = some path ∧
    let value := store.get (Address.ofValue path).path
    ((∀ c : Comparator, m.get? c.name = none) → value.isTruthy = true) ∧
      ∀ (c : Comparator) (operand : Value), m.get? c.name = some operand → c.Meets value operand

/-- The meaning of a condition, by recursion on the value. -/
def Means (blanks : Bool) (store : Store) (v : Value) : Prop :=
  match v with
  | .null => True
  | .mapping m =>
    m = [] ∨
      match _ : Mapping.get? m "and", _ : Mapping.get? m "or", _ : Mapping.get? m "not" with
      | some (.list items), _, _ => ∀ x, (_ : x ∈ items) → Means blanks store x
      | some _, _, _ => False
      | none, some (.list items), _ => ∃ x, ∃ _ : x ∈ items, Means blanks store x
      | none, some _, _ => False
      | none, none, some (.mapping n) => ¬ Means blanks store (.mapping n)
      | none, none, some _ => False
      | none, none, none => LeafMeans store m
  | v => blanks = true ∧ v.isTruthy = false
termination_by sizeOf v
decreasing_by
  · exact (Part.conjunct (by assumption) (by assumption)).sizeOf_lt
  · exact (Part.disjunct (by assumption) (by assumption) (by assumption)).sizeOf_lt
  · exact (Part.denied (by assumption) (by assumption) (by assumption)).sizeOf_lt

/-- Evaluation stops without an answer: it arrives at a pattern that cannot be tried, and what was
checked before did not settle the answer. -/
inductive Stops (store : Store) : Value → Prop
  | conjunct {m items} : Mapping.get? m "and" = some (.list items) →
      StopsIn (Means true store) (Stops store) items → Stops store (.mapping m)
  | disjunct {m items} : Mapping.get? m "and" = none → Mapping.get? m "or" = some (.list items) →
      StopsIn (fun x => ¬ Means true store x) (Stops store) items → Stops store (.mapping m)
  | denied {m n} : Mapping.get? m "and" = none → Mapping.get? m "or" = none →
      Mapping.get? m "not" = some (.mapping n) → Stops store (.mapping n) →
      Stops store (.mapping m)
  | leaf {m path} : Mapping.get? m "and" = none → Mapping.get? m "or" = none →
      Mapping.get? m "not" = none → Mapping.get? m "path" = some path →
      StopsIn (fun e : Comparison => e.1.Meets (store.get (Address.ofValue path).path) e.2)
        (fun e => e.1.Stops e.2) (comparisonsOf m) → Stops store (.mapping m)

/-! ### The condition that a value writes -/

theorem ofItems_eq (items : List Value) : ofItems items = items.map ofValue := by
  induction items with
  | nil => rfl
  | cons x rest ih => rw [ofItems, ih, List.map_cons]

theorem listUnder_eq (key : String) (m : Mapping) :
    listUnder key m = (Mapping.get? m key).map fun v =>
      match v with
      | .list items => some (items.map ofValue)
      | _ => none := by
  induction m with
  | nil => rfl
  | cons e rest ih =>
    obtain ⟨k, v⟩ := e
    rw [listUnder.eq_def, Mapping.get?]
    dsimp only
    split
    · cases v <;> simp [ofItems_eq]
    · exact ih

theorem mappingUnder_eq (key : String) (m : Mapping) :
    mappingUnder key m = (Mapping.get? m key).map fun v =>
      match v with
      | .mapping n => some (ofValue (.mapping n))
      | _ => none := by
  induction m with
  | nil => rfl
  | cons e rest ih =>
    obtain ⟨k, v⟩ := e
    rw [mappingUnder.eq_def, Mapping.get?]
    dsimp only
    split
    · cases v <;> rfl
    · exact ih

theorem allHold_eq (items : List Value) :
    allHold store (items.map ofValue) = checkEach (valueHolds store) items := by
  induction items with
  | nil => rfl
  | cons x rest ih =>
    rw [List.map_cons, allHold, checkEach, ih]
    rfl

theorem anyHolds_eq (items : List Value) :
    anyHolds store (items.map ofValue) =
      (checkEach (fun x => (valueHolds store x).map (!·)) items).map (!·) := by
  induction items with
  | nil => rfl
  | cons x rest ih =>
    rw [List.map_cons, anyHolds, checkEach, ih, valueHolds]
    rcases holds store (ofValue x) with _ | _ | _ <;> rfl

theorem eachHolds_eq (value : Value) (comparisons : List Comparison) :
    eachHolds value comparisons = checkEach (fun e => e.1.holds value e.2) comparisons := by
  induction comparisons with
  | nil => rfl
  | cons e rest ih => rw [eachHolds, checkEach, ih]

theorem valueHolds_mapping (some_entry : m ≠ []) :
    valueHolds store (.mapping m) =
      match Mapping.get? m "and", Mapping.get? m "or", Mapping.get? m "not" with
      | some (.list items), _, _ => checkEach (valueHolds store) items
      | some _, _, _ => .ok false
      | none, some (.list items), _ =>
        (checkEach (fun x => (valueHolds store x).map (!·)) items).map (!·)
      | none, some _, _ => .ok false
      | none, none, some (.mapping n) => (valueHolds store (.mapping n)).map (!·)
      | none, none, some _ => .ok false
      | none, none, none => (leafOf m).holds store := by
  have filled : m.isEmpty = false := by simpa using some_entry
  rw [valueHolds, ofValue, filled, if_neg Bool.false_ne_true, listUnder_eq, listUnder_eq,
    mappingUnder_eq]
  cases Mapping.get? m "and" with
  | some v => cases v <;> simp [holds, allHold_eq]
  | none =>
    cases Mapping.get? m "or" with
    | some v => cases v <;> simp [holds, anyHolds_eq]
    | none =>
      cases Mapping.get? m "not" with
      | some v => cases v <;> simp [holds, valueHolds]
      | none => rfl

/-! ### Leaves -/

theorem mem_comparisonsOf {c : Comparator} {operand : Value} :
    (c, operand) ∈ comparisonsOf m ↔ Mapping.get? m c.name = some operand := by
  have listed : c ∈ Comparator.all := by cases c <;> decide
  simp [comparisonsOf, listed]

theorem comparisonsOf_eq_nil_iff :
    comparisonsOf m = [] ↔ ∀ c : Comparator, Mapping.get? m c.name = none := by
  have listed (c : Comparator) : c ∈ Comparator.all := by cases c <;> decide
  simp [comparisonsOf, List.filterMap_eq_nil_iff, listed]

/-- The comparisons of a leaf are checked in order; without any, the value is to be truthy. -/
theorem decides_comparisonsHold (value : Value) (m : Mapping) :
    Decides (comparisonsHold value (comparisonsOf m))
      (((∀ c : Comparator, Mapping.get? m c.name = none) → value.isTruthy = true) ∧
        ∀ (c : Comparator) (operand : Value), Mapping.get? m c.name = some operand →
          c.Meets value operand)
      (StopsIn (fun e : Comparison => e.1.Meets value e.2) (fun e => e.1.Stops e.2)
        (comparisonsOf m)) := by
  have each := Decides.each (l := comparisonsOf m) fun e _ => e.1.decides_holds value e.2
  simp only [Prod.forall, mem_comparisonsOf] at each
  rw [← comparisonsOf_eq_nil_iff, comparisonsHold]
  cases found : comparisonsOf m with
  | nil =>
    have none_given := comparisonsOf_eq_nil_iff.1 found
    simpa [none_given, stopsIn_nil] using Decides.of_ok (ε := PatternMishap) (Iff.rfl)
  | cons e rest =>
    have some_given : comparisonsOf m ≠ [] := by simp [found]
    rw [found] at each some_given
    simpa [eachHolds_eq] using each

/-! ### Evaluation -/

theorem valueHolds_bare (bare : ∀ m, v ≠ .mapping m) :
    valueHolds store v = .ok (!v.isTruthy) := by
  have condition : ofValue v = if v.isTruthy then .never else .always := by
    cases v with
    | mapping m => exact absurd rfl (bare m)
    | _ => rfl
  rw [valueHolds, condition]
  cases v.isTruthy <;> rfl

theorem means_bare {blanks : Bool} (bare : ∀ m, v ≠ .mapping m) :
    Means blanks store v ↔ v = .null ∨ blanks = true ∧ v.isTruthy = false := by
  cases v with
  | mapping m => exact absurd rfl (bare m)
  | _ => simp [Means]

theorem not_stops_bare (bare : ∀ m, v ≠ .mapping m) : ¬ Stops store v := by
  rintro (_ | _ | _ | _) <;> exact bare _ rfl

theorem stops_mapping_iff :
    Stops store (.mapping m) ↔
      match Mapping.get? m "and", Mapping.get? m "or", Mapping.get? m "not" with
      | some (.list items), _, _ => StopsIn (Means true store) (Stops store) items
      | some _, _, _ => False
      | none, some (.list items), _ =>
        StopsIn (fun x => ¬ Means true store x) (Stops store) items
      | none, some _, _ => False
      | none, none, some (.mapping n) => Stops store (.mapping n)
      | none, none, some _ => False
      | none, none, none => ∃ path, Mapping.get? m "path" = some path ∧
          StopsIn (fun e : Comparison => e.1.Meets (store.get (Address.ofValue path).path) e.2)
            (fun e => e.1.Stops e.2) (comparisonsOf m) := by
  constructor
  · rintro (⟨hand, stopped⟩ | ⟨hand, hor, stopped⟩ | ⟨hand, hor, hnot, stopped⟩ |
      ⟨hand, hor, hnot, path, stopped⟩)
    · simpa only [hand] using stopped
    · simpa only [hand, hor] using stopped
    · simpa only [hand, hor, hnot] using stopped
    · simpa only [hand, hor, hnot] using ⟨_, path, stopped⟩
  · intro h
    split at h
    · next hand => exact .conjunct hand h
    · exact h.elim
    · next hand hor => exact .disjunct hand hor h
    · exact h.elim
    · next hand hor hnot => exact .denied hand hor hnot h
    · exact h.elim
    · next hand hor hnot =>
      obtain ⟨path, found, stopped⟩ := h
      exact .leaf hand hor hnot found stopped

theorem decides_leaf (store : Store) (m : Mapping) :
    Decides ((leafOf m).holds store) (LeafMeans store m)
      (∃ path, Mapping.get? m "path" = some path ∧
        StopsIn (fun e : Comparison => e.1.Meets (store.get (Address.ofValue path).path) e.2)
          (fun e => e.1.Stops e.2) (comparisonsOf m)) := by
  rw [leafOf, LeafMeans]
  cases Mapping.get? m "path" with
  | none => simpa [holds] using Decides.of_ok (ε := PatternMishap) (b := false) (P := False) (by simp)
  | some path =>
    simp only [Option.some.injEq, exists_eq_left', holds]
    exact decides_comparisonsHold _ m

/-- The answer of a mapping, from those of its parts. -/
theorem decides_mapping (some_entry : m ≠ [])
    (parts : ∀ x, Part m x → Decides (valueHolds store x) (Means true store x) (Stops store x)) :
    Decides (valueHolds store (.mapping m)) (Means true store (.mapping m))
      (Stops store (.mapping m)) := by
  have malformed : Decides (.ok false : Except PatternMishap Bool) False False := .of_ok (by simp)
  rw [valueHolds_mapping some_entry, Means, stops_mapping_iff]
  simp only [some_entry, false_or]
  cases hand : Mapping.get? m "and" with
  | some v =>
    cases v with
    | list items => exact .each fun x hx => parts x (.conjunct hand hx)
    | _ => exact malformed
  | none =>
    cases hor : Mapping.get? m "or" with
    | some v =>
      cases v with
      | list items => simpa using Decides.some fun x hx => parts x (.disjunct hand hor hx)
      | _ => exact malformed
    | none =>
      cases hnot : Mapping.get? m "not" with
      | some v =>
        cases v with
        | mapping n => exact (parts _ (.denied hand hor hnot)).not
        | _ => exact malformed
      | none => exact decides_leaf store m

/-- Evaluation answers with the meaning in which blank values hold, unless it stops. -/
theorem decides_valueHolds (store : Store) (v : Value) :
    Decides (valueHolds store v) (Means true store v) (Stops store v) := by
  induction v using part_induction with
  | bare v bare =>
    have goes : Stops store v ↔ False := iff_of_false (not_stops_bare bare) id
    rw [valueHolds_bare bare, means_bare bare, goes]
    refine .of_ok ?_
    cases v <;> simp [Value.isTruthy]
  | mapping m parts =>
    cases m with
    | cons e rest => exact decides_mapping (List.cons_ne_nil e rest) parts
    | nil =>
      have goes : Stops store (.mapping []) ↔ False := by simp [stops_mapping_iff, Mapping.get?]
      have holds : Means true store (.mapping []) := by
        rw [Means]
        exact .inl rfl
      rw [goes]
      exact .of_ok (by simpa using holds)

/-! ### Blank values -/

/-- A value that is not truthy, and neither null nor a mapping, stands for a condition: the value
itself, or a value inside it. -/
inductive HoldsBlank : Value → Prop
  | here {v : Value} : v ≠ .null → (∀ m, v ≠ .mapping m) → v.isTruthy = false → HoldsBlank v
  | inside {m : Mapping} {x : Value} : Part m x → HoldsBlank x → HoldsBlank (.mapping m)

/-- Where no blank value stands for a condition, it makes no difference whether they hold. -/
theorem means_congr (blanks : Bool) (store : Store) (h : ¬ HoldsBlank v) :
    Means blanks store v ↔ Means false store v := by
  induction v using part_induction with
  | bare v bare =>
    rw [means_bare bare, means_bare bare]
    by_cases isNull : v = .null
    · simp [isNull]
    · have truthy : ¬ v.isTruthy = false := fun blank => h (.here isNull bare blank)
      simp [truthy]
  | mapping m ih =>
    have parts (x : Value) (part : Part m x) : Means blanks store x ↔ Means false store x :=
      ih x part fun blank => h (.inside part blank)
    rw [Means, Means]
    refine or_congr_right ?_
    cases hand : Mapping.get? m "and" with
    | some v =>
      cases v with
      | list items => exact forall₂_congr fun x hx => parts x (.conjunct hand hx)
      | _ => exact Iff.rfl
    | none =>
      cases hor : Mapping.get? m "or" with
      | some v =>
        cases v with
        | list items => exact exists₂_congr fun x hx => parts x (.disjunct hand hor hx)
        | _ => exact Iff.rfl
      | none =>
        cases hnot : Mapping.get? m "not" with
        | some v =>
          cases v with
          | mapping n => exact not_congr (parts _ (.denied hand hor hnot))
          | _ => exact Iff.rfl
        | none => exact Iff.rfl

/-! ### Faithful evaluation -/

/-- Evaluation gives an answer, and it is the one that the value means, where of the values that are
no mappings only null holds. -/
def Faithful (store : Store) (v : Value) : Prop :=
  ∃ b, valueHolds store v = .ok b ∧ (b = true ↔ Means false store v)

/-- **Evaluation is faithful** exactly where it does not arrive at a pattern that cannot be tried and
it makes no difference whether blank values hold, as where no blank value stands for a condition. -/
theorem faithful_iff (store : Store) (v : Value) :
    (Faithful store v ↔ ¬ Stops store v ∧ (Means true store v ↔ Means false store v)) ∧
      (¬ HoldsBlank v → (Means true store v ↔ Means false store v)) := by
  refine ⟨?_, means_congr true store⟩
  have decided := decides_valueHolds store v
  constructor
  · rintro ⟨b, found, meant⟩
    obtain ⟨goes, answer⟩ := decided.eq_ok_iff.1 found
    exact ⟨goes, answer.symm.trans meant⟩
  · rintro ⟨goes, same⟩
    classical
    refine ⟨decide (Means true store v), decided.eq_ok_iff.2 ⟨goes, by simp⟩, ?_⟩
    rw [decide_eq_true_iff]
    exact same

/-- A list under `and` whose only member is false is evaluated as if it were empty, and a count that
is too large for a pattern leaves a leaf without an answer. -/
theorem blank_member_holds :
    let store := Store.ofData [("a", .text "x")]
    let blankMember : Value := .mapping [("and", .list [.bool false])]
    let hugeCount : Value :=
      .mapping [("path", .text "a"), ("match", .text "x\x7b4294967295\x7d")]
    (valueHolds store blankMember = .ok true ∧ ¬ Faithful store blankMember) ∧
      (valueHolds store hugeCount = .error .hugeCount ∧ ¬ Faithful store hugeCount) := by
  intro store blankMember hugeCount
  have opens : valueHolds store blankMember = .ok true := rfl
  have stops : valueHolds store hugeCount = .error .hugeCount := by decide +kernel
  refine ⟨⟨opens, ?_⟩, stops, ?_⟩
  · rintro ⟨b, found, meant⟩
    rw [opens] at found
    cases found
    have shut : ¬ Means false store blankMember := by
      simp [blankMember, Means, Mapping.get?]
    exact shut (meant.1 rfl)
  · rintro ⟨b, found, -⟩
    rw [stops] at found
    cases found

end Condition

end PatchScript
