import PatchScript.Proofs.Condition.Leaf
import PatchScript.Proofs.Operation.Effect
import PatchScript.Proofs.Operation.Wire

/-!
# Tests and guards

A test by comparators and the condition of an operation ask the same of a document when they have
the same path and the same comparators. The two get there on different ways: the comparators of a
test are fields of a form, so their operands are converted, while those of a condition are compared
as they stand.

Only one field is converted to something that compares differently. Whether a value is present can
be asked with a word for false, and then the test asks for the absence of the value. In a condition
the same word is a text, and a text that is not empty is truthy, so there it asks for its presence.

## Main definitions

* `AsksInWords` — presence is asked with a word for false
* `OthersMet` — every other comparator is met

## Main results

* `get?_operands_of_ofValue` — the operands of a test, field by field
* `leafMet_converted`, `leafMet_iff_of_asksInWords` — the two leaves compared
* `Operation.test_agrees_with_guard_iff` — the headline: when tests and guards agree
-/

namespace PatchScript

variable {path : String} {fields : Mapping} {s : Store} {o g : Operation} {regime : Regime}

/-! ### Operands as they stand and as they are converted -/

/-- Whether a value is present is asked with a word for false. -/
def AsksInWords (fields : Mapping) : Prop :=
  ∃ word, fields.get? "exists" = some (.text word) ∧ FieldReader.flag (.text word) = .ok false

/-- Every comparator but the one that asks for presence is met. -/
def OthersMet (value : Value) (fields : Mapping) : Prop :=
  ∀ c ≠ Comparator.present, ∀ operand, fields.get? c.name = some operand → c.Meets value operand

theorem Magnitude.toRat_eq_zero_iff (x : Magnitude) : x.toRat = 0 ↔ x.mantissa = 0 := by
  have power : (2 : Rat) ^ x.exponent ≠ 0 := (Rat.ne_of_lt (Rat.zpow_pos (by decide))).symm
  rw [toRat, Rat.mul_eq_zero, or_iff_left power]
  exact_mod_cast Iff.rfl

/-- A whole number is zero exactly where the integer that it equals is. -/
theorem Binary64.isZero_iff_of_toInt? {x : Binary64} {n : Int} (h : x.toInt? = some n) :
    x.isZero = true ↔ n = 0 := by
  unfold toInt? at h
  split at h
  · next negative x =>
    split at h
    · rw [isZero, beq_iff_eq, ← x.toRat_eq_zero_iff, ← Rat.num_eq_zero]
      cases negative <;> simp at h <;> omega
    · cases h
  · cases h

namespace FieldReader

/-- A word that is a truth value is not empty. -/
theorem ne_empty_of_flag {word : String} {b : Bool} (h : flag (.text word) = .ok b) :
    word ≠ "" := by
  rintro rfl
  cases h

/-- What is taken as a truth value, and is no word, is truthy as it is taken. -/
theorem isTruthy_of_flag {v : Value} {b : Bool} (h : flag v = .ok b)
    (bare : ∀ word, v ≠ .text word) : v.isTruthy = b := by
  have small {n : Number} {k : Int} (h : smallInteger? n = some k) : n.isZero = true ↔ k = 0 := by
    cases n with
    | int m =>
      obtain ⟨-, rfl⟩ : Number.isInt64 m = true ∧ m = k := by simpa [smallInteger?] using h
      exact beq_iff_eq
    | float x => exact Binary64.isZero_iff_of_toInt? (Option.filter_eq_some_iff.1 h).1
  cases v with
  | bool c =>
    cases h
    rfl
  | number n =>
    simp only [flag] at h
    split at h
    · next zero =>
      cases h
      simp [Value.isTruthy, (small zero).2 rfl]
    · next one =>
      cases h
      have nonzero : n.isZero ≠ true := fun isZero => absurd ((small one).1 isZero) (by decide)
      simp [Value.isTruthy, nonzero]
    · cases h
    · cases h
  | text word => exact absurd rfl (bare word)
  | _ => cases h

end FieldReader

/-- The operand of a comparator is converted to itself, unless the comparator asks for presence. -/
theorem operand_eq_self {c : Comparator} {v w : Value} (h : operand c v = .ok w)
    (other : c ≠ .present) : w = v := by
  cases c with
  | present => exact absurd rfl other
  | pattern =>
    obtain ⟨field, read, rfl⟩ := map_eq_ok_iff.1 h
    cases v with
    | null =>
      cases read
      rfl
    | text word =>
      cases read
      rfl
    | _ => cases read
  | _ =>
    cases h
    rfl

/-- What asks for presence is truthy before the conversion as after it, unless it is a word for
false. -/
theorem isTruthy_operand_present {v w : Value} (h : operand .present v = .ok w)
    (plain : ∀ word, v = .text word → FieldReader.flag v ≠ .ok false) :
    w.isTruthy = v.isTruthy := by
  obtain ⟨field, read, rfl⟩ := map_eq_ok_iff.1 h
  by_cases null : v = .null
  · subst null
    cases read
    rfl
  rw [FieldReader.nullable_of_ne_null _ null] at read
  obtain ⟨b, flag, rfl⟩ := map_eq_ok_iff.1 read
  by_cases bare : ∀ word, v ≠ .text word
  · exact (FieldReader.isTruthy_of_flag flag bare).symm
  · push Not at bare
    obtain ⟨word, rfl⟩ := bare
    have filled := FieldReader.ne_empty_of_flag flag
    cases b with
    | true => simp [nullOr, Value.isTruthy, filled]
    | false => exact absurd flag (plain word rfl)

/-! ### The operands of a test -/

/-- The form of a test by comparators. -/
def testForm (path : String) (fields : Mapping) : Mapping :=
  ("op", .text "test") :: leafWith path fields

/-- A field that a form has under none of its names is left out. -/
theorem optional_eq_none {α : Type} {form : Mapping} {names : List String}
    (absent : ∀ name ∈ names, form.get? name = none) (reader : FieldReader α) :
    optional form names reader = .ok none := by
  have nowhere : fieldEntry? form names = none := by
    rw [ fieldEntry?, List.findSome?_eq_none_iff]
    intro name hname
    rw [absent name hname, Option.map_none]
  rw [optional, nowhere]

/-- A field that a form has under its first name, or under none, is converted from there. -/
theorem rel_of_optional_eq_ok {α : Type} {form : Mapping} {name : String} {others : List String}
    {reader : FieldReader α} {field : Option α}
    (absent : ∀ other ∈ others, form.get? other = none)
    (read : optional form (name :: others) reader = .ok field) :
    Option.Rel (fun v a => reader v = .ok a) (form.get? name) field := by
  cases found : form.get? name with
  | none =>
    rw [optional_eq_none (List.forall_mem_cons.2 ⟨found, absent⟩)] at read
    cases read
    exact .none
  | some v =>
    rw [optional, fieldEntry?, List.findSome?_cons, found, Option.map_some] at read
    obtain ⟨a, taken, rfl⟩ := map_eq_ok_iff.1 (Checked.within_eq_ok_iff.1 read)
    exact .some taken

theorem get?_testForm (h : ComparesOnly fields) {key : String}
    (foreign : ∀ c : Comparator, c.name ≠ key) (path : String) :
    (testForm path fields).get? key =
      if "op" = key then some (.text "test")
      else if "path" = key then some (.text path) else none := by
  simp only [testForm, leafWith, Mapping.get?, h.get?_eq_none foreign]

theorem get?_testForm_name (path : String) (fields : Mapping) (c : Comparator) :
    (testForm path fields).get? c.name = fields.get? c.name := by
  rw [testForm, Mapping.get?, get?_leafWith, if_neg]
  cases c <;> decide

namespace Operation

/-- What is read of the form of a test without an expected value: a test at its path, without a
condition, by comparators that were converted one by one. -/
theorem test_of_ofValue (compares : ComparesOnly fields) (unexpected : fields.get? "value" = none)
    (valid : ofValue (.mapping (testForm path fields)) = .ok o) :
    o.path = path ∧ o.guard? = none ∧
      ∃ given, o.body = .test none (comparisonsWith given testComparators) ∧
        ∀ c ∈ testComparators,
          optional (testForm path fields) (comparatorNames c) (operand c) = .ok (given c) := by
  have read : ofForm .test true (testForm path fields) = .ok o := Checked.within_eq_ok_iff.1 valid
  obtain ⟨_, body, shared, own, rfl⟩ := Checked.ap_eq_ok_iff.1 read
  obtain ⟨_, reason, guarded, -, rfl⟩ := Checked.ap_eq_ok_iff.1 shared
  obtain ⟨_, guard, placed, guardRead, rfl⟩ := Checked.ap_eq_ok_iff.1 guarded
  obtain ⟨_, written, started, pathRead, rfl⟩ := Checked.ap_eq_ok_iff.1 placed
  cases started
  obtain ⟨_, comparisons, begun, compared, rfl⟩ := Checked.ap_eq_ok_iff.1 own
  obtain ⟨_, expected, opened, expectedRead, rfl⟩ := Checked.ap_eq_ok_iff.1 begun
  cases opened
  have noGuard : ∀ name ∈ ["if", "if_"], (testForm path fields).get? name = none := by
    intro name hname
    have foreign (c : Comparator) : c.name ≠ name := by
      revert name
      cases c <;> decide
    rw [get?_testForm compares foreign]
    simp only [List.mem_cons, List.not_mem_nil, or_false] at hname
    obtain rfl | rfl := hname <;> rfl
  have noExpected : ∀ name ∈ ["value"], (testForm path fields).get? name = none := by
    intro name hname
    obtain rfl := List.mem_singleton.1 hname
    exact (get?_testForm_name path fields .exactly).trans unexpected
  rw [optional_eq_none noGuard] at guardRead
  rw [optional_eq_none noExpected] at expectedRead
  have place : required (testForm path fields) ["path"] FieldReader.text = .ok path :=
    required_eq_ok rfl rfl
  rw [place] at pathRead
  cases guardRead
  cases expectedRead
  cases pathRead
  obtain ⟨given, equal, all_read, -⟩ := exists_given_of_comparisonsOver compared
  exact ⟨rfl, rfl, given, by rw [equal], all_read⟩

/-- **The operands of a test**, field by field: those of the form, each converted as its comparator
takes it. -/
theorem get?_operands_of_ofValue (compares : ComparesOnly fields)
    (unexpected : fields.get? "value" = none)
    (valid : ofValue (.mapping (testForm path fields)) = .ok o) (c : Comparator) :
    Option.Rel (fun v w => operand c v = .ok w) (fields.get? c.name)
      ((comparisonEntries o.comparisons).get? c.name) := by
  obtain ⟨-, -, given, body, all_read⟩ := test_of_ofValue compares unexpected valid
  have read : (comparisonEntries o.comparisons).get? c.name =
      if c ∈ testComparators then given c else none := by
    rw [← get?_comparisonsWith, comparisons, body]
  rw [read, ← get?_testForm_name path fields c]
  by_cases listed : c ∈ testComparators
  · rw [if_pos listed]
    have other : ∀ name ∈ (comparatorNames c).tail, (testForm path fields).get? name = none := by
      intro name hname
      obtain rfl : name = "in_" := by
        revert hname
        unfold comparatorNames
        split <;> simp
      rw [get?_testForm compares (by intro c; cases c <;> decide)]
      rfl
    have names : comparatorNames c = c.name :: (comparatorNames c).tail := by
      unfold comparatorNames
      split <;> rfl
    have converted := all_read c listed
    rw [names] at converted
    exact rel_of_optional_eq_ok other converted
  · obtain rfl : c = .exactly := by
      revert listed
      cases c <;> decide
    have nothing : fields.get? Comparator.exactly.name = none := unexpected
    rw [if_neg listed, get?_testForm_name, nothing]
    exact .none

end Operation

/-! ### The two leaves compared -/

section

variable {α β : Type} {r : α → β → Prop} {x : Option α} {y : Option β}

theorem eq_none_iff_of_rel (h : Option.Rel r x y) : y = none ↔ x = none := by
  cases h <;> simp

theorem exists_of_rel_some {a : α} (h : Option.Rel r (some a) y) : ∃ b, y = some b ∧ r a b := by
  cases h with
  | some related => exact ⟨_, rfl, related⟩

theorem forall_some_iff_of_rel {P : α → Prop} {Q : β → Prop} (h : Option.Rel r x y)
    (same : ∀ a b, x = some a → r a b → (Q b ↔ P a)) :
    (∀ b, y = some b → Q b) ↔ ∀ a, x = some a → P a := by
  cases h with
  | none => simp
  | some related => simpa using same _ _ rfl related

end

variable {value : Value} {converted : Mapping}

/-- The question of presence is answered with yes, where it is asked. -/
def PresenceMet (value : Value) (fields : Mapping) : Prop :=
  ∀ operand, fields.get? "exists" = some operand → (value ≠ .null ↔ operand.isTruthy = true)

/-- What a leaf asks of a value, with the question of presence apart. -/
theorem leafMet_iff :
    LeafMet value fields ↔
      ((∀ c : Comparator, fields.get? c.name = none) → value.isTruthy = true) ∧
        OthersMet value fields ∧ PresenceMet value fields := by
  refine and_congr_right fun _ => ⟨fun met => ⟨fun c _ => met c, met .present⟩, ?_⟩
  rintro ⟨others, present⟩ c
  by_cases asks : c = .present
  · subst asks
    exact present
  · exact others c asks

section

variable (rel : ∀ c : Comparator,
  Option.Rel (fun v w => operand c v = .ok w) (fields.get? c.name) (converted.get? c.name))

include rel

/-- Every comparator but the one that asks for presence compares with the same operand. -/
theorem othersMet_converted : OthersMet value converted ↔ OthersMet value fields := by
  refine forall₂_congr fun c other => forall_some_iff_of_rel (rel c) fun v w _ taken => ?_
  rw [operand_eq_self taken other]

/-- Where presence is not asked in words, the converted leaf asks the same. -/
theorem leafMet_converted (plain : ¬ AsksInWords fields) :
    LeafMet value converted ↔ LeafMet value fields := by
  have presence : PresenceMet value converted ↔ PresenceMet value fields := by
    refine forall_some_iff_of_rel (rel .present) fun v w given taken => ?_
    have same : w.isTruthy = v.isTruthy := isTruthy_operand_present taken fun word hv reads =>
      plain ⟨word, by rw [← hv]; exact given, by rw [← hv]; exact reads⟩
    rw [same]
  rw [leafMet_iff, leafMet_iff, othersMet_converted rel, presence]
  simp only [fun c => eq_none_iff_of_rel (rel c)]

/-- Where presence is asked with a word for false, the converted leaf asks for an absent value and
the leaf itself for one that is there. -/
theorem leafMet_iff_of_asksInWords (words : AsksInWords fields) :
    (LeafMet value converted ↔ OthersMet value fields ∧ value = .null) ∧
      (LeafMet value fields ↔ OthersMet value fields ∧ value ≠ .null) := by
  obtain ⟨word, given, reads⟩ := words
  have asked : ¬ ∀ c : Comparator, fields.get? c.name = none := fun none_given => by
    have nothing : fields.get? "exists" = none := none_given .present
    rw [given] at nothing
    cases nothing
  have taken : converted.get? "exists" = some (.bool false) := by
    have related := rel .present
    rw [show fields.get? Comparator.present.name = some (.text word) from given] at related
    obtain ⟨w, found, converts⟩ := exists_of_rel_some related
    obtain ⟨field, read, rfl⟩ := map_eq_ok_iff.1 converts
    rw [FieldReader.nullable_of_ne_null _ (fun null => Value.noConfusion null), reads] at read
    cases read
    exact found
  have truthy : (Value.text word).isTruthy = true := by
    simp [Value.isTruthy, FieldReader.ne_empty_of_flag reads]
  rw [leafMet_iff, leafMet_iff, othersMet_converted rel]
  simp [fun c => eq_none_iff_of_rel (rel c), asked, PresenceMet, given, taken, truthy,
    show (Value.bool false).isTruthy = false from rfl]

end

/-! ### Runs -/

namespace Operation

/-- A test by comparators succeeds exactly where the value at its path meets them. -/
theorem isSuccess_run_test {comparisons : List Comparison} (free : o.guard? = none)
    (body : o.body = .test none comparisons) (regime : Regime) (s : Store) :
    (o.run regime s).2.isSuccess = true ↔
      LeafMet (s.get (Path.parse o.path)) (comparisonEntries o.comparisons) := by
  have due : o.isDue s = .ok true := by simp only [isDue, free]
  have admitted : o.refusal? s = none := by simp only [refusal?, body]
  have effect :
      o.run regime s = recordEffect (s, (o.test s none comparisons).map fun _ => none) := by
    simp only [run, due, admitted, ite_self, effect_eq, body]
  rw [← Condition.valueHolds_leafWith_eq_true_iff (comparesOnly_comparisonEntries _), ← leaf_eq,
    effect, test]
  rcases Condition.valueHolds s (.mapping o.leaf) with m | _ | _ <;>
    simp [recordEffect, Except.map, Outcome.isSuccess, Outcome.failure?]

/-- An operation is skipped exactly where its condition does not hold. -/
theorem run_eq_skipped_iff {condition : Mapping} (guarded : g.guard? = some condition)
    (regime : Regime) (s : Store) :
    (g.run regime s).2 = .skipped ↔ Condition.valueHolds s (.mapping condition) = .ok false := by
  have due : g.isDue s = Condition.valueHolds s (.mapping condition) := by
    simp only [isDue, guarded]
  have recorded (e : Effect (Option Change)) : (recordEffect e).2 ≠ .skipped := by
    obtain ⟨_, _ | _ | change⟩ := e
    · exact Outcome.noConfusion
    · exact Outcome.noConfusion
    · simp only [recordEffect]
      split <;> exact Outcome.noConfusion
  rw [← due]
  unfold run
  split
  · next h => simp [h]
  · next h => simp [h]
  · next h =>
    rw [h]
    split
    · simp
    · simp [recorded]

/-- **Tests and guards agree** — the test succeeds exactly where the operation under the condition
is not skipped — unless presence is asked with a word for false while every other comparator is met,
or the condition stops at a pattern that cannot be tried. -/
theorem test_agrees_with_guard_iff (compares : ComparesOnly fields)
    (unexpected : fields.get? "value" = none)
    (valid : ofValue (.mapping (testForm path fields)) = .ok o)
    (guarded : g.guard? = some (leafWith path fields)) (regime : Regime) (s : Store) :
    ((o.run regime s).2.isSuccess = true ↔ (g.run regime s).2 ≠ .skipped) ↔
      ¬ (AsksInWords fields ∧ OthersMet (s.get (Path.parse path)) fields) ∧
        ¬ Condition.Stops s (.mapping (leafWith path fields)) := by
  obtain ⟨rfl, free, given, body, -⟩ := test_of_ofValue compares unexpected valid
  have rel := get?_operands_of_ofValue compares unexpected valid
  have decided := Condition.decides_leafWith compares s o.path
  have unstopped : OthersMet (s.get (Path.parse o.path)) fields →
      ¬ Condition.Stops s (.mapping (leafWith o.path fields)) := fun others =>
    Condition.not_stops_leafWith compares (others .pattern (by decide))
  rw [isSuccess_run_test free body, ne_eq, run_eq_skipped_iff guarded, decided.eq_ok_iff]
  simp only [Bool.false_eq_true, false_iff]
  by_cases words : AsksInWords fields
  · have ⟨absent, present⟩ := @leafMet_iff_of_asksInWords _ (s.get (Path.parse o.path)) _ rel words
    rw [absent, present]
    by_cases others : OthersMet (s.get (Path.parse o.path)) fields
    · have goes := unstopped others
      by_cases null : s.get (Path.parse o.path) = .null <;> simp [words, others, goes, null]
    · simp [words, others]
  · rw [leafMet_converted rel words]
    by_cases met : LeafMet (s.get (Path.parse o.path)) fields
    · simp [words, met, unstopped (leafMet_iff.1 met).2.1]
    · simp [words, met]

/-- Presence is asked with a word for true, and membership of a list: the test succeeds where the
value is an item, and there the addition under the condition takes place. -/
theorem test_agrees_with_guard_item :
    let fields : Mapping := [("exists", .text "Yes"), ("in", .list [.int 1, .int 5])]
    let test : Operation :=
      { path := "a", tagged := true,
        body := .test none [(.oneOf, .list [.int 1, .int 5]), (.present, .bool true)] }
    let guarded : Operation :=
      { path := "b", guard := some (some (leafWith "a" fields)), body := .add (some (.int 2)) }
    let regime : Regime := ⟨false, ⟨512, 64⟩⟩
    ComparesOnly fields ∧ fields.get? "value" = none ∧
      ofValue (.mapping (testForm "a" fields)) = .ok test ∧
      guarded.guard? = some (leafWith "a" fields) ∧
      ∀ s : Store,
        ((test.run regime s).2.isSuccess = true ↔ (guarded.run regime s).2 ≠ .skipped) := by
  intro fields test guarded regime
  have compares : ComparesOnly fields := by
    intro key hkey
    obtain rfl | rfl : key = "exists" ∨ key = "in" := by simpa [fields, Mapping.keys] using hkey
    · exact ⟨.present, rfl⟩
    · exact ⟨.oneOf, rfl⟩
  have valid : ofValue (.mapping (testForm "a" fields)) = .ok test := by rfl
  refine ⟨compares, rfl, valid, rfl, fun s => ?_⟩
  refine (test_agrees_with_guard_iff compares rfl valid rfl regime s).2 ⟨?_, ?_⟩
  · rintro ⟨⟨word, given, reads⟩, -⟩
    obtain rfl : "Yes" = word := by simpa [fields, Mapping.get?] using given
    exact absurd reads (by decide)
  · have unmatched : ∀ operand, fields.get? "match" = some operand →
        Comparator.pattern.Meets .null operand := by simp [fields, Mapping.get?]
    exact Condition.not_stops_leafWith compares unmatched

/-- Asked for with the word `false`, a value that is there fails the test and lets the addition
happen. And a count that is too large for a pattern fails both, so that nothing is skipped. -/
theorem test_disagrees_with_guard :
    let guarded (fields : Mapping) : Operation :=
      { path := "b", guard := some (some (leafWith "a" fields)), body := .add (some (.int 2)) }
    let regime : Regime := ⟨false, ⟨512, 64⟩⟩
    (let s := Store.ofData [("a", .int 1)]
      let fields : Mapping := [("exists", .text "false")]
      ∃ test, ofValue (.mapping (testForm "a" fields)) = .ok test ∧
        ¬ ((test.run regime s).2.isSuccess = true ↔ ((guarded fields).run regime s).2 ≠ .skipped)) ∧
      (let s := Store.ofData [("a", .text "x")]
        let fields : Mapping := [("match", .text "x\x7b4294967295\x7d")]
        ∃ test, ofValue (.mapping (testForm "a" fields)) = .ok test ∧
          ¬ ((test.run regime s).2.isSuccess = true ↔
            ((guarded fields).run regime s).2 ≠ .skipped)) := by
  intro guarded regime
  constructor
  · exact ⟨_, rfl, by decide +kernel⟩
  · exact ⟨_, rfl, by decide +kernel⟩

end Operation

end PatchScript
