import PatchScript.Proofs.Condition.Meaning
import PatchScript.Proofs.Operation.Wire

/-!
# Leaves

A mapping that has a path and comparators, and nothing else, is a leaf wherever a condition is
evaluated: no comparator has the name of a key that combines conditions. What it says depends on the
value at its path alone.

## Main definitions

* `leafWith` — the leaf with a path and some fields
* `ComparesOnly` — every field is a comparator
* `LeafMet` — what a leaf asks of the value at its path

## Main results

* `Condition.decides_leafWith` — the evaluation of a leaf, exactly
* `Condition.exists_of_stops_leafWith` — a leaf stops at a pattern alone
-/

namespace PatchScript

/-- The leaf with a path and some fields. -/
def leafWith (path : String) (fields : Mapping) : Mapping := ("path", .text path) :: fields

/-- Every field is named after a comparator. -/
def ComparesOnly (fields : Mapping) : Prop := ∀ key ∈ fields.keys, ∃ c : Comparator, c.name = key

/-- A value is truthy, where no comparator is given, and it meets every comparator that is. -/
def LeafMet (value : Value) (fields : Mapping) : Prop :=
  ((∀ c : Comparator, fields.get? c.name = none) → value.isTruthy = true) ∧
    ∀ (c : Comparator) (operand : Value), fields.get? c.name = some operand →
      c.Meets value operand

variable {path : String} {fields : Mapping} {store : Store}

theorem ComparesOnly.get?_eq_none (h : ComparesOnly fields) {key : String}
    (foreign : ∀ c : Comparator, c.name ≠ key) : fields.get? key = none := by
  rw [Mapping.get?_eq_none_iff]
  intro listed
  obtain ⟨c, named⟩ := h key listed
  exact foreign c named

theorem get?_leafWith (path : String) (fields : Mapping) (c : Comparator) :
    (leafWith path fields).get? c.name = fields.get? c.name := by
  rw [leafWith, Mapping.get?, if_neg]
  cases c <;> decide

theorem comparisonsOf_leafWith (path : String) (fields : Mapping) :
    comparisonsOf (leafWith path fields) = comparisonsOf fields := by
  simp only [comparisonsOf, get?_leafWith]

theorem comparesOnly_comparisonEntries (comparisons : List Comparison) :
    ComparesOnly (comparisonEntries comparisons) := by
  intro key hkey
  obtain ⟨e, he, rfl⟩ := List.mem_map.1 hkey
  obtain ⟨comparison, -, rfl⟩ := List.mem_map.1 he
  exact ⟨comparison.1, rfl⟩

namespace Operation

/-- The comparisons of an operation as the fields of a leaf. -/
theorem leaf_eq (o : Operation) :
    o.leaf = leafWith o.path (comparisonEntries o.comparisons) := rfl

end Operation

namespace Condition

theorem get?_leafWith_of_combines (h : ComparesOnly fields) {key : String}
    (combines : key ∈ ["and", "or", "not"]) : (leafWith path fields).get? key = none := by
  have foreign (c : Comparator) : c.name ≠ key := by
    revert key
    cases c <;> decide
  have other : "path" ≠ key := by
    clear foreign
    revert key
    decide
  rw [leafWith, Mapping.get?, if_neg other, h.get?_eq_none foreign]

/-- A leaf is evaluated by its comparisons with the value at its path. -/
theorem valueHolds_leafWith (h : ComparesOnly fields) (store : Store) (path : String) :
    valueHolds store (.mapping (leafWith path fields)) =
      comparisonsHold (store.get (Path.parse path)) (comparisonsOf fields) := by
  have some_entry : leafWith path fields ≠ [] := List.cons_ne_nil _ _
  have condition : leafOf (leafWith path fields) = .leaf (.text path) (comparisonsOf fields) := by
    rw [leafOf, comparisonsOf_leafWith]
    rfl
  rw [valueHolds_mapping some_entry, get?_leafWith_of_combines h (by simp),
    get?_leafWith_of_combines h (by simp), get?_leafWith_of_combines h (by simp), condition]
  rfl

/-- A leaf holds where the value at its path is met, unless it stops at a pattern. -/
theorem decides_leafWith (h : ComparesOnly fields) (store : Store) (path : String) :
    Decides (valueHolds store (.mapping (leafWith path fields)))
      (LeafMet (store.get (Path.parse path)) fields)
      (Stops store (.mapping (leafWith path fields))) where
  answer := by
    rw [valueHolds_leafWith h]
    exact (decides_comparisonsHold _ fields).answer
  stop := (decides_valueHolds store _).stop

/-- Where a leaf stops, it has a pattern that cannot be tried. -/
theorem exists_of_stops_leafWith (h : ComparesOnly fields)
    (stopped : Stops store (.mapping (leafWith path fields))) :
    ∃ operand, fields.get? "match" = some operand ∧ Comparator.Stops operand .pattern := by
  rw [stops_mapping_iff, get?_leafWith_of_combines h (by simp),
    get?_leafWith_of_combines h (by simp), get?_leafWith_of_combines h (by simp),
    comparisonsOf_leafWith] at stopped
  obtain ⟨_, -, row⟩ := stopped
  obtain ⟨⟨c, operand⟩, given, stops⟩ := row.exists_stops
  obtain rfl : c = .pattern := stops.1
  exact ⟨operand, mem_comparisonsOf.1 given, stops⟩

/-- Where a pattern is met, if there is one, a leaf does not stop. -/
theorem not_stops_leafWith (h : ComparesOnly fields) {value : Value}
    (met : ∀ operand, fields.get? "match" = some operand →
      Comparator.Meets value operand .pattern) :
    ¬ Stops store (.mapping (leafWith path fields)) := by
  intro stopped
  obtain ⟨operand, given, -, written, m, rfl, fails⟩ := exists_of_stops_leafWith h stopped
  obtain ⟨_, _, p, -, ⟨⟩, read, -⟩ := met _ given
  rw [read] at fails
  cases fails

/-- A leaf holds exactly where the value at its path is met. -/
theorem valueHolds_leafWith_eq_true_iff (h : ComparesOnly fields) :
    valueHolds store (.mapping (leafWith path fields)) = .ok true ↔
      LeafMet (store.get (Path.parse path)) fields := by
  rw [(decides_leafWith h store path).eq_ok_iff]
  simp only [true_iff, and_iff_right_iff_imp]
  intro met
  exact not_stops_leafWith h (met.2 .pattern)

end Condition

end PatchScript
