import PatchScript.Condition
import PatchScript.Proofs.Value.Equality

/-!
# Strict equality and the kinds of numbers

Strict equality is to tell an integer from a binary64 number. It does so where the two values
themselves are numbers. Inside lists and mappings it is plain equality, which compares numbers by
their position, so that an integer is taken for the binary64 number at its position, and the
comparison of a condition that asks for an exact value takes it for that number, too.

## Main definitions

* `Value.Exact` — one shape, with equal scalars of one type in every place
* `Value.MixedAt` — an integer and a binary64 number stand at one path

## Main results

* `Value.strictlySame_iff`, `Value.exact_iff` — strict equality, and exact equality at every depth
* `Value.strictlySame_exact_iff` — the headline: when strict equality is exact
* `Value.strictlySame_nested_kinds` — where it is not
-/

namespace PatchScript

/-- Whether a number is an integer by its kind. -/
def Number.isInt : Number → Bool
  | .int _ => true
  | .float _ => false

namespace Value

variable {a b : Value} {path : Path}

/-- Two values have one shape, and the scalars in one place are equal and of one type. -/
def Exact (a b : Value) : Prop :=
  a.Alike (EqualBy fun m n => m.isInt = n.isInt ∧ m.same n = true) b

/-- Numbers of two kinds stand at one path of two values. -/
def MixedAt (path : Path) (a b : Value) : Prop :=
  ∃ m n, a.resolve path = some (.number m) ∧ b.resolve path = some (.number n) ∧
    m.isInt ≠ n.isInt

theorem mixedAt_nil_iff :
    MixedAt [] a b ↔ ∃ m n, a = .number m ∧ b = .number n ∧ m.isInt ≠ n.isInt := by
  simp [MixedAt, resolve]

/-- Strict equality looks at the kinds of the two values alone. -/
theorem strictlySame_iff : a.strictlySame b = true ↔ a.same b = true ∧ ¬ MixedAt [] a b := by
  rw [mixedAt_nil_iff]
  by_cases numbers : ∃ m n, a = .number m ∧ b = .number n
  · obtain ⟨m, n, rfl, rfl⟩ := numbers
    cases m <;> cases n <;> simp [strictlySame, Number.isInt]
  · have plain : a.strictlySame b = a.same b := by
      unfold strictlySame
      split
      · exact absurd ⟨_, _, rfl, rfl⟩ numbers
      · exact absurd ⟨_, _, rfl, rfl⟩ numbers
      · rfl
    rw [plain, and_iff_left]
    rintro ⟨m, n, ha, hb, -⟩
    exact numbers ⟨m, n, ha, hb⟩

/-- Exact equality looks at the kinds of all numbers. -/
theorem exact_iff (ha : a.wellFormed = true) (hb : b.wellFormed = true) :
    a.Exact b ↔ a.same b = true ∧ ∀ path, ¬ MixedAt path a b := by
  rw [same_iff_alike ha hb]
  constructor
  · intro exact
    refine ⟨exact.mono ?_, ?_⟩
    · rintro _ _ (_ | t | ⟨-, related⟩ | s)
      exacts [.null, .bool t, .number related, .text s]
    · rintro path ⟨m, n, hm, hn, mixed⟩
      obtain ⟨y, hy, alike⟩ := exact.resolve hm
      obtain rfl : y = .number n := Option.some.inj (hy.symm.trans hn)
      cases alike with
      | scalar _ _ related =>
        cases related with
        | number related => exact mixed related.1
  · rintro ⟨alike, unmixed⟩
    refine alike.imp_at ?_
    rintro path _ _ hx hy - - (_ | t | @⟨m, n, related⟩ | s)
    · exact .null
    · exact .bool t
    · exact .number ⟨not_not.1 fun mixed => unmixed path ⟨m, n, hx, hy, mixed⟩, related⟩
    · exact .text s

/-- Nothing stands inside numbers. -/
theorem not_mixedAt_nil (nested : path ≠ []) (h : MixedAt path a b) : ¬ MixedAt [] a b := by
  rw [mixedAt_nil_iff]
  rintro ⟨m, n, rfl, -, -⟩
  obtain ⟨s, rest, rfl⟩ := List.exists_cons_of_ne_nil nested
  obtain ⟨_, _, found, -, -⟩ := h
  obtain ⟨child, hs, -⟩ := resolve_cons_eq_some_iff.1 found
  cases isContainer_of_child? hs

/-- **Strict equality** implies equality, and it is exact equality unless an integer and a binary64
number stand at one path inside of two values that are the same. Then the comparison of a condition
that asks for the exact value holds all the same, and in no other case does it hold of values with
numbers of two kinds at one path. -/
theorem strictlySame_exact_iff (ha : a.wellFormed = true) (hb : b.wellFormed = true) :
    (a.strictlySame b = true → a.same b = true) ∧
      ((a.strictlySame b = true ↔ a.Exact b) ↔
        ¬ (a.same b = true ∧ ∃ path, path ≠ [] ∧ MixedAt path a b)) ∧
      (Comparator.exactly.holds a b = .ok true ∧ (∃ path, MixedAt path a b) ↔
        a.same b = true ∧ ∃ path, path ≠ [] ∧ MixedAt path a b) := by
  have holds : Comparator.exactly.holds a b = .ok true ↔ a.strictlySame b = true := by
    simp [Comparator.holds]
  rw [holds, exact_iff ha hb, strictlySame_iff]
  refine ⟨fun strict => strict.1, ?_, ?_⟩
  · constructor
    · rintro faithful ⟨related, path, nested, mixed⟩
      exact (faithful.1 ⟨related, not_mixedAt_nil nested mixed⟩).2 path mixed
    · intro unmixed
      refine ⟨fun strict => ⟨strict.1, fun path mixed => ?_⟩, fun exact => ⟨exact.1, exact.2 []⟩⟩
      by_cases nested : path = []
      · exact strict.2 (nested ▸ mixed)
      · exact unmixed ⟨strict.1, path, nested, mixed⟩
  · constructor
    · rintro ⟨⟨related, apart⟩, path, mixed⟩
      refine ⟨related, path, ?_, mixed⟩
      rintro rfl
      exact apart mixed
    · rintro ⟨related, path, nested, mixed⟩
      exact ⟨⟨related, not_mixedAt_nil nested mixed⟩, path, mixed⟩

/-- The binary64 number one. -/
def floatOne : Value := .float (.finite false ⟨4503599627370496, -52, by decide⟩)

/-- Where a number differs, no kind is asked for. Where an entry has a number of the other kind, the
comparison with the exact value holds. -/
theorem strictlySame_exact_entry :
    let a : Value := .mapping [("hp", .list [.int 1, floatOne])]
    let b : Value := .mapping [("hp", .list [.int 1, .int 1])]
    let c : Value := .mapping [("hp", .list [.int 1, .int 2])]
    (a.wellFormed = true ∧ b.wellFormed = true ∧ c.wellFormed = true) ∧
      (a.strictlySame c = true ↔ a.Exact c) ∧
      Comparator.exactly.holds a b = .ok true ∧ ∃ path, MixedAt path a b := by
  intro a b c
  have ha : a.wellFormed = true := by decide
  have hb : b.wellFormed = true := by decide
  have hc : c.wellFormed = true := by decide
  have mixed : MixedAt [.key "hp", .index 1] a b := ⟨_, _, rfl, rfl, by decide⟩
  refine ⟨⟨ha, hb, hc⟩, (strictlySame_exact_iff ha hc).2.1.2 ?_, ?_⟩
  · rintro ⟨related, -⟩
    revert related
    decide +kernel
  · exact (strictlySame_exact_iff ha hb).2.2.2 ⟨by decide +kernel, _, by simp, mixed⟩

/-- **Strict equality is not exact** inside of lists: an integer is taken for a binary64 number, and
so the comparison with the exact value holds. -/
theorem strictlySame_nested_kinds :
    (Value.list [.int 1]).strictlySame (.list [floatOne]) = true ∧
      ¬ (Value.list [.int 1]).Exact (.list [floatOne]) ∧
      Comparator.exactly.holds (.list [.int 1]) (.list [floatOne]) = .ok true := by
  refine ⟨by decide +kernel, ?_, by decide +kernel⟩
  rw [exact_iff (by decide) (by decide)]
  rintro ⟨-, unmixed⟩
  exact unmixed [.index 0] ⟨_, _, rfl, rfl, by decide⟩

end Value

end PatchScript
