import PatchScript.Proofs.Session.Surfaces
import PatchScript.Proofs.Session.Verbs

/-!
# Compare and set

A line `set p v expect e` and a call `set(p, e, v)` ask for two operations, a test and a
replacement. Only the tag that both commands bear says that they belong together: it makes them one
group, and a group of all or nothing is taken back when one of its operations fails. So the two are
as safe as one. The value is replaced where the expected one stands and the replacement succeeds by
itself, and otherwise nothing at all is changed: not where the path leads nowhere, and not where the
replacement fails after it has made containers on its way.

## Main definitions

* `Store.Holds` — the value at a path, without its description, is the expected one
* `AsksCompareAndSet` — what is read from a line or a call that asks for it

## Main results

* `AsksCompareAndSet.isBatch` — what is read is one batch, the test and the replacement
* `Series.run_checkedReplace` — the batch does what the replacement does alone, or nothing
* `Session.compareAndSet_all_or_nothing` — the headline: the line and the call in a session
-/

namespace PatchScript

open Settings (defaults)

variable {path : String} {expected value : Value} {reason : Option String} {regime : Regime}
  {s : Store} {n : Nat} {r : Reading}

/-! ### What is asked for -/

/-- What is read from a line or a call that replaces a value where it is the expected one. In the
line the word `expect` stands between the two values; the call may give a reason. -/
inductive AsksCompareAndSet (path : String) (expected value : Value) (reason : Option String)
    (n : Nat) : Reading → Prop
  | line {opening line rest : List Char} {words : List (List Char)} {between : Value}
      (verb : lineParts? opening line = some (.set, rest))
      (read : LineWords.read .set rest = .ok ⟨path, words, [value, between, expected], reason⟩)
      (expect : words[1]? = some "expect".toList) :
      AsksCompareAndSet path expected value reason n (readLine opening line n)
  | call {source text : List Char} {spelled : Value} {reasons : List Value}
      (read : (splitArguments text >>= (·.mapM readLiteral)) =
        .ok (spelled :: expected :: value :: reasons))
      (shown : spelled.shown = path) (given : reasons.map Value.shown = reason.toList) :
      AsksCompareAndSet path expected value reason n (readCall (.closed .set source text) n)

/-- Two operations of one request are one batch of all or nothing. -/
theorem Reading.isBatch_request_pair (surface : Surface) (source : List Char) (o o' : Operation)
    (n : Nat) : (request surface source [o, o'] n).IsBatch [o, o'] ⟨n, true⟩ :=
  isBatch_found surface source ⟨n, true⟩ [o, o']

/-- What is read is one batch, the test and the replacement. -/
theorem AsksCompareAndSet.isBatch (h : AsksCompareAndSet path expected value reason n r) :
    r.IsBatch (Shorthand.checkedReplace path expected value reason) ⟨n, true⟩ := by
  cases h with
  | @line opening line rest words between verb read expect =>
    have asked : lineRequest .set rest =
        .ok (Shorthand.checkedReplace path expected value reason) := by
      simp only [lineRequest, read, ok_bind, lineSetting, expect, if_true]
    rw [readLine, verb]
    simp only [asked]
    exact Reading.isBatch_request_pair ..
  | @call source text spelled reasons read shown given =>
    have asked : callRequest .set (spelled :: expected :: value :: reasons) =
        .ok (.operations (Shorthand.checkedReplace path expected value reason)) := by
      subst shown
      rcases reasons with _ | ⟨v, _ | ⟨w, others⟩⟩ <;> rcases reason with _ | reason
      all_goals simp at given
      · rfl
      · subst given
        rfl
    rw [readCall, read, ok_bind, asked]
    exact Reading.isBatch_request_pair ..

/-! ### Texts that ask for it -/

section Texts

variable {pathText expectedText valueText : String}

/-- The line of a path word and two JSON texts, alone in a text. -/
theorem asksCompareAndSet_lineText (hpath : IsPathWord path.toList)
    (writesValue : Json.WritesWord valueText value)
    (writesExpected : Json.WritesWord expectedText expected) (n : Nat) :
    AsksCompareAndSet path expected value none n (readText defaults.grammar true
      (lineText .set path.toList [valueText.toList, "expect".toList, expectedText.toList]) n) := by
  have expectWord : IsLineWord "expect".toList :=
    ⟨⟨.plain (by decide) (Text.forall_mem_of_all (by decide)) (Text.forall_mem_of_all (by decide)),
      Text.forall_mem_of_all (by decide), by decide⟩, by decide⟩
  have hwords : ∀ w ∈ [valueText.toList, "expect".toList, expectedText.toList], IsLineWord w := by
    simp only [List.forall_mem_cons]
    exact ⟨writesValue.isLineWord, expectWord, writesExpected.isLineWord, by simp⟩
  have literals : [valueText.toList, "expect".toList, expectedText.toList].mapM readLiteral =
      .ok [value, .text "expect", expected] := by
    have expectLiteral : readLiteral "expect".toList = .ok (.text "expect") := by decide +kernel
    simp only [List.mapM_cons, List.mapM_nil, writesValue.readLiteral_eq, expectLiteral,
      writesExpected.readLiteral_eq]
    rfl
  have read : LineWords.read .set _ = .ok _ :=
    read_lineText hpath hwords (writesValue.withoutFiller_cons _) literals
  rw [String.ofList_toList] at read
  rw [readText_lineText hpath hwords]
  exact .line (lineParts?_lineText hpath hwords) read rfl

/-- The call of three JSON texts, alone in a text. The path may be any text. -/
theorem asksCompareAndSet_callText (writesPath : Json.WritesArgument pathText (.text path))
    (writesExpected : Json.WritesArgument expectedText expected)
    (writesValue : Json.WritesArgument valueText value) (n : Nat) :
    AsksCompareAndSet path expected value none n (readText defaults.grammar true
      (callText .set pathText.toList [expectedText.toList, valueText.toList]) n) := by
  have hothers : ∀ a ∈ [expectedText.toList, valueText.toList], IsArgument a := by
    simp only [List.forall_mem_cons]
    exact ⟨writesExpected.isArgument, writesValue.isArgument, by simp⟩
  have split := splitArguments_following writesPath.isArgument.solid
    fun a ha => (hothers a ha).solid
  rw [readText_callText writesPath.isArgument hothers]
  refine @AsksCompareAndSet.call _ _ _ _ _ _ _ (.text path) [] ?_ rfl rfl
  simp only [split, ok_bind, List.mapM_cons, List.mapM_nil, writesPath.readLiteral_eq,
    writesExpected.readLiteral_eq, writesValue.readLiteral_eq]
  rfl

end Texts

/-! ### The test -/

/-- There is a value at a path, and without its description it is the expected one. -/
def Store.Holds (s : Store) (path : String) (expected : Value) : Prop :=
  ∃ v, s.lookup (Path.parse path) = some v ∧ v.plain.same expected = true

/-- The test of a value changes nothing, and it succeeds exactly where the value is held. -/
theorem Operation.run_test (regime : Regime) (s : Store) (path : String) (expected : Value) :
    ∃ outcome, run regime s { path, body := .test (some expected) [] } = (s, outcome) ∧
      (outcome.isSuccess = true ↔ s.Holds path expected) := by
  have effect : run regime s { path, body := .test (some expected) [] } =
      recordEffect (s, (test { path, body := .test (some expected) [] } s (some expected) []).map
        fun _ => none) := by
    cases h : regime.constrained <;> simp [run, isDue, guard?, refusal?, h] <;> rfl
  rw [effect, test]
  cases stored : s.lookup (Path.parse path) with
  | none => exact ⟨_, rfl, by simp [Store.Holds, stored, Outcome.isSuccess, Outcome.failure?]⟩
  | some v =>
    by_cases same : v.plain.same expected = true
    · simp only [recorded, Option.map_some, Option.getD_some, Option.isSome_some, same]
      exact ⟨_, rfl, by simp [Store.Holds, stored, same, Outcome.isSuccess, Outcome.failure?]⟩
    · simp only [recorded, Option.map_some, Option.getD_some, Option.isSome_some, same]
      exact ⟨_, rfl, by simp [Store.Holds, stored, same, Outcome.isSuccess, Outcome.failure?]⟩

/-! ### The batch -/

/-- Neither of the two operations fails exactly where the value is held and the replacement succeeds
alone; and then the store is the one that the replacement leaves alone. -/
theorem Series.firstError?_checkedReplace (regime : Regime) (s : Store) (path : String)
    (expected value : Value) (reason : Option String) :
    let alone := (Shorthand.replace path value (some reason)).run regime s
    let batch : Series := (Shorthand.checkedReplace path expected value reason).map .ok
    (firstError? regime s batch = none ↔ s.Holds path expected ∧ alone.2.isSuccess = true) ∧
      storeAfter regime s batch batch.length = alone.1 := by
  intro alone batch
  obtain ⟨outcome, tested, success⟩ := Operation.run_test regime s path expected
  -- the test leaves the store as it is, so the replacement is run as it would be alone
  have first : (Checked.run regime s (.ok { path, body := .test (some expected) [] })) =
      (s, outcome) := tested
  constructor
  · simp only [batch, Shorthand.checkedReplace, List.map_cons, List.map_nil, firstError?_cons,
      Option.or_eq_none_iff, Option.map_eq_none_iff, errorAt?_cons_zero_eq_none_iff, first, success]
    exact and_congr_right fun _ => and_iff_left rfl
  · simp only [batch, Shorthand.checkedReplace, List.map_cons, List.map_nil, List.length_cons,
      List.length_nil, storeAfter_cons_succ, storeAfter_zero, first]
    rfl

/-- The test and the replacement as one series do what the replacement does alone, where the value
is held and the replacement succeeds, and nothing otherwise. -/
theorem Series.run_checkedReplace (regime : Regime) (s : Store) (path : String)
    (expected value : Value) (reason : Option String) :
    let alone := (Shorthand.replace path value (some reason)).run regime s
    let batch := run regime true s
      ((Shorthand.checkedReplace path expected value reason).map .ok)
    (s.Holds path expected ∧ alone.2.isSuccess = true →
      batch.1 = alone.1 ∧ batch.2.isSuccess = true) ∧
    (¬ (s.Holds path expected ∧ alone.2.isSuccess = true) →
      batch.1 = s ∧ batch.2.isSuccess = false) := by
  intro alone batch
  obtain ⟨succeeds, store⟩ := firstError?_checkedReplace regime s path expected value reason
  obtain ⟨independent, whole, success⟩ := run_eq_single_runs regime s
    ((Shorthand.checkedReplace path expected value reason).map .ok)
  constructor
  · intro both
    have none_fails := succeeds.2 both
    refine ⟨?_, ?_⟩
    · simp only [batch, whole, none_fails, independent]
      exact store
    · rw [success, none_fails]
      rfl
  · intro fails
    obtain ⟨e, one_fails⟩ := Option.ne_none_iff_exists'.1 (mt succeeds.1 fails)
    refine ⟨?_, ?_⟩
    · simp only [batch, whole, one_fails]
    · rw [success, one_fails]
      rfl

/-! ### In a session -/

namespace Session

/-- **Compare and set is all or nothing.** What is read from the line or the call are a test and a
replacement, in one batch. Where the path leads to a value that is, without its description, the
expected one, and the replacement alone would succeed, the session has the document and the
annotations that the replacement alone leaves; in every other case it has those that it had. -/
theorem compareAndSet_all_or_nothing {s : Session} (h : s.TakesEffect)
    (asks : AsksCompareAndSet path expected value reason n r) :
    let alone := (Shorthand.replace path value (some reason)).run s.regime s.store
    let after := s.runReading r
    r.IsBatch (Shorthand.checkedReplace path expected value reason) ⟨n, true⟩ ∧
    (s.store.Holds path expected ∧ alone.2.isSuccess = true →
      after.1.store = alone.1 ∧ after.2.isSuccess = true) ∧
    (¬ (s.store.Holds path expected ∧ alone.2.isSuccess = true) →
      after.1.store = s.store ∧ after.2.isSuccess = false) := by
  intro alone after
  have batch := asks.isBatch
  have ran := runReading_of_isBatch h batch (List.cons_ne_nil _ _)
  have outcome := Series.run_checkedReplace s.regime s.store path expected value reason
  simp only [after, ran, Report.isSuccess, List.all_cons, List.all_nil, Bool.and_true,
    GroupResult.isSuccess]
  exact ⟨batch, outcome⟩

/-- A described leaf is compared without its description, which the replacement keeps. The line
expects what is there, and the call something else. -/
theorem compareAndSet_described_leaf :
    let s := start { schemaValidation := true } [("hp", .list [.int 3, .text "health"])]
    let line := readText defaults.grammar true "set hp 5 expect 3".toList 1
    let call := readText defaults.grammar true "_.set(\"hp\", 4, 5)".toList 1
    s.TakesEffect ∧ AsksCompareAndSet "hp" (.int 3) (.int 5) none 1 line ∧
      AsksCompareAndSet "hp" (.int 4) (.int 5) none 1 call ∧
      (s.runReading line).1.store.stat = [("hp", .list [.int 5, .text "health"])] ∧
      (s.runReading call).1.store = s.store := by
  intro s line call
  have effective : s.TakesEffect := ⟨rfl, rfl⟩
  have three : Json.WritesLine "3" (.int 3) := by decide +kernel
  have four : Json.WritesLine "4" (.int 4) := by decide +kernel
  have five : Json.WritesLine "5" (.int 5) := by decide +kernel
  have hpath : IsPathWord "hp".toList := by decide +kernel
  have writesPath : Json.WritesArgument "\"hp\"" (.text "hp") :=
    Json.WritesLine.writesArgument_path (by decide +kernel) hpath
  have asksLine : AsksCompareAndSet "hp" (.int 3) (.int 5) none 1 line :=
    asksCompareAndSet_lineText hpath five.writesWord_int three.writesWord_int 1
  have asksCall : AsksCompareAndSet "hp" (.int 4) (.int 5) none 1 call :=
    asksCompareAndSet_callText writesPath four.writesWord_int.toWritesArgument
      five.writesWord_int.toWritesArgument 1
  have found : s.store.lookup (Path.parse "hp") = some (.list [.int 3, .text "health"]) := by
    decide +kernel
  refine ⟨effective, asksLine, asksCall, ?_, ?_⟩
  · rw [((compareAndSet_all_or_nothing effective asksLine).2.1 ?_).1]
    · decide +kernel
    · exact ⟨⟨_, found, by decide +kernel⟩, by decide +kernel⟩
  · refine ((compareAndSet_all_or_nothing effective asksCall).2.2 ?_).1
    rintro ⟨⟨v, stored, same⟩, -⟩
    obtain rfl := Option.some.inj (found.symm.trans stored)
    revert same
    decide +kernel

end Session

end PatchScript
