import PatchScript.Proofs.Json.Literal
import PatchScript.Proofs.Session.Requests

/-!
# The same request as a line and as a call

Seven requests can be written as a line and as a call. The line gives its path as it stands and its
values as words; the call gives the path and the values as arguments. Where the values are JSON
texts, both are read as the same operation, whatever blanks, commas, quotes, number signs and words
of the line grammar the values hold. The operations differ in one point at most: a line always gives
a reason, which is null where there is no comment, and most calls give none.

## Main definitions

* `TwofoldRequest` — the requests, each with its verb, its method, its values and its operation
* `Json.WritesArgument`, `Json.WritesWord` — a JSON text that may stand in a call, and in a line

## Main results

* `TwofoldRequest.lineRequest_eq`, `TwofoldRequest.methodRequest_eq` — what a line and a call ask
  for
* `TwofoldRequest.readText_line_call` — the headline: both texts are read as the same operation
-/

namespace PatchScript

open Settings (defaults)

/-! ### JSON texts in requests -/

namespace Json

/-- The text is JSON of the value, on one line and without blanks around it. -/
structure WritesLine (text : String) (v : Value) : Prop where
  /-- Reading undoes the writing. -/
  reads : read text.toList = .ok v
  oneLine : ∀ c ∈ text.toList, Text.isLineBreak c = false
  trimmed : Text.trim text.toList = text.toList

instance (text : String) (v : Value) : Decidable (WritesLine text v) :=
  decidable_of_iff (read text.toList = .ok v ∧ text.toList.all (!Text.isLineBreak ·) = true ∧
      Text.trim text.toList = text.toList)
    ⟨fun ⟨reads, oneLine, trimmed⟩ => ⟨reads, by simpa using oneLine, trimmed⟩,
      fun h => ⟨h.reads, by simpa using h.oneLine, h.trimmed⟩⟩

/-- The text is JSON of a value that JSON knows, and no block begins in it. -/
structure WritesArgument (text : String) (v : Value) : Prop extends WritesLine text v where
  proper : IsProper v
  noOpening : ¬ defaults.grammar.markers.opening <:+: text.toList

/-- The text may be an argument, and no call begins in it. -/
structure WritesWord (text : String) (v : Value) : Prop extends WritesArgument text v where
  noReceiver : ¬ defaults.grammar.receiver <:+: text.toList

variable {text : String} {v : Value} {texts : List String} {values : List Value}

theorem WritesArgument.isArgument (h : WritesArgument text v) : IsArgument text.toList where
  solid := isSolid_of_read h.reads h.trimmed
  oneLine := h.oneLine
  noOpening := h.noOpening

theorem WritesArgument.readLiteral_eq (h : WritesArgument text v) :
    readLiteral text.toList = .ok v :=
  readLiteral_of_read h.reads h.trimmed h.proper

theorem WritesWord.isLineWord (h : WritesWord text v) : IsLineWord text.toList where
  toIsArgument := h.isArgument
  noReceiver := h.noReceiver

/-- In the text of an integer begins nothing else. -/
theorem WritesLine.writesWord_int {i : Int} (h : WritesLine text (.int i)) :
    WritesWord text (.int i) where
  toWritesLine := h
  proper := ⟨nofun, nofun⟩
  noOpening occurs := by
    have numeric := numeric_of_read_int h.reads h.trimmed
    exact absurd (numeric _ (occurs.subset (List.mem_cons_self .. : '<' ∈ _))) (by decide)
  noReceiver occurs := by
    have numeric := numeric_of_read_int h.reads h.trimmed
    exact absurd (numeric _ (occurs.subset (List.mem_cons_self .. : '_' ∈ _))) (by decide)

/-- In the text of a path word no block begins: no escape uses the first character of the marker, so
the path itself would hold it. -/
theorem WritesLine.writesArgument_path {path : String} (h : WritesLine text (.text path))
    (hpath : IsPathWord path.toList) : WritesArgument text (.text path) where
  toWritesLine := h
  proper := isProper_text path
  noOpening occurs := by
    have bracket : '<' ∈ text.toList := occurs.subset (List.mem_cons_self .. : '<' ∈ _)
    have unescaped : IsUnescaped '<' := ⟨by decide, by decide, by decide⟩
    have inPath := hpath.chars _ (mem_of_read_text unescaped h.reads h.trimmed bracket)
    rw [isPathChar_of_foreign '<' (by decide)] at inPath
    cases inPath

theorem forall_isLineWord (writes : List.Forall₂ WritesWord texts values) :
    ∀ w ∈ texts.map String.toList, IsLineWord w := by
  induction writes with
  | nil => simp
  | cons here _ ih =>
    rw [List.map_cons, List.forall_mem_cons]
    exact ⟨here.isLineWord, ih⟩

theorem mapM_readLiteral (writes : List.Forall₂ WritesWord texts values) :
    (texts.map String.toList).mapM readLiteral = .ok values := by
  induction writes with
  | nil => rfl
  | cons here _ ih =>
    rw [List.map_cons, List.mapM_cons, here.readLiteral_eq, ih]
    rfl

/-- Neither of the words that are left out after a path is a JSON text. -/
theorem WritesLine.withoutFiller_cons (h : WritesLine text v) (words : List (List Char)) :
    withoutFiller (text.toList :: words) = text.toList :: words := by
  have notFiller : ¬ (text.toList = "=".toList ∨ text.toList = "to".toList) := by
    have reads := h.reads
    rintro (equal | equal)
    all_goals
      rw [equal] at reads
      cases reads
  rw [withoutFiller, if_neg notFiller]

theorem withoutFiller_of_writes (writes : List.Forall₂ WritesWord texts values) :
    withoutFiller (texts.map String.toList) = texts.map String.toList := by
  cases writes with
  | nil => rfl
  | cons here _ => exact here.withoutFiller_cons _

end Json

/-! ### The requests -/

/-- What both a line and a call can ask for at a path. -/
inductive TwofoldRequest where
  | set (value : Value)
  | add (value : Value)
  | push (value : Value)
  | insert (index : Int) (value : Value)
  | remove
  | move (target : String)
  | copy (target : String)

namespace TwofoldRequest

/-- The verb of the line. -/
def verb : TwofoldRequest → LineVerb
  | set _ => .set
  | add _ => .add
  | push _ => .push
  | insert _ _ => .insert
  | remove => .remove
  | move _ => .move
  | copy _ => .copy

/-- The method of the call. -/
def method : TwofoldRequest → CallMethod
  | set _ => .set
  | add _ => .add
  | push _ => .push
  | insert _ _ => .insert
  | remove => .remove
  | move _ => .move
  | copy _ => .copy

/-- The values after the path. -/
def values : TwofoldRequest → List Value
  | set v | add v | push v => [v]
  | insert i v => [.int i, v]
  | remove => []
  | move target | copy target => [.text target]

/-- The operation asked for, without a reason. -/
def operation (path : String) : TwofoldRequest → Operation
  | set v => { path, body := .replace (some v) }
  | add v => { Shorthand.add path v none with reason := none }
  | push v => { path := Shorthand.endOf path, body := .add (some v) }
  | insert i v => { path, body := .modify .insert (some v) (some (some i)) }
  | remove => { path, body := .remove none }
  | move target => { path := target, body := .move path }
  | copy target => { path := target, body := .copy path }

/-- An insertion passes the check of its fields. -/
theorem modify_insert (path : String) (i : Int) (v : Value) (reason : Option (Option String)) :
    Shorthand.modify path (.text EditAction.insert.name) v (some (.int i)) reason =
      .ok { path, reason, body := .modify .insert (some v) (some (some i)) } := by
  rcases reason with _ | _ | reason <;> rfl

variable {path : String} {rest : List Char} {words : List (List Char)}

/-- What a line asks for: the operation with a reason that is null. -/
theorem lineRequest_eq (r : TwofoldRequest)
    (read : LineWords.read r.verb rest = .ok ⟨path, words, r.values, none⟩) :
    lineRequest r.verb rest = .ok [{ r.operation path with reason := some none }] := by
  cases r
  case insert i v =>
    simp only [verb, values] at read
    simp only [verb, lineRequest, read, ok_bind, LineWords.two, modify_insert]
    rfl
  all_goals
    simp only [verb, values] at read
    simp only [verb, lineRequest, read, ok_bind]
    rfl

/-- What a call asks for: the operation without a reason, or with a null one. -/
theorem methodRequest_eq (r : TwofoldRequest) (path : String) :
    ∃ reason : Option (Option String), reason.join = none ∧
      methodRequest r.method path r.values = .ok [{ r.operation path with reason }] := by
  cases r
  case add v => exact ⟨some none, rfl, rfl⟩
  case insert i v =>
    refine ⟨none, rfl, ?_⟩
    simp only [method, values, methodRequest, modify_insert]
    rfl
  all_goals exact ⟨none, rfl, rfl⟩

/-- A call for a request is a call of a method with a path. -/
theorem callRequest_eq (r : TwofoldRequest) (path : String) :
    callRequest r.method (.text path :: r.values) =
      (methodRequest r.method path r.values).map .operations := by
  cases r <;> rfl

/-- **A line and a call agree, verb by verb.** With the default settings, a line with a path word
and JSON texts after it, and the call with the JSON text of that path and the same JSON texts, are
each read as one operation and nothing else, and nothing is dropped. It is the same operation, but
for a reason that may be null or left out. -/
theorem readText_line_call (r : TwofoldRequest) {path pathText : String} {texts : List String}
    (hpath : IsPathWord path.toList) (writesPath : Json.WritesLine pathText (.text path))
    (writes : List.Forall₂ Json.WritesWord texts r.values) :
    let line := lineText r.verb path.toList (texts.map String.toList)
    let call := callText r.method pathText.toList (texts.map String.toList)
    ∃ reason reason' : Option (Option String), reason.join = none ∧ reason'.join = none ∧ ∀ n,
      readText defaults.grammar true line n =
        .found .line line none [{ r.operation path with reason }] n ∧
      readText defaults.grammar true call n =
        .found .call call none [{ r.operation path with reason := reason' }] n := by
  intro line call
  have hwords := Json.forall_isLineWord writes
  have hothers : ∀ a ∈ texts.map String.toList, IsArgument a := fun a ha =>
    (hwords a ha).toIsArgument
  have writesFirst := writesPath.writesArgument_path hpath
  have hfirst := writesFirst.isArgument
  have literals := Json.mapM_readLiteral writes
  obtain ⟨reason', null, asked⟩ := methodRequest_eq r path
  refine ⟨some none, reason', rfl, null, fun n => ⟨?_, ?_⟩⟩
  · have read : LineWords.read r.verb _ = .ok _ :=
      read_lineText hpath hwords (Json.withoutFiller_of_writes writes) literals
    rw [String.ofList_toList] at read
    rw [readText_lineText hpath hwords, readLine, lineParts?_lineText hpath hwords]
    simp only [lineRequest_eq r read, trim_lineText hpath hwords]
    rfl
  · have split := splitArguments_following hfirst.solid fun a ha => (hothers a ha).solid
    have values : (pathText.toList :: texts.map String.toList).mapM readLiteral =
        .ok (.text path :: r.values) := by
      rw [List.mapM_cons, writesFirst.readLiteral_eq, literals]
      rfl
    rw [readText_callText hfirst hothers, readCall, split, ok_bind, values, ok_bind,
      callRequest_eq, asked]
    rfl

/-- The text that is inserted holds words, blanks, a number sign, a comma, both quotes, a bracket
that closes nothing, and a parenthesis. -/
theorem readText_line_call_marks :
    let path := "stats/hp.max-1"
    let text := "\"to = # expect, 'x'] (\\\"\""
    let r := insert (-1) (.text "to = # expect, 'x'] (\"")
    let line := lineText r.verb path.toList ["-1".toList, text.toList]
    let call := callText r.method "\"stats/hp.max-1\"".toList ["-1".toList, text.toList]
    IsPathWord path.toList ∧ Json.WritesLine "\"stats/hp.max-1\"" (.text path) ∧
      List.Forall₂ Json.WritesWord ["-1", text] r.values ∧
      ∃ reason reason' : Option (Option String), reason.join = none ∧ reason'.join = none ∧
        readText defaults.grammar true line 1 =
          .found .line line none [{ r.operation path with reason }] 1 ∧
        readText defaults.grammar true call 1 =
          .found .call call none [{ r.operation path with reason := reason' }] 1 := by
  intro path text r line call
  have hpath : IsPathWord path.toList := by decide +kernel
  have writesPath : Json.WritesLine "\"stats/hp.max-1\"" (.text path) := by decide +kernel
  have writesIndex : Json.WritesLine "-1" (.int (-1)) := by decide +kernel
  have writesText : Json.WritesWord text (.text "to = # expect, 'x'] (\"") :=
    ⟨⟨by decide +kernel, Json.isProper_text _, by decide +kernel⟩, by decide +kernel⟩
  have writes : List.Forall₂ Json.WritesWord ["-1", text] r.values :=
    .cons writesIndex.writesWord_int (.cons writesText .nil)
  obtain ⟨reason, reason', null, null', read⟩ := readText_line_call r hpath writesPath writes
  exact ⟨hpath, writesPath, writes, reason, reason', null, null', (read 1).1, (read 1).2⟩

end TwofoldRequest

end PatchScript
