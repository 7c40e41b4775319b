import PatchScript.Operation.Form
import PatchScript.Proofs.Except
import PatchScript.Proofs.Value.Mapping

/-!
# The wire form is stable

Reading a form is forgiving: values that plainly mean one of the right type are converted, some
fields have two names, and fields that the kind does not have are ignored. The wire form is what is
left of that. Read again, it gives the operation that it is the wire form of, because every field is
written as a value that its reader takes as it stands, under its first name, and a field that was
left out stays left out.

## Main definitions

* `comparisonsWith` — the comparisons of a test with given operands
* `OperationBody.IsSettled` — a body whose operands are taken as they stand

## Main results

* `FieldReader.nullable_nullOr`, `operand_of_operand` — what was taken once is taken as it stands
* `required_eq_ok`, `optional_eq_ok` — a field is read from its entry under the first name
* `OperationBody.ofForm_of_fields` — the fields of the kind come back from the wire form
* `Operation.ofValue_wire` — so does the whole operation
-/

namespace PatchScript

namespace Checked

variable {α β : Type}

theorem ap_eq_ok_iff {f : Checked (α → β)} {a : Checked α} {b : β} :
    f.ap a = .ok b ↔ ∃ g x, f = .ok g ∧ a = .ok x ∧ g x = b := by
  cases f <;> cases a <;> simp [ap]

theorem within_eq_ok_iff {name : String} {a : Checked α} {x : α} :
    a.within name = .ok x ↔ a = .ok x := by
  cases a <;> simp [within, Except.mapError]

end Checked

/-! ### Looking up what was written -/

namespace Mapping

theorem get?_append (m m' : Mapping) (key : String) :
    get? (m ++ m') key = (m.get? key).or (m'.get? key) := by
  induction m with
  | nil => rfl
  | cons e rest ih =>
    by_cases h : e.1 = key
    · simp [get?, h]
    · simp [get?, h, ih]

end Mapping

theorem get?_givenField {α : Type} (name : String) (value : α → Value) (field : Option α)
    (key : String) :
    (givenField name value field).get? key = if name = key then field.map value else none := by
  cases field <;> simp [givenField, Mapping.get?]

theorem Comparator.ofName?_name (c : Comparator) : Comparator.ofName? c.name = some c := by
  cases c <;> decide

theorem Comparator.name_injective : Function.Injective Comparator.name := by
  intro c c' h
  simpa only [Comparator.ofName?_name, Option.some.injEq] using congrArg Comparator.ofName? h

theorem OperationKind.ofName?_name (kind : OperationKind) :
    OperationKind.ofName? kind.name = some kind := by
  cases kind <;> decide

/-! ### Fields that are taken as they stand -/

section

open FieldReader

theorem FieldReader.nullable_of_ne_null {α : Type} {v : Value} (reader : FieldReader α)
    (filled : v ≠ .null) : nullable reader v = (reader v).map some := by
  unfold nullable
  split
  · exact absurd rfl filled
  · rfl

theorem FieldReader.nullable_nullOr {α : Type} {reader : FieldReader α} (write : α → Value)
    (taken : ∀ a, reader (write a) = .ok a) (filled : ∀ a, write a ≠ .null) (field : Option α) :
    nullable reader (nullOr write field) = .ok field := by
  cases field with
  | none => rfl
  | some a =>
    rw [nullOr, nullable_of_ne_null reader (filled a), taken]
    rfl

theorem childName_value (c : ChildName) : childName c.value = .ok c := by
  cases c <;> rfl

theorem choice_name (a : EditAction) : choice EditAction.named (.text a.name) = .ok a := by
  cases a <;> rfl

theorem nullable_text_written (field : Option String) :
    nullable text (nullOr .text field) = .ok field :=
  nullable_nullOr .text (fun _ => rfl) (fun _ => Value.noConfusion) field

theorem nullable_flag_written (field : Option Bool) :
    nullable flag (nullOr .bool field) = .ok field :=
  nullable_nullOr .bool (fun _ => rfl) (fun _ => Value.noConfusion) field

/-- The operand of a comparison is taken as it stands once it was taken. -/
theorem operand_of_operand {c : Comparator} {v w : Value} (h : operand c v = .ok w) :
    operand c w = .ok w := by
  cases c with
  | pattern =>
    cases read : nullable text v with
    | error problems => simp [operand, read, Except.map] at h
    | ok field =>
      obtain rfl : nullOr .text field = w := by simpa [operand, read, Except.map] using h
      simp only [operand, nullable_text_written, Except.map]
  | present =>
    cases read : nullable flag v with
    | error problems => simp [operand, read, Except.map] at h
    | ok field =>
      obtain rfl : nullOr .bool field = w := by simpa [operand, read, Except.map] using h
      simp only [operand, nullable_flag_written, Except.map]
  | _ => rfl

end

/-! ### Fields under their first name -/

section

variable {α : Type} {form : Mapping} {name : String} {others : List String}
  {reader : FieldReader α} {write : α → Value}

/-- A field that a form has under its first name is read from there. -/
theorem required_eq_ok {v : Value} {a : α} (found : form.get? name = some v)
    (taken : reader v = .ok a) : required form (name :: others) reader = .ok a := by
  rw [required, fieldEntry?, List.findSome?_cons, found, Option.map_some]
  dsimp only
  rw [taken]
  rfl

/-- A field that a form has under its first name, or under none, is read as it was given. -/
theorem optional_eq_ok {field : Option α} (found : form.get? name = field.map write)
    (absent : ∀ other ∈ others, form.get? other = none)
    (taken : ∀ a, field = some a → reader (write a) = .ok a) :
    optional form (name :: others) reader = .ok field := by
  rw [optional, fieldEntry?, List.findSome?_cons, found]
  cases field with
  | some a =>
    dsimp only [Option.map_some]
    rw [taken a rfl]
    rfl
  | none =>
    have nowhere : others.findSome? (fun name => (form.get? name).map (name, ·)) = none := by
      rw [List.findSome?_eq_none_iff]
      intro other hother
      rw [absent other hother, Option.map_none]
    dsimp only [Option.map_none]
    rw [nowhere]

/-- A field that a form gave was taken from one of its values. -/
theorem exists_reader_of_optional {names : List String} {a : α}
    (h : optional form names reader = .ok (some a)) : ∃ v, reader v = .ok a := by
  unfold optional at h
  split at h
  · next name v entry =>
    cases read : reader v with
    | error problems => simp [read, Except.map, Checked.within, Except.mapError] at h
    | ok b =>
      obtain rfl : b = a := by simpa [read, Except.map, Checked.within, Except.mapError] using h
      exact ⟨v, read⟩
  · cases h

end

/-! ### Comparisons -/

/-- The comparisons that have an operand, in the order of a list of comparators. -/
def comparisonsWith (given : Comparator → Option Value) (comparators : List Comparator) :
    List Comparison :=
  comparators.flatMap fun c => ((given c).map (c, ·)).toList

theorem comparisonsWith_cons (given : Comparator → Option Value) (c : Comparator)
    (comparators : List Comparator) :
    comparisonsWith given (c :: comparators) =
      ((given c).map (c, ·)).toList ++ comparisonsWith given comparators :=
  List.flatMap_cons ..

/-- The entries of comparisons in a wire form. -/
def comparisonEntries (comparisons : List Comparison) : Mapping :=
  comparisons.map fun (c, operand) => (c.name, operand)

/-- The entry of a comparator is the operand that it has. -/
theorem get?_comparisonsWith (given : Comparator → Option Value) (comparators : List Comparator)
    (c : Comparator) :
    (comparisonEntries (comparisonsWith given comparators)).get? c.name =
      if c ∈ comparators then given c else none := by
  induction comparators with
  | nil => rfl
  | cons c' rest ih =>
    have split : comparisonEntries (comparisonsWith given (c' :: rest)) =
        givenField c'.name id (given c') ++ comparisonEntries (comparisonsWith given rest) := by
      rw [comparisonsWith_cons]
      cases given c' <;> rfl
    rw [split, Mapping.get?_append, get?_givenField, ih]
    by_cases same : c' = c
    · subst same
      cases given c' <;> simp
    · have names : c'.name ≠ c.name := fun equal => same (Comparator.name_injective equal)
      have other : c ≠ c' := fun equal => same equal.symm
      simp [names, other]

/-- Nothing else is an entry of comparisons. -/
theorem get?_comparisonEntries_of_ne {comparisons : List Comparison} {key : String}
    (h : ∀ c : Comparator, c.name ≠ key) : (comparisonEntries comparisons).get? key = none := by
  induction comparisons with
  | nil => rfl
  | cons e rest ih =>
    rw [comparisonEntries, List.map_cons, Mapping.get?, if_neg (h e.1)]
    exact ih

section

variable {form : Mapping} {comparators : List Comparator}

/-- Reads the comparisons of some comparators. -/
def comparisonsOver (form : Mapping) (comparators : List Comparator) : Checked (List Comparison) :=
  comparators.foldr
    (fun c rest =>
      (Checked.ap
        (.ok fun (given : Option Value) (others : List Comparison) =>
          (given.map fun v => (c, v)).toList ++ others)
        (optional form (comparatorNames c) (operand c))).ap rest)
    (.ok [])

theorem comparisonFields_eq : comparisonFields form = comparisonsOver form testComparators := rfl

/-- Comparisons are read when every comparator is. -/
theorem comparisonsOver_eq_ok {given : Comparator → Option Value}
    (h : ∀ c ∈ comparators,
      optional form (comparatorNames c) (operand c) = .ok (given c)) :
    comparisonsOver form comparators = .ok (comparisonsWith given comparators) := by
  induction comparators with
  | nil => rfl
  | cons c rest ih =>
    have tail := ih fun c' hc' => h c' (List.mem_cons_of_mem _ hc')
    rw [comparisonsOver] at tail ⊢
    rw [List.foldr_cons, tail, h c (List.mem_cons_self ..), comparisonsWith_cons]
    rfl

/-- Comparisons that were read have the operands that the form gives, each as its comparator takes it,
and it is taken as it stands from then on. -/
theorem exists_given_of_comparisonsOver {comparisons : List Comparison}
    (h : comparisonsOver form comparators = .ok comparisons) :
    ∃ given : Comparator → Option Value, comparisons = comparisonsWith given comparators ∧
      (∀ c ∈ comparators, optional form (comparatorNames c) (operand c) = .ok (given c)) ∧
      ∀ c v, given c = some v → operand c v = .ok v := by
  -- what a comparator that is not read would have does not matter
  let given (c : Comparator) : Option Value :=
    match optional form (comparatorNames c) (operand c) with
    | .ok field => field
    | .error _ => none
  have taken : ∀ c v, given c = some v → operand c v = .ok v := by
    intro c v hv
    cases read : optional form (comparatorNames c) (operand c) with
    | error problems => simp [given, read] at hv
    | ok field =>
      obtain rfl : field = some v := by simpa [given, read] using hv
      obtain ⟨w, hw⟩ := exists_reader_of_optional read
      exact operand_of_operand hw
  suffices all_read : comparisons = comparisonsWith given comparators ∧
      ∀ c ∈ comparators, optional form (comparatorNames c) (operand c) = .ok (given c) from
    ⟨given, all_read.1, all_read.2, taken⟩
  induction comparators generalizing comparisons with
  | nil =>
    cases h
    exact ⟨rfl, by simp⟩
  | cons c rest ih =>
    have unfolded : comparisonsOver form (c :: rest) =
        (Checked.ap
          (.ok fun (given : Option Value) (others : List Comparison) =>
            (given.map fun v => (c, v)).toList ++ others)
          (optional form (comparatorNames c) (operand c))).ap (comparisonsOver form rest) := rfl
    rw [unfolded] at h
    obtain ⟨_, others, begun, tail, rfl⟩ := Checked.ap_eq_ok_iff.1 h
    obtain ⟨_, field, started, read, rfl⟩ := Checked.ap_eq_ok_iff.1 begun
    cases started
    have first : given c = field := by simp only [given, read]
    obtain ⟨equal, others_read⟩ := ih tail
    refine ⟨?_, List.forall_mem_cons.2 ⟨by rw [read, first], others_read⟩⟩
    rw [comparisonsWith_cons, first, ← equal]

end

/-! ### The wire form -/

/-- The names of the fields that all kinds share. -/
def sharedNames : List String := ["path", "if", "if_", "reason", "op"]

namespace OperationBody

open FieldReader

theorem fields_test (expected : Option Value) (comparisons : List Comparison) :
    (test expected comparisons).fields =
      givenField "value" id expected ++ comparisonEntries comparisons := rfl

/-- No kind has a field of its own under a shared name. -/
theorem get?_fields_of_shared (body : OperationBody) {key : String} (h : key ∈ sharedNames) :
    body.fields.get? key = none := by
  have different : ∀ name ∈ ["value", "key", "from", "delta", "expr", "action", "index"],
      name ≠ key := by
    revert key
    decide
  have comparators : ∀ c : Comparator, c.name ≠ key := by
    intro c
    cases c <;> revert key <;> decide
  cases body with
  | test expected comparisons =>
    rw [fields_test, Mapping.get?_append, get?_givenField,
      get?_comparisonEntries_of_ne comparators, if_neg (different _ (by simp))]
    rfl
  | _ => simp_all [fields, get?_givenField, Mapping.get?_append, Mapping.get?]

/-- Whether the comparisons of a body come in their order, with operands that are taken as they
stand. -/
def IsSettled : OperationBody → Prop
  | .test _ comparisons =>
    ∃ given : Comparator → Option Value, comparisons = comparisonsWith given testComparators ∧
      ∀ c v, given c = some v → operand c v = .ok v
  | _ => True

/-- Every body that is read is settled. -/
theorem isSettled_of_ofForm {form : Mapping} {kind : OperationKind} {body : OperationBody}
    (h : ofForm form kind = .ok body) : body.IsSettled := by
  cases kind with
  | test =>
    obtain ⟨_, comparisons, begun, read, rfl⟩ := Checked.ap_eq_ok_iff.1 h
    obtain ⟨_, expected, started, -, rfl⟩ := Checked.ap_eq_ok_iff.1 begun
    cases started
    obtain ⟨given, equal, -, taken⟩ := exists_given_of_comparisonsOver read
    exact ⟨given, equal, taken⟩
  | modify =>
    obtain ⟨_, index, valued, -, rfl⟩ := Checked.ap_eq_ok_iff.1 h
    obtain ⟨_, value, chosen, -, rfl⟩ := Checked.ap_eq_ok_iff.1 valued
    obtain ⟨_, action, started, -, rfl⟩ := Checked.ap_eq_ok_iff.1 chosen
    cases started
    trivial
  | _ =>
    obtain ⟨_, -, rfl⟩ := map_eq_ok_iff.1 h
    trivial

/-- The fields of a kind are read from a form that has them as they are written. -/
theorem ofForm_of_fields {form : Mapping} {body : OperationBody} (settled : body.IsSettled)
    (h : ∀ key ∉ sharedNames, form.get? key = body.fields.get? key) :
    ofForm form body.kind = .ok body := by
  have own : ∀ key ∈ ["value", "key", "from", "delta", "expr", "action", "index"],
      form.get? key = body.fields.get? key := by
    intro key hkey
    refine h key fun shared => ?_
    revert shared
    revert key
    decide
  have value_read (value : Option Value) (found : form.get? "value" = value) :
      optional form ["value"] any = .ok value := by
    have given : form.get? "value" = value.map id := by rw [Option.map_id, id, found]
    exact optional_eq_ok given (by simp) fun _ _ => rfl
  cases body with
  | add value =>
    have read := value_read value (by simp [own, fields, get?_givenField])
    simp only [kind, ofForm, read]
    rfl
  | remove child =>
    have found : form.get? "key" = child.map (nullOr ChildName.value) := by
      simp [own, fields, get?_givenField]
    have taken := nullable_nullOr ChildName.value childName_value fun c => by
      cases c <;> exact Value.noConfusion
    have read : optional form ["key"] (nullable childName) = .ok child :=
      optional_eq_ok found (by simp) fun field _ => taken field
    simp only [kind, ofForm, read]
    rfl
  | replace value =>
    have read := value_read value (by simp [own, fields, get?_givenField])
    simp only [kind, ofForm, read]
    rfl
  | move source =>
    have found : form.get? "from" = some (.text source) := by simp [own, fields, Mapping.get?]
    have read : required form sourceNames text = .ok source := required_eq_ok found rfl
    simp only [kind, ofForm, read]
    rfl
  | copy source =>
    have found : form.get? "from" = some (.text source) := by simp [own, fields, Mapping.get?]
    have read : required form sourceNames text = .ok source := required_eq_ok found rfl
    simp only [kind, ofForm, read]
    rfl
  | test expected comparisons =>
    obtain ⟨given, rfl, taken⟩ := settled
    have expected_read := value_read expected (by
      have exactly : (comparisonEntries (comparisonsWith given testComparators)).get? "value" =
          none := get?_comparisonsWith given testComparators .exactly
      rw [own "value" (by simp), fields_test, Mapping.get?_append, get?_givenField, if_pos rfl,
        Option.map_id, exactly, Option.or_none, id])
    have comparison_read : ∀ c ∈ testComparators,
        optional form (comparatorNames c) (operand c) = .ok (given c) := by
      intro c hc
      obtain ⟨foreign, unshared⟩ : "value" ≠ c.name ∧ c.name ∉ sharedNames := by
        revert c
        decide
      have found : form.get? c.name = (given c).map id := by
        rw [h _ unshared, fields_test, Mapping.get?_append, get?_givenField, if_neg foreign,
          get?_comparisonsWith, if_pos hc, Option.none_or, Option.map_id, id]
      have absent : ∀ other ∈ (comparatorNames c).tail, form.get? other = none := by
        intro other hother
        obtain rfl : other = "in_" := by
          revert hother
          unfold comparatorNames
          split <;> simp
        rw [h _ (by decide), fields_test, Mapping.get?_append, get?_givenField,
          if_neg (by decide), get?_comparisonEntries_of_ne (by intro c; cases c <;> decide)]
        rfl
      have names : comparatorNames c = c.name :: (comparatorNames c).tail := by
        unfold comparatorNames
        split <;> rfl
      rw [names]
      exact optional_eq_ok found absent (taken c)
    simp only [kind, ofForm, expected_read, comparisonFields_eq,
      comparisonsOver_eq_ok comparison_read]
    rfl
  | increment delta =>
    have found : form.get? "delta" = some (.number delta) := by simp [own, fields, Mapping.get?]
    have read : required form ["delta"] number = .ok delta := required_eq_ok found rfl
    simp only [kind, ofForm, read]
    rfl
  | evaluate expression =>
    have found : form.get? "expr" = some (.text expression) := by simp [own, fields, Mapping.get?]
    have read : required form ["expr"] text = .ok expression := required_eq_ok found rfl
    simp only [kind, ofForm, read]
    rfl
  | modify action value index =>
    have read := value_read value (by
      simp [own, fields, get?_givenField, Mapping.get?, Mapping.get?_append])
    have acts : form.get? "action" = some (.text action.name) := by
      simp [own, fields, Mapping.get?]
    have action_read : required form ["action"] (choice EditAction.named) = .ok action :=
      required_eq_ok acts (choice_name action)
    have place : form.get? "index" = index.map (nullOr Value.int) := by
      simp [own, fields, get?_givenField, Mapping.get?, Mapping.get?_append]
    have taken (field : Option Int) : nullable integer (nullOr Value.int field) = .ok field :=
      nullable_nullOr Value.int (fun _ => rfl) (fun _ => Value.noConfusion) field
    have index_read : optional form ["index"] (nullable integer) = .ok index :=
      optional_eq_ok place (by simp) fun field _ => taken field
    simp only [kind, ofForm, action_read, read, index_read]
    rfl

end OperationBody

namespace Operation

open FieldReader

/-- The entries of a wire form whose kind was given. -/
theorem get?_wire {o : Operation} (tagged : o.tagged = true) (key : String) :
    o.wire.get? key =
      if "path" = key then some (.text o.path)
      else if "if" = key then o.guard.map (nullOr .mapping)
      else if "reason" = key then o.reason.map (nullOr .text)
      else if "op" = key then some (.text o.kind.name)
      else o.body.fields.get? key := by
  have own : key ∈ sharedNames → o.body.fields.get? key = none := o.body.get?_fields_of_shared
  rw [wire, if_pos tagged, Mapping.get?_append, List.cons_append, Mapping.get?, Mapping.get?_append,
    get?_givenField, get?_givenField, Mapping.get?]
  by_cases path : "path" = key
  · simp [path]
  · by_cases guard : "if" = key
    · subst guard
      simp [own (by decide)]
    · by_cases reason : "reason" = key
      · subst reason
        simp [own (by decide)]
      · simp [path, guard, reason]

/-- What is read of a form has its kind among the fields given, and its body is settled. -/
theorem tagged_and_isSettled {v : Value} {o : Operation} (h : ofValue v = .ok o) :
    o.tagged = true ∧ o.body.IsSettled := by
  unfold ofValue at h
  split at h
  · next form =>
    split at h
    · cases h
    · split at h
      · next kind _ =>
        have read : ofForm kind true form = .ok o := Checked.within_eq_ok_iff.1 h
        obtain ⟨_, body, shared, own, rfl⟩ := Checked.ap_eq_ok_iff.1 read
        obtain ⟨_, reason, guarded, -, rfl⟩ := Checked.ap_eq_ok_iff.1 shared
        obtain ⟨_, guard, placed, -, rfl⟩ := Checked.ap_eq_ok_iff.1 guarded
        obtain ⟨_, path, started, -, rfl⟩ := Checked.ap_eq_ok_iff.1 placed
        cases started
        exact ⟨rfl, OperationBody.isSettled_of_ofForm own⟩
      · cases h
  · cases h

/-- **The wire form is stable.** An operation that was read, whatever was converted and ignored in
it, is read again from its wire form, and it is the same operation. -/
theorem ofValue_wire {v : Value} {o : Operation} (h : ofValue v = .ok o) :
    ofValue (.mapping o.wire) = .ok o := by
  obtain ⟨tagged, settled⟩ := tagged_and_isSettled h
  have entries := get?_wire tagged
  have tag : o.wire.get? "op" = some (.text o.kind.name) := by simp [entries]
  have kind : kindOf (.text o.kind.name) = .ok o.kind := by
    simp only [kindOf, OperationKind.ofName?_name]
  have place : o.wire.get? "path" = some (.text o.path) := by simp [entries]
  have path : required o.wire ["path"] text = .ok o.path := required_eq_ok place rfl
  have guard : optional o.wire ["if", "if_"] (nullable mapping) = .ok o.guard := by
    have found : o.wire.get? "if" = o.guard.map (nullOr .mapping) := by simp [entries]
    have shared : "if_" ∈ sharedNames := by decide
    have absent : o.wire.get? "if_" = none := by
      simp [entries, o.body.get?_fields_of_shared shared]
    have taken (field : Option Mapping) :
        nullable mapping (nullOr Value.mapping field) = .ok field :=
      nullable_nullOr Value.mapping (fun _ => rfl) (fun _ => Value.noConfusion) field
    exact optional_eq_ok found (by simp [absent]) fun field _ => taken field
  have reason : optional o.wire ["reason"] (nullable text) = .ok o.reason := by
    have found : o.wire.get? "reason" = o.reason.map (nullOr .text) := by simp [entries]
    exact optional_eq_ok found (by simp) fun field _ => nullable_text_written field
  have body : OperationBody.ofForm o.wire o.kind = .ok o.body := by
    refine OperationBody.ofForm_of_fields settled fun key unshared => ?_
    simp only [sharedNames, List.mem_cons, not_or] at unshared
    obtain ⟨notPath, notIf, -, notReason, notOp, -⟩ := unshared
    rw [entries, if_neg (Ne.symm notPath), if_neg (Ne.symm notIf), if_neg (Ne.symm notReason),
      if_neg (Ne.symm notOp)]
  have read : ofForm o.kind true o.wire = .ok o := by
    simp only [ofForm, path, guard, reason, body, ← tagged]
    rfl
  simp only [ofValue, tag, kind, read]
  rfl

/-- The operation of a form with other names, values to convert and a field that no test has. -/
theorem ofValue_wire_of_loose_form :
    ofValue (.mapping
      [("path", .text "a"), ("op", .text "test"), ("if_", .null), ("in_", .list [.int 1]),
        ("exists", .text "Yes"), ("match", .null), ("extra", .bool true)]) =
      .ok ⟨"a", some none, none, true,
        .test none [(.oneOf, .list [.int 1]), (.pattern, .null), (.present, .bool true)]⟩ ∧
    ofValue (.mapping
      [("path", .text "a"), ("if", .null), ("op", .text "test"), ("in", .list [.int 1]),
        ("match", .null), ("exists", .bool true)]) =
      .ok ⟨"a", some none, none, true,
        .test none [(.oneOf, .list [.int 1]), (.pattern, .null), (.present, .bool true)]⟩ :=
  have loose : ofValue (.mapping
      [("path", .text "a"), ("op", .text "test"), ("if_", .null), ("in_", .list [.int 1]),
        ("exists", .text "Yes"), ("match", .null), ("extra", .bool true)]) =
      .ok ⟨"a", some none, none, true,
        .test none [(.oneOf, .list [.int 1]), (.pattern, .null), (.present, .bool true)]⟩ := by
    rfl
  ⟨loose, ofValue_wire loose⟩

end Operation

end PatchScript
