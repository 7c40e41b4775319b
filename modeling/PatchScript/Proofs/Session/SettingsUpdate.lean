import PatchScript.Proofs.Except
import PatchScript.Proofs.Value.Mapping
import PatchScript.Session.Basic

/-!
# Updates of the settings

An update assigns settings one after the other and stops at the first problem. What was assigned
until then stays: the settings before the problem, and even the one with the problem where its value
passes its own rule and only makes the two markers equal. What governs the operations follows only
when there was no problem at all.

So an update that fails may leave the settings and what governs the operations apart. It leaves
everything as it was exactly where each of the settings that it got to assign had its value before.

## Main definitions

* `SettingField.Holds` — a setting has the value for which another value is taken
* `Settings.assigned` — the changes that an update gets to assign
* `Session.AllOrNothing` — an update takes over every change, or leaves the session alone

## Main results

* `Settings.holds_of_mem_assigned` — what was assigned is there in the end
* `Session.allOrNothing_iff` — the headline: when an update is all or nothing
-/

namespace PatchScript

/-! ### Problems are named -/

namespace FieldReader

variable {α : Type}

/-- Whether a value that does not pass always has a problem to show for it. -/
def Explains (reader : FieldReader α) : Prop := ∀ v, reader v ≠ .error []

theorem explains_flag : Explains flag := by
  intro v h
  unfold flag at h
  split at h
  · cases h
  · split at h <;> cases h
  · split at h <;> cases h
  · cases h

theorem explains_text : Explains text := by
  intro v h
  unfold text at h
  split at h <;> cases h

theorem explains_nonemptyText : Explains nonemptyText := by
  intro v h
  unfold nonemptyText at h
  split at h
  · split at h <;> cases h
  · cases h

theorem explains_choice (options : List (String × α)) : Explains (choice options) := by
  intro v h
  unfold choice at h
  split at h
  · split at h <;> cases h
  · cases h

theorem explains_integer : Explains integer := by
  intro v h
  unfold integer at h
  split at h
  · cases h
  · cases h
  · split at h
    · split at h <;> cases h
    · cases h
  · split at h <;> cases h
  · cases h

theorem explains_positive : Explains positive := by
  intro v h
  unfold positive at h
  cases read : integer v with
  | error problems =>
    rw [read] at h
    exact explains_integer v (read.trans h)
  | ok n =>
    rw [read, ok_bind] at h
    split at h <;> cases h

end FieldReader

/-! ### Fields -/

namespace SettingField

variable {f g : SettingField} {v : Value} {change : Settings → Settings} {s t : Settings}

/-- Whether the setting has the value for which `v` is taken. -/
def Holds (f : SettingField) (s : Settings) (v : Value) : Prop :=
  ∃ change, f.read v = .ok change ∧ f.value (change s) = f.value s

theorem read_ofReader_eq_ok {α : Type} {name : String} {reader : FieldReader α}
    {toValue : α → Value} {get : Settings → α} {set : α → Settings → Settings}
    (h : (ofReader name reader toValue get set).read v = .ok change) : ∃ a, change = set a := by
  have h : (reader v).map set = .ok change := h
  cases read : reader v with
  | error problems => simp [read, Except.map] at h
  | ok a => exact ⟨a, by simpa [read, Except.map, eq_comm] using h⟩

theorem read_ofReader_ne {α : Type} {reader : FieldReader α} (h : reader.Explains) (name : String)
    (toValue : α → Value) (get : Settings → α) (set : α → Settings → Settings) (v : Value) :
    (ofReader name reader toValue get set).read v ≠ .error [] := by
  intro failed
  refine h v ?_
  have failed : (reader v).map set = .error [] := failed
  cases read : reader v with
  | error problems => simpa [read, Except.map] using failed
  | ok a => simp [read, Except.map] at failed

/-- A setting that cannot be read has a problem. -/
theorem read_ne_error_nil (hf : f ∈ all) (v : Value) : f.read v ≠ .error [] := by
  simp only [all, List.mem_cons, List.not_mem_nil, or_false] at hf
  rcases hf with rfl | rfl | rfl | rfl | rfl | rfl | rfl | rfl | rfl | rfl | rfl | rfl <;>
    apply read_ofReader_ne
  all_goals
    first
    | exact FieldReader.explains_flag
    | exact FieldReader.explains_text
    | exact FieldReader.explains_nonemptyText
    | exact FieldReader.explains_choice _
    | exact FieldReader.explains_positive

/-- Assigning a setting gives it the same value, whatever it was before. -/
theorem value_change (hf : f ∈ all) (h : f.read v = .ok change) (s t : Settings) :
    f.value (change s) = f.value (change t) := by
  simp only [all, List.mem_cons, List.not_mem_nil, or_false] at hf
  rcases hf with rfl | rfl | rfl | rfl | rfl | rfl | rfl | rfl | rfl | rfl | rfl | rfl <;>
    obtain ⟨a, rfl⟩ := read_ofReader_eq_ok h <;> rfl

/-- Assigning a setting leaves the others alone. -/
theorem value_change_of_ne (hf : f ∈ all) (hg : g ∈ all) (different : g.name ≠ f.name)
    (h : f.read v = .ok change) (s : Settings) : g.value (change s) = g.value s := by
  have others : ∀ g ∈ all, g.name = f.name ∨ g.value (change s) = g.value s := by
    simp only [all, List.mem_cons, List.not_mem_nil, or_false] at hf
    rcases hf with rfl | rfl | rfl | rfl | rfl | rfl | rfl | rfl | rfl | rfl | rfl | rfl <;>
      obtain ⟨a, rfl⟩ := read_ofReader_eq_ok h <;> simp [all, flag, ofReader]
  exact (others g hg).resolve_left different

/-- The values of all settings make up the settings. -/
theorem ext_values (h : ∀ f ∈ all, f.value s = f.value t) : s = t := by
  have mode {a b : UpdateMode} (h : a.name = b.name) : a = b := by
    cases a <;> cases b <;> first | rfl | simp [UpdateMode.name] at h
  simp only [all, flag, ofReader, List.forall_mem_cons, Function.comp_apply, Value.bool.injEq,
    Value.text.injEq, Value.int, Value.number.injEq, Number.int.injEq] at h
  have same_mode := mode h.2.2.1
  cases s
  cases t
  simp_all

theorem ofName?_name (hf : f ∈ all) : ofName? f.name = some f := by
  simp only [all, List.mem_cons, List.not_mem_nil, or_false] at hf
  rcases hf with rfl | rfl | rfl | rfl | rfl | rfl | rfl | rfl | rfl | rfl | rfl | rfl <;> rfl

theorem mem_of_ofName? {name : String} (h : ofName? name = some f) : f ∈ all ∧ f.name = name :=
  ⟨List.mem_of_find?_eq_some h, by simpa using List.find?_some h⟩

/-- No setting is private. -/
theorem isPrivate_of_ofName? {name : String} (h : ofName? name = some f) :
    Settings.isPrivate name = false := by
  obtain ⟨hf, rfl⟩ := mem_of_ofName? h
  simp only [all, List.mem_cons, List.not_mem_nil, or_false] at hf
  rcases hf with rfl | rfl | rfl | rfl | rfl | rfl | rfl | rfl | rfl | rfl | rfl | rfl <;> rfl

theorem Holds.of_value_eq (hf : f ∈ all) (h : f.Holds s v) (same : f.value t = f.value s) :
    f.Holds t v := by
  obtain ⟨change, read, holds⟩ := h
  exact ⟨change, read, by rw [value_change hf read t s, holds, same]⟩

theorem holds_change (hf : f ∈ all) (h : f.read v = .ok change) (s : Settings) :
    f.Holds (change s) v :=
  ⟨change, h, value_change hf h _ _⟩

/-- Assigning the value that the setting has changes nothing. -/
theorem change_eq_self (hf : f ∈ all) (h : f.read v = .ok change) (holds : f.Holds s v) :
    change s = s := by
  obtain ⟨change', read, same⟩ := holds
  obtain rfl : change = change' := by simpa using h.symm.trans read
  refine ext_values fun g hg => ?_
  by_cases equal : g.name = f.name
  · obtain rfl : g = f := by simpa [equal, ofName?_name hf] using (ofName?_name hg).symm
    exact same
  · exact value_change_of_ne hf hg equal h s

end SettingField

/-! ### Assignments -/

namespace Settings

variable {s : Settings} {name : String} {v : Value} {f : SettingField} {changes : Mapping}

/-- Whether the setting of a name, if there is one, has the value for which `v` is taken. -/
def Has (s : Settings) (name : String) (v : Value) : Prop :=
  ∀ f, SettingField.ofName? name = some f → f.Holds s v

/-- Whether there is a setting of a name, and a value passes its own rule. -/
def isTaken (name : String) (v : Value) : Bool :=
  match SettingField.ofName? name with
  | some f => (f.read v).isOk
  | none => false

/-- The changes that get assigned, one after the other: those before the first problem, and the one
with the problem if only the markers are in its way. -/
def assigned (s : Settings) : Mapping → Mapping
  | [] => []
  | (name, v) :: rest =>
    match s.assign name v with
    | (t, []) => (name, v) :: assigned t rest
    | (_, _ :: _) => if isTaken name v then [(name, v)] else []

/-- A value that passes the rule of its setting is assigned, whatever the markers are. -/
theorem fst_assign_of_read {change : Settings → Settings}
    (hf : SettingField.ofName? name = some f) (read : f.read v = .ok change) :
    (s.assign name v).1 = change s := by
  rw [assign, SettingField.isPrivate_of_ofName? hf, if_neg Bool.false_ne_true, hf]
  simp only [read, Checked.within, mapError_ok]
  by_cases equal : (change s).blockStart = (change s).blockEnd <;>
    simp [withMarkersChecked, FieldReader.fault, equal]

theorem fst_assign_of_not_isTaken (h : isTaken name v = false) : (s.assign name v).1 = s := by
  rw [assign]
  split
  · rfl
  cases hf : SettingField.ofName? name with
  | none => rfl
  | some f =>
    obtain ⟨problems, read⟩ := isOk_eq_false_iff.1 (by simpa [isTaken, hf] using h)
    simp [read, Checked.within, mapError_error]

/-- What an assignment does: the setting has the value, and the others are left alone. -/
theorem fst_assign_cases (s : Settings) (name : String) (v : Value) :
    (s.assign name v).1 = s ∧ isTaken name v = false ∨
      ∃ f change, SettingField.ofName? name = some f ∧ f.read v = .ok change ∧
        (s.assign name v).1 = change s := by
  cases taken : isTaken name v with
  | false => exact .inl ⟨fst_assign_of_not_isTaken taken, rfl⟩
  | true =>
    cases hf : SettingField.ofName? name with
    | none => simp [isTaken, hf] at taken
    | some f =>
      obtain ⟨change, read⟩ := isOk_eq_true_iff.1 (by simpa [isTaken, hf] using taken)
      exact .inr ⟨f, change, rfl, read, fst_assign_of_read hf read⟩

theorem has_assign (h : isTaken name v = true) : (s.assign name v).1.Has name v := by
  obtain ⟨-, not_taken⟩ | ⟨f, change, hf, read, equal⟩ := fst_assign_cases s name v
  · simp [h] at not_taken
  intro g hg
  obtain rfl : f = g := by simpa [hf] using hg
  rw [equal]
  exact SettingField.holds_change (SettingField.mem_of_ofName? hf).1 read s

theorem value_assign_of_ne (hf : f ∈ SettingField.all) (different : f.name ≠ name) :
    f.value (s.assign name v).1 = f.value s := by
  obtain ⟨equal, -⟩ | ⟨g, change, hg, read, equal⟩ := fst_assign_cases s name v
  · rw [equal]
  · obtain ⟨mem, rfl⟩ := SettingField.mem_of_ofName? hg
    rw [equal, SettingField.value_change_of_ne mem hf different read]

theorem assign_eq_self (h : s.Has name v) : (s.assign name v).1 = s := by
  obtain ⟨equal, -⟩ | ⟨f, change, hf, read, equal⟩ := fst_assign_cases s name v
  · exact equal
  · rw [equal, SettingField.change_eq_self (SettingField.mem_of_ofName? hf).1 read (h f hf)]

/-- An assignment without a problem leaves different markers, or nothing was assigned. -/
theorem markers_assign (h : (s.assign name v).2 = []) :
    (s.assign name v).1 = s ∨ (s.assign name v).1.blockStart ≠ (s.assign name v).1.blockEnd := by
  obtain ⟨equal, -⟩ | ⟨f, change, hf, read, equal⟩ := fst_assign_cases s name v
  · exact .inl equal
  · refine .inr ?_
    rw [equal]
    intro same
    rw [assign, SettingField.isPrivate_of_ofName? hf, if_neg Bool.false_ne_true, hf] at h
    simp [read, Checked.within, mapError_ok, withMarkersChecked, FieldReader.fault, same] at h

/-- Without a problem everything that is a setting was assigned. -/
theorem isTaken_of_assign (h : (s.assign name v).2 = []) (hf : SettingField.ofName? name = some f) :
    isTaken name v = true := by
  cases taken : isTaken name v with
  | true => rfl
  | false =>
    obtain ⟨problems, read⟩ := isOk_eq_false_iff.1 (by simpa [isTaken, hf] using taken)
    rw [assign, SettingField.isPrivate_of_ofName? hf, if_neg Bool.false_ne_true, hf] at h
    simp only [read, Checked.within, mapError_error, List.map_eq_nil_iff] at h
    exact absurd (h ▸ read) (SettingField.read_ne_error_nil (SettingField.mem_of_ofName? hf).1 v)

/-! ### Updates -/

/-- An update leaves alone what it does not name. -/
theorem value_assignAll_of_notMem (hf : f ∈ SettingField.all) (absent : f.name ∉ changes.keys) :
    f.value (s.assignAll changes).1 = f.value s := by
  induction changes generalizing s with
  | nil => rfl
  | cons e rest ih =>
    obtain ⟨name, v⟩ := e
    obtain ⟨different, later⟩ : f.name ≠ name ∧ f.name ∉ Mapping.keys rest := by
      simpa [Mapping.keys] using absent
    have step := value_assign_of_ne (s := s) (v := v) hf different
    rw [assignAll]
    split
    · next t equal => rw [ih later, ← step, equal]
    · next t problems _ equal => rw [← step, equal]

/-- **What was assigned is there in the end.** -/
theorem holds_of_mem_assigned (distinct : changes.keys.Nodup) :
    ∀ e ∈ s.assigned changes, (s.assignAll changes).1.Has e.1 e.2 := by
  induction changes generalizing s with
  | nil => simp [assigned]
  | cons e rest ih =>
    obtain ⟨name, v⟩ := e
    obtain ⟨absent, distinct⟩ : name ∉ Mapping.keys rest ∧ (Mapping.keys rest).Nodup := by
      simpa [Mapping.keys] using distinct
    rw [assigned, assignAll]
    cases step : s.assign name v with
    | mk t problems =>
      have here (taken : isTaken name v = true) : t.Has name v := by
        have := has_assign (s := s) taken
        rwa [step] at this
      cases problems with
      | nil =>
        rintro e (_ | ⟨_, later⟩)
        · intro f hf
          -- the rest of the update does not name this setting
          have fine : (s.assign name v).2 = [] := by rw [step]
          have taken := isTaken_of_assign fine hf
          obtain ⟨mem, rfl⟩ := SettingField.mem_of_ofName? hf
          exact (here taken f hf).of_value_eq mem (value_assignAll_of_notMem mem absent)
        · exact ih distinct e later
      | cons problem problems =>
        simp only
        split
        · next taken => simpa using here taken
        · simp

/-- Assigning what is there already changes nothing. -/
theorem assignAll_eq_self (h : ∀ e ∈ s.assigned changes, s.Has e.1 e.2) :
    (s.assignAll changes).1 = s := by
  induction changes with
  | nil => rfl
  | cons e rest ih =>
    obtain ⟨name, v⟩ := e
    rw [assigned] at h
    rw [assignAll]
    cases step : s.assign name v with
    | mk t problems =>
      rw [step] at h
      have same (has : s.Has name v) : t = s := by
        have := assign_eq_self has
        rwa [step] at this
      cases problems with
      | nil =>
        obtain ⟨here, later⟩ := List.forall_mem_cons.1 h
        obtain rfl := same here
        exact ih later
      | cons problem problems =>
        simp only at h
        split at h
        · exact same (h (name, v) (List.mem_singleton_self _))
        · next not_taken =>
          have := fst_assign_of_not_isTaken (s := s) (eq_false_of_ne_true not_taken)
          rwa [step] at this

/-- Without a problem every change gets assigned. -/
theorem assigned_of_success (h : (s.assignAll changes).2 = []) : s.assigned changes = changes := by
  induction changes generalizing s with
  | nil => rfl
  | cons e rest ih =>
    obtain ⟨name, v⟩ := e
    rw [assignAll] at h
    rw [assigned]
    cases step : s.assign name v with
    | mk t problems =>
      rw [step] at h
      cases problems with
      | nil => exact congrArg ((name, v) :: ·) (ih h)
      | cons problem problems => cases h

/-- Without a problem the markers differ in the end, unless nothing was changed. -/
theorem markers_assignAll (h : (s.assignAll changes).2 = []) :
    (s.assignAll changes).1 = s ∨
      (s.assignAll changes).1.blockStart ≠ (s.assignAll changes).1.blockEnd := by
  induction changes generalizing s with
  | nil => exact .inl rfl
  | cons e rest ih =>
    obtain ⟨name, v⟩ := e
    rw [assignAll] at h ⊢
    cases step : s.assign name v with
    | mk t problems =>
      rw [step] at h
      cases problems with
      | cons problem problems => cases h
      | nil =>
        have fine : (s.assign name v).2 = [] := by rw [step]
        have here := markers_assign fine
        rw [step] at here
        simp only at h ⊢
        obtain same | differ := ih h
        · rwa [same]
        · exact .inr differ

end Settings

/-! ### Sessions -/

namespace Session

variable {s t : Session} {changes : Mapping}

/-- The session `t` is `s` with every change taken over. -/
structure TakesOver (s : Session) (changes : Mapping) (t : Session) : Prop where
  /-- Every setting that is named has the value for which the given one is taken. -/
  taken : ∀ f ∈ SettingField.all, ∀ v, changes.get? f.name = some v → f.Holds t.settings v
  /-- Every other setting has the value that it had. -/
  kept : ∀ f ∈ SettingField.all, f.name ∉ changes.keys → f.value t.settings = f.value s.settings
  /-- The rule about the markers is kept to wherever something was changed. -/
  markers : t.settings = s.settings ∨ t.settings.blockStart ≠ t.settings.blockEnd
  /-- What governs the operations follows the settings. -/
  regime : t.regime = t.settings.regime
  /-- Nothing else is changed. -/
  rest : t = { s with settings := t.settings, regime := t.regime }

/-- Whether an update takes over every change or, where it has a problem, leaves the session as it
was. -/
def AllOrNothing (s : Session) (changes : Mapping) : Prop :=
  match s.updateSettings changes with
  | (t, []) => s.TakesOver changes t
  | (t, _ :: _) => t = s

theorem updateSettings_of_success (h : (s.settings.assignAll changes).2 = []) :
    s.updateSettings changes =
      ({ s with
          settings := (s.settings.assignAll changes).1
          regime := (s.settings.assignAll changes).1.regime }, []) := by
  rw [updateSettings]
  split
  · next settings equal => rw [equal]
  · next settings problems failed equal =>
    obtain rfl : problems = [] := by simpa [equal] using h
    exact (failed rfl).elim

theorem updateSettings_of_failure (h : (s.settings.assignAll changes).2 ≠ []) :
    s.updateSettings changes =
      ({ s with settings := (s.settings.assignAll changes).1 },
        (s.settings.assignAll changes).2) := by
  rw [updateSettings]
  split
  · next settings equal =>
    rw [equal] at h
    exact absurd rfl h
  · next settings problems failed equal => rw [equal]

/-- An update without a problem takes over every change. -/
theorem takesOver_of_success (distinct : changes.keys.Nodup)
    (h : (s.settings.assignAll changes).2 = []) :
    s.TakesOver changes
      { s with
        settings := (s.settings.assignAll changes).1
        regime := (s.settings.assignAll changes).1.regime } where
  taken f hf v named := by
    refine Settings.holds_of_mem_assigned distinct (f.name, v) ?_ f (SettingField.ofName?_name hf)
    rw [Settings.assigned_of_success h]
    exact Mapping.mem_of_get? named
  kept f hf absent := Settings.value_assignAll_of_notMem hf absent
  markers := Settings.markers_assignAll h
  regime := rfl
  rest := rfl

/-- **When an update is all or nothing.** It is where it has no problem, and otherwise exactly where
each setting that it gets to assign had its value before. -/
theorem allOrNothing_iff (s : Session) (distinct : changes.keys.Nodup) :
    s.AllOrNothing changes ↔
      (s.updateSettings changes).2 = [] ∨
        ∀ e ∈ s.settings.assigned changes, s.settings.Has e.1 e.2 := by
  by_cases h : (s.settings.assignAll changes).2 = []
  · have success := updateSettings_of_success h
    simp only [AllOrNothing, success, true_or, iff_true]
    exact takesOver_of_success distinct h
  · have failure := updateSettings_of_failure h
    obtain ⟨problem, problems, some_problem⟩ := List.exists_cons_of_ne_nil h
    rw [some_problem] at failure
    simp only [AllOrNothing, failure, List.cons_ne_nil, false_or]
    constructor
    · intro same e he
      have settings := congrArg Session.settings same
      simp only at settings
      have has := Settings.holds_of_mem_assigned distinct e he
      rwa [settings] at has
    · intro has
      rw [Settings.assignAll_eq_self has]

/-- A setting that is given the value it has may be followed by a problem. -/
theorem allOrNothing_same_depth :
    (Mapping.keys [("max_expression_depth", .text " 64 "), ("update_mode", .text "fast")]).Nodup ∧
      (start {} []).AllOrNothing
        [("max_expression_depth", .text " 64 "), ("update_mode", .text "fast")] := by
  have assigned : ({} : Settings).assigned
      [("max_expression_depth", .text " 64 "), ("update_mode", .text "fast")] =
        [("max_expression_depth", .text " 64 ")] := by decide
  refine ⟨by decide, (allOrNothing_iff _ (by decide)).2 (.inr fun e he f hf => ?_)⟩
  obtain rfl : e = ("max_expression_depth", .text " 64 ") := by
    simpa [start, assigned] using he
  obtain rfl : f = _ := (Option.some.inj hf).symm
  exact ⟨_, rfl, rfl⟩

/-- Constraints are switched on in the settings, but not in what governs the operations, where a
later change has a problem; and a marker stays that equals the other one. -/
theorem failed_update_stays :
    ¬ (start {} []).AllOrNothing
        [("schema_validation", .bool true), ("max_expression_length", .int 0)] ∧
      ¬ (start {} []).AllOrNothing [("block_start", .text "</VariablePatch>")] := by
  have constrained : ({} : Settings).assignAll
      [("schema_validation", .bool true), ("max_expression_length", .int 0)] =
        ({ schemaValidation := true }, [⟨["max_expression_length"], .notPositive⟩]) := by decide
  have equalMarkers : ({} : Settings).assignAll [("block_start", .text "</VariablePatch>")] =
      ({ blockStart := "</VariablePatch>" }, [⟨[], .equalMarkers⟩]) := by decide
  constructor
  · intro same
    simp only [AllOrNothing, updateSettings, start, constrained] at same
    exact absurd (congrArg (fun s => s.settings.schemaValidation) same) (by decide)
  · intro same
    simp only [AllOrNothing, updateSettings, start, equalMarkers] at same
    exact absurd (congrArg (fun s => s.settings.blockStart) same) (by decide)

end Session

end PatchScript
