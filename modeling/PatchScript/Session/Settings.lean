import PatchScript.Form.Field

/-!
# Settings

The settings of a session are a form with a default for every field. Each field has a rule of its
own; besides, the two markers of a block must differ. Assigning one setting checks its own rule
first, so that an assignment against it changes nothing, and the markers afterwards.

## Main definitions

* `Settings`: the settings with their defaults.
* `Settings.ofValue`: the settings that a value describes.
* `Settings.assign`: one setting given another value.
-/

namespace PatchScript

/-- When the commands of streamed text take effect: blocks as soon as they are closed, or all
commands at the end. -/
inductive UpdateMode where
  | streaming
  | background
deriving DecidableEq

namespace UpdateMode

/-- The name of a mode. -/
def name : UpdateMode → String
  | .streaming => "streaming"
  | .background => "background"

/-- Both modes under their names. -/
def named : List (String × UpdateMode) :=
  [UpdateMode.streaming, .background].map fun m => (m.name, m)

end UpdateMode

/-- The settings of a session. -/
structure Settings where
  /-- Without it no text is taken in. -/
  enabled : Bool := true
  /-- Whether the commands found in a text take effect. -/
  autoUpdate : Bool := true
  updateMode : UpdateMode := .streaming
  debugMode : Bool := false
  /-- Whether the constraints in the document are enforced. -/
  schemaValidation : Bool := false
  /-- What opens a block. -/
  blockStart : String := "<VariablePatch>"
  /-- What closes a block. -/
  blockEnd : String := "</VariablePatch>"
  /-- What every line with a command begins with. -/
  lineOpening : String := ""
  /-- What stands in front of the method of a call. -/
  receiver : String := "_."
  /-- Whether a block that is a list is a batch of all or nothing. -/
  atomicBlocks : Bool := false
  maxExpressionLength : Int := 512
  maxExpressionDepth : Int := 64
deriving DecidableEq

/-! ### Fields -/

/-- A setting: its name, how a value is taken for it, and its value. -/
structure SettingField where
  name : String
  read : Value → Checked (Settings → Settings)
  value : Settings → Value

namespace SettingField

/-- A setting of some type. -/
def ofReader {α : Type} (name : String) (reader : FieldReader α) (toValue : α → Value)
    (get : Settings → α) (set : α → Settings → Settings) : SettingField :=
  { name := name
    read := fun v => (reader v).map set
    value := fun s => toValue (get s) }

/-- A truth value. -/
def flag (name : String) (get : Settings → Bool) (set : Bool → Settings → Settings) :
    SettingField :=
  ofReader name FieldReader.flag .bool get set

/-- All settings, in their order. -/
def all : List SettingField := [
  flag "enabled" (·.enabled) fun b s => { s with enabled := b },
  flag "auto_update" (·.autoUpdate) fun b s => { s with autoUpdate := b },
  ofReader "update_mode" (FieldReader.choice UpdateMode.named) (.text ∘ UpdateMode.name)
    (·.updateMode) fun m s => { s with updateMode := m },
  flag "debug_mode" (·.debugMode) fun b s => { s with debugMode := b },
  flag "schema_validation" (·.schemaValidation) fun b s => { s with schemaValidation := b },
  ofReader "block_start" FieldReader.nonemptyText .text
    (·.blockStart) fun t s => { s with blockStart := t },
  ofReader "block_end" FieldReader.nonemptyText .text
    (·.blockEnd) fun t s => { s with blockEnd := t },
  ofReader "line_prefix" FieldReader.text .text
    (·.lineOpening) fun t s => { s with lineOpening := t },
  ofReader "call_prefix" FieldReader.text .text
    (·.receiver) fun t s => { s with receiver := t },
  flag "atomic_blocks" (·.atomicBlocks) fun b s => { s with atomicBlocks := b },
  ofReader "max_expression_length" FieldReader.positive .int
    (·.maxExpressionLength) fun n s => { s with maxExpressionLength := n },
  ofReader "max_expression_depth" FieldReader.positive .int
    (·.maxExpressionDepth) fun n s => { s with maxExpressionDepth := n }]

/-- The setting of a name. -/
def ofName? (name : String) : Option SettingField := all.find? (·.name == name)

end SettingField

namespace Settings

/-- The settings as a mapping. -/
def toMapping (s : Settings) : Mapping := SettingField.all.map fun f => (f.name, f.value s)

/-- The settings, provided that the markers differ. -/
def withMarkersChecked (s : Settings) : Checked Settings :=
  if s.blockStart = s.blockEnd then FieldReader.fault .equalMarkers else .ok s

/-- The change that one field of a form makes. -/
def changeOf (form : Mapping) (f : SettingField) : Checked (Settings → Settings) :=
  (optional form [f.name] f.read).map (·.getD id)

/-- The changes that all fields of a form make. -/
def changesOf (form : Mapping) : Checked (Settings → Settings) :=
  SettingField.all.foldr
    (fun f rest => (Checked.ap (.ok fun g h s => h (g s)) (changeOf form f)).ap rest) (.ok id)

/-- The settings that a form describes. The markers are compared when every field passes. -/
def ofForm (form : Mapping) : Checked Settings := do
  let change ← changesOf form
  withMarkersChecked (change {})

/-- The settings that a value describes. -/
def ofValue : Value → Checked Settings
  | .mapping form => ofForm form
  | _ => FieldReader.fault .notSettings

/-! ### Assignment -/

/-- Whether a name belongs to nobody: what is assigned to it is forgotten. -/
def isPrivate (name : String) : Bool := name.toList.head? == some '_'

/-- Gives one setting another value. The result is the settings afterwards and the problems: a
value that does not pass is not assigned, but one that makes the markers equal is. -/
def assign (s : Settings) (name : String) (value : Value) : Settings × List FormProblem :=
  if isPrivate name then (s, [])
  else
    match SettingField.ofName? name with
    | none => (s, [⟨[name], .unknownName name⟩])
    | some f =>
      match Checked.within name (f.read value) with
      | .error problems => (s, problems)
      | .ok change =>
        match withMarkersChecked (change s) with
        | .error problems => (change s, problems)
        | .ok s => (s, [])

/-- Assigns settings one by one until one of them has a problem. -/
def assignAll (s : Settings) : Mapping → Settings × List FormProblem
  | [] => (s, [])
  | (name, value) :: rest =>
    match s.assign name value with
    | (s, []) => assignAll s rest
    | (s, problems) => (s, problems)

end Settings

end PatchScript
