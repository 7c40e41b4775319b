import PatchScript.Document.Constraints
import PatchScript.Proofs.Document.Update
import PatchScript.Proofs.Value.Mapping

/-!
# The reach of constraints

The constraints of a mapping govern the mapping itself, and everything below it up to the next
mapping with constraints of its own. The check of a writing asks only for the container of its last
step: for a new entry of the mapping this is the mapping itself, for anything further down it is
not, also where the way down to it is missing. A mapping that is added has the defaults of the
nearest constraints, and of no others.

## Main definitions

* `Value.IsNearest` — the nearest constraints on the way to a container
* `Value.Defaults` — what a mapping that is added to a container has by default
* `Mapping.overlay` — defaults under given entries

## Main results

* `Value.governing?_nearest` — the nearest constraints govern, and nothing else does
* `Value.governing?_self`, `Value.governing?_missing` — what governs a mapping with constraints, and
  what is missing below it
* `Value.withTemplate_mapping` — a mapping overlays the defaults of the nearest constraints
* `Value.closedAt?_concat_eq_none_iff` — a closed mapping admits no new entry of its own
* `Value.closedAt?_below_eq_none_iff` — it admits what lies below a new entry, if its constraints
  leave open what is below it
-/

namespace PatchScript

namespace Value

variable {document v x : Value} {path rest : Path} {k t : Segment} {c : Constraints}

/-! ### The nearest constraints -/

/-- The constraints of what stands at a path on itself. -/
def constraintsAt (document : Value) (path : Path) : Option Constraints :=
  (document.resolve path).bind Constraints.of?

/-- The nearest constraints on the way to a container are those at the longest beginning of its path
at which there are any. -/
structure IsNearest (document : Value) (container owner : Path) (c : Constraints) : Prop where
  onTheWay : owner <+: container
  found : document.constraintsAt owner = some c
  last : ∀ q, q <+: container → owner.length < q.length → document.constraintsAt q = none

theorem constraintsAt_nil (v : Value) : v.constraintsAt [] = Constraints.of? v := rfl

theorem constraintsAt_cons (v : Value) (s : Segment) (path : Path) :
    v.constraintsAt (s :: path) = (v.child? s).bind (·.constraintsAt path) := by
  rw [constraintsAt, resolve]
  cases v.child? s <;> rfl

/-- The constraints found on the way to the children of a value, its own being the nearest. -/
def foundAt (v : Value) (walked : Path) (found : Option Governing) : Option Governing :=
  match Constraints.of? v with
  | some c => some ⟨c, walked, false⟩
  | none => found

theorem governingFrom_cons (walked : Path) (found : Option Governing) (v : Value) (k : Segment)
    (path : Path) :
    governingFrom walked found v (k :: path) =
      match v.child? k with
      | none => v.foundAt walked found
      | some x => governingFrom (walked ++ [k]) (v.foundAt walked found) x path := by
  have null (walked : Path) (found : Option Governing) :
      governingFrom walked found .null path = found := by
    cases path with
    | nil => rfl
    | cons s path => cases s <;> rfl
  rw [governingFrom, foundAt]
  cases v.child? k with
  | none => rfl
  | some x =>
    cases x with
    | null => exact (null ..).symm
    | _ => rfl

theorem IsNearest.unique {container owner owner' : Path} {c' : Constraints}
    (h : document.IsNearest container owner c) (h' : document.IsNearest container owner' c') :
    owner = owner' ∧ c = c' := by
  have le {p p' : Path} {d d' : Constraints} (h : document.IsNearest container p d)
      (h' : document.IsNearest container p' d') : p'.length ≤ p.length := by
    by_contra longer
    have := h.last p' h'.onTheWay (by omega)
    rw [h'.found] at this
    cases this
  obtain rfl : owner = owner' :=
    (List.prefix_of_prefix_length_le h.onTheWay h'.onTheWay (le h' h)).eq_of_length_le (le h h')
  exact ⟨rfl, Option.some.inj (h.found.symm.trans h'.found)⟩

theorem IsNearest.cons {owner : Path} (h : x.IsNearest path owner c) (hk : v.child? k = some x) :
    v.IsNearest (k :: path) (k :: owner) c := by
  refine ⟨List.cons_prefix_cons.2 ⟨rfl, h.onTheWay⟩, ?_, fun q hq longer => ?_⟩
  · rw [constraintsAt_cons, hk]
    exact h.found
  · obtain rfl | ⟨q, rfl, below⟩ := List.prefix_cons_iff.1 hq
    · simp at longer
    · rw [constraintsAt_cons, hk]
      exact h.last q below (by simpa using longer)

/-- Where there are no constraints further down, those of the container itself are the nearest, and
else those found before. -/
theorem nearest_of_none_below (none_below : ∀ q, q <+: path → v.constraintsAt (k :: q) = none)
    (walked : Path) (found : Option Governing) :
    (∃ owner c, v.IsNearest (k :: path) owner c ∧
        v.foundAt walked found = some ⟨c, walked ++ owner, decide (owner = k :: path)⟩) ∨
      (∀ q, q <+: k :: path → v.constraintsAt q = none) ∧ v.foundAt walked found = found := by
  have below (q : Path) (hq : q <+: k :: path) (longer : q ≠ []) : v.constraintsAt q = none := by
    obtain rfl | ⟨q, rfl, below⟩ := List.prefix_cons_iff.1 hq
    · exact absurd rfl longer
    · exact none_below q below
  cases hv : Constraints.of? v with
  | some c =>
    refine .inl ⟨[], c, ⟨List.nil_prefix, hv, fun q hq longer => below q hq ?_⟩, ?_⟩
    · exact List.ne_nil_of_length_pos longer
    · simp [foundAt, hv]
  | none =>
    refine .inr ⟨fun q hq => ?_, by simp [foundAt, hv]⟩
    by_cases root : q = []
    · rw [root, constraintsAt_nil, hv]
    · exact below q hq root

/-- The search finds the nearest constraints, and keeps what was found before where there are
none. -/
theorem governingFrom_nearest (walked : Path) (found : Option Governing) (v : Value) (path : Path) :
    (∃ owner c, v.IsNearest path owner c ∧
        governingFrom walked found v path = some ⟨c, walked ++ owner, decide (owner = path)⟩) ∨
      (∀ q, q <+: path → v.constraintsAt q = none) ∧ governingFrom walked found v path = found := by
  induction path generalizing walked found v with
  | nil =>
    cases hv : Constraints.of? v with
    | some c =>
      refine .inl ⟨[], c, ⟨List.nil_prefix, hv, fun q hq longer => ?_⟩, by simp [governingFrom, hv]⟩
      simp [List.prefix_nil.1 hq] at longer
    | none =>
      refine .inr ⟨fun q hq => ?_, by simp [governingFrom, hv]⟩
      rw [List.prefix_nil.1 hq, constraintsAt_nil, hv]
  | cons k path ih =>
    rw [governingFrom_cons]
    cases hk : v.child? k with
    | none =>
      exact nearest_of_none_below (fun q _ => by rw [constraintsAt_cons, hk, Option.bind_none]) ..
    | some x =>
      obtain ⟨owner, c, nearest, equal⟩ | ⟨none_below, equal⟩ :=
        ih (walked ++ [k]) (v.foundAt walked found) x
      · exact .inl ⟨k :: owner, c, nearest.cons hk, by simp [equal]⟩
      · simp only [equal]
        refine nearest_of_none_below (fun q hq => ?_) ..
        rw [constraintsAt_cons, hk, Option.bind_some, none_below q hq]

/-- **The nearest constraints govern** a container, and none do where there are none on the way. -/
theorem governing?_nearest (document : Value) (container : Path) :
    (∃ owner c, document.IsNearest container owner c ∧
        document.governing? container = some ⟨c, owner, decide (owner = container)⟩) ∨
      (∀ q, q <+: container → document.constraintsAt q = none) ∧
        document.governing? container = none :=
  governingFrom_nearest [] none document container

theorem governing?_of_isNearest {container owner : Path}
    (h : document.IsNearest container owner c) :
    document.governing? container = some ⟨c, owner, decide (owner = container)⟩ := by
  obtain ⟨owner', c', nearest, equal⟩ | ⟨nowhere, -⟩ := governing?_nearest document container
  · obtain ⟨rfl, rfl⟩ := h.unique nearest
    exact equal
  · have := nowhere owner h.onTheWay
    rw [h.found] at this
    cases this

/-! ### Below a mapping with constraints -/

theorem constraintsAt_of_resolve (h : document.resolve path = some x)
    (hc : Constraints.of? x = some c) : document.constraintsAt path = some c := by
  rw [constraintsAt, h, Option.bind_some, hc]

/-- A mapping with constraints is governed by them. -/
theorem governing?_self (h : document.resolve path = some x) (hc : Constraints.of? x = some c) :
    document.governing? path = some ⟨c, path, true⟩ := by
  have nearest : document.IsNearest path path c :=
    ⟨List.prefix_rfl, constraintsAt_of_resolve h hc, fun q hq longer =>
      absurd hq.length_le (by omega)⟩
  simpa using governing?_of_isNearest nearest

/-- What is missing below a mapping with constraints is governed by them too. -/
theorem governing?_missing (h : document.resolve path = some x)
    (hc : Constraints.of? x = some c) (hk : x.child? k = none) :
    document.governing? (path ++ k :: rest) = some ⟨c, path, false⟩ := by
  have nearest : document.IsNearest (path ++ k :: rest) path c := by
    refine ⟨List.prefix_append .., constraintsAt_of_resolve h hc, fun q hq longer => ?_⟩
    -- a longer beginning goes through the missing step
    obtain ⟨more, rfl⟩ := List.prefix_of_prefix_length_le (List.prefix_append ..) hq (by omega)
    have further : more ≠ [] := by
      rintro rfl
      simp at longer
    obtain ⟨t, more, rfl⟩ := List.exists_cons_of_ne_nil further
    obtain rfl : t = k := by
      rw [List.prefix_append_right_inj, List.cons_prefix_cons] at hq
      exact hq.1
    rw [constraintsAt, resolve_append, h, Option.bind_some, resolve, hk, Option.bind_none]
  simpa using governing?_of_isNearest nearest

/-! ### The check of a writing -/

theorem closedAt?_append_cons (document : Value) (path : Path) (k : Segment) (rest : Path) :
    document.closedAt? (path ++ k :: rest) =
      match document.governing? (path ++ (k :: rest).dropLast) with
      | none => none
      | some g =>
        if g.allowsNewKeys || (document.resolve (path ++ k :: rest)).isSome then none
        else some .closed := by
  obtain ⟨q, more, step⟩ := List.exists_cons_of_ne_nil (show path ++ k :: rest ≠ [] by simp)
  rw [← List.dropLast_append_of_ne_nil (by simp), step]
  rfl

/-- What is there can be written. -/
theorem closedAt?_of_resolve (h : document.resolve path = some x) :
    document.closedAt? path = none := by
  unfold closedAt?
  split
  · rfl
  · split
    · rfl
    · rw [h, Option.isSome_some, Bool.or_true, if_pos rfl]

/-- A closed mapping admits no new entry of its own. -/
theorem closedAt?_concat_eq_none_iff (h : document.resolve path = some x)
    (hc : Constraints.of? x = some c) (closed : c.extensible = false) :
    document.closedAt? (path ++ [k]) = none ↔ (x.child? k).isSome = true := by
  have entry : document.resolve (path ++ [k]) = x.child? k := by
    rw [resolve_append, h]
    simp only [Option.bind_some, resolve]
    cases x.child? k <;> rfl
  rw [closedAt?_append_cons, List.dropLast_singleton, List.append_nil, governing?_self h hc, entry]
  simp [Governing.allowsNewKeys, closed, Option.isSome_iff_ne_none]

/-- Below a new entry a closed mapping admits everything or nothing. -/
theorem closedAt?_below_eq_none_iff (h : document.resolve path = some x)
    (hc : Constraints.of? x = some c) (closed : c.extensible = false) (hk : x.child? k = none) :
    document.closedAt? (path ++ k :: t :: rest) = none ↔ c.recursiveExtensible = true := by
  have missing : document.resolve (path ++ k :: t :: rest) = none := by
    rw [resolve_append, h]
    simp only [Option.bind_some, resolve, hk]
  rw [closedAt?_append_cons, List.dropLast_cons_cons, governing?_missing h hc hk, missing]
  simp [Governing.allowsNewKeys, closed]

end Value

/-! ### Templates -/

/-- Defaults with the given entries over them: where a key stands in both, the given entry takes the
place of the default. Without defaults the given entries stay as they are. -/
def Mapping.overlay (defaults given : Mapping) : Mapping :=
  if defaults.isEmpty then given else defaults.merge given

/-- The given keys win. -/
theorem Mapping.get?_overlay {given : Mapping} (distinct : given.keys.Nodup) (defaults : Mapping)
    (key : String) :
    (defaults.overlay given).get? key = (given.get? key).or (defaults.get? key) := by
  cases defaults with
  | nil => simp [overlay, get?]
  | cons e rest => exact get?_merge distinct (e :: rest) key

namespace Value

/-- What a mapping that is added to a container has by default. -/
inductive Defaults (document : Value) (container : Path) : Mapping → Prop
  /-- The template of the nearest constraints, which may have none. -/
  | nearest {owner : Path} {c : Constraints} (h : document.IsNearest container owner c) :
    Defaults document container (c.template.getD [])
  /-- Nothing, where no constraints stand on the way. -/
  | nowhere (h : ∀ q, q <+: container → document.constraintsAt q = none) :
    Defaults document container []

/-- A mapping that is added overlays the defaults of its container. -/
theorem withTemplate_mapping (document : Value) (path : Path) (m : Mapping) :
    ∃ defaults, document.Defaults path.dropLast defaults ∧
      document.withTemplate path (.mapping m) = .mapping (defaults.overlay m) := by
  obtain ⟨owner, c, nearest, governs⟩ | ⟨nowhere, governs⟩ :=
    governing?_nearest document path.dropLast
  · refine ⟨_, .nearest nearest, ?_⟩
    simp only [withTemplate, governs, Option.bind_some]
    obtain _ | _ | ⟨e, rest⟩ := c.template <;> rfl
  · refine ⟨_, .nowhere nowhere, ?_⟩
    simp only [withTemplate, governs, Option.bind_none]
    rfl

/-- Nearer constraints without a template hide the template of those further up. -/
example :
    let nearer : Value := .mapping [("$meta", .mapping [("extensible", .bool true)])]
    let document : Value := .mapping
      [("$meta", .mapping [("template", .mapping [("level", .int 1)])]), ("party", nearer)]
    document.withTemplate [.key "hero"] (.mapping []) = .mapping [("level", .int 1)] ∧
      document.withTemplate [.key "party", .key "hero"] (.mapping []) = .mapping [] := by
  decide

/-- Other values have no defaults. -/
theorem withTemplate_of_not_mapping {value : Value} (h : ∀ m, value ≠ .mapping m)
    (document : Value) (path : Path) : document.withTemplate path value = value := by
  cases value with
  | mapping m => exact absurd rfl (h m)
  | _ => rfl

end Value

end PatchScript
