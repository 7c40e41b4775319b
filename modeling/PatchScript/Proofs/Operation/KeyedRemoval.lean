import PatchScript.Proofs.Operation.RequiredKey
import PatchScript.Proofs.Operation.Truth

/-!
# Removals that name a child

A removal can name a child of the container at its path: an entry of a mapping by its key, an item
of a list by its index or by the text that it is. With plain segments it does what a removal does
that has the child's own path: the two delete the same location and report the same change.

The check of required keys comes before. For an entry it asks about the same path in both cases. For
an item it does not: where the item is named apart, it asks about the path of the list, as if the
list itself were to be deleted. So the two part where, of the list and its item, the nearest
constraints require exactly one by its name.

## Main definitions

* `Names` — the location of the child that a name names
* `Operation.direct` — the removal of a location by its own path
* `Operation.AgreesWith` — two operations succeed or fail alike, and with one result
* `Operation.AskedAmiss` — the check asks about the list, and this decides

## Main results

* `Operation.removedAt_eq_ok_iff_names` — the location that a removal deletes
* `Operation.effect_direct` — both removals have the same effect
* `Operation.keyed_removal_agrees_iff` — the headline: when the two agree
-/

namespace PatchScript

variable {s : Store} {o : Operation} {regime : Regime} {p q : Path} {name : ChildName}

/-- The location of the child that a name names in the container at a path. In a mapping the name is
a key; in a list it is an index, or a text, and then the first item equal to it is the child. -/
inductive Names (s : Store) (p : Path) : ChildName → Path → Prop
  | entry {m : Mapping} {name : ChildName} : s.lookup p = some (.mapping m) →
      Names s p name (p ++ [.key name.label])
  | item {items : List Value} {i : Int} : s.lookup p = some (.list items) →
      Names s p (.index i) (p ++ [.index i])
  | equal {items : List Value} {k : String} {j : Nat} (inside : j < items.length) :
      s.lookup p = some (.list items) → items[j] = .text k →
      (∀ j' (before : j' < j), items[j'] ≠ .text k) → Names s p (.key k) (p ++ [.index j])

/-! ### The check of required keys -/

namespace Value

variable {document : Value} {front owner : Path} {key item : Segment} {items : List Value}
  {c : Constraints}

/-- The nearest constraints on the way to a container require the name of a child of it. -/
def RequiresChild (document : Value) (container : Path) (child : Segment) : Prop :=
  ∃ owner c, document.IsNearest container owner c ∧ child.label ∈ c.required

theorem isSome_requiredAt?_concat (document : Value) (front : Path) (key : Segment) :
    (document.requiredAt? (front ++ [key])).isSome = true ↔ document.RequiresChild front key := by
  have found : (document.requiredAt? (front ++ [key])).isSome =
      (document.governing? front).any fun g => g.constraints.required.contains key.label := by
    unfold requiredAt?
    simp only [List.getLast?_concat, List.dropLast_concat]
    cases document.governing? front with
    | none => rfl
    | some g =>
      dsimp only [Option.any_some]
      cases g.constraints.required.contains key.label <;> rfl
  rw [found]
  obtain ⟨owner, c, nearest, equal⟩ | ⟨nowhere, equal⟩ := governing?_nearest document front
  · have unique : document.RequiresChild front key ↔ key.label ∈ c.required := by
      refine ⟨?_, fun required => ⟨owner, c, nearest, required⟩⟩
      rintro ⟨owner', c', nearest', required⟩
      rwa [(nearest.unique nearest').2]
    rw [equal, unique, Option.any_some, List.contains_iff_mem]
  · have free : ¬ document.RequiresChild front key := by
      rintro ⟨owner, c, nearest, -⟩
      have nothing := nowhere owner nearest.onTheWay
      rw [nearest.found] at nothing
      cases nothing
    rw [equal]
    exact iff_of_false nofun free

/-- A list has no constraints of its own, so what is nearest to its container is nearest to it. -/
theorem isNearest_list_iff (h : document.resolve (front ++ [key]) = some (.list items)) :
    document.IsNearest (front ++ [key]) owner c ↔ document.IsNearest front owner c := by
  have bare : document.constraintsAt (front ++ [key]) = none := by
    rw [constraintsAt, h]
    rfl
  constructor
  · rintro ⟨onTheWay, found, last⟩
    obtain rfl | inner := List.prefix_concat_iff.1 onTheWay
    · rw [bare] at found
      cases found
    · exact ⟨inner, found, fun q hq => last q (hq.trans (List.prefix_append ..))⟩
  · rintro ⟨onTheWay, found, last⟩
    refine ⟨onTheWay.trans (List.prefix_append ..), found, fun q hq longer => ?_⟩
    obtain rfl | inner := List.prefix_concat_iff.1 hq
    · exact bare
    · exact last q inner longer

/-- Of a list and an item of it, the nearest constraints require exactly one by its name. -/
def RequiresOneOf (document : Value) (front : Path) (key item : Segment) : Prop :=
  ∃ owner c, document.IsNearest front owner c ∧ ¬ (key.label ∈ c.required ↔ item.label ∈ c.required)

/-- The two paths are answered alike, unless exactly one of them is required. -/
theorem isSome_requiredAt?_item_iff (h : document.resolve (front ++ [key]) = some (.list items)) :
    ((document.requiredAt? (front ++ [key])).isSome =
        (document.requiredAt? (front ++ [key] ++ [item])).isSome) ↔
      ¬ document.RequiresOneOf front key item := by
  rw [Bool.eq_iff_iff, isSome_requiredAt?_concat, isSome_requiredAt?_concat]
  simp only [RequiresChild, RequiresOneOf, isNearest_list_iff h]
  constructor
  · rintro alike ⟨owner, c, nearest, one⟩
    have only (child : Segment) :
        (∃ owner c, document.IsNearest front owner c ∧ child.label ∈ c.required) ↔
          child.label ∈ c.required := by
      refine ⟨?_, fun required => ⟨owner, c, nearest, required⟩⟩
      rintro ⟨owner', c', nearest', required⟩
      rwa [(nearest.unique nearest').2]
    rw [only, only] at alike
    exact one alike
  · intro none_alone
    have both {owner : Path} {c : Constraints} (nearest : document.IsNearest front owner c) :
        key.label ∈ c.required ↔ item.label ∈ c.required :=
      not_not.1 fun one => none_alone ⟨owner, c, nearest, one⟩
    constructor
    · rintro ⟨owner, c, nearest, required⟩
      exact ⟨owner, c, nearest, (both nearest).1 required⟩
    · rintro ⟨owner, c, nearest, required⟩
      exact ⟨owner, c, nearest, (both nearest).2 required⟩

end Value

/-- Only a text is the same as a text. -/
theorem Value.same_text_iff (v : Value) (k : String) : v.same (.text k) = true ↔ v = .text k := by
  cases v with
  | text s => exact beq_iff_eq.trans ⟨congrArg Value.text, Value.text.inj⟩
  | _ => exact iff_of_false nofun nofun

namespace Operation

/-! ### The location -/

/-- What the search for a text among the items of a list finds. -/
theorem positionOf?_text_eq_some_iff {items : List Value} {k : String} {j : Nat} :
    positionOf? items (.text k) = some j ↔
      ∃ inside : j < items.length, items[j] = .text k ∧
        ∀ j' (before : j' < j), items[j'] ≠ .text k := by
  rw [positionOf?, List.findIdx?_eq_some_iff_getElem]
  simp only [Value.same_text_iff, ne_eq]

/-- A removal that names a child deletes the location of that child. -/
theorem removedAt_eq_ok_iff_names :
    o.removedAt s (some name) = .ok q ↔ Names s (Path.parse o.path) name q := by
  constructor
  · intro h
    unfold removedAt at h
    dsimp only at h
    split at h
    · next m hm =>
      cases h
      exact .entry hm
    · next items i hitems =>
      cases h
      exact .item hitems
    · next items k hitems =>
      split at h
      · next j hj =>
        cases h
        obtain ⟨inside, found, first⟩ := positionOf?_text_eq_some_iff.1 hj
        exact .equal inside hitems found first
      · cases h
    · cases h
    · cases h
  · rintro (⟨hm⟩ | ⟨hitems⟩ | ⟨inside, hitems, found, first⟩)
    · unfold removedAt
      simp only [hm]
    · unfold removedAt
      simp only [hitems]
    · have hj := positionOf?_text_eq_some_iff.2 ⟨inside, found, first⟩
      unfold removedAt
      simp only [hitems, hj]

/-! ### The effect -/

/-- The removal of a location by its own path. -/
def direct (o : Operation) (q : Path) : Operation :=
  { o with path := Path.canonical q, body := .remove none }

/-- The location of a child has plain segments where the path and the name are plain. -/
theorem isPlain_of_names (plain : ∀ seg ∈ p, seg.IsPlain)
    (key : ∀ k, name = .key k → Path.PlainKey k.toList) (names : Names s p name q) :
    ∀ seg ∈ q, seg.IsPlain := by
  have last (seg : Segment) (h : seg.IsPlain) : ∀ seg' ∈ p ++ [seg], seg'.IsPlain :=
    List.forall_mem_append.2 ⟨plain, List.forall_mem_singleton.2 h⟩
  cases names with
  | entry hm =>
    refine last _ ?_
    obtain plain | ⟨k, rfl⟩ := plainKey_label name
    · exact plain
    · exact key k rfl
  | item hitems => exact last _ trivial
  | equal inside hitems found first => exact last _ trivial

/-- The removal of a child by its own path has the effect of the one that names it. -/
theorem effect_direct (plain : ∀ seg ∈ q, seg.IsPlain) (hb : o.body = .remove (some (some name)))
    (names : Names s (Path.parse o.path) name q) :
    (o.direct q).effect regime s = o.effect regime s := by
  have named : o.removedAt s (some name) = .ok q := removedAt_eq_ok_iff_names.2 names
  have direct : (o.direct q).removedAt s none = .ok q :=
    congrArg Except.ok (Path.parse_canonical plain)
  have same : (o.direct q).remove s none = o.remove s (some name) := by
    rw [remove, remove, named, direct]
    rfl
  have body : (o.direct q).body = .remove none := rfl
  rw [effect_eq, effect_eq, hb, body]
  exact congrArg Effect.changed same

/-! ### Agreement -/

/-- Two operations agree: both succeed or neither does, and where they succeed they leave the same
live document and record the same path and the same old value. -/
structure AgreesWith (o o' : Operation) (regime : Regime) (s : Store) : Prop where
  success : (o.run regime s).2.isSuccess = (o'.run regime s).2.isSuccess
  stat : (o.run regime s).2.isSuccess = true →
    (o.run regime s).1.stat = (o'.run regime s).1.stat
  change : (o.run regime s).2.isSuccess = true →
    (o.run regime s).2.change?.map (fun c => (c.path, c.old)) =
      (o'.run regime s).2.change?.map (fun c => (c.path, c.old))

/-- An operation is due, and its effect takes place and is recorded unless it is refused. -/
def WouldSucceed (o : Operation) (regime : Regime) (s : Store) : Prop :=
  o.isDue s = .ok true ∧ (recordEffect (o.effect regime s)).2.isSuccess = true

theorem agreesWith_of_run_eq {o' : Operation} (h : o.run regime s = o'.run regime s) :
    o.AgreesWith o' regime s :=
  ⟨by rw [h], fun _ => by rw [h], fun _ => by rw [h]⟩

/-- Where one of two operations fails, they agree exactly if the other fails too. -/
theorem agreesWith_iff_of_failed {o' : Operation} (h : (o'.run regime s).2.isSuccess = false) :
    o.AgreesWith o' regime s ↔ ¬ (o.run regime s).2.isSuccess = true := by
  constructor
  · intro agree success
    rw [agree.success, h] at success
    cases success
  · intro failed
    exact ⟨by rw [h, Bool.eq_false_iff]; exact failed, fun success => absurd success failed,
      fun success => absurd success failed⟩

theorem AgreesWith.symm {o' : Operation} (agree : o.AgreesWith o' regime s) :
    o'.AgreesWith o regime s := by
  refine ⟨agree.success.symm, fun success => ?_, fun success => ?_⟩
  · exact (agree.stat (agree.success ▸ success)).symm
  · exact (agree.change (agree.success ▸ success)).symm

/-- Operations with the same condition and the same effect agree, unless exactly one of them is
refused and the other is carried out. -/
theorem agreesWith_iff_of_effect_eq {o' : Operation} (due : o'.isDue s = o.isDue s)
    (same : o'.effect regime s = o.effect regime s) :
    o.AgreesWith o' regime s ↔
      ¬ (regime.constrained = true ∧ o.WouldSucceed regime s ∧
        (o.refusal? s).isSome ≠ (o'.refusal? s).isSome) := by
  by_cases isDue : o.isDue s = .ok true
  swap
  · refine iff_of_true (agreesWith_of_run_eq ?_) fun h => isDue h.2.1.1
    unfold run
    rw [due]
    split
    · rfl
    · rfl
    · next due' => exact absurd due' isDue
  have isDue' : o'.isDue s = .ok true := due.trans isDue
  by_cases constrained : regime.constrained = true
  swap
  · refine iff_of_true (agreesWith_of_run_eq ?_) fun h => constrained h.1
    rw [run_of_due isDue fun h => absurd h constrained,
      run_of_due isDue' fun h => absurd h constrained, same]
  have would : o.WouldSucceed regime s ↔ (recordEffect (o.effect regime s)).2.isSuccess = true :=
    ⟨fun h => h.2, fun h => ⟨isDue, h⟩⟩
  cases refused : o.refusal? s with
  | none =>
    have ran : o.run regime s = recordEffect (o.effect regime s) := run_of_admitted isDue refused
    cases refused' : o'.refusal? s with
    | none =>
      refine iff_of_true (agreesWith_of_run_eq ?_) fun h => h.2.2 rfl
      rw [ran, run_of_admitted isDue' refused', same]
    | some refusal =>
      have ran' := run_of_refused isDue' constrained refused'
      rw [agreesWith_iff_of_failed (by rw [ran']; rfl), ran, would]
      simp [constrained]
  | some refusal =>
    have ran := run_of_refused isDue constrained refused
    cases refused' : o'.refusal? s with
    | some refusal' =>
      have ran' := run_of_refused isDue' constrained refused'
      refine iff_of_true ?_ fun h => h.2.2 rfl
      rw [agreesWith_iff_of_failed (by rw [ran']; rfl), ran]
      simp [Outcome.isSuccess, Outcome.failure?]
    | none =>
      have ran' : o'.run regime s = recordEffect (o'.effect regime s) :=
        run_of_admitted isDue' refused'
      rw [would, ← same]
      have turned : o.AgreesWith o' regime s ↔ o'.AgreesWith o regime s :=
        ⟨AgreesWith.symm, AgreesWith.symm⟩
      rw [turned, agreesWith_iff_of_failed (by rw [ran]; rfl), ran']
      simp [constrained]

/-! ### The check of required keys -/

/-- Of the list at a path and an item of it, the nearest constraints require exactly one by its
name. -/
def RequiresOneOf (s : Store) (list item : Path) : Prop :=
  ∃ front key seg items, list = front ++ [key] ∧ item = front ++ [key] ++ [seg] ∧
    s.lookup list = some (.list items) ∧ (Value.mapping s.stat).RequiresOneOf front key seg

/-- The check asks about the list instead of the item that a removal names, and this decides. -/
structure AskedAmiss (o : Operation) (regime : Regime) (s : Store) (q : Path) : Prop where
  constrained : regime.constrained = true
  succeeds : o.WouldSucceed regime s
  asked : RequiresOneOf s (Path.parse o.path) q

/-- Whether the removal of a location by its own path is refused. -/
theorem isSome_refusal?_direct (plain : ∀ seg ∈ q, seg.IsPlain) :
    ((o.direct q).refusal? s).isSome = ((Value.mapping s.stat).requiredAt? q).isSome := by
  have asked : (o.direct q).refusal? s = s.required? (Path.canonical q) := rfl
  rw [asked, Store.required?, Path.parse_canonical plain, Option.isSome_map]

/-- The removal of an item is refused for the list that it is in. -/
theorem isSome_refusal?_of_list {items : List Value} (hb : o.body = .remove (some (some name)))
    (hitems : s.lookup (Path.parse o.path) = some (.list items)) :
    (o.refusal? s).isSome = ((Value.mapping s.stat).requiredAt? (Path.parse o.path)).isSome := by
  have asked : o.refusal? s = s.required? o.path := by
    simp only [refusal?, hb, Option.join_some]
    unfold Store.removedPath
    rw [hitems]
  rw [asked, Store.required?, Option.isSome_map]

/-- The check tells an item that is named from its own path exactly where one is required without
the other. -/
theorem refusals_differ_of_list {items : List Value} {seg : Segment}
    (plain : ∀ seg' ∈ Path.parse o.path ++ [seg], seg'.IsPlain)
    (hb : o.body = .remove (some (some name)))
    (hitems : s.lookup (Path.parse o.path) = some (.list items)) :
    (o.refusal? s).isSome ≠ ((o.direct (Path.parse o.path ++ [seg])).refusal? s).isSome ↔
      RequiresOneOf s (Path.parse o.path) (Path.parse o.path ++ [seg]) := by
  rw [isSome_refusal?_direct plain, isSome_refusal?_of_list hb hitems]
  obtain root | ⟨front, key, below⟩ := List.eq_nil_or_concat (Path.parse o.path)
  · -- the root is no list
    rw [root, Store.lookup_eq] at hitems
    cases hitems
  rw [List.concat_eq_append] at below
  rw [below] at hitems ⊢
  rw [Store.lookup_eq] at hitems
  rw [ne_eq, Value.isSome_requiredAt?_item_iff hitems, not_not]
  constructor
  · exact fun one => ⟨front, key, seg, items, rfl, rfl, hitems, one⟩
  · rintro ⟨front', key', seg', items', same, same', -, one⟩
    obtain ⟨rfl, ⟨⟩⟩ := List.append_inj' same rfl
    obtain ⟨-, ⟨⟩⟩ := List.append_inj' same' rfl
    exact one

/-- Exactly one of the two removals is refused where an item of a list is to be removed, and it or
the list is required without the other. -/
theorem refusals_differ_iff (plain : ∀ seg ∈ q, seg.IsPlain)
    (hb : o.body = .remove (some (some name))) (names : Names s (Path.parse o.path) name q) :
    (o.refusal? s).isSome ≠ ((o.direct q).refusal? s).isSome ↔
      RequiresOneOf s (Path.parse o.path) q := by
  cases names with
  | entry hm =>
    -- for an entry the check spells the path of the entry itself
    have asked : o.refusal? s = (o.direct (Path.parse o.path ++ [.key name.label])).refusal? s := by
      simp only [refusal?, hb, Option.join_some, Store.removedPath_of_mapping hm]
      rfl
    rw [asked]
    refine iff_of_false (fun differ => differ rfl) ?_
    rintro ⟨_, _, _, items, -, -, hitems, -⟩
    rw [hm] at hitems
    cases hitems
  | item hitems => exact refusals_differ_of_list plain hb hitems
  | equal inside hitems found first => exact refusals_differ_of_list plain hb hitems

/-- **Removals that name a child** agree with the removals of the child by its own path, unless the
check of required keys asks about the list and this decides. -/
theorem keyed_removal_agrees_iff (plain : ∀ seg ∈ Path.parse o.path, seg.IsPlain)
    (key : ∀ k, name = .key k → Path.PlainKey k.toList)
    (hb : o.body = .remove (some (some name))) (names : Names s (Path.parse o.path) name q) :
    o.AgreesWith (o.direct q) regime s ↔ ¬ o.AskedAmiss regime s q := by
  have plain' := isPlain_of_names plain key names
  have same : (o.direct q).effect regime s = o.effect regime s := effect_direct plain' hb names
  have due : (o.direct q).isDue s = o.isDue s := rfl
  rw [agreesWith_iff_of_effect_eq due same, refusals_differ_iff plain' hb names]
  exact not_congr ⟨fun h => ⟨h.1, h.2.1, h.2.2⟩, fun h => ⟨h.1, h.2, h.3⟩⟩

/-- A mapping with a list that it requires. -/
def keepingList (items : List Value) : Store :=
  .ofData [("a", .mapping
    [(Constraints.reservedKey, .mapping [("required", .list [.text "xs"])]), ("xs", .list items)])]

/-- The second of three texts, the first that is equal to the name, in a list that is not
required. -/
theorem keyed_removal_agrees_text :
    let items : List Value := [.text "u", .text "v", .text "v"]
    let s : Store := .ofData [("a", .mapping
      [(Constraints.reservedKey, .mapping [("required", .list [.text "id"])]),
        ("xs", .list items)])]
    let o : Operation := { path := "/a/xs", body := .remove (some (some (.key "v"))) }
    let q : Path := Path.parse o.path ++ [.index 1]
    (∀ seg ∈ Path.parse o.path, seg.IsPlain) ∧ Path.PlainKey "v".toList ∧
      Names s (Path.parse o.path) (.key "v") q ∧
      (o.run ⟨true, ⟨512, 64⟩⟩ s).2.isSuccess = true ∧
      o.AgreesWith (o.direct q) ⟨true, ⟨512, 64⟩⟩ s := by
  intro items s o q
  have plain : ∀ seg ∈ Path.parse o.path, seg.IsPlain := by decide
  have key : Path.PlainKey "v".toList := by decide
  have found : s.lookup (Path.parse o.path) = some (.list items) := by decide
  have names : Names s (Path.parse o.path) (.key "v") q :=
    .equal (by decide : 1 < items.length) found rfl (by decide)
  have free : (o.refusal? s) = none ∧ (o.direct q).refusal? s = none := by decide
  refine ⟨plain, key, names, by decide, (keyed_removal_agrees_iff plain ?_ rfl names).2 ?_⟩
  · rintro k ⟨⟩
    exact key
  · intro amiss
    have differ := (refusals_differ_iff (isPlain_of_names plain (by simpa using key) names) rfl
      names).2 amiss.asked
    rw [free.1, free.2] at differ
    exact differ rfl

/-- A required list keeps its items from being removed by their names, not by their paths. -/
theorem keyed_removal_disagrees :
    ¬ ∀ (regime : Regime) (s : Store) (o : Operation) (name : ChildName) (q : Path),
      (∀ seg ∈ Path.parse o.path, seg.IsPlain) →
      (∀ k, name = .key k → Path.PlainKey k.toList) → o.body = .remove (some (some name)) →
      Names s (Path.parse o.path) name q → o.AgreesWith (o.direct q) regime s := by
  intro agree
  have found : (keepingList [.int 1, .int 2]).lookup (Path.parse "a.xs") =
      some (.list [.int 1, .int 2]) := by decide
  have success := (agree ⟨true, ⟨512, 64⟩⟩ (keepingList [.int 1, .int 2])
    { path := "a.xs", body := .remove (some (some (.index 0))) } (.index 0)
    (Path.parse "a.xs" ++ [.index 0]) (by decide) (by simp) rfl (.item found)).success
  revert success
  decide

end Operation

end PatchScript
