import PatchScript.Proofs.Document.Governing
import PatchScript.Proofs.Document.Places
import PatchScript.Proofs.Except
import PatchScript.Proofs.Operation.Effect
import PatchScript.Proofs.Path.Canonical
import PatchScript.Proofs.Store.PutBack

/-!
# Required keys

A mapping may constrain itself to keep some of its keys. An operation that would delete the entry of
such a key should fail and leave the document alone. The check before an operation keeps this up,
but for one way around it: where a removal names a child of a mapping apart from its path, the
check spells the path with the key behind it and reads the spelling again, while the removal itself
never spells anything. A key whose spelling is read as another path is checked at that other path.

## Main definitions

* `Operation.SetsOutToDelete` — an operation that is to delete the entry of a key
* `Operation.Evades` — the way around the check

## Main results

* `Operation.keeps_required_iff` — a required key is kept exactly by the operations that do not take
  it
* `Operation.not_evades_of_plain` — keys without dividing characters leave no such way
-/

namespace PatchScript

namespace Value

variable {document : Value} {m : Mapping} {P path : Path} {places : List Place} {k : String}
  {c : Constraints}

/-- A path to an entry of a mapping ends with a step from that mapping, by the key of the entry. -/
theorem exists_concat_of_places? (hm : document.resolve P = some (.mapping m))
    (hP : document.places? P = some places)
    (hpath : document.places? path = some (places ++ [.entry k])) :
    ∃ front seg, path = front ++ [seg] ∧ document.resolve front = some (.mapping m) ∧
      seg.label = k ∧ ∃ v, (Value.mapping m).child? seg = some v := by
  rcases List.eq_nil_or_concat path with rfl | ⟨front, seg, rfl⟩
  · simp [places?] at hpath
  rw [List.concat_eq_append] at hpath
  obtain ⟨places', x, v, place, hfront, hx, hv, hplace, equal⟩ :=
    places?_concat_eq_some_iff.1 hpath
  obtain ⟨rfl, rfl⟩ : places = places' ∧ Place.entry k = place := by simpa using equal
  obtain rfl : Value.mapping m = x := by
    rw [← resolve_eq_of_places?_eq hP hfront, hm] at hx
    exact Option.some.inj hx
  exact ⟨front, seg, List.concat_eq_append, hx, by simpa [place?] using hplace, v, hv⟩

/-- A required key is in the way of every path to it. -/
theorem requiredAt?_concat {front : Path} {seg : Segment}
    (hfront : document.resolve front = some (.mapping m))
    (hc : Constraints.of? (.mapping m) = some c) (label : seg.label = k)
    (required : k ∈ c.required) : document.requiredAt? (front ++ [seg]) = some (.required k) := by
  simp [requiredAt?, governing?_self hfront hc, label, required]

end Value

/-- What is deleted changes the document. -/
theorem Store.stat_delete_ne {s : Store} {front : Path} {seg : Segment} {container v : Value}
    (hfront : s.lookup front = some container) (hv : container.child? seg = some v) :
    (s.delete (front ++ [seg])).1.stat ≠ s.stat := by
  obtain ⟨rest, hrest, -, other⟩ := Value.removeChild?_of_child? hv
  have left := Store.mapping_stat_delete hfront hrest
  intro same
  have found : ((Value.mapping s.stat).update (fun _ => rest) front).resolve front = some rest :=
    Value.resolve_update hfront _
  rw [← left, same, ← Store.lookup_eq, hfront] at found
  exact other (Option.some.inj found).symm

/-- A removal that names no child takes away what its own path leads to, -/
theorem Store.removedPath_none (s : Store) (path : String) : s.removedPath path none = path := by
  unfold removedPath
  rfl

/-- and one that names an entry of a mapping takes away that entry. -/
theorem Store.removedPath_of_mapping {s : Store} {path : String} {m : Mapping}
    (h : s.lookup (Path.parse path) = some (.mapping m)) (name : ChildName) :
    s.removedPath path (some name) = Path.extend path [.key name.label] := by
  unfold removedPath
  rw [h]

namespace Operation

variable {s : Store} {o : Operation} {regime : Regime} {P path front : Path} {seg : Segment}
  {m : Mapping} {c : Constraints} {k : String} {name : ChildName}

/-- The path of the value that an operation takes away: what a removal deletes, and the source of a
move. -/
def takenPath? (o : Operation) (s : Store) : Option Path :=
  match o.body with
  | .remove child => (o.removedAt s child.join).toOption
  | .move source => some (Path.parse source)
  | _ => none

/-- The operation is to delete the entry of a key of the mapping at a path: it is a removal or a
move whose condition holds, and the value that it takes away stands at that place. -/
structure SetsOutToDelete (o : Operation) (s : Store) (P : Path) (k : String) : Prop where
  /-- The condition of the operation lets it happen. -/
  due : o.isDue s = .ok true
  /-- The place of what is taken away. -/
  place : ∃ path places, o.takenPath? s = some path ∧
    (Value.mapping s.stat).places? P = some places ∧
    (Value.mapping s.stat).places? path = some (places ++ [.entry k])

/-- The way around the check of required keys: a removal names a child apart, and the spelling of
the path with the child behind it, read again, leads to nothing that is required. -/
def Evades (o : Operation) (s : Store) : Prop :=
  ∃ name : ChildName, o.body = .remove (some (some name)) ∧
    (Value.mapping s.stat).requiredAt?
      (Path.parse (Path.extend o.path [.key name.label])) = none

/-- Keys without dividing characters leave no way around the check. -/
theorem not_evades_of_plain (plain : ∀ seg ∈ Path.parse o.path, seg.IsPlain)
    (hb : o.body = .remove (some (some name))) (hk : Path.PlainKey name.label.toList)
    (hm : s.lookup (Path.parse o.path) = some (.mapping m))
    (hc : Constraints.of? (.mapping m) = some c) (required : name.label ∈ c.required) :
    ¬ o.Evades s := by
  rintro ⟨name', hb', unchecked⟩
  obtain rfl : name = name' := by simpa [hb] using hb'
  have read : Path.parse (Path.extend o.path [.key name.label]) =
      Path.parse o.path ++ [.key name.label] :=
    Path.parse_canonical (by simpa [or_imp, forall_and] using ⟨plain, hk⟩)
  have checked : (Value.mapping s.stat).requiredAt?
      (Path.parse o.path ++ [.key name.label]) = some (.required name.label) :=
    Value.requiredAt?_concat hm hc rfl required
  rw [read, checked] at unchecked
  cases unchecked

/-! ### What is asked about -/

/-- The spelling that the check of required keys asks about. -/
def askedPath (o : Operation) (s : Store) : String :=
  match o.body with
  | .remove child => s.removedPath o.path child.join
  | .move source => source
  | _ => o.path

theorem removedAt_of_takenPath? {child : Option (Option ChildName)} (hb : o.body = .remove child)
    (h : o.takenPath? s = some path) : o.removedAt s child.join = .ok path := by
  simp only [takenPath?, hb] at h
  exact toOption_eq_some_iff.1 h

/-- The check asks about the very path that is taken, unless a removal names a child apart. -/
theorem askedPath_cases (taken : o.takenPath? s = some (front ++ [seg]))
    (hfront : s.lookup front = some (.mapping m)) :
    (Path.parse (o.askedPath s) = front ++ [seg] ∧
        ∀ name, o.body ≠ .remove (some (some name))) ∨
      ∃ name : ChildName, o.body = .remove (some (some name)) ∧
        o.askedPath s = Path.extend o.path [.key name.label] := by
  cases hb : o.body with
  | move source =>
    obtain equal : Path.parse source = front ++ [seg] := by simpa [takenPath?, hb] using taken
    exact .inl ⟨by rw [askedPath, hb, equal], by simp⟩
  | remove child =>
    have removed := removedAt_of_takenPath? hb taken
    cases named : child.join with
    | none =>
      have equal : Path.parse o.path = front ++ [seg] := Except.ok.inj (named ▸ removed)
      refine .inl ⟨by simp only [askedPath, hb, named, Store.removedPath_none, equal], ?_⟩
      rintro name ⟨⟩
      cases named
    | some name =>
      obtain rfl : child = some (some name) := by simpa [Option.join_eq_some_iff] using named
      refine .inr ⟨name, rfl, ?_⟩
      rcases removedAt_some_eq_ok removed with ⟨m', hm', -⟩ | ⟨items, i, hitems, equal⟩
      · simp only [askedPath, hb, Option.join_some, Store.removedPath_of_mapping hm']
      · obtain ⟨rfl, -⟩ := List.append_inj' equal rfl
        rw [hfront] at hitems
        cases hitems
  | _ =>
    simp only [takenPath?, hb] at taken
    cases taken

/-! ### Refused and carried out -/

/-- What is required where the check asks is refused. -/
theorem refusal?_of_required {violation : Violation} (taken : o.takenPath? s = some path)
    (required : (Value.mapping s.stat).requiredAt? (Path.parse (o.askedPath s)) =
      some violation) : o.refusal? s = some ⟨o.askedPath s, violation⟩ := by
  cases hb : o.body with
  | remove child | move source =>
    simp only [askedPath, hb] at required
    simp [refusal?, askedPath, hb, Store.required?, required]
  | _ =>
    simp only [takenPath?, hb] at taken
    cases taken

/-- A removal is refused for nothing else. -/
theorem refusal?_of_not_required {child : Option (Option ChildName)}
    (hb : o.body = .remove child)
    (free : (Value.mapping s.stat).requiredAt? (Path.parse (o.askedPath s)) = none) :
    o.refusal? s = none := by
  simp only [askedPath, hb] at free
  simp [refusal?, hb, Store.required?, free]

/-- A removal that finds its value deletes it. -/
theorem stat_effect_of_removedAt {child : Option (Option ChildName)} {v : Value}
    (hb : o.body = .remove child) (removed : o.removedAt s child.join = .ok path)
    (below : path ≠ []) (found : s.lookup path = some v) :
    (o.effect regime s).1.stat = (s.delete path).1.stat := by
  rw [effect_eq]
  simp only [hb, Effect.fst_changed, remove, removed]
  obtain ⟨seg, rest, rfl⟩ := List.exists_cons_of_ne_nil below
  rw [found]

/-- **Required keys are kept** by every removal and every move that does not take the way around the
check: it fails, and the document is what it was. -/
theorem keeps_required_iff (constrained : regime.constrained = true)
    (hm : s.lookup P = some (.mapping m)) (hc : Constraints.of? (.mapping m) = some c)
    (required : k ∈ c.required) (deletes : o.SetsOutToDelete s P k) :
    ((o.run regime s).2.isSuccess = false ∧ (o.run regime s).1.stat = s.stat) ↔ ¬ o.Evades s := by
  obtain ⟨path, places, taken, hP, hpath⟩ := deletes.place
  obtain ⟨front, seg, rfl, hfront, label, v, hv⟩ := Value.exists_concat_of_places? hm hP hpath
  rcases askedPath_cases taken hfront with ⟨asked, unnamed⟩ | ⟨name, hb, asked⟩
  · -- the check asks about the very path, so the operation is refused
    have checked : (Value.mapping s.stat).requiredAt? (front ++ [seg]) = some (.required k) :=
      Value.requiredAt?_concat hfront hc label required
    rw [run_of_refused deletes.due constrained (refusal?_of_required taken (asked ▸ checked))]
    exact ⟨fun _ ⟨name, hb, _⟩ => unnamed name hb, fun _ => ⟨rfl, rfl⟩⟩
  · have evades : o.Evades s ↔
        (Value.mapping s.stat).requiredAt? (Path.parse (o.askedPath s)) = none := by
      rw [asked]
      constructor
      · rintro ⟨name', hb', free⟩
        obtain rfl : name = name' := by simpa [hb] using hb'
        exact free
      · exact fun free => ⟨name, hb, free⟩
    rw [evades]
    cases answer : (Value.mapping s.stat).requiredAt? (Path.parse (o.askedPath s)) with
    | some violation =>
      rw [run_of_refused deletes.due constrained (refusal?_of_required taken answer)]
      exact ⟨fun _ => by simp, fun _ => ⟨rfl, rfl⟩⟩
    | none =>
      -- nothing is refused, and the entry is deleted
      refine iff_of_false ?_ (not_not.2 rfl)
      rintro ⟨-, same⟩
      have found : s.lookup (front ++ [seg]) = some v := by
        rw [Store.lookup, Value.resolve_append, hfront]
        simp [Value.resolve, hv]
      rw [run_of_admitted deletes.due (refusal?_of_not_required hb answer), stat_recordEffect,
        stat_effect_of_removedAt hb (removedAt_of_takenPath? hb taken) (by simp) found] at same
      exact Store.stat_delete_ne hfront hv same

/-- A mapping with one required entry. -/
def keeping (k : String) : Mapping :=
  [(Constraints.reservedKey, .mapping [("required", .list [.text k])]), (k, .bool true)]

/-- The removal of an entry of a mapping, named apart. -/
def entryRemoval (path : String) (name : ChildName) : Operation :=
  { path, body := .remove (some (some name)) }

/-- An entry whose key is a number, in a mapping in a list, named by that number. -/
theorem keeps_required_number :
    let s : Store := .ofData [("a", .list [.mapping (keeping "5")])]
    let o := entryRemoval "/a/0" (.index 5)
    let P : Path := [.key "a", .other (.bool false)]
    s.lookup P = some (.mapping (keeping "5")) ∧
      Constraints.of? (.mapping (keeping "5")) = some ⟨true, ["5"], none, false⟩ ∧
      o.SetsOutToDelete s P "5" ∧ ¬ o.Evades s ∧
      (o.run ⟨true, ⟨512, 64⟩⟩ s).2.isSuccess = false ∧
      (o.run ⟨true, ⟨512, 64⟩⟩ s).1.stat = s.stat := by
  intro s o P
  have hm : s.lookup P = some (.mapping (keeping "5")) := by decide
  have hc : Constraints.of? (.mapping (keeping "5")) = some ⟨true, ["5"], none, false⟩ := by decide
  have deletes : o.SetsOutToDelete s P "5" :=
    ⟨rfl, [.key "a", .index 0, .key "5"], [.entry "a", .item 0], by decide, by decide, by decide⟩
  have direct : ¬ o.Evades s :=
    not_evades_of_plain (by decide) rfl (by decide) (by decide) hc (by decide)
  exact ⟨hm, hc, deletes, direct, (keeps_required_iff rfl hm hc (by decide) deletes).2 direct⟩

/-- A required key with a point in it is deleted. -/
theorem required_key_deleted :
    ¬ ∀ (regime : Regime) (s : Store) (o : Operation) (P : Path) (m : Mapping) (c : Constraints)
        (k : String), regime.constrained = true → s.lookup P = some (.mapping m) →
      Constraints.of? (.mapping m) = some c → k ∈ c.required → o.SetsOutToDelete s P k →
      (o.run regime s).2.isSuccess = false ∧ (o.run regime s).1.stat = s.stat := by
  intro kept
  have fails := (kept ⟨true, ⟨512, 64⟩⟩ (.ofData [("a", .mapping (keeping "x.y"))])
    (entryRemoval "a" (.key "x.y")) [.key "a"] (keeping "x.y") ⟨true, ["x.y"], none, false⟩ "x.y"
    rfl (by decide) (by decide) (by decide)
    ⟨rfl, [.key "a", .key "x.y"], [.entry "a"], by decide, by decide, by decide⟩).1
  revert fails
  decide

end Operation

end PatchScript
