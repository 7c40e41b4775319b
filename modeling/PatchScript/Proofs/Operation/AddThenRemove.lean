import PatchScript.Proofs.Operation.Truth
import PatchScript.Proofs.Operation.TwoSteps
import PatchScript.Proofs.Store.PutBack

/-!
# Removing what was added

An addition reports where its value stands. The removal of what stands there takes the value back,
and the document is what it was before: an item leaves the list with the other items at their
indices, and a new entry leaves the mapping with the others in their order. Two things could come in
between. A value that is added in place of another one takes that one with it, and an addition that
makes containers on its way leaves them behind. So the value goes into a container that is there,
and an entry is a new one.

## Main definitions

* `Store.TakesNew` — a location in a container that is there, with room for a new value

## Main results

* `Store.delete_of_insert` — deleting what was inserted
* `Operation.remove_after_add` — the headline: an addition and the removal at the path it reports
-/

namespace PatchScript

variable {s s' : Store} {Q path : Path} {value : Value} {label spelled : String}

namespace Store

/-- A value that is put at the location is a new one in a container that is there. -/
structure TakesNew (s : Store) (path : Path) : Prop where
  parent : ∃ container, s.lookup path.dropLast = some container ∧ container.isContainer = true
  fresh : ∀ k, path.getLast? = some (.key k) → s.lookup path = none

/-! ### Inserting and deleting -/

/-- What a deletion makes of the live document depends on the live document alone. -/
theorem stat_delete_congr (h : s.stat = s'.stat) (path : Path) :
    (s.delete path).1.stat = (s'.delete path).1.stat := by
  simp only [delete, projection, h]
  split
  · rfl
  · exact h

/-- A new item that is deleted leaves the items as they were. -/
theorem delete_of_update_item {items : List Value} {i : Nat}
    (found : s.lookup Q = some (.list items)) (bound : i ≤ items.length) (value : Value) :
    ((s.update Q (withItem i value)).delete (Q ++ [.index i])).1.stat = s.stat := by
  have below := found
  rw [lookup_eq] at below
  have stat := mapping_stat_update s (withItem i value) Q fun _ => ⟨s.stat, rfl⟩
  have filled : (s.update Q (withItem i value)).lookup Q =
      some (.list (items.insertIdx i value)) := by
    rw [lookup_eq, stat, Value.resolve_update below]
    rfl
  have longer : i < (items.insertIdx i value).length := by
    rw [List.length_insertIdx_of_le_length bound]
    omega
  have deleted := mapping_stat_delete filled (q := .index i) (Value.removeChild?_list rfl longer)
  refine Value.mapping.inj ?_
  rw [deleted, stat, Value.update_update below]
  exact Value.update_eq_self below (congrArg Value.list (List.eraseIdx_insertIdx_self ..))

/-- A new entry that is deleted leaves the entries as they were. -/
theorem delete_of_set_entry {m : Mapping} {k : String} (found : s.lookup Q = some (.mapping m))
    (absent : k ∉ m.keys) (value : Value) :
    ((s.set (Q ++ [.key k]) value).1.delete (Q ++ [.key k])).1.stat = s.stat := by
  have below := found
  rw [lookup_eq] at below
  have stat := mapping_stat_set_entry found k value
  have filled : (s.set (Q ++ [.key k]) value).1.lookup Q = some (.mapping (m.put k value)) := by
    rw [lookup_eq, stat, Value.resolve_update below]
  have here : (m.put k value).get? k = some value := by rw [Mapping.get?_put, if_pos rfl]
  have deleted := mapping_stat_delete filled (q := .key k) (Value.removeChild?_mapping here)
  refine Value.mapping.inj ?_
  rw [deleted, stat, Value.update_update below]
  exact Value.update_eq_self below
    (congrArg Value.mapping (Mapping.erase_put_of_not_mem absent value))

/-- An item that was inserted is deleted at the index that is reported. -/
theorem delete_of_insert_item {last : Segment} (indexed : last.isIndexed = true)
    (inserted : s.insert label (Q ++ [last]) value = (s', .ok spelled)) :
    ∃ i : Nat, spelled = Path.canonical (Q ++ [.index i]) ∧
      s'.lookup (Q ++ [.index i]) = some value ∧
      (s'.delete (Q ++ [.index i])).1.stat = s.stat := by
  simp only [insert, List.getLast?_concat, indexed, if_true, List.dropLast_concat] at inserted
  split at inserted
  · next items found =>
    split at inserted
    · next i room =>
      obtain ⟨rfl, equal⟩ := Prod.mk.inj inserted
      have bound := roomIn?_le room
      exact ⟨i, (Except.ok.inj equal).symm, lookup_of_update_item found bound,
        delete_of_update_item found bound value⟩
    · cases inserted
  · cases inserted

/-- A key is written into a mapping only. -/
theorem container_of_set_key {k : String} {container : Value}
    (found : s.lookup Q = some container) (holds : container.isContainer = true)
    (set : s.set (Q ++ [.key k]) value = (s', none)) : ∃ m : Mapping, container = .mapping m := by
  cases container with
  | mapping m => exact ⟨m, rfl⟩
  | list items =>
    have refused : ((Value.list items).write false [.key k] value).2 ≠ none := nofun
    rw [lookup_eq] at found
    rw [set_eq, Value.write_append found rfl] at set
    exact absurd (congrArg Prod.snd set) refused
  | _ => cases holds

/-- An entry that was inserted under a new key is deleted under that key. -/
theorem delete_of_insert_entry {k : String} (takes : s.TakesNew (Q ++ [.key k]))
    (inserted : s.insert label (Q ++ [.key k]) value = (s', .ok spelled)) :
    spelled = Path.canonical (Q ++ [.key k]) ∧ s'.lookup (Q ++ [.key k]) = some value ∧
      (s'.delete (Q ++ [.key k])).1.stat = s.stat := by
  rw [insert_of_not_isIndexed List.getLast?_concat rfl] at inserted
  split at inserted
  · next written set =>
    obtain ⟨rfl, equal⟩ := Prod.mk.inj inserted
    obtain ⟨container, found, holds⟩ := takes.parent
    rw [List.dropLast_concat] at found
    obtain ⟨m, rfl⟩ := container_of_set_key found holds set
    have concrete : Segment.append ∉ Q ++ [.key k] := by
      simpa using Value.append_notMem_of_resolve found
    have absent : k ∉ m.keys := by
      have fresh := takes.fresh k List.getLast?_concat
      rw [Operation.lookup_concat_key found k] at fresh
      exact Mapping.get?_eq_none_iff.1 fresh
    have deleted := delete_of_set_entry found absent value
    rw [set] at deleted
    exact ⟨(Except.ok.inj equal).symm, lookup_of_set set concrete, deleted⟩
  · cases inserted

/-- **Deleting what was inserted** as a new value leaves the document as it was. -/
theorem delete_of_insert (plain : ∀ seg ∈ path, seg.IsPlain) (takes : s.TakesNew path)
    (inserted : s.insert label path value = (s', .ok spelled)) :
    ∃ concrete, spelled = Path.canonical concrete ∧ (∀ seg ∈ concrete, seg.IsPlain) ∧
      s'.lookup concrete = some value ∧ (s'.delete concrete).1.stat = s.stat := by
  obtain rfl | ⟨Q, last, rfl⟩ := List.eq_nil_or_concat path
  · cases (insert_nil s label value).symm.trans inserted
  rw [List.concat_eq_append] at *
  obtain ⟨above, here⟩ := List.forall_mem_append.1 plain
  cases last with
  | key k =>
    obtain ⟨reported, found, deleted⟩ := delete_of_insert_entry takes inserted
    exact ⟨_, reported, plain, found, deleted⟩
  | index _ | append =>
    obtain ⟨i, reported, found, deleted⟩ := delete_of_insert_item rfl inserted
    have item : (Segment.index i).IsPlain := trivial
    exact ⟨_, reported, List.forall_mem_append.2 ⟨above, List.forall_mem_singleton.2 item⟩, found,
      deleted⟩
  | other v => exact absurd (here _ (List.mem_singleton_self _)) id

/-- A place where a change was recorded takes annotations again, and the live document is as it
was. -/
theorem annotates_of_record {c : Change} (recorded : s.record c = (s', none)) :
    s'.Annotates (Path.parse c.path) ∧ s'.stat = s.stat := by
  rw [record] at recorded
  have left : (s.annotate (Path.parse c.path) c.displayText).1 = s' := by rw [recorded]
  have success : (s.annotate (Path.parse c.path) c.displayText).2 = none := by rw [recorded]
  rw [← left]
  exact ⟨((annotate_fault_iff ..).1 success).again _, s.stat_annotate ..⟩

end Store

namespace Operation

variable {o : Operation} {regime : Regime} {c : Change} {value? : Option Value}

/-- An addition that was carried out inserted its value where its change says, and annotated the
place. -/
theorem inserted_of_add (unconstrained : regime.constrained = false) (body : o.body = .add value?)
    (added : o.run regime s = (s', .done (some c))) :
    ∃ s₁, s.insert o.path (Path.parse o.path) (value?.getD .null) = (s₁, .ok c.path) ∧
      s₁.record c = (s', none) := by
  obtain ⟨s₁, effect, recorded⟩ := effect_of_run_eq_done added
  rw [effect_eq] at effect
  simp only [body] at effect
  obtain ⟨_, effect, ⟨⟩⟩ := Effect.changed_eq_ok_iff.1 effect
  rw [add_eq_report unconstrained] at effect
  obtain ⟨spelled, inserted, rfl⟩ := report_eq_ok_iff.1 effect
  exact ⟨s₁, inserted, recorded _ rfl⟩

/-- What stands at a path is removed, if the removal can be recorded there. -/
theorem run_removing_eq_done (unconstrained : regime.constrained = false) {spelled : String}
    (canonical : Path.canonical (Path.parse spelled) = spelled) (proper : Path.parse spelled ≠ [])
    (found : s.lookup (Path.parse spelled) = some value)
    (annotated : s.Annotates (Path.parse spelled)) :
    ∃ s' c, (removing spelled).run regime s = (s', .done (some c)) ∧
      s'.stat = (s.delete (Path.parse spelled)).1.stat := by
  have removed := remove_removing_eq_ok_iff.2 ⟨proper, value, found, rfl, rfl⟩
  have effect : (removing spelled).effect regime s = _ :=
    (effect_eq ..).trans (Effect.changed_eq_ok_iff.2 ⟨_, removed, rfl⟩)
  have success : (recordEffect ((removing spelled).effect regime s)).2.isSuccess = true := by
    rw [effect, isSuccess_recordEffect_iff (.delete s (Path.parse spelled)), canonical]
    exact annotated
  obtain ⟨change?, reported, done⟩ := recordEffect_of_isSuccess success
  have stat := stat_recordEffect ((removing spelled).effect regime s)
  have due : (removing spelled).isDue s = .ok true := rfl
  rw [← run_of_unconstrained unconstrained due] at done stat
  rw [effect] at reported stat
  obtain rfl := Except.ok.inj reported
  exact ⟨((removing spelled).run regime s).1, _, Prod.ext rfl done, stat⟩

/-- **Removing what was added** where its change says leaves the document as it was before the
addition, when the value is a new one in a container that was there. -/
theorem remove_after_add (unconstrained : regime.constrained = false) (body : o.body = .add value?)
    (plain : ∀ seg ∈ Path.parse o.path, seg.IsPlain) (takes : s.TakesNew (Path.parse o.path))
    (added : o.run regime s = (s', .done (some c))) :
    ∃ s'' c', (removing c.path).run regime s' = (s'', .done (some c')) ∧ s''.stat = s.stat := by
  obtain ⟨s₁, inserted, recorded⟩ := inserted_of_add unconstrained body added
  obtain ⟨concrete, spelled, plain', found, deleted⟩ := Store.delete_of_insert plain takes inserted
  have parsed : Path.parse c.path = concrete := by rw [spelled, Path.parse_canonical plain']
  have canonical : Path.canonical (Path.parse c.path) = c.path := by rw [parsed, spelled]
  obtain ⟨annotated, stat⟩ := Store.annotates_of_record recorded
  have there : s'.lookup (Path.parse c.path) = some (value?.getD .null) := by
    rw [parsed, Store.lookup_eq, stat]
    exact found
  obtain ⟨s'', c', ran, left⟩ := run_removing_eq_done unconstrained canonical
    (parse_ne_nil_of_record recorded) there annotated
  refine ⟨s'', c', ran, left.trans ?_⟩
  rw [parsed, Store.stat_delete_congr stat]
  exact deleted

/-- A list with a mapping, and an entry after it. -/
def satchel : Store :=
  .ofData [("bag", .list [.int 1, .mapping [("hp", .int 5)]]), ("name", .text "Ann")]

/-- A value that is inserted before the last item moves it by one, and a new entry stands after the
others. -/
theorem remove_after_add_satchel :
    let regime : Regime := ⟨false, ⟨512, 64⟩⟩
    let item : Operation := { path := "bag[1]", body := .add (some (.text "rope")) }
    let entry : Operation := { path := "bag[1].mp", body := .add (some (.list [.int 3])) }
    let added : Change := ⟨"bag[1]", .null, .text "rope", "add"⟩
    let entered : Change := ⟨"bag[1].mp", .null, .list [.int 3], "add"⟩
    ((item.run regime satchel).2 = .done (some added) ∧ ∃ s'' c',
        (removing added.path).run regime (item.run regime satchel).1 = (s'', .done (some c')) ∧
        s''.stat = satchel.stat) ∧
      (entry.run regime satchel).2 = .done (some entered) ∧ ∃ s'' c',
        (removing entered.path).run regime (entry.run regime satchel).1 = (s'', .done (some c')) ∧
        s''.stat = satchel.stat := by
  intro regime item entry added entered
  have unconstrained : regime.constrained = false := rfl
  have item_done : (item.run regime satchel).2 = .done (some added) := by decide +kernel
  have entry_done : (entry.run regime satchel).2 = .done (some entered) := by decide +kernel
  have item_ran : item.run regime satchel =
      ((item.run regime satchel).1, .done (some added)) := by rw [← item_done]
  have entry_ran : entry.run regime satchel =
      ((entry.run regime satchel).1, .done (some entered)) := by rw [← entry_done]
  refine ⟨⟨item_done, ?_⟩, entry_done, ?_⟩
  · have parsed : Path.parse item.path = [.key "bag", .index 1] := by decide
    have takes : satchel.TakesNew (Path.parse item.path) := by
      rw [parsed]
      exact ⟨⟨.list [.int 1, .mapping [("hp", .int 5)]], rfl, rfl⟩, nofun⟩
    have plain : ∀ seg ∈ Path.parse item.path, seg.IsPlain := by decide
    have body : item.body = .add (some (.text "rope")) := rfl
    exact remove_after_add unconstrained body plain takes item_ran
  · have parsed : Path.parse entry.path = [.key "bag", .index 1, .key "mp"] := by decide
    have takes : satchel.TakesNew (Path.parse entry.path) := by
      rw [parsed]
      refine ⟨⟨.mapping [("hp", .int 5)], rfl, rfl⟩, ?_⟩
      rintro k ⟨⟩
      rfl
    have plain : ∀ seg ∈ Path.parse entry.path, seg.IsPlain := by decide
    have body : entry.body = .add (some (.list [.int 3])) := rfl
    exact remove_after_add unconstrained body plain takes entry_ran

end Operation

end PatchScript
