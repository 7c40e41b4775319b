import PatchScript.Proofs.Operation.Effect

/-!
# Edits of lists

A list is edited in place by a modification at its path, or by an addition at the path of an item or
of the append marker. Either way the items that were there stay in their order, and nothing else
changes in the document.

The two ways differ in the indices that they take for a new item. An addition takes those that have
a place in the list, the one behind the last item included. An insertion takes every index: a
negative one is counted from the end, and one beyond an end stands for that end. So an insertion can
put its value elsewhere than where it says, where the addition fails.

## Main definitions

* `Operation.AppendsOrJoins` — the edits that name no index, and the items that they leave
* `Operation.InsertsAt`, `Operation.AddsAt` — the edits that put a value at an index
* `Operation.PlacesAlike` — both put the value at the index, and both succeed or neither does
* `Operation.IndexStrays` — where they do not

## Main results

* `Operation.run_of_appendsOrJoins` — what the edits without an index leave
* `Operation.run_of_insertsAt`, `Operation.run_of_addsAt` — when the others succeed, and what they
  leave
* `Operation.list_edits_as_said` — the headline: what all of them leave
-/

namespace PatchScript

/-- Inserting at an index within a list, or behind it, parts the list there. -/
theorem insertIdx_eq_take_append_drop {α : Type} {xs : List α} {i : Nat} (h : i ≤ xs.length)
    (v : α) : xs.insertIdx i v = xs.take i ++ v :: xs.drop i := by
  induction xs generalizing i with
  | nil =>
    obtain rfl : i = 0 := Nat.le_zero.1 h
    rfl
  | cons x xs ih =>
    cases i with
    | zero => rfl
    | succ i =>
      rw [List.insertIdx_succ_cons, ih (Nat.le_of_succ_le_succ h)]
      rfl

variable {s : Store} {o inserting adding : Operation} {regime : Regime} {p : Path}
  {xs items : List Value} {v : Value} {i : Int}

namespace Store

/-- The list at a path is replaced by another one, and nothing else changes. -/
structure ListBecomes (s : Store) (p : Path) (items : List Value) (s' : Store) : Prop where
  stat : s'.stat = (s.update p fun _ => .list items).stat
  lookup : s'.lookup p = some (.list items)

/-- The root is no list. -/
theorem ne_nil_of_list (found : s.lookup p = some (.list xs)) : p ≠ [] := by
  rintro rfl
  cases found

theorem listBecomes_of_stat {s' : Store} (found : s.lookup p = some (.list xs))
    (stat : s'.stat = (s.update p fun _ => .list items).stat) : s.ListBecomes p items s' := by
  have updated := mapping_stat_update s (fun _ => .list items) p
    fun root => absurd root (ne_nil_of_list found)
  refine ⟨stat, ?_⟩
  rw [lookup_eq, stat, updated]
  exact Value.resolve_update found _

/-- The item at an index of the list. -/
theorem ListBecomes.lookup_item {s' : Store} (h : s.ListBecomes p items s') (i : Int) :
    s'.lookup (p ++ [.index i]) = if 0 ≤ i then items[i.toNat]? else none := by
  have found := h.lookup
  rw [lookup_eq] at found ⊢
  rw [Value.resolve_append, found, Option.bind_some, Value.resolve]
  have step : (Value.list items).child? (.index i) = if 0 ≤ i then items[i.toNat]? else none := rfl
  rw [step]
  split_ifs
  · cases items[i.toNat]? <;> rfl
  · rfl

/-- A new item at an index has that index. -/
theorem ListBecomes.lookup_placed {s' : Store} (inside : 0 ≤ i ∧ i ≤ xs.length)
    (h : s.ListBecomes p (xs.take i.toNat ++ v :: xs.drop i.toNat) s') :
    s'.lookup (p ++ [.index i]) = some v := by
  have front : (xs.take i.toNat).length = i.toNat := by
    rw [List.length_take]
    omega
  rw [h.lookup_item, if_pos inside.1, List.getElem?_append_right (by omega), front, Nat.sub_self]
  rfl

end Store

namespace Operation

/-! ### The operations -/

/-- An edit of the list `xs` at a path that names no index, and the items that it leaves. -/
inductive AppendsOrJoins (o : Operation) (p : Path) (xs : List Value) : List Value → Prop
  | append {v : Value} {index : Option (Option Int)} (path : Path.parse o.path = p)
      (body : o.body = .modify .append (some v) index) : AppendsOrJoins o p xs (xs ++ [v])
  | prepend {v : Value} {index : Option (Option Int)} (path : Path.parse o.path = p)
      (body : o.body = .modify .prepend (some v) index) : AppendsOrJoins o p xs (v :: xs)
  | merge {ys : List Value} {index : Option (Option Int)} (path : Path.parse o.path = p)
      (body : o.body = .modify .merge (some (.list ys)) index) : AppendsOrJoins o p xs (xs ++ ys)
  | addLast {v : Value} (path : Path.parse o.path = p ++ [.append])
      (body : o.body = .add (some v)) : AppendsOrJoins o p xs (xs ++ [v])

/-- The operation inserts a value at an index of the list at a path. -/
structure InsertsAt (o : Operation) (p : Path) (i : Int) (v : Value) : Prop where
  path : Path.parse o.path = p
  body : o.body = .modify .insert (some v) (some (some i))

/-- The operation adds a value at the path of an item. -/
structure AddsAt (o : Operation) (p : Path) (i : Int) (v : Value) : Prop where
  path : Path.parse o.path = p ++ [.index i]
  body : o.body = .add (some v)

/-! ### Effects -/

/-- A modification of a list puts the edited list in its place and reports the path of the list. -/
theorem effect_modify {action : EditAction} {index : Option (Option Int)}
    (body : o.body = .modify action (some v) index) (path : Path.parse o.path = p)
    (found : s.lookup p = some (.list xs))
    (edit : o.edited action v index.join (.list xs) = .ok (.list items)) :
    ∃ c : Change, c.path = Path.canonical p ∧
      o.effect regime s = (s.update p fun _ => .list items, .ok (some c)) := by
  refine ⟨o.changeAt ("modify:" ++ action.name) (.list xs) (.list items) (Path.canonical p), rfl,
    ?_⟩
  rw [effect_eq, body]
  simp only [Option.getD_some, modify, path, found, edit]
  rfl

/-- An addition with an index or the append marker makes room for an item, and reports its path. -/
theorem effect_add {seg : Segment} {j : Nat} (unconstrained : regime.constrained = false)
    (body : o.body = .add (some v)) (path : Path.parse o.path = p ++ [seg])
    (indexed : seg.isIndexed = true) (found : s.lookup p = some (.list xs))
    (room : Store.roomIn? xs seg = some j) :
    ∃ c : Change, c.path = Path.canonical (p ++ [.index j]) ∧
      o.effect regime s = (s.update p (Store.withItem j v), .ok (some c)) := by
  refine ⟨o.changeAt "add" (recorded (s.displaced (Path.parse o.path))) v.plain
    (Path.canonical (p ++ [.index j])), rfl, ?_⟩
  have inserted : s.insert o.path (p ++ [seg]) v =
      (s.update p (Store.withItem j v), .ok (Path.canonical (p ++ [.index j]))) := by
    simp only [Store.insert, List.getLast?_concat, List.dropLast_concat, indexed, if_true, found,
      room]
  rw [effect_eq, body]
  simp only [Option.getD_some, add, unconstrained, path, inserted, Bool.false_eq_true, if_false]
  rfl

/-- An operation with the effect of an edit leaves the edited list, and it succeeds exactly if the
change can be recorded. -/
theorem run_of_edit {q : Path} {f : Value → Value} (unconstrained : regime.constrained = false)
    (due : o.isDue s = .ok true) (found : s.lookup p = some (.list xs))
    (effect : ∃ c : Change, c.path = Path.canonical q ∧
      o.effect regime s = (s.update p f, .ok (some c)))
    (becomes : f (.list xs) = .list items) :
    ((o.run regime s).2.isSuccess = true ↔ s.Records q) ∧
      s.ListBecomes p items (o.run regime s).1 := by
  obtain ⟨c, spelled, effect⟩ := effect
  have replaced : s.update p f = s.update p fun _ => .list items := by
    rw [Store.lookup_eq] at found
    have same := Value.update_congr found (g := fun _ => .list items) becomes
    rw [Store.update, Store.update, same]
  rw [run_of_unconstrained unconstrained due, effect]
  constructor
  · rw [isSuccess_recordEffect_iff (.update s p f), spelled]
    rfl
  · exact Store.listBecomes_of_stat found (by rw [stat_recordEffect, replaced])

/-! ### Edits without an index -/

/-- **Appending, prepending and merging** leave the items of the list in their order, with the new
ones behind them or in front. -/
theorem run_of_appendsOrJoins (unconstrained : regime.constrained = false)
    (due : o.isDue s = .ok true) (found : s.lookup p = some (.list xs))
    (edits : o.AppendsOrJoins p xs items) : s.ListBecomes p items (o.run regime s).1 := by
  cases edits with
  | append path body =>
    exact (run_of_edit unconstrained due found (effect_modify body path found rfl) rfl).2
  | prepend path body =>
    exact (run_of_edit unconstrained due found (effect_modify body path found rfl) rfl).2
  | merge path body =>
    exact (run_of_edit unconstrained due found (effect_modify body path found rfl) rfl).2
  | addLast path body =>
    refine (run_of_edit unconstrained due found
      (effect_add unconstrained body path rfl found rfl) ?_).2
    rw [Store.withItem, List.insertIdx_length_self]

/-! ### Edits at an index -/

/-- **An insertion** succeeds at every index that can be counted, if its change can be recorded. -/
theorem run_of_insertsAt (unconstrained : regime.constrained = false)
    (due : o.isDue s = .ok true) (found : s.lookup p = some (.list xs))
    (inserts : o.InsertsAt p i v) :
    ((o.run regime s).2.isSuccess = true ↔ Number.isInt64 i = true ∧ s.Records p) ∧
      ((o.run regime s).2.isSuccess = true →
        s.ListBecomes p (xs.insertIdx (Store.clamped i xs.length) v) (o.run regime s).1) := by
  cases counted : Number.isInt64 i with
  | true =>
    have edit : o.edited .insert v (some i) (.list xs) =
        .ok (.list (xs.insertIdx (Store.clamped i xs.length) v)) := by
      simp only [edited, counted, if_true]
    obtain ⟨success, becomes⟩ := run_of_edit unconstrained due found
      (effect_modify inserts.body inserts.path found edit) rfl
    exact ⟨by rw [success, and_iff_right rfl], fun _ => becomes⟩
  | false =>
    have failed : (o.run regime s).2.isSuccess = false := by
      rw [run_of_unconstrained unconstrained due, effect_eq, inserts.body]
      simp only [Option.getD_some, Option.join_some, modify, inserts.path, found, edited, counted,
        Bool.false_eq_true, if_false]
      rfl
    rw [failed]
    exact ⟨iff_of_false Bool.false_ne_true fun h => Bool.false_ne_true h.1,
      fun success => absurd success Bool.false_ne_true⟩

/-- **An addition** succeeds at the indices that have a place in the list, if its change can be
recorded. -/
theorem run_of_addsAt (unconstrained : regime.constrained = false)
    (due : o.isDue s = .ok true) (found : s.lookup p = some (.list xs))
    (adds : o.AddsAt p i v) :
    ((o.run regime s).2.isSuccess = true ↔
        (0 ≤ i ∧ i ≤ xs.length) ∧ s.Records (p ++ [.index i])) ∧
      ((o.run regime s).2.isSuccess = true →
        s.ListBecomes p (xs.take i.toNat ++ v :: xs.drop i.toNat) (o.run regime s).1) := by
  have room : Store.roomIn? xs (.index i) =
      if 0 ≤ i ∧ i ≤ xs.length then some i.toNat else none := rfl
  by_cases inside : 0 ≤ i ∧ i ≤ xs.length
  · rw [if_pos inside] at room
    have parted : Store.withItem i.toNat v (.list xs) =
        .list (xs.take i.toNat ++ v :: xs.drop i.toNat) :=
      congrArg Value.list (insertIdx_eq_take_append_drop (by omega) v)
    obtain ⟨success, becomes⟩ := run_of_edit unconstrained due found
      (effect_add unconstrained adds.body adds.path rfl found room) parted
    rw [Int.toNat_of_nonneg inside.1] at success
    exact ⟨by rw [success, and_iff_right inside], fun _ => becomes⟩
  · rw [if_neg inside] at room
    have failed : (o.run regime s).2.isSuccess = false := by
      have indexed : (Segment.index i).isIndexed = true := rfl
      rw [run_of_unconstrained unconstrained due, effect_eq, adds.body]
      simp only [Option.getD_some, add, unconstrained, adds.path, Store.insert,
        List.getLast?_concat, List.dropLast_concat, indexed, if_true, found, room,
        Bool.false_eq_true, if_false]
      rfl
    rw [failed]
    exact ⟨iff_of_false Bool.false_ne_true fun h => inside h.1,
      fun success => absurd success Bool.false_ne_true⟩

/-! ### Both ways -/

/-- An insertion at an index and an addition there do alike: where one of them succeeds, the other
does, and the items up to the index, the value and the other items make the list, with the value at
the index. -/
structure PlacesAlike (inserting adding : Operation) (regime : Regime) (s : Store) (p : Path)
    (xs : List Value) (i : Int) (v : Value) : Prop where
  inserted : (inserting.run regime s).2.isSuccess = true →
    s.ListBecomes p (xs.take i.toNat ++ v :: xs.drop i.toNat) (inserting.run regime s).1 ∧
      (inserting.run regime s).1.lookup (p ++ [.index i]) = some v
  added : (adding.run regime s).2.isSuccess = true →
    s.ListBecomes p (xs.take i.toNat ++ v :: xs.drop i.toNat) (adding.run regime s).1 ∧
      (adding.run regime s).1.lookup (p ++ [.index i]) = some v
  alike : (inserting.run regime s).2.isSuccess = true ↔ (adding.run regime s).2.isSuccess = true

/-- An insertion at an index and an addition there part. Either the index has no place in the list,
and the insertion, which takes it for another one, goes through; or it has a place, and exactly one
of the two can be carried out and recorded. -/
inductive IndexStrays (s : Store) (p : Path) (xs : List Value) (i : Int) : Prop
  | outside (out : ¬ (0 ≤ i ∧ i ≤ xs.length)) (counted : Number.isInt64 i = true)
      (recorded : s.Records p)
  | apart (inside : 0 ≤ i ∧ i ≤ xs.length)
      (one : ¬ (Number.isInt64 i = true ∧ s.Records p ↔ s.Records (p ++ [.index i])))

theorem placesAlike_iff (unconstrained : regime.constrained = false)
    (due : inserting.isDue s = .ok true) (due' : adding.isDue s = .ok true)
    (found : s.lookup p = some (.list xs)) (inserts : inserting.InsertsAt p i v)
    (adds : adding.AddsAt p i v) :
    PlacesAlike inserting adding regime s p xs i v ↔ ¬ IndexStrays s p xs i := by
  obtain ⟨inserted, becomes⟩ := run_of_insertsAt unconstrained due found inserts
  obtain ⟨added, becomes'⟩ := run_of_addsAt unconstrained due' found adds
  have placed (success : (adding.run regime s).2.isSuccess = true) :=
    (becomes' success).lookup_placed (added.1 success).1
  constructor
  · rintro ⟨-, -, alike⟩ (⟨out, counted, recorded⟩ | ⟨inside, one⟩)
    · exact out (added.1 (alike.1 (inserted.2 ⟨counted, recorded⟩))).1
    · rw [inserted, added, and_iff_right inside] at alike
      exact one alike
  · intro stays
    by_cases inside : 0 ≤ i ∧ i ≤ xs.length
    · have parted : xs.insertIdx (Store.clamped i xs.length) v =
          xs.take i.toNat ++ v :: xs.drop i.toNat := by
        have clamped : Store.clamped i xs.length = i.toNat := by
          rw [Store.clamped, if_pos inside.1]
          omega
        rw [clamped, insertIdx_eq_take_append_drop (by omega)]
      rw [parted] at becomes
      refine ⟨fun success => ⟨becomes success, (becomes success).lookup_placed inside⟩,
        fun success => ⟨becomes' success, placed success⟩, ?_⟩
      rw [inserted, added, and_iff_right inside]
      exact not_not.1 fun one => stays (.apart inside one)
    · have fails : ¬ (inserting.run regime s).2.isSuccess = true := fun success =>
        stays (.outside inside (inserted.1 success).1 (inserted.1 success).2)
      have fails' : ¬ (adding.run regime s).2.isSuccess = true := fun success =>
        inside (added.1 success).1
      exact ⟨fun success => absurd success fails, fun success => absurd success fails',
        iff_of_false fails fails'⟩

/-- At the path of a list with plain segments, an insertion strays only at an index that has no
place in the list. -/
theorem indexStrays_iff_of_plain (plain : ∀ seg ∈ p, seg.IsPlain)
    (found : s.lookup p = some (.list xs)) (stored : xs.length < Value.unstorableGap) :
    IndexStrays s p xs i ↔
      ¬ (0 ≤ i ∧ i ≤ xs.length) ∧ Number.isInt64 i = true ∧ s.Records p := by
  constructor
  · rintro (⟨out, counted, recorded⟩ | ⟨inside, one⟩)
    · exact ⟨out, counted, recorded⟩
    · have bound : Value.unstorableGap < Number.int64End := by decide
      have counted : Number.isInt64 i = true := by
        have : -Number.int64End ≤ i := by omega
        simp only [Number.isInt64, decide_eq_true_eq]
        omega
      refine absurd ?_ one
      have item : ∀ seg ∈ p ++ [Segment.index i], seg.IsPlain :=
        List.forall_mem_append.2 ⟨plain, List.forall_mem_singleton.2 trivial⟩
      have below := Store.ne_nil_of_list found
      have storable : i < Value.unstorableGap := by omega
      rw [and_iff_right counted, Store.Records, Store.Records, Path.parse_canonical plain,
        Path.parse_canonical item]
      exact ⟨fun h => ⟨(Value.write_forced_item_iff below inside.1 storable ..).2 h.display,
          (Value.write_forced_item_iff below inside.1 storable ..).2 h.delta⟩,
        fun h => ⟨(Value.write_forced_item_iff below inside.1 storable ..).1 h.display,
          (Value.write_forced_item_iff below inside.1 storable ..).1 h.delta⟩⟩
  · rintro ⟨out, counted, recorded⟩
    exact .outside out counted recorded

/-- **Edits of a list** without constraints. Those that name no index leave the items that they say.
An insertion at an index and an addition there do alike and leave the value at the index, unless the
insertion strays. -/
theorem list_edits_as_said (unconstrained : regime.constrained = false)
    (found : s.lookup p = some (.list xs)) :
    (∀ (o : Operation) (items : List Value), o.isDue s = .ok true → o.AppendsOrJoins p xs items →
        s.ListBecomes p items (o.run regime s).1) ∧
      ∀ (inserting adding : Operation) (i : Int) (v : Value), inserting.isDue s = .ok true →
        adding.isDue s = .ok true → inserting.InsertsAt p i v → adding.AddsAt p i v →
        (PlacesAlike inserting adding regime s p xs i v ↔ ¬ IndexStrays s p xs i) :=
  ⟨fun _ _ due edits => run_of_appendsOrJoins unconstrained due found edits,
    fun _ _ _ _ due due' inserts adds =>
      placesAlike_iff unconstrained due due' found inserts adds⟩

/-- A list of two numbers. -/
def pair : Store := .ofData [("a", .list [.int 1, .int 2])]

/-- The insertion of a number at an index of the list. -/
def insertion (i : Int) : Operation :=
  { path := "a", body := .modify .insert (some (.int 9)) (some (some i)) }

/-- Between the two numbers both ways do alike, and a third one can be appended. -/
theorem list_edits_as_said_between :
    let regime : Regime := ⟨false, ⟨512, 64⟩⟩
    let xs : List Value := [.int 1, .int 2]
    let adding : Operation := { path := "a[1]", body := .add (some (.int 9)) }
    let appending : Operation := { path := "a/-", body := .add (some (.int 9)) }
    pair.lookup [.key "a"] = some (.list xs) ∧
      pair.ListBecomes [.key "a"] [.int 1, .int 2, .int 9] (appending.run regime pair).1 ∧
      (adding.run regime pair).2.isSuccess = true ∧
      PlacesAlike (insertion 1) adding regime pair [.key "a"] xs 1 (.int 9) := by
  intro regime xs adding appending
  have found : pair.lookup [.key "a"] = some (.list xs) := by decide
  have stays : ¬ IndexStrays pair [.key "a"] xs 1 := by
    rw [indexStrays_iff_of_plain (by decide) found (by decide)]
    rintro ⟨out, -⟩
    exact out (by decide)
  obtain ⟨edits, places⟩ := list_edits_as_said (rfl : regime.constrained = false) found
  exact ⟨found, edits appending _ rfl (.addLast (by decide) rfl), by decide,
    (places (insertion 1) adding 1 (.int 9) rfl rfl ⟨by decide, rfl⟩ ⟨by decide, rfl⟩).2 stays⟩

/-- An insertion at a negative index goes through and puts the value elsewhere. -/
theorem insertion_strays :
    ¬ ∀ (regime : Regime) (s : Store) (p : Path) (xs : List Value) (inserting adding : Operation)
        (i : Int) (v : Value), regime.constrained = false → s.lookup p = some (.list xs) →
      inserting.isDue s = .ok true → adding.isDue s = .ok true → inserting.InsertsAt p i v →
      adding.AddsAt p i v → PlacesAlike inserting adding regime s p xs i v := by
  intro all
  have alike := (all ⟨false, ⟨512, 64⟩⟩ pair [.key "a"] [.int 1, .int 2] (insertion (-1))
    { path := "a[-1]", body := .add (some (.int 9)) } (-1) (.int 9) rfl (by decide) rfl rfl
    ⟨by decide, rfl⟩ ⟨by decide, rfl⟩).alike
  revert alike
  decide

end Operation

end PatchScript
