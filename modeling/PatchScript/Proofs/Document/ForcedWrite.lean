import PatchScript.Proofs.Document.Frame
import PatchScript.Proofs.Document.Removal
import PatchScript.Proofs.Document.Rewriting
import PatchScript.Proofs.Document.Standing

/-!
# What a forced write reaches, and what it replaces

Nothing stands in the way of a forced write: a scalar, a null or a container into which the next
step cannot lead gives way to a new container. So it fails at one thing only, a list that would have
to be filled up to an index which is too far behind its items. Where there is a mapping, an index is
a key and reaches any distance; where there is neither a mapping nor a list, a new list is made, and
the whole index counts.

What is read apart from the path is kept, whether the write goes through or fails, as long as it was
not in a container that gave way. What was in there is lost.

## Main definitions

* `Segment.IsDefinite` — keys, and indices that are not negative
* `Value.Overreaches` — an index on the path is too far behind the items of its list
* `Value.GivesWay` — a container on the path that is replaced

## Main results

* `Value.write_forced_eq_none_iff` — when a forced write goes through
* `Value.kept_write_forced` — what a forced write keeps
* `Value.lost_write_forced` — what stood in a container that gave way
* `Value.forced_write_lands_iff` — a text is written and read back, and what other texts become
-/

namespace PatchScript

/-- Whether a segment is a key, or an index that is not negative. -/
def Segment.IsDefinite : Segment → Prop
  | .key _ => True
  | .index i => 0 ≤ i
  | .append | .other _ => False

theorem Segment.IsDefinite.isConcrete {s : Segment} (h : s.IsDefinite) : s.IsConcrete := by
  cases s with
  | key _ | index _ => trivial
  | append | other _ => exact h

namespace Value

variable {v x : Value} {s t u : Segment} {path rest Q q : Path}

/-- The number of items behind which an index counts, when a write goes on at what stands at a
location: those of a list, and none where a new list is made. In a mapping an index is a key. -/
def itemsAhead? : Option Value → Option Nat
  | some (.mapping _) => none
  | some (.list items) => some items.length
  | _ => some 0

/-- An index on the path is further behind the items of its list than a list can be filled up. -/
def Overreaches (v : Value) (path : Path) : Prop :=
  ∃ (Q rest : Path) (i : Int) (ahead : Nat), path = Q ++ .index i :: rest ∧
    itemsAhead? (v.resolve Q) = some ahead ∧ unstorableGap ≤ i - ahead

/-- The container at `Q` gives way to a new one: the path goes on from it with a step that cannot
lead into it. -/
def GivesWay (v : Value) (path Q : Path) : Prop :=
  ∃ t rest container, path = Q ++ t :: rest ∧ v.resolve Q = some container ∧
    container.isContainer = true ∧ isWrongKind t container = true

/-! ### Going through -/

/-- A list takes an item at an index that is not too far behind its items. -/
theorem putItem_index_iff {items : List Value} {i : Int} (counted : 0 ≤ i) (x : Value) :
    (∃ items', putItem items (.index i) x = .ok items') ↔ i - items.length < unstorableGap := by
  have storable : 0 < unstorableGap := by decide
  have countable : unstorableGap < uncountableGap := by decide
  simp only [putItem, Segment.position?, if_neg (Int.not_lt.2 counted)]
  split_ifs with inside uncountable unstorable
  · exact iff_of_true ⟨_, rfl⟩ (by omega)
  · exact iff_of_false (by rintro ⟨_, ⟨⟩⟩) (by omega)
  · exact iff_of_false (by rintro ⟨_, ⟨⟩⟩) (by omega)
  · exact iff_of_true ⟨_, rfl⟩ (by omega)

/-- A definite step can be taken in a container of the right kind, unless it is too far. -/
theorem put_isDefinite_iff (hs : s.IsDefinite) (kind : isWrongKind s v = false) (x : Value) :
    (∃ written, v.put s x = .ok written) ↔
      ∀ (i : Int) (ahead : Nat), s = .index i → itemsAhead? (some v) = some ahead →
        i - ahead < unstorableGap := by
  have marker := ne_append_of_isConcrete hs.isConcrete
  cases v with
  | mapping m => exact iff_of_true ⟨_, if_neg marker⟩ nofun
  | list items =>
    cases s with
    | index i =>
      have taken : (∃ written, (Value.list items).put (.index i) x = .ok written) ↔
          ∃ items', putItem items (.index i) x = .ok items' := by
        constructor
        · rintro ⟨_, hput⟩
          obtain ⟨items', equal, -⟩ := put_list_eq_ok hput
          exact ⟨items', equal⟩
        · rintro ⟨items', equal⟩
          exact ⟨.list items', by rw [put, equal]; rfl⟩
      rw [taken, putItem_index_iff hs]
      simp [itemsAhead?]
    | key k => cases kind
    | append | other _ => exact hs.elim
  | _ => cases kind

/-- What stands on the path in the container in which a write goes on counts as it does in the
document: where a container is new there, nothing could be counted before. -/
theorem itemsAhead?_inner {i : Int} {more : Path} (step : t :: rest = Q ++ .index i :: more) :
    itemsAhead? ((v.inner s t).resolve Q) = itemsAhead? (v.resolve (s :: Q)) := by
  obtain ⟨hs, -⟩ | ⟨wrong, fresh⟩ := inner_cases v s t
  · simp only [resolve, hs]
  · rw [fresh]
    cases hs : v.child? s with
    | none =>
      simp only [resolve, hs]
      cases Q with
      | nil =>
        obtain rfl := (List.cons.inj step).1
        rfl
      | cons w Q => rw [resolve_emptyFor_cons]
    | some child =>
      have kind := wrong child hs
      simp only [resolve, hs]
      cases Q with
      | nil =>
        obtain rfl := (List.cons.inj step).1
        cases child with
        | list _ | mapping _ => cases kind
        | _ => rfl
      | cons w Q =>
        obtain rfl := (List.cons.inj step).1
        have nothing : child.child? t = none := by
          by_contra found
          obtain ⟨_, found⟩ := Option.ne_none_iff_exists'.1 found
          rw [isWrongKind_of_child? found] at kind
          cases kind
        rw [resolve_emptyFor_cons]
        simp only [resolve, nothing]

theorem overreaches_singleton_iff :
    v.Overreaches [s] ↔ ∃ (i : Int) (ahead : Nat), s = .index i ∧
      itemsAhead? (some v) = some ahead ∧ unstorableGap ≤ i - ahead := by
  constructor
  · rintro ⟨Q, rest, i, ahead, whole, count, far⟩
    obtain ⟨rfl, rfl, rfl⟩ : Q = [] ∧ s = .index i ∧ rest = [] := by
      cases Q <;> simp_all
    exact ⟨i, ahead, rfl, count, far⟩
  · rintro ⟨i, ahead, rfl, count, far⟩
    exact ⟨[], [], i, ahead, rfl, count, far⟩

/-- Where a path reaches too far, its first step does, or the others do in the container in which
the write goes on. -/
theorem overreaches_cons_iff :
    v.Overreaches (s :: t :: rest) ↔
      v.Overreaches [s] ∨ (v.inner s t).Overreaches (t :: rest) := by
  rw [overreaches_singleton_iff]
  constructor
  · rintro ⟨Q, more, i, ahead, whole, count, far⟩
    cases Q with
    | nil =>
      obtain rfl := (List.cons.inj whole).1
      exact .inl ⟨i, ahead, rfl, count, far⟩
    | cons w Q =>
      obtain ⟨rfl, step⟩ := List.cons.inj whole
      exact .inr ⟨Q, more, i, ahead, step, (itemsAhead?_inner step).trans count, far⟩
  · rintro (⟨i, ahead, rfl, count, far⟩ | ⟨Q, more, i, ahead, step, count, far⟩)
    · exact ⟨[], t :: rest, i, ahead, rfl, count, far⟩
    · exact ⟨s :: Q, more, i, ahead, congrArg (s :: ·) step,
        (itemsAhead?_inner step).symm.trans count, far⟩

/-- **A forced write goes through** exactly if no index on its path is too far behind the items of
its list. -/
theorem write_forced_eq_none_iff (definite : ∀ s ∈ path, s.IsDefinite) (proper : path ≠ [])
    (kind : ∀ s, path.head? = some s → isWrongKind s v = false) (x : Value) :
    (v.write true path x).2 = none ↔ ¬ v.Overreaches path := by
  induction path generalizing v with
  | nil => exact absurd rfl proper
  | cons s path ih =>
    have first : (∃ written, v.put s x = .ok written) ↔ ¬ v.Overreaches [s] := by
      rw [put_isDefinite_iff (definite s (by simp)) (kind s rfl), overreaches_singleton_iff]
      simp only [not_exists, not_and, Int.not_le]
    cases path with
    | nil => rw [write_last_fault_iff, first]
    | cons t rest =>
      have below := ih (v := v.inner s t) (fun w hw => definite w (by simp [hw])) (by simp)
        (by rintro _ ⟨⟩; exact isWrongKind_inner v s t)
      rw [write_forced_fault_iff, first, below, overreaches_cons_iff, not_or]

/-! ### Giving way -/

theorem GivesWay.cons (hs : v.child? s = some x) (h : x.GivesWay path Q) :
    v.GivesWay (s :: path) (s :: Q) := by
  obtain ⟨t, rest, container, rfl, found, isContainer, wrong⟩ := h
  exact ⟨t, rest, container, rfl, resolve_cons_eq_some_iff.2 ⟨x, hs, found⟩, isContainer, wrong⟩

/-- A new container does not give way, and there is nothing in it. -/
theorem not_givesWay_emptyFor (t : Segment) (rest Q : Path) :
    ¬ (emptyFor t).GivesWay (t :: rest) Q := by
  rintro ⟨w, more, container, step, found, -, wrong⟩
  cases Q with
  | nil =>
    obtain rfl := (List.cons.inj step).1
    obtain rfl : emptyFor t = container := by simpa [resolve] using found
    rw [isWrongKind_emptyFor] at wrong
    cases wrong
  | cons w' Q =>
    rw [resolve_emptyFor_cons] at found
    cases found

/-- Steps that find something find it at one place exactly if they have one text. -/
theorem place?_eq_iff {y : Value} (hu : u.IsConcrete) (hs : s.IsConcrete)
    (foundu : v.child? u = some x) (founds : v.child? s = some y) :
    v.place? u = v.place? s ↔ u.label = s.label := by
  cases v with
  | mapping m => simp [place?]
  | list items =>
    obtain ⟨i, rfl, -⟩ := eq_index_of_child?_list hu foundu
    obtain ⟨j, rfl, -⟩ := eq_index_of_child?_list hs founds
    have same : Segment.label (.index (i : Int)) = Segment.label (.index (j : Int)) ↔ i = j :=
      ⟨fun h => by exact_mod_cast indexText_injective h, fun h => by rw [h]⟩
    rw [same]
    simp [place?, Segment.position?]
  | _ => cases isContainer_of_child? foundu

/-! ### What is kept -/

theorem Kept.refl (before : Option Value) : Kept before before := ⟨fun _ h => h, .inl⟩

/-- Behind a step after which a new container is made nothing was read, except in what gave way. -/
theorem resolve_eq_none_of_wrong (hu : u.IsConcrete) (hs : s.IsConcrete) (same : u.label = s.label)
    (there : v.child? u = v.child? s)
    (wrong : ∀ child, v.child? s = some child → isWrongKind t child = true)
    (outside : ∀ Q, v.GivesWay (s :: t :: rest) Q → ¬ v.GoesThrough (u :: q) Q)
    (further : q ≠ []) : v.resolve (u :: q) = none := by
  by_contra found
  obtain ⟨y, found⟩ := Option.ne_none_iff_exists'.1 found
  obtain ⟨child, hc, below⟩ := resolve_cons_eq_some_iff.1 found
  have hc' := there.symm.trans hc
  have stood : v.resolve [s] = some child := by simp only [resolve, hc']
  have isContainer := isContainer_of_resolve_ne_nil below further
  refine outside [s] ⟨t, rest, child, rfl, stood, isContainer, wrong child hc'⟩ ⟨[u], q, rfl, ?_⟩
  exact (samePlace_nil child).cons hc hc' ((place?_eq_iff hu hs hc hc').2 same)

/-- **A forced write keeps what is apart** from its path and was not in a container that gave way,
whether it goes through or fails. -/
theorem kept_write_forced (hp : ∀ s ∈ path, s.IsConcrete) (hq : ∀ u ∈ q, u.IsConcrete)
    (apart : path.Apart q) (outside : ∀ Q, v.GivesWay path Q → ¬ v.GoesThrough q Q) (x : Value) :
    Kept (v.resolve q) ((v.write true path x).1.resolve q) := by
  induction path generalizing v q with
  | nil => exact absurd rfl apart.left_ne_nil
  | cons s path ih =>
    obtain ⟨u, q, rfl⟩ := List.exists_cons_of_ne_nil apart.right_ne_nil
    have hs := hp s (by simp)
    have hu := hq u (by simp)
    by_cases same : u.label = s.label
    · -- both go on below one child, where what is left of them is apart
      have further := apart.tail same
      obtain ⟨t, rest, rfl⟩ := List.exists_cons_of_ne_nil further.left_ne_nil
      have later : ∀ s ∈ t :: rest, s.IsConcrete := fun w hw => hp w (by simp [hw])
      have later' : ∀ u ∈ q, u.IsConcrete := fun w hw => hq w (by simp [hw])
      rw [write_forced]
      cases hput : v.put s ((v.inner s t).write true (t :: rest) x).1 with
      | error fault => exact .refl _
      | ok written =>
        obtain ⟨before, after⟩ | ⟨before, after⟩ := child?_put_of_label_eq hput hs hu same
        · have stands : written.resolve (u :: q) =
              ((v.inner s t).write true (t :: rest) x).1.resolve q := by
            simp only [resolve, after]
          rw [stands]
          obtain ⟨found, -⟩ | ⟨wrong, fresh⟩ := inner_cases v s t
          · have read : v.resolve (u :: q) = (v.inner s t).resolve q := by
              simp only [resolve, before, found]
            rw [read]
            have found' := before.trans found
            refine ih later later' further fun Q gives through => ?_
            refine outside (s :: Q) (gives.cons found) (through.cons found' found ?_)
            exact (place?_eq_iff hu hs found' found).2 same
          · have nothing := resolve_eq_none_of_wrong hu hs same before wrong outside
              further.right_ne_nil
            have kept := ih (v := emptyFor t) later later' further fun Q gives =>
              (not_givesWay_emptyFor t rest Q gives).elim
            obtain ⟨w, q, rfl⟩ := List.exists_cons_of_ne_nil further.right_ne_nil
            rw [resolve_emptyFor_cons] at kept
            rwa [nothing, fresh]
        · have nothing : v.resolve (u :: q) = none ∧ written.resolve (u :: q) = none := by
            simp only [resolve, before, after, and_self]
          rw [nothing.1, nothing.2]
          exact .refl _
    · obtain unchanged | ⟨y, hput⟩ := write_cons_cases v s path x
      · rw [unchanged]
        exact .refl _
      · exact (kept_child?_of_put hput hs hu same).resolve_cons q

/-! ### What is lost -/

/-- A path through a place below a first step begins with a step to the same child. -/
theorem GoesThrough.exists_step (h : v.GoesThrough q (s :: Q)) :
    ∃ u q' child, q = u :: q' ∧ v.child? u = some child ∧ v.child? s = some child ∧
      v.place? u = v.place? s ∧ child.GoesThrough q' Q := by
  obtain ⟨front, behind, rfl, l, hfront, hQ⟩ := h
  obtain ⟨child, place, below, hs, hplace, hbelow, rfl⟩ := places?_cons_eq_some_iff.1 hQ
  obtain - | ⟨u, front⟩ := front
  · cases hfront
  obtain ⟨child', place', below', hu, hplace', hbelow', equal⟩ :=
    places?_cons_eq_some_iff.1 hfront
  obtain ⟨rfl, rfl⟩ := List.cons.inj equal
  have same := hplace'.trans hplace.symm
  obtain rfl := child?_eq_of_place?_eq hs hu same.symm
  exact ⟨u, front ++ behind, child, rfl, hu, hs, same, front, behind, rfl, below, hbelow', hbelow⟩

/-- **What stood in a container that gave way** is not there any more: there is nothing, or a null
that fills the new list. -/
theorem lost_write_forced (hp : ∀ s ∈ path, s.IsConcrete) (hq : ∀ u ∈ q, u.IsConcrete)
    (apart : path.Apart q) (gives : v.GivesWay path Q) (proper : Q ≠ [])
    (through : v.GoesThrough q Q) (x : Value) :
    (v.write true path x).1.resolve q = none ∨
      (v.write true path x).1.resolve q = some .null := by
  induction Q generalizing v path q with
  | nil => exact absurd rfl proper
  | cons s Q ih =>
    obtain ⟨t, rest, container, rfl, found, isContainer, wrong⟩ := gives
    obtain ⟨u, q, child, rfl, hu, hs, same, below⟩ := through.exists_step
    obtain ⟨child', hs', found⟩ := resolve_cons_eq_some_iff.1 found
    obtain rfl := Option.some.inj (hs.symm.trans hs')
    have concrete := hp s (by simp)
    have concrete' := hq u (by simp)
    have labels := (place?_eq_iff concrete' concrete hu hs).1 same
    obtain ⟨w, more, step⟩ := List.exists_cons_of_ne_nil (show Q ++ t :: rest ≠ [] by simp)
    rw [List.cons_append, step] at hp apart ⊢
    -- the step can be taken, so what is made of the child is put back
    have hput := put_of_child? hs ((v.inner s w).write true (w :: more) x).1
    obtain ⟨-, after⟩ | ⟨nothing, -⟩ := child?_put_of_label_eq hput concrete concrete' labels
    swap
    · rw [hu] at nothing
      cases nothing
    have stands : (v.write true (s :: w :: more) x).1.resolve (u :: q) =
        ((v.inner s w).write true (w :: more) x).1.resolve q := by
      simp only [write_forced, hput, resolve, after]
    rw [stands]
    have further := apart.tail labels
    have later : ∀ s ∈ w :: more, s.IsConcrete := fun y hy => hp y (by simp [hy])
    have later' : ∀ u ∈ q, u.IsConcrete := fun y hy => hq y (by simp [hy])
    obtain ⟨there, right⟩ | ⟨-, fresh⟩ := inner_cases v s w
    · obtain rfl := Option.some.inj (hs.symm.trans there)
      have deeper : Q ≠ [] := by
        rintro rfl
        obtain rfl : v.inner s w = container := by simpa [resolve] using found
        obtain rfl : t = w := (List.cons.inj step).1
        rw [wrong] at right
        cases right
      exact ih later later' further ⟨t, rest, container, step.symm, found, isContainer, wrong⟩
        deeper below
    · obtain ⟨y, q, rfl⟩ := List.exists_cons_of_ne_nil further.right_ne_nil
      rw [fresh]
      exact (kept_write_forced later later' further
        (fun Q gives => (not_givesWay_emptyFor w more Q gives).elim) x).padded
        (resolve_emptyFor_cons w y q)

/-! ### A forced write in a mapping -/

theorem append_notMem_of_isDefinite (definite : ∀ s ∈ path, s.IsDefinite) :
    Segment.append ∉ path :=
  fun marker => definite _ marker

/-- A definite step leads into a mapping, whatever its kind. -/
theorem isWrongKind_mapping (hs : s.IsDefinite) (m : Mapping) :
    isWrongKind s (.mapping m) = false := by
  simp [isWrongKind, ne_append_of_isConcrete hs.isConcrete]

/-- **Writing a text with force** into a mapping, at a location without append markers and negative
indices. The write goes through, and the text is read back, unless an index is too far behind the
items of its list. In either case the texts at the locations apart from it are kept, except those
that stood in a container that gave way. -/
theorem forced_write_lands_iff (m : Mapping) (definite : ∀ s ∈ path, s.IsDefinite)
    (proper : path ≠ []) (text : String) :
    let document := Value.mapping m
    let written := document.write true path (.text text)
    (written.2 = none ∧ written.1.resolve path = some (.text text) ↔
        ¬ document.Overreaches path) ∧
      ∀ (other : Path) (kept : String), (∀ u ∈ other, u.IsConcrete) → path.Apart other →
        document.resolve other = some (.text kept) →
        (written.1.resolve other = some (.text kept) ↔
          ∀ Q, document.GivesWay path Q → ¬ document.GoesThrough other Q) := by
  intro document written
  have concrete : ∀ s ∈ path, s.IsConcrete := fun s hs => (definite s hs).isConcrete
  have start : ∀ s, path.head? = some s → isWrongKind s document = false := fun s hs =>
    isWrongKind_mapping (definite s (List.mem_of_head? hs)) m
  have goes := write_forced_eq_none_iff definite proper start (.text text)
  refine ⟨?_, fun other kept hother apart before => ⟨?_, ?_⟩⟩
  · rw [← goes, and_iff_left_iff_imp]
    exact fun success => resolve_write success (append_notMem_of_isDefinite definite)
  · -- a text that is there is not lost, and the root does not give way
    intro after Q gives through
    have below : Q ≠ [] := by
      rintro rfl
      obtain ⟨t, rest, container, rfl, found, -, wrong⟩ := gives
      obtain rfl : document = container := by simpa [resolve] using found
      rw [start t rfl] at wrong
      cases wrong
    have lost := lost_write_forced concrete hother apart gives below through (.text text)
    rw [after] at lost
    simp at lost
  · intro outside
    exact (kept_write_forced concrete hother apart outside (.text text)).same _ before

/-- An annotation of an entry in place of which a list of annotations stood: the list gives way,
and the annotation of another entry is kept. -/
theorem forced_write_lands_in_place_of_list :
    let m : Mapping := [("a", .list [.text "0 → 1 (replace)"]), ("b", .text "1 → 2 (replace)")]
    let document := Value.mapping m
    let path : Path := [.key "a", .key "x"]
    let written := document.write true path (.text "null → 3 (add)")
    (∀ s ∈ path, s.IsDefinite) ∧ path ≠ [] ∧ written.2 = none ∧
      written.1.resolve path = some (.text "null → 3 (add)") ∧
      document.GivesWay path [.key "a"] ∧
      written.1.resolve [.key "b"] = some (.text "1 → 2 (replace)") := by
  intro m document path written
  have definite : ∀ s ∈ path, s.IsDefinite := by simp [path, Segment.IsDefinite]
  have proper : path ≠ [] := by simp [path]
  obtain ⟨lands, frames⟩ := forced_write_lands_iff m definite proper "null → 3 (add)"
  have near : ¬ document.Overreaches path := by
    rintro ⟨Q, rest, i, ahead, whole, -⟩
    have onPath : Segment.index i ∈ path := by simp [whole]
    simp [path] at onPath
  have outside : ∀ Q, document.GivesWay path Q → ¬ document.GoesThrough [.key "b"] Q := by
    rintro Q ⟨t, rest, container, whole, found, -, wrong⟩ through
    cases Q with
    | nil =>
      obtain rfl := (List.cons.inj whole).1
      obtain rfl : document = container := by simpa [resolve] using found
      cases wrong
    | cons s Q =>
      obtain rfl := (List.cons.inj whole).1
      obtain ⟨u, q, child, equal, -, -, same, -⟩ := through.exists_step
      obtain rfl := (List.cons.inj equal).1
      exact absurd same (by decide)
  obtain ⟨success, reads⟩ := lands.2 near
  refine ⟨definite, proper, success, reads, ⟨.key "x", [], _, rfl, rfl, rfl, rfl⟩, ?_⟩
  exact (frames [.key "b"] _ (by simp [Segment.IsConcrete]) (by decide) rfl).2 outside

/-- An annotation at an index that cannot be counted does not go through. -/
theorem annotation_overreaches :
    let path : Path := [.key "a", .index 9223372036854775808]
    let written := (Value.mapping []).write true path (.text "null → 1 (replace)")
    Path.parse "a[9223372036854775808]" = path ∧ (∀ s ∈ path, s.IsDefinite) ∧ path ≠ [] ∧
      written.2 = some .indexTooLarge ∧ written.1.resolve path = none := by
  refine ⟨by decide +kernel, by simp [Segment.IsDefinite], by simp, by decide +kernel,
    by decide +kernel⟩

end Value

end PatchScript
