import PatchScript.Proofs.Document.Landing
import PatchScript.Proofs.Path.Canonical

/-!
# Documents that show what others hold

One document mirrors another one when every text of that stands in it under the same path, and so
does a mapping for every mapping. Paths here are lists of keys and indices, and an index finds an
entry of a mapping as well as an item of a list. So a list may be mirrored by a mapping, but a
mapping never by a list, in which a key finds nothing.

Putting a value changes what one place of a container shows and may make nulls besides, which a
mirror need not show.

## Main definitions

* `Segment.IsConcrete`, `Segment.IsStep` — keys and indices, and the append marker besides
* `Value.MirroredIn` — what a document holds is shown by another one, if there is one

## Main results

* `Value.mirroredIn_iff` — a mirror shows what every step finds
* `Value.MirroredIn.put` — putting a value where it is shown
* `Value.MirroredIn.put_put`, `of_put_eq_error` — putting into both, or into the mirror alone
-/

namespace PatchScript

/-- Whether a segment is a key or an index. -/
def Segment.IsConcrete : Segment → Prop
  | .key _ | .index _ => True
  | .append | .other _ => False

/-- Whether a segment is a key, an index or the append marker. -/
def Segment.IsStep (s : Segment) : Prop := s = .append ∨ s.IsConcrete

namespace Value

variable {d d' p p' v x y z : Value} {q : Option Value} {s t u : Segment} {path rest : Path}

/-- What a document holds is shown by another one: a text stands there under the same path, and so
does a mapping for a mapping. -/
structure MirroredIn (d : Value) (q : Option Value) : Prop where
  text : ∀ path : Path, (∀ s ∈ path, s.IsConcrete) → ∀ t, d.resolve path = some (.text t) →
    q.bind (·.resolve path) = some (.text t)
  mapping : ∀ path : Path, (∀ s ∈ path, s.IsConcrete) → ∀ m, d.resolve path = some (.mapping m) →
    ∃ m', q.bind (·.resolve path) = some (.mapping m')

/-! ### Children -/

theorem bind_resolve_cons (q : Option Value) (s : Segment) (path : Path) :
    q.bind (·.resolve (s :: path)) = (q.bind (·.child? s)).bind (·.resolve path) := by
  cases q with
  | none => rfl
  | some v =>
    simp only [Option.bind_some, resolve]
    cases v.child? s <;> rfl

/-- A mirror shows the value itself, and what every step finds in it. -/
theorem mirroredIn_iff :
    d.MirroredIn q ↔ (∀ t, d = .text t → q = some (.text t)) ∧
      (∀ m, d = .mapping m → ∃ m', q = some (.mapping m')) ∧
      ∀ u : Segment, u.IsConcrete → ∀ c, d.child? u = some c →
        c.MirroredIn (q.bind (·.child? u)) := by
  have here : q.bind (·.resolve []) = q := by cases q <;> rfl
  constructor
  · intro h
    refine ⟨fun t ht => ?_, fun m hm => ?_, fun u hu c hc => ⟨?_, ?_⟩⟩
    · rw [← here]
      exact h.text [] (by simp) t (by rw [ht, resolve])
    · rw [← here]
      exact h.mapping [] (by simp) m (by rw [hm, resolve])
    · intro path concrete t ht
      rw [← bind_resolve_cons]
      exact h.text (u :: path) (by simpa [hu] using concrete) t
        (resolve_cons_eq_some_iff.2 ⟨c, hc, ht⟩)
    · intro path concrete m hm
      rw [← bind_resolve_cons]
      exact h.mapping (u :: path) (by simpa [hu] using concrete) m
        (resolve_cons_eq_some_iff.2 ⟨c, hc, hm⟩)
  · rintro ⟨text, mapping, children⟩
    refine ⟨fun path concrete t ht => ?_, fun path concrete m hm => ?_⟩
    · cases path with
      | nil =>
        rw [here]
        exact text t (by simpa [resolve] using ht)
      | cons u path =>
        obtain ⟨c, hc, hpath⟩ := resolve_cons_eq_some_iff.1 ht
        rw [bind_resolve_cons]
        exact (children u (concrete u (by simp)) c hc).text path
          (fun s hs => concrete s (by simp [hs])) t hpath
    · cases path with
      | nil =>
        rw [here]
        exact mapping m (by simpa [resolve] using hm)
      | cons u path =>
        obtain ⟨c, hc, hpath⟩ := resolve_cons_eq_some_iff.1 hm
        rw [bind_resolve_cons]
        exact (children u (concrete u (by simp)) c hc).mapping path
          (fun s hs => concrete s (by simp [hs])) m hpath

namespace MirroredIn

theorem child (h : d.MirroredIn q) (hu : u.IsConcrete) (hc : d.child? u = some x) :
    x.MirroredIn (q.bind (·.child? u)) :=
  (mirroredIn_iff.1 h).2.2 u hu x hc

theorem exists_mapping {m : Mapping} (h : (Value.mapping m).MirroredIn q) :
    ∃ m', q = some (.mapping m') :=
  (mirroredIn_iff.1 h).2.1 m rfl

theorem refl (v : Value) : v.MirroredIn (some v) :=
  ⟨fun _ _ _ h => h, fun _ _ m h => ⟨m, h⟩⟩

/-- What is mirrored by nothing is mirrored by everything. -/
theorem of_none (h : d.MirroredIn none) (q : Option Value) : d.MirroredIn q :=
  ⟨fun path concrete t ht => by simpa using h.text path concrete t ht,
    fun path concrete m hm => by simpa using h.mapping path concrete m hm⟩

/-- What holds neither a text nor a mapping, not even itself, is mirrored by everything. -/
theorem of_child?_eq_none (h : ∀ u : Segment, d.child? u = none) (text : ∀ t, d ≠ .text t)
    (mapping : ∀ m, d ≠ .mapping m) (q : Option Value) : d.MirroredIn q := by
  refine mirroredIn_iff.2 ⟨fun t ht => absurd ht (text t), fun m hm => absurd hm (mapping m), ?_⟩
  intro u _ c hc
  simp [h u] at hc

theorem null (q : Option Value) : Value.null.MirroredIn q :=
  of_child?_eq_none (fun u => by cases u <;> rfl) (by simp) (by simp) q

theorem empty_list (q : Option Value) : (Value.list []).MirroredIn q := by
  refine of_child?_eq_none (fun u => ?_) (by simp) (by simp) q
  by_contra found
  obtain ⟨c, hc⟩ := Option.ne_none_iff_exists'.1 found
  obtain ⟨i, -, hi⟩ := child?_list_eq_some_iff.1 hc
  simp at hi

/-- A container that is mirrored by a value without children is mirrored by nothing. -/
theorem none_of_not_isContainer (h : d.MirroredIn (some p)) (hd : d.isContainer = true)
    (hp : p.isContainer = false) : d.MirroredIn none := by
  refine mirroredIn_iff.2 ⟨?_, ?_, fun u hu c hc => ?_⟩
  · rintro t rfl
    cases hd
  · rintro m rfl
    obtain ⟨m', equal⟩ := h.exists_mapping
    obtain rfl : p = .mapping m' := by simpa using equal
    cases hp
  · have nothing : p.child? u = none := by
      by_contra found
      obtain ⟨c', hc'⟩ := Option.ne_none_iff_exists'.1 found
      simp [isContainer_of_child? hc'] at hp
    have := h.child hu hc
    rwa [Option.bind_some, nothing] at this

end MirroredIn

/-! ### Putting -/

theorem indexText_injective {i j : Int} (h : Segment.indexText i = Segment.indexText j) :
    i = j := by
  have same : Number.intText i = Number.intText j := String.ofList_injective h
  have := congrArg Path.integer? same
  simpa [Path.integer?_intText] using this

theorem ne_append_of_isConcrete (hu : u.IsConcrete) : u ≠ .append := by
  rintro rfl
  exact hu

/-- A key finds nothing in a list. -/
theorem eq_index_of_child?_list {items : List Value} (hu : u.IsConcrete)
    (h : (Value.list items).child? u = some x) :
    ∃ i : Nat, u = .index i ∧ items[i]? = some x := by
  obtain ⟨i, hi, found⟩ := child?_list_eq_some_iff.1 h
  refine ⟨i, ?_, found⟩
  cases u with
  | index j => simpa [Segment.position?] using hi
  | key k => cases hi
  | _ => exact hu.elim

/-- Putting an item changes the one at its place; behind the end it makes nulls in between. -/
theorem getElem?_putItem {items items' : List Value} (hput : putItem items s x = .ok items')
    (hs : s.IsStep) :
    ∃ j : Nat, (Value.list items).placed s = .index j ∧ items'[j]? = some x ∧
      ∀ i ≠ j, ∀ c, (items[i]? = some c → items'[i]? = some c) ∧
        (items'[i]? = some c → items[i]? = some c ∨ c = .null) := by
  have index {j : Nat} (hj : s.position? = some (j : Int)) :
      (Value.list items).placed s = .index j := by
    cases s with
    | index k => simpa [placed, Segment.position?] using hj
    | other v => rcases hs with equal | concrete
                 · cases equal
                 · exact concrete.elim
    | _ => cases hj
  obtain ⟨rfl, rfl⟩ | ⟨j, hj, ⟨bound, rfl⟩ | ⟨bound, rfl⟩⟩ := putItem_eq_ok hput
  · refine ⟨items.length, rfl, by simp, fun i different c => ?_⟩
    grind
  · refine ⟨j, index hj, by simp [bound], fun i different c => ?_⟩
    grind
  · refine ⟨j, index hj, by grind, fun i different c => ?_⟩
    grind

/-- What was put is found at its place, and other steps find what they found, or null. -/
theorem child?_put_cases (hput : d.put s x = .ok d') (hs : s.IsStep) (hu : u.IsConcrete)
    (hy : d'.child? u = some y) :
    (y = x ∧ ∀ z : Value, (∀ m, d = .mapping m → ∃ m', z = .mapping m') →
        z.child? u = z.child? (d.placed s)) ∨
      u.label ≠ (d.placed s).label ∧ (d.child? u = some y ∨ y = .null) := by
  cases d with
  | mapping m =>
    obtain ⟨marker, rfl⟩ := put_mapping_eq_ok hput
    rw [placed_of_ne_append marker]
    rw [child?_mapping (ne_append_of_isConcrete hu), Mapping.get?_put] at hy
    split at hy
    · next same =>
      refine .inl ⟨(Option.some.inj hy).symm, fun z shape => ?_⟩
      obtain ⟨m', rfl⟩ := shape m rfl
      rw [child?_mapping (ne_append_of_isConcrete hu), child?_mapping marker, same]
    · next different =>
      refine .inr ⟨Ne.symm different, .inl ?_⟩
      rw [child?_mapping (ne_append_of_isConcrete hu), hy]
  | list items =>
    obtain ⟨items', hitems, rfl⟩ := put_list_eq_ok hput
    obtain ⟨i, rfl, found⟩ := eq_index_of_child?_list hu hy
    obtain ⟨j, place, here, others⟩ := getElem?_putItem hitems hs
    rw [place]
    by_cases same : i = j
    · subst same
      exact .inl ⟨Option.some.inj (found.symm.trans here), fun _ _ => rfl⟩
    · refine .inr ⟨fun equal => same (Int.ofNat_inj.1 (indexText_injective equal)), ?_⟩
      obtain before | null := (others i same y).2 found
      · exact .inl (child?_list_eq_some_iff.2 ⟨i, rfl, before⟩)
      · exact .inr null
  | _ => cases hput

/-- What another step finds stays. -/
theorem child?_put_of_ne (hput : p.put s x = .ok p') (hs : s.IsStep) (hu : u.IsConcrete)
    (different : u.label ≠ (p.placed s).label) (hy : p.child? u = some y) :
    p'.child? u = some y := by
  cases p with
  | mapping m =>
    obtain ⟨marker, rfl⟩ := put_mapping_eq_ok hput
    rw [placed_of_ne_append marker] at different
    rw [child?_mapping (ne_append_of_isConcrete hu)] at hy ⊢
    rw [Mapping.get?_put, if_neg (Ne.symm different), hy]
  | list items =>
    obtain ⟨items', hitems, rfl⟩ := put_list_eq_ok hput
    obtain ⟨i, rfl, found⟩ := eq_index_of_child?_list hu hy
    obtain ⟨j, place, -, others⟩ := getElem?_putItem hitems hs
    have elsewhere : i ≠ j := by
      rintro rfl
      exact different (by rw [place])
    exact child?_list_eq_some_iff.2 ⟨i, rfl, (others i elsewhere y).1 found⟩
  | _ => cases hput

/-- Putting keeps a mapping a mapping and a list a list. -/
theorem put_shape (hput : d.put s x = .ok d') :
    (∀ t, d' ≠ .text t) ∧ ∀ m', d' = .mapping m' → ∃ m, d = .mapping m := by
  cases d with
  | mapping m =>
    obtain ⟨-, rfl⟩ := put_mapping_eq_ok hput
    exact ⟨by simp, fun _ _ => ⟨m, rfl⟩⟩
  | list items =>
    obtain ⟨items', -, rfl⟩ := put_list_eq_ok hput
    exact ⟨by simp, by simp⟩
  | _ => cases hput

namespace MirroredIn

/-- **Putting a value** where it is shown keeps a mirror. -/
theorem put (hput : d.put s x = .ok d') (hs : s.IsStep)
    (shape : ∀ m, d = .mapping m → ∃ m', q = some (.mapping m'))
    (others : ∀ u : Segment, u.IsConcrete → u.label ≠ (d.placed s).label → ∀ c,
      d.child? u = some c → c.MirroredIn (q.bind (·.child? u)))
    (here : x.MirroredIn (q.bind (·.child? (d.placed s)))) : d'.MirroredIn q := by
  obtain ⟨notText, kept⟩ := put_shape hput
  refine mirroredIn_iff.2 ⟨fun t ht => absurd ht (notText t), fun m' hm' => ?_, fun u hu c hc => ?_⟩
  · obtain ⟨m, equal⟩ := kept m' hm'
    exact shape m equal
  · obtain ⟨rfl, same⟩ | ⟨different, found | rfl⟩ := child?_put_cases hput hs hu hc
    · cases q with
      | none => exact here
      | some z =>
        rw [Option.bind_some] at here ⊢
        rw [same z fun m hm => by simpa using shape m hm]
        exact here
    · exact others u hu different c found
    · exact null _

/-- What stands elsewhere stays mirrored when something is put into the mirror. -/
theorem child_put (hput : p.put s x = .ok p') (hs : s.IsStep) (hu : u.IsConcrete)
    (different : u.label ≠ (p.placed s).label) (h : y.MirroredIn (p.child? u)) :
    y.MirroredIn (p'.child? u) := by
  cases found : p.child? u with
  | none =>
    rw [found] at h
    exact h.of_none _
  | some c =>
    rw [child?_put_of_ne hput hs hu different found, ← found]
    exact h

/-- Putting into both documents keeps a mirror. -/
theorem put_put (h : d.MirroredIn (some p)) (hs : s.IsConcrete) (hd : d.put s x = .ok d')
    (hp : p.put s y = .ok p') (below : x.MirroredIn (some y)) : d'.MirroredIn (some p') := by
  have marker := ne_append_of_isConcrete hs
  refine put hd (.inr hs) ?_ ?_ ?_
  · rintro m rfl
    obtain ⟨m', equal⟩ := h.exists_mapping
    obtain rfl : p = .mapping m' := by simpa using equal
    exact ⟨_, congrArg some (put_mapping_eq_ok hp).2⟩
  · intro u hu different c hc
    rw [placed_of_ne_append marker] at different
    exact child_put hp (.inr hs) hu (by rwa [placed_of_ne_append marker]) (h.child hu hc)
  · rw [Option.bind_some, placed_of_ne_append marker, child?_of_put hp marker]
    exact below

/-- Where nothing can be put into a document of the right kind, a mirror may take a value. -/
theorem of_put_eq_error {fault : WriteFault} (h : d.MirroredIn (some p)) (hs : s.IsConcrete)
    (kind : isWrongKind s d = false) (hd : d.put s x = .error fault) (hp : p.put s y = .ok p') :
    d.MirroredIn (some p') := by
  have marker := ne_append_of_isConcrete hs
  cases d with
  | list items =>
    refine mirroredIn_iff.2 ⟨by simp, by simp, fun u hu c hc => ?_⟩
    refine child_put hp (.inr hs) hu ?_ (h.child hu hc)
    rw [placed_of_ne_append marker]
    intro same
    obtain ⟨i, rfl, -⟩ := eq_index_of_child?_list hu hc
    -- the item that is there could be replaced
    obtain rfl : s = .index i := by
      cases s with
      | key k => cases kind
      | index j => exact congrArg Segment.index (indexText_injective same).symm
      | _ => exact hs.elim
    rw [put_of_child? hc] at hd
    cases hd
  | mapping m =>
    rw [Value.put, if_neg marker] at hd
    cases hd
  | _ => cases kind

end MirroredIn

end Value

end PatchScript
