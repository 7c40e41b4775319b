import PatchScript.Proofs.Document.Update
import PatchScript.Proofs.Value.Size

/-!
# Values of one shape

Two values have one shape when they are scalars, or lists of one length, or mappings with the same
keys, and so on further down. The order of keys is no part of it. What the scalars in their places
have to do with each other is left open: it is a relation that every comparison of values chooses
for itself. So its laws are laws about scalars, which are carried through the containers here once
and for all.

A well-formed value has no key twice. A mapping in it is therefore the same as what it finds under
its keys, whatever their order is.

## Main definitions

* `Value.Alike` — one shape, with the scalars related in pairs

## Main results

* `Value.nested_induction` — induction on the items and entries of a value
* `Value.Alike.symm`, `trans`, `resolve`, `imp_at` — the laws of such a relation
* `Value.alike_self_iff` — a value is alike to itself where its scalars are related to themselves
* `Value.alike_update` — a part of a value gives way to one that is alike
-/

namespace PatchScript

namespace Mapping

variable {m n : Mapping} {key : String} {v : Value}

theorem mem_keys_iff : key ∈ m.keys ↔ ∃ v, m.get? key = some v := by
  rw [← not_iff_not, ← get?_eq_none_iff]
  cases m.get? key <;> simp

/-- Where no key stands twice, every entry is found. -/
theorem get?_eq_some_iff (distinct : m.keys.Nodup) : m.get? key = some v ↔ (key, v) ∈ m := by
  refine ⟨mem_of_get?, fun mem => ?_⟩
  induction m with
  | nil => cases mem
  | cons e rest ih =>
    obtain ⟨l, x⟩ := e
    obtain ⟨once, distinct⟩ := List.nodup_cons.1 distinct
    rcases List.mem_cons.1 mem with here | later
    · obtain ⟨rfl, rfl⟩ := Prod.mk.inj here
      exact if_pos rfl
    · have other : l ≠ key := by
        rintro rfl
        exact once (List.mem_map.2 ⟨_, later, rfl⟩)
      rw [get?, if_neg other]
      exact ih distinct later

/-- The order of the entries does not matter to what is found. -/
theorem get?_of_perm (distinct : m.keys.Nodup) (perm : m.Perm n) : n.get? key = m.get? key := by
  have distinct' : n.keys.Nodup := (perm.map Prod.fst).nodup_iff.1 distinct
  refine Option.ext fun v => ?_
  rw [get?_eq_some_iff distinct, get?_eq_some_iff distinct', perm.mem_iff]

end Mapping

namespace Value

variable {v x y a b c : Value} {s : Segment} {path : Path} {xs : List Value} {m n : Mapping}

/-! ### Parts of values -/

/-- Induction on the items of lists and on the entries of mappings. -/
theorem nested_induction {motive : Value → Prop}
    (scalar : ∀ v : Value, v.isContainer = false → motive v)
    (list : ∀ xs : List Value, (∀ x ∈ xs, motive x) → motive (.list xs))
    (mapping : ∀ m : Mapping, (∀ k x, (k, x) ∈ m → motive x) → motive (.mapping m))
    (v : Value) : motive v := by
  induction hsize : sizeOf v using Nat.strongRecOn generalizing v with
  | _ size ih =>
    subst hsize
    cases v with
    | list xs =>
      refine list xs fun x mem => ih _ ?_ x rfl
      have := List.sizeOf_lt_of_mem mem
      simp only [Value.list.sizeOf_spec]
      omega
    | mapping m =>
      refine mapping m fun k x mem => ih _ ?_ x rfl
      have := List.sizeOf_lt_of_mem mem
      simp only [Value.mapping.sizeOf_spec, Prod.mk.sizeOf_spec] at this ⊢
      omega
    | _ => exact scalar _ rfl

theorem wellFormed_list : (Value.list xs).wellFormed = true ↔ ∀ x ∈ xs, x.wellFormed = true := by
  rw [wellFormed]
  induction xs with
  | nil => simp [wellFormedItems]
  | cons x xs ih => simp [wellFormedItems, ih]

theorem wellFormed_mapping :
    (Value.mapping m).wellFormed = true ↔
      m.keys.Nodup ∧ ∀ k x, (k, x) ∈ m → x.wellFormed = true := by
  rw [wellFormed]
  induction m with
  | nil => simp [wellFormedEntries, Mapping.keys]
  | cons e rest ih =>
    obtain ⟨k, x⟩ := e
    have absent : Mapping.hasKey rest k = false ↔ k ∉ Mapping.keys rest := by
      rw [Mapping.hasKey, ← Mapping.get?_eq_none_iff, Option.isSome_eq_false_iff,
        Option.isNone_iff_eq_none]
    have keys : Mapping.keys ((k, x) :: rest) = k :: Mapping.keys rest := rfl
    simp only [wellFormedEntries, Bool.and_eq_true, Bool.not_eq_true', absent, ih, keys,
      List.nodup_cons, List.mem_cons, Prod.mk.injEq]
    grind

theorem wellFormed_of_child? (wf : v.wellFormed = true) (h : v.child? s = some x) :
    x.wellFormed = true := by
  cases v with
  | mapping m =>
    rw [child?_mapping (ne_append_of_child? h)] at h
    exact (wellFormed_mapping.1 wf).2 _ _ (Mapping.mem_of_get? h)
  | list items =>
    obtain ⟨i, -, found⟩ := child?_list_eq_some_iff.1 h
    exact wellFormed_list.1 wf x (List.mem_of_getElem? found)
  | _ => cases isContainer_of_child? h

theorem wellFormed_of_resolve (wf : v.wellFormed = true) (h : v.resolve path = some x) :
    x.wellFormed = true := by
  induction path generalizing v with
  | nil =>
    obtain rfl : v = x := by simpa [resolve] using h
    exact wf
  | cons s path ih =>
    obtain ⟨child, hs, below⟩ := resolve_cons_eq_some_iff.1 h
    exact ih (wellFormed_of_child? wf hs) below

theorem wellFormed_replaceChild (wf : v.wellFormed = true) (h : v.child? s = some x)
    (wf' : y.wellFormed = true) : (v.replaceChild s y).wellFormed = true := by
  cases v with
  | mapping m =>
    rw [child?_mapping (ne_append_of_child? h)] at h
    obtain ⟨distinct, entries⟩ := wellFormed_mapping.1 wf
    have keys := Mapping.keys_put_of_mem (Mapping.mem_keys_of_get? h) y
    have distinct' : (Mapping.put m s.label y).keys.Nodup := keys ▸ distinct
    refine wellFormed_mapping.2 ⟨distinct', fun k z mem => ?_⟩
    rw [← Mapping.get?_eq_some_iff distinct', Mapping.get?_put] at mem
    split at mem
    · obtain rfl : y = z := Option.some.inj mem
      exact wf'
    · exact entries k z (Mapping.mem_of_get? mem)
  | list items =>
    obtain ⟨i, hi, found⟩ := child?_list_eq_some_iff.1 h
    simp only [replaceChild, hi]
    refine wellFormed_list.2 fun z mem => ?_
    rcases List.mem_or_eq_of_mem_set mem with former | rfl
    · exact wellFormed_list.1 wf z former
    · exact wf'
  | _ => cases isContainer_of_child? h

theorem wellFormed_update (wf : v.wellFormed = true) (h : v.resolve path = some x)
    (wf' : y.wellFormed = true) : (v.update (fun _ => y) path).wellFormed = true := by
  induction path generalizing v with
  | nil => exact wf'
  | cons s path ih =>
    obtain ⟨child, hs, below⟩ := resolve_cons_eq_some_iff.1 h
    simp only [update, hs]
    exact wellFormed_replaceChild wf hs (ih (wellFormed_of_child? wf hs) below)

/-! ### Shapes -/

/-- Two values have one shape, whatever the order of keys is, and the scalars that stand in one
place are related. -/
inductive Alike (r : Value → Value → Prop) : Value → Value → Prop
  | scalar {a b : Value} (ha : a.isContainer = false) (hb : b.isContainer = false)
      (related : r a b) : Alike r a b
  | list {xs ys : List Value} (length : xs.length = ys.length)
      (items : ∀ (i : Nat) (x y : Value), xs[i]? = some x → ys[i]? = some y → Alike r x y) :
      Alike r (.list xs) (.list ys)
  | mapping {m n : Mapping} (keys : ∀ k, k ∈ m.keys ↔ k ∈ n.keys)
      (entries : ∀ (k : String) (x y : Value), m.get? k = some x → n.get? k = some y →
        Alike r x y) :
      Alike r (.mapping m) (.mapping n)

namespace Alike

variable {r r' r'' : Value → Value → Prop}

theorem symm (swap : ∀ x y, r x y → r' y x) (h : a.Alike r b) : b.Alike r' a := by
  induction h with
  | scalar ha hb related => exact .scalar hb ha (swap _ _ related)
  | list length _ ih => exact .list length.symm fun i x y hx hy => ih i y x hy hx
  | mapping keys _ ih => exact .mapping (fun k => (keys k).symm) fun k x y hx hy => ih k y x hy hx

theorem trans (chain : ∀ x y z, r x y → r' y z → r'' x z) (h : a.Alike r b) (h' : b.Alike r' c) :
    a.Alike r'' c := by
  induction h generalizing c with
  | scalar ha hb related =>
    cases h' with
    | scalar _ hc related' => exact .scalar ha hc (chain _ _ _ related related')
    | _ => cases hb
  | @list xs ys length _ ih =>
    cases h' with
    | scalar hb => cases hb
    | @list _ zs length' items' =>
      refine .list (length.trans length') fun i x z hx hz => ?_
      have bound : i < ys.length := by
        have := (List.getElem?_eq_some_iff.1 hx).1
        omega
      have hy : ys[i]? = some ys[i] := List.getElem?_eq_getElem bound
      exact ih i x _ hx hy (items' i _ z hy hz)
  | @mapping m n keys _ ih =>
    cases h' with
    | scalar hb => cases hb
    | mapping keys' entries' =>
      refine .mapping (fun k => (keys k).trans (keys' k)) fun k x z hx hz => ?_
      obtain ⟨y, hy⟩ := Mapping.mem_keys_iff.1 ((keys k).1 (Mapping.mem_keys_of_get? hx))
      exact ih k x y hx hy (entries' k y z hy hz)

/-- Every step that finds something in one of two values finds something in the other. -/
theorem child? (h : a.Alike r b) (hs : a.child? s = some x) :
    ∃ y, b.child? s = some y ∧ x.Alike r y := by
  cases h with
  | scalar ha =>
    rw [isContainer_of_child? hs] at ha
    cases ha
  | @list xs ys length items =>
    obtain ⟨i, hi, hx⟩ := child?_list_eq_some_iff.1 hs
    have bound : i < ys.length := by
      have := (List.getElem?_eq_some_iff.1 hx).1
      omega
    have hy : ys[i]? = some ys[i] := List.getElem?_eq_getElem bound
    exact ⟨ys[i], child?_list_eq_some_iff.2 ⟨i, hi, hy⟩, items i x _ hx hy⟩
  | mapping keys entries =>
    have marker := ne_append_of_child? hs
    rw [child?_mapping marker] at hs
    obtain ⟨y, hy⟩ := Mapping.mem_keys_iff.1 ((keys _).1 (Mapping.mem_keys_of_get? hs))
    exact ⟨y, (child?_mapping marker _).trans hy, entries _ x y hs hy⟩

/-- So does every path. -/
theorem resolve (h : a.Alike r b) (hx : a.resolve path = some x) :
    ∃ y, b.resolve path = some y ∧ x.Alike r y := by
  induction path generalizing a b with
  | nil =>
    obtain rfl : a = x := by simpa [Value.resolve] using hx
    exact ⟨b, rfl, h⟩
  | cons s path ih =>
    obtain ⟨child, hs, below⟩ := resolve_cons_eq_some_iff.1 hx
    obtain ⟨child', hs', alike⟩ := h.child? hs
    obtain ⟨y, hy, related⟩ := ih alike below
    exact ⟨y, resolve_cons_eq_some_iff.2 ⟨child', hs', hy⟩, related⟩

/-- Scalars may be related in another way, if they are so wherever they stand. -/
theorem imp_at (h : a.Alike r b)
    (imp : ∀ path x y, a.resolve path = some x → b.resolve path = some y →
      x.isContainer = false → y.isContainer = false → r x y → r' x y) : a.Alike r' b := by
  induction h with
  | scalar ha hb related => exact .scalar ha hb (imp [] _ _ rfl rfl ha hb related)
  | list length _ ih =>
    refine .list length fun i x y hx hy => ih i x y hx hy fun path z w hz hw => ?_
    exact imp (.index i :: path) z w
      (resolve_cons_eq_some_iff.2 ⟨x, child?_list_eq_some_iff.2 ⟨i, rfl, hx⟩, hz⟩)
      (resolve_cons_eq_some_iff.2 ⟨y, child?_list_eq_some_iff.2 ⟨i, rfl, hy⟩, hw⟩)
  | mapping keys _ ih =>
    refine .mapping keys fun k x y hx hy => ih k x y hx hy fun path z w hz hw => ?_
    exact imp (.key k :: path) z w (resolve_cons_eq_some_iff.2 ⟨x, hx, hz⟩)
      (resolve_cons_eq_some_iff.2 ⟨y, hy, hw⟩)

theorem mono (imp : ∀ x y, r x y → r' x y) (h : a.Alike r b) : a.Alike r' b :=
  h.imp_at fun _ x y _ _ _ _ => imp x y

/-- A value is alike to itself, scalar by scalar. -/
theorem refl (v : Value) : v.Alike Eq v := by
  induction v using nested_induction with
  | scalar v hv => exact .scalar hv hv rfl
  | list xs ih =>
    refine .list rfl fun i x y hx hy => ?_
    obtain rfl : x = y := Option.some.inj (hx.symm.trans hy)
    exact ih x (List.mem_of_getElem? hx)
  | mapping m ih =>
    refine .mapping (fun _ => .rfl) fun k x y hx hy => ?_
    obtain rfl : x = y := Option.some.inj (hx.symm.trans hy)
    exact ih k x (Mapping.mem_of_get? hx)

/-- The order of the entries of a mapping is no part of its shape. -/
theorem of_perm (distinct : m.keys.Nodup) (perm : m.Perm n) :
    (Value.mapping m).Alike Eq (.mapping n) := by
  refine .mapping (fun k => (perm.map Prod.fst).mem_iff) fun k x y hx hy => ?_
  rw [Mapping.get?_of_perm distinct perm] at hy
  obtain rfl : x = y := Option.some.inj (hx.symm.trans hy)
  exact refl x

/-- A child gives way to one that is alike. -/
theorem replaceChild (hs : v.child? s = some x) (h : x.Alike Eq y) :
    v.Alike Eq (v.replaceChild s y) := by
  cases v with
  | mapping m =>
    rw [child?_mapping (ne_append_of_child? hs)] at hs
    refine .mapping (fun k => ?_) fun k z w hz hw => ?_
    · rw [Mapping.keys_put_of_mem (Mapping.mem_keys_of_get? hs)]
    · rw [Mapping.get?_put] at hw
      split at hw
      · next here =>
        obtain rfl : x = z := Option.some.inj (hs.symm.trans (here ▸ hz))
        obtain rfl : y = w := Option.some.inj hw
        exact h
      · obtain rfl : z = w := Option.some.inj (hz.symm.trans hw)
        exact refl z
  | list items =>
    obtain ⟨i, hi, hx⟩ := child?_list_eq_some_iff.1 hs
    simp only [Value.replaceChild, hi]
    refine .list (by simp) fun j z w hz hw => ?_
    rw [List.getElem?_set] at hw
    split at hw
    · next here =>
      have bound : i < items.length := (List.getElem?_eq_some_iff.1 hx).1
      obtain rfl : x = z := Option.some.inj (hx.symm.trans (by simpa [← here] using hz))
      obtain rfl : y = w := by simpa [bound] using hw
      exact h
    · obtain rfl : z = w := Option.some.inj (hz.symm.trans hw)
      exact refl z
  | _ => cases isContainer_of_child? hs

end Alike

variable {r : Value → Value → Prop}

/-- A value is alike to itself exactly if the scalars in it are related to themselves. -/
theorem alike_self_iff :
    v.Alike r v ↔ ∀ path x, v.resolve path = some x → x.isContainer = false → r x x := by
  constructor
  · intro h path x hx scalar
    obtain ⟨y, hy, alike⟩ := h.resolve hx
    obtain rfl : x = y := Option.some.inj (hx.symm.trans hy)
    cases alike with
    | scalar _ _ related => exact related
    | _ => cases scalar
  · intro h
    refine (Alike.refl v).imp_at ?_
    rintro path x _ hx - scalar - rfl
    exact h path x hx scalar

/-- A part of a value gives way to one that is alike. -/
theorem alike_update (h : v.resolve path = some x) (alike : x.Alike Eq y) :
    v.Alike Eq (v.update (fun _ => y) path) := by
  induction path generalizing v with
  | nil =>
    obtain rfl : v = x := by simpa [resolve] using h
    exact alike
  | cons s path ih =>
    obtain ⟨child, hs, below⟩ := resolve_cons_eq_some_iff.1 h
    simp only [update, hs]
    exact .replaceChild hs (ih below)

end Value

end PatchScript
