import PatchScript.Proofs.Value.Alike
import PatchScript.Value.Equality
import Mathlib.Data.List.Perm.Subperm

/-!
# Equality of values as a relation

Two well-formed values are the same when they have one shape and their scalars are the same in
pairs, numbers by their position on the number line. So equality is symmetric and transitive, as
having one position is, also where integers and binary64 numbers take turns. What is not a number
has no position: a value that holds it anywhere is not the same as itself, and any other value is.

## Main definitions

* `Value.EqualBy` — equal scalars, up to a relation between numbers
* `Value.OfOneSort` — scalars of one sort, whatever they say

## Main results

* `Value.same_iff_alike` — equality, said by shapes and scalars
* `Value.same_partial_equivalence` — the headline: the laws of equality
-/

namespace PatchScript

namespace Number

variable {k m n : Number}

theorem same_iff : m.same n = true ↔ ∃ p, m.point? = some p ∧ n.point? = some p := by
  unfold same
  split
  · next p q hp hq =>
    rw [hp, hq, beq_iff_eq]
    exact ⟨fun equal => ⟨p, rfl, congrArg some equal.symm⟩, by rintro ⟨_, ⟨⟩, ⟨⟩⟩; rfl⟩
  · next none =>
    simp only [Bool.false_eq_true, false_iff]
    rintro ⟨p, hp, hq⟩
    exact none p p hp hq

theorem same_symm (h : m.same n = true) : n.same m = true := by
  obtain ⟨p, hm, hn⟩ := same_iff.1 h
  exact same_iff.2 ⟨p, hn, hm⟩

theorem same_trans (h : k.same m = true) (h' : m.same n = true) : k.same n = true := by
  obtain ⟨p, hk, hm⟩ := same_iff.1 h
  obtain ⟨q, hm', hn⟩ := same_iff.1 h'
  obtain rfl : p = q := Option.some.inj (hm.symm.trans hm')
  exact same_iff.2 ⟨p, hk, hn⟩

/-- A number has a position, unless it is not a number. -/
theorem same_self_iff : n.same n = true ↔ n ≠ .float .nan := by
  rw [same_iff]
  cases n with
  | int i => exact ⟨nofun, fun _ => ⟨_, rfl, rfl⟩⟩
  | float x =>
    cases x with
    | nan => simp [point?, Binary64.point?]
    | infinite negative => cases negative <;> exact ⟨nofun, fun _ => ⟨_, rfl, rfl⟩⟩
    | finite negative magnitude => exact ⟨nofun, fun _ => ⟨_, rfl, rfl⟩⟩

end Number

namespace Value

variable {a b c v x : Value} {xs ys : List Value} {m n : Mapping} {path : Path}
  {r : Number → Number → Prop}

/-! ### Scalars -/

/-- Equal scalars, where numbers are taken for equal by a relation of their own. -/
inductive EqualBy (r : Number → Number → Prop) : Value → Value → Prop
  | null : EqualBy r .null .null
  | bool (t : Bool) : EqualBy r (.bool t) (.bool t)
  | number {m n : Number} (related : r m n) : EqualBy r (.number m) (.number n)
  | text (s : String) : EqualBy r (.text s) (.text s)

/-- Scalars of one sort, whatever they say. -/
inductive OfOneSort : Value → Value → Prop
  | null : OfOneSort .null .null
  | bool (s t : Bool) : OfOneSort (.bool s) (.bool t)
  | number (m n : Number) : OfOneSort (.number m) (.number n)
  | text (s t : String) : OfOneSort (.text s) (.text t)

theorem EqualBy.symm (swap : ∀ m n, r m n → r n m) (h : EqualBy r a b) : EqualBy r b a := by
  cases h with
  | null => exact .null
  | bool t => exact .bool t
  | number related => exact .number (swap _ _ related)
  | text s => exact .text s

theorem EqualBy.trans (chain : ∀ k m n, r k m → r m n → r k n) (h : EqualBy r a b)
    (h' : EqualBy r b c) : EqualBy r a c := by
  cases h with
  | number related =>
    cases h' with
    | number related' => exact .number (chain _ _ _ related related')
  | _ => exact h'

theorem EqualBy.ofOneSort (h : EqualBy r a b) : OfOneSort a b := by
  cases h with
  | null => exact .null
  | bool t => exact .bool t t
  | number _ => exact .number _ _
  | text s => exact .text s s

theorem equalBy_self_iff (scalar : x.isContainer = false) :
    EqualBy r x x ↔ ∀ n, x = .number n → r n n := by
  constructor
  · rintro (_ | _ | related | _) n ⟨⟩
    exact related
  · intro numbers
    cases x with
    | null => exact .null
    | bool t => exact .bool t
    | number n => exact .number (numbers n rfl)
    | text s => exact .text s
    | list _ | mapping _ => cases scalar

/-! ### Containers -/

theorem sameItems_iff : sameItems xs ys = true ↔
    xs.length = ys.length ∧
      ∀ (i : Nat) (x y : Value), xs[i]? = some x → ys[i]? = some y → x.same y = true := by
  induction xs generalizing ys with
  | nil => cases ys <;> simp [sameItems]
  | cons x xs ih =>
    cases ys with
    | nil => simp [sameItems]
    | cons y ys =>
      rw [sameItems, Bool.and_eq_true, ih]
      constructor
      · rintro ⟨first, length, later⟩
        refine ⟨by simp [length], fun i z w hz hw => ?_⟩
        cases i with
        | zero =>
          obtain rfl : x = z := by simpa using hz
          obtain rfl : y = w := by simpa using hw
          exact first
        | succ i => exact later i z w (by simpa using hz) (by simpa using hw)
      · rintro ⟨length, items⟩
        exact ⟨items 0 x y rfl rfl, by simpa using length,
          fun i z w hz hw => items (i + 1) z w (by simpa using hz) (by simpa using hw)⟩

theorem sameEntries_iff : sameEntries m n = true ↔
    ∀ k x, (k, x) ∈ m → ∃ y, n.get? k = some y ∧ x.same y = true := by
  induction m with
  | nil => simp [sameEntries]
  | cons e rest ih =>
    obtain ⟨l, z⟩ := e
    constructor
    · intro h k x mem
      rw [sameEntries, Bool.and_eq_true, ih] at h
      rcases List.mem_cons.1 mem with equal | mem
      · obtain ⟨rfl, rfl⟩ := Prod.mk.inj equal
        cases found : n.get? k with
        | none => simp [found] at h
        | some y => exact ⟨y, rfl, by simpa [found] using h.1⟩
      · exact h.2 k x mem
    · intro all
      obtain ⟨y, found, related⟩ := all l z (List.mem_cons_self ..)
      rw [sameEntries, Bool.and_eq_true, ih]
      exact ⟨by simpa [found] using related, fun k x mem => all k x (List.mem_cons_of_mem _ mem)⟩

/-- Where a mapping has a counterpart for every entry of another one of its length, the two have the
same keys. -/
theorem same_mapping_iff (hm : m.keys.Nodup) (hn : n.keys.Nodup) :
    (Value.mapping m).same (.mapping n) = true ↔ (∀ k, k ∈ m.keys ↔ k ∈ n.keys) ∧
      ∀ k x y, m.get? k = some x → n.get? k = some y → x.same y = true := by
  rw [same, Bool.and_eq_true, beq_iff_eq, sameEntries_iff]
  constructor
  · rintro ⟨length, counterparts⟩
    have subset : m.keys ⊆ n.keys := by
      intro k hk
      obtain ⟨x, hx⟩ := Mapping.mem_keys_iff.1 hk
      obtain ⟨y, hy, -⟩ := counterparts k x (Mapping.mem_of_get? hx)
      exact Mapping.mem_keys_of_get? hy
    have perm : m.keys.Perm n.keys :=
      (List.Nodup.subperm hm subset).perm_of_length_le (by simp [Mapping.keys, length])
    refine ⟨fun k => perm.mem_iff, fun k x y hx hy => ?_⟩
    obtain ⟨y', hy', related⟩ := counterparts k x (Mapping.mem_of_get? hx)
    obtain rfl : y = y' := Option.some.inj (hy.symm.trans hy')
    exact related
  · rintro ⟨keys, entries⟩
    have perm : m.keys.Perm n.keys := (List.perm_ext_iff_of_nodup hm hn).2 keys
    refine ⟨by simpa [Mapping.keys] using perm.length_eq, fun k x mem => ?_⟩
    have hx := (Mapping.get?_eq_some_iff hm).2 mem
    obtain ⟨y, hy⟩ := Mapping.mem_keys_iff.1 ((keys k).1 (Mapping.mem_keys_of_get? hx))
    exact ⟨y, hy, entries k x y hx hy⟩

theorem same_scalar_iff (ha : a.isContainer = false) :
    a.same b = true ↔ EqualBy (fun m n => m.same n = true) a b := by
  constructor
  · intro related
    cases a with
    | null =>
      cases b with
      | null => exact .null
      | _ => cases related
    | bool s =>
      cases b with
      | bool t =>
        obtain rfl : s = t := by simpa [same] using related
        exact .bool s
      | _ => cases related
    | number m =>
      cases b with
      | number n => exact .number related
      | _ => cases related
    | text s =>
      cases b with
      | text t =>
        obtain rfl : s = t := by simpa [same] using related
        exact .text s
      | _ => cases related
    | list _ | mapping _ => cases ha
  · rintro (_ | t | related | s)
    · rfl
    · exact beq_self_eq_true t
    · exact related
    · exact beq_self_eq_true s

theorem same_of_isContainer_ne (h : a.isContainer ≠ b.isContainer) : a.same b = false := by
  cases a <;> cases b <;> first | exact absurd rfl h | rfl

/-- **Equality by shapes and scalars.** -/
theorem same_iff_alike (ha : a.wellFormed = true) (hb : b.wellFormed = true) :
    a.same b = true ↔ a.Alike (EqualBy fun m n => m.same n = true) b := by
  induction a using nested_induction generalizing b with
  | scalar a scalar =>
    constructor
    · intro related
      have scalar' : b.isContainer = false := by
        by_contra container
        rw [same_of_isContainer_ne (by simp_all)] at related
        cases related
      exact .scalar scalar scalar' ((same_scalar_iff scalar).1 related)
    · intro alike
      cases alike with
      | scalar _ _ related => exact (same_scalar_iff scalar).2 related
      | _ => cases scalar
  | list xs ih =>
    rw [wellFormed_list] at ha
    have item {ys : List Value} (hys : (Value.list ys).wellFormed = true) {i : Nat} {x y : Value}
        (hx : xs[i]? = some x) (hy : ys[i]? = some y) :=
      ih x (List.mem_of_getElem? hx) (ha x (List.mem_of_getElem? hx))
        (wellFormed_list.1 hys y (List.mem_of_getElem? hy))
    constructor
    · intro related
      cases b with
      | list ys =>
        rw [same, sameItems_iff] at related
        exact .list related.1 fun i x y hx hy => (item hb hx hy).1 (related.2 i x y hx hy)
      | _ => cases related
    · intro alike
      cases alike with
      | scalar scalar => cases scalar
      | list length items =>
        rw [same, sameItems_iff]
        exact ⟨length, fun i x y hx hy => (item hb hx hy).2 (items i x y hx hy)⟩
  | mapping m ih =>
    obtain ⟨hm, ha⟩ := wellFormed_mapping.1 ha
    have entry {n : Mapping} (hn : (Value.mapping n).wellFormed = true) {k : String} {x y : Value}
        (hx : m.get? k = some x) (hy : n.get? k = some y) :=
      ih k x (Mapping.mem_of_get? hx) (ha k x (Mapping.mem_of_get? hx))
        ((wellFormed_mapping.1 hn).2 k y (Mapping.mem_of_get? hy))
    constructor
    · intro related
      cases b with
      | mapping n =>
        obtain ⟨keys, entries⟩ := (same_mapping_iff hm (wellFormed_mapping.1 hb).1).1 related
        exact .mapping keys fun k x y hx hy => (entry hb hx hy).1 (entries k x y hx hy)
      | _ => cases related
    · intro alike
      cases alike with
      | scalar scalar => cases scalar
      | mapping keys entries =>
        exact (same_mapping_iff hm (wellFormed_mapping.1 hb).1).2
          ⟨keys, fun k x y hx hy => (entry hb hx hy).2 (entries k x y hx hy)⟩

/-! ### Laws -/

theorem same_symm (ha : a.wellFormed = true) (hb : b.wellFormed = true) (h : a.same b = true) :
    b.same a = true := by
  rw [same_iff_alike ha hb] at h
  rw [same_iff_alike hb ha]
  exact h.symm fun x y => EqualBy.symm fun _ _ => Number.same_symm

theorem same_comm (ha : a.wellFormed = true) (hb : b.wellFormed = true) :
    a.same b = b.same a :=
  Bool.eq_iff_iff.2 ⟨same_symm ha hb, same_symm hb ha⟩

theorem same_trans (ha : a.wellFormed = true) (hb : b.wellFormed = true)
    (hc : c.wellFormed = true) (h : a.same b = true) (h' : b.same c = true) :
    a.same c = true := by
  rw [same_iff_alike ha hb] at h
  rw [same_iff_alike hb hc] at h'
  rw [same_iff_alike ha hc]
  refine h.trans (fun x y z related related' => ?_) h'
  exact related.trans (fun _ _ _ => Number.same_trans) related'

/-- A value is the same as itself, unless what is not a number stands in it. -/
theorem same_self_iff (ha : a.wellFormed = true) :
    a.same a = true ↔ ∀ path, a.resolve path ≠ some (.float .nan) := by
  rw [same_iff_alike ha ha, alike_self_iff]
  constructor
  · intro all path found
    cases all path _ found rfl with
    | number related => exact Number.same_self_iff.1 related rfl
  · intro free path x found scalar
    refine (equalBy_self_iff scalar).2 ?_
    rintro n rfl
    refine Number.same_self_iff.2 ?_
    rintro rfl
    exact free path found

/-- What is alike to a value down to equal scalars is the same as the same values. -/
theorem same_congr (ha : a.wellFormed = true) (hb : b.wellFormed = true)
    (hc : c.wellFormed = true) (h : a.Alike Eq b) : b.same c = a.same c := by
  refine Bool.eq_iff_iff.2 ⟨fun related => ?_, fun related => ?_⟩
  · rw [same_iff_alike hb hc] at related
    rw [same_iff_alike ha hc]
    exact h.trans (fun x y z equal => equal ▸ id) related
  · rw [same_iff_alike ha hc] at related
    rw [same_iff_alike hb hc]
    exact (h.symm fun x y => Eq.symm).trans (fun x y z equal => equal ▸ id) related

/-- The entries of a mapping anywhere in a value may be put in another order. -/
theorem same_update_perm (ha : a.wellFormed = true) (hb : b.wellFormed = true)
    (found : a.resolve path = some (.mapping m)) (perm : m.Perm n) :
    (a.update (fun _ => .mapping n) path).wellFormed = true ∧
      (a.update (fun _ => .mapping n) path).same b = a.same b := by
  obtain ⟨distinct, entries⟩ := wellFormed_mapping.1 (wellFormed_of_resolve ha found)
  have reordered : (Value.mapping n).wellFormed = true :=
    wellFormed_mapping.2 ⟨(perm.map Prod.fst).nodup_iff.1 distinct,
      fun k x mem => entries k x (perm.mem_iff.2 mem)⟩
  have wf := wellFormed_update ha found reordered
  exact ⟨wf, same_congr ha wf hb (alike_update found (.of_perm distinct perm))⟩

/-- **The laws of equality.** It is symmetric and transitive; a value is the same as itself unless
what is not a number stands in it; the order of the entries of a mapping does not matter, wherever
the mapping stands; truth values are no numbers, null is the same as null alone, and values that are
the same have one shape and scalars of one sort. -/
theorem same_partial_equivalence (ha : a.wellFormed = true) (hb : b.wellFormed = true)
    (hc : c.wellFormed = true) :
    a.same b = b.same a ∧
      (a.same b = true → b.same c = true → a.same c = true) ∧
      (a.same a = true ↔ ∀ path, a.resolve path ≠ some (.float .nan)) ∧
      (∀ path m n, a.resolve path = some (.mapping m) → m.Perm n →
        (a.update (fun _ => .mapping n) path).same b = a.same b ∧
          b.same (a.update (fun _ => .mapping n) path) = b.same a) ∧
      (∀ t n, (Value.bool t).same (.number n) = false ∧
        (Value.number n).same (.bool t) = false) ∧
      (Value.null.same a = true ↔ a = .null) ∧
      (a.same b = true → a.Alike OfOneSort b) := by
  refine ⟨same_comm ha hb, same_trans ha hb hc, same_self_iff ha, fun path m n found perm => ?_,
    fun t n => ⟨rfl, rfl⟩, ?_, fun related => ?_⟩
  · obtain ⟨wf, equal⟩ := same_update_perm ha hb found perm
    exact ⟨equal, by rw [same_comm hb wf, equal, same_comm ha hb]⟩
  · cases a <;> simp [same]
  · exact ((same_iff_alike ha hb).1 related).mono fun x y => EqualBy.ofOneSort

/-- A chain of three values: between the first two an integer becomes a binary64 number and two
entries change places, between the last two the number becomes an integer again. -/
theorem same_mixed_chain :
    let one : Value := .float (.finite false ⟨4503599627370496, -52, by decide⟩)
    let nested (n : Value) (entries : Mapping) : Value :=
      .mapping [("xs", .list [n, .mapping entries])]
    let p : String × Value := ("p", .null)
    let q : String × Value := ("q", .bool true)
    let a := nested (.int 1) [p, q]
    let b := nested one [q, p]
    let c := nested (.int 1) [q, p]
    (a.wellFormed = true ∧ b.wellFormed = true ∧ c.wellFormed = true) ∧
      a.same b = true ∧ b.same a = true ∧ a.same c = true ∧
      (∀ path, a.resolve path ≠ some (.float .nan)) ∧
      (a.update (fun _ => .mapping [q, p]) [.key "xs", .index 1]).same b = true ∧
      a.Alike OfOneSort b := by
  intro one nested p q a b c
  have ha : a.wellFormed = true := by decide
  have hb : b.wellFormed = true := by decide
  have hc : c.wellFormed = true := by decide
  have forth : a.same b = true := by decide +kernel
  obtain ⟨comm, trans, self, reordered, -, -, shape⟩ := same_partial_equivalence ha hb hc
  refine ⟨⟨ha, hb, hc⟩, forth, comm ▸ forth, trans forth (by decide +kernel),
    self.1 (by decide +kernel), ?_, shape forth⟩
  rw [(reordered [.key "xs", .index 1] [p, q] [q, p] rfl (.swap q p [])).1]
  exact forth

end Value

end PatchScript
