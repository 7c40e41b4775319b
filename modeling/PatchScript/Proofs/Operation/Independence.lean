import PatchScript.Proofs.Operation.Locality

/-!
# Operations on different variables

The variables of a document are its root entries. Operations whose paths lead below different root
entries, and not to the constraints of the root, can change places: each sees the entries that it
reads as the other one found them, so the same becomes of it, also where it fails after a part of its
writing. The entries that the two make stand in the order in which they were made.

## Main definitions

* `Operation.roots` — the root entries below which the paths of an operation lead
* `Operation.Independent` — operations on different variables
* `Store.SameEntries` — stores that differ in the order of their root entries at most

## Main results

* `Operation.run_independent` — two operations on different variables, in either order
-/

namespace PatchScript

open Constraints (reservedKey)

/-! ### Entries in another order -/

/-- What is kept of two mappings and what is left out are their entries. -/
theorem Mapping.perm_of_only {m m' : Mapping} (keep : String → Bool)
    (kept : m.only keep = m'.only keep)
    (left : m.only (fun k => !keep k) = m'.only fun k => !keep k) : m.Perm m' := by
  have parts (m : Mapping) : (m.only keep ++ m.only fun k => !keep k).Perm m :=
    List.filter_append_perm _ m
  exact (parts m).symm.trans (kept ▸ left ▸ parts m')

/-- What is kept of less is kept of more. -/
theorem Mapping.only_only {keep keep' : String → Bool} (h : ∀ k, keep k = true → keep' k = true)
    (m : Mapping) : (m.only keep').only keep = m.only keep := by
  rw [only, only, only, List.filter_filter]
  refine List.filter_congr fun e _ => ?_
  cases kept : keep e.1 with
  | false => rfl
  | true => rw [h _ kept]; rfl

namespace Store

/-- Stores that differ in the order of their root entries at most. -/
structure SameEntries (s t : Store) : Prop where
  stat : s.stat.Perm t.stat
  display : s.display.Perm t.display
  delta : s.delta.Perm t.delta

theorem only_only {keep keep' : String → Bool} (h : ∀ k, keep k = true → keep' k = true)
    (s : Store) : (s.only keep').only keep = s.only keep := by
  simp only [only, Mapping.only_only h]

theorem sameEntries_of_only {s t : Store} (keep : String → Bool) (kept : s.only keep = t.only keep)
    (left : s.only (fun k => !keep k) = t.only fun k => !keep k) : s.SameEntries t := by
  simp only [only, mk.injEq] at kept left
  exact ⟨Mapping.perm_of_only keep kept.1 left.1, Mapping.perm_of_only keep kept.2.1 left.2.1,
    Mapping.perm_of_only keep kept.2.2 left.2.2⟩

end Store

/-! ### Independent operations -/

namespace Operation

variable {o o' : Operation} {regime : Regime} {s t : Store} {keep : String → Bool}

/-- The keys of the root entries below which the paths of an operation lead. -/
def roots (o : Operation) : List String := o.paths.filterMap Path.root?

/-- Whether no path of an operation is the root, and all of them are made of plain segments. -/
def IsPlain (o : Operation) : Prop := ∀ p ∈ o.paths, p ≠ [] ∧ ∀ q ∈ p, q.IsPlain

instance (o : Operation) : Decidable o.IsPlain :=
  inferInstanceAs (Decidable (∀ p ∈ o.paths, p ≠ [] ∧ ∀ q ∈ p, q.IsPlain))

/-- Operations with plain paths that lead below different root entries, and not to the constraints
of the root. -/
structure Independent (o o' : Operation) : Prop where
  plain : o.IsPlain
  plain' : o'.IsPlain
  apart : ∀ k ∈ o.roots, k ∉ o'.roots
  unreserved : reservedKey ∉ o.roots
  unreserved' : reservedKey ∉ o'.roots

theorem Independent.symm (h : o.Independent o') : o'.Independent o :=
  ⟨h.plain', h.plain, fun k hk hk' => h.apart k hk' hk, h.unreserved', h.unreserved⟩

theorem IsPlain.within (plain : o.IsPlain) (h : ∀ k ∈ o.roots, keep k = true) : o.Within keep :=
  fun p hp => ⟨(plain p hp).1, fun k hk => h k (List.mem_filterMap.2 ⟨p, hp, hk⟩)⟩

theorem IsPlain.head (plain : o.IsPlain) : ∀ q ∈ (Path.parse o.path).head?, q.IsPlain :=
  fun q hq => (plain _ (List.mem_cons_self ..)).2 q (List.mem_of_head? hq)

/-- Stores that agree on what an operation sees agree on it afterwards, and the same becomes of the
operation. -/
theorem run_congr (kept : keep reservedKey = true) (within : o.Within keep) (plain : o.IsPlain)
    (same : s.only keep = t.only keep) :
    (o.run regime s).1.only keep = (o.run regime t).1.only keep ∧
      (o.run regime s).2 = (o.run regime t).2 := by
  have runs := run_only kept within plain.head regime s
  rw [same, run_only kept within plain.head regime t] at runs
  obtain ⟨left, outcome⟩ := Prod.mk.inj runs
  exact ⟨left.symm, outcome.symm⟩

/-- What an operation sees stays as it was while an independent one runs. -/
theorem Independent.run_after (h : o.Independent o') (regime : Regime) (s : Store) :
    (o.run regime (o'.run regime s).1).1.only (fun k => !o'.roots.contains k) =
        (o.run regime s).1.only (fun k => !o'.roots.contains k) ∧
      (o.run regime (o'.run regime s).1).2 = (o.run regime s).2 := by
  have within : o.Within fun k => !o'.roots.contains k :=
    h.plain.within fun k hk => by simpa using h.apart k hk
  have outside : o'.Within fun k => !!o'.roots.contains k :=
    h.plain'.within fun k hk => by simpa using hk
  exact run_congr (by simpa using h.unreserved') within h.plain
    (only_run outside h.plain'.head regime s)

/-- **Operations on different variables are independent.** In either order the same becomes of each
of them, and the same entries are left in every projection. -/
theorem run_independent (h : o.Independent o') (regime : Regime) (s : Store) :
    (o'.run regime (o.run regime s).1).2 = (o'.run regime s).2 ∧
      (o.run regime (o'.run regime s).1).2 = (o.run regime s).2 ∧
      (o'.run regime (o.run regime s).1).1.SameEntries (o.run regime (o'.run regime s).1).1 := by
  obtain ⟨left, outcome⟩ := h.run_after regime s
  obtain ⟨left', outcome'⟩ := h.symm.run_after regime s
  refine ⟨outcome', outcome, Store.sameEntries_of_only (o'.roots.contains ·) ?_ ?_⟩
  · -- on its own entries the second operation does what it does alone, and the first one nothing
    have own : ∀ k, o'.roots.contains k = true → (!o.roots.contains k) = true := by
      intro k hk
      have : k ∉ o.roots := fun hk' => h.apart k hk' (by simpa using hk)
      simpa using this
    have outside : o.Within fun k => !(!o.roots.contains k) :=
      h.plain.within fun k hk => by simpa using hk
    have unseen := only_run outside h.plain.head regime (o'.run regime s).1
    have agree := congrArg (Store.only (o'.roots.contains ·)) (left'.trans unseen.symm)
    rwa [Store.only_only own, Store.only_only own] at agree
  · have outside : o'.Within fun k => !(!o'.roots.contains k) :=
      h.plain'.within fun k hk => by simpa using hk
    exact (only_run outside h.plain'.head regime (o.run regime s).1).trans left.symm

/-- An increment under a condition and a copy: the new variables stand in the order in which they
were made. -/
theorem run_independent_increment_copy :
    let o : Operation :=
      { path := "gold"
        guard := some (some [("path", .text "shop.open")])
        body := .increment (.int 5) }
    let o' : Operation := { path := "spare[0].name", body := .copy "hero" }
    let regime : Regime := ⟨true, ⟨512, 64⟩⟩
    let s : Store := .ofData [("shop", .mapping [("open", .bool true)]), ("hero", .text "Ada")]
    o.Independent o' ∧
      (o'.run regime (o.run regime s).1).2 = (o'.run regime s).2 ∧
        (o.run regime (o'.run regime s).1).2 = (o.run regime s).2 ∧
        (o'.run regime (o.run regime s).1).1.SameEntries (o.run regime (o'.run regime s).1).1 := by
  intro o o' regime s
  have independent : o.Independent o' :=
    ⟨by decide, by decide, by decide, by decide, by decide⟩
  exact ⟨independent, run_independent independent regime s⟩

end Operation

end PatchScript
