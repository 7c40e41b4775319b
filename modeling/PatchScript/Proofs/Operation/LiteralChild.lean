import PatchScript.Command.Call
import PatchScript.Proofs.Operation.RequiredKey
import PatchScript.Proofs.Path.ReadBack

/-!
# Children named apart

A child of a mapping can be named by a key that is given apart from the path. The key is meant
literally. An assignment, and the checks before a merge and before a removal, spell the path with
the key behind it and read that spelling again; the merge and the removal themselves do not. So the
key stays what it is exactly where the path with the key behind it is read back from its spelling.

## Main definitions

* `Operation.PutsUnder` — an operation that puts a value under one key of a mapping
* `StaysLiteral` — a key that is taken literally wherever it is spelled

## Main results

* `staysLiteral_iff` — the keys that are taken literally
-/

namespace PatchScript

variable {s : Store} {o : Operation} {regime : Regime} {P : Path} {m : Mapping} {k p : String}
  {v : Value}

namespace Operation

/-- The operation puts a value under a key of the mapping at a path, with the defaults of the
governing template where constraints are enforced, and changes nothing else; it is refused where
the mapping takes no such key. -/
structure PutsUnder (o : Operation) (P : Path) (k : String) (v : Value) : Prop where
  /-- It is refused where the mapping takes no such key. -/
  refused (s : Store) : o.refusal? s =
    ((Value.mapping s.stat).closedAt? (P ++ [.key k])).map (⟨o.path, ·⟩)
  /-- Otherwise the key has the value afterwards. -/
  put (regime : Regime) (s : Store) (m : Mapping) (found : s.lookup P = some (.mapping m))
    (admitted : regime.constrained = true → o.refusal? s = none) :
    Value.mapping (o.run regime s).1.stat = (Value.mapping s.stat).update (fun _ => .mapping
      (m.put k (if regime.constrained then
        (Value.mapping s.stat).withTemplate (P ++ [.key k]) v else v))) P

/-- An addition puts its value under the last key of its path. -/
theorem putsUnder_of_parse (path : Path.parse o.path = P ++ [.key k])
    (body : o.body = .add (some v)) (unguarded : o.guard? = none) : o.PutsUnder P k v where
  refused s := by
    simp only [refusal?, body, Store.closed?, path]
  put regime s m found admitted := by
    have due : o.isDue s = .ok true := by rw [isDue, unguarded]
    have last : (P ++ [Segment.key k]).getLast? = some (.key k) := by simp
    rw [run_of_due due admitted, stat_recordEffect, effect_eq]
    simp only [body, Effect.fst_changed, add, fst_report, path, Option.getD_some]
    rw [Store.insert_of_not_isIndexed last rfl, ← Store.mapping_stat_set_entry found]
    -- the store is that of the write, whether it succeeds or not
    split
    · next written => rw [written]
    · next failed => rw [failed]

end Operation

/-! ### Literal keys -/

/-- The key is taken literally behind the path wherever the two are spelled together. -/
structure StaysLiteral (p k : String) : Prop where
  /-- The spelling is read as the path and the key. -/
  joined : Path.parse (Path.extend p [.key k]) = Path.parse p ++ [.key k]
  /-- An assignment puts its value under the key of the mapping at the path. -/
  assigned (v : Value) : ∃ o : Operation,
    callRequest .assign [.text p, .text k, v] = .ok (.operations [o]) ∧
      o.PutsUnder (Path.parse p) k v
  /-- The check of a merge asks, among the keys that the merge writes, about this very key of the
  mapping that it changes. -/
  merged (s : Store) (o : Operation) (m before after : Mapping) (v : Value)
    (index : Option (Option Int)) (found : s.lookup (Path.parse p) = some (.mapping m))
    (path : o.path = p)
    (body : o.body = .modify .merge (some (.mapping (before ++ (k, v) :: after))) index) :
    o.refusal? s = (s.mergeRefusal? p (.mapping before) <|>
      ((Value.mapping s.stat).closedAt? (Path.parse p ++ [.key k])).map
        (⟨Path.extend p [.key k], ·⟩) <|> s.mergeRefusal? p (.mapping after)) ∧
    ∀ regime, (o.effect regime s).1.lookup (Path.parse p) =
      some (.mapping (m.merge (before ++ (k, v) :: after)))
  /-- The check of a removal asks about the very entry that the removal deletes. -/
  removed (s : Store) (o : Operation) (m : Mapping) (name : ChildName)
    (found : s.lookup (Path.parse p) = some (.mapping m)) (path : o.path = p)
    (body : o.body = .remove (some (some name))) (label : name.label = k) :
    o.removedAt s (some name) = .ok (Path.parse p ++ [.key k]) ∧
      o.refusal? s = ((Value.mapping s.stat).requiredAt? (Path.parse p ++ [.key k])).map
        (⟨Path.extend p [.key k], ·⟩)

/-- The check of a merge goes through the keys in their order. -/
theorem Store.mergeRefusal?_append (found : s.lookup (Path.parse p) = some (.mapping m))
    (before after : Mapping) (v : Value) :
    s.mergeRefusal? p (.mapping (before ++ (k, v) :: after)) =
      (s.mergeRefusal? p (.mapping before) <|> s.closed? (Path.extend p [.key k]) <|>
        s.mergeRefusal? p (.mapping after)) := by
  simp only [mergeRefusal?, found, List.findSome?_append, List.findSome?_cons]
  cases s.closed? (Path.extend p [.key k]) <;> simp

/-- A merge leaves the merged mapping at its path. -/
theorem Operation.lookup_effect_merge {added : Mapping} {index : Option (Option Int)}
    (found : s.lookup (Path.parse o.path) = some (.mapping m))
    (body : o.body = .modify .merge (some (.mapping added)) index) (regime : Regime) :
    (o.effect regime s).1.lookup (Path.parse o.path) = some (.mapping (m.merge added)) := by
  rw [effect_eq]
  simp only [body, Effect.fst_changed, modify, found, edited, Option.getD_some, if_true]
  rw [Store.lookup_eq] at found ⊢
  rw [Store.mapping_stat_update s _ _ fun _ => ⟨_, rfl⟩, Value.resolve_update found]

/-- It is enough that the spelling is read as the path and the key. -/
theorem StaysLiteral.of_joined
    (path : Path.parse (Path.extend p [.key k]) = Path.parse p ++ [.key k]) : StaysLiteral p k where
  joined := path
  assigned v := ⟨Shorthand.addValue (Path.extend p [.key k]) v, rfl,
    Operation.putsUnder_of_parse path rfl rfl⟩
  merged := by
    rintro s o m before after v index found rfl body
    refine ⟨?_, Operation.lookup_effect_merge found body⟩
    simp only [Operation.refusal?, body, Option.getD_some, Store.mergeRefusal?_append found,
      Store.closed?, path]
  removed := by
    rintro s o m name found rfl body rfl
    constructor
    · unfold Operation.removedAt
      dsimp only
      rw [found]
    · have asked := Store.removedPath_of_mapping found name
      simp only [Operation.refusal?, body, Option.join_some, asked, Store.required?, path]

/-- **A key is taken literally** behind a path exactly where the path with the key behind it is read
back from its canonical spelling. -/
theorem staysLiteral_iff (p k : String) :
    StaysLiteral p k ↔ Path.ReadsBack (Path.parse p ++ [.key k]) := by
  rw [← Path.parse_canonical_iff]
  exact ⟨fun literal => literal.joined, fun joined => .of_joined joined⟩

/-- The empty key is lost behind its path. -/
theorem empty_key_lost : ¬ ∀ p k, StaysLiteral p k := by
  intro literal
  have joined := (literal "a" "").joined
  revert joined
  decide

/-- Keys without dividing characters are taken literally behind each other. -/
theorem staysLiteral_of_plain (plain : ∀ seg ∈ Path.parse p, seg.IsPlain)
    (hk : Path.PlainKey k.toList) : StaysLiteral p k :=
  .of_joined (Path.parse_canonical (by simpa [or_imp, forall_and] using ⟨plain, hk⟩))

end PatchScript
