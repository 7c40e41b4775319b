import PatchScript.Proofs.Document.Update
import PatchScript.Proofs.Path.Canonical
import PatchScript.Store.Basic

/-!
# Keys behind a dot

An entry of a mapping is addressed by the canonical spelling of the mapping, a dot, and the key as
it stands. That works for every key without dividing characters, but for one kind: a key that is
read as an integer is searched for by the usual text of that integer. A key written otherwise, with
zeros in front, with a minus sign before zero, or in the digits of another script, is then not the
key that is searched for.

## Main definitions

* `Path.dotted` — the plain spelling of an entry

## Main results

* `Path.parse_dotted` — how a plain spelling is read
* `Store.lookup_dotted_eq_some_iff` — when the entry is found under it
-/

namespace PatchScript

namespace Path

open Text

variable {path : Path} {k : String}

/-- The spelling of an entry with the key as it stands, behind that of its mapping. -/
def dotted (path : Path) (k : String) : String :=
  if path = [] then k else canonical path ++ "." ++ k

theorem toList_dotted (path : Path) (k : String) :
    (dotted path k).toList =
      canonicalChars path ++ if path = [] then k.toList else '.' :: k.toList := by
  rw [dotted]
  split
  · next root => simp [root, canonicalChars]
  · simp [canonical]

theorem dottedParts_plainKey {k : List Char} (plain : PlainKey k) : dottedParts k [] = [k] := by
  have read := dottedParts_undivided
    (fun c hc => ⟨(plain.undivided c hc).1, (plain.undivided c hc).2.2⟩) [] []
  simpa [dottedParts] using read

theorem trim_dotted (plain : ∀ s ∈ path, s.IsPlain) (hk : PlainKey k.toList) :
    trim (dotted path k).toList = (dotted path k).toList := by
  obtain ⟨first, last⟩ := trim_eq_self_iff.1 hk.trim_eq
  obtain ⟨front, -⟩ := trim_eq_self_iff.1 (trim_canonicalChars plain)
  rw [toList_dotted, trim_eq_self_iff]
  split
  · next root =>
    rw [root, show canonicalChars [] = [] from rfl, List.nil_append]
    exact ⟨first, last⟩
  · next below =>
    obtain ⟨s, rest, rfl⟩ := List.exists_cons_of_ne_nil below
    have some_text : canonicalChars (s :: rest) ≠ [] := by
      simp [canonicalChars_cons (plain s (by simp)), spelledFirst_ne_nil (plain s (by simp))]
    rw [List.head?_append_of_ne_nil _ some_text, List.getLast?_append_of_ne_nil _ (by simp),
      List.getLast?_cons_of_ne_nil hk.ne_nil]
    exact ⟨front, last⟩

/-- A plain spelling is read as the path of the mapping, and then what the key alone is read as. -/
theorem parse_dotted (plain : ∀ s ∈ path, s.IsPlain) (hk : PlainKey k.toList) :
    parse (dotted path k) = path ++ [segmentOf k.toList] := by
  have unslashed : '/' ∉ (dotted path k).toList := by
    have slash : '/' ∉ k.toList := fun hc => (hk.undivided _ hc).2.1 rfl
    rw [toList_dotted]
    split <;> simp [slash_notMem_canonicalChars plain, slash]
  have key : segmentsOf (dottedParts k.toList []) = [segmentOf k.toList] := by
    rw [dottedParts_plainKey hk, segmentsOf_part hk.ne_nil hk.trim_eq]
  rw [parse, parseChars, trim_dotted plain hk, parts, usesSlashes_eq_false unslashed,
    if_neg (by simp), toList_dotted]
  split
  · next root =>
    subst root
    exact key
  · rw [segmentsOf_dottedParts_canonicalChars plain (by simp), dottedParts, if_pos rfl,
      segmentsOf_cons, List.reverse_nil, segmentsOf_nil_part, List.nil_append, key]

theorem toList_ne_hyphen (hyphen : k ≠ "-") : k.toList ≠ ['-'] := by
  intro same
  exact hyphen (by rw [← String.ofList_toList (s := k), same])

/-- The text by which a key is searched for: its own, or the usual one of an integer. -/
theorem label_segmentOf (hk : PlainKey k.toList) (hyphen : k ≠ "-") :
    (segmentOf k.toList).label = match integer? k.toList with
      | some i => Segment.indexText i
      | none => k := by
  rw [segmentOf_unmarked hk.ne_nil (toList_ne_hyphen hyphen) hk.unmarked]
  cases integer? k.toList <;> simp [Segment.label]

theorem segmentOf_ne_append (hk : PlainKey k.toList) (hyphen : k ≠ "-") :
    segmentOf k.toList ≠ .append := by
  rw [segmentOf_unmarked hk.ne_nil (toList_ne_hyphen hyphen) hk.unmarked]
  cases integer? k.toList <;> simp

end Path

namespace Store

variable {s : Store} {source : Source} {path : Path} {m : Mapping} {k : String} {v : Value}

/-- **An entry is found under its plain spelling** unless its key is read as an integer under whose
usual text the mapping holds something else, or nothing. -/
theorem lookup_dotted_eq_some_iff (plain : ∀ seg ∈ path, seg.IsPlain)
    (hm : s.lookup path source = some (.mapping m)) (hk : Path.PlainKey k.toList)
    (hyphen : k ≠ "-") (hv : m.get? k = some v) :
    s.lookup (Path.parse (Path.dotted path k)) source = some v ↔
      ∀ i, Path.integer? k.toList = some i → m.get? (Segment.indexText i) = some v := by
  have found : s.lookup (Path.parse (Path.dotted path k)) source =
      m.get? (Path.segmentOf k.toList).label := by
    have step := Value.child?_mapping (Path.segmentOf_ne_append hk hyphen) m
    rw [lookup] at hm ⊢
    rw [Path.parse_dotted plain hk, Value.resolve_append, hm, Option.bind_some, Value.resolve,
      step]
    cases m.get? (Path.segmentOf k.toList).label <;> rfl
  rw [found, Path.label_segmentOf hk hyphen]
  cases Path.integer? k.toList with
  | none => simp [hv]
  | some i => simp

/-- An entry deep down, whose key is a number in its usual text. -/
theorem lookup_dotted_usual_number :
    let s : Store := .ofData
      [("a", .list [.mapping [("01", .mapping [("-5", .text "x"), ("]", .null)])]])]
    let path : Path := [.key "a", .index 0, .key "01"]
    let m : Mapping := [("-5", .text "x"), ("]", .null)]
    (∀ seg ∈ path, seg.IsPlain) ∧ s.lookup path = some (.mapping m) ∧
      Path.PlainKey "-5".toList ∧ "-5" ≠ "-" ∧ m.get? "-5" = some (.text "x") ∧
      Path.dotted path "-5" = "a[0][\"01\"].-5" ∧
      s.lookup (Path.parse (Path.dotted path "-5")) = some (.text "x") := by
  intro s path m
  have plain : ∀ seg ∈ path, seg.IsPlain := by decide
  have hm : s.lookup path = some (.mapping m) := by decide
  have usual (i : Int) (read : Path.integer? "-5".toList = some i) :
      m.get? (Segment.indexText i) = some (.text "x") := by
    obtain rfl : -5 = i := Option.some.inj read
    decide
  exact ⟨plain, hm, by decide, by decide, by decide, by decide,
    (lookup_dotted_eq_some_iff plain hm (by decide) (by decide) (by decide)).2 usual⟩

/-- A key with a zero in front is not found. -/
theorem lookup_dotted_zero_in_front :
    ¬ ∀ (s : Store) (source : Source) (path : Path) (m : Mapping) (k : String) (v : Value),
      (∀ seg ∈ path, seg.IsPlain) → s.lookup path source = some (.mapping m) →
      Path.PlainKey k.toList → k ≠ "-" → m.get? k = some v →
      s.lookup (Path.parse (Path.dotted path k)) source = some v := by
  intro always
  have found := always (.ofData [("01", .null)]) .stat [] [("01", .null)] "01" .null (by simp)
    (by decide) (by decide) (by decide) (by decide)
  revert found
  decide

end Store

end PatchScript
