import PatchScript.Proofs.Path.Canonical

/-!
# The first segment of a canonical spelling

The canonical spelling of a path need not be read as the path: a key with a dot in it is read as
two, and so on. The first segment alone is read back as soon as it is plain, whatever follows it. So
a change that names a location names the root entry of that location.

## Main results

* `Path.parse_canonical_cons` — the first segment of a path is read back from its spelling
-/

namespace PatchScript.Path

open Text

variable {s t : Segment} {rest : Path}

/-- What follows the first segment in a spelling ends it. -/
theorem trimRight_spelledAfter (t : Segment) (more : List Char) :
    ∃ c behind, trimRight (spelledAfter t ++ more) = c :: behind ∧
      (c = '.' ∨ c = '[' ∧ ']' ∈ behind) := by
  obtain ⟨-, -, after⟩ | ⟨k, -, -, -, after⟩ := spelled_cases t
  · rw [after]
    simp only [List.cons_append, trimRight_cons (show isBlank '[' = false by decide)]
    exact ⟨'[', _, rfl, .inr ⟨rfl, mem_trimRight (by decide) (by simp)⟩⟩
  · rw [after]
    simp only [List.cons_append, trimRight_cons (show isBlank '.' = false by decide)]
    exact ⟨'.', _, rfl, .inl rfl⟩

/-- The first segment is read back, whatever follows it. -/
theorem segmentsOf_dottedParts_spelledFirst (plain : s.IsPlain) {c : Char} {behind : List Char}
    (ends : c = '.' ∨ c = '[' ∧ ']' ∈ behind) :
    ∃ rest, segmentsOf (dottedParts (spelledFirst s ++ c :: behind) []) = s :: rest := by
  obtain ⟨bracketed, first, -⟩ | ⟨k, rfl, bare, first, -⟩ := spelled_cases s
  · rw [first, List.append_assoc, List.singleton_append,
      dottedParts_bracket (closing_notMem_content plain bracketed), segmentsOf_cons,
      segmentsOf_cons (bracketPart _), segmentsOf_bracketPart plain bracketed]
    exact ⟨_, rfl⟩
  · rw [first, dottedParts_undivided (undivided_of_isPlain plain), dottedParts]
    obtain rfl | ⟨rfl, closed⟩ := ends
    · rw [if_pos rfl, segmentsOf_cons]
      exact ⟨_, by simp [segmentsOf_bare plain bare]; rfl⟩
    · rw [if_neg (by decide), if_pos (by simpa using closed), segmentsOf_cons]
      exact ⟨_, by simp [segmentsOf_bare plain bare]; rfl⟩

/-- **The first segment of a path is read back from the canonical spelling**, whatever the other
segments are. -/
theorem parse_canonical_cons (plain : s.IsPlain) (rest : Path) :
    ∃ rest', parse (canonical (s :: rest)) = s :: rest' := by
  cases rest with
  | nil => exact ⟨[], parse_canonical (by simpa using plain)⟩
  | cons t rest =>
    obtain ⟨c, behind, kept, ends⟩ := trimRight_spelledAfter t (rest.flatMap spelledAfter)
    have head := isBlank_head_spelledFirst plain
    have trimmed : trim (canonicalChars (s :: t :: rest)) = spelledFirst s ++ c :: behind := by
      obtain ⟨d, others, start⟩ := List.exists_cons_of_ne_nil (spelledFirst_ne_nil plain)
      rw [canonicalChars_cons plain, List.flatMap_cons, trim, start]
      rw [start] at head
      rw [trimLeft, List.cons_append, List.dropWhile_cons_of_neg (by simp [head d rfl]),
        ← List.cons_append, trimRight_append (by simp [kept]), kept]
    have dotted : usesSlashes (spelledFirst s ++ c :: behind) = false := by
      have free : '/' ∉ spelledFirst s := by
        rw [← spell_nil]
        exact slash_notMem_spell plain (by simp)
      have first : (spelledFirst s ++ c :: behind).head? ≠ some '/' := by
        rw [List.head?_append_of_ne_nil _ (spelledFirst_ne_nil plain)]
        exact fun slash => free (List.mem_of_head? slash)
      rw [usesSlashes, beq_eq_false_iff_ne.2 first]
      obtain rfl | ⟨rfl, -⟩ := ends <;> simp
    obtain ⟨rest', read⟩ := segmentsOf_dottedParts_spelledFirst plain ends
    refine ⟨rest', ?_⟩
    rw [parse, canonical, String.toList_ofList, parseChars, trimmed, parts, dotted]
    exact read

end PatchScript.Path
