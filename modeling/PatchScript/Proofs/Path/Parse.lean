import PatchScript.Path.Spelling

/-!
# Segments of spelled paths

A spelling denotes keys, indices and append markers, and nothing else.

## Main results

* `Path.other_notMem_parse` — no segment of a spelled path is another value
-/

namespace PatchScript.Path

theorem segmentOf_ne_other (part : List Char) (v : Value) : segmentOf part ≠ .other v := by
  unfold segmentOf
  split
  · simp
  · split
    · simp
    · split <;> simp
  · simp

/-- No segment of a spelled path is another value. -/
theorem other_notMem_parse (text : String) (v : Value) : .other v ∉ parse text := by
  intro mem
  obtain ⟨part, -, equal⟩ := List.mem_map.1 mem
  exact segmentOf_ne_other part v equal

end PatchScript.Path
