import PatchScript.Command.Text
import PatchScript.Proofs.Text.Cut

/-!
# Blocks of a growing text

Blocks are closed from the left, and what has been closed stays closed when the text grows: the
blocks of a longer text are those of the front, followed by the blocks of what was left over
together with the rest. The pieces between closed blocks hold no opening marker, so they can be
glued together again with line feeds without making or losing a block, as long as no line feed
stands in the marker itself.

## Main results

* `Markers.closedBlocks_append` — the blocks of a longer text
* `Markers.not_infix_before_of_mem` — no opening marker stands in front of a block
* `scanBlocks_of_not_infix`, `scanBlocks_closed` — a text without blocks, and one that is a block
* `scanBlocks_eq`, `scanBlocks_joinLines` — a text and the glued pieces of it leave the same rest
-/

namespace PatchScript

namespace Markers

variable {m : Markers} {text rest : List Char} {b : Block}

/-! ### Closing one block after the other -/

theorem closedBlocks_of_none (h : m.nextBlock? text = none) : m.closedBlocks text = ([], text) := by
  rw [closedBlocks]
  split
  · rfl
  · split
    · rfl
    · simp_all

theorem closedBlocks_of_some (hm : m.opening ≠ []) (h : m.nextBlock? text = some (b, rest)) :
    m.closedBlocks text = (b :: (m.closedBlocks rest).1, (m.closedBlocks rest).2) := by
  rw [closedBlocks, if_neg hm]
  split <;> simp_all

theorem closedBlocks_of_opening_eq_nil (hm : m.opening = []) :
    m.closedBlocks text = ([], text) := by
  rw [closedBlocks, if_pos hm]

theorem nextBlock?_eq_some_iff :
    m.nextBlock? text = some (b, rest) ↔
      ∃ opened, Text.cut? m.opening text = some (b.before, opened) ∧
        Text.cut? m.closing opened = some (b.body, rest) := by
  constructor
  · intro h
    rw [nextBlock?] at h
    split at h
    · cases h
    · next before opened hopen =>
      split at h
      · cases h
      · next body rest' hclose =>
        obtain ⟨rfl, rfl⟩ : (⟨before, body⟩ : Block) = b ∧ rest' = rest := by simpa using h
        exact ⟨opened, hopen, hclose⟩
  · rintro ⟨opened, hopen, hclose⟩
    simp [nextBlock?, hopen, hclose]

theorem nextBlock?_append (h : m.nextBlock? text = some (b, rest)) (more : List Char) :
    m.nextBlock? (text ++ more) = some (b, rest ++ more) := by
  obtain ⟨opened, hopen, hclose⟩ := nextBlock?_eq_some_iff.1 h
  exact nextBlock?_eq_some_iff.2
    ⟨opened ++ more, Text.cut?_append hopen more, Text.cut?_append hclose more⟩

/-- The text of a block, up to its closing marker, has that block and nothing else. -/
theorem nextBlock?_front (h : m.nextBlock? text = some (b, rest)) :
    m.nextBlock? (b.before ++ m.opening ++ (b.body ++ m.closing)) = some (b, []) := by
  obtain ⟨opened, hopen, hclose⟩ := nextBlock?_eq_some_iff.1 h
  exact nextBlock?_eq_some_iff.2 ⟨b.body ++ m.closing,
    Text.cut?_append (Text.cut?_front hopen) _, Text.cut?_front hclose⟩

theorem eq_append_of_nextBlock? (h : m.nextBlock? text = some (b, rest)) :
    text = b.before ++ m.opening ++ (b.body ++ m.closing) ++ rest := by
  obtain ⟨opened, hopen, hclose⟩ := nextBlock?_eq_some_iff.1 h
  rw [Text.eq_append_of_cut? hopen, Text.eq_append_of_cut? hclose]
  simp only [List.append_assoc]

/-- Induction on the closed blocks of a text. -/
theorem closedBlocks_induction (m : Markers) (hm : m.opening ≠ [])
    {motive : List Char → Prop}
    (last : ∀ text, m.nextBlock? text = none → motive text)
    (block : ∀ text b rest, m.nextBlock? text = some (b, rest) → motive rest → motive text)
    (text : List Char) : motive text := by
  induction hn : text.length using Nat.strong_induction_on generalizing text with
  | h n ih =>
    cases next : m.nextBlock? text with
    | none => exact last text next
    | some found =>
      obtain ⟨b, rest⟩ := found
      have shorter : rest.length < text.length := by
        have := length_of_nextBlock? next
        have : 0 < m.opening.length := List.length_pos_iff.2 hm
        simp only [span] at *
        omega
      exact block text b rest next (ih rest.length (hn ▸ shorter) rest rfl)

/-- The blocks of a longer text are those of the front, and then those of what was left over
together with the rest. -/
theorem closedBlocks_append (m : Markers) (text more : List Char) :
    m.closedBlocks (text ++ more) =
      ((m.closedBlocks text).1 ++ (m.closedBlocks ((m.closedBlocks text).2 ++ more)).1,
        (m.closedBlocks ((m.closedBlocks text).2 ++ more)).2) := by
  by_cases hm : m.opening = []
  · simp [closedBlocks_of_opening_eq_nil hm]
  induction text using closedBlocks_induction m hm with
  | last text next => simp [closedBlocks_of_none next]
  | block text b rest next ih =>
    rw [closedBlocks_of_some hm (nextBlock?_append next more), closedBlocks_of_some hm next, ih]
    rfl

/-- What is left over holds no closed block. -/
theorem nextBlock?_tail (hm : m.opening ≠ []) (text : List Char) :
    m.nextBlock? (m.closedBlocks text).2 = none := by
  induction text using closedBlocks_induction m hm with
  | last text next => rw [closedBlocks_of_none next, next]
  | block text b rest next ih => rw [closedBlocks_of_some hm next, ih]

theorem closedBlocks_nil (m : Markers) : m.closedBlocks [] = ([], []) := by
  by_cases hm : m.opening = []
  · exact closedBlocks_of_opening_eq_nil hm
  · refine closedBlocks_of_none (Option.eq_none_iff_forall_ne_some.2 fun _ next => hm ?_)
    have := length_of_nextBlock? next
    exact List.eq_nil_of_length_eq_zero (by simp only [span, List.length_nil] at this; omega)

theorem closedBlocks_tail (m : Markers) (text : List Char) :
    m.closedBlocks (m.closedBlocks text).2 = ([], (m.closedBlocks text).2) := by
  by_cases hm : m.opening = []
  · exact closedBlocks_of_opening_eq_nil hm
  · exact closedBlocks_of_none (nextBlock?_tail hm text)

/-- No opening marker stands in front of a block. -/
theorem not_infix_before_of_mem (h : b ∈ (m.closedBlocks text).1) :
    ¬ m.opening <:+: b.before := by
  by_cases hm : m.opening = []
  · simp [closedBlocks_of_opening_eq_nil hm] at h
  induction text using closedBlocks_induction m hm with
  | last text next => simp [closedBlocks_of_none next] at h
  | block text b' rest next ih =>
    rw [closedBlocks_of_some hm next] at h
    obtain ⟨opened, hopen, -⟩ := nextBlock?_eq_some_iff.1 next
    rcases List.mem_cons.1 h with rfl | later
    · exact Text.not_infix_before hm hopen
    · exact ih later

end Markers

/-! ### Glued pieces -/

theorem joinLines_cons {piece : List Char} {pieces : List (List Char)} (h : pieces ≠ []) :
    joinLines (piece :: pieces) = piece ++ '\n' :: joinLines pieces := by
  cases pieces with
  | nil => exact absurd rfl h
  | cons next pieces => rfl

/-- Pieces without the marker are searched past. -/
theorem cut?_joinLines {marker : List Char} (hline : '\n' ∉ marker) (pieces : List (List Char))
    (tail : List Char) (h : ∀ piece ∈ pieces, ¬ marker <:+: piece) :
    Text.cut? marker (joinLines (pieces ++ [tail])) =
      (Text.cut? marker tail).map fun found =>
        (joinLines (pieces ++ [found.1]), found.2) := by
  induction pieces with
  | nil => simp [joinLines]
  | cons piece pieces ih =>
    have first := h piece (by simp)
    have others := ih fun p hp => h p (by simp [hp])
    rw [List.cons_append, joinLines_cons (by simp), Text.cut?_append_cons hline first, others,
      Option.map_map]
    simp [Function.comp_def, joinLines_cons]

/-- The bodies that a scan finds after the closed blocks: the text of the one that is left open. -/
def openBodies (m : Markers) (tail : List Char) : List (List Char) :=
  ((Text.cut? m.opening tail).map Prod.snd).toList

/-- The text before a block that is left open. -/
def closedFront (m : Markers) (tail : List Char) : List Char :=
  ((Text.cut? m.opening tail).map Prod.fst).getD tail

theorem scanBlocks_eq (m : Markers) (text : List Char) :
    scanBlocks m true text =
      ⟨(m.closedBlocks text).1.map Block.body ++ openBodies m (m.closedBlocks text).2,
        joinLines ((m.closedBlocks text).1.map Block.before ++
          [closedFront m (m.closedBlocks text).2])⟩ := by
  rw [scanBlocks, openBodies, closedFront]
  cases h : Text.cut? m.opening (m.closedBlocks text).2 <;> simp [h]

/-- A text without the opening marker is outside of the blocks. -/
theorem scanBlocks_of_not_infix {m : Markers} {text : List Char} (h : ¬ m.opening <:+: text) :
    scanBlocks m true text = ⟨[], text⟩ := by
  have not_found := Text.cut?_eq_none_iff.2 h
  have closed : m.closedBlocks text = ([], text) :=
    Markers.closedBlocks_of_none (by rw [Markers.nextBlock?, not_found])
  simp [scanBlocks_eq, closed, openBodies, closedFront, not_found, joinLines]

/-- A text that is a closed block leaves the line feed between its empty ends. -/
theorem scanBlocks_closed {m : Markers} {body : List Char} (hm : m.opening ≠ [])
    (closed : Text.cut? m.closing (body ++ m.closing) = some (body, [])) :
    scanBlocks m true (m.opening ++ (body ++ m.closing)) = ⟨[body], ['\n']⟩ := by
  have next : m.nextBlock? (m.opening ++ (body ++ m.closing)) = some (⟨[], body⟩, []) :=
    Markers.nextBlock?_eq_some_iff.2 ⟨_, Text.cut?_marker_append hm _, closed⟩
  simp [scanBlocks_eq, Markers.closedBlocks_of_some hm next, Markers.closedBlocks_nil, openBodies,
    closedFront, Text.cut?, hm, joinLines]

/-- Where the search in the glued pieces goes on in what was left over, they hold no closed block
either. -/
theorem closedBlocks_joinLines {m : Markers} {text : List Char} {pieces : List (List Char)}
    (found : Text.cut? m.opening (joinLines (pieces ++ [(m.closedBlocks text).2])) =
      (Text.cut? m.opening (m.closedBlocks text).2).map fun found =>
        (joinLines (pieces ++ [found.1]), found.2)) :
    m.closedBlocks (joinLines (pieces ++ [(m.closedBlocks text).2])) =
      ([], joinLines (pieces ++ [(m.closedBlocks text).2])) := by
  by_cases hm : m.opening = []
  · exact Markers.closedBlocks_of_opening_eq_nil hm
  refine Markers.closedBlocks_of_none (Option.eq_none_iff_forall_ne_some.2 ?_)
  rintro ⟨b, rest⟩ next
  obtain ⟨opened, hopen, hclose⟩ := Markers.nextBlock?_eq_some_iff.1 next
  rw [found, Option.map_eq_some_iff] at hopen
  obtain ⟨⟨before, opened'⟩, hopen, equal⟩ := hopen
  obtain ⟨-, rfl⟩ : _ ∧ opened' = opened := by simpa using equal
  have := Markers.nextBlock?_eq_some_iff (b := ⟨before, b.body⟩) |>.2 ⟨opened', hopen, hclose⟩
  rw [Markers.nextBlock?_tail hm] at this
  cases this

/-- **Gluing makes and loses no block.** The pieces between the closed blocks of a text, glued with
line feeds, hold no closed block, and they leave the same open block and the same rest as the text
itself. -/
theorem scanBlocks_joinLines (m : Markers) (hline : '\n' ∉ m.opening) (text : List Char) :
    scanBlocks m true
        (joinLines ((m.closedBlocks text).1.map Block.before ++ [(m.closedBlocks text).2])) =
      ⟨openBodies m (m.closedBlocks text).2, (scanBlocks m true text).remainder⟩ := by
  have found := cut?_joinLines hline ((m.closedBlocks text).1.map Block.before)
    (m.closedBlocks text).2 (by
      simp only [List.mem_map, forall_exists_index, and_imp, forall_apply_eq_imp_iff₂]
      exact fun b => Markers.not_infix_before_of_mem)
  have closed := closedBlocks_joinLines found
  rw [scanBlocks_eq, closed, scanBlocks_eq, openBodies, closedFront, found, openBodies,
    closedFront]
  cases Text.cut? m.opening (m.closedBlocks text).2 <;> simp [joinLines]

end PatchScript
