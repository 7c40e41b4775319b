import PatchScript.Proofs.Command.Blocks

/-!
# Cutting a text into blocks

A text is cut into its blocks in one way only: every opening marker is the first one after the block
before, and every closing marker the first one after its opening marker. Whatever the markers look
like, whether they overlap themselves or each other, and whether a block holds further opening
markers, no character is lost, and nothing is left to be cut. The scan finds this cutting.

## Main definitions

* `Text.OccursFirst` — an occurrence of a marker that is the first one
* `BlockCut`, `Markers.IsCut` — the parts of a text, and what makes them its cutting

## Main results

* `Text.cut?_eq_some_iff` — the search finds the first occurrence
* `Markers.isCut_iff` — a text has one cutting
* `scanBlocks_cut` — the scan returns the bodies of the cutting, and the rest of it line by line
-/

namespace PatchScript

namespace Text

variable {marker text before after : List Char}

/-- The occurrence of a marker between `before` and `after` is the first one in the text that they
make up. -/
def OccursFirst (marker before after : List Char) : Prop :=
  ∀ front rest, front ++ marker ++ rest = before ++ marker ++ after → before.length ≤ front.length

/-- What the search finds is the first occurrence, -/
theorem occursFirst_of_cut? (h : cut? marker text = some (before, after)) :
    OccursFirst marker before after := by
  intro front rest same
  rw [← eq_append_of_cut? h] at same
  -- the search finds an occurrence in the text up to the end of this one
  obtain ⟨⟨before', after'⟩, found⟩ : ∃ cut, cut? marker (front ++ marker) = some cut := by
    rw [← Option.ne_none_iff_exists', Ne, cut?_eq_none_iff, not_not]
    exact (List.suffix_append front marker).isInfix
  have whole := cut?_append found rest
  rw [same, h] at whole
  obtain ⟨rfl, -⟩ : before = before' ∧ _ := by simpa using whole
  have := congrArg List.length (eq_append_of_cut? found)
  simp only [List.length_append] at this
  omega

/-- and the first occurrence is what the search finds. -/
theorem cut?_eq_some_iff :
    cut? marker text = some (before, after) ↔
      text = before ++ marker ++ after ∧ OccursFirst marker before after := by
  constructor
  · intro h
    exact ⟨eq_append_of_cut? h, occursFirst_of_cut? h⟩
  · rintro ⟨rfl, first⟩
    obtain ⟨⟨before', after'⟩, found⟩ :
        ∃ cut, cut? marker (before ++ marker ++ after) = some cut := by
      rw [← Option.ne_none_iff_exists', Ne, cut?_eq_none_iff, not_not]
      exact List.infix_append before marker after
    have same := eq_append_of_cut? found
    have shorter := first before' after' same.symm
    have longer := occursFirst_of_cut? found before after same
    rw [List.append_assoc, List.append_assoc] at same
    obtain ⟨rfl, behind⟩ := List.append_inj same (Nat.le_antisymm shorter longer)
    rw [found, List.append_cancel_left behind]

end Text

/-- The parts into which a text is cut: its closed blocks with the text before each of them, the
text after the last one, and the text of a block that is left open. -/
structure BlockCut where
  blocks : List Block
  last : List Char
  opened : Option (List Char)
deriving DecidableEq

namespace Markers

variable {m : Markers} {text rest : List Char} {b : Block} {c : BlockCut}

/-- The text that parts with their markers make up. -/
def assembled (m : Markers) (blocks : List Block) (last : List Char)
    (opened : Option (List Char)) : List Char :=
  (blocks.flatMap fun b => b.before ++ m.opening ++ b.body ++ m.closing) ++ last ++
    (opened.map (m.opening ++ ·)).getD []

/-- The parts make up the text, with every marker at its first occurrence. -/
structure IsCut (m : Markers) (text : List Char) (c : BlockCut) : Prop where
  whole : text = m.assembled c.blocks c.last c.opened
  /-- An opening marker is the first one after the block before. -/
  opening_first : ∀ b back, b :: back <:+ c.blocks → Text.OccursFirst m.opening b.before
    (b.body ++ m.closing ++ m.assembled back c.last c.opened)
  /-- A closing marker is the first one after its opening marker. -/
  closing_first : ∀ b back, b :: back <:+ c.blocks → Text.OccursFirst m.closing b.body
    (m.assembled back c.last c.opened)
  /-- So is the opening marker of a block that is left open. -/
  opened_first : ∀ t ∈ c.opened, Text.OccursFirst m.opening c.last t
  body_free : ∀ b ∈ c.blocks, ¬ m.closing <:+: b.body
  opened_free : ∀ t ∈ c.opened, ¬ m.closing <:+: t
  before_free : ∀ b ∈ c.blocks, ¬ m.opening <:+: b.before
  last_free : ¬ m.opening <:+: c.last

/-! ### The cutting of a scan -/

/-- The parts that the search for blocks finds. -/
def cutting (m : Markers) (text : List Char) : BlockCut :=
  let tail := (m.closedBlocks text).2
  ⟨(m.closedBlocks text).1, closedFront m tail, (Text.cut? m.opening tail).map Prod.snd⟩

theorem cutting_of_none (h : m.nextBlock? text = none) :
    m.cutting text =
      ⟨[], closedFront m text, (Text.cut? m.opening text).map Prod.snd⟩ := by
  simp only [cutting, closedBlocks_of_none h]

theorem cutting_of_some (hm : m.opening ≠ []) (h : m.nextBlock? text = some (b, rest)) :
    m.cutting text = { m.cutting rest with blocks := b :: (m.cutting rest).blocks } := by
  simp only [cutting, closedBlocks_of_some hm h]

theorem assembled_cons (b : Block) (blocks : List Block) (last : List Char)
    (opened : Option (List Char)) :
    m.assembled (b :: blocks) last opened =
      b.before ++ m.opening ++ (b.body ++ m.closing ++ m.assembled blocks last opened) := by
  simp [assembled]

/-- A block in front of a text that is cut. -/
theorem IsCut.cons (hm : m.opening ≠ []) (hc : m.closing ≠ [])
    (next : m.nextBlock? text = some (b, rest)) (h : m.IsCut rest c) :
    m.IsCut text { c with blocks := b :: c.blocks } := by
  obtain ⟨opened, hopen, hclose⟩ := nextBlock?_eq_some_iff.1 next
  obtain ⟨whole, first⟩ := Text.cut?_eq_some_iff.1 hopen
  obtain ⟨rfl, last⟩ := Text.cut?_eq_some_iff.1 hclose
  obtain rfl := h.whole
  constructor
  · rw [whole, assembled_cons]
  · intro b' back suffix
    obtain same | later := List.suffix_cons_iff.1 suffix
    · obtain ⟨rfl, rfl⟩ := List.cons.inj same
      exact first
    · exact h.opening_first b' back later
  · intro b' back suffix
    obtain same | later := List.suffix_cons_iff.1 suffix
    · obtain ⟨rfl, rfl⟩ := List.cons.inj same
      exact last
    · exact h.closing_first b' back later
  · exact h.opened_first
  · exact List.forall_mem_cons.2 ⟨Text.not_infix_before hc hclose, h.body_free⟩
  · exact h.opened_free
  · exact List.forall_mem_cons.2 ⟨Text.not_infix_before hm hopen, h.before_free⟩
  · exact h.last_free

/-- A text without closed blocks is cut before the block that is left open, if there is one. -/
theorem isCut_of_none (hm : m.opening ≠ []) (h : m.nextBlock? text = none) :
    m.IsCut text (m.cutting text) := by
  rw [cutting_of_none h]
  cases found : Text.cut? m.opening text with
  | none =>
    have free := Text.cut?_eq_none_iff.1 found
    constructor <;> simp [closedFront, found, assembled, free]
  | some cut =>
    obtain ⟨before, opened⟩ := cut
    obtain ⟨whole, first⟩ := Text.cut?_eq_some_iff.1 found
    have unclosed : ¬ m.closing <:+: opened := by
      rw [← Text.cut?_eq_none_iff, Option.eq_none_iff_forall_ne_some]
      rintro ⟨body, rest⟩ closed
      have := nextBlock?_eq_some_iff (b := ⟨before, body⟩) |>.2 ⟨opened, found, closed⟩
      rw [h] at this
      cases this
    have front : closedFront m text = before := by simp [closedFront, found]
    rw [front, Option.map_some]
    constructor <;>
      simp [assembled, whole, first, unclosed, Text.not_infix_before hm found]

/-- The search for blocks cuts the text. -/
theorem isCut_cutting (hm : m.opening ≠ []) (hc : m.closing ≠ []) (text : List Char) :
    m.IsCut text (m.cutting text) := by
  induction text using closedBlocks_induction m hm with
  | last text next => exact isCut_of_none hm next
  | block text b rest next ih =>
    rw [cutting_of_some hm next]
    exact ih.cons hm hc next

/-! ### Uniqueness -/

/-- Behind its first block a text is cut as before. -/
theorem IsCut.tail {blocks : List Block} {last : List Char} {opened : Option (List Char)}
    (h : m.IsCut text ⟨b :: blocks, last, opened⟩) :
    m.nextBlock? text = some (b, m.assembled blocks last opened) ∧
      m.IsCut (m.assembled blocks last opened) ⟨blocks, last, opened⟩ := by
  constructor
  · have opening := Text.cut?_eq_some_iff.2
      ⟨h.whole.trans (assembled_cons b blocks last opened),
        h.opening_first b blocks (List.suffix_refl _)⟩
    have closing := Text.cut?_eq_some_iff.2
      ⟨rfl, h.closing_first b blocks (List.suffix_refl _)⟩
    exact nextBlock?_eq_some_iff.2 ⟨_, opening, closing⟩
  · have later {suffix : List Block} (hs : suffix <:+ blocks) : suffix <:+ b :: blocks :=
      hs.trans (List.suffix_cons b blocks)
    exact ⟨rfl, fun b' back hs => h.opening_first b' back (later hs),
      fun b' back hs => h.closing_first b' back (later hs), h.opened_first,
      fun b' mem => h.body_free b' (List.mem_cons_of_mem b mem), h.opened_free,
      fun b' mem => h.before_free b' (List.mem_cons_of_mem b mem), h.last_free⟩

/-- Parts without a closed block belong to a text without one. -/
theorem IsCut.eq_cutting_nil {last : List Char} {opened : Option (List Char)}
    (h : m.IsCut text ⟨[], last, opened⟩) : ⟨[], last, opened⟩ = m.cutting text := by
  have whole := h.whole
  cases opened with
  | none =>
    obtain rfl : text = last := by simpa [assembled] using whole
    have found := Text.cut?_eq_none_iff.2 h.last_free
    rw [cutting_of_none (by rw [nextBlock?, found]), closedFront, found]
    rfl
  | some t =>
    have found : Text.cut? m.opening text = some (last, t) :=
      Text.cut?_eq_some_iff.2 ⟨by simpa [assembled] using whole, h.opened_first t rfl⟩
    have unclosed := Text.cut?_eq_none_iff.2 (h.opened_free t rfl)
    rw [cutting_of_none (by simp [nextBlock?, found, unclosed]), closedFront, found]
    rfl

/-- A text has one cutting. -/
theorem isCut_iff (hm : m.opening ≠ []) (hc : m.closing ≠ []) :
    m.IsCut text c ↔ c = m.cutting text := by
  constructor
  · intro h
    obtain ⟨blocks, last, opened⟩ := c
    induction blocks generalizing text with
    | nil => exact h.eq_cutting_nil
    | cons b blocks ih =>
      obtain ⟨next, below⟩ := h.tail
      rw [cutting_of_some hm next, ← ih below]
  · rintro rfl
    exact isCut_cutting hm hc text

end Markers

/-! ### What the scan returns -/

theorem joinLines_eq_intercalate (pieces : List (List Char)) :
    joinLines pieces = ['\n'].intercalate pieces := by
  induction pieces with
  | nil => rfl
  | cons piece pieces ih =>
    cases pieces with
    | nil => simp [joinLines]
    | cons next pieces =>
      rw [joinLines_cons (by simp), ih]
      simp [List.intercalate]

theorem scanBlocks_eq_cutting (m : Markers) (flush : Bool) (text : List Char) :
    scanBlocks m flush text =
      ⟨(m.cutting text).blocks.map Block.body ++
          (if flush then (m.cutting text).opened.toList else []),
        ['\n'].intercalate ((m.cutting text).blocks.map Block.before ++ [(m.cutting text).last])⟩ := by
  rw [← joinLines_eq_intercalate, scanBlocks, Markers.cutting, closedFront]
  cases h : Text.cut? m.opening (m.closedBlocks text).2 <;> cases flush <;> simp [h]

/-- **The scan cuts a text without losing a character.** A text has one cutting into blocks with
both markers at their first occurrences. The scan returns the bodies of its blocks, that of a block
left open exactly where it is asked for, and the pieces between the blocks line by line. -/
theorem scanBlocks_cut {m : Markers} (hm : m.opening ≠ []) (hc : m.closing ≠ [])
    (text : List Char) :
    ∃ c : BlockCut, (∀ c', m.IsCut text c' ↔ c' = c) ∧ ∀ flush,
      scanBlocks m flush text =
        ⟨c.blocks.map Block.body ++ (if flush then c.opened.toList else []),
          ['\n'].intercalate (c.blocks.map Block.before ++ [c.last])⟩ :=
  ⟨m.cutting text, fun _ => Markers.isCut_iff hm hc, fun flush => scanBlocks_eq_cutting m flush text⟩

/-- Markers that overlap themselves and each other, an opening marker inside a block, and a block
that is left open. -/
theorem scanBlocks_cut_overlapping :
    let m : Markers := ⟨"aa".toList, "ab".toList⟩
    let text := "xaaaaab aaay".toList
    m.opening ≠ [] ∧ m.closing ≠ [] ∧
      ∃ c : BlockCut, (∀ c', m.IsCut text c' ↔ c' = c) ∧ ∀ flush,
        scanBlocks m flush text =
          ⟨c.blocks.map Block.body ++ (if flush then c.opened.toList else []),
            ['\n'].intercalate (c.blocks.map Block.before ++ [c.last])⟩ :=
  ⟨by decide, by decide, scanBlocks_cut (by decide) (by decide) _⟩

end PatchScript
