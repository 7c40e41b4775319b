import PatchScript.Session.Stream
import PatchScript.Proofs.Command.Blocks

/-!
# What a growing text shows

While a text is still arriving, nothing may be shown that more text turns out to hide. The text to
come may close a block that is open, and it may complete an opening marker of which only the
beginning has arrived. It cannot open an earlier block: the closed blocks of what has arrived stay
closed, and the text between them stays outside.

What is shown is found in the text *without* its closed blocks, where an opening marker may seem to
stand across the place of a block that was cut out. This hides more than is needed, never less: the
text before such a place is outside in any case.

## Main definitions

* `Markers.outside` — the text outside the blocks, the open one included
* `TextStream.feedAll` — the pieces of a text, one after the other

## Main results

* `Markers.prefix_outside` — what stands before every opening marker is outside
* `Markers.shownSoFar_prefix_outside` — what is shown is outside, whatever follows
* `TextStream.feedAll_shows_outside` — the headline: no delivery shows what is hidden later
-/

namespace PatchScript

/-! ### First occurrences and partial ones -/

namespace Text

/-- The first occurrence stands before every other one. -/
theorem length_before_le {marker text before after x y : List Char}
    (h : cut? marker text = some (before, after)) (occurs : text = x ++ marker ++ y) :
    before.length ≤ x.length := by
  induction text generalizing before x with
  | nil =>
    obtain ⟨-, rfl, -⟩ : marker = [] ∧ [] = before ∧ [] = after := by simpa [cut?] using h
    simp
  | cons c rest ih =>
    by_cases start : marker <+: c :: rest
    · obtain ⟨after', found⟩ := start
      obtain ⟨rfl, -⟩ : [] = before ∧ after' = after := by
        simpa [cut?_of_isPrefixOf c rest found] using h
      simp
    · obtain ⟨before', found, rfl⟩ : ∃ b, cut? marker rest = some (b, after) ∧ c :: b = before := by
        simpa [cut?_cons_of_not_isPrefixOf c rest start] using h
      cases x with
      | nil => exact absurd ⟨y, occurs.symm⟩ start
      | cons d x =>
        obtain ⟨-, tail⟩ : c = d ∧ rest = x ++ marker ++ y := by simpa using occurs
        have := ih found tail
        simp only [List.length_cons]
        omega

/-- The longest ending of a kind comes first when the lengths are tried from the top. -/
theorem findSome?_reverse_range {α : Type} {f : Nat → Option α} {k n : Nat} (hn : n < k)
    (hf : (f n).isSome = true) :
    ∃ i a, n ≤ i ∧ i < k ∧ f i = some a ∧ (List.range k).reverse.findSome? f = some a := by
  induction k with
  | zero => omega
  | succ k ih =>
    rw [List.range_succ, List.reverse_append, List.reverse_singleton, List.singleton_append,
      List.findSome?_cons]
    cases top : f k with
    | some a => exact ⟨k, a, by omega, by omega, top, rfl⟩
    | none =>
      have below : n < k := by
        refine Nat.lt_of_le_of_ne (by omega) fun equal => ?_
        rw [equal, top] at hf
        cases hf
      obtain ⟨i, a, lower, upper, found, first⟩ := ih below
      exact ⟨i, a, lower, by omega, found, first⟩

end Text

namespace Markers

variable {m : Markers} {text more front : List Char}

theorem withoutPartial_prefix (m : Markers) (text : List Char) : m.withoutPartial text <+: text := by
  simp only [withoutPartial]
  cases h : ((List.range (min (m.opening.length - 1) text.length)).reverse).findSome?
      fun n => Text.withoutSuffix? (m.opening.take (n + 1)) text with
  | none => exact List.prefix_rfl
  | some kept =>
    obtain ⟨n, -, found⟩ := List.exists_of_findSome?_eq_some h
    obtain ⟨-, rfl⟩ := by simpa [Text.withoutSuffix?] using found
    exact List.take_prefix _ _

/-- An ending that begins the opening marker is withheld. -/
theorem length_withoutPartial_le {x s : List Char} (hs : s ≠ []) (beginning : s <+: m.opening)
    (partly : s.length < m.opening.length) :
    (m.withoutPartial (x ++ s)).length ≤ x.length := by
  have pos := List.length_pos_iff.2 hs
  have ending : m.opening.take (s.length - 1 + 1) = s := by
    rw [Nat.sub_add_cancel pos]
    exact (List.prefix_iff_eq_take.1 beginning).symm
  have tried : s.length - 1 < min (m.opening.length - 1) (x ++ s).length := by
    rw [List.length_append]
    omega
  -- the ending that is withheld may be longer than `s`, but not shorter
  obtain ⟨i, kept, lower, upper, found, first⟩ := Text.findSome?_reverse_range
    (f := fun n => Text.withoutSuffix? (m.opening.take (n + 1)) (x ++ s)) tried
    (by simp [ending, Text.withoutSuffix?, List.suffix_append])
  obtain ⟨-, rfl⟩ := by simpa [Text.withoutSuffix?] using found
  rw [withoutPartial, first, Option.getD_some, List.length_take, List.length_append]
  rw [List.length_append] at upper
  omega

/-! ### Outside the blocks -/

/-- The text outside the blocks: between the closed ones, and up to the one that is open. -/
def outside (m : Markers) (text : List Char) : List Char :=
  ((m.closedBlocks text).1.map Block.before).flatten ++ closedFront m (m.closedBlocks text).2

theorem withoutBlocks_eq (m : Markers) (text : List Char) :
    m.withoutBlocks text =
      ((m.closedBlocks text).1.map Block.before).flatten ++ (m.closedBlocks text).2 := rfl

/-- What is outside in the front of a text stays outside, up to what is left over there. -/
theorem outside_append (m : Markers) (text more : List Char) :
    m.outside (text ++ more) =
      ((m.closedBlocks text).1.map Block.before).flatten ++
        m.outside ((m.closedBlocks text).2 ++ more) := by
  rw [outside, closedBlocks_append, List.map_append, List.flatten_append, List.append_assoc]
  rfl

/-- What stands before every opening marker is outside. -/
theorem prefix_outside (h : front <+: text)
    (before : ∀ x y, text = x ++ m.opening ++ y → front.length ≤ x.length) :
    front <+: m.outside text := by
  cases hopen : Text.cut? m.opening text with
  | none =>
    have next : m.nextBlock? text = none := by
      simp only [nextBlock?, hopen]
    simpa [outside, closedBlocks_of_none next, closedFront, hopen] using h
  | some found =>
    obtain ⟨b, opened⟩ := found
    have whole := Text.eq_append_of_cut? hopen
    have shorter : front <+: b := by
      refine List.prefix_of_prefix_length_le h ?_ (before b opened whole)
      rw [whole, List.append_assoc]
      exact List.prefix_append _ _
    refine shorter.trans ?_
    by_cases hm : m.opening = []
    · simp [outside, closedBlocks_of_opening_eq_nil hm, closedFront, hopen]
    cases next : m.nextBlock? text with
    | none => simp [outside, closedBlocks_of_none next, closedFront, hopen]
    | some found =>
      obtain ⟨block, rest⟩ := found
      obtain ⟨opened', hopen', -⟩ := nextBlock?_eq_some_iff.1 next
      obtain ⟨rfl, -⟩ : b = block.before ∧ opened = opened' := by simpa [hopen] using hopen'
      rw [outside, closedBlocks_of_some hm next]
      simp

/-! ### What is shown -/

/-- What is shown is a front of the text without its blocks. -/
theorem shownSoFar_prefix (m : Markers) (text : List Char) :
    m.shownSoFar text <+: m.withoutBlocks text := by
  simp only [shownSoFar]
  cases h : Text.cut? m.opening (m.withoutBlocks text) with
  | none => exact withoutPartial_prefix m _
  | some found =>
    rw [Text.eq_append_of_cut? h, List.append_assoc]
    exact List.prefix_append _ _

/-- It ends where an opening marker begins, or may turn out to begin. -/
theorem length_shownSoFar_le {x s : List Char} (text : List Char)
    (whole : m.withoutBlocks text = x ++ s) (hs : s ≠ [])
    (h : m.opening <+: s ∨ s <+: m.opening) :
    (m.shownSoFar text).length ≤ x.length := by
  simp only [shownSoFar]
  cases hcut : Text.cut? m.opening (m.withoutBlocks text) with
  | none =>
    obtain ⟨y, rfl⟩ | beginning := h
    · rw [Text.cut?_eq_none_iff, whole] at hcut
      exact absurd ⟨x, y, by simp⟩ hcut
    · have partly : s.length < m.opening.length := by
        refine Nat.lt_of_le_of_ne beginning.length_le fun equal => ?_
        rw [Text.cut?_eq_none_iff, whole, beginning.eq_of_length equal] at hcut
        exact hcut (List.suffix_append _ _).isInfix
      rw [whole]
      exact length_withoutPartial_le hs beginning partly
  | some found =>
    obtain ⟨b, a⟩ := found
    change b.length ≤ x.length
    obtain ⟨y, rfl⟩ | beginning := h
    · exact Text.length_before_le (y := y) hcut (by rw [whole, List.append_assoc])
    · -- the marker is at least as long as the ending, so it cannot begin after `x`
      have longer := beginning.length_le
      have := congrArg List.length (whole.symm.trans (Text.eq_append_of_cut? hcut))
      simp only [List.length_append] at this
      omega

/-- **Nothing hidden is shown.** What is shown of a text is a front of what is outside the blocks,
whatever follows the text. -/
theorem shownSoFar_prefix_outside (m : Markers) (text more : List Char) :
    m.shownSoFar text <+: m.outside (text ++ more) := by
  rw [outside_append]
  obtain ⟨hidden, split⟩ := shownSoFar_prefix m text
  rw [withoutBlocks_eq] at split
  rcases List.append_eq_append_iff.1 split with ⟨between, equal, -⟩ | ⟨front, equal, tail⟩
  · -- nothing is shown of what stands after the last closed block
    rw [equal, List.append_assoc]
    exact List.prefix_append _ _
  rw [equal, List.prefix_append_right_inj]
  refine prefix_outside ?_ fun x y occurs => ?_
  · rw [tail, List.append_assoc]
    exact List.prefix_append _ _
  -- a marker that begins in the text that has arrived lies in it, or is completed later
  by_contra inside
  rw [Nat.not_le] at inside
  rw [tail, List.append_assoc, List.append_assoc] at occurs
  obtain ⟨s, rfl, rest⟩ : ∃ s, front = x ++ s ∧ s ++ (hidden ++ more) = m.opening ++ y := by
    rcases List.append_eq_append_iff.1 occurs with ⟨s, shorter, -⟩ | ⟨s, equal, rest⟩
    · have := congrArg List.length shorter
      simp only [List.length_append] at this
      omega
    · exact ⟨s, equal, rest.symm⟩
  have hs : s ≠ [] := by
    rintro rfl
    simp at inside
  have shorter := length_shownSoFar_le (m := m) text
    (x := ((m.closedBlocks text).1.map Block.before).flatten ++ x) (s := s ++ hidden)
    (by rw [withoutBlocks_eq, tail]; simp) (by simp [hs]) (by
      rw [← List.append_assoc] at rest
      rcases Nat.le_total m.opening.length (s ++ hidden).length with le | le
      · exact .inl (List.prefix_of_prefix_length_le ⟨y, rest.symm⟩ ⟨more, rfl⟩ le)
      · exact .inr (List.prefix_of_prefix_length_le ⟨more, rfl⟩ ⟨y, rest.symm⟩ le))
  rw [equal] at shorter
  simp only [List.length_append] at shorter
  have := List.length_pos_iff.2 hs
  omega

end Markers

/-! ### A stream of pieces -/

namespace TextStream

/-- The pieces of a text arrive one after the other; the deliveries are in their order. -/
def feedAll (g : TextGrammar) (stream : TextStream) :
    List (List Char) → Nat → Except StreamFault (TextStream × List Delivery)
  | [], _ => .ok (stream, [])
  | piece :: rest, next => do
    let (stream, delivery) ← stream.feed g piece next
    let (stream, deliveries) ← feedAll g stream rest delivery.reading.next
    return (stream, delivery :: deliveries)

variable {g : TextGrammar} {stream : TextStream}

/-- A delivery shows what may be shown of all that has arrived. -/
theorem feed_shows (h : stream.finished = false) (piece : List Char) (n : Nat) :
    ∃ stream' delivery, stream.feed g piece n = .ok (stream', delivery) ∧
      stream'.finished = false ∧ stream'.text = stream.text ++ piece ∧
      delivery.shown = g.markers.shownSoFar (stream.text ++ piece) := by
  cases happly : stream.applyBlocks with
  | false =>
    refine ⟨stream.push piece, ⟨g.markers.shownSoFar (stream.push piece).text, .empty n⟩, ?_,
      h, rfl, rfl⟩
    simp [feed, h, push, happly]
  | true => simp [feed, h, push, happly]

theorem feedAll_shows (stream : TextStream) (h : stream.finished = false) (pieces : List (List Char)) (n : Nat) :
    ∃ stream' deliveries, stream.feedAll g pieces n = .ok (stream', deliveries) ∧
      deliveries.length = pieces.length ∧
      ∀ more, ∀ delivery ∈ deliveries,
        delivery.shown <+: g.markers.outside (stream.text ++ pieces.flatten ++ more) := by
  induction pieces generalizing stream n with
  | nil => exact ⟨stream, [], rfl, rfl, by simp⟩
  | cons piece pieces ih =>
    obtain ⟨stream₁, delivery, hfeed, hstream₁, text, shown⟩ := feed_shows (g := g) h piece n
    obtain ⟨stream₂, deliveries, hrest, length, others⟩ := ih stream₁ hstream₁ delivery.reading.next
    refine ⟨stream₂, delivery :: deliveries, ?_, by simp [length], fun more d hd => ?_⟩
    · simp only [feedAll, hfeed, hrest, bind, Except.bind, pure, Except.pure]
    rw [List.flatten_cons, ← List.append_assoc]
    rcases List.mem_cons.1 hd with rfl | later
    · rw [shown, List.append_assoc _ pieces.flatten]
      exact Markers.shownSoFar_prefix_outside g.markers _ _
    · rw [← text]
      exact others more d later

/-- **No delivery shows what is hidden later.** Every piece of a text is accepted, and whatever is
shown on the way is a front of what is outside the blocks of the whole text, however it goes on. -/
theorem feedAll_shows_outside (g : TextGrammar) (applyBlocks : Bool) (pieces : List (List Char))
    (n : Nat) :
    ∃ stream deliveries, TextStream.feedAll g { applyBlocks } pieces n = .ok (stream, deliveries) ∧
      deliveries.length = pieces.length ∧
      ∀ more, ∀ delivery ∈ deliveries,
        delivery.shown <+: g.markers.outside (pieces.flatten ++ more) := by
  have shows := feedAll_shows (g := g) { applyBlocks } rfl pieces n
  simpa using shows

end TextStream

end PatchScript
