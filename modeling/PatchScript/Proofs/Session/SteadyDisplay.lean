import PatchScript.Proofs.Session.Display
import Mathlib.Data.List.Chain

/-!
# What stays shown

A reader of a stream expects that nothing which was shown is taken back, and that in the end all the
text outside the blocks is shown. Both fail, and for one reason: opening markers are looked for in
the text *without* its closed blocks, where the ends of two pieces meet. The text in front of a block
that is a beginning of an opening marker is shown while the block is open, and withheld again when
the block is closed; and the text behind the block may even complete the marker, which then hides
all that follows.

Where no closed block stands right behind the beginning of an opening marker, neither can happen.

## Main definitions

* `Markers.MayOpen` — a place where an opening marker stands or may turn out to begin
* `Markers.JoinsMarker` — an opening marker stands across the place of a block that was cut out
* `Markers.HalfOpened` — a block right behind the beginning of an opening marker
* `TextStream.Steady` — nothing is taken back, and all that is outside is shown in the end

## Main results

* `Markers.shownSoFar_prefix_iff` — when a piece takes nothing back
* `Markers.shown_eq_outside_iff` — when all that is outside is shown
* `TextStream.steady_iff` — the headline: for one way of cutting a text, and for all of them
-/

namespace PatchScript

namespace Markers

variable {m : Markers} {text more : List Char} {n : Nat}

/-! ### Places where a marker may begin -/

/-- Whether in the text without its closed blocks an opening marker stands at a place, or the text
ends before it is settled that none does. -/
def MayOpen (m : Markers) (text : List Char) (n : Nat) : Prop :=
  n < (m.withoutBlocks text).length ∧
    (m.opening <+: (m.withoutBlocks text).drop n ∨ (m.withoutBlocks text).drop n <+: m.opening)

/-- Whether an opening marker stands where the pieces outside the blocks meet. -/
def JoinsMarker (m : Markers) (text : List Char) : Prop :=
  ∃ n < (m.outside text).length, m.opening <+: (m.withoutBlocks text).drop n

theorem length_shownSoFar_le_of_mayOpen (h : m.MayOpen text n) :
    (m.shownSoFar text).length ≤ n := by
  obtain ⟨inside, opens⟩ := h
  have some_text : (m.withoutBlocks text).drop n ≠ [] := by
    rw [ne_eq, List.drop_eq_nil_iff]
    omega
  have := length_shownSoFar_le text (List.take_append_drop n _).symm some_text opens
  exact this.trans (List.length_take_le n _)

/-- What is withheld at the end begins an opening marker. -/
theorem withoutPartial_cases (m : Markers) (text : List Char) :
    m.withoutPartial text = text ∨
      (m.withoutPartial text).length < text.length ∧
        text.drop (m.withoutPartial text).length <+: m.opening := by
  simp only [withoutPartial]
  cases h : ((List.range (min (m.opening.length - 1) text.length)).reverse).findSome?
      fun n => Text.withoutSuffix? (m.opening.take (n + 1)) text with
  | none => exact .inl rfl
  | some kept =>
    right
    obtain ⟨n, hn, found⟩ := List.exists_of_findSome?_eq_some h
    obtain ⟨ending, rfl⟩ := by simpa [Text.withoutSuffix?] using found
    have some_ending : 0 < (m.opening.take (n + 1)).length := by
      have := List.mem_range.1 (List.mem_reverse.1 hn)
      rw [List.length_take]
      omega
    have fits := ending.length_le
    have withheld := List.suffix_iff_eq_drop.1 ending
    rw [List.length_take] at some_ending fits withheld
    rw [Option.getD_some, List.length_take, Nat.min_eq_left (Nat.sub_le ..), ← withheld]
    exact ⟨by omega, List.take_prefix ..⟩

/-- What is shown ends where the text ends, or where a marker may begin. -/
theorem shownSoFar_eq_or_mayOpen (m : Markers) (text : List Char) :
    m.shownSoFar text = m.withoutBlocks text ∨ m.MayOpen text (m.shownSoFar text).length := by
  simp only [shownSoFar, MayOpen]
  cases hcut : Text.cut? m.opening (m.withoutBlocks text) with
  | none =>
    obtain whole | ⟨shorter, begins⟩ := withoutPartial_cases m (m.withoutBlocks text)
    · exact .inl whole
    · exact .inr ⟨shorter, .inr begins⟩
  | some found =>
    obtain ⟨before, after⟩ := found
    have whole := Text.eq_append_of_cut? hcut
    change before = _ ∨ before.length < _ ∧ _
    by_cases nothing : m.opening ++ after = []
    · left
      rw [whole, List.append_assoc, nothing, List.append_nil]
    · right
      rw [whole, List.append_assoc]
      have := List.length_pos_iff.2 nothing
      refine ⟨?_, .inl ?_⟩
      · rw [List.length_append]
        omega
      · rw [List.drop_left]
        exact List.prefix_append ..

/-! ### Nothing is taken back -/

/-- What is outside ends where the text without its closed blocks does, or at an opening marker. -/
theorem outside_eq_or_opening (m : Markers) (text : List Char) :
    m.outside text <+: m.withoutBlocks text ∧
      (m.outside text = m.withoutBlocks text ∨
        m.opening <+: (m.withoutBlocks text).drop (m.outside text).length) := by
  rw [outside, withoutBlocks_eq, closedFront]
  cases h : Text.cut? m.opening (m.closedBlocks text).2 with
  | none => exact ⟨List.prefix_rfl, .inl rfl⟩
  | some found =>
    rw [Text.eq_append_of_cut? h, List.append_assoc, ← List.append_assoc (List.flatten _)]
    exact ⟨List.prefix_append .., .inr (by
      rw [Option.map_some, Option.getD_some, List.drop_left]
      exact List.prefix_append ..)⟩

theorem outside_prefix_withoutBlocks (m : Markers) (text : List Char) :
    m.outside text <+: m.withoutBlocks text :=
  (outside_eq_or_opening m text).1

/-- **A piece takes nothing back** exactly where no place comes up at which a marker may begin
before the end of what was shown. -/
theorem shownSoFar_prefix_iff :
    m.shownSoFar text <+: m.shownSoFar (text ++ more) ↔
      ∀ n, m.MayOpen (text ++ more) n → (m.shownSoFar text).length ≤ n := by
  constructor
  · intro kept n opens
    exact kept.length_le.trans (length_shownSoFar_le_of_mayOpen opens)
  · intro h
    have outside := shownSoFar_prefix_outside m text more
    have outside' := shownSoFar_prefix_outside m (text ++ more) []
    rw [List.append_nil] at outside'
    refine List.prefix_of_prefix_length_le outside outside' ?_
    obtain whole | opens := shownSoFar_eq_or_mayOpen m (text ++ more)
    · rw [whole]
      exact outside.length_le.trans (outside_prefix_withoutBlocks m _).length_le
    · exact h _ opens

/-! ### All that is outside is shown -/

/-- In the end at least as much is shown as on the way. -/
theorem shownSoFar_prefix_shown (m : Markers) (text : List Char) :
    m.shownSoFar text <+: m.shown text := by
  simp only [shownSoFar, shown]
  cases Text.cut? m.opening (m.withoutBlocks text) with
  | none => exact withoutPartial_prefix m _
  | some found => exact List.prefix_rfl

/-- In the end the text is shown up to the first opening marker. -/
theorem length_shown_le (h : m.opening <+: (m.withoutBlocks text).drop n) :
    (m.shown text).length ≤ n := by
  obtain ⟨after, found⟩ := h
  have whole : m.withoutBlocks text = (m.withoutBlocks text).take n ++ m.opening ++ after := by
    rw [List.append_assoc, found, List.take_append_drop]
  cases hcut : Text.cut? m.opening (m.withoutBlocks text) with
  | none => exact absurd ⟨_, _, whole.symm⟩ (Text.cut?_eq_none_iff.1 hcut)
  | some cut =>
    simp only [shown, hcut]
    exact (Text.length_before_le hcut whole).trans (List.length_take_le n _)

theorem shown_eq_or_opening (m : Markers) (text : List Char) :
    m.shown text <+: m.withoutBlocks text ∧
      (m.shown text = m.withoutBlocks text ∨
        m.opening <+: (m.withoutBlocks text).drop (m.shown text).length) := by
  simp only [shown]
  cases hcut : Text.cut? m.opening (m.withoutBlocks text) with
  | none => exact ⟨List.prefix_rfl, .inl rfl⟩
  | some found =>
    rw [Text.eq_append_of_cut? hcut, List.append_assoc, List.drop_left]
    exact ⟨List.prefix_append .., .inr (List.prefix_append ..)⟩

/-- What is shown in the end is outside. -/
theorem shown_prefix_outside (m : Markers) (text : List Char) :
    m.shown text <+: m.outside text := by
  obtain ⟨front, -⟩ := shown_eq_or_opening m text
  obtain ⟨front', equal | opens⟩ := outside_eq_or_opening m text
  · rwa [equal]
  · exact List.prefix_of_prefix_length_le front front' (length_shown_le opens)

/-- **All that is outside is shown** exactly where no marker stands across the place of a block. -/
theorem shown_eq_outside_iff : m.shown text = m.outside text ↔ ¬ m.JoinsMarker text := by
  have outside := outside_prefix_withoutBlocks m text
  constructor
  · rintro equal ⟨n, inside, opens⟩
    have := length_shown_le opens
    rw [equal] at this
    omega
  · intro apart
    refine (shown_prefix_outside m text).eq_of_length_le ?_
    by_contra shorter
    obtain ⟨-, whole | opens⟩ := shown_eq_or_opening m text
    · rw [whole] at shorter
      exact shorter outside.length_le
    · exact apart ⟨_, by omega, opens⟩

/-! ### Blocks behind the beginning of a marker -/

/-- Whether a block stands right behind the beginning of an opening marker. -/
def HalfOpened (m : Markers) (b : Block) : Prop :=
  ∃ beginning, beginning ≠ [] ∧ beginning <:+ b.before ∧ beginning <+: m.opening

instance (m : Markers) (b : Block) : Decidable (m.HalfOpened b) :=
  decidable_of_iff (∃ beginning ∈ b.before.tails, beginning ≠ [] ∧ beginning <+: m.opening) (by
    simp only [HalfOpened, List.mem_tails]
    exact ⟨fun ⟨q, suffix, some_text, begins⟩ => ⟨q, some_text, suffix, begins⟩,
      fun ⟨q, some_text, suffix, begins⟩ => ⟨q, suffix, some_text, begins⟩⟩)

/-- Of a marker and a text one begins the other; so it is with a front of the text. -/
theorem prefix_or_prefix_of_append {s rest : List Char}
    (h : m.opening <+: s ++ rest ∨ s ++ rest <+: m.opening) :
    m.opening <+: s ∨ s <+: m.opening := by
  obtain longer | beginning := h
  · exact (List.prefix_or_prefix_of_prefix longer (List.prefix_append s rest))
  · exact .inr ((List.prefix_append s rest).trans beginning)

/-- Where no block is half opened, no marker may begin before the last closed block. -/
theorem length_flatten_le_of_opens {blocks : List Block} {rest : List Char}
    (plain : ∀ b ∈ blocks, ¬ m.opening <:+: b.before) (whole : ∀ b ∈ blocks, ¬ m.HalfOpened b)
    (opens : m.opening <+: ((blocks.map Block.before).flatten ++ rest).drop n ∨
      ((blocks.map Block.before).flatten ++ rest).drop n <+: m.opening) :
    ((blocks.map Block.before).flatten).length ≤ n := by
  induction blocks generalizing n with
  | nil => simp
  | cons b blocks ih =>
    rw [List.map_cons, List.flatten_cons, List.append_assoc] at opens
    rw [List.map_cons, List.flatten_cons, List.length_append]
    by_cases inside : n < b.before.length
    · -- the marker would begin in the piece before the block
      rw [List.drop_append_of_le_length (Nat.le_of_lt inside)] at opens
      have some_text : b.before.drop n ≠ [] := by
        rw [ne_eq, List.drop_eq_nil_iff]
        omega
      obtain occurs | begins := prefix_or_prefix_of_append opens
      · exact absurd (occurs.isInfix.trans (List.drop_suffix n _).isInfix) (plain b (by simp))
      · exact absurd ⟨_, some_text, List.drop_suffix n _, begins⟩ (whole b (by simp))
    · rw [List.drop_append, List.drop_eq_nil_of_le (by omega), List.nil_append] at opens
      have := ih (fun b hb => plain b (by simp [hb])) (fun b hb => whole b (by simp [hb])) opens
      omega

/-- A text begins with a closed block, or has none. -/
theorem closedBlocks_cases (m : Markers) (text : List Char) :
    m.closedBlocks text = ([], text) ∨
      ∃ b rest, m.opening ≠ [] ∧ m.nextBlock? text = some (b, rest) ∧
        m.closedBlocks text = (b :: (m.closedBlocks rest).1, (m.closedBlocks rest).2) := by
  by_cases hm : m.opening = []
  · exact .inl (closedBlocks_of_opening_eq_nil hm)
  cases next : m.nextBlock? text with
  | none => exact .inl (closedBlocks_of_none next)
  | some found => exact .inr ⟨found.1, found.2, hm, rfl, closedBlocks_of_some hm next⟩

/-- A place behind the closed blocks at which a marker may begin was not passed before. -/
theorem length_shownSoFar_le_of_behind (opens : m.MayOpen (text ++ more) n)
    (behind : (((m.closedBlocks (text ++ more)).1.map Block.before).flatten).length ≤ n) :
    (m.shownSoFar text).length ≤ n := by
  have front := shownSoFar_prefix m text
  have within := front.length_le
  obtain none_closed | ⟨b, rest, -, next, closed⟩ :=
    closedBlocks_cases m ((m.closedBlocks text).2 ++ more)
  · -- the text has only grown at its end
    have grown : m.withoutBlocks (text ++ more) = m.withoutBlocks text ++ more := by
      rw [withoutBlocks_eq, withoutBlocks_eq, closedBlocks_append, none_closed]
      simp
    rw [MayOpen, grown] at opens
    by_cases inside : n < (m.withoutBlocks text).length
    · rw [List.drop_append_of_le_length (Nat.le_of_lt inside)] at opens
      exact length_shownSoFar_le_of_mayOpen ⟨inside, prefix_or_prefix_of_append opens.2⟩
    · omega
  · -- the marker of a block that is closed now begins no later than `n`
    rw [closedBlocks_append, closed] at behind
    simp only [List.map_append, List.map_cons, List.flatten_append, List.flatten_cons,
      List.length_append] at behind
    obtain ⟨opened, hopen, -⟩ := nextBlock?_eq_some_iff.1 next
    have occurs := Text.eq_append_of_cut? hopen
    rw [List.append_assoc] at occurs
    rw [withoutBlocks_eq] at within
    rcases List.append_eq_append_iff.1 occurs with ⟨gap, equal, -⟩ | ⟨s, equal, marker⟩
    · rw [equal, List.length_append] at behind
      rw [List.length_append] at within
      omega
    · by_cases hs : s = []
      · rw [hs, List.append_nil] at equal
        rw [equal, List.length_append] at within
        omega
      · have shorter := length_shownSoFar_le (m := m) text
          (x := ((m.closedBlocks text).1.map Block.before).flatten ++ b.before) (s := s)
          (by rw [withoutBlocks_eq, equal, List.append_assoc]) hs
          (prefix_or_prefix_of_append (.inl (show m.opening <+: s ++ more from
            marker ▸ List.prefix_append ..)))
        rw [List.length_append] at shorter
        omega

/-- Where no block is half opened, nothing is ever taken back. -/
theorem shownSoFar_prefix_of_not_halfOpened
    (whole : ∀ b ∈ (m.closedBlocks (text ++ more)).1, ¬ m.HalfOpened b) :
    m.shownSoFar text <+: m.shownSoFar (text ++ more) :=
  shownSoFar_prefix_iff.2 fun _ opens => length_shownSoFar_le_of_behind opens
    (length_flatten_le_of_opens (fun _ => not_infix_before_of_mem) whole opens.2)

/-- Where no block is half opened, no marker stands across the place of a block. -/
theorem not_joinsMarker_of_not_halfOpened
    (whole : ∀ b ∈ (m.closedBlocks text).1, ¬ m.HalfOpened b) : ¬ m.JoinsMarker text := by
  rintro ⟨n, inside, opens⟩
  have behind := length_flatten_le_of_opens (m := m) (fun b => not_infix_before_of_mem) whole
    (.inl (withoutBlocks_eq m text ▸ opens))
  obtain ⟨k, rfl⟩ := Nat.exists_eq_add_of_le behind
  rw [withoutBlocks_eq, List.drop_length_add_append] at opens
  rw [outside, List.length_append] at inside
  -- the marker would stand before the first one in what was left over
  obtain ⟨after, found⟩ := opens
  have occurs : (m.closedBlocks text).2 =
      (m.closedBlocks text).2.take k ++ m.opening ++ after := by
    rw [List.append_assoc, found, List.take_append_drop]
  cases hopen : Text.cut? m.opening (m.closedBlocks text).2 with
  | none => exact absurd ⟨_, _, occurs.symm⟩ (Text.cut?_eq_none_iff.1 hopen)
  | some cut =>
    have first := Text.length_before_le hopen occurs
    rw [List.length_take] at first
    rw [closedFront, hopen, Option.map_some, Option.getD_some] at inside
    omega

/-! ### What a half opened block takes back -/

/-- The text in front of a closed block has the blocks before it, and nothing is left over there. -/
theorem exists_front_of_append {b : Block} {blocks later : List Block}
    (h : (m.closedBlocks text).1 = blocks ++ b :: later) :
    ∃ front rest rest', text = front ++ rest ∧ m.closedBlocks front = (blocks, []) ∧
      m.nextBlock? rest = some (b, rest') := by
  induction blocks generalizing text with
  | nil =>
    obtain none_closed | ⟨b', rest, -, next, closed⟩ := closedBlocks_cases m text
    · simp [none_closed] at h
    · obtain ⟨rfl, -⟩ : b' = b ∧ _ := by simpa [closed] using h
      exact ⟨[], text, rest, rfl, closedBlocks_nil m, next⟩
  | cons c blocks ih =>
    obtain none_closed | ⟨c', rest, hm, next, closed⟩ := closedBlocks_cases m text
    · simp [none_closed] at h
    · obtain ⟨rfl, others⟩ : c' = c ∧ (m.closedBlocks rest).1 = blocks ++ b :: later := by
        simpa [closed] using h
      obtain ⟨front, rest₁, rest', rfl, front_closed, next'⟩ := ih others
      refine ⟨c'.before ++ m.opening ++ (c'.body ++ m.closing) ++ front, rest₁, rest', ?_, ?_,
        next'⟩
      · rw [eq_append_of_nextBlock? next, List.append_assoc _ front]
      · rw [closedBlocks_of_some hm (nextBlock?_append (nextBlock?_front next) front),
          List.nil_append, front_closed]

variable {front : List Char} {b : Block} {blocks : List Block}

/-- Behind the blocks of a front, a piece without the whole of its marker is left over. -/
theorem closedBlocks_before_marker {rest rest' : List Char}
    (front_closed : m.closedBlocks front = (blocks, [])) (hm : m.opening ≠ [])
    (next : m.nextBlock? rest = some (b, rest')) :
    m.closedBlocks (front ++ (b.before ++ m.opening.dropLast)) =
      (blocks, b.before ++ m.opening.dropLast) := by
  obtain ⟨opened, hopen, -⟩ := nextBlock?_eq_some_iff.1 next
  have unopened : Text.cut? m.opening (b.before ++ m.opening.dropLast) = none := by
    refine Text.cut?_eq_none_iff.2 ?_
    rintro ⟨x, y, occurs⟩
    have whole : b.before ++ m.opening =
        x ++ m.opening ++ (y ++ [m.opening.getLast hm]) := by
      rw [← List.append_assoc, occurs, List.append_assoc, List.dropLast_append_getLast]
    have first := Text.length_before_le (Text.cut?_front hopen) whole
    have := congrArg List.length occurs
    have := List.length_pos_iff.2 hm
    simp only [List.length_append, List.length_dropLast] at *
    omega
  have none_closed : m.nextBlock? (b.before ++ m.opening.dropLast) = none := by
    rw [nextBlock?, unopened]
  rw [closedBlocks_append, front_closed, List.nil_append, closedBlocks_of_none none_closed]
  simp

/-- While the marker of a block is still short of its last character, the text in front of the block
is shown up to any of its endings that are not empty. -/
theorem lt_length_shownSoFar {rest rest' beginning : List Char}
    (front_closed : m.closedBlocks front = (blocks, [])) (hm : m.opening ≠ [])
    (next : m.nextBlock? rest = some (b, rest')) (whole : ∀ c ∈ blocks, ¬ m.HalfOpened c)
    (some_text : beginning ≠ []) (ending : beginning <:+ b.before) :
    ((blocks.map Block.before).flatten).length + (b.before.length - beginning.length) <
      (m.shownSoFar (front ++ (b.before ++ m.opening.dropLast))).length := by
  have closed := closedBlocks_before_marker front_closed hm next
  have pos := List.length_pos_iff.2 some_text
  have fits := ending.length_le
  obtain all | opens := shownSoFar_eq_or_mayOpen m (front ++ (b.before ++ m.opening.dropLast))
  · rw [all, withoutBlocks_eq, closed]
    simp only [List.length_append]
    omega
  · obtain ⟨-, opens⟩ := opens
    rw [withoutBlocks_eq, closed] at opens
    generalize (m.shownSoFar (front ++ (b.before ++ m.opening.dropLast))).length = k at opens ⊢
    have free (c : Block) (hc : c ∈ blocks) : ¬ m.opening <:+: c.before :=
      not_infix_before_of_mem (show c ∈ (m.closedBlocks front).1 by rwa [front_closed])
    have behind := length_flatten_le_of_opens free whole opens
    obtain ⟨j, rfl⟩ := Nat.exists_eq_add_of_le behind
    rw [List.drop_length_add_append] at opens
    by_contra early
    -- then the whole marker would stand in front of where it is found
    rw [List.drop_append_of_le_length (by omega)] at opens
    have long : m.opening.length ≤ (b.before.drop j ++ m.opening.dropLast).length := by
      rw [List.length_append, List.length_drop, List.length_dropLast]
      omega
    have occurs : m.opening <+: b.before.drop j ++ m.opening.dropLast := by
      obtain occurs | begins := opens
      · exact occurs
      · rw [begins.eq_of_length_le long]
    obtain ⟨opened, hopen, -⟩ := nextBlock?_eq_some_iff.1 next
    obtain ⟨after, found⟩ := occurs
    have first := Text.length_before_le (Text.cut?_front hopen)
      (x := b.before.take j) (y := after ++ [m.opening.getLast hm]) (by
        rw [List.append_assoc, ← List.append_assoc m.opening, found, List.append_assoc,
          List.dropLast_append_getLast, ← List.append_assoc, List.take_append_drop])
    rw [List.length_take] at first
    omega

/-- **A half opened block takes something back** from text that was shown in front of it. -/
theorem exists_taken_back_of_halfOpened
    (h : ∃ b ∈ (m.closedBlocks text).1, m.HalfOpened b) :
    ∃ front piece back, text = front ++ (piece ++ back) ∧
      ¬ m.shownSoFar front <+: m.shownSoFar (front ++ piece) := by
  -- the first such block: no marker may begin in front of the blocks before it
  obtain ⟨b, blocks, later, split, whole, beginning, some_text, ending, begins⟩ :
      ∃ b blocks later, (m.closedBlocks text).1 = blocks ++ b :: later ∧
        (∀ c ∈ blocks, ¬ m.HalfOpened c) ∧ m.HalfOpened b := by
    obtain ⟨c, hc, half⟩ := h
    obtain ⟨b, found⟩ := Option.isSome_iff_exists.1
      (List.find?_isSome.2 ⟨c, hc, decide_eq_true half⟩ :
        ((m.closedBlocks text).1.find? (decide <| m.HalfOpened ·)).isSome)
    obtain ⟨half, blocks, later, split, whole⟩ := List.find?_eq_some_iff_append.1 found
    exact ⟨b, blocks, later, split, by simpa using whole, by simpa using half⟩
  obtain ⟨front, rest, rest', rfl, front_closed, next⟩ := exists_front_of_append split
  have hm : m.opening ≠ [] := by
    rintro hm
    simp [closedBlocks_of_opening_eq_nil hm] at split
  have shown := lt_length_shownSoFar front_closed hm next whole some_text ending
  refine ⟨front ++ (b.before ++ m.opening.dropLast),
    m.opening.getLast hm :: (b.body ++ m.closing), rest', ?_, ?_⟩
  · rw [eq_append_of_nextBlock? next]
    conv_lhs => rw [← List.dropLast_append_getLast hm]
    simp
  rw [shownSoFar_prefix_iff]
  intro kept
  refine absurd (kept _ ?_) (Nat.not_le.2 shown)
  -- with the block closed, the text ends with the beginning of a marker
  have block : front ++ (b.before ++ m.opening.dropLast) ++
      m.opening.getLast hm :: (b.body ++ m.closing) =
        front ++ (b.before ++ m.opening ++ (b.body ++ m.closing)) := by
    conv_rhs => rw [← List.dropLast_append_getLast hm]
    simp
  have closed : m.withoutBlocks (front ++ (b.before ++ m.opening ++ (b.body ++ m.closing))) =
      (blocks.map Block.before).flatten ++ b.before := by
    rw [withoutBlocks_eq, closedBlocks_append, front_closed, List.nil_append,
      closedBlocks_of_some hm (nextBlock?_front next), closedBlocks_nil]
    simp
  have fits := ending.length_le
  have pos := List.length_pos_iff.2 some_text
  rw [MayOpen, block, closed, List.drop_length_add_append, ← List.suffix_iff_eq_drop.1 ending]
  refine ⟨?_, .inr begins⟩
  rw [List.length_append]
  omega

end Markers

/-! ### A stream of pieces -/

namespace TextStream

open Markers (shownSoFar_prefix_iff shown_eq_outside_iff)

variable {g : TextGrammar}

/-- What is shown piece by piece of a text that goes on. -/
def displays (m : Markers) (text : List Char) : List (List Char) → List (List Char)
  | [] => []
  | piece :: rest => m.shownSoFar (text ++ piece) :: displays m (text ++ piece) rest

theorem feedAll_displays (g : TextGrammar) {stream : TextStream} (h : stream.finished = false)
    (pieces : List (List Char)) (n : Nat) :
    ∃ stream' deliveries, stream.feedAll g pieces n = .ok (stream', deliveries) ∧
      stream'.text = stream.text ++ pieces.flatten ∧
      deliveries.map Delivery.shown = displays g.markers stream.text pieces := by
  induction pieces generalizing stream n with
  | nil => exact ⟨stream, [], rfl, by simp, rfl⟩
  | cons piece pieces ih =>
    obtain ⟨stream₁, delivery, hfeed, hstream₁, text, shown⟩ := feed_shows (g := g) h piece n
    obtain ⟨stream₂, deliveries, hrest, whole, others⟩ := ih hstream₁ delivery.reading.next
    refine ⟨stream₂, delivery :: deliveries, ?_, ?_, ?_⟩
    · simp only [feedAll, hfeed, hrest, bind, Except.bind, pure, Except.pure]
    · rw [whole, text, List.flatten_cons, List.append_assoc]
    · rw [List.map_cons, shown, others, text, displays]

/-- Each display goes on from the one before exactly where no piece takes anything back. -/
theorem isChain_displays_iff (m : Markers) (text : List Char) (pieces : List (List Char)) :
    (m.shownSoFar text ::
        (displays m text pieces ++ [m.shown (text ++ pieces.flatten)])).IsChain (· <+: ·) ↔
      ∀ front piece back, pieces = front ++ piece :: back →
        m.shownSoFar (text ++ front.flatten) <+:
          m.shownSoFar (text ++ front.flatten ++ piece) := by
  induction pieces generalizing text with
  | nil => simp [displays, Markers.shownSoFar_prefix_shown]
  | cons piece pieces ih =>
    rw [displays, List.cons_append, List.isChain_cons_cons, List.flatten_cons,
      ← List.append_assoc text, ih]
    constructor
    · rintro ⟨here, later⟩ front piece' back split
      cases front with
      | nil =>
        obtain ⟨rfl, -⟩ : piece = piece' ∧ pieces = back := by simpa using split
        simpa using here
      | cons p front =>
        obtain ⟨rfl, rfl⟩ : piece = p ∧ pieces = front ++ piece' :: back := by simpa using split
        simpa using later front piece' back rfl
    · intro all
      refine ⟨by simpa using all [] piece pieces rfl, fun front piece' back split => ?_⟩
      simpa using all (piece :: front) piece' back (by rw [split]; rfl)

/-- Nothing that was shown is taken back, and in the end all that is outside the blocks is shown. -/
def Steady (g : TextGrammar) (applyBlocks : Bool) (pieces : List (List Char)) : Prop :=
  ∀ n, ∃ stream deliveries, feedAll g { applyBlocks } pieces n = .ok (stream, deliveries) ∧
    ∀ n', (deliveries.map Delivery.shown ++ [(stream.finish g n').2.shown]).IsChain (· <+: ·) ∧
      (stream.finish g n').2.shown = g.markers.outside pieces.flatten

theorem steady_iff_shown (applyBlocks : Bool) (pieces : List (List Char)) :
    Steady g applyBlocks pieces ↔
      g.markers.shown pieces.flatten = g.markers.outside pieces.flatten ∧
        ∀ front piece back, pieces = front ++ piece :: back →
          g.markers.shownSoFar front.flatten <+: g.markers.shownSoFar (front.flatten ++ piece) := by
  have start : g.markers.shownSoFar [] = [] := by
    have nothing := Markers.shownSoFar_prefix g.markers []
    have := nothing.length_le
    rw [Markers.withoutBlocks_eq, Markers.closedBlocks_nil] at this
    exact List.eq_nil_of_length_eq_zero (Nat.le_zero.1 this)
  have chain := isChain_displays_iff g.markers [] pieces
  simp only [start, List.nil_append] at chain
  rw [← chain]
  have head : ([] :: (displays g.markers [] pieces ++ [g.markers.shown pieces.flatten])).IsChain
      (· <+: ·) ↔
        (displays g.markers [] pieces ++ [g.markers.shown pieces.flatten]).IsChain (· <+: ·) := by
    cases displays g.markers [] pieces <;> simp
  rw [head]
  constructor
  · intro steady
    obtain ⟨stream, deliveries, fed, law⟩ := steady 1
    obtain ⟨stream', deliveries', fed', whole, shown⟩ :=
      feedAll_displays g (show ({ applyBlocks } : TextStream).finished = false from rfl) pieces 1
    obtain ⟨rfl, rfl⟩ : stream = stream' ∧ deliveries = deliveries' := by simpa [fed] using fed'
    have last : (stream.finish g 1).2.shown = g.markers.shown pieces.flatten := by
      rw [finish, whole]
      rfl
    have law := law 1
    rw [last, shown] at law
    exact law.symm
  · rintro ⟨all, law⟩ n
    obtain ⟨stream, deliveries, fed, whole, shown⟩ :=
      feedAll_displays g (show ({ applyBlocks } : TextStream).finished = false from rfl) pieces n
    refine ⟨stream, deliveries, fed, fun n' => ?_⟩
    have last : (stream.finish g n').2.shown = g.markers.shown pieces.flatten := by
      rw [finish, whole]
      rfl
    rw [last, shown]
    exact ⟨law, all⟩

/-- **When a display is steady.** A text is shown steadily however it is cut exactly where none of its
closed blocks stands right behind the beginning of an opening marker. Cut in one way it is exactly
where no marker stands across the place of a block, and no piece lets a marker begin, now or
perhaps, before the end of what was shown. -/
theorem steady_iff (g : TextGrammar) (text : List Char) :
    ((∀ applyBlocks pieces, pieces.flatten = text → Steady g applyBlocks pieces) ↔
        ∀ b ∈ (g.markers.closedBlocks text).1, ¬ g.markers.HalfOpened b) ∧
      ∀ applyBlocks pieces, pieces.flatten = text →
        (Steady g applyBlocks pieces ↔
          ¬ g.markers.JoinsMarker text ∧
            ∀ front piece back, pieces = front ++ piece :: back →
              ∀ n, g.markers.MayOpen (front.flatten ++ piece) n →
                (g.markers.shownSoFar front.flatten).length ≤ n) := by
  constructor
  · constructor
    · intro steady b hb half
      obtain ⟨front, piece, back, rfl, taken⟩ :=
        Markers.exists_taken_back_of_halfOpened ⟨b, hb, half⟩
      have cut := steady true [front, piece, back] (by simp)
      rw [steady_iff_shown] at cut
      have kept := cut.2 [front] piece [back] rfl
      rw [List.flatten_singleton] at kept
      exact taken kept
    · rintro whole applyBlocks pieces rfl
      refine (steady_iff_shown applyBlocks pieces).2 ⟨shown_eq_outside_iff.2
        (Markers.not_joinsMarker_of_not_halfOpened whole), fun front piece back split => ?_⟩
      refine Markers.shownSoFar_prefix_of_not_halfOpened fun b hb => whole b ?_
      rw [split, List.flatten_append, List.flatten_cons, ← List.append_assoc,
        Markers.closedBlocks_append]
      exact List.mem_append_left _ hb
  · rintro applyBlocks pieces rfl
    rw [steady_iff_shown, shown_eq_outside_iff]
    simp only [shownSoFar_prefix_iff]

/-- A block may be cut inside its markers. -/
theorem steady_cut_markers :
    ["a <Var".toList, "iablePatch>[]</Vari".toList, "ablePatch> b <".toList].flatten =
        "a <VariablePatch>[]</VariablePatch> b <".toList ∧
      Steady (Settings.grammar {}) true
        ["a <Var".toList, "iablePatch>[]</Vari".toList, "ablePatch> b <".toList] := by
  have block : (Settings.grammar {}).markers.nextBlock?
      "a <VariablePatch>[]</VariablePatch> b <".toList =
        some (⟨['a', ' '], ['[', ']']⟩, " b <".toList) := by decide
  refine ⟨by decide, (steady_iff _ "a <VariablePatch>[]</VariablePatch> b <".toList).1.2 ?_ true _
    (by decide)⟩
  rw [Markers.closedBlocks_of_some (by decide) block, Markers.closedBlocks_of_none (by decide)]
  decide

/-! ### Taken back, and hidden for good -/

/-- A block right behind the first character of its own marker. -/
def halfOpenedText : List Char := "<<VariablePatch>[]</VariablePatch>".toList

theorem withoutBlocks_halfOpenedText :
    (Settings.grammar {}).markers.withoutBlocks halfOpenedText = ['<'] := by
  have block : (Settings.grammar {}).markers.nextBlock? halfOpenedText =
      some (⟨['<'], ['[', ']']⟩, []) := by decide
  rw [Markers.withoutBlocks_eq, Markers.closedBlocks_of_some (by decide) block,
    Markers.closedBlocks_nil]
  rfl

/-- A block in the middle of what would be a marker. -/
def joinedText : List Char := "<Variable<VariablePatch>[]</VariablePatch>Patch> hi".toList

theorem closedBlocks_joinedText :
    (Settings.grammar {}).markers.closedBlocks joinedText =
      ([⟨"<Variable".toList, ['[', ']']⟩], "Patch> hi".toList) := by
  have block : (Settings.grammar {}).markers.nextBlock? joinedText =
      some (⟨"<Variable".toList, ['[', ']']⟩, "Patch> hi".toList) := by decide
  rw [Markers.closedBlocks_of_some (by decide) block, Markers.closedBlocks_of_none (by decide)]

/-- **A display is not always steady.** A character that was shown is taken back when the block behind
it is closed, and the text around a block is hidden for good where it makes up a marker. -/
theorem display_taken_back :
    ¬ Steady (Settings.grammar {}) true [halfOpenedText.take 2, halfOpenedText.drop 2] ∧
      ¬ Steady (Settings.grammar {}) false [joinedText] := by
  constructor
  · intro steady
    have kept := ((steady_iff_shown ..).1 steady).2 [halfOpenedText.take 2]
      (halfOpenedText.drop 2) [] rfl
    rw [List.flatten_singleton, List.take_append_drop] at kept
    have before : (Settings.grammar {}).markers.shownSoFar (halfOpenedText.take 2) = ['<'] := by
      rw [Markers.shownSoFar, Markers.withoutBlocks_eq, Markers.closedBlocks_of_none (by decide)]
      decide
    have after : (Settings.grammar {}).markers.shownSoFar halfOpenedText = [] := by
      rw [Markers.shownSoFar, withoutBlocks_halfOpenedText]
      decide
    rw [before, after] at kept
    exact absurd kept (by decide)
  · intro steady
    have all := ((steady_iff_shown ..).1 steady).1
    rw [List.flatten_singleton, Markers.shown, Markers.outside, Markers.withoutBlocks_eq,
      closedBlocks_joinedText] at all
    exact absurd all (by decide)

end TextStream

end PatchScript
