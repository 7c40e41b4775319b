import PatchScript.Proofs.Path.Parse
import PatchScript.Proofs.Path.Weight

/-!
# What is read back

Canonical spellings put keys down as they stand, so not every path is read back from its spelling.
It is exactly where its keys are solid, where no bracket in a key finds one that closes it further
on in the spelling, and where the spelling is not taken for one with slashes.

## Main definitions

* `Path.SolidKey`, `Path.StaysOpen`, `Segment.Survives` — what a key needs to be read back
* `Path.ReadsBack` — what a path needs

## Main results

* `Path.parse_canonical_iff` — the paths that are read back from their canonical spelling
-/

namespace PatchScript

namespace Path

open Text

/-- A key that is kept between dividers: it is not empty, no blank stands at its ends, it does not
begin with the mark of quoted parts, and it has no dot. -/
structure SolidKey (k : List Char) : Prop where
  ne_nil : k ≠ []
  trim_eq : trim k = k
  unmarked : ∀ c ∈ k.head?, c ≠ quotedMark
  undotted : '.' ∉ k

/-- No bracket that opens in a text is closed in it or behind it. -/
def StaysOpen (text behind : List Char) : Prop :=
  ∀ front back, text = front ++ '[' :: back → ']' ∉ back ++ behind

end Path

/-- A segment that is read back from its place in a spelling, before the spelling of others. -/
def Segment.Survives (behind : List Char) : Segment → Prop
  | .key k => Path.SolidKey k.toList ∧ Path.StaysOpen k.toList behind
  | .index _ | .append => True
  | .other _ => False

namespace Path

open Text

/-- Every segment survives before those that follow it. -/
def Survives : Path → Prop
  | [] => True
  | s :: path => s.Survives (path.flatMap spelledAfter) ∧ Survives path

/-- A path that is read back from its canonical spelling. -/
structure ReadsBack (path : Path) : Prop where
  /-- Every segment is kept in its place. -/
  survives : Survives path
  /-- The spelling is not taken for one with slashes. -/
  slashless : usesSlashes (canonicalChars path) = false

variable {part text tail : List Char} {path : Path} {k : String} {s : Segment}

/-! ### Segments that are read -/

/-- A part that is read as a key is the key, but for a mark in front. -/
theorem eq_of_segmentOf_eq_key (h : segmentOf part = .key k) :
    part = k.toList ∨ part = quotedMark :: k.toList := by
  cases part with
  | nil =>
    obtain rfl : "" = k := by simpa [segmentOf] using h
    exact .inl rfl
  | cons c rest =>
    by_cases hyphen : c :: rest = ['-']
    · rw [hyphen] at h
      cases h
    by_cases marked : c = quotedMark
    · subst marked
      rw [segmentOf_marked] at h
      obtain rfl := Segment.key.inj h
      exact .inr (by simp)
    · rw [segmentOf_unmarked (by simp) hyphen (by simpa using marked)] at h
      cases read : integer? (c :: rest) with
      | some i => simp [read] at h
      | none =>
        simp only [read] at h
        obtain rfl := Segment.key.inj h
        exact .inl (by simp)

theorem length_le_of_segmentOf_eq_key (h : segmentOf part = .key k) :
    k.toList.length ≤ part.length := by
  rcases eq_of_segmentOf_eq_key h with rfl | rfl
  · exact Nat.le_refl _
  · simp

theorem mem_segmentsOf {parts : List (List Char)} (h : s ∈ segmentsOf parts) :
    ∃ part ∈ parts, trim part ≠ [] ∧ segmentOf (trim part) = s := by
  obtain ⟨trimmed, mem, equal⟩ := List.mem_map.1 h
  obtain ⟨kept, some_text⟩ := List.mem_filter.1 mem
  obtain ⟨part, hpart, rfl⟩ := List.mem_map.1 kept
  exact ⟨part, hpart, by simpa using some_text, equal⟩

/-- A key that is read has no blank at its end. -/
theorem isBlank_getLast_of_mem_segmentsOf {parts : List (List Char)}
    (h : .key k ∈ segmentsOf parts) : ∀ c ∈ k.toList.getLast?, isBlank c = false := by
  obtain ⟨part, -, some_text, read⟩ := mem_segmentsOf h
  have last := (trim_eq_self_iff.1 (trim_trim part)).2
  intro c hc
  rcases eq_of_segmentOf_eq_key read with equal | equal
  · exact last c (equal ▸ hc)
  · refine last c ?_
    rw [equal, List.getLast?_cons, hc]
    rfl

/-- A key that is written in brackets is plain if no blank stands at its end. -/
theorem plainKey_of_isBracketed (last : ∀ c ∈ k.toList.getLast?, isBlank c = false)
    (h : isBracketed (.key k) = true) : PlainKey k.toList := by
  rcases isBracketed_key.1 h with number | hyphen
  · have unended : k.toList.getLast? ≠ some '\n' := by
      intro ended
      have := last _ ended
      revert this
      decide
    have read : (integer? k.toList).isSome = true := by
      rw [looksLikeIndex] at number
      simpa [unended] using number
    have some_text : k.toList ≠ [] := by
      intro none
      rw [none] at read
      revert read
      decide
    have chars (c : Char) (hc : c ∈ k.toList) :
        isBlank c = false ∧ c ≠ quotedMark ∧ c ≠ '.' ∧ c ≠ '/' ∧ c ≠ '[' := by
      rcases mem_of_integer? read hc with rfl | digit
      · decide
      · refine ⟨isBlank_of_digitValue? digit, ?_, ?_, ?_, ?_⟩ <;>
          (rintro rfl; revert digit; decide)
    exact ⟨some_text, trim_eq_self_iff.2 ⟨fun c hc => (chars c (List.mem_of_head? hc)).1, last⟩,
      fun c hc => (chars c (List.mem_of_head? hc)).2.1, fun c hc => (chars c hc).2.2⟩
  · rw [hyphen]
    decide

/-- What is read and written in brackets is plain. -/
theorem isPlain_of_mem_segmentsOf {parts : List (List Char)} (h : s ∈ segmentsOf parts)
    (bracketed : isBracketed s = true) : s.IsPlain := by
  cases s with
  | key k => exact plainKey_of_isBracketed (isBlank_getLast_of_mem_segmentsOf h) bracketed
  | index _ | append => trivial
  | other v =>
    obtain ⟨part, -, -, read⟩ := mem_segmentsOf h
    exact absurd read (segmentOf_ne_other _ v)

/-! ### Dividers -/

/-- Either nothing divides a text, or it is divided first by a dot or by a bracket that is closed
later on. -/
theorem dottedParts_cases (text tail : List Char) :
    ('.' ∉ text ∧ StaysOpen text tail ∧
      ∀ current, dottedParts (text ++ tail) current = dottedParts tail (text.reverse ++ current)) ∨
    ∃ front c back, text = front ++ c :: back ∧ (c = '.' ∨ c = '[' ∧ ']' ∈ back ++ tail) ∧
      ∀ current, dottedParts (text ++ tail) current = (current.reverse ++ front) ::
        if c = '.' then dottedParts (back ++ tail) [] else bracketParts (back ++ tail) [] := by
  induction text with
  | nil => exact .inl ⟨by simp, by rintro (_ | _) _ ⟨⟩, fun _ => rfl⟩
  | cons c text ih =>
    by_cases dot : c = '.'
    · exact .inr ⟨[], c, text, rfl, .inl dot, fun current => by
        rw [List.cons_append, dottedParts, if_pos dot, if_pos dot, List.append_nil]⟩
    by_cases closed : c = '[' ∧ ']' ∈ text ++ tail
    · exact .inr ⟨[], c, text, rfl, .inr closed, fun current => by
        rw [List.cons_append, dottedParts, if_neg dot, if_pos (by simpa using closed), if_neg dot,
          List.append_nil]⟩
    have taken (current : List Char) :
        dottedParts (c :: text ++ tail) current = dottedParts (text ++ tail) (c :: current) := by
      rw [List.cons_append, dottedParts, if_neg dot, if_neg (by simpa using closed)]
    obtain ⟨undotted, stays, whole⟩ | ⟨front, d, back, rfl, divides, parted⟩ := ih
    · refine .inl ⟨by simpa using ⟨fun h => dot h.symm, undotted⟩, ?_, fun current => ?_⟩
      · rintro (_ | ⟨d, front⟩) back equal
        · obtain ⟨rfl, rfl⟩ := List.cons.inj equal
          exact fun mem => closed ⟨rfl, mem⟩
        · exact stays front back (List.cons.inj equal).2
      · rw [taken, whole]
        simp
    · refine .inr ⟨c :: front, d, back, rfl, divides, fun current => ?_⟩
      rw [taken, parted]
      simp

/-- What is being read ends where the next segment is spelled. -/
theorem segmentsOf_dottedParts_spelledAfter
    (plain : ∀ s ∈ path, isBracketed s = true → s.IsPlain) (current : List Char) :
    segmentsOf (dottedParts (path.flatMap spelledAfter) current) =
      segmentsOf [current.reverse] ++ segmentsOf (dottedParts (path.flatMap spelledAfter) []) := by
  cases path with
  | nil => simp [dottedParts, segmentsOf_nil_part]
  | cons s path =>
    rw [List.flatMap_cons]
    obtain ⟨bracketed, -, after⟩ | ⟨k, rfl, bare, -, after⟩ := spelled_cases s
    · have closed := closing_notMem_content (plain s (by simp) bracketed) bracketed
      rw [after, List.append_assoc, List.singleton_append, dottedParts_bracket closed,
        dottedParts_bracket closed, segmentsOf_cons, segmentsOf_cons [].reverse]
      rfl
    · rw [after, List.cons_append, dottedParts, if_pos rfl, dottedParts, if_pos rfl,
        segmentsOf_cons, segmentsOf_cons [].reverse]
      rfl

/-! ### Reading a key -/

/-- A bare key is read back from a part of its own exactly where it is solid. -/
theorem segmentOf_trim_iff (bare : isBracketed (.key k) = false) (undotted : '.' ∉ k.toList) :
    trim k.toList ≠ [] ∧ segmentOf (trim k.toList) = .key k ↔ SolidKey k.toList := by
  constructor
  · rintro ⟨some_text, read⟩
    have trimmed : trim k.toList = k.toList := by
      refine (eq_of_segmentOf_eq_key read).resolve_right fun marked => ?_
      have := (trim_sublist k.toList).length_le
      rw [marked, List.length_cons] at this
      omega
    refine ⟨trimmed ▸ some_text, trimmed, ?_, undotted⟩
    rintro c hc rfl
    obtain ⟨rest, marked⟩ := List.head?_eq_some_iff.1 hc
    rw [trimmed, marked, segmentOf_marked] at read
    have := congrArg (·.toList.length) (Segment.key.inj read)
    simp [marked] at this
  · intro solid
    obtain ⟨hyphen, unread⟩ := unread_of_not_isBracketed bare
    rw [solid.trim_eq, segmentOf_unmarked solid.ne_nil hyphen solid.unmarked, unread]
    exact ⟨solid.ne_nil, by simp⟩

/-- A bare key is read back, and then what is spelled behind it, exactly where it is solid and none
of its brackets is closed. -/
theorem segmentsOf_bare_iff (bare : isBracketed (.key k) = false)
    (plain : ∀ s ∈ path, isBracketed s = true → s.IsPlain) :
    segmentsOf (dottedParts (k.toList ++ path.flatMap spelledAfter) []) = .key k :: path ↔
      (Segment.key k).Survives (path.flatMap spelledAfter) ∧
        segmentsOf (dottedParts (path.flatMap spelledAfter) []) = path := by
  obtain ⟨within, behind⟩ := weighsUpTo_spelledAfter plain
  have weight : totalWeight (.key k :: path) = textWeight k.toList + 1 + totalWeight path := by
    rw [totalWeight_cons, weight_of_not_isBracketed bare, Segment.label]
  obtain ⟨undotted, stays, whole⟩ | ⟨front, c, back, equal, divides, parted⟩ :=
    dottedParts_cases k.toList (path.flatMap spelledAfter)
  · -- the key is a part of its own
    have survives : (Segment.key k).Survives (path.flatMap spelledAfter) ↔
        trim k.toList ≠ [] ∧ segmentOf (trim k.toList) = .key k := by
      rw [segmentOf_trim_iff bare undotted]
      exact and_iff_left stays
    rw [whole, segmentsOf_dottedParts_spelledAfter plain, List.append_nil, List.reverse_reverse,
      survives]
    by_cases blank : trim k.toList = []
    · -- a key that is skipped is missed
      have light := behind []
      rw [List.reverse_nil, segmentsOf_nil_part, totalWeight_nil] at light
      rw [segmentsOf_blank blank, List.nil_append]
      refine iff_of_false (fun read => ?_) fun solid => solid.1.1 blank
      rw [read, weight] at light
      omega
    · simp [segmentsOf_solid blank, blank]
  · refine iff_of_false (fun read => ?_) ?_
    · have longer : front.length < k.toList.length := by simp [equal]
      rw [parted, List.reverse_nil, List.nil_append, segmentsOf_cons] at read
      by_cases blank : trim front = []
      · -- the divider is missed
        rw [segmentsOf_blank blank, List.nil_append] at read
        have light : totalWeight (.key k :: path) ≤
            textWeight [] + 1 + (textWeight back + totalWeight path) := by
          rw [← read]
          split
          · exact (within.append back).dotted []
          · exact (within.append back).bracketed []
        have divider := textWeight_pos c
        rw [weight, equal, textWeight_append, textWeight_cons, show textWeight [] = 0 from rfl]
          at light
        omega
      · -- what is read in front of the divider is too short
        rw [segmentsOf_solid blank, List.singleton_append] at read
        have short := (trim_sublist front).length_le
        have := length_le_of_segmentOf_eq_key (List.cons.inj read).1
        omega
    · rintro ⟨⟨solid, stays⟩, -⟩
      obtain rfl | ⟨rfl, closed⟩ := divides
      · exact solid.undotted (by simp [equal])
      · exact stays front back equal closed

/-! ### Reading a path -/

/-- A segment in brackets survives everywhere. -/
theorem survives_of_isPlain (plain : s.IsPlain) (bracketed : isBracketed s = true)
    (behind : List Char) : s.Survives behind := by
  cases s with
  | key k =>
    refine ⟨⟨plain.ne_nil, plain.trim_eq, plain.unmarked, fun h => (plain.undivided _ h).1 rfl⟩, ?_⟩
    exact fun front back equal => absurd rfl (plain.undivided '[' (by simp [equal])).2.2
  | index _ | append => trivial
  | other _ => exact plain.elim

/-- A segment in brackets is read back, and then what is spelled behind it. -/
theorem segmentsOf_bracketed_iff (bracketed : isBracketed s = true)
    (plain : ∀ t ∈ s :: path, isBracketed t = true → t.IsPlain) :
    segmentsOf (dottedParts ('[' :: content s ++ ']' :: path.flatMap spelledAfter) []) = s :: path ↔
      s.Survives (path.flatMap spelledAfter) ∧
        segmentsOf (dottedParts (path.flatMap spelledAfter) []) = path := by
  have hs := plain s (by simp) bracketed
  rw [dottedParts_bracket (closing_notMem_content hs bracketed), segmentsOf_cons,
    segmentsOf_cons (bracketPart _), segmentsOf_bracketPart hs bracketed, List.reverse_nil,
    segmentsOf_nil_part, List.nil_append, List.singleton_append, List.cons_inj_right]
  exact (and_iff_right (survives_of_isPlain hs bracketed _)).symm

/-- Segments behind others are read back exactly where each of them survives. -/
theorem segmentsOf_spelledAfter_iff (plain : ∀ s ∈ path, isBracketed s = true → s.IsPlain) :
    segmentsOf (dottedParts (path.flatMap spelledAfter) []) = path ↔ Survives path := by
  induction path with
  | nil => exact iff_of_true rfl trivial
  | cons s path ih =>
    have others := fun t ht => plain t (List.mem_cons_of_mem s ht)
    rw [Survives, ← ih others, List.flatMap_cons]
    obtain ⟨bracketed, -, after⟩ | ⟨k, rfl, bare, -, after⟩ := spelled_cases s
    · rw [after, List.append_assoc, List.singleton_append]
      exact segmentsOf_bracketed_iff bracketed plain
    · rw [after, List.cons_append, dottedParts, if_pos rfl, segmentsOf_cons, List.reverse_nil,
        segmentsOf_nil_part, List.nil_append]
      exact segmentsOf_bare_iff bare others

/-- The empty key leaves no trace at the front of a spelling; any other segment is followed by the
others. -/
theorem canonicalChars_cases (s : Segment) (path : Path) :
    (s = .key "" ∧ canonicalChars (s :: path) = canonicalChars path) ∨
    (isBracketed s = true ∧
      canonicalChars (s :: path) = '[' :: content s ++ ']' :: path.flatMap spelledAfter) ∨
    ∃ k, s = .key k ∧ isBracketed (.key k) = false ∧ k.toList ≠ [] ∧
      canonicalChars (s :: path) = k.toList ++ path.flatMap spelledAfter := by
  rw [canonicalChars, List.foldl_cons, spell_nil]
  obtain ⟨bracketed, first, -⟩ | ⟨k, rfl, bare, first, -⟩ := spelled_cases s
  · refine .inr (.inl ⟨bracketed, ?_⟩)
    rw [first, foldl_spell (by simp), List.append_assoc, List.singleton_append]
  · by_cases none : k.toList = []
    · obtain rfl : k = "" := String.toList_eq_nil_iff.1 none
      exact .inl ⟨rfl, rfl⟩
    · exact .inr (.inr ⟨k, rfl, bare, none, by rw [first, foldl_spell none]⟩)

/-- Reading a whole spelling adds no weight. -/
theorem totalWeight_canonicalChars_le (plain : ∀ s ∈ path, isBracketed s = true → s.IsPlain) :
    totalWeight (segmentsOf (dottedParts (canonicalChars path) [])) ≤ totalWeight path := by
  induction path with
  | nil => exact Nat.le_refl _
  | cons s path ih =>
    have others := fun t ht => plain t (List.mem_cons_of_mem s ht)
    obtain ⟨rfl, skipped⟩ | ⟨bracketed, spelled⟩ | ⟨k, rfl, bare, -, spelled⟩ :=
      canonicalChars_cases s path
    · have := ih others
      rw [skipped, totalWeight_cons]
      omega
    · have light := (weighsUpTo_spelledAfter plain).2 []
      have after : spelledAfter s = '[' :: content s ++ [']'] := if_pos bracketed
      rw [List.flatMap_cons, after, List.append_assoc, List.singleton_append] at light
      simpa [spelled, segmentsOf_nil_part] using light
    · have light := ((weighsUpTo_spelledAfter others).1.append k.toList).dotted []
      rw [spelled, totalWeight_cons, weight_of_not_isBracketed bare, Segment.label]
      rw [show textWeight [] = 0 from rfl] at light
      omega

/-- A path is read back from its spelling exactly where each segment survives. -/
theorem segmentsOf_canonicalChars_iff (plain : ∀ s ∈ path, isBracketed s = true → s.IsPlain) :
    segmentsOf (dottedParts (canonicalChars path) []) = path ↔ Survives path := by
  cases path with
  | nil => exact iff_of_true rfl trivial
  | cons s path =>
    have others := fun t ht => plain t (List.mem_cons_of_mem s ht)
    obtain ⟨rfl, skipped⟩ | ⟨bracketed, spelled⟩ | ⟨k, rfl, bare, -, spelled⟩ :=
      canonicalChars_cases s path
    · -- the empty key is missed
      have light := totalWeight_canonicalChars_le others
      refine iff_of_false (fun read => ?_) fun survives => survives.1.1.ne_nil rfl
      rw [skipped] at read
      rw [read, totalWeight_cons, weight] at light
      omega
    · rw [spelled, segmentsOf_bracketed_iff bracketed plain, segmentsOf_spelledAfter_iff others]
      rfl
    · rw [spelled, segmentsOf_bare_iff bare others, segmentsOf_spelledAfter_iff others]
      rfl

/-! ### Blanks -/

/-- What is read before a text goes into its first part. -/
theorem dottedParts_current (text : List Char) :
    ∃ first more, ∀ current, dottedParts text current = (current.reverse ++ first) :: more := by
  induction text with
  | nil => exact ⟨[], [], fun current => by simp [dottedParts]⟩
  | cons c text ih =>
    obtain ⟨first, more, parted⟩ := ih
    by_cases dot : c = '.'
    · exact ⟨[], _, fun current => by rw [dottedParts, if_pos dot, List.append_nil]⟩
    by_cases closed : (c = '[' && text.contains ']') = true
    · exact ⟨[], _, fun current => by
        rw [dottedParts, if_neg dot, if_pos closed, List.append_nil]⟩
    · exact ⟨c :: first, more, fun current => by
        rw [dottedParts, if_neg dot, if_neg closed, parted]; simp⟩

/-- Blanks in front of a text are not read. -/
theorem segmentsOf_dottedParts_trimLeft (text : List Char) :
    segmentsOf (dottedParts (trimLeft text) []) = segmentsOf (dottedParts text []) := by
  have blanks : ∀ c ∈ text.takeWhile isBlank, isBlank c = true := fun c hc =>
    List.mem_takeWhile_imp hc
  have undivided : ∀ c ∈ text.takeWhile isBlank, c ≠ '.' ∧ c ≠ '[' := by
    intro c hc
    have := blanks c hc
    constructor <;> (rintro rfl; revert this; decide)
  obtain ⟨first, more, parted⟩ := dottedParts_current (trimLeft text)
  have same : trim (text.takeWhile isBlank ++ first) = trim first := by
    rw [trim, trimLeft, List.dropWhile_append_of_pos blanks]
    rfl
  conv_rhs => rw [← List.takeWhile_append_dropWhile (p := isBlank) (l := text)]
  rw [dottedParts_undivided undivided, ← trimLeft, parted, parted]
  simp [segmentsOf, same]

/-- A spelling ends as its last key does, or with a divider. -/
theorem isBlank_getLast_canonicalChars
    (last : ∀ k, .key k ∈ path → ∀ c ∈ k.toList.getLast?, isBlank c = false) :
    ∀ c ∈ (canonicalChars path).getLast?, isBlank c = false := by
  rcases List.eq_nil_or_concat path with rfl | ⟨path, s, rfl⟩
  · simp [canonicalChars]
  rw [canonicalChars, List.concat_eq_append, List.foldl_append, List.foldl_cons, List.foldl_nil]
  obtain ⟨bracketed, -, -⟩ | ⟨k, rfl, bare, -, -⟩ := spelled_cases s
  · rw [spell_of_isBracketed bracketed, List.getLast?_concat]
    simp
    decide
  · have ends := last k (by simp)
    rw [spell_key_of_not_isBracketed bare]
    split
    · exact ends
    · rw [List.getLast?_append_of_ne_nil _ (by simp), List.getLast?_cons]
      cases h : k.toList.getLast? with
      | none => simp; decide
      | some c => simpa using ends c h

/-! ### Slashes -/

/-- No part of a text that is taken apart at a character holds the character. -/
theorem notMem_of_mem_splitOn {c : Char} {part text : List Char} (h : part ∈ text.splitOn c) :
    c ∉ part := by
  by_cases found : c ∈ text
  · obtain ⟨front, back, rfl, first⟩ := List.eq_append_cons_of_mem found
    rw [List.splitOn_append_cons_self, List.splitOn_eq_singleton first] at h
    rcases List.mem_cons.1 h with rfl | later
    · exact first
    · exact notMem_of_mem_splitOn later
  · rw [List.splitOn_eq_singleton found, List.mem_singleton] at h
    rwa [h]
termination_by text.length

theorem slash_mem_of_usesSlashes (h : usesSlashes text = true) : '/' ∈ text := by
  by_contra slashless
  rw [usesSlashes_eq_false slashless] at h
  cases h

/-- No key that is read between slashes holds a slash. -/
theorem slash_notMem_of_mem_splitOn (h : .key k ∈ segmentsOf (text.splitOn '/')) :
    '/' ∉ k.toList := by
  obtain ⟨part, mem, -, read⟩ := mem_segmentsOf h
  intro slash
  refine notMem_of_mem_splitOn mem ((trim_sublist part).subset ?_)
  rcases eq_of_segmentOf_eq_key read with same | same
  · exact same ▸ slash
  · exact same ▸ List.mem_cons_of_mem _ slash

/-- The slashes of a spelling are those of its keys. -/
theorem exists_slash_of_mem_canonicalChars (others : ∀ v, .other v ∉ path)
    (h : '/' ∈ canonicalChars path) : ∃ k, .key k ∈ path ∧ '/' ∈ k.toList := by
  induction path using List.reverseRecOn with
  | nil => cases h
  | append_singleton path s ih =>
    rw [canonicalChars, List.foldl_append, List.foldl_cons, List.foldl_nil] at h
    by_cases slash : '/' ∈ canonicalChars path
    · obtain ⟨k, mem, hk⟩ := ih (fun v mem => others v (by simp [mem])) slash
      exact ⟨k, by simp [mem], hk⟩
    cases s with
    | key k =>
      refine ⟨k, by simp, ?_⟩
      by_contra hk
      simp only [spell] at h
      split at h
      · simp_all [canonicalChars]
      · split at h <;> simp_all [canonicalChars]
    | index i => exact absurd h (slash_notMem_spell (s := .index i) trivial slash)
    | append => exact absurd h (slash_notMem_spell (s := .append) trivial slash)
    | other v => exact absurd (List.mem_append_right _ (List.mem_singleton_self _)) (others v)

/-! ### The whole spelling -/

theorem Survives.survives (h : Survives path) (mem : s ∈ path) : ∃ behind, s.Survives behind := by
  induction path with
  | nil => cases mem
  | cons t path ih =>
    rcases List.mem_cons.1 mem with rfl | later
    · exact ⟨_, h.1⟩
    · exact ih h.2 later

theorem Survives.solid (h : Survives path) (mem : .key k ∈ path) : SolidKey k.toList := by
  obtain ⟨-, solid, -⟩ := h.survives mem
  exact solid

theorem Survives.isPlain (h : Survives path) (mem : s ∈ path) (bracketed : isBracketed s = true) :
    s.IsPlain := by
  cases s with
  | key k => exact plainKey_of_isBracketed (trim_eq_self_iff.1 (h.solid mem).trim_eq).2 bracketed
  | index _ | append => trivial
  | other v => exact (h.survives mem).choose_spec

/-- The spelling of segments that survive has no blanks at its ends. -/
theorem Survives.trim_canonicalChars (h : Survives path) :
    trim (canonicalChars path) = canonicalChars path := by
  rw [trim_eq_self_iff]
  refine ⟨?_, isBlank_getLast_canonicalChars fun k mem =>
    (trim_eq_self_iff.1 (h.solid mem).trim_eq).2⟩
  cases path with
  | nil => simp [canonicalChars]
  | cons s path =>
    obtain ⟨rfl, -⟩ | ⟨-, spelled⟩ | ⟨k, rfl, -, some_text, spelled⟩ := canonicalChars_cases s path
    · exact absurd rfl h.1.1.ne_nil
    · rw [spelled]
      simp
      decide
    · rw [spelled, List.head?_append_of_ne_nil _ some_text]
      exact (trim_eq_self_iff.1 h.1.1.trim_eq).1

/-- **The paths that are read back from their canonical spelling** are those whose segments survive
in their places and whose spelling is not taken for one with slashes. -/
theorem parse_canonical_iff : parse (canonical path) = path ↔ ReadsBack path := by
  have reading : parse (canonical path) = segmentsOf (parts (trim (canonicalChars path))) := by
    rw [parse, canonical, String.toList_ofList, parseChars]
  constructor
  · intro read
    have others (v : Value) : .other v ∉ path := read ▸ other_notMem_parse _ v
    rw [reading] at read
    have plain (s : Segment) (mem : s ∈ path) : isBracketed s = true → s.IsPlain :=
      isPlain_of_mem_segmentsOf (read ▸ mem)
    have last (k : String) (mem : .key k ∈ path) : ∀ c ∈ k.toList.getLast?, isBlank c = false :=
      isBlank_getLast_of_mem_segmentsOf (read ▸ mem)
    have slashless : usesSlashes (trim (canonicalChars path)) = false := by
      -- keys that are read between slashes have none
      rw [← Bool.not_eq_true]
      intro slashes
      obtain ⟨k, mem, slash⟩ := exists_slash_of_mem_canonicalChars others
        ((trim_sublist _).subset (slash_mem_of_usesSlashes slashes))
      rw [parts, if_pos slashes] at read
      exact slash_notMem_of_mem_splitOn (read ▸ mem) slash
    rw [parts, slashless, if_neg Bool.false_ne_true,
      trim_eq_trimLeft (isBlank_getLast_canonicalChars last),
      segmentsOf_dottedParts_trimLeft] at read
    have survives := (segmentsOf_canonicalChars_iff plain).1 read
    exact ⟨survives, survives.trim_canonicalChars ▸ slashless⟩
  · rintro ⟨survives, slashless⟩
    rw [reading, survives.trim_canonicalChars, parts, slashless, if_neg Bool.false_ne_true]
    exact (segmentsOf_canonicalChars_iff fun s mem => survives.isPlain mem).2 survives

instance : DecidablePred ReadsBack := fun _ => decidable_of_iff _ parse_canonical_iff

/-- A bracket that stays open and a slash are kept behind a dot, but a bracket that is closed by
the next index is not. -/
example : ReadsBack [.key "a", .key "b[c/d"] ∧ ¬ ReadsBack [.key "b[c", .index 0] := by decide

end Path

end PatchScript
