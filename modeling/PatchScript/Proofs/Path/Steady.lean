import PatchScript.Proofs.Path.ReadBack

/-!
# Canonical spellings that are canonical

Reading a canonical spelling and spelling what is read gives the same text only where every key
that is put down as it stands is made of pieces that are read back in their places. The pieces need
not be the key: a key that has come from between slashes may hold dots and brackets, and its text
is then that of several segments, as `a[0]` is.

## Main definitions

* `Path.SurvivesBefore` — segments that are read back from their place before a text
* `Path.Steady` — what a path needs for its spelling to be canonical

## Main results

* `Path.canonical_parse_eq_self_iff` — the texts that are canonical
* `Path.canonical_fixed_iff` — the paths whose spelling is canonical
* `Path.canonical_again_iff` — the texts whose canonical spelling is canonical
-/

namespace PatchScript

namespace Path

variable {path : Path} {s : Segment} {front tail : List Char}

/-! ### Pieces -/

/-- Every segment survives before those that follow it and the text behind them. -/
def SurvivesBefore (behind : List Char) : Path → Prop
  | [] => True
  | s :: path => s.Survives (path.flatMap spelledAfter ++ behind) ∧ SurvivesBefore behind path

/-- Each segment, following others, is spelled as pieces that survive in its place. -/
def SteadyAfter : Path → Prop
  | [] => True
  | s :: path =>
    (∃ pieces : Path, pieces.flatMap spelledAfter = spelledAfter s ∧
      SurvivesBefore (path.flatMap spelledAfter) pieces) ∧ SteadyAfter path

/-- Each segment is spelled as pieces that survive in its place. Empty keys in front leave no trace,
and the segment behind them is the first in the spelling. -/
def SteadySegments : Path → Prop
  | [] => True
  | s :: path =>
    if s = .key "" then SteadySegments path
    else
      (∃ pieces : Path, canonicalChars pieces = spelledFirst s ∧
        SurvivesBefore (path.flatMap spelledAfter) pieces) ∧ SteadyAfter path

/-- A path whose canonical spelling is canonical. -/
structure Steady (path : Path) : Prop where
  /-- Every segment is spelled as pieces that are kept. -/
  segments : SteadySegments path
  /-- The spelling is not taken for one with slashes. -/
  slashless : usesSlashes (canonicalChars path) = false

theorem survivesBefore_nil : SurvivesBefore [] path ↔ Survives path := by
  induction path with
  | nil => rfl
  | cons s path ih => rw [SurvivesBefore, Survives, List.append_nil, ih]

theorem survivesBefore_append {one other : Path} {behind : List Char} :
    SurvivesBefore behind (one ++ other) ↔
      SurvivesBefore (other.flatMap spelledAfter ++ behind) one ∧ SurvivesBefore behind other := by
  induction one with
  | nil => exact (and_iff_right trivial).symm
  | cons s one ih =>
    rw [List.cons_append, SurvivesBefore, SurvivesBefore, ih, List.flatMap_append,
      List.append_assoc, and_assoc]

theorem survives_append {one other : Path} :
    Survives (one ++ other) ↔
      SurvivesBefore (other.flatMap spelledAfter) one ∧ Survives other := by
  rw [← survivesBefore_nil, survivesBefore_append, survivesBefore_nil, List.append_nil]

/-! ### First segments -/

theorem spelledFirst_eq_nil_iff : spelledFirst s = [] ↔ s = .key "" := by
  obtain ⟨bracketed, first, -⟩ | ⟨k, rfl, -, first, -⟩ := spelled_cases s
  · refine iff_of_false (by simp [first]) ?_
    rintro rfl
    exact absurd bracketed (by decide)
  · rw [first, String.toList_eq_nil_iff, Segment.key.injEq]

/-- Any segment but the empty key is followed by the others. -/
theorem canonicalChars_cons_of_ne (h : s ≠ .key "") (path : Path) :
    canonicalChars (s :: path) = spelledFirst s ++ path.flatMap spelledAfter := by
  rw [canonicalChars, List.foldl_cons, spell_nil, foldl_spell (mt spelledFirst_eq_nil_iff.1 h)]

/-- Behind others a segment has the same spelling as in front, but for a dot before it. -/
theorem exists_spelledAfter_eq (s : Segment) : ∃ dot, spelledAfter s = dot ++ spelledFirst s := by
  obtain ⟨-, first, after⟩ | ⟨k, rfl, -, first, after⟩ := spelled_cases s
  · exact ⟨[], by rw [first, after, List.nil_append]⟩
  · exact ⟨['.'], by rw [first, after, List.singleton_append]⟩

/-- No segment that survives is the empty key. -/
theorem Survives.head_ne (h : Survives (s :: path)) : s ≠ .key "" := by
  rintro rfl
  exact h.1.1.ne_nil rfl

/-! ### Cutting a spelling -/

/-- The text is empty, or it begins as the spelling of a segment behind others. -/
def Opens (text : List Char) : Prop :=
  text = [] ∨ (∃ rest, text = '.' :: rest) ∨ ∃ rest, text = '[' :: rest ∧ ']' ∈ rest

theorem opens_spelledAfter (path : Path) : Opens (path.flatMap spelledAfter) := by
  cases path with
  | nil => exact .inl rfl
  | cons s path =>
    rw [List.flatMap_cons]
    obtain ⟨-, -, after⟩ | ⟨k, rfl, -, -, after⟩ := spelled_cases s
    · exact .inr (.inr ⟨content s ++ [']'] ++ path.flatMap spelledAfter, by simp [after], by simp⟩)
    · exact .inr (.inl ⟨k.toList ++ path.flatMap spelledAfter, by rw [after, List.cons_append]⟩)

/-- No segment opens within the spelling of one that survives. -/
theorem eq_nil_of_survives {behind back : List Char} (survives : s.Survives behind)
    (plain : isBracketed s = true → s.IsPlain) (spelled : spelledAfter s = front ++ back)
    (opens : Opens (back ++ behind)) : front = [] ∨ back = [] := by
  by_contra inner
  obtain ⟨some_front, some_back⟩ := not_or.1 inner
  obtain ⟨d, front, rfl⟩ := List.exists_cons_of_ne_nil some_front
  obtain ⟨c, back, rfl⟩ := List.exists_cons_of_ne_nil some_back
  have divides : c = '.' ∨ c = '[' ∧ ']' ∈ back ++ behind := by
    rcases opens with none | ⟨rest, dot⟩ | ⟨rest, bracket, closed⟩
    · cases none
    · exact .inl (List.cons.inj dot).1
    · obtain ⟨rfl, rfl⟩ := List.cons.inj bracket
      exact .inr ⟨rfl, closed⟩
  obtain ⟨bracketed, -, after⟩ | ⟨k, rfl, bare, -, after⟩ := spelled_cases s
  · -- a divider would be among the digits, minus signs and quotes, or the closing bracket
    rw [after] at spelled
    have equal : content s ++ [']'] = front ++ c :: back := (List.cons.inj spelled).2
    have mem : c ∈ content s ++ [']'] := by simp [equal]
    rcases List.mem_append.1 mem with inside | closing
    · have := mem_content (plain bracketed) bracketed inside
      obtain rfl | ⟨rfl, -⟩ := divides <;> revert this <;> decide
    · rw [List.mem_singleton] at closing
      subst closing
      revert divides
      simp
  · rw [after] at spelled
    obtain ⟨-, equal⟩ := List.cons.inj spelled
    obtain ⟨solid, stays⟩ := survives
    obtain rfl | ⟨rfl, closed⟩ := divides
    · exact solid.undotted (by simp [equal])
    · exact stays front back equal closed

/-- The spelling of segments that survive can be cut between them only. -/
theorem exists_split (survives : Survives path)
    (spelled : path.flatMap spelledAfter = front ++ tail) (opens : Opens tail) :
    ∃ one other, path = one ++ other ∧ one.flatMap spelledAfter = front ∧
      other.flatMap spelledAfter = tail := by
  induction path generalizing front with
  | nil =>
    obtain ⟨rfl, rfl⟩ := List.append_eq_nil_iff.1 spelled.symm
    exact ⟨[], [], rfl, rfl, rfl⟩
  | cons s path ih =>
    rw [List.flatMap_cons] at spelled
    rcases List.append_eq_append_iff.1 spelled with ⟨more, rfl, behind⟩ | ⟨back, after, rfl⟩
    · obtain ⟨one, other, rfl, hone, hother⟩ := ih survives.2 behind
      exact ⟨s :: one, other, rfl, by rw [List.flatMap_cons, hone], hother⟩
    · rcases eq_nil_of_survives survives.1 (survives.isPlain (by simp)) after opens with rfl | rfl
      · exact ⟨[], s :: path, rfl, rfl, by rw [List.flatMap_cons, after, List.nil_append]⟩
      · exact ⟨[s], path, rfl, by rw [List.flatMap_singleton, after, List.append_nil], rfl⟩

/-- The same of the spelling of a whole path. -/
theorem exists_split_first (survives : Survives path)
    (spelled : canonicalChars path = front ++ tail) (some_text : front ≠ []) (opens : Opens tail) :
    ∃ one other, path = one ++ other ∧ canonicalChars one = front ∧
      other.flatMap spelledAfter = tail := by
  cases path with
  | nil => exact absurd (List.append_eq_nil_iff.1 spelled.symm).1 some_text
  | cons s path =>
    rw [canonicalChars_cons_of_ne survives.head_ne] at spelled
    -- the first segment is spelled as if it followed others
    obtain ⟨dot, after⟩ := exists_spelledAfter_eq s
    have whole : (s :: path).flatMap spelledAfter = (dot ++ front) ++ tail := by
      rw [List.flatMap_cons, after, List.append_assoc, spelled, List.append_assoc]
    obtain ⟨one, other, equal, hone, hother⟩ := exists_split survives whole opens
    cases one with
    | nil => exact absurd (List.append_eq_nil_iff.1 hone.symm).2 some_text
    | cons t one =>
      obtain ⟨rfl, rfl⟩ := List.cons.inj equal
      refine ⟨s :: one, other, rfl, ?_, hother⟩
      rw [List.flatMap_cons, after, List.append_assoc] at hone
      rw [canonicalChars_cons_of_ne survives.head_ne]
      exact List.append_cancel_left hone

/-! ### Spellings of segments that survive -/

/-- Segments behind others are spelled as segments that survive exactly where each of them is. -/
theorem steadyAfter_iff : SteadyAfter path ↔
    ∃ other, Survives other ∧ other.flatMap spelledAfter = path.flatMap spelledAfter := by
  induction path with
  | nil => exact iff_of_true trivial ⟨[], trivial, rfl⟩
  | cons s path ih =>
    rw [SteadyAfter, ih]
    constructor
    · rintro ⟨⟨pieces, spelled, kept⟩, other, survives, same⟩
      refine ⟨pieces ++ other, survives_append.2 ⟨same ▸ kept, survives⟩, ?_⟩
      rw [List.flatMap_append, List.flatMap_cons, spelled, same]
    · rintro ⟨other, survives, same⟩
      rw [List.flatMap_cons] at same
      obtain ⟨pieces, other, rfl, spelled, behind⟩ :=
        exists_split survives same (opens_spelledAfter path)
      obtain ⟨kept, others⟩ := survives_append.1 survives
      exact ⟨⟨pieces, spelled, behind ▸ kept⟩, other, others, behind⟩

/-- A path is spelled as segments that survive exactly where each of its segments is. -/
theorem steadySegments_iff : SteadySegments path ↔
    ∃ other, Survives other ∧ canonicalChars other = canonicalChars path := by
  induction path with
  | nil => exact iff_of_true trivial ⟨[], trivial, rfl⟩
  | cons s path ih =>
    rw [SteadySegments]
    split
    · next none =>
      subst none
      exact ih
    next some_text =>
    rw [canonicalChars_cons_of_ne some_text, steadyAfter_iff]
    constructor
    · rintro ⟨⟨pieces, spelled, kept⟩, other, survives, same⟩
      have whole : Survives (pieces ++ other) := survives_append.2 ⟨same ▸ kept, survives⟩
      refine ⟨pieces ++ other, whole, ?_⟩
      cases pieces with
      | nil => exact absurd (spelledFirst_eq_nil_iff.1 spelled.symm) some_text
      | cons t pieces =>
        rw [canonicalChars_cons_of_ne whole.head_ne] at spelled
        rw [List.cons_append, canonicalChars_cons_of_ne whole.head_ne, List.flatMap_append, same,
          ← List.append_assoc, spelled]
    · rintro ⟨other, survives, same⟩
      obtain ⟨pieces, other, rfl, spelled, behind⟩ := exists_split_first survives same
        (mt spelledFirst_eq_nil_iff.1 some_text) (opens_spelledAfter path)
      obtain ⟨kept, others⟩ := survives_append.1 survives
      exact ⟨⟨pieces, spelled, behind ▸ kept⟩, other, others, behind⟩

/-! ### Reading again -/

/-- A text is canonical exactly where it is the spelling of a path that is read back. -/
theorem canonical_parse_eq_self_iff {text : String} :
    canonical (parse text) = text ↔ ∃ path, ReadsBack path ∧ canonical path = text := by
  constructor
  · intro same
    exact ⟨parse text, parse_canonical_iff.1 (by rw [same]), same⟩
  · rintro ⟨path, reads, rfl⟩
    rw [parse_canonical_iff.2 reads]

/-- The spelling of a path is canonical exactly where the path is steady. -/
theorem canonical_fixed_iff :
    canonical (parse (canonical path)) = canonical path ↔ Steady path := by
  rw [canonical_parse_eq_self_iff]
  constructor
  · rintro ⟨other, ⟨survives, slashless⟩, same⟩
    have same : canonicalChars other = canonicalChars path := String.ofList_inj.1 same
    exact ⟨steadySegments_iff.2 ⟨other, survives, same⟩, same ▸ slashless⟩
  · rintro ⟨segments, slashless⟩
    obtain ⟨other, survives, same⟩ := steadySegments_iff.1 segments
    exact ⟨other, ⟨survives, same ▸ slashless⟩, congrArg String.ofList same⟩

instance : DecidablePred Steady := fun _ => decidable_of_iff _ canonical_fixed_iff

/-- **Spelling again** what the canonical spelling of a text is read as gives the same spelling
exactly where the path of the text is steady. -/
theorem canonical_again_iff (text : String) :
    canonical (parse (canonical (parse text))) = canonical (parse text) ↔ Steady (parse text) :=
  canonical_fixed_iff

/-- An empty key leaves a dot, which is not read. -/
theorem empty_key_not_again :
    ¬ ∀ text, canonical (parse (canonical (parse text))) = canonical (parse text) := by
  intro again
  have := again "a[\"\"]"
  revert this
  decide

/-- A key with brackets is steady in front, where it is the spelling of an index, but behind others
the dot would be lost. -/
example : Steady (parse "/[0]/b") ∧ ¬ Steady (parse "/b/[0]") := by decide

end Path

end PatchScript
