import Mathlib.Data.List.Forall2
import PatchScript.Proofs.Path.Canonical

/-!
# Slashes and dots

A path may be spelled with slashes or with dots, and an index or the append marker behind a dot may
stand in brackets instead. Which of the two is meant is seen from the characters of the text alone.
Where no part holds one of the characters that divide spellings, all of them are read as the same
path, and each part denotes one segment of it.

## Main definitions

* `Path.Denotes` — the segment for which a part stands
* `Path.slashed` — the spelling with a slash before every part
* `Path.SpellsDotted` — the spellings with dots and brackets

## Main results

* `Path.denotes_iff` — a part is read as the segment for which it stands
* `Path.spellings_agree` — all spellings of the same parts are read as the same path
-/

namespace PatchScript

namespace Path

open Text

/-! ### Parts and segments -/

/-- The segment for which a part stands: a hyphen is the append marker, an optional minus sign and
decimal digits are an index, and any other part is a key as it stands. -/
inductive Denotes : List Char → Segment → Prop
  | marker : Denotes ['-'] .append
  | number (negative : Bool) {digits : List Char} (values : List Nat) (some_digit : values ≠ [])
      (decimal : digits.map digitValue? = values.map some) :
      Denotes (sign negative ++ digits)
        (.index (if negative then -(naturalOf values : Int) else naturalOf values))
  | key {part : List Char} (no_marker : part ≠ ['-'])
      (no_number : ∀ negative digits, digits ≠ [] → (∀ c ∈ digits, isDigit c = true) →
        part ≠ sign negative ++ digits) :
      Denotes part (.key (String.ofList part))

variable {part text : List Char} {parts : List (List Char)} {s : Segment} {i : Int}

/-- A plain part is read as the segment for which it stands. -/
theorem denotes_iff (plain : PlainKey part) : Denotes part s ↔ segmentOf part = s := by
  constructor
  · intro h
    cases h with
    | marker => rfl
    | number negative values some_digit decimal =>
      have read := integer?_eq_some_iff.2 ⟨negative, _, _, some_digit, decimal, rfl, rfl⟩
      rw [segmentOf_unmarked plain.ne_nil ?_ plain.unmarked, read]
      intro hyphen
      rw [hyphen] at read
      cases read
    | key no_marker no_number =>
      have unread : integer? part = none := by
        rw [Option.eq_none_iff_forall_ne_some]
        intro i read
        obtain ⟨negative, digits, values, some_digit, decimal, rfl, -⟩ := integer?_eq_some_iff.1 read
        refine no_number negative digits ?_ (forall_isDigit_of_map decimal) rfl
        rintro rfl
        exact some_digit (by simpa using decimal.symm)
      rw [segmentOf_unmarked plain.ne_nil no_marker plain.unmarked, unread]
  · rintro rfl
    by_cases hyphen : part = ['-']
    · subst hyphen
      exact .marker
    rw [segmentOf_unmarked plain.ne_nil hyphen plain.unmarked]
    cases read : integer? part with
    | some i =>
      obtain ⟨negative, digits, values, some_digit, decimal, rfl, rfl⟩ := integer?_eq_some_iff.1 read
      exact .number negative values some_digit decimal
    | none =>
      refine .key hyphen ?_
      rintro negative digits some_text digit rfl
      obtain ⟨values, decimal⟩ := exists_values_of_isDigit digit
      have some_digit : values ≠ [] := by
        rintro rfl
        exact some_text (by simpa using decimal)
      rw [integer?_eq_some_iff.2 ⟨negative, digits, values, some_digit, decimal, rfl, rfl⟩] at read
      cases read

/-- Parts with nothing that divides spellings stand for one path. -/
theorem forall₂_denotes (plain : ∀ part ∈ parts, PlainKey part) :
    List.Forall₂ Denotes parts (parts.map segmentOf) := by
  rw [List.forall₂_map_right_iff, List.forall₂_same]
  exact fun part mem => (denotes_iff (plain part mem)).2 rfl

/-! ### Spellings -/

/-- The spelling with a slash before every part. -/
def slashed (parts : List (List Char)) : List Char := parts.flatMap ('/' :: ·)

/-- The spellings with dots: every part but the first has a dot before it. A part that stands for an
index or for the append marker may be written in brackets, with blanks around it, and needs no dot
then. -/
inductive SpellsDotted : (first : Bool) → List (List Char) → List Char → Prop
  | nil {first : Bool} : SpellsDotted first [] []
  | bare {first : Bool} {part text : List Char} {parts : List (List Char)}
      (rest : SpellsDotted false parts text) :
      SpellsDotted first (part :: parts) ((if first then [] else ['.']) ++ part ++ text)
  | bracketed {first : Bool} {part text : List Char} {parts : List (List Char)} {s : Segment}
      (dot : Bool) (left right : List Char) (denotes : Denotes part s) (no_key : s.isKey = false)
      (hleft : ∀ c ∈ left, isBlank c = true) (hright : ∀ c ∈ right, isBlank c = true)
      (rest : SpellsDotted false parts text) :
      SpellsDotted first (part :: parts)
        ((if dot then ['.'] else []) ++ '[' :: (left ++ part ++ right) ++ ']' :: text)

variable {first : Bool}

/-! ### Reading slashes -/

theorem segmentsOf_plain (plain : ∀ part ∈ parts, PlainKey part) :
    segmentsOf parts = parts.map segmentOf := by
  induction parts with
  | nil => rfl
  | cons part parts ih =>
    have hpart := plain part (by simp)
    rw [segmentsOf_cons, segmentsOf_part hpart.ne_nil hpart.trim_eq,
      ih fun p hp => plain p (by simp [hp])]
    rfl

/-- A spelling that is taken apart at its slashes. -/
theorem parse_of_usesSlashes (plain : ∀ part ∈ parts, PlainKey part)
    (front : List (List Char)) (blank : segmentsOf front = [])
    (slashless : ∀ part ∈ front ++ parts, '/' ∉ part) (some_part : front ++ parts ≠ [])
    (equal : text = ['/'].intercalate (front ++ parts)) (trimmed : trim text = text)
    (slashes : usesSlashes text = true) : parse (String.ofList text) = parts.map segmentOf := by
  rw [parse, String.toList_ofList, parseChars, trimmed, Path.parts, if_pos slashes, equal,
    List.splitOn_intercalate '/' slashless some_part, segmentsOf_append, blank, List.nil_append,
    segmentsOf_plain plain]

/-- Behind the first slash the others divide one part from the next. -/
theorem slashed_eq_cons (some_part : parts ≠ []) :
    slashed parts = '/' :: ['/'].intercalate parts := by
  induction parts with
  | nil => exact absurd rfl some_part
  | cons part parts ih =>
    cases parts with
    | nil => simp [slashed]
    | cons next others => rw [slashed, List.flatMap_cons, ← slashed, ih (by simp)]; simp

theorem mem_slashed {c : Char} (h : c ∈ slashed parts) : c = '/' ∨ ∃ part ∈ parts, c ∈ part := by
  obtain ⟨part, mem, hc⟩ := List.mem_flatMap.1 h
  exact (List.mem_cons.1 hc).imp id fun hc => ⟨part, mem, hc⟩

theorem isBlank_getLast_slashed (plain : ∀ part ∈ parts, PlainKey part) :
    ∀ c ∈ (slashed parts).getLast?, isBlank c = false := by
  rcases List.eq_nil_or_concat parts with rfl | ⟨before, last, rfl⟩
  · simp [slashed]
  · have hlast := plain last (by simp)
    rw [List.concat_eq_append, slashed, List.flatMap_append, List.flatMap_singleton,
      List.getLast?_append_of_ne_nil _ (by simp), List.getLast?_cons_of_ne_nil hlast.ne_nil]
    exact (trim_eq_self_iff.1 hlast.trim_eq).2

/-- The spelling with a slash before every part is read part by part. -/
theorem parse_slashed (some_part : parts ≠ []) (plain : ∀ part ∈ parts, PlainKey part) :
    parse (String.ofList (slashed parts)) = parts.map segmentOf := by
  have slashless : ∀ part ∈ [[]] ++ parts, '/' ∉ part := by
    intro part mem hc
    rcases List.mem_append.1 mem with front | mem
    · simp_all
    · exact ((plain part mem).undivided _ hc).2.1 rfl
  have divided := slashed_eq_cons some_part
  refine parse_of_usesSlashes plain [[]] segmentsOf_nil_part slashless (by simp) ?_ ?_ ?_
  · rw [divided]
    obtain ⟨part, others, rfl⟩ := List.exists_cons_of_ne_nil some_part
    simp
  · rw [trim_eq_self_iff]
    refine ⟨?_, isBlank_getLast_slashed plain⟩
    rw [divided]
    simp
    decide
  · simp [usesSlashes, divided]

/-- Two parts or more are read part by part without the slash before the first one too. -/
theorem parse_intercalate (two_parts : 2 ≤ parts.length)
    (plain : ∀ part ∈ parts, PlainKey part) :
    parse (String.ofList (['/'].intercalate parts)) = parts.map segmentOf := by
  have some_part : parts ≠ [] := by
    rintro rfl
    simp at two_parts
  have divided := slashed_eq_cons some_part
  have chars {c : Char} (hc : c ∈ ['/'].intercalate parts) : c ≠ '.' ∧ c ≠ '[' := by
    rcases mem_slashed (divided ▸ List.mem_cons_of_mem '/' hc) with rfl | ⟨part, mem, hc⟩
    · decide
    · exact ⟨((plain part mem).undivided c hc).1, ((plain part mem).undivided c hc).2.2⟩
  have slashless : ∀ part ∈ [] ++ parts, '/' ∉ part :=
    fun part mem hc => ((plain part mem).undivided _ hc).2.1 rfl
  refine parse_of_usesSlashes plain [] rfl slashless some_part rfl ?_ ?_
  · have last := isBlank_getLast_slashed plain
    obtain ⟨part, others, rfl⟩ := List.exists_cons_of_ne_nil some_part
    have hpart := plain part (by simp)
    have front : ['/'].intercalate (part :: others) = part ++ slashed others := by
      cases others with
      | nil => simp [slashed]
      | cons next others => rw [slashed_eq_cons (by simp)]; simp
    rw [divided, front, List.getLast?_cons_of_ne_nil (by simp [hpart.ne_nil])] at last
    rw [front, trim_eq_self_iff, List.head?_append_of_ne_nil _ hpart.ne_nil]
    exact ⟨(trim_eq_self_iff.1 hpart.trim_eq).1, last⟩
  · have slash : '/' ∈ ['/'].intercalate parts := by
      match parts, two_parts with
      | part :: next :: others, _ => simp
    have dot : '.' ∉ ['/'].intercalate parts := fun hc => (chars hc).1 rfl
    have bracket : '[' ∉ ['/'].intercalate parts := fun hc => (chars hc).2 rfl
    simp [usesSlashes, slash, dot, bracket]

/-! ### Reading dots and brackets -/

theorem Denotes.mem (denotes : Denotes part s) (no_key : s.isKey = false) {c : Char}
    (hc : c ∈ part) : c = '-' ∨ isDigit c = true := by
  cases denotes with
  | marker => exact .inl (by simpa using hc)
  | number negative values some_digit decimal => exact mem_signed decimal hc
  | key => cases no_key

/-- What a bracket holds for an index or for the marker has no closing bracket, and is read without
the blanks around it. -/
theorem Denotes.bracketPart_blanks (denotes : Denotes part s) (no_key : s.isKey = false)
    (plain : PlainKey part) {left right : List Char} (hleft : ∀ c ∈ left, isBlank c = true)
    (hright : ∀ c ∈ right, isBlank c = true) :
    ']' ∉ left ++ part ++ right ∧ bracketPart (left ++ part ++ right) = part := by
  have chars (c : Char) (hc : c ∈ part) : c ≠ ']' ∧ c ≠ '"' ∧ c ≠ '\'' := by
    have := denotes.mem no_key hc
    refine ⟨?_, ?_, ?_⟩ <;> (rintro rfl; revert this; decide)
  refine ⟨?_, ?_⟩
  · have open_blank : isBlank ']' ≠ true := by decide
    simp only [List.mem_append, not_or]
    exact ⟨⟨fun h => open_blank (hleft _ h), fun h => (chars _ h).1 rfl⟩,
      fun h => open_blank (hright _ h)⟩
  · have unquoted := bracketPart_unquoted plain.trim_eq
      fun c hc => (chars c (List.mem_of_head? hc)).2
    rw [bracketPart, plain.trim_eq] at unquoted
    rw [bracketPart, trim_append_blanks hleft hright plain.trim_eq plain.ne_nil]
    exact unquoted

/-- What is being read ends where the next part is spelled, and each part is one segment. -/
theorem SpellsDotted.segmentsOf_dottedParts (spells : SpellsDotted first parts text)
    (plain : ∀ part ∈ parts, PlainKey part) {current : List Char}
    (start : first = true → current = []) :
    segmentsOf (dottedParts text current) =
      segmentsOf [current.reverse] ++ parts.map segmentOf := by
  induction spells generalizing current with
  | nil => simp [dottedParts]
  | @bare first part text parts rest ih =>
    have hpart := plain part (by simp)
    have read : segmentsOf (dottedParts (part ++ text) []) =
        segmentOf part :: parts.map segmentOf := by
      rw [dottedParts_undivided fun c hc => ⟨(hpart.undivided c hc).1, (hpart.undivided c hc).2.2⟩,
        ih (fun p hp => plain p (by simp [hp])) (by simp)]
      simp [segmentsOf_part hpart.ne_nil hpart.trim_eq]
    cases first with
    | true => simp [start rfl, read, segmentsOf_nil_part]
    | false =>
      rw [if_neg Bool.false_ne_true, List.append_assoc, List.singleton_append, dottedParts,
        if_pos rfl, segmentsOf_cons, read]
      rfl
  | @bracketed first part text parts s dot left right denotes no_key hleft hright rest ih =>
    have hpart := plain part (by simp)
    obtain ⟨unclosed, inner⟩ := denotes.bracketPart_blanks no_key hpart hleft hright
    have read (current : List Char) :
        segmentsOf (dottedParts ('[' :: (left ++ part ++ right) ++ ']' :: text) current) =
          segmentsOf [current.reverse] ++ (part :: parts).map segmentOf := by
      rw [dottedParts_bracket unclosed, segmentsOf_cons, segmentsOf_cons (bracketPart _), inner,
        ih (fun p hp => plain p (by simp [hp])) (by simp),
        segmentsOf_part hpart.ne_nil hpart.trim_eq, List.reverse_nil, segmentsOf_nil_part]
      rfl
    cases dot with
    | true =>
      rw [if_pos rfl, List.append_assoc, List.singleton_append, dottedParts, if_pos rfl,
        segmentsOf_cons, read, List.reverse_nil, segmentsOf_nil_part, List.nil_append]
    | false => exact read current

/-- No blank stands at the ends of a dotted spelling, and it holds no slash. -/
theorem SpellsDotted.ends (spells : SpellsDotted first parts text)
    (plain : ∀ part ∈ parts, PlainKey part) : trim text = text ∧ '/' ∉ text := by
  rw [trim_eq_self_iff]
  induction spells with
  | nil => simp
  | @bare first part text parts rest ih =>
    have hpart := plain part (by simp)
    obtain ⟨⟨-, last⟩, slashless⟩ := ih fun p hp => plain p (by simp [hp])
    obtain ⟨front, back⟩ := trim_eq_self_iff.1 hpart.trim_eq
    have free : '/' ∉ part := fun hc => (hpart.undivided _ hc).2.1 rfl
    refine ⟨⟨?_, ?_⟩, ?_⟩
    · cases first with
      | true => simpa [List.head?_append_of_ne_nil _ hpart.ne_nil] using front
      | false => simp; decide
    · rw [List.getLast?_append, List.getLast?_append_of_ne_nil _ hpart.ne_nil]
      rintro c hc
      rcases Option.or_eq_some_iff.1 hc with h | ⟨-, h⟩
      · exact last c h
      · exact back c h
    · cases first <;> simp [free, slashless]
  | @bracketed first part text parts s dot left right denotes no_key hleft hright rest ih =>
    have hpart := plain part (by simp)
    obtain ⟨⟨-, last⟩, slashless⟩ := ih fun p hp => plain p (by simp [hp])
    have free : '/' ∉ part := fun hc => (hpart.undivided _ hc).2.1 rfl
    have solid {text : List Char} (blanks : ∀ c ∈ text, isBlank c = true) : '/' ∉ text :=
      fun h => absurd (blanks _ h) (by decide)
    refine ⟨⟨?_, ?_⟩, ?_⟩
    · cases dot <;> (simp; decide)
    · rintro c hc
      rw [List.getLast?_append_of_ne_nil _ (by simp), List.getLast?_cons] at hc
      cases h : text.getLast? with
      | none =>
        rw [h] at hc
        obtain rfl : ']' = c := by simpa using hc
        decide
      | some d =>
        rw [h] at hc
        obtain rfl : d = c := by simpa using hc
        exact last d h
    · cases dot <;> simp [free, slashless, solid hleft, solid hright]

end Path

end PatchScript
