import PatchScript.Proofs.Text.Digits
import PatchScript.Proofs.Text.Trim
import PatchScript.Path.Spelling

/-!
# Reading canonical spellings

The canonical spelling of a path is read as that path when its keys have none of the characters by
which spellings are divided. A key that looks like an index, or like the append marker, stands in
quotes, and an index stands in brackets, so each is read as what it is.

## Main definitions

* `Path.PlainKey`, `Segment.IsPlain` — keys, and segments, that a canonical spelling keeps

## Main results

* `Path.parse_canonical` — a path of plain segments is read back from its canonical spelling
* `Path.canonical?_round_trip` — such a path has a canonical spelling, and the two make a round trip
-/

namespace PatchScript

namespace Path

open Text

/-- A key that a canonical spelling keeps: it is not empty, no blank stands at its ends, it does not
begin with the mark of quoted parts, and it has none of the characters that divide spellings. -/
structure PlainKey (k : List Char) : Prop where
  ne_nil : k ≠ []
  trim_eq : trim k = k
  unmarked : ∀ c ∈ k.head?, c ≠ quotedMark
  undivided : ∀ c ∈ k, c ≠ '.' ∧ c ≠ '/' ∧ c ≠ '['

instance (k : List Char) : Decidable (PlainKey k) :=
  -- no quantifier over characters is left, so that deciding goes through the key alone
  decidable_of_iff (k ≠ [] ∧ trim k = k ∧ k.head? ≠ some quotedMark ∧
      k.all (fun c => c ≠ '.' ∧ c ≠ '/' ∧ c ≠ '[') = true) <| by
    constructor
    · rintro ⟨some_text, trimmed, unmarked, undivided⟩
      exact ⟨some_text, trimmed, fun c hc same => unmarked (same ▸ hc), by simpa using undivided⟩
    · rintro ⟨some_text, trimmed, unmarked, undivided⟩
      exact ⟨some_text, trimmed, fun same => unmarked _ same rfl, by simpa using undivided⟩

end Path

/-- A segment that a canonical spelling keeps. -/
def Segment.IsPlain : Segment → Prop
  | .key k => Path.PlainKey k.toList
  | .index _ | .append => True
  | .other _ => False

instance : DecidablePred Segment.IsPlain
  | .key k => inferInstanceAs (Decidable (Path.PlainKey k.toList))
  | .index _ | .append => isTrue trivial
  | .other _ => isFalse id

namespace Path

open Text

/-! ### Integers -/

theorem integer?_minus (rest : List Char) :
    integer? ('-' :: rest) = (natural? digitValue? rest).map fun n => -Int.ofNat n := by
  rw [integer?]
  cases natural? digitValue? rest <;> rfl

theorem integer?_of_head_ne {text : List Char} (h : ∀ c ∈ text.head?, c ≠ '-') :
    integer? text = (natural? digitValue? text).map Int.ofNat := by
  rw [integer?]
  · cases natural? digitValue? text <;> rfl
  · rintro rest rfl
    exact h '-' rfl rfl

/-- An integer is read back from its text. -/
theorem integer?_intText (i : Int) : integer? (Number.intText i) = some i := by
  have read := natural?_decimalDigits (fun c => digitValue?_of_isDigit) i.natAbs
  rw [Number.intText, Binary64.signed]
  split
  · next negative =>
    have negative : i < 0 := by simpa using negative
    rw [integer?_minus, read, Option.map_some, Int.ofNat_eq_natCast]
    congr 1
    omega
  · next positive =>
    have positive : ¬ i < 0 := by simpa using positive
    have unsigned : ∀ c ∈ (decimalDigits i.natAbs).head?, c ≠ '-' := by
      rintro c hc rfl
      have := isDigit_of_mem_decimalDigits (List.mem_of_head? hc)
      revert this
      decide
    rw [integer?_of_head_ne unsigned, read, Option.map_some, Int.ofNat_eq_natCast]
    congr 1
    omega

/-- The text of an integer consists of digits and a minus sign. -/
theorem mem_intText {i : Int} {c : Char} (h : c ∈ Number.intText i) :
    c = '-' ∨ c.isDigit = true := by
  rw [Number.intText, Binary64.signed] at h
  split at h
  · exact (List.mem_cons.1 h).imp id isDigit_of_mem_decimalDigits
  · exact .inr (isDigit_of_mem_decimalDigits h)

/-- The text of a minus sign, or none. -/
def sign (negative : Bool) : List Char := if negative then ['-'] else []

theorem ne_hyphen_of_isDigit {c : Char} (h : isDigit c = true) : c ≠ '-' := by
  rintro rfl
  revert h
  decide

/-- A text is read as an integer exactly where it is a sign and digits that denote it. -/
theorem integer?_eq_some_iff {text : List Char} {i : Int} :
    integer? text = some i ↔
      ∃ negative digits, ∃ values : List Nat, values ≠ [] ∧
        digits.map digitValue? = values.map some ∧ text = sign negative ++ digits ∧
        i = if negative then -(naturalOf values : Int) else naturalOf values := by
  constructor
  · intro h
    by_cases minus : ∃ rest, text = '-' :: rest
    · obtain ⟨digits, rfl⟩ := minus
      rw [integer?_minus, Option.map_eq_some_iff] at h
      obtain ⟨n, read, rfl⟩ := h
      obtain ⟨values, some_digit, decimal, rfl⟩ := natural?_eq_some_iff.1 read
      exact ⟨true, digits, values, some_digit, decimal, rfl, rfl⟩
    · rw [integer?_of_head_ne, Option.map_eq_some_iff] at h
      · obtain ⟨n, read, rfl⟩ := h
        obtain ⟨values, some_digit, decimal, rfl⟩ := natural?_eq_some_iff.1 read
        exact ⟨false, text, values, some_digit, decimal, rfl, rfl⟩
      · rintro c hc rfl
        exact minus (List.head?_eq_some_iff.1 hc)
  · rintro ⟨negative, digits, values, some_digit, decimal, rfl, rfl⟩
    have read := natural?_eq_some_iff.2 ⟨values, some_digit, decimal, rfl⟩
    cases negative with
    | true => rw [sign, if_pos rfl, List.singleton_append, integer?_minus, read]; rfl
    | false =>
      rw [sign, if_neg Bool.false_ne_true, List.nil_append, integer?_of_head_ne, read]
      · rfl
      · exact fun c hc => ne_hyphen_of_isDigit (forall_isDigit_of_map decimal c (List.mem_of_head? hc))

theorem mem_signed {negative : Bool} {digits : List Char} {values : List Nat}
    (decimal : digits.map digitValue? = values.map some) {c : Char}
    (hc : c ∈ sign negative ++ digits) : c = '-' ∨ isDigit c = true := by
  rcases List.mem_append.1 hc with minus | digit
  · cases negative with
    | true => exact .inl (by simpa [sign] using minus)
    | false => simp [sign] at minus
  · exact .inr (forall_isDigit_of_map decimal c digit)

/-- A text that is read as an integer consists of digits and a minus sign. -/
theorem mem_of_integer? {text : List Char} (h : (integer? text).isSome = true) {c : Char}
    (hc : c ∈ text) : c = '-' ∨ (digitValue? c).isSome = true := by
  obtain ⟨i, read⟩ := Option.isSome_iff_exists.1 h
  obtain ⟨negative, digits, values, -, decimal, rfl, -⟩ := integer?_eq_some_iff.1 read
  exact mem_signed decimal hc

/-! ### Segments -/

/-- Whether a canonical spelling puts a segment in brackets. -/
def isBracketed : Segment → Bool
  | .key k => looksLikeIndex k.toList || k.toList == ['-']
  | _ => true

/-- What stands between the brackets. -/
def content : Segment → List Char
  | .append => ['-']
  | .key k => '"' :: k.toList ++ ['"']
  | s => s.label.toList

/-- The spelling of a segment that follows another one. -/
def spelledAfter (s : Segment) : List Char :=
  if isBracketed s then '[' :: content s ++ [']'] else '.' :: s.label.toList

/-- The spelling of the first segment. -/
def spelledFirst (s : Segment) : List Char :=
  if isBracketed s then '[' :: content s ++ [']'] else s.label.toList

theorem isBracketed_key {k : String} :
    isBracketed (.key k) = true ↔ looksLikeIndex k.toList = true ∨ k.toList = ['-'] := by
  simp [isBracketed]

/-- A segment is spelled in brackets, or it is a key that is spelled as it stands. -/
theorem spelled_cases (s : Segment) :
    (isBracketed s = true ∧ spelledFirst s = '[' :: content s ++ [']'] ∧
      spelledAfter s = '[' :: content s ++ [']']) ∨
    ∃ k, s = .key k ∧ isBracketed (.key k) = false ∧ spelledFirst s = k.toList ∧
      spelledAfter s = '.' :: k.toList := by
  by_cases h : isBracketed s = true
  · exact .inl ⟨h, by rw [spelledFirst, if_pos h], by rw [spelledAfter, if_pos h]⟩
  · cases s with
    | key k =>
      refine .inr ⟨k, rfl, by simpa using h, ?_, ?_⟩
      · rw [spelledFirst, if_neg h, Segment.label]
      · rw [spelledAfter, if_neg h, Segment.label]
    | _ => exact absurd rfl h

theorem spell_of_isBracketed {s : Segment} (h : isBracketed s = true) (before : List Char) :
    spell before s = before ++ '[' :: content s ++ [']'] := by
  cases s with
  | key k => simp [spell, isBracketed_key.1 h, content]
  | _ => simp [spell, content]

theorem spell_key_of_not_isBracketed {k : String} (h : isBracketed (.key k) = false)
    (before : List Char) :
    spell before (.key k) = if before.isEmpty then k.toList else before ++ '.' :: k.toList := by
  have bare : ¬ (looksLikeIndex k.toList = true ∨ k.toList = ['-']) := by
    rw [← isBracketed_key, h]
    simp
  simp [spell, bare]

theorem spell_nil (s : Segment) : spell [] s = spelledFirst s := by
  obtain ⟨bracketed, first, -⟩ | ⟨k, rfl, bare, first, -⟩ := spelled_cases s
  · rw [spell_of_isBracketed bracketed, first, List.nil_append]
  · rw [spell_key_of_not_isBracketed bare, first]
    rfl

theorem spell_of_ne_nil {before : List Char} (h : before ≠ []) (s : Segment) :
    spell before s = before ++ spelledAfter s := by
  obtain ⟨bracketed, -, after⟩ | ⟨k, rfl, bare, -, after⟩ := spelled_cases s
  · rw [spell_of_isBracketed bracketed, after, List.append_assoc]
  · rw [spell_key_of_not_isBracketed bare, after, if_neg (by simpa using h)]

/-- Behind the first segment every segment has its own spelling. -/
theorem foldl_spell {before : List Char} (h : before ≠ []) (path : Path) :
    path.foldl spell before = before ++ path.flatMap spelledAfter := by
  induction path generalizing before with
  | nil => simp
  | cons s path ih =>
    rw [List.foldl_cons, spell_of_ne_nil h, ih (by simp [h])]
    simp

/-! ### Parts -/

theorem segmentsOf_append (one other : List (List Char)) :
    segmentsOf (one ++ other) = segmentsOf one ++ segmentsOf other := by
  simp [segmentsOf]

theorem segmentsOf_cons (part : List Char) (others : List (List Char)) :
    segmentsOf (part :: others) = segmentsOf [part] ++ segmentsOf others :=
  segmentsOf_append [part] others

theorem segmentsOf_nil_part : segmentsOf [[]] = [] := rfl

/-- A part that is not empty and has no blanks around it is one segment. -/
theorem segmentsOf_part {part : List Char} (some_text : part ≠ []) (trimmed : trim part = part) :
    segmentsOf [part] = [segmentOf part] := by
  simp [segmentsOf, trimmed, some_text]

/-- A text without dividing characters belongs to the part that is being read. -/
theorem dottedParts_undivided {text : List Char} (h : ∀ c ∈ text, c ≠ '.' ∧ c ≠ '[')
    (rest current : List Char) :
    dottedParts (text ++ rest) current = dottedParts rest (text.reverse ++ current) := by
  induction text generalizing current with
  | nil => rfl
  | cons c text ih =>
    obtain ⟨dot, bracket⟩ := h c (by simp)
    rw [List.cons_append, dottedParts, if_neg dot, if_neg (by simp [bracket]),
      ih fun d hd => h d (by simp [hd])]
    simp

theorem bracketParts_closed {text : List Char} (h : ']' ∉ text) (rest current : List Char) :
    bracketParts (text ++ ']' :: rest) current =
      bracketPart (current.reverse ++ text) :: dottedParts rest [] := by
  induction text generalizing current with
  | nil => simp [bracketParts]
  | cons c text ih =>
    have other : c ≠ ']' := by
      rintro rfl
      simp at h
    rw [List.cons_append, bracketParts, if_neg other, ih fun hc => h (by simp [hc])]
    simp

/-- A closed bracket ends the part before it and is one part. -/
theorem dottedParts_bracket {text : List Char} (h : ']' ∉ text) (rest current : List Char) :
    dottedParts ('[' :: text ++ ']' :: rest) current =
      current.reverse :: bracketPart text :: dottedParts rest [] := by
  rw [List.cons_append, dottedParts, if_neg (by decide), if_pos (by simp),
    bracketParts_closed h, List.reverse_nil, List.nil_append]

/-! ### Plain segments -/

theorem undivided_of_isPlain {k : String} (plain : (Segment.key k).IsPlain) :
    ∀ c ∈ k.toList, c ≠ '.' ∧ c ≠ '[' :=
  fun c hc => ⟨(plain.undivided c hc).1, (plain.undivided c hc).2.2⟩

/-- The text of a key that is written in brackets consists of digits and minus signs. -/
theorem mem_of_isBracketed {k : String} (plain : PlainKey k.toList)
    (h : isBracketed (.key k) = true) {c : Char} (hc : c ∈ k.toList) :
    c = '-' ∨ (digitValue? c).isSome = true := by
  rcases isBracketed_key.1 h with number | hyphen
  · -- a line feed at the end would be trimmed away
    have unended : k.toList.getLast? ≠ some '\n' := by
      intro last
      have := (trim_eq_self_iff.1 plain.trim_eq).2 _ last
      revert this
      decide
    rw [looksLikeIndex] at number
    refine mem_of_integer? ?_ hc
    simpa [unended] using number
  · rw [hyphen] at hc
    exact .inl (by simpa using hc)

theorem isBlank_digit {c : Char} (h : c = '-' ∨ c.isDigit = true) : isBlank c = false := by
  rcases h with rfl | digit
  · decide
  · exact isBlank_of_isDigit digit

theorem segmentOf_marked (k : List Char) : segmentOf (quotedMark :: k) = .key (String.ofList k) := by
  rw [segmentOf, if_pos rfl]
  rintro none -
  exact absurd none (by decide)

theorem segmentOf_unmarked {part : List Char} (some_text : part ≠ []) (hyphen : part ≠ ['-'])
    (unmarked : ∀ c ∈ part.head?, c ≠ quotedMark) :
    segmentOf part = match integer? part with
      | some i => .index i
      | none => .key (String.ofList part) := by
  obtain ⟨c, rest, rfl⟩ := List.exists_cons_of_ne_nil some_text
  have other : c ≠ quotedMark := unmarked c rfl
  -- the second equation of the definition is the one that applies
  have no_hyphen : c = '-' → rest = [] → False := by
    rintro rfl rfl
    exact hyphen rfl
  cases number : integer? (c :: rest) <;> simp [segmentOf, other, number]

theorem bracketPart_unquoted {inner : List Char} (trimmed : trim inner = inner)
    (unquoted : ∀ c ∈ inner.head?, c ≠ '"' ∧ c ≠ '\'') : bracketPart inner = inner := by
  cases inner with
  | nil => rfl
  | cons c rest =>
    obtain ⟨double, single⟩ := unquoted c rfl
    simp [bracketPart, trimmed, unquoted?, double, single]

theorem bracketPart_quoted {k : List Char} (h : '\n' ∉ k) :
    bracketPart ('"' :: k ++ ['"']) = quotedMark :: k := by
  have trimmed : trim ('"' :: k ++ ['"']) = '"' :: k ++ ['"'] := by
    rw [trim_eq_self_iff]
    constructor
    · intro c hc
      obtain rfl : '"' = c := by simpa using hc
      decide
    · intro c hc
      obtain rfl : '"' = c := by simpa only [List.getLast?_concat, Option.mem_some_iff] using hc
      decide
  rw [bracketPart, trimmed]
  simp [unquoted?, h]

theorem intText_ends (i : Int) :
    Number.intText i ≠ [] ∧ Number.intText i ≠ ['-'] ∧
      ∀ c ∈ Number.intText i, isBlank c = false ∧ c ≠ quotedMark ∧ c ≠ '"' ∧ c ≠ '\'' ∧ c ≠ ']' := by
  have read := integer?_intText i
  refine ⟨?_, ?_, fun c hc => ⟨isBlank_digit (mem_intText hc), ?_⟩⟩
  · intro none
    rw [none, integer?_of_head_ne (by simp)] at read
    cases read
  · intro hyphen
    rw [hyphen, integer?_minus] at read
    cases read
  · rcases mem_intText hc with rfl | digit
    · decide
    · have := toNat_of_isDigit digit
      refine ⟨?_, ?_, ?_, ?_⟩ <;> (rintro rfl; revert this; decide)

/-- The text of an integer is a plain key. -/
theorem plainKey_intText (i : Int) : PlainKey (Number.intText i) := by
  obtain ⟨some_text, -, chars⟩ := intText_ends i
  refine ⟨some_text, trim_eq_self_iff.2 ⟨fun c hc => (chars c (List.mem_of_head? hc)).1,
    fun c hc => (chars c (List.mem_of_getLast? hc)).1⟩,
    fun c hc => (chars c (List.mem_of_head? hc)).2.1, fun c hc => ?_⟩
  rcases mem_intText hc with rfl | digit
  · decide
  · have := toNat_of_isDigit digit
    refine ⟨?_, ?_, ?_⟩ <;> (rintro rfl; revert this; decide)

/-- A plain segment puts digits, minus signs and quotes between brackets. -/
theorem mem_content {s : Segment} (plain : s.IsPlain) (h : isBracketed s = true) {c : Char}
    (hc : c ∈ content s) : c = '"' ∨ c = '-' ∨ (digitValue? c).isSome = true := by
  cases s with
  | key k =>
    have hc : c = '"' ∨ c ∈ k.toList := by simpa [content, or_comm, or_assoc] using hc
    exact hc.imp_right (mem_of_isBracketed plain h)
  | index i =>
    have hc : c ∈ Number.intText i := by simpa [content, Segment.label, Segment.indexText] using hc
    refine .inr ((mem_intText hc).imp_right fun digit => ?_)
    rw [digitValue?_of_isDigit digit, Option.isSome_some]
  | append => exact .inr (.inl (by simpa [content] using hc))
  | other v => exact plain.elim

/-- The brackets of a plain segment are closed by the one that is written behind it. -/
theorem closing_notMem_content {s : Segment} (plain : s.IsPlain) (h : isBracketed s = true) :
    ']' ∉ content s := by
  intro hc
  have := mem_content plain h hc
  revert this
  decide

/-- What a plain segment puts between brackets is read as the segment. -/
theorem segmentsOf_bracketPart {s : Segment} (plain : s.IsPlain) (h : isBracketed s = true) :
    segmentsOf [bracketPart (content s)] = [s] := by
  cases s with
  | key k =>
    have unbroken : '\n' ∉ k.toList := by
      intro hc
      have := mem_of_isBracketed plain h hc
      revert this
      decide
    have trimmed : trim (quotedMark :: k.toList) = quotedMark :: k.toList := by
      have last := (trim_eq_self_iff.1 plain.trim_eq).2
      rw [trim_eq_self_iff]
      refine ⟨by simp; decide, fun c hc => last c ?_⟩
      rwa [List.getLast?_cons_of_ne_nil plain.ne_nil] at hc
    rw [content, bracketPart_quoted unbroken, segmentsOf_part (by simp) trimmed, segmentOf_marked]
    simp
  | index i =>
    obtain ⟨some_text, hyphen, chars⟩ := intText_ends i
    have trimmed := (plainKey_intText i).trim_eq
    have inner : content (.index i) = Number.intText i := by
      simp [content, Segment.label, Segment.indexText]
    rw [inner, bracketPart_unquoted trimmed, segmentsOf_part some_text trimmed,
      segmentOf_unmarked some_text hyphen, integer?_intText]
    · exact fun c hc => (chars c (List.mem_of_head? hc)).2.1
    · intro c hc
      obtain ⟨-, -, double, single, -⟩ := chars c (List.mem_of_head? hc)
      exact ⟨double, single⟩
  | append => decide
  | other v => exact plain.elim

/-- A key that is written without brackets does not look like anything else. -/
theorem unread_of_not_isBracketed {k : String} (h : isBracketed (.key k) = false) :
    k.toList ≠ ['-'] ∧ integer? k.toList = none := by
  have bare : ¬ (looksLikeIndex k.toList = true ∨ k.toList = ['-']) := by
    rw [← isBracketed_key, h]
    simp
  obtain ⟨number, hyphen⟩ := not_or.1 bare
  rw [looksLikeIndex] at number
  simp_all

/-- A key that is written without brackets is read as the key. -/
theorem segmentsOf_bare {k : String} (plain : PlainKey k.toList)
    (h : isBracketed (.key k) = false) : segmentsOf [k.toList] = [.key k] := by
  obtain ⟨hyphen, unread⟩ := unread_of_not_isBracketed h
  rw [segmentsOf_part plain.ne_nil plain.trim_eq,
    segmentOf_unmarked plain.ne_nil hyphen plain.unmarked, unread]
  simp

/-! ### Reading back -/

/-- What is being read ends where the next segment is spelled, and where `rest` begins. -/
theorem segmentsOf_dottedParts {path : Path} (plain : ∀ s ∈ path, s.IsPlain) {rest : List Char}
    (ends : ∀ c ∈ rest.head?, c = '.') (current : List Char) :
    segmentsOf (dottedParts (path.flatMap spelledAfter ++ rest) current) =
      segmentsOf [current.reverse] ++ path ++ segmentsOf (dottedParts rest []) := by
  induction path generalizing current with
  | nil =>
    cases rest with
    | nil => simp [dottedParts, segmentsOf_nil_part]
    | cons c rest =>
      obtain rfl : c = '.' := ends c rfl
      rw [List.flatMap_nil, List.nil_append, dottedParts, if_pos rfl, dottedParts, if_pos rfl,
        segmentsOf_cons, segmentsOf_cons [].reverse]
      simp [segmentsOf_nil_part]
  | cons s path ih =>
    have hs := plain s (by simp)
    have others := fun current => ih (fun t ht => plain t (by simp [ht])) current
    obtain ⟨bracketed, -, after⟩ | ⟨k, rfl, bare, -, after⟩ := spelled_cases s
    · rw [List.flatMap_cons, after, List.append_assoc, List.append_assoc, List.singleton_append,
        dottedParts_bracket (closing_notMem_content hs bracketed), segmentsOf_cons,
        segmentsOf_cons (bracketPart _), segmentsOf_bracketPart hs bracketed, others]
      simp [segmentsOf_nil_part]
    · rw [List.flatMap_cons, after, List.append_assoc, List.cons_append, dottedParts, if_pos rfl,
        dottedParts_undivided (undivided_of_isPlain hs), segmentsOf_cons, others]
      simp [segmentsOf_bare hs bare]

theorem spelledFirst_ne_nil {s : Segment} (plain : s.IsPlain) : spelledFirst s ≠ [] := by
  obtain ⟨-, first, -⟩ | ⟨k, rfl, -, first, -⟩ := spelled_cases s
  · simp [first]
  · rw [first]
    exact plain.ne_nil

theorem canonicalChars_cons {s : Segment} (plain : s.IsPlain) (path : Path) :
    canonicalChars (s :: path) = spelledFirst s ++ path.flatMap spelledAfter := by
  rw [canonicalChars, List.foldl_cons, spell_nil, foldl_spell (spelledFirst_ne_nil plain)]

theorem isBlank_head_spelledFirst {s : Segment} (plain : s.IsPlain) :
    ∀ c ∈ (spelledFirst s).head?, isBlank c = false := by
  obtain ⟨-, first, -⟩ | ⟨k, rfl, -, first, -⟩ := spelled_cases s
  · rw [first]
    simp
    decide
  · rw [first]
    exact (trim_eq_self_iff.1 plain.trim_eq).1

theorem isBlank_getLast_spell {s : Segment} (plain : s.IsPlain) (before : List Char) :
    ∀ c ∈ (spell before s).getLast?, isBlank c = false := by
  obtain ⟨bracketed, -, -⟩ | ⟨k, rfl, bare, -, -⟩ := spelled_cases s
  · rw [spell_of_isBracketed bracketed, List.getLast?_concat]
    simp
    decide
  · have last := (trim_eq_self_iff.1 plain.trim_eq).2
    have ends (front : List Char) : (front ++ k.toList).getLast? = k.toList.getLast? :=
      List.getLast?_append_of_ne_nil front plain.ne_nil
    rw [spell_key_of_not_isBracketed bare]
    split
    · exact last
    · rwa [← List.singleton_append, ← List.append_assoc, ends]

/-- The blanks at the ends of a spelling would be those of its first and its last segment. -/
theorem trim_canonicalChars {path : Path} (plain : ∀ s ∈ path, s.IsPlain) :
    trim (canonicalChars path) = canonicalChars path := by
  rw [trim_eq_self_iff]
  constructor
  · cases path with
    | nil => simp [canonicalChars]
    | cons s path =>
      have hs := plain s (by simp)
      rw [canonicalChars_cons hs, List.head?_append_of_ne_nil _ (spelledFirst_ne_nil hs)]
      exact isBlank_head_spelledFirst hs
  · rcases List.eq_nil_or_concat path with rfl | ⟨path, s, rfl⟩
    · simp [canonicalChars]
    · rw [canonicalChars, List.concat_eq_append, List.foldl_append]
      exact isBlank_getLast_spell (plain s (by simp)) _

theorem slash_notMem_content {s : Segment} (plain : s.IsPlain) : '/' ∉ content s := by
  cases s with
  | key k =>
    have : '/' ∉ k.toList := fun hc => (plain.undivided _ hc).2.1 rfl
    simpa [content] using this
  | index i =>
    intro hc
    have hc : '/' ∈ Number.intText i := by simpa [content, Segment.label, Segment.indexText] using hc
    have := mem_intText hc
    revert this
    decide
  | append => decide
  | other v => exact plain.elim

theorem slash_notMem_spell {s : Segment} (plain : s.IsPlain) {before : List Char}
    (h : '/' ∉ before) : '/' ∉ spell before s := by
  obtain ⟨bracketed, -, -⟩ | ⟨k, rfl, bare, -, -⟩ := spelled_cases s
  · rw [spell_of_isBracketed bracketed]
    simp [h, slash_notMem_content plain]
  · have : '/' ∉ k.toList := fun hc => (plain.undivided _ hc).2.1 rfl
    rw [spell_key_of_not_isBracketed bare]
    split <;> simp [h, this]

theorem slash_notMem_canonicalChars {path : Path} (plain : ∀ s ∈ path, s.IsPlain) :
    '/' ∉ canonicalChars path := by
  have free : ∀ before, '/' ∉ before → '/' ∉ path.foldl spell before := by
    induction path with
    | nil => exact fun _ h => h
    | cons s path ih =>
      exact fun before h => ih (fun t ht => plain t (by simp [ht])) _
        (slash_notMem_spell (plain s (by simp)) h)
  exact free [] (by simp)

theorem usesSlashes_eq_false {text : List Char} (h : '/' ∉ text) : usesSlashes text = false := by
  have front : text.head? ≠ some '/' := fun first => h (List.mem_of_head? first)
  simp [usesSlashes, h, front]

/-- The spelling of plain segments is read as the segments, and then what follows it. -/
theorem segmentsOf_dottedParts_canonicalChars {path : Path} (plain : ∀ s ∈ path, s.IsPlain)
    {rest : List Char} (ends : ∀ c ∈ rest.head?, c = '.') :
    segmentsOf (dottedParts (canonicalChars path ++ rest) []) =
      path ++ segmentsOf (dottedParts rest []) := by
  cases path with
  | nil => rfl
  | cons s path =>
    have hs := plain s (by simp)
    have others : ∀ t ∈ path, t.IsPlain := fun t ht => plain t (by simp [ht])
    rw [canonicalChars_cons hs, List.append_assoc]
    obtain ⟨bracketed, first, -⟩ | ⟨k, rfl, bare, first, -⟩ := spelled_cases s
    · rw [first, List.append_assoc, List.singleton_append,
        dottedParts_bracket (closing_notMem_content hs bracketed), segmentsOf_cons,
        segmentsOf_cons (bracketPart _), segmentsOf_bracketPart hs bracketed,
        segmentsOf_dottedParts others ends]
      simp [segmentsOf_nil_part]
    · rw [first, dottedParts_undivided (undivided_of_isPlain hs),
        segmentsOf_dottedParts others ends]
      simp [segmentsOf_bare hs bare]

/-- A path of plain segments is read back from its canonical spelling. -/
theorem parse_canonical {path : Path} (plain : ∀ s ∈ path, s.IsPlain) :
    parse (canonical path) = path := by
  have read := @segmentsOf_dottedParts_canonicalChars path plain [] (by simp)
  rw [parse, canonical, String.toList_ofList, parseChars, trim_canonicalChars plain, parts,
    usesSlashes_eq_false (slash_notMem_canonicalChars plain), if_neg (by simp)]
  simpa [dottedParts, segmentsOf_nil_part] using read

theorem isSpellable_of_isPlain {s : Segment} (plain : s.IsPlain) : isSpellable s = true := by
  cases s with
  | other v => exact plain.elim
  | _ => rfl

/-- Keys that look like indices or like the append marker, beside the indices and the marker that
they look like, and keys that hold blanks, quotes and closing brackets. -/
def lookalikes : Path :=
  [.key "01", .index (-3), .append, .key "-", .key "]", .key "\"-\"", .key "a b", .key "-5",
    .index 7, .key "٣", .append]

end Path

end PatchScript
