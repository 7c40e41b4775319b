import Mathlib.Data.Nat.Digits.Defs
import PatchScript.Proofs.Path.TwoSpellings

/-!
# The weight of what is read

Reading a canonical spelling can lose segments and characters, but it cannot add any. This is made
precise by a weight: a segment weighs one more than what its spelling holds between the dividers,
and the path that is read weighs no more than the path that was spelled. So wherever something is
skipped, the path is not read back.

## Main definitions

* `Path.textWeight`, `Path.weight`, `Path.totalWeight` — the weights of texts, segments and paths

## Main results

* `Path.weighsUpTo_spelledAfter` — reading the spelling of segments behind a text adds no weight
* `Path.totalWeight_read_le` — reading the spelling of a path adds no weight
-/

namespace PatchScript

namespace Text

/-- Digits denote a number below the power of ten for their count. -/
theorem naturalOf_lt {values : List Nat} (h : ∀ d ∈ values, d < 10) :
    naturalOf values < 10 ^ values.length := by
  induction values using List.reverseRecOn with
  | nil => decide
  | append_singleton values d ih =>
    have front := ih fun e he => h e (by simp [he])
    have last := h d (by simp)
    rw [naturalOf, List.foldl_append, List.length_append, List.length_singleton, pow_succ]
    rw [naturalOf] at front
    simp only [List.foldl_cons, List.foldl_nil]
    omega

end Text

namespace Path

open Text

variable {part text tail : List Char} {path : Path} {k : String} {s : Segment}

/-! ### Weights -/

/-- The weight of a text: its length, where the mark of quoted parts counts twice. -/
def textWeight (text : List Char) : Nat := text.length + text.count quotedMark

/-- What stands between the dividers in the spelling of a segment. -/
def body (s : Segment) : List Char := if isBracketed s then content s else s.label.toList

/-- The weight of a segment. -/
def weight (s : Segment) : Nat := textWeight (body s) + 1

/-- The weight of a path. -/
def totalWeight (path : Path) : Nat := (path.map weight).sum

@[simp] theorem textWeight_append (one other : List Char) :
    textWeight (one ++ other) = textWeight one + textWeight other := by
  simp [textWeight]
  omega

@[simp] theorem textWeight_reverse (text : List Char) :
    textWeight text.reverse = textWeight text := by
  simp [textWeight]

theorem textWeight_cons (c : Char) (text : List Char) :
    textWeight (c :: text) = textWeight [c] + textWeight text :=
  textWeight_append [c] text

theorem textWeight_pos (c : Char) : 1 ≤ textWeight [c] := by simp [textWeight]

theorem textWeight_le_of_sublist {one other : List Char} (h : one.Sublist other) :
    textWeight one ≤ textWeight other :=
  Nat.add_le_add h.length_le (h.count_le _)

@[simp] theorem totalWeight_nil : totalWeight [] = 0 := rfl

@[simp] theorem totalWeight_cons (s : Segment) (path : Path) :
    totalWeight (s :: path) = weight s + totalWeight path := by
  simp [totalWeight]

@[simp] theorem totalWeight_append (one other : Path) :
    totalWeight (one ++ other) = totalWeight one + totalWeight other := by
  simp [totalWeight]

theorem weight_of_isBracketed (h : isBracketed s = true) :
    weight s = textWeight (content s) + 1 := by
  rw [weight, body, if_pos h]

theorem weight_of_not_isBracketed (h : isBracketed s = false) :
    weight s = textWeight s.label.toList + 1 := by
  rw [weight, body, if_neg (by simp [h])]

/-- A key in quotes weighs two more than a bare one. -/
theorem weight_key_le (k : String) : weight (.key k) ≤ textWeight k.toList + 3 := by
  have quote : textWeight ['"'] = 1 := by decide
  by_cases h : isBracketed (.key k) = true
  · rw [weight_of_isBracketed h, content, textWeight_append, textWeight_cons]
    omega
  · rw [weight_of_not_isBracketed (by simpa using h), Segment.label]
    omega

/-! ### Parts -/

/-- The usual text of an integer is as short as any. -/
theorem length_intText_le {i : Int} (h : integer? part = some i) :
    (Number.intText i).length ≤ part.length := by
  obtain ⟨negative, digits, values, some_digit, decimal, rfl, rfl⟩ := integer?_eq_some_iff.1 h
  have count : digits.length = values.length := by simpa using congrArg List.length decimal
  have small : naturalOf values < 10 ^ values.length := by
    refine naturalOf_lt fun d hd => ?_
    have mem : some d ∈ digits.map digitValue? := by simpa [decimal] using hd
    obtain ⟨c, -, value⟩ := List.mem_map.1 mem
    exact digitValue?_lt value
  have short (n : Nat) (h : n < 10 ^ values.length) : (decimalDigits n).length ≤ values.length :=
    Nat.toDigits_length _ _ _ (List.length_pos_of_ne_nil some_digit) h
  have usual := short _ small
  rw [Number.intText, Binary64.signed, List.length_append, count]
  cases negative with
  | true =>
    simp only [sign, if_true, List.length_singleton, Int.natAbs_neg, Int.natAbs_natCast]
    split <;> simp <;> omega
  | false =>
    rw [if_neg Bool.false_ne_true, if_neg (by simp)]
    simpa [sign] using usual

theorem textWeight_intText (i : Int) :
    textWeight (Number.intText i) = (Number.intText i).length := by
  have unmarked : quotedMark ∉ Number.intText i := fun h => ((intText_ends i).2.2 _ h).2.1 rfl
  simp [textWeight, List.count_eq_zero.2 unmarked]

/-- A part weighs at least as much as the segment that it denotes. -/
theorem weight_segmentOf_le (some_text : part ≠ [])
    (last : ∀ c ∈ part.getLast?, isBlank c = false) :
    weight (segmentOf part) ≤ textWeight part + 1 := by
  by_cases marked : ∃ rest, part = quotedMark :: rest
  · obtain ⟨rest, rfl⟩ := marked
    have key := weight_key_le (String.ofList rest)
    have mark : textWeight [quotedMark] = 2 := by decide
    rw [String.toList_ofList] at key
    rw [segmentOf_marked, textWeight_cons]
    omega
  by_cases hyphen : part = ['-']
  · subst hyphen
    decide
  rw [segmentOf_unmarked some_text hyphen]
  · cases read : integer? part with
    | some i =>
      have short := length_intText_le read
      have usual := textWeight_intText i
      have inner : content (.index i) = Number.intText i := by
        simp [content, Segment.label, Segment.indexText]
      dsimp only
      rw [weight_of_isBracketed rfl, inner, usual, textWeight]
      omega
    | none =>
      have unended : part.getLast? ≠ some '\n' := by
        intro h
        have := last _ h
        revert this
        decide
      have bare : isBracketed (.key (String.ofList part)) = false := by
        simp [isBracketed, looksLikeIndex, read, unended, hyphen]
      dsimp only
      rw [weight_of_not_isBracketed bare, Segment.label, String.toList_ofList]
  · rintro c hc rfl
    exact marked (List.head?_eq_some_iff.1 hc)

/-- A blank part is no segment. -/
theorem segmentsOf_blank (h : trim part = []) : segmentsOf [part] = [] := by
  simp [segmentsOf, h]

/-- Any other part is one segment. -/
theorem segmentsOf_solid (h : trim part ≠ []) : segmentsOf [part] = [segmentOf (trim part)] := by
  simp [segmentsOf, h]

/-- A part weighs at least as much as what it is read as. -/
theorem totalWeight_part_le (part : List Char) :
    totalWeight (segmentsOf [part]) ≤ textWeight part + 1 := by
  by_cases blank : trim part = []
  · simp [segmentsOf_blank blank]
  · have read := weight_segmentOf_le blank (trim_eq_self_iff.1 (trim_trim part)).2
    have lighter := textWeight_le_of_sublist (trim_sublist part)
    rw [segmentsOf_solid blank, totalWeight_cons, totalWeight_nil]
    omega

theorem unquoted?_eq_some {body : List Char} (h : unquoted? part = some body) :
    ∃ quote, part = quote :: body ++ [quote] := by
  cases part with
  | nil => cases h
  | cons quote rest =>
    simp only [unquoted?] at h
    split at h
    · next quoted =>
      obtain rfl := Option.some.inj h
      simp only [Bool.and_eq_true, beq_iff_eq] at quoted
      exact ⟨quote, by rw [List.cons_append, List.dropLast_append_getLast? _ quoted.1.2]⟩
    · cases h

/-- What stands in brackets weighs at least as much as what it is read as. -/
theorem totalWeight_bracketPart_le (inner : List Char) :
    totalWeight (segmentsOf [bracketPart inner]) ≤ textWeight inner + 1 := by
  have lighter := textWeight_le_of_sublist (trim_sublist inner)
  rw [bracketPart]
  cases quoted : unquoted? (trim inner) with
  | none =>
    have read := totalWeight_part_le (trim inner)
    dsimp only
    omega
  | some body =>
    -- the quotes are left out, and come back where the key needs them
    obtain ⟨quote, equal⟩ := unquoted?_eq_some quoted
    have key := weight_key_le (String.ofList (trimRight body))
    have shorter := textWeight_le_of_sublist (trimRight_prefix_self body).sublist
    have quotes := textWeight_pos quote
    have marked : trim (quotedMark :: body) = quotedMark :: trimRight body := by
      rw [trim, trimLeft, List.dropWhile_cons_of_neg (by decide), trimRight_cons (by decide)]
    rw [equal, List.cons_append, textWeight_cons, textWeight_append] at lighter
    rw [String.toList_ofList] at key
    dsimp only
    rw [segmentsOf_solid (by simp [marked]), marked, segmentOf_marked, totalWeight_cons,
      totalWeight_nil]
    omega

/-! ### Reading -/

/-- Whatever is being read before a text, reading on through the text adds no more than a given
weight. -/
structure WeighsUpTo (tail : List Char) (bound : Nat) : Prop where
  /-- This holds outside of brackets, -/
  dotted (current : List Char) :
    totalWeight (segmentsOf (dottedParts tail current)) ≤ textWeight current + 1 + bound
  /-- and inside. -/
  bracketed (current : List Char) :
    totalWeight (segmentsOf (bracketParts tail current)) ≤ textWeight current + 1 + bound

variable {bound : Nat}

theorem weighsUpTo_nil : WeighsUpTo [] 0 where
  dotted current := by simpa [dottedParts] using totalWeight_part_le current.reverse
  bracketed current := by simpa [bracketParts] using totalWeight_part_le current.reverse

/-- A divider weighs as much as the segment that begins behind it, and any other character is
taken into what is being read. -/
theorem WeighsUpTo.cons (h : WeighsUpTo tail bound) (c : Char) :
    WeighsUpTo (c :: tail) (textWeight [c] + bound) := by
  have one := textWeight_pos c
  have empty : textWeight [] = 0 := rfl
  constructor
  · intro current
    have ended := totalWeight_part_le current.reverse
    have begun := h.dotted []
    have enclosed := h.bracketed []
    have longer := h.dotted (c :: current)
    rw [textWeight_reverse] at ended
    rw [textWeight_cons] at longer
    rw [dottedParts]
    split
    · rw [segmentsOf_cons, totalWeight_append]
      omega
    · split
      · rw [segmentsOf_cons, totalWeight_append]
        omega
      · omega
  · intro current
    have ended := totalWeight_bracketPart_le current.reverse
    have begun := h.dotted []
    have longer := h.bracketed (c :: current)
    rw [textWeight_reverse] at ended
    rw [textWeight_cons] at longer
    rw [bracketParts]
    split
    · rw [segmentsOf_cons, totalWeight_append]
      omega
    · omega

theorem WeighsUpTo.append (h : WeighsUpTo tail bound) (text : List Char) :
    WeighsUpTo (text ++ tail) (textWeight text + bound) := by
  induction text with
  | nil => simpa [textWeight] using h
  | cons c text ih =>
    rw [textWeight_cons, Nat.add_assoc]
    exact ih.cons c

/-- Reading the segments behind a text adds no more than their weight: nothing at all begins before
the first of them. -/
theorem weighsUpTo_spelledAfter (plain : ∀ s ∈ path, isBracketed s = true → s.IsPlain) :
    WeighsUpTo (path.flatMap spelledAfter) (totalWeight path) ∧ ∀ current,
      totalWeight (segmentsOf (dottedParts (path.flatMap spelledAfter) current)) ≤
        totalWeight (segmentsOf [current.reverse]) + totalWeight path := by
  induction path with
  | nil => exact ⟨weighsUpTo_nil, fun current => by simp [dottedParts]⟩
  | cons s path ih =>
    obtain ⟨within, behind⟩ := ih fun t ht => plain t (by simp [ht])
    have front (current : List Char) := totalWeight_part_le current.reverse
    simp only [textWeight_reverse] at front
    rw [List.flatMap_cons, totalWeight_cons]
    obtain ⟨bracketed, -, after⟩ | ⟨k, rfl, bare, -, after⟩ := spelled_cases s
    · have hs := plain s (by simp) bracketed
      have closed := closing_notMem_content hs bracketed
      have rest := behind []
      have opened (current : List Char) :
          totalWeight (segmentsOf (dottedParts ('[' :: content s ++ ']' ::
              path.flatMap spelledAfter) current)) ≤
            totalWeight (segmentsOf [current.reverse]) + (weight s + totalWeight path) := by
        rw [dottedParts_bracket closed, segmentsOf_cons, segmentsOf_cons (bracketPart _),
          segmentsOf_bracketPart hs bracketed, totalWeight_append, List.singleton_append,
          totalWeight_cons]
        rw [List.reverse_nil, segmentsOf_nil_part, totalWeight_nil] at rest
        omega
      rw [after, List.append_assoc, List.singleton_append]
      refine ⟨⟨fun current => ?_, fun current => ?_⟩, opened⟩
      · have := opened current
        have := front current
        omega
      · -- inside of a bracket the opening one is a character like any other
        have part := totalWeight_bracketPart_le (current.reverse ++ '[' :: content s)
        have unclosed : ']' ∉ '[' :: content s := by simp [closed]
        rw [textWeight_append, textWeight_reverse, textWeight_cons,
          show textWeight ['['] = 1 by decide] at part
        rw [bracketParts_closed unclosed, segmentsOf_cons, totalWeight_append,
          weight_of_isBracketed bracketed]
        rw [List.reverse_nil, segmentsOf_nil_part, totalWeight_nil] at rest
        omega
    · have next := within.append k.toList
      have first := next.dotted []
      have spelled : weight (.key k) = textWeight ['.'] + textWeight k.toList := by
        rw [weight_of_not_isBracketed bare, Segment.label, show textWeight ['.'] = 1 by decide,
          Nat.add_comm]
      rw [after, List.cons_append, spelled, Nat.add_assoc]
      refine ⟨next.cons '.', fun current => ?_⟩
      rw [dottedParts, if_pos rfl, segmentsOf_cons, totalWeight_append,
        show textWeight ['.'] = 1 by decide]
      rw [show textWeight [] = 0 from rfl] at first
      omega

end Path

end PatchScript
