import PatchScript.Command.Literal
import PatchScript.Proofs.Command.Arguments
import PatchScript.Proofs.Json.Shape

/-!
# JSON texts as arguments

The arguments of lines and calls are literals, and literals are more than JSON: quotes of two kinds,
numbers with a plus sign or without digits before the point, constants of other languages, and plain
words. Where an argument is a JSON text, it has the value that it has as JSON, and it is one word of
a line and one argument of a call. Only the numbers that JSON itself does not know, which readers of
JSON take as words, are plain words here.

## Main definitions

* `Json.Form` — the forms of JSON texts
* `Json.IsProper` — the values that are no such number

## Main results

* `Json.form_of_read` — every JSON text has one of the forms
* `Json.isSolid_of_read` — a JSON text is one word and one argument
* `Json.readLiteral_of_read` — the headline: as an argument it has its JSON value
-/

namespace PatchScript.Json

open Text (trim)

variable {text : List Char} {v : Value}

/-! ### Forms of JSON texts -/

/-- The forms of the JSON text of a value, without blanks around it. -/
inductive Form : List Char → Value → Prop
  | bracketed {text : List Char} {v : Value} (isBracketed : IsBracketed text)
      (container : v.isContainer = true) : Form text v
  | quoted {content : List Char} {s : String} (quotable : Quotable '"' content)
      (read : readString (content ++ ['"']) = .ok (s.toList, [])) :
      Form ('"' :: (content ++ ['"'])) (.text s)
  | word {text : List Char} {v : Value} (mem : (text, v) ∈ words) : Form text v
  | number {text : List Char} {v : Value} (read : readNumber text = .ok (v, [])) : Form text v

/-- Every JSON text has one of the forms. -/
theorem form_of_read (h : read text = .ok v) (trimmed : trim text = text) : Form text v := by
  have hvalue := readValue_of_read h trimmed
  by_cases container : v.isContainer = true
  · exact .bracketed (isBracketed_of_read h container trimmed) container
  rw [readValue.eq_def] at hvalue
  dsimp only at hvalue
  split at hvalue
  · next rest =>
    obtain ⟨⟨content, after⟩, hstring, equal⟩ := bind_eq_ok_iff.1 hvalue
    obtain ⟨rfl, rfl⟩ := Prod.mk.inj (Except.ok.inj equal)
    obtain ⟨⟨codes, after'⟩, hcodes, equal⟩ := bind_eq_ok_iff.1 hstring
    obtain ⟨-, rfl⟩ := Prod.mk.inj (Except.ok.inj equal)
    obtain ⟨content', quotable, rfl⟩ := quotable_of_readCodes hcodes
    exact .quoted quotable (by rw [hstring, String.toList_ofList])
  · next rest =>
    refine absurd ?_ container
    split at hvalue
    · obtain ⟨rfl, -⟩ := Prod.mk.inj (Except.ok.inj hvalue)
      rfl
    · obtain ⟨⟨m, after⟩, -, equal⟩ := bind_eq_ok_iff.1 hvalue
      obtain ⟨rfl, -⟩ := Prod.mk.inj (Except.ok.inj equal)
      rfl
  · next rest =>
    refine absurd ?_ container
    split at hvalue
    · obtain ⟨rfl, -⟩ := Prod.mk.inj (Except.ok.inj hvalue)
      rfl
    · obtain ⟨⟨items, after⟩, -, equal⟩ := bind_eq_ok_iff.1 hvalue
      obtain ⟨rfl, -⟩ := Prod.mk.inj (Except.ok.inj equal)
      rfl
  · split at hvalue
    · next found hword =>
      obtain rfl := Except.ok.inj hvalue
      obtain ⟨⟨word, value⟩, mem, found⟩ := List.exists_of_findSome?_eq_some hword
      obtain ⟨after, hafter, equal⟩ := Option.map_eq_some_iff.1 found
      obtain ⟨rfl, rfl⟩ := Prod.mk.inj equal
      rw [← Text.append_eq_of_isPrefixOf? hafter, List.append_nil]
      exact .word mem
    · exact .number hvalue

/-! ### Numbers -/

section Numbers

variable {whole : List Nat} {after : List Char}

theorem numeric_of_readNumber (h : readNumber text = .ok (v, [])) :
    ∀ c ∈ text, isNumeric c = true := by
  obtain ⟨taken, numeric, equal⟩ := numericUpTo_of_readNumber h
  rw [equal, List.append_nil]
  exact numeric

theorem NumericUpTo.numeric {rest : List Char} (h : NumericUpTo text rest)
    (numeric : ∀ c ∈ text, isNumeric c = true) : ∀ c ∈ rest, isNumeric c = true := by
  obtain ⟨taken, -, rfl⟩ := h
  exact (List.forall_mem_append.1 numeric).2

/-- Among the characters of numbers, the digits of any script are those of ASCII. -/
theorem takeDigits_digitValue? (numeric : ∀ c ∈ text, isNumeric c = true) :
    Text.takeDigits Text.digitValue? text = Text.takeDigits Text.asciiDigit? text := by
  obtain ⟨digits, rest, rfl, front, ends, taken⟩ := Text.takeDigits_front text
  rw [taken]
  refine Text.takeDigits_append digits rest (fun c hc => Text.digitValue?_of_isDigit (front c hc))
    fun c hc => ?_
  have notDigit := ends c hc
  have here := numeric c (List.mem_append_right digits (List.mem_of_head? hc))
  simp only [isNumeric, notDigit, Bool.false_or, Bool.or_eq_true, beq_iff_eq] at here
  rcases here with (((rfl | rfl) | rfl) | rfl) | rfl <;> decide

theorem takePower_digitValue? (numeric : ∀ c ∈ text, isNumeric c = true) :
    takePower Text.digitValue? text = takePower Text.asciiDigit? text := by
  cases text with
  | nil => rfl
  | cons c rest =>
    have later := (numericUpTo_takeSign true rest).numeric (List.forall_mem_cons.1 numeric).2
    simp only [takePower, takeDigits_digitValue? later]

/-- A power of ten that ends a text begins with its letter. -/
theorem head_of_takePower {power : Option Int}
    (h : takePower Text.asciiDigit? text = (power, [])) :
    ∀ c ∈ text.head?, c = 'e' ∨ c = 'E' := by
  intro c hc
  obtain ⟨rest, rfl⟩ := List.head?_eq_some_iff.1 hc
  by_contra other
  have letter : (c == 'e' || c == 'E') = false := by simpa using other
  rw [takePower, letter] at h
  exact List.cons_ne_nil c rest (congrArg Prod.snd h)

theorem takeFraction_of_ne_point {c : Char} (h : c ≠ '.') (rest : List Char) :
    takeFraction (c :: rest) = (none, c :: rest) := by
  rw [takeFraction.eq_def]
  split
  · next equal => exact absurd (List.cons.inj equal).1 h
  · rfl

/-- Where a fraction and a power of ten end a text, no digit comes first. -/
theorem head_of_takeFraction {power : Option Int}
    (h : takePower Text.asciiDigit? (takeFraction text).2 = (power, [])) :
    ∀ c ∈ text.head?, c.isDigit = false := by
  intro c hc
  obtain ⟨rest, rfl⟩ := List.head?_eq_some_iff.1 hc
  by_cases point : c = '.'
  · rw [point]
    rfl
  · rw [takeFraction_of_ne_point point] at h
    rcases head_of_takePower h c rfl with rfl | rfl <;> rfl

/-- Before a fraction and a power of ten, the whole digits are all the digits. -/
theorem takeDigits_of_takeWhole {power : Option Int} (h : takeWhole text = (whole, after))
    (ends : takePower Text.asciiDigit? (takeFraction after).2 = (power, [])) :
    Text.takeDigits Text.asciiDigit? text = (whole, after) := by
  rw [takeWhole.eq_def] at h
  split at h
  · next rest =>
    obtain ⟨rfl, rfl⟩ := Prod.mk.inj h
    exact Text.takeDigits_append ['0'] rest (List.forall_mem_singleton.2 rfl) fun c hc =>
      Text.asciiDigit?_eq_none (head_of_takeFraction ends c hc)
  · exact h

/-- The parts of a number of JSON are those of a numeral. -/
theorem takeUnsigned_of_takeWhole {power : Option Int} (numeric : ∀ c ∈ text, isNumeric c = true)
    (taken : takeWhole text = (whole, after)) (some_digit : whole ≠ [])
    (ends : takePower Text.asciiDigit? (takeFraction after).2 = (power, [])) :
    takeUnsigned Text.digitValue? true text =
      some (⟨false, whole, (takeFraction after).1, power⟩, []) := by
  have digits : Text.takeDigits Text.digitValue? text = (whole, after) := by
    rw [takeDigits_digitValue? numeric, takeDigits_of_takeWhole taken ends]
  have numericAfter : ∀ c ∈ after, isNumeric c = true := by
    have upTo := numericUpTo_takeWhole text
    rw [taken] at upTo
    exact upTo.numeric numeric
  have powers : takePower Text.digitValue? (takeFraction after).2 = (power, []) := by
    rw [takePower_digitValue? ((numericUpTo_takeFraction after).numeric numericAfter), ends]
  obtain ⟨d, ds, rfl⟩ := List.exists_cons_of_ne_nil some_digit
  rw [takeUnsigned, digits]
  rcases after with _ | ⟨c, rest⟩
  · have none_left : takePower Text.digitValue? [] = (power, []) := powers
    simp only [none_left, if_true]
    rfl
  by_cases point : c = '.'
  · subst point
    have same := takeDigits_digitValue? (List.forall_mem_cons.1 numericAfter).2
    rcases digits' : Text.takeDigits Text.asciiDigit? rest with ⟨_ | ⟨f, fs⟩, after'⟩
    · -- a point without digits would be left over
      have stays : takeFraction ('.' :: rest) = (none, '.' :: rest) := by
        simp only [takeFraction, digits']
      rw [stays] at ends
      have := head_of_takePower ends '.' rfl
      simp at this
    · have fraction : takeFraction ('.' :: rest) = (some (f :: fs), after') := by
        simp only [takeFraction, digits']
      rw [fraction] at powers ⊢
      simp [same, digits', powers]
  · rw [takeFraction_of_ne_point point] at powers ⊢
    split
    · next equal => cases equal
    · next equal => cases equal
    · next equal =>
      obtain ⟨-, equal⟩ := Prod.mk.inj equal
      exact absurd (List.cons.inj equal).1 point
    · next equal =>
      obtain ⟨rfl, rfl⟩ := Prod.mk.inj equal
      simp only [powers, if_true]

/-- A number of JSON is a numeral with the same value. -/
theorem numeral?_of_readNumber (h : readNumber text = .ok (v, [])) :
    ∃ n, numeral? Text.digitValue? text = some n ∧ numeralValue n = v := by
  have numeric := numeric_of_readNumber h
  have numericUnsigned := (numericUpTo_takeSign false text).numeric numeric
  simp only [readNumber] at h
  split at h
  · cases h
  next whole afterWhole some_digit taken =>
  obtain ⟨value, ends⟩ := Prod.mk.inj (Except.ok.inj h)
  have sign : takeSign true text = takeSign false text := by
    rcases text with _ | ⟨c, rest⟩
    · rfl
    by_cases plus : c = '+'
    · subst plus
      exact absurd (congrArg Prod.fst taken).symm some_digit
    · rw [takeSign.eq_def, takeSign.eq_def]
      split <;> simp_all
  have unsigned := takeUnsigned_of_takeWhole numericUnsigned taken some_digit
    (Prod.ext rfl ends : takePower Text.asciiDigit? (takeFraction afterWhole).2 = (_, []))
  refine ⟨_, ?_, value⟩
  rw [numeral?, sign]
  simp only [unsigned]

/-- The text of an integer has no other characters than a number. -/
theorem numeric_of_read_int {i : Int} (h : read text = .ok (.int i)) (trimmed : trim text = text) :
    ∀ c ∈ text, isNumeric c = true := by
  generalize hv : Value.int i = v at h
  cases form_of_read h trimmed with
  | bracketed _ container =>
    rw [← hv] at container
    cases container
  | quoted => cases hv
  | word mem =>
    have noInt : words.all (fun entry => entry.2.typeName != "int") = true := by decide
    have := List.all_eq_true.1 noInt _ mem
    rw [← hv] at this
    cases this
  | number read => exact numeric_of_readNumber read

end Numbers

/-! ### Words and arguments -/

theorem isDivider_of_isNumeric {c : Char} (h : isNumeric c = true) : isDivider c = false := by
  by_cases digit : c.isDigit = true
  · have blank := Text.isBlank_of_isDigit digit
    have comma : c ≠ ',' := by rintro rfl; cases digit
    have sign : c ≠ '#' := by rintro rfl; cases digit
    simp [isDivider, blank, comma, sign]
  · simp only [isNumeric, digit, Bool.false_or, Bool.or_eq_true, beq_iff_eq] at h
    rcases h with (((rfl | rfl) | rfl) | rfl) | rfl <;> rfl

theorem Form.isSolid (h : Form text v) : IsSolid text := by
  cases h with
  | bracketed isBracketed => exact .bracketed isBracketed
  | quoted quotable => exact .quoted rfl quotable
  | word mem =>
    have plain : words.all (fun entry => !entry.1.isEmpty &&
        entry.1.all fun c => isOrdinary c && !isDivider c) = true := by decide
    have here := List.all_eq_true.1 plain _ mem
    simp only [Bool.and_eq_true, List.all_eq_true, Bool.not_eq_true', List.isEmpty_eq_false_iff]
      at here
    exact .plain here.1 (fun c hc => (here.2 c hc).1) fun c hc => (here.2 c hc).2
  | number read =>
    have numeric := numeric_of_readNumber read
    refine .plain ?_ (fun c hc => isOrdinary_of_not_marks (by decide) (numeric c hc))
      fun c hc => isDivider_of_isNumeric (numeric c hc)
    rintro rfl
    cases read

/-- A JSON text is one word of a line and one argument of a call. -/
theorem isSolid_of_read (h : read text = .ok v) (trimmed : trim text = text) : IsSolid text :=
  (form_of_read h trimmed).isSolid

/-! ### Literals -/

/-- The value is none of the numbers that JSON does not know. -/
def IsProper (v : Value) : Prop := v ≠ .float .nan ∧ ∀ negative, v ≠ .float (.infinite negative)

theorem isProper_text (s : String) : IsProper (.text s) := ⟨nofun, nofun⟩

/-- Text in brackets is neither in quotes nor a constant nor a number. -/
theorem readLiteral_of_isBracketed (isBracketed : IsBracketed text) (trimmed : trim text = text)
    (h : read text = .ok v) : readLiteral text = .ok v := by
  obtain ⟨opener, inner, bracket, -, rfl⟩ := isBracketed
  have notQuoted : quoted? (opener :: (inner ++ [closerOf opener])) = none := by
    rcases bracket with rfl | rfl <;> rfl
  have notConstant : constant? (opener :: (inner ++ [closerOf opener])) = none := by
    rcases bracket with rfl | rfl <;> rfl
  have notNumeral : numeral? Text.digitValue? (opener :: (inner ++ [closerOf opener])) = none := by
    rcases bracket with rfl | rfl <;> rfl
  have marked : (decide (opener = '[') || decide (opener = '\x7b')) = true := by simpa using bracket
  rw [readLiteral]
  simp only [trimmed, notQuoted, notConstant, notNumeral, if_pos marked, h]

/-- A number is neither in quotes nor a constant. -/
theorem readLiteral_of_readNumber (trimmed : trim text = text) (h : readNumber text = .ok (v, [])) :
    readLiteral text = .ok v := by
  have numeric := numeric_of_readNumber h
  obtain ⟨n, numeral, value⟩ := numeral?_of_readNumber h
  have notQuoted : quoted? text = none := by
    cases text with
    | nil => rfl
    | cons c rest =>
      have here := numeric c (List.mem_cons_self ..)
      have other : (c == '"' || c == '\'') = false := by
        by_contra quote
        simp only [Bool.not_eq_false, Bool.or_eq_true, beq_iff_eq] at quote
        rcases quote with rfl | rfl <;> cases here
      rw [quoted?, other, Bool.false_and, if_neg Bool.false_ne_true]
  have notConstant : constant? text = none := by
    have foreign {word : List Char} (letter : ∃ c ∈ word, isNumeric c = false) : text ≠ word := by
      rintro rfl
      obtain ⟨c, hc, letter⟩ := letter
      rw [numeric c hc] at letter
      cases letter
    rw [constant?, if_neg (foreign ⟨'t', by decide⟩), if_neg (foreign ⟨'f', by decide⟩), if_neg]
    rintro (constant | constant | constant)
    · exact foreign ⟨'n', by decide⟩ constant
    · exact foreign ⟨'N', by decide⟩ constant
    · exact foreign ⟨'n', by decide⟩ constant
  rw [readLiteral]
  simp only [trimmed, notQuoted, notConstant, numeral, value]

/-- **An argument in JSON has the value that it has as JSON**, unless that is a number that JSON
does not know. -/
theorem readLiteral_of_read (h : read text = .ok v) (trimmed : trim text = text)
    (proper : IsProper v) : readLiteral text = .ok v := by
  cases form_of_read h trimmed with
  | bracketed isBracketed => exact readLiteral_of_isBracketed isBracketed trimmed h
  | @quoted content s quotable =>
    have quote : quoted? ('"' :: (content ++ ['"'])) = some ('"', content) := by
      simp [quoted?]
    rw [readLiteral]
    simp only [trimmed, quote, if_true, h]
  | word mem =>
    simp only [words, List.mem_cons, Prod.mk.injEq, List.not_mem_nil, or_false] at mem
    rcases mem with ⟨rfl, rfl⟩ | ⟨rfl, rfl⟩ | ⟨rfl, rfl⟩ | ⟨-, rfl⟩ | ⟨-, rfl⟩ | ⟨-, rfl⟩
    · rfl
    · rfl
    · rfl
    · exact absurd rfl proper.1
    · exact absurd rfl (proper.2 false)
    · exact absurd rfl (proper.2 true)
  | number read => exact readLiteral_of_readNumber trimmed read

/-! ### Characters of strings -/

section Characters

variable {c : Char} {codes : List Nat} {after : List Char}

/-- No escape uses the character. -/
def IsUnescaped (c : Char) : Prop := shortEscape? c = none ∧ hexValue? c = none ∧ c ≠ 'u'

theorem mem_of_readCodes (unescaped : IsUnescaped c) (h : readCodes text = .ok (codes, after))
    (hc : c ∈ text) : c.toNat ∈ codes ∨ c ∈ after := by
  have notQuote : c ≠ '"' := by rintro rfl; cases unescaped.1
  have notBackslash : c ≠ '\\' := by rintro rfl; cases unescaped.1
  fun_induction readCodes text generalizing codes with
  | case2 rest =>
    obtain ⟨-, rfl⟩ := Prod.mk.inj (Except.ok.inj h)
    exact .inr ((List.mem_cons.1 hc).resolve_left notQuote)
  | case5 a b c' d next rest unit hex ih =>
    obtain ⟨⟨codes', after'⟩, hrest, equal⟩ := bind_eq_ok_iff.1 h
    obtain ⟨rfl, rfl⟩ := Prod.mk.inj (Except.ok.inj equal)
    simp only [hexFour?, bind, Option.bind_eq_some_iff] at hex
    obtain ⟨_, ha, _, hb, _, hc', _, hd, -⟩ := hex
    have notHex {e : Char} {n : Nat} (digit : hexValue? e = some n) : c ≠ e := by
      rintro rfl
      rw [unescaped.2.1] at digit
      cases digit
    have later : c ∈ next :: rest := by
      simpa [notBackslash, unescaped.2.2, notHex ha, notHex hb, notHex hc', notHex hd] using hc
    exact (ih hrest later).imp_left (List.mem_cons_of_mem unit)
  | case8 c' rest _ _ x short ih =>
    obtain ⟨⟨codes', after'⟩, hrest, equal⟩ := bind_eq_ok_iff.1 h
    obtain ⟨rfl, rfl⟩ := Prod.mk.inj (Except.ok.inj equal)
    have notShort : c ≠ c' := by
      rintro rfl
      rw [unescaped.1] at short
      cases short
    have later : c ∈ rest := by simpa [notBackslash, notShort] using hc
    exact (ih hrest later).imp_left (List.mem_cons_of_mem x.toNat)
  | case10 c' rest _ _ _ _ _ _ ih =>
    obtain ⟨⟨codes', after'⟩, hrest, equal⟩ := bind_eq_ok_iff.1 h
    obtain ⟨rfl, rfl⟩ := Prod.mk.inj (Except.ok.inj equal)
    rcases List.mem_cons.1 hc with rfl | later
    · exact .inl (List.mem_cons_self ..)
    · exact (ih hrest later).imp_left (List.mem_cons_of_mem c'.toNat)
  | _ => cases h

/-- The code of a character is no half of a surrogate pair. -/
theorem not_isSurrogate_toNat (c : Char) :
    isHighSurrogate c.toNat = false ∧ isLowSurrogate c.toNat = false := by
  have valid := c.valid
  simp only [UInt32.isValidChar, Nat.isValidChar] at valid
  have same : c.toNat = c.val.toNat := rfl
  simp only [isHighSurrogate, isLowSurrogate, Bool.and_eq_false_iff, decide_eq_false_iff_not]
  omega

theorem mem_ofCodes (h : c.toNat ∈ codes) : c ∈ ofCodes codes := by
  obtain ⟨notHigh, notLow⟩ := not_isSurrogate_toNat c
  have own : codeChar c.toNat = c := by simp [codeChar, notHigh, notLow, Char.ofNat_toNat]
  fun_induction ofCodes codes with
  | case1 => cases h
  | case2 n =>
    rw [← List.mem_singleton.1 h, own]
    exact List.mem_singleton.2 rfl
  | case3 m n rest pair ih =>
    simp only [Bool.and_eq_true] at pair
    rcases List.mem_cons.1 h with here | later
    · rw [here, pair.1] at notHigh
      cases notHigh
    rcases List.mem_cons.1 later with here | later
    · rw [here, pair.2] at notLow
      cases notLow
    · exact List.mem_cons_of_mem _ (ih later)
  | case4 m n rest _ ih =>
    rcases List.mem_cons.1 h with here | later
    · rw [← here, own]
      exact List.mem_cons_self ..
    · exact List.mem_cons_of_mem _ (ih later)

/-- A character that no escape uses stands in the text of a string for itself alone. -/
theorem mem_of_read_text {s : String} (unescaped : IsUnescaped c) (h : read text = .ok (.text s))
    (trimmed : trim text = text) (hc : c ∈ text) : c ∈ s.toList := by
  have notQuote : c ≠ '"' := by rintro rfl; cases unescaped.1
  generalize hv : Value.text s = v at h
  cases form_of_read h trimmed with
  | bracketed _ container =>
    rw [← hv] at container
    cases container
  | quoted _ read =>
    obtain rfl := Value.text.inj hv
    obtain ⟨⟨codes, after⟩, hcodes, equal⟩ := bind_eq_ok_iff.1 read
    obtain ⟨content_eq, rfl⟩ := Prod.mk.inj (Except.ok.inj equal)
    rw [← content_eq]
    have inside := (List.mem_cons.1 hc).resolve_left notQuote
    exact mem_ofCodes ((mem_of_readCodes unescaped hcodes inside).resolve_right (by simp))
  | word mem =>
    have noText : words.all (fun entry => entry.2.typeName != "str") = true := by decide
    have := List.all_eq_true.1 noText _ mem
    rw [← hv] at this
    cases this
  | number read =>
    obtain ⟨n, -, value⟩ := numeral?_of_readNumber read
    rw [← hv, numeralValue] at value
    split at value <;> cases value

end Characters

end PatchScript.Json
