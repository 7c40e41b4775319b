import PatchScript.Json.Reader
import PatchScript.Proofs.Command.Brackets
import PatchScript.Proofs.Except
import PatchScript.Proofs.Text.Cut
import PatchScript.Proofs.Text.Digits
import PatchScript.Proofs.Text.Trim

/-!
# The shape of JSON texts

Whatever is read as a JSON value is balanced: a string hides what it holds, and the brackets of
lists and mappings are closed by their own. A list or a mapping is the text between two brackets.

## Main definitions

* `UpTo` — a text with balanced text in front of another one

## Main results

* `Json.shaped` — what is taken for a value, for items and for entries
* `Json.isBracketed_of_read` — the whole text of a list or a mapping
-/

namespace PatchScript

/-- The first text is balanced text in front of the second one. -/
def UpTo (text rest : List Char) : Prop := ∃ taken, Balanced taken ∧ text = taken ++ rest

namespace UpTo

variable {text more rest : List Char} {c : Char}

theorem refl (text : List Char) : UpTo text text := ⟨[], .nil, rfl⟩

theorem trans (h : UpTo text more) (h' : UpTo more rest) : UpTo text rest := by
  obtain ⟨front, hfront, rfl⟩ := h
  obtain ⟨back, hback, rfl⟩ := h'
  exact ⟨front ++ back, hfront.append hback, by rw [List.append_assoc]⟩

theorem of_ordinary {taken : List Char} (h : ∀ c ∈ taken, isOrdinary c = true) :
    UpTo (taken ++ rest) rest := ⟨taken, .of_ordinary h, rfl⟩

theorem cons (h : isOrdinary c = true) (hrest : UpTo text rest) : UpTo (c :: text) rest := by
  obtain ⟨taken, balanced, rfl⟩ := hrest
  exact ⟨c :: taken, .ordinary h balanced, rfl⟩

end UpTo

namespace Json

variable {text after : List Char} {c : Char}

/-! ### Ordinary characters -/

theorem isOrdinary_of_isSpace (h : isSpace c = true) : isOrdinary c = true :=
  isOrdinary_of_not_marks (p := isSpace) (by decide) h

theorem upTo_skipSpace (text : List Char) : UpTo text (skipSpace text) := by
  have front : ∀ c ∈ text.takeWhile isSpace, isOrdinary c = true := fun c hc =>
    isOrdinary_of_isSpace (List.mem_takeWhile_imp hc)
  have upTo : UpTo (text.takeWhile isSpace ++ skipSpace text) (skipSpace text) :=
    .of_ordinary front
  rwa [skipSpace, List.takeWhile_append_dropWhile] at upTo

/-! ### Strings -/

theorem hexValue?_quote : hexValue? '"' = none := by decide

theorem hexValue?_backslash : hexValue? '\\' = none := by decide

/-- A hexadecimal digit is neither a quote nor a backslash. -/
theorem quotable_cons_of_hex {n : Nat} (h : hexValue? c = some n) (hafter : Quotable '"' text) :
    Quotable '"' (c :: text) := by
  refine .char ?_ ?_ hafter
  · rintro rfl
    rw [hexValue?_quote] at h
    cases h
  · rintro rfl
    rw [hexValue?_backslash] at h
    cases h

/-- What is taken for the rest of a string hides no quote but by a backslash. -/
theorem quotable_of_readCodes {codes : List Nat} (h : readCodes text = .ok (codes, after)) :
    ∃ content, Quotable '"' content ∧ text = content ++ '"' :: after := by
  fun_induction readCodes text generalizing codes with
  | case2 rest =>
    obtain ⟨-, rfl⟩ := Prod.mk.inj (Except.ok.inj h)
    exact ⟨[], .nil, rfl⟩
  | case5 a b c d next rest unit hex ih =>
    obtain ⟨⟨codes', after'⟩, hrest, equal⟩ := bind_eq_ok_iff.1 h
    obtain ⟨-, rfl⟩ := Prod.mk.inj (Except.ok.inj equal)
    obtain ⟨content, quotable, text⟩ := ih hrest
    simp only [hexFour?, bind, Option.bind_eq_some_iff] at hex
    obtain ⟨_, ha, _, hb, _, hc, _, hd, -⟩ := hex
    refine ⟨'\\' :: 'u' :: a :: b :: c :: d :: content, .escape 'u' ?_, by simp [text]⟩
    exact quotable_cons_of_hex ha (quotable_cons_of_hex hb
      (quotable_cons_of_hex hc (quotable_cons_of_hex hd quotable)))
  | case8 c rest _ _ x _ ih =>
    obtain ⟨⟨codes', after'⟩, hrest, equal⟩ := bind_eq_ok_iff.1 h
    obtain ⟨-, rfl⟩ := Prod.mk.inj (Except.ok.inj equal)
    obtain ⟨content, quotable, rfl⟩ := ih hrest
    exact ⟨'\\' :: c :: content, .escape c quotable, rfl⟩
  | case10 c rest notQuote notLast _ _ notEscape _ ih =>
    obtain ⟨⟨codes', after'⟩, hrest, equal⟩ := bind_eq_ok_iff.1 h
    obtain ⟨-, rfl⟩ := Prod.mk.inj (Except.ok.inj equal)
    obtain ⟨content, quotable, rfl⟩ := ih hrest
    refine ⟨c :: content, .char notQuote ?_ quotable, rfl⟩
    rintro rfl
    have some_rest : content ++ '"' :: after' ≠ [] := by simp
    obtain ⟨d, others, more⟩ := List.exists_cons_of_ne_nil some_rest
    exact notEscape d others rfl more
  | _ => cases h

theorem upTo_of_readString {content : List Char} (h : readString text = .ok (content, after)) :
    UpTo ('"' :: text) after := by
  obtain ⟨⟨codes, after'⟩, hcodes, equal⟩ := bind_eq_ok_iff.1 h
  obtain ⟨-, rfl⟩ := Prod.mk.inj (Except.ok.inj equal)
  obtain ⟨content, quotable, rfl⟩ := quotable_of_readCodes hcodes
  exact ⟨'"' :: (content ++ ['"']), .quoted rfl quotable .nil, by simp⟩

/-! ### Numbers and words -/

/-- Whether the character may stand in a number. -/
def isNumeric (c : Char) : Bool :=
  c.isDigit || c == '+' || c == '-' || c == '.' || c == 'e' || c == 'E'

/-- The first text is characters of a number in front of the second one. -/
def NumericUpTo (text rest : List Char) : Prop :=
  ∃ taken, (∀ c ∈ taken, isNumeric c = true) ∧ text = taken ++ rest

namespace NumericUpTo

variable {more rest : List Char}

theorem refl (text : List Char) : NumericUpTo text text := ⟨[], by simp, rfl⟩

theorem trans (h : NumericUpTo text more) (h' : NumericUpTo more rest) :
    NumericUpTo text rest := by
  obtain ⟨front, hfront, rfl⟩ := h
  obtain ⟨back, hback, rfl⟩ := h'
  exact ⟨front ++ back, List.forall_mem_append.2 ⟨hfront, hback⟩, by rw [List.append_assoc]⟩

theorem cons (h : isNumeric c = true) (hrest : NumericUpTo text rest) :
    NumericUpTo (c :: text) rest := by
  obtain ⟨taken, numeric, rfl⟩ := hrest
  exact ⟨c :: taken, List.forall_mem_cons.2 ⟨h, numeric⟩, rfl⟩

theorem upTo (h : NumericUpTo text rest) : UpTo text rest := by
  obtain ⟨taken, numeric, rfl⟩ := h
  exact .of_ordinary fun c hc => isOrdinary_of_not_marks (by decide) (numeric c hc)

end NumericUpTo

theorem numericUpTo_takeSign (plus : Bool) (text : List Char) :
    NumericUpTo text (takeSign plus text).2 := by
  rw [takeSign.eq_def]
  split
  · exact .cons rfl (.refl _)
  · split
    · exact .cons rfl (.refl _)
    · exact .refl _
  · exact .refl _

theorem numericUpTo_takeDigits (text : List Char) :
    NumericUpTo text (Text.takeDigits Text.asciiDigit? text).2 := by
  obtain ⟨digits, rest, rfl, front, -, taken⟩ := Text.takeDigits_front text
  rw [taken]
  exact ⟨digits, fun c hc => by simp [isNumeric, front c hc], rfl⟩

theorem numericUpTo_takeWhole (text : List Char) : NumericUpTo text (takeWhole text).2 := by
  rw [takeWhole.eq_def]
  split
  · exact .cons rfl (.refl _)
  · exact numericUpTo_takeDigits text

theorem numericUpTo_takeFraction (text : List Char) : NumericUpTo text (takeFraction text).2 := by
  rw [takeFraction.eq_def]
  split
  · next rest =>
    have digits := numericUpTo_takeDigits rest
    split
    · exact .refl _
    · next ds after _ taken =>
      rw [taken] at digits
      exact .cons rfl digits
  · exact .refl _

theorem numericUpTo_takePower (text : List Char) :
    NumericUpTo text (takePower Text.asciiDigit? text).2 := by
  rw [takePower.eq_def]
  split
  · next c rest =>
    split
    · next letter =>
      have sign := numericUpTo_takeSign true rest
      have digits := numericUpTo_takeDigits (takeSign true rest).2
      have numeric : isNumeric c = true := by
        simp only [Bool.or_eq_true, beq_iff_eq] at letter
        rcases letter with rfl | rfl <;> rfl
      dsimp only
      split
      · exact .refl _
      · next ds after _ taken =>
        rw [taken] at digits
        exact .cons numeric (sign.trans digits)
    · exact .refl _
  · exact .refl _

theorem numericUpTo_of_readNumber {v : Value} (h : readNumber text = .ok (v, after)) :
    NumericUpTo text after := by
  have sign := numericUpTo_takeSign false text
  have whole := numericUpTo_takeWhole (takeSign false text).2
  simp only [readNumber] at h
  split at h
  · cases h
  · next digits rest _ taken =>
    obtain ⟨-, rfl⟩ := Prod.mk.inj (Except.ok.inj h)
    rw [taken] at whole
    exact sign.trans (whole.trans ((numericUpTo_takeFraction rest).trans
      (numericUpTo_takePower _)))

theorem isContainer_numeralValue (n : Numeral) : (numeralValue n).isContainer = false := by
  rw [numeralValue]
  split <;> rfl

theorem isContainer_of_readNumber {v : Value} (h : readNumber text = .ok (v, after)) :
    v.isContainer = false := by
  simp only [readNumber] at h
  split at h
  · cases h
  · obtain ⟨rfl, -⟩ := Prod.mk.inj (Except.ok.inj h)
    exact isContainer_numeralValue _

theorem upTo_of_readWord? {v : Value} (h : readWord? text = some (v, after)) :
    UpTo text after ∧ v.isContainer = false := by
  obtain ⟨⟨word, value⟩, mem, found⟩ := List.exists_of_findSome?_eq_some h
  obtain ⟨after', hafter, equal⟩ := Option.map_eq_some_iff.1 found
  obtain ⟨rfl, rfl⟩ := Prod.mk.inj equal
  have ordinary :
      words.all (fun entry => entry.1.all isOrdinary && !entry.2.isContainer) = true := by decide
  obtain ⟨chars, scalar⟩ : (∀ c ∈ word, isOrdinary c = true) ∧ value.isContainer = false := by
    simpa using List.all_eq_true.1 ordinary _ mem
  rw [← Text.append_eq_of_isPrefixOf? hafter]
  exact ⟨.of_ordinary chars, scalar⟩

/-! ### Values -/

/-- A text is a value and what follows: what is taken for the value is balanced, and it is in
brackets if the value is a list or a mapping. -/
def IsTakenFor (v : Value) (text rest : List Char) : Prop :=
  ∃ taken, Balanced taken ∧ text = taken ++ rest ∧ (v.isContainer = true → IsBracketed taken)

theorem isTakenFor_scalar {v : Value} (h : UpTo text after ∧ v.isContainer = false) :
    IsTakenFor v text after := by
  obtain ⟨⟨taken, balanced, equal⟩, scalar⟩ := h
  exact ⟨taken, balanced, equal, fun container => by simp [scalar] at container⟩

theorem isTakenFor_bracketed {opener : Char} {v : Value}
    (bracket : opener = '[' ∨ opener = '\x7b') (h : UpTo text (closerOf opener :: after)) :
    IsTakenFor v (opener :: text) after := by
  obtain ⟨inner, inside, rfl⟩ := h
  have bracketed : IsBracketed (opener :: (inner ++ [closerOf opener])) :=
    ⟨opener, inner, bracket, inside, rfl⟩
  exact ⟨_, bracketed.balanced, by simp, fun _ => bracketed⟩

/-- What readers with a given bound take: a value, the items of a list up to its closing bracket,
and the entries of a mapping up to its closing brace. -/
structure Shaped (fuel : Nat) : Prop where
  value {text after : List Char} {v : Value} (h : readValue fuel text = .ok (v, after)) :
    IsTakenFor v text after
  items {text after : List Char} {items : List Value}
    (h : readItems fuel text = .ok (items, after)) : UpTo text (']' :: after)
  entries {text after : List Char} {found m : Mapping}
    (h : readEntries fuel found text = .ok (m, after)) : UpTo text ('\x7d' :: after)

namespace Shaped

variable {fuel : Nat}

theorem zero : Shaped 0 where
  value h := by cases h
  items h := by cases h
  entries h := by cases h

theorem upTo (shaped : Shaped fuel) {v : Value} (h : readValue fuel text = .ok (v, after)) :
    UpTo text after := by
  obtain ⟨taken, balanced, equal, -⟩ := shaped.value h
  exact ⟨taken, balanced, equal⟩

theorem value_succ (shaped : Shaped fuel) {v : Value}
    (h : readValue (fuel + 1) text = .ok (v, after)) : IsTakenFor v text after := by
  rw [readValue.eq_def] at h
  dsimp only at h
  split at h
  · obtain ⟨⟨content, after'⟩, hstring, equal⟩ := bind_eq_ok_iff.1 h
    obtain ⟨rfl, rfl⟩ := Prod.mk.inj (Except.ok.inj equal)
    exact isTakenFor_scalar ⟨upTo_of_readString hstring, rfl⟩
  · next rest =>
    have spaces := upTo_skipSpace rest
    refine isTakenFor_bracketed (.inr rfl) (spaces.trans ?_)
    split at h
    · next after' start =>
      obtain ⟨-, rfl⟩ := Prod.mk.inj (Except.ok.inj h)
      rw [start]
      exact .refl _
    · obtain ⟨⟨m, after'⟩, hentries, equal⟩ := bind_eq_ok_iff.1 h
      obtain ⟨-, rfl⟩ := Prod.mk.inj (Except.ok.inj equal)
      exact shaped.entries hentries
  · next rest =>
    have spaces := upTo_skipSpace rest
    refine isTakenFor_bracketed (.inl rfl) (spaces.trans ?_)
    split at h
    · next after' start =>
      obtain ⟨-, rfl⟩ := Prod.mk.inj (Except.ok.inj h)
      rw [start]
      exact .refl _
    · obtain ⟨⟨items, after'⟩, hitems, equal⟩ := bind_eq_ok_iff.1 h
      obtain ⟨-, rfl⟩ := Prod.mk.inj (Except.ok.inj equal)
      exact shaped.items hitems
  · split at h
    · next found hword =>
      obtain rfl := Except.ok.inj h
      exact isTakenFor_scalar (upTo_of_readWord? hword)
    · exact isTakenFor_scalar ⟨(numericUpTo_of_readNumber h).upTo, isContainer_of_readNumber h⟩

theorem items_succ (shaped : Shaped fuel) {items : List Value}
    (h : readItems (fuel + 1) text = .ok (items, after)) : UpTo text (']' :: after) := by
  obtain ⟨⟨item, behind⟩, hitem, h⟩ := bind_eq_ok_iff.1 h
  have front := (shaped.upTo hitem).trans (upTo_skipSpace behind)
  dsimp only at h
  split at h
  · next rest start =>
    obtain ⟨-, rfl⟩ := Prod.mk.inj (Except.ok.inj h)
    rwa [start] at front
  · next rest start =>
    obtain ⟨⟨others, after'⟩, hothers, equal⟩ := bind_eq_ok_iff.1 h
    obtain ⟨-, rfl⟩ := Prod.mk.inj (Except.ok.inj equal)
    rw [start] at front
    exact front.trans (.cons rfl ((upTo_skipSpace rest).trans (shaped.items hothers)))
  · cases h

theorem entries_succ (shaped : Shaped fuel) {found m : Mapping}
    (h : readEntries (fuel + 1) found text = .ok (m, after)) : UpTo text ('\x7d' :: after) := by
  rw [readEntries.eq_def] at h
  dsimp only at h
  split at h
  · next rest =>
    obtain ⟨⟨name, afterName⟩, hname, h⟩ := bind_eq_ok_iff.1 h
    have front := (upTo_of_readString hname).trans (upTo_skipSpace afterName)
    dsimp only at h
    split at h
    · next afterColon colon =>
      obtain ⟨⟨v, afterValue⟩, hv, h⟩ := bind_eq_ok_iff.1 h
      rw [colon] at front
      have entry := front.trans (.cons rfl ((upTo_skipSpace afterColon).trans
        ((shaped.upTo hv).trans (upTo_skipSpace afterValue))))
      dsimp only at h
      split at h
      · next rest start =>
        obtain ⟨-, rfl⟩ := Prod.mk.inj (Except.ok.inj h)
        rwa [start] at entry
      · next rest start =>
        rw [start] at entry
        exact entry.trans (.cons rfl ((upTo_skipSpace rest).trans (shaped.entries h)))
      · cases h
    · cases h
  · cases h

end Shaped

/-- Whatever the bound, what the readers take is balanced. -/
theorem shaped (fuel : Nat) : Shaped fuel := by
  induction fuel with
  | zero => exact .zero
  | succ fuel ih => exact ⟨ih.value_succ, ih.items_succ, ih.entries_succ⟩

/-! ### Whole texts -/

theorem isBlank_of_isSpace (h : isSpace c = true) : Text.isBlank c = true := by
  simp only [isSpace, Bool.or_eq_true, beq_iff_eq] at h
  rcases h with ((rfl | rfl) | rfl) | rfl <;> rfl

theorem skipSpace_of_trim_eq (trimmed : Text.trim text = text) : skipSpace text = text := by
  obtain ⟨first, -⟩ := Text.trim_eq_self_iff.1 trimmed
  cases text with
  | nil => rfl
  | cons c rest =>
    have notSpace : isSpace c = false := by
      by_contra space
      have := isBlank_of_isSpace (Bool.not_eq_false _ ▸ space)
      rw [first c rfl] at this
      cases this
    rw [skipSpace, List.dropWhile_cons_of_neg (by simp [notSpace])]

/-- A text without a blank around it is read up to its end. -/
theorem readValue_of_read {v : Value} (h : read text = .ok v) (trimmed : Text.trim text = text) :
    readValue (2 * text.length + 2) text = .ok (v, []) := by
  obtain ⟨after, hvalue, spaces⟩ : ∃ after,
      readValue (2 * text.length + 2) text = .ok (v, after) ∧ skipSpace after = [] := by
    rw [read.eq_def] at h
    split at h
    · cases h
    · obtain ⟨⟨v', after⟩, hvalue, h⟩ := bind_eq_ok_iff.1 h
      rw [skipSpace_of_trim_eq trimmed] at hvalue
      dsimp only at h
      split at h
      · next spaces =>
        obtain rfl := Except.ok.inj h
        exact ⟨after, hvalue, List.isEmpty_iff.1 spaces⟩
      · cases h
  obtain ⟨taken, -, equal⟩ := (shaped _).upTo hvalue
  obtain rfl : after = [] := by
    by_contra some_space
    -- the last character of the text would be one of the spaces
    have last := (Text.trim_eq_self_iff.1 trimmed).2 (after.getLast some_space)
      (by rw [equal, List.getLast?_append_of_ne_nil _ some_space,
        List.getLast?_eq_some_getLast some_space]; rfl)
    have space := List.dropWhile_eq_nil_iff.1 spaces _ (List.getLast_mem some_space)
    rw [isBlank_of_isSpace space] at last
    cases last
  exact hvalue

/-- The whole text of a list or a mapping is balanced text in brackets, where no blank stands around
it. -/
theorem isBracketed_of_read {v : Value} (h : read text = .ok v) (container : v.isContainer = true)
    (trimmed : Text.trim text = text) : IsBracketed text := by
  obtain ⟨taken, -, equal, bracketed⟩ := (shaped _).value (readValue_of_read h trimmed)
  rw [equal, List.append_nil]
  exact bracketed container

end Json

end PatchScript
