import PatchScript.Proofs.Command.Joining

/-!
# Words and arguments

A line is split into words at bare blanks, and what follows a bare number sign is a comment. A call
is split into arguments at bare commas. Text in quotes, text in brackets, and text without any of
these marks is *solid*: no division falls into it, so that it is one word of a line and one argument
of a call, whatever it is made of.

## Main definitions

* `IsSolid` — text into which no division falls
* `following` — texts with a separator before each

## Main results

* `IsSolid.selfContained` — solid text is a piece of its own
* `splitWords_following` — a line of solid words is split into them
* `splitArguments_following` — a call of solid arguments is split into them
-/

namespace PatchScript

open Text

variable {text first : List Char} {others : List (List Char)} {separates : Char → Bool}

/-! ### Solid text -/

/-- Whether the character, where it is bare, ends a word or an argument or begins a comment. -/
def isDivider (c : Char) : Bool := isBlank c || c == ',' || c == '#'

/-- Text in brackets, text in quotes, or characters that neither mark nor divide. -/
inductive IsSolid : List Char → Prop
  | bracketed {text : List Char} (isBracketed : IsBracketed text) : IsSolid text
  | quoted {quote : Char} {content : List Char} (isQuote : isQuote quote = true)
      (quotable : Quotable quote content) : IsSolid (quote :: (content ++ [quote]))
  | plain {text : List Char} (some_character : text ≠ [])
      (ordinary : ∀ c ∈ text, isOrdinary c = true) (whole : ∀ c ∈ text, isDivider c = false) :
      IsSolid text

namespace IsSolid

theorem balanced (h : IsSolid text) : Balanced text := by
  cases h with
  | bracketed isBracketed => exact isBracketed.balanced
  | quoted isQuote quotable => exact .quoted isQuote quotable .nil
  | plain _ ordinary _ => exact .of_ordinary ordinary

theorem clear (h : IsSolid text) (divides : ∀ c, separates c = true → isDivider c = true) :
    Nesting.Clear separates .outside text := by
  cases h with
  | bracketed isBracketed => exact .bracketed isBracketed
  | quoted isQuote quotable => exact .quoted isQuote quotable 0
  | plain _ _ whole =>
    refine .of_not_separates fun c hc => ?_
    by_contra separated
    have := divides c (Bool.not_eq_false _ ▸ separated)
    rw [whole c hc] at this
    cases this

theorem ne_nil (h : IsSolid text) : text ≠ [] := by
  cases h with
  | bracketed isBracketed => exact isBracketed.ne_nil
  | quoted => exact List.cons_ne_nil _ _
  | plain some_character => exact some_character

/-- A quote is no blank. -/
theorem isBlank_of_isQuote {c : Char} (h : isQuote c = true) : isBlank c = false := by
  simp only [isQuote, Bool.or_eq_true, beq_iff_eq] at h
  rcases h with rfl | rfl <;> rfl

/-- Neither the first nor the last character of solid text is a blank. -/
theorem trim_eq (h : IsSolid text) : trim text = text := by
  rw [trim_eq_self_iff]
  cases h with
  | bracketed isBracketed =>
    obtain ⟨opener, inner, bracket, -, rfl⟩ := isBracketed
    rw [← List.cons_append, List.getLast?_concat]
    rcases bracket with rfl | rfl <;> simp [closerOf] <;> decide
  | @quoted quote content isQuote =>
    rw [← List.cons_append, List.getLast?_concat]
    simp [isBlank_of_isQuote isQuote]
  | plain _ _ whole =>
    have notBlank {c : Char} (hc : c ∈ text) : isBlank c = false := by
      have := whole c hc
      simp only [isDivider, Bool.or_eq_false_iff] at this
      exact this.1.1
    exact ⟨fun c hc => notBlank (List.mem_of_head? hc),
      fun c hc => notBlank (List.mem_of_getLast? hc)⟩

/-- Solid text begins with a quote, with a square bracket or a brace, or with a character that
neither marks nor divides. -/
theorem head?_ne {c : Char} (h : IsSolid text) (starts : c ∉ ['"', '\'', '[', '\x7b'])
    (marked : isOrdinary c = false ∨ isDivider c = true) : text.head? ≠ some c := by
  intro head
  cases h with
  | bracketed isBracketed =>
    obtain ⟨opener, inner, bracket, -, rfl⟩ := isBracketed
    obtain rfl := Option.some.inj head
    rcases bracket with rfl | rfl <;> simp at starts
  | quoted isQuote =>
    obtain rfl := Option.some.inj head
    simp_all [PatchScript.isQuote]
  | plain _ ordinary whole =>
    have mem := List.mem_of_head? head
    simp [ordinary c mem, whole c mem] at marked

/-- Solid text is a piece of its own between dividers. -/
theorem selfContained (h : IsSolid text) (divides : ∀ c, separates c = true → isDivider c = true) :
    SelfContained separates text where
  ne_nil := h.ne_nil
  trim_eq := h.trim_eq
  unquoted := congrArg Nesting.quote (Nesting.run_balanced h.balanced 0)
  level := congrArg Nesting.depth (Nesting.run_balanced h.balanced 0)
  clear := h.clear divides

end IsSolid

/-! ### Texts in a row -/

/-- Texts with a separator before each. -/
def following (separator : List Char) (texts : List (List Char)) : List Char :=
  texts.flatMap (separator ++ ·)

theorem following_cons (separator text : List Char) (others : List (List Char)) :
    following separator (text :: others) = separator ++ (text ++ following separator others) := by
  simp [following]

theorem balanced_following {separator : List Char} (plain : Balanced separator)
    (solid : ∀ t ∈ others, IsSolid t) : Balanced (following separator others) := by
  induction others with
  | nil => exact .nil
  | cons text others ih =>
    obtain ⟨here, later⟩ := List.forall_mem_cons.1 solid
    rw [following_cons]
    exact plain.append (here.balanced.append (ih later))

theorem joinedBy_following {IsSeparator : List Char → Prop} {separator : List Char}
    (h : IsSeparator separator) (first : List Char) (others : List (List Char)) :
    JoinedBy IsSeparator (first :: others) (first ++ following separator others) := by
  induction others generalizing first with
  | nil => simpa [following] using JoinedBy.single first
  | cons text others ih =>
    rw [following_cons]
    exact .cons h (ih text)

/-- No blank stands before or behind solid texts in a row. -/
theorem trim_following {separator : List Char} (h : IsSolid first)
    (solid : ∀ t ∈ others, IsSolid t) :
    trim (first ++ following separator others) = first ++ following separator others := by
  have last (t : List Char) (some_character : t ≠ [])
      (ends : ∀ c ∈ t.getLast?, isBlank c = false) :
      ∀ c ∈ (t ++ following separator others).getLast?, isBlank c = false := by
    induction others generalizing t with
    | nil => simpa [following] using ends
    | cons text others ih =>
      obtain ⟨here, later⟩ := List.forall_mem_cons.1 solid
      rw [following_cons, ← List.append_assoc, ← List.append_assoc]
      refine ih later _ (by simp [here.ne_nil]) ?_
      rw [List.getLast?_append_of_ne_nil _ here.ne_nil]
      exact (trim_eq_self_iff.1 here.trim_eq).2
  obtain ⟨begins, ends⟩ := trim_eq_self_iff.1 h.trim_eq
  rw [trim_eq_self_iff, List.head?_append_of_ne_nil _ h.ne_nil]
  exact ⟨begins, last first h.ne_nil ends⟩

/-- A line of solid words is split into them, and has no comment. -/
theorem splitWords_following (hfirst : IsSolid first) (hothers : ∀ w ∈ others, IsSolid w) :
    splitWords (first ++ following [' '] others) = .ok (first :: others, none) := by
  have solid : ∀ w ∈ first :: others, IsSolid w := List.forall_mem_cons.2 ⟨hfirst, hothers⟩
  have blank : IsBlanks [' '] := ⟨by simp, List.forall_mem_singleton.2 rfl⟩
  exact splitWords_joined (joinedBy_following blank first others)
    (fun w hw => (solid w hw).selfContained fun c hc => by simp [isDivider, hc])
    fun w hw => (solid w hw).head?_ne (by decide) (.inr rfl)

/-- A call of solid arguments is split into them. -/
theorem splitArguments_following (hfirst : IsSolid first) (hothers : ∀ a ∈ others, IsSolid a) :
    splitArguments (first ++ following [',', ' '] others) = .ok (first :: others) := by
  have solid : ∀ a ∈ first :: others, IsSolid a := List.forall_mem_cons.2 ⟨hfirst, hothers⟩
  exact splitArguments_joined (joinedBy_following isComma_spaced first others)
    fun a ha => (solid a ha).selfContained fun c hc => by
      simp only [beq_iff_eq] at hc
      simp [isDivider, hc]

end PatchScript
