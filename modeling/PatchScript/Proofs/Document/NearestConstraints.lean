import PatchScript.Proofs.Document.Governing
import PatchScript.Proofs.Except

/-!
# Only the nearest constraints govern

What governs a container is found by looking at the beginnings of its path. The longest one at which
a mapping declares well-formed constraints decides, and the container is governed directly where
that beginning is the whole path. So it makes no difference what a document holds anywhere else:
further up, to the side, or where the path would go on behind a step that is missing or null.

## Main definitions

* `Value.Declares` — a mapping declares constraints under the reserved key
* `Value.ReachesNearest` — a path as long as that of the nearest constraints, or longer

## Main results

* `Value.governing?_eq_some_iff`, `Value.governing?_eq_none_iff` — the longest beginning decides
* `Value.governing?_congr` — documents that agree from there on are governed alike
* `Value.governing?_nearest_alone` — the nearest constraints govern, and nothing else does
-/

namespace PatchScript.Value

variable {document other : Value} {container front rest q : Path} {s : Segment} {c : Constraints}
  {g : Governing}

/-- What stands at a path is a mapping, which holds a well-formed form of constraints under the
reserved key. -/
def Declares (document : Value) (path : Path) (c : Constraints) : Prop :=
  ∃ (m form : Mapping), document.resolve path = some (.mapping m) ∧
    m.get? Constraints.reservedKey = some (.mapping form) ∧ Constraints.ofForm form = .ok c

theorem of?_mapping_eq_some_iff {m : Mapping} :
    Constraints.of? (.mapping m) = some c ↔ ∃ form : Mapping,
      m.get? Constraints.reservedKey = some (.mapping form) ∧ Constraints.ofForm form = .ok c := by
  rw [Constraints.of?]
  cases m.get? Constraints.reservedKey with
  | none => simp
  | some v => cases v <;> simp [toOption_eq_some_iff]

theorem constraintsAt_eq_some_iff : document.constraintsAt q = some c ↔ document.Declares q c := by
  rw [constraintsAt, Option.bind_eq_some_iff]
  constructor
  · rintro ⟨v, found, declared⟩
    cases v with
    | mapping m =>
      obtain ⟨form, reserved, wellFormed⟩ := of?_mapping_eq_some_iff.1 declared
      exact ⟨m, form, found, reserved, wellFormed⟩
    | _ => cases declared
  · rintro ⟨m, form, found, reserved, wellFormed⟩
    exact ⟨.mapping m, found, of?_mapping_eq_some_iff.2 ⟨form, reserved, wellFormed⟩⟩

theorem constraintsAt_eq_none_iff :
    document.constraintsAt q = none ↔ ∀ c, ¬ document.Declares q c := by
  simp only [← constraintsAt_eq_some_iff, Option.eq_none_iff_forall_ne_some, ne_eq]

/-! ### The longest beginning decides -/

theorem isNearest_iff {owner : Path} :
    document.IsNearest container owner c ↔
      owner <+: container ∧ document.Declares owner c ∧
        ∀ q c, q <+: container → document.Declares q c → q.length ≤ owner.length := by
  constructor
  · intro h
    refine ⟨h.onTheWay, constraintsAt_eq_some_iff.1 h.found, fun q c hq declared => ?_⟩
    by_contra longer
    exact constraintsAt_eq_none_iff.1 (h.last q hq (by omega)) c declared
  · rintro ⟨onTheWay, declared, longest⟩
    refine ⟨onTheWay, constraintsAt_eq_some_iff.2 declared, fun q hq longer => ?_⟩
    exact constraintsAt_eq_none_iff.2 fun c further =>
      absurd (longest q c hq further) (by omega)

theorem governing?_eq_none_iff :
    document.governing? container = none ↔
      ∀ q c, q <+: container → ¬ document.Declares q c := by
  obtain ⟨owner, c, nearest, governs⟩ | ⟨nowhere, governs⟩ := governing?_nearest document container
  · rw [governs]
    obtain ⟨onTheWay, declared, -⟩ := isNearest_iff.1 nearest
    exact iff_of_false (by simp) fun nowhere => nowhere owner c onTheWay declared
  · rw [governs]
    exact iff_of_true rfl fun q c hq => constraintsAt_eq_none_iff.1 (nowhere q hq) c

theorem governing?_eq_some_iff :
    document.governing? container = some g ↔
      g.owner <+: container ∧ document.Declares g.owner g.constraints ∧
        (∀ q c, q <+: container → document.Declares q c → q.length ≤ g.owner.length) ∧
        (g.direct = true ↔ g.owner = container) := by
  constructor
  · intro governs
    obtain ⟨owner, c, nearest, equal⟩ | ⟨-, nothing⟩ := governing?_nearest document container
    · obtain rfl : ⟨c, owner, decide (owner = container)⟩ = g := by
        rw [governs] at equal
        exact (Option.some.inj equal).symm
      obtain ⟨onTheWay, declared, longest⟩ := isNearest_iff.1 nearest
      exact ⟨onTheWay, declared, longest, decide_eq_true_iff⟩
    · rw [governs] at nothing
      cases nothing
  · rintro ⟨onTheWay, declared, longest, direct⟩
    rw [governing?_of_isNearest (isNearest_iff.2 ⟨onTheWay, declared, longest⟩)]
    have same : decide (g.owner = container) = g.direct := by
      rw [Bool.eq_iff_iff, decide_eq_true_iff, direct]
    rw [same]

/-! ### Nothing else makes a difference -/

/-- At no longer beginning of the path to a container constraints are declared. -/
def ReachesNearest (document : Value) (container q : Path) : Prop :=
  ∀ p c, p <+: container → document.Declares p c → p.length ≤ q.length

/-- **Documents are governed alike** if they declare the same from the nearest constraints on. -/
theorem governing?_congr
    (agree : ∀ q c, q <+: container → document.ReachesNearest container q →
      (other.Declares q c ↔ document.Declares q c)) :
    other.governing? container = document.governing? container := by
  cases governs : document.governing? container with
  | none =>
    have nowhere := governing?_eq_none_iff.1 governs
    refine governing?_eq_none_iff.2 fun q c hq declared => nowhere q c hq ?_
    exact (agree q c hq fun p c hp declared => absurd declared (nowhere p c hp)).1 declared
  | some g =>
    obtain ⟨onTheWay, declared, longest, direct⟩ := governing?_eq_some_iff.1 governs
    refine governing?_eq_some_iff.2
      ⟨onTheWay, (agree g.owner _ onTheWay longest).2 declared, fun q c hq further => ?_, direct⟩
    by_contra longer
    have reaches : document.ReachesNearest container q :=
      fun p c hp declared => Nat.le_trans (longest p c hp declared) (by omega)
    exact longer (longest q c hq ((agree q c hq reaches).1 further))

/-- No constraints are declared behind a step that is missing or null. -/
theorem Declares.prefix_of_missing (h : document.Declares q c) (hq : q <+: front ++ s :: rest)
    (missing : document.resolve (front ++ [s]) = none ∨
      document.resolve (front ++ [s]) = some .null) : q <+: front := by
  obtain ⟨m, form, found, -⟩ := h
  by_contra longer
  -- a longer beginning leads through the step, so nothing stands there
  obtain ⟨more, rfl⟩ : front ++ [s] <+: q := by
    have whole : front ++ [s] <+: front ++ s :: rest := by simp
    refine List.prefix_of_prefix_length_le whole hq ?_
    by_contra short
    refine longer (List.prefix_of_prefix_length_le hq (List.prefix_append ..) ?_)
    simp only [List.length_append, List.length_singleton] at short
    omega
  rw [resolve_append] at found
  obtain none | null := missing
  · rw [none] at found
    cases found
  · rw [null] at found
    cases more with
    | nil => cases found
    | cons t more => cases t <;> cases found

/-- What is missing or null is governed as whatever lies behind it. -/
theorem governing?_of_missing (missing : document.resolve (front ++ [s]) = none ∨
      document.resolve (front ++ [s]) = some .null) (rest : Path) :
    document.governing? (front ++ s :: rest) = document.governing? (front ++ [s]) := by
  have before {rest : Path} {q : Path} {c : Constraints} (declared : document.Declares q c) :
      q <+: front ++ s :: rest ↔ q <+: front :=
    ⟨fun hq => declared.prefix_of_missing hq missing, fun hq => hq.trans (List.prefix_append ..)⟩
  have undirected {rest : Path} {owner : Path} (hq : owner <+: front) :
      owner ≠ front ++ s :: rest := by
    rintro rfl
    have := hq.length_le
    simp only [List.length_append, List.length_cons] at this
    omega
  cases governs : document.governing? (front ++ [s]) with
  | none =>
    have nowhere := governing?_eq_none_iff.1 governs
    exact governing?_eq_none_iff.2 fun q c hq declared =>
      nowhere q c ((before declared).2 ((before declared).1 hq)) declared
  | some g =>
    obtain ⟨onTheWay, declared, longest, direct⟩ := governing?_eq_some_iff.1 governs
    have owner := (before declared).1 onTheWay
    refine governing?_eq_some_iff.2 ⟨(before declared).2 owner, declared, ?_, ?_⟩
    · exact fun q c hq further => longest q c ((before further).2 ((before further).1 hq)) further
    · rw [direct]
      exact iff_of_false (undirected owner) (undirected owner)

/-- **The nearest constraints govern alone.** They are those declared at the longest beginning of the
path to the container, and govern it directly where that is the whole path. Nothing makes a
difference that is declared further up or elsewhere, or lies behind a step that is missing or
null. -/
theorem governing?_nearest_alone (document : Value) (container : Path) :
    (∀ g, document.governing? container = some g ↔
        g.owner <+: container ∧ document.Declares g.owner g.constraints ∧
          (∀ q c, q <+: container → document.Declares q c → q.length ≤ g.owner.length) ∧
          (g.direct = true ↔ g.owner = container)) ∧
      (document.governing? container = none ↔
        ∀ q c, q <+: container → ¬ document.Declares q c) ∧
      (∀ other : Value, (∀ q c, q <+: container → document.ReachesNearest container q →
          (other.Declares q c ↔ document.Declares q c)) →
        other.governing? container = document.governing? container) ∧
      ∀ front s rest, container = front ++ s :: rest →
        (document.resolve (front ++ [s]) = none ∨ document.resolve (front ++ [s]) = some .null) →
          document.governing? container = document.governing? (front ++ [s]) := by
  refine ⟨fun g => governing?_eq_some_iff, governing?_eq_none_iff, fun other => governing?_congr, ?_⟩
  rintro front s rest rfl missing
  exact governing?_of_missing missing rest

/-- Constraints at the root are hidden by nearer ones, so it makes no difference that they are not
well formed in another document; and a null on the way ends the search. -/
theorem governing?_nearest_alone_hidden :
    let nearer : Value :=
      .mapping [("$meta", .mapping [("extensible", .bool false)]), ("hero", .null)]
    let document : Value :=
      .mapping [("$meta", .mapping [("required", .list [.text "party"])]), ("party", nearer)]
    let other : Value := .mapping [("$meta", .mapping [("required", .bool true)]), ("party", nearer)]
    let container : Path := [.key "party", .key "hero", .key "bag"]
    document.governing? container = some ⟨⟨false, [], none, false⟩, [.key "party"], false⟩ ∧
      other.governing? container = document.governing? container ∧
      document.governing? container = document.governing? [.key "party", .key "hero"] := by
  intro nearer document other container
  obtain ⟨-, -, alike, ends⟩ := governing?_nearest_alone document container
  refine ⟨by decide, alike other fun q c hq reaches => ?_, ends [.key "party"] _ _ rfl (.inr rfl)⟩
  have found : document.Declares [.key "party"] ⟨false, [], none, false⟩ := ⟨_, _, rfl, rfl, rfl⟩
  have long := reaches [.key "party"] _ (by decide) found
  obtain rfl | ⟨q, rfl, -⟩ := List.prefix_cons_iff.1 hq
  · simp at long
  · rfl

end PatchScript.Value
