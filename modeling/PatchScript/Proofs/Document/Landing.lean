import PatchScript.Proofs.Document.Written

/-!
# Where a forced write lands

A forced write is never blocked: what stands in its way gives way to a new container. At each step
it goes on in some container, which is put back in the end. The append marker leads behind the items
of the list that is there, so two documents may take the same write at different places. The
*landing* of a write is the path, without markers, under which its value is found afterwards.

## Main definitions

* `Value.inner` — the container in which a forced write goes on
* `Value.placed`, `Value.landing` — where a step and a path lead when something is written there

## Main results

* `Value.write_forced` — a forced write, step by step
* `Value.resolve_landing` — the value stands at the landing
* `Value.landing_eq_self` — a path without markers is its own landing
-/

namespace PatchScript.Value

variable {v x written child : Value} {s t : Segment} {path rest : Path}

/-! ### Going on -/

/-- The container in which a forced write goes on after a step. -/
def inner (v : Value) (s t : Segment) : Value :=
  match v.way true s t with
  | .into child => child
  | _ => emptyFor t

theorem isContainer_of_isWrongKind (h : isWrongKind t v = false) : v.isContainer = true := by
  cases v with
  | list _ | mapping _ => rfl
  | _ => cases h

theorem isWrongKind_emptyFor (t : Segment) : isWrongKind t (emptyFor t) = false := by
  rw [emptyFor]
  split
  · next indexed => cases t <;> simp_all [isWrongKind, Segment.isKey, Segment.isIndexed,
      Segment.position?]
  · next notIndexed => simp_all [isWrongKind, Segment.isIndexed]

/-- A forced write goes on in the child that is there, if the next step leads into it, and in a new
container otherwise. -/
theorem way_forced (v : Value) (s t : Segment) :
    (∃ child, v.child? s = some child ∧ isWrongKind t child = false ∧
        v.way true s t = .into child) ∨
      (∀ child, v.child? s = some child → isWrongKind t child = true) ∧ v.way true s t = .anew := by
  cases hs : v.child? s with
  | none => exact .inr ⟨nofun, by simp only [way, hs]⟩
  | some child =>
    cases kind : isWrongKind t child with
    | false =>
      refine .inl ⟨child, rfl, kind, ?_⟩
      exact way_eq_into hs (isContainer_of_isWrongKind kind) (by rw [kind, Bool.and_false])
    | true =>
      refine .inr ⟨by rintro _ ⟨⟩; exact kind, ?_⟩
      cases child <;> simp [way, hs, kind]

theorem inner_cases (v : Value) (s t : Segment) :
    (v.child? s = some (v.inner s t) ∧ isWrongKind t (v.inner s t) = false) ∨
      (∀ child, v.child? s = some child → isWrongKind t child = true) ∧
        v.inner s t = emptyFor t := by
  obtain ⟨child, hs, kind, hway⟩ | ⟨wrong, hway⟩ := way_forced v s t
  · left
    rw [inner, hway]
    exact ⟨hs, kind⟩
  · right
    rw [inner, hway]
    exact ⟨wrong, rfl⟩

theorem isWrongKind_inner (v : Value) (s t : Segment) : isWrongKind t (v.inner s t) = false := by
  obtain ⟨-, kind⟩ | ⟨-, fresh⟩ := inner_cases v s t
  · exact kind
  · rw [fresh]
    exact isWrongKind_emptyFor t

/-- A forced write goes on in a container, and puts it back. -/
theorem write_forced (v : Value) (s t : Segment) (rest : Path) (x : Value) :
    v.write true (s :: t :: rest) x =
      match v.put s ((v.inner s t).write true (t :: rest) x).1 with
      | .ok written => (written, ((v.inner s t).write true (t :: rest) x).2)
      | .error fault => (v, some fault) := by
  obtain ⟨child, hs, -, hway⟩ | ⟨-, hway⟩ := way_forced v s t
  · simp only [write_of_into hway, inner, hway, put_of_child? hs]
  · have fresh : v.inner s t = emptyFor t := by rw [inner, hway]
    rw [fresh]
    exact write_of_anew hway

/-! ### Landing -/

/-- Where a step leads when something is put there: the append marker leads behind the items. -/
def placed (v : Value) (s : Segment) : Segment :=
  match v, s with
  | .list items, .append => .index items.length
  | _, s => s

/-- The path under which a forced write leaves its value. -/
def landing : Value → Path → Path
  | _, [] => []
  | v, [s] => [v.placed s]
  | v, s :: t :: rest => v.placed s :: landing (v.inner s t) (t :: rest)

theorem placed_of_ne_append (hs : s ≠ .append) (v : Value) : v.placed s = s := by
  unfold placed
  split
  · exact absurd rfl hs
  · rfl

/-- What was put is found at its place. -/
theorem child?_placed (h : v.put s x = .ok written) : written.child? (v.placed s) = some x := by
  by_cases hs : s = .append
  · subst hs
    obtain ⟨items, rfl, rfl⟩ := put_append_eq_ok h
    exact child?_list_eq_some_iff.2 ⟨items.length, rfl, by simp⟩
  · rw [placed_of_ne_append hs]
    exact child?_of_put h hs

/-- What a write that goes on puts, and what is written there. -/
theorem put_of_write_forced (h : (v.write true (s :: t :: rest) x).2 = none) :
    v.put s ((v.inner s t).write true (t :: rest) x).1 =
        .ok (v.write true (s :: t :: rest) x).1 ∧
      ((v.inner s t).write true (t :: rest) x).2 = none := by
  rw [write_forced] at h ⊢
  cases hput : v.put s ((v.inner s t).write true (t :: rest) x).1 with
  | error fault => simp [hput] at h
  | ok written => exact ⟨rfl, by simpa [hput] using h⟩

theorem put_of_write_last {force : Bool} (h : (v.write force [s] x).2 = none) :
    v.put s x = .ok (v.write force [s] x).1 := by
  rw [write] at h ⊢
  cases hput : v.put s x with
  | error fault => simp [hput] at h
  | ok written => rfl

/-- **The value of a forced write stands at its landing.** -/
theorem resolve_landing (h : (v.write true path x).2 = none) :
    (v.write true path x).1.resolve (v.landing path) = some x := by
  induction path generalizing v with
  | nil => cases h
  | cons s path ih =>
    cases path with
    | nil =>
      rw [landing, resolve_cons_eq_some_iff]
      exact ⟨x, child?_placed (put_of_write_last h), rfl⟩
    | cons t rest =>
      obtain ⟨hput, success⟩ := put_of_write_forced h
      rw [landing, resolve_cons_eq_some_iff]
      exact ⟨_, child?_placed hput, ih success⟩

/-- A path without markers is its own landing. -/
theorem landing_eq_self (concrete : Segment.append ∉ path) (v : Value) : v.landing path = path := by
  induction path generalizing v with
  | nil => rfl
  | cons s path ih =>
    have hs : s ≠ .append := fun equal => concrete (by simp [equal])
    cases path with
    | nil => rw [landing, placed_of_ne_append hs]
    | cons t rest =>
      rw [landing, placed_of_ne_append hs, ih fun later => concrete (by simp [later])]

end PatchScript.Value
