import PatchScript.Value.Basic
import Mathlib.Data.List.Basic

/-!
# Laws of mappings

A mapping is read by `get?` and changed by `put`, `erase` and `merge`. The laws hold of every list
of entries, also where a key stands in it twice: reading and changing then both mean the first
entry.

## Main results

* `Mapping.get?_put`, `put_of_not_mem`, `put_eq_self_iff` — putting
* `Mapping.mem_keys_merge`, `get?_merge` — the keys of a merge, and what stands under them
* `Mapping.exists_split`, `erase_split` — erasing takes out the first entry under a key
* `Mapping.erase_put_of_not_mem` — a new entry leaves no trace when it is taken out
* `Mapping.put_erase_eq_self_iff` — an entry comes back to its place only at the end
-/

namespace PatchScript.Mapping

variable {m : Mapping} {k key : String} {v w : Value}

/-! ### Keys -/

theorem get?_eq_none_iff : m.get? key = none ↔ key ∉ m.keys := by
  induction m with
  | nil => simp [get?, keys]
  | cons e rest ih =>
    obtain ⟨k, v⟩ := e
    by_cases h : k = key
    · simp [get?, keys, h]
    · have : key ≠ k := fun equal => h equal.symm
      simp_all [get?, keys]

theorem mem_of_get? (h : m.get? key = some v) : (key, v) ∈ m := by
  induction m with
  | nil => cases h
  | cons e rest ih =>
    obtain ⟨l, x⟩ := e
    by_cases hl : l = key
    · obtain rfl : x = v := by simpa [get?, hl] using h
      simp [hl]
    · exact List.mem_cons_of_mem _ (ih (by simpa [get?, hl] using h))

theorem mem_keys_of_get? (h : m.get? key = some v) : key ∈ m.keys := by
  by_contra absent
  rw [get?_eq_none_iff.2 absent] at h
  cases h

/-! ### Putting -/

theorem get?_put (m : Mapping) (k key : String) (v : Value) :
    (m.put k v).get? key = if k = key then some v else m.get? key := by
  induction m with
  | nil => simp [put, get?]
  | cons e rest ih =>
    obtain ⟨l, x⟩ := e
    by_cases hl : l = k
    · subst hl
      by_cases hk : l = key <;> simp [put, get?, hk]
    · by_cases hk : k = key
      · have : l ≠ key := hk ▸ hl
        simp_all [put, get?]
      · simp_all [put, get?]

theorem put_of_not_mem (h : k ∉ m.keys) (v : Value) : m.put k v = m ++ [(k, v)] := by
  induction m with
  | nil => rfl
  | cons e rest ih =>
    obtain ⟨different, absent⟩ : ¬k = e.1 ∧ k ∉ keys rest := by simpa [keys] using h
    rw [put, if_neg fun equal => different equal.symm, ih absent, List.cons_append]

theorem keys_put_of_mem (h : k ∈ m.keys) (v : Value) : (m.put k v).keys = m.keys := by
  induction m with
  | nil => simp [keys] at h
  | cons e rest ih =>
    obtain ⟨l, x⟩ := e
    by_cases hl : l = k
    · simp [put, keys, hl]
    · have present : k ∈ keys rest := by
        rcases List.mem_cons.1 h with equal | later
        · exact absurd equal.symm hl
        · exact later
      rw [put, if_neg hl]
      exact congrArg (l :: ·) (ih present)

theorem mem_keys_put (m : Mapping) (k : String) (v : Value) :
    key ∈ (m.put k v).keys ↔ key = k ∨ key ∈ m.keys := by
  by_cases h : k ∈ m.keys
  · rw [keys_put_of_mem h]
    exact ⟨.inr, fun either => either.elim (fun equal => equal ▸ h) id⟩
  · rw [put_of_not_mem h]
    simp [keys, or_comm]

theorem put_put (m : Mapping) (k : String) (v w : Value) :
    (m.put k v).put k w = m.put k w := by
  induction m with
  | nil => simp [put]
  | cons e rest ih =>
    by_cases h : e.1 = k
    · simp [put, h]
    · simp [put, h, ih]

theorem put_eq_self_iff : m.put k v = m ↔ m.get? k = some v := by
  induction m with
  | nil => simp [put, get?]
  | cons e rest ih =>
    obtain ⟨l, x⟩ := e
    by_cases h : l = k
    · simp [put, get?, h, eq_comm]
    · simp [put, get?, h, ih]

theorem length_put_of_mem (h : k ∈ m.keys) (v : Value) : (m.put k v).length = m.length := by
  have := congrArg List.length (keys_put_of_mem h v)
  simpa [keys] using this

/-! ### Erasing -/

/-- A key of a mapping stands in it a first time. -/
theorem exists_split (h : k ∈ m.keys) :
    ∃ before y behind, m = before ++ (k, y) :: behind ∧ k ∉ keys before := by
  induction m with
  | nil => cases h
  | cons e rest ih =>
    obtain ⟨l, y⟩ := e
    by_cases here : l = k
    · exact ⟨[], y, rest, by rw [here]; rfl, by simp [keys]⟩
    · have later : k ∈ keys rest := (List.mem_cons.1 h).resolve_left fun equal => here equal.symm
      obtain ⟨before, z, behind, rfl, first⟩ := ih later
      refine ⟨(l, y) :: before, z, behind, rfl, fun mem => ?_⟩
      exact (List.mem_cons.1 mem).elim (fun equal => here equal.symm) first

theorem erase_split {before : Mapping} (first : k ∉ before.keys) (y : Value) (behind : Mapping) :
    erase (before ++ (k, y) :: behind) k = before ++ behind := by
  induction before with
  | nil => simp [erase]
  | cons e before ih =>
    obtain ⟨different, first⟩ : ¬ k = e.1 ∧ k ∉ keys before := by simpa [keys] using first
    rw [List.cons_append, erase, if_neg fun equal => different equal.symm, ih first,
      List.cons_append]

theorem length_erase (h : k ∈ m.keys) : (m.erase k).length + 1 = m.length := by
  obtain ⟨before, y, behind, rfl, first⟩ := exists_split h
  rw [erase_split first]
  simp only [List.length_append, List.length_cons]
  omega

theorem mem_keys_erase_of_ne (present : k ∈ m.keys) (h : key ∈ m.keys) (different : key ≠ k) :
    key ∈ (m.erase k).keys := by
  obtain ⟨before, y, behind, rfl, first⟩ := exists_split present
  rw [erase_split first]
  simpa [keys, different] using h

/-- Where an entry that was taken out is back, and at most one other entry was put in the meantime,
the key did not stand in the mapping twice. -/
theorem not_mem_keys_erase {m' : Mapping} (h : k ∈ m.keys)
    (hm' : m' = m.erase k ∨ ∃ l y, m' = (m.erase k).put l y) (back : m'.put k v = m) :
    k ∉ (m.erase k).keys := by
  intro twice
  have shorter := length_erase h
  obtain rfl | ⟨l, y, rfl⟩ := hm'
  · have := congrArg List.length back
    rw [length_put_of_mem twice] at this
    omega
  · have again : k ∈ ((m.erase k).put l y).keys := (mem_keys_put _ l y).2 (.inr twice)
    have same := congrArg List.length back
    rw [length_put_of_mem again] at same
    by_cases hl : l ∈ (m.erase k).keys
    · rw [length_put_of_mem hl] at same
      omega
    · -- the other key is one of the mapping, so it was there before, or it is the key itself
      have mem : l ∈ m.keys := by
        rw [← back, mem_keys_put]
        exact .inr ((mem_keys_put _ l y).2 (.inl rfl))
      by_cases equal : l = k
      · exact hl (equal ▸ twice)
      · exact hl (mem_keys_erase_of_ne h mem equal)

/-- A new entry that is taken out again leaves the mapping as it was. -/
theorem erase_put_of_not_mem (h : k ∉ m.keys) (v : Value) : (m.put k v).erase k = m := by
  rw [put_of_not_mem h, erase_split h, List.append_nil]

/-- **An entry comes back to its place** after it was taken out only where it stood last. -/
theorem put_erase_eq_self_iff (h : m.get? k = some v) :
    (m.erase k).put k v = m ↔ m.keys.idxOf k + 1 = m.length := by
  induction m with
  | nil => cases h
  | cons e rest ih =>
    obtain ⟨l, x⟩ := e
    by_cases hl : l = k
    · obtain rfl : x = v := by simpa [get?, hl] using h
      subst hl
      have first : (keys ((l, x) :: rest)).idxOf l = 0 := by simp [keys]
      rw [first, erase, if_pos rfl]
      constructor
      · intro back
        cases rest with
        | nil => rfl
        | cons e rest =>
          -- the entry of another key would have to give way to the one that comes back
          by_cases he : e.1 = l
          · have := congrArg List.length back
            rw [put, if_pos he] at this
            simp at this
          · rw [put, if_neg he] at back
            exact absurd (congrArg Prod.fst (List.cons.inj back).1) he
      · intro last
        obtain rfl : rest = [] := List.eq_nil_of_length_eq_zero (by simpa using last.symm)
        rfl
    · have later : (keys ((l, x) :: rest)).idxOf k = (keys rest).idxOf k + 1 := by
        simp [keys, hl]
      rw [later, erase, if_neg hl, put, if_neg hl, List.length_cons, List.cons.injEq,
        ih (by simpa [get?, hl] using h)]
      simp

/-! ### Merging -/

theorem mem_keys_merge (m other : Mapping) :
    key ∈ (m.merge other).keys ↔ key ∈ m.keys ∨ key ∈ other.keys := by
  induction other generalizing m with
  | nil => simp [merge, keys]
  | cons e rest ih =>
    have : m.merge (e :: rest) = (m.put e.1 e.2).merge rest := rfl
    rw [this, ih, mem_keys_put]
    simp only [keys, List.map_cons, List.mem_cons]
    tauto

/-- In a merge, what is merged into a mapping takes the place of what stood in it. -/
theorem get?_merge {other : Mapping} (distinct : other.keys.Nodup) (m : Mapping) (key : String) :
    (m.merge other).get? key = (other.get? key).or (m.get? key) := by
  induction other generalizing m with
  | nil => rfl
  | cons e rest ih =>
    obtain ⟨k, v⟩ := e
    obtain ⟨once, distinct⟩ := List.nodup_cons.1 distinct
    have : m.merge ((k, v) :: rest) = (m.put k v).merge rest := rfl
    rw [this, ih distinct, get?_put]
    by_cases h : k = key
    · have absent : get? rest key = none := get?_eq_none_iff.2 (h ▸ once)
      simp [get?, h, absent]
    · simp [get?, h]

end PatchScript.Mapping
