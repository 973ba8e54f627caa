import GlPrograms.Cache.Basic

namespace GlPrograms.Cache

theorem keys_nodup (c : Cache) : c.keys.Nodup := c.distinct

theorem eq_of_key_eq {c : Cache} {d e : Entry} (hd : d ∈ c.entries) (he : e ∈ c.entries)
    (h : d.key = e.key) : d = e := by
  obtain ⟨settings, entries, distinct⟩ := c
  induction entries with
  | nil => cases hd
  | cons a as ih =>
    rw [List.map_cons, List.nodup_cons] at distinct
    rcases List.mem_cons.1 hd with rfl | hd' <;> rcases List.mem_cons.1 he with rfl | he'
    · rfl
    · exact absurd (h ▸ List.mem_map_of_mem he') distinct.1
    · exact absurd (h ▸ List.mem_map_of_mem hd') distinct.1
    · exact ih distinct.2 hd' he'

theorem get?_eq_some {c : Cache} {key : Key} {e : Entry} :
    c.get? key = some e ↔ e ∈ c.entries ∧ e.key = key := by
  constructor
  · intro h
    exact ⟨List.mem_of_find?_eq_some h, by simpa using List.find?_some h⟩
  · rintro ⟨he, rfl⟩
    cases hf : c.get? e.key with
    | none =>
      have := List.find?_eq_none.1 hf e he
      simp at this
    | some d =>
      have hd : d.key = e.key := by simpa using List.find?_some hf
      rw [eq_of_key_eq (List.mem_of_find?_eq_some hf) he hd]

theorem get?_eq_none {c : Cache} {key : Key} : c.get? key = none ↔ key ∉ c.keys := by
  simp [get?, keys]

theorem contains_iff {c : Cache} {key : Key} : c.contains key = true ↔ key ∈ c.keys := by
  rw [contains, Option.isSome_iff_ne_none, ne_eq, get?_eq_none, Classical.not_not]

theorem contains_eq_false {c : Cache} {key : Key} : c.contains key = false ↔ c.get? key = none := by
  simp [contains]

@[simp] theorem keys_empty (settings : Settings) : (empty settings).keys = [] := rfl

@[simp] theorem keys_touch (c : Cache) (key : Key) (now : Instant) :
    (c.touch key now).keys = c.keys := by
  simp only [keys, touch, List.map_map]
  refine List.map_congr_left fun e _ => ?_
  simp only [Function.comp]
  split <;> rfl

@[simp] theorem keys_erase (c : Cache) (key : Key) :
    (c.erase key).keys = c.keys.filter (· ≠ key) := by
  simp [keys, erase, List.filter_map, Function.comp_def]

@[simp] theorem keys_insert (c : Cache) (e : Entry) (absent : c.get? e.key = none) :
    (c.insert e absent).keys = e.key :: c.keys := rfl

@[simp] theorem entries_insert (c : Cache) (e : Entry) (absent : c.get? e.key = none) :
    (c.insert e absent).entries = e :: c.entries := rfl

theorem get?_touch (c : Cache) (key other : Key) (now : Instant) :
    (c.touch key now).get? other =
      (c.get? other).map fun e => if other = key then { e with lastUsed := now } else e := by
  simp only [get?, touch, List.find?_map]
  have hp : ((fun e : Entry => decide (e.key = other)) ∘ fun e : Entry =>
      if e.key = key then { e with lastUsed := now } else e) = fun e => decide (e.key = other) := by
    funext e
    simp only [Function.comp]
    split <;> rfl
  rw [hp]
  cases hf : c.entries.find? fun e => decide (e.key = other) with
  | none => rfl
  | some e =>
    have he : e.key = other := by simpa using List.find?_some hf
    simp [he]

theorem get?_erase (c : Cache) (key other : Key) :
    (c.erase key).get? other = if other = key then none else c.get? other := by
  split
  · next h =>
    subst h
    rw [get?_eq_none, keys_erase]
    simp
  · next h =>
    simp only [get?, erase, List.find?_filter]
    congr 1
    funext e
    by_cases he : e.key = other
    · subst he
      simp [h]
    · simp [he]

theorem get?_insert (c : Cache) (e : Entry) (absent : c.get? e.key = none) (other : Key) :
    (c.insert e absent).get? other = if other = e.key then some e else c.get? other := by
  by_cases h : other = e.key
  · simp [get?, insert, h]
  · simp [get?, insert, h, Ne.symm h]

end GlPrograms.Cache
