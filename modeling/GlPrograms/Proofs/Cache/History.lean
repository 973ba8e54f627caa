import GlPrograms.Proofs.Cache.Turns

namespace GlPrograms

namespace Turn

def obtained (t : Turn Cache.Request) (key : Key) : Option Entry :=
  match t.request, t.reply with
  | .lookup asked _, .program (.ok e) => if asked = key then some e else none
  | _, _ => none

def lookupTime (t : Turn Cache.Request) (key : Key) : Option Instant :=
  match t.request with
  | .lookup asked now => if asked = key then some now else none
  | _ => none

def Removes (t : Turn Cache.Request) (key : Key) : Prop :=
  t.request = .destroy key ∨ t.request = .destroyAll

theorem request_of_obtained {t : Turn Cache.Request} {key : Key} (h : (t.obtained key).isSome) :
    ∃ now, t.request = .lookup key now := by
  unfold obtained at h
  split at h
  next asked now e hr hp =>
    split at h
    next he => exact ⟨now, he ▸ hr⟩
    next => simp at h
  next => simp at h

theorem not_removes_of_obtained {t : Turn Cache.Request} {key : Key} (h : (t.obtained key).isSome) :
    ¬ t.Removes key := by
  obtain ⟨now, hr⟩ := request_of_obtained h
  simp [Removes, hr]

end Turn

namespace Cache

variable {turns before after : List (Turn Request)} {t : Turn Request} {key : Key}

/-- Some look-up of the key succeeded after the key was last removed. -/
def Lives (turns : List (Turn Request)) (key : Key) : Prop :=
  ∃ before t after, turns = before ++ t :: after ∧ (t.obtained key).isSome ∧
    ∀ u ∈ after, ¬ u.Removes key

/-- Turn `n` is the first successful look-up of the key since the key was last removed. -/
def Begins (turns : List (Turn Request)) (key : Key) (n : Nat) (t : Turn Request) : Prop :=
  ∃ before after, turns = before ++ t :: after ∧ before.length = n ∧ (t.obtained key).isSome ∧
    ¬ Lives before key ∧ ∀ u ∈ after, ¬ u.Removes key

/-- The latest look-up of the key, successful or not, was given this time. -/
def LastLookup (turns : List (Turn Request)) (key : Key) (time : Instant) : Prop :=
  ∃ before t after, turns = before ++ t :: after ∧ t.lookupTime key = some time ∧
    ∀ u ∈ after, u.lookupTime key = none

theorem not_lives_nil : ¬ Lives [] key := not_since_nil

theorem lives_concat :
    Lives (turns ++ [t]) key ↔ (t.obtained key).isSome ∨ Lives turns key ∧ ¬ t.Removes key :=
  since_concat

theorem Begins.lives {n : Nat} (h : Begins turns key n t) : Lives turns key := by
  obtain ⟨before, after, rfl, -, ht, -, hk⟩ := h
  exact ⟨before, t, after, rfl, ht, hk⟩

theorem Begins.lt_length {n : Nat} (h : Begins turns key n t) : n < turns.length := by
  obtain ⟨before, after, rfl, rfl, -⟩ := h
  simp

theorem Begins.append {n : Nat} {more : List (Turn Request)} (h : Begins turns key n t)
    (hm : ∀ u ∈ more, ¬ u.Removes key) : Begins (turns ++ more) key n t := by
  obtain ⟨before, after, rfl, hn, ht, hf, hk⟩ := h
  refine ⟨before, after ++ more, by simp, hn, ht, hf, fun v hv => ?_⟩
  rcases List.mem_append.1 hv with hv | hv
  · exact hk v hv
  · exact hm v hv

theorem Begins.concat {n : Nat} {u : Turn Request} (h : Begins turns key n t)
    (hu : ¬ u.Removes key) : Begins (turns ++ [u]) key n t :=
  h.append fun _ hv => List.mem_singleton.1 hv ▸ hu

theorem begins_concat (ht : (t.obtained key).isSome) (h : ¬ Lives turns key) :
    Begins (turns ++ [t]) key turns.length t :=
  ⟨turns, [], rfl, rfl, ht, h, by simp⟩

theorem Begins.unique {m n : Nat} {u : Turn Request} (h : Begins turns key m t)
    (h' : Begins turns key n u) : m = n ∧ t = u := by
  obtain ⟨before, after, rfl, rfl, ht, hf, hk⟩ := h
  obtain ⟨before', after', he, rfl, hu, hf', hk'⟩ := h'
  rcases split_cases he with ⟨rfl, rfl, rfl⟩ | ⟨between, rfl, rfl⟩ | ⟨between, rfl, rfl⟩
  · exact ⟨rfl, rfl⟩
  · exact absurd ⟨before, t, between, rfl, ht, fun v hv => hk v (by simp [hv])⟩ hf'
  · exact absurd ⟨before', u, between, rfl, hu, fun v hv => hk' v (by simp [hv])⟩ hf

theorem LastLookup.concat {time : Instant} {u : Turn Request} (h : LastLookup turns key time)
    (hu : u.lookupTime key = none) : LastLookup (turns ++ [u]) key time := by
  obtain ⟨before, t, after, rfl, ht, hl⟩ := h
  refine ⟨before, t, after ++ [u], by simp, ht, fun v hv => ?_⟩
  rcases List.mem_append.1 hv with hv | hv
  · exact hl v hv
  · rw [List.mem_singleton.1 hv]
    exact hu

theorem lastLookup_concat {time : Instant} (h : t.lookupTime key = some time) :
    LastLookup (turns ++ [t]) key time :=
  ⟨turns, t, [], rfl, h, by simp⟩

end Cache

end GlPrograms
