import GlPrograms.Draw
import GlPrograms.Settings
import GlPrograms.Time.Instant

namespace GlPrograms

structure Entry where
  key : Key
  program : Program
  locations : Locations
  lastUsed : Instant
deriving DecidableEq

structure Cache where
  settings : Settings
  entries : List Entry
  distinct : (entries.map Entry.key).Nodup
deriving DecidableEq

namespace Cache

def empty (settings : Settings) : Cache := ⟨settings, [], List.nodup_nil⟩

def get? (c : Cache) (key : Key) : Option Entry := c.entries.find? (·.key = key)

def contains (c : Cache) (key : Key) : Bool := (c.get? key).isSome

def size (c : Cache) : Nat := c.entries.length

def keys (c : Cache) : List Key := c.entries.map Entry.key

/-- A later use does not move an entry, and may be earlier than the one before. -/
def touch (c : Cache) (key : Key) (now : Instant) : Cache where
  settings := c.settings
  entries := c.entries.map fun e => if e.key = key then { e with lastUsed := now } else e
  distinct := by
    have h : Entry.key ∘ (fun e : Entry => if e.key = key then { e with lastUsed := now } else e) =
        Entry.key := by
      funext e
      simp only [Function.comp]
      split <;> rfl
    rw [List.map_map, h]
    exact c.distinct

def erase (c : Cache) (key : Key) : Cache where
  settings := c.settings
  entries := c.entries.filter (·.key ≠ key)
  distinct := c.distinct.sublist (List.filter_sublist.map _)

/-- A new entry comes first. There is none of its key yet. -/
def insert (c : Cache) (e : Entry) (absent : c.get? e.key = none) : Cache where
  settings := c.settings
  entries := e :: c.entries
  distinct := by
    refine List.nodup_cons.2 ⟨fun h => ?_, c.distinct⟩
    obtain ⟨d, hd, hk⟩ := List.mem_map.1 h
    exact List.find?_eq_none.1 absent d hd (decide_eq_true hk)

end Cache

end GlPrograms
