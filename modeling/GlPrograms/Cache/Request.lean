import GlPrograms.Cache.Lookup
import GlPrograms.Report

namespace GlPrograms

inductive Inspection where
  | get (key : Key)
  | contains (key : Key)
  | size
  | list
  | settings
  | scope
  | report (now : Instant) (limit : Option Nat)
  | logReport (now : Instant)
deriving DecidableEq

inductive Reply where
  | nothing
  | entry (e : Option Entry)
  | entries (es : List Entry)
  | program (result : Except BuildError Entry)
  | drawn (result : Except BuildError Unit)
  | flag (b : Bool)
  | size (n : Nat)
  | settings (s : Settings)
  | scope (name description : String) (heard : Bool)
  /-- No text if the writer refused it. -/
  | report (text : Option String)
  | id (n : Option UInt32)

namespace Cache

def inspect (c : Cache) (listener : Listener) : Inspection → Action Gl Reply
  | .get key => return .entry (c.get? key)
  | .contains key => return .flag (c.contains key)
  | .size => return .size c.size
  | .list => return .entries c.entries
  | .settings => return .settings c.settings
  | .scope =>
      return .scope c.settings.scopeName c.settings.scopeDescription
        (listener.hears .debug c.settings.scopeName)
  | .report now limit => do
      let s ← c.writeReport now { limit }
      return .report (if s.refused then none else some s.text)
  | .logReport now => do
      c.logReport listener now
      return .nothing

inductive Request where
  | lookup (key : Key) (now : Instant)
  | destroy (key : Key)
  | destroyAll
  | inspect (i : Inspection)
deriving DecidableEq

def perform (c : Cache) (listener : Listener) : Request → Action Gl (Reply × Cache)
  | .lookup key now => do
      let (result, c) ← c.lookup key now
      return (.program result, c)
  | .destroy key => do
      let (found, c) ← c.destroy key
      return (.flag found, c)
  | .destroyAll => do
      let c ← c.destroyAll
      return (.nothing, c)
  | .inspect i => do
      let reply ← c.inspect listener i
      return (reply, c)

end Cache

end GlPrograms
