namespace GlPrograms

inductive Severity where
  | error
  | warn
  | info
  | debug
deriving DecidableEq

def Severity.rank : Severity → Nat
  | error => 1
  | warn => 2
  | info => 3
  | debug => 4

structure Record where
  severity : Severity
  target : String
  message : String
deriving DecidableEq

inductive Verbosity where
  | off
  | error
  | warn
  | info
  | debug
  | trace
deriving DecidableEq

def Verbosity.rank : Verbosity → Nat
  | off => 0
  | error => 1
  | warn => 2
  | info => 3
  | debug => 4
  | trace => 5

/-- A listener without a list of targets hears every target. -/
structure Listener where
  verbosity : Verbosity := .trace
  targets : Option (List String) := none
deriving DecidableEq

namespace Listener

def hears (l : Listener) (s : Severity) (target : String) : Bool :=
  decide (s.rank ≤ l.verbosity.rank) &&
    match l.targets with
    | none => true
    | some targets => targets.contains target

def keeps (l : Listener) (r : Record) : Bool := l.hears r.severity r.target

end Listener

end GlPrograms
