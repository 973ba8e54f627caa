import GlPrograms.Log

namespace GlPrograms

/-- What an environment can be asked, and what kind of answer each call has. -/
structure Interface where
  Call : Type
  Answer : Call → Type

/-- What is done next: to end, to make a call and go on with its answer, or to write a record. -/
inductive Action (I : Interface) (α : Type) : Type where
  | done (a : α)
  | call (c : I.Call) (next : I.Answer c → Action I α)
  | log (r : Record) (next : Action I α)

namespace Action

variable {I J : Interface} {α β γ : Type}

def bind : Action I α → (α → Action I β) → Action I β
  | done a, f => f a
  | call c next, f => call c fun answer => (next answer).bind f
  | log r next, f => log r (next.bind f)

instance : Monad (Action I) where
  pure := done
  bind := bind

def ask (I : Interface) (c : I.Call) : Action I (I.Answer c) := call c done

def write (severity : Severity) (target message : String) : Action I Unit :=
  log ⟨severity, target, message⟩ (done ())

@[simp] theorem pure_bind (a : α) (f : α → Action I β) : pure a >>= f = f a := rfl

@[simp] theorem ask_bind (c : I.Call) (f : I.Answer c → Action I β) :
    ask I c >>= f = call c f := rfl

@[simp] theorem write_bind (severity : Severity) (target message : String) (f : Unit → Action I β) :
    write severity target message >>= f = log ⟨severity, target, message⟩ (f ()) := rfl

@[simp] theorem call_bind (c : I.Call) (next : I.Answer c → Action I α) (f : α → Action I β) :
    call c next >>= f = call c fun answer => next answer >>= f := rfl

@[simp] theorem log_bind (r : Record) (next : Action I α) (f : α → Action I β) :
    log r next >>= f = log r (next >>= f) := rfl

theorem bind_pure (action : Action I α) : action >>= pure = action := by
  induction action with
  | done a => rfl
  | call c next ih => simp [ih]
  | log r next ih => simp [ih]

theorem bind_assoc (action : Action I α) (f : α → Action I β) (g : β → Action I γ) :
    action >>= f >>= g = action >>= fun a => f a >>= g := by
  induction action with
  | done a => rfl
  | call c next ih => simp [ih]
  | log r next ih => simp [ih]

instance : LawfulMonad (Action I) :=
  LawfulMonad.mk' (Action I) bind_pure (fun _ _ => rfl) bind_assoc

/-- The same action with every call carried out by an action over another interface. -/
def translate (f : (c : I.Call) → Action J (I.Answer c)) : Action I α → Action J α
  | done a => done a
  | call c next => f c >>= fun answer => (next answer).translate f
  | log r next => log r (next.translate f)

theorem translate_bind (f : (c : I.Call) → Action J (I.Answer c)) (action : Action I α)
    (g : α → Action I β) :
    (action >>= g).translate f = action.translate f >>= fun a => (g a).translate f := by
  induction action with
  | done a => rfl
  | call c next ih => simp [translate, ih]
  | log r next ih => simp [translate, ih]

end Action

end GlPrograms
