import StreamMachine.Registry.Basic
import StreamMachine.Trace

/-! Registration together with the notices it gives, which stand also when it aborts. -/
namespace StreamMachine

/-- A result, or a panic, with the notices given on the way. -/
structure Noted (α : Type) where
  notices : List Notice
  result : Except Panic α

namespace Noted

/-- A panic for a broken contract is announced before it unwinds. -/
def violation {α : Type} (v : Violation) : Noted α := ⟨[.violated v], .error (.violation v)⟩

instance : Monad Noted where
  pure a := ⟨[], .ok a⟩
  bind x f := match x.result with
    | .ok a => ⟨x.notices ++ (f a).notices, (f a).result⟩
    | .error panic => ⟨x.notices, .error panic⟩

/-- Goes on after a panic, which is kept as a value. -/
def catching {α : Type} (x : Noted α) : Noted (Except Panic α) := ⟨x.notices, .ok x.result⟩

end Noted

namespace Descriptor

def notice (d : Descriptor) : Notice := .registered d.name d.id d.category

end Descriptor

namespace Registry

def tryRegisterNoted (r : Registry) (name : String) (behavior : Behavior) : Noted Registration :=
  match r.tryRegister name behavior with
  | .error panic => ⟨[], .error panic⟩
  | .ok (.accepted descriptor registry) =>
    ⟨[descriptor.notice], .ok (.accepted descriptor registry)⟩
  | .ok (.rejected error) => ⟨[], .ok (.rejected error)⟩

def registerNoted (r : Registry) (name : String) (behavior : Behavior) :
    Noted (Descriptor × Registry) := do
  match ← r.tryRegisterNoted name behavior with
  | .accepted descriptor registry => pure (descriptor, registry)
  | .rejected error => .violation (.registry error)

def registerAllNoted : List (String × Behavior) → Registry → Noted Registry
  | [], r => pure r
  | (name, behavior) :: rest, r => do
    let (_, r) ← r.registerNoted name behavior
    registerAllNoted rest r

/-- The registry of the built-in kinds, as it comes to be. -/
def builtinNoted : Noted Registry := registerAllNoted builtinKinds empty

/-- The registry of the built-in kinds. -/
def builtin : Registry := builtinNoted.result.toOption.getD empty

end Registry

end StreamMachine
