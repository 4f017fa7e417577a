import CamReverse.Lib.Effect
import CamReverse.Lib.Table

/-!
# The event emitter

An `EventEmitter` keeps, for every event, the callbacks that were attached to it, in that order. They are told apart by
`κ`; what each does when it is called is given to `emit`.
-/

namespace CamReverse

variable {κ ε σ : Type}

structure EventEmitter (κ : Type) where
  listeners : Table String (List κ)

namespace EventEmitter

/-- `EventEmitter.__init__`. -/
def init : EventEmitter κ := ⟨Table.empty⟩

/-- `self._listeners.get(event, ())`. -/
def attached (ee : EventEmitter κ) (event : String) : List κ := (ee.listeners.find? event).getD []

def on (ee : EventEmitter κ) (event : String) (cb : κ) : EventEmitter κ :=
  ⟨ee.listeners.insert event (ee.attached event ++ [cb])⟩

/-- `off`, whose `ValueError` is swallowed. -/
def off [DecidableEq κ] (ee : EventEmitter κ) (event : String) (cb : κ) : EventEmitter κ :=
  ⟨ee.listeners.insert event ((ee.attached event).erase cb)⟩

/-- `emit` calls those that are attached when it begins. -/
def emit (ee : EventEmitter κ) (call : κ → EStateM ε σ PUnit) (event : String) : EStateM ε σ Bool := do
  let listeners := ee.attached event
  listeners.forM call
  return !listeners.isEmpty

@[simp] theorem attached_init (event : String) : (init : EventEmitter κ).attached event = [] := rfl

@[simp] theorem attached_on (ee : EventEmitter κ) (event : String) (cb : κ) :
    (ee.on event cb).attached event = ee.attached event ++ [cb] := by
  simp [on, attached]

@[simp] theorem attached_off [DecidableEq κ] (ee : EventEmitter κ) (event : String) (cb : κ) :
    (ee.off event cb).attached event = (ee.attached event).erase cb := by
  simp [off, attached]

end EventEmitter

end CamReverse
