import PeerLink.Message

/-!
Which action is called for which head. An action is looked up when its message is dispatched and then
runs on its own: it may register and remove actions, and it runs even if it has been removed by then.
-/
namespace PeerLink

/-- A named action with a body in `β`, which the application gives a meaning to. -/
structure Action (β : Type) where
  name : String
  body : β
  deriving DecidableEq

structure Job (β : Type) where
  action : Action β
  message : Message
  deriving DecidableEq

structure Dispatcher (β : Type) where
  actions : List (UInt16 × Action β) := []
  /-- Whether calls are handed to the host, which makes them when it likes. -/
  parks : Bool := false

namespace Dispatcher

variable {β : Type}

def empty : Dispatcher β := {}

instance : Inhabited (Dispatcher β) := ⟨empty⟩

def find? (d : Dispatcher β) (head : UInt16) : Option (Action β) := d.actions.lookup head

def has (d : Dispatcher β) (head : UInt16) : Bool := (d.find? head).isSome

/-- Registers an action, unless its head has one. -/
def add (d : Dispatcher β) (head : UInt16) (action : Action β) : Except Fault (Dispatcher β) :=
  if d.has head then .error (.duplicateAction head)
  else .ok { d with actions := (head, action) :: d.actions }

def remove (d : Dispatcher β) (head : UInt16) : Bool × Dispatcher β :=
  (d.has head, { d with actions := d.actions.filter (·.1 != head) })

def job? (d : Dispatcher β) (m : Message) : Option (Job β) :=
  (d.find? m.head).map (⟨·, m⟩)

end Dispatcher

end PeerLink
