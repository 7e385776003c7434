import PeerLink.Fault
import PeerLink.Text.Quoted

/-!
Queues of work, one for each worker, each served in order. Items go to the queue that was the shortest
when the queues were last looked at, so that adding one need not look at all of them.
-/
namespace PeerLink

/-- Where the least number stands, the first one if it stands more than once. -/
def leastLoaded : List Nat → Nat
  | [] => 0
  | [_] => 0
  | n :: m :: ns =>
    let i := leastLoaded (m :: ns)
    if n ≤ (m :: ns).getD i 0 then 0 else i + 1

/-- Queues by worker, the oldest item first. -/
structure WorkQueues (α : Type) where
  name : String
  queues : List (List α)
  /-- The worker whose queue was the shortest when last looked at. -/
  shortest : Nat
  isOpen : Bool

namespace WorkQueues

variable {α : Type}

def new (name : String) (workers : Nat) : Except Fault (WorkQueues α) :=
  if workers = 0 then .error (.config "Queue manager needs at least one worker")
  else .ok ⟨name, List.replicate workers [], 0, true⟩

def workers (q : WorkQueues α) : Nat := q.queues.length

def lengths (q : WorkQueues α) : List Nat := q.queues.map List.length

def pushTo (q : WorkQueues α) (index : Nat) (item : α) : Except Fault (WorkQueues α) :=
  if q.isOpen then
    if index < q.workers then
      .ok { q with queues := q.queues.modify index (· ++ [item]) }
    else .error (.custom s!"no queue {index}")
  else .error (.custom s!"queue '{q.name}' is shut down")

/-- Adds an item to the queue that was last found to be the shortest, and tells which one that is. -/
def push (q : WorkQueues α) (item : α) : Except Fault (Nat × WorkQueues α) :=
  let index := q.shortest % q.workers
  match q.pushTo index item with
  | .ok q => .ok (index, q)
  | .error e => .error e

def rescan (q : WorkQueues α) : WorkQueues α :=
  { q with shortest := leastLoaded q.lengths }

def pop? (q : WorkQueues α) (index : Nat) : Option (α × WorkQueues α) :=
  match q.queues[index]? with
  | some (item :: items) => some (item, { q with queues := q.queues.set index items })
  | _ => none

/-- Refuses new items. What waits is still worked off. -/
def close (q : WorkQueues α) : WorkQueues α := { q with isOpen := false }

def describe (q : WorkQueues α) : String :=
  s!"QueueManager \x7b name: {Quoted.quote q.name}, workers: {q.workers}, shortest: {q.shortest} \x7d"

end WorkQueues

end PeerLink
