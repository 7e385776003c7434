import PeerLink.Connection

/-!
The live connections of a server by id. Ids are counted up, wrap at 24 bits, and are never zero; one that
is in use is skipped. The limit is looked at when an id is allocated.
-/
namespace PeerLink

/-- Live connections and the ids to come. -/
structure Registry (κ : Type) where
  live : List (UInt24 × Connection κ)
  /-- The id that is tried next, in its low 24 bits. -/
  counter : UInt32
  limit : Nat
  distinct : (live.map Prod.fst).Nodup

namespace Registry

variable {κ : Type}

def new (limit : Nat) : Registry κ := ⟨[], 1, limit, by simp⟩

instance : Inhabited (Registry κ) := ⟨new 0⟩

def size (r : Registry κ) : Nat := r.live.length

def get? (r : Registry κ) (id : UInt24) : Option (Connection κ) := r.live.lookup id

def has (r : Registry κ) (id : UInt24) : Bool := r.live.any (·.1 == id)

def erase (r : Registry κ) (id : UInt24) : Registry κ :=
  { r with
    live := r.live.filter (·.1 != id)
    distinct := r.distinct.sublist (List.filter_sublist.map _) }

def insert (r : Registry κ) (c : Connection κ) : Registry κ :=
  { r with
    live := (c.id, c) :: (r.erase c.id).live
    distinct := by
      rw [List.map_cons, List.nodup_cons]
      refine ⟨?_, (r.erase c.id).distinct⟩
      simp [erase] }

/-- The first free id from a counter on, and the counter behind it. The number bounds the ids that are
tried. -/
def search (r : Registry κ) : Nat → UInt32 → Option UInt24 × UInt32
  | 0, counter => (none, counter)
  | n + 1, counter =>
    let id := UInt24.truncate counter.toNat
    if id = 0 ∨ r.has id then r.search n (counter + 1) else (some id, counter + 1)

def allocate (r : Registry κ) : Except Fault UInt24 × Registry κ :=
  if r.limit ≤ r.size then (.error .serverFull, r)
  else
    match r.search 0xffffff r.counter with
    | (some id, counter) => (.ok id, { r with counter })
    | (none, counter) => (.error .idSpaceExhausted, { r with counter })

def map (r : Registry κ) (f : UInt24 → Connection κ → Connection κ) : Registry κ :=
  { r with
    live := r.live.map fun (id, c) => (id, f id c)
    distinct := by
      rw [List.map_map]
      exact r.distinct }

/-- Queues a frame on every open connection that is wanted, and tells how many these are. -/
def queueFor (r : Registry κ) (wanted : UInt24 → Connection κ → Bool) (frame : Bytes) : Nat × Registry κ :=
  let takes (id : UInt24) (c : Connection κ) := wanted id c && !c.isClosed
  ((r.live.filter fun (id, c) => takes id c).length,
    r.map fun id c => if takes id c then (c.sendFrame frame).toOption.getD c else c)

/-- Queues a message on every other connection of the sender's group, and tells how many these are. A sender
without a group reaches nobody. -/
def relay (r : Registry κ) (m : Message) (sender : Connection κ) : Nat × Registry κ :=
  match sender.group, sender.frameOf m with
  | some group, .ok (frame, _) =>
    r.queueFor (fun id c => id != sender.id && c.group == some group) frame
  | _, _ => (0, r)

/-- Frames that wait or are being written on all connections. -/
def pending (r : Registry κ) : Nat := r.live.foldl (fun n (_, c) => n + c.pending.toNat) 0

end Registry

end PeerLink
