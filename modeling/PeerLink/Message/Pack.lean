import PeerLink.Message

/-!
Packs: several messages with one head in the body of a single message. An entry is its length in three
bytes, the client in three bytes, and the body; the length counts the six bytes in front. Reading a
pack stops at the first entry that does not fit, so that anything may follow the last one.
-/
namespace PeerLink.Message

/-- Bytes in front of the body of an entry. -/
abbrev entryPrefix : Nat := 2 * UInt24.width

def entry (m : Message) : Except Fault Bytes :=
  (UInt24.check (entryPrefix + m.body.length)).map (·.toBytes ++ m.client.toBytes ++ m.body)

/-- Appends messages as entries to the body of `packed`. -/
def packOnto (packed : Message) : List Message → Except Fault Message
  | [] => .ok packed
  | m :: ms =>
    if m.head ≠ packed.head then .error .mixedHeads
    else
      match m.entry with
      | .error e => .error e
      | .ok bs =>
        let size := packed.size + bs.length
        if maxFrameSize < size then .error (.oversizedFrame size)
        else packOnto { packed with body := packed.body ++ bs } ms

/-- One message that holds all the given ones, which must have this head. -/
def pack (head : UInt16) (ms : List Message) : Except Fault Message :=
  packOnto (.new head) ms

/-- Reads an entry: the client and the body. -/
def readEntry? (bs : Bytes) : Option (UInt24 × Bytes × Bytes) := do
  let (size, rest) ← Bytes.split? UInt24.width bs
  let (client, rest) ← Bytes.split? UInt24.width rest
  let size := (UInt24.ofBytes size).toNat
  if size < entryPrefix then none
  let (body, rest) ← Bytes.split? (size - entryPrefix) rest
  return (UInt24.ofBytes client, body, rest)

/-- An entry that is read tells its own length, which is that of its prefix and its body. -/
theorem readEntry?_eq_some {bs body rest : Bytes} {client : UInt24}
    (h : readEntry? bs = some (client, body, rest)) :
    ∃ size : UInt24, size.toNat = entryPrefix + body.length ∧
      bs = size.toBytes ++ client.toBytes ++ body ++ rest := by
  simp only [ readEntry?, Option.bind_eq_bind, Option.bind_eq_some_iff] at h
  obtain ⟨⟨size, _⟩, sized, ⟨named, _⟩, read, h⟩ := h
  obtain ⟨rfl, sizeWidth⟩ := Bytes.split?_eq_some sized
  obtain ⟨behind, clientWidth⟩ := Bytes.split?_eq_some read
  split at h
  · cases h
  · next long =>
    obtain ⟨⟨_, _⟩, run, h⟩ := Option.bind_eq_some_iff.mp h
    obtain ⟨split, bodyLength⟩ := Bytes.split?_eq_some run
    cases h
    refine ⟨UInt24.ofBytes size, ?_, ?_⟩
    · rw [bodyLength, Nat.add_sub_of_le (Nat.not_lt.mp long)]
    · dsimp only at behind split
      rw [UInt24.toBytes_ofBytes sizeWidth, UInt24.toBytes_ofBytes clientWidth, behind, split]
      simp only [List.append_assoc]

theorem length_readEntry? {bs body rest : Bytes} {client : UInt24}
    (h : readEntry? bs = some (client, body, rest)) : rest.length < bs.length := by
  obtain ⟨size, -, rfl⟩ := readEntry?_eq_some h
  simp only [List.length_append, UInt24.length_toBytes]
  omega

/-- Entries as clients and bodies, up to the first that does not fit. -/
def entries (bs : Bytes) : List (UInt24 × Bytes) :=
  match _h : readEntry? bs with
  | none => []
  | some (client, body, rest) => (client, body) :: entries rest
termination_by bs.length
decreasing_by exact length_readEntry? _h

/-- The messages that the body holds. They have the head and the type of the pack. -/
def unpack (m : Message) : List Message :=
  (entries m.body).map fun (client, body) => { withHeader client m.head m.type with body }

end PeerLink.Message
