import PeerLink.Block.Walk
import PeerLink.Block.Writing
import PeerLink.Message.Pack

/-!
Messages that lie in one buffer: room for the header, and the body behind it. The header fields are kept beside the
buffer and take their places in it when its bytes are asked for. All changes are made in place. A call that fails has
to take back what it did.
-/
namespace PeerLink

/-- Puts `bs` in the place of as many bytes. -/
def Bytes.overwrite (buffer : Bytes) (start : Nat) (bs : Bytes) : Bytes :=
  buffer.take start ++ bs ++ buffer.drop (start + bs.length)

/-- A message in a buffer, with a cursor in it. -/
structure MessageBuffer where
  client : UInt24
  head : UInt16
  type : UInt24
  buffer : Bytes
  /-- Where the next block is read in the buffer. -/
  cursor : Nat
  /-- The frame made of the message or that it came in, while it is still right. -/
  frame : Option Bytes
  deriving DecidableEq

/-- Changes a message in place. An edit that fails has still changed what it came to. -/
abbrev Edit (α : Type) := ExceptT Fault (StateM MessageBuffer) α

namespace MessageBuffer

variable {α : Type}

def message (b : MessageBuffer) : Message :=
  ⟨b.client, b.head, b.type, b.buffer.drop headerSize, b.cursor, b.frame⟩

/-- The message behind a header that is all zeros so far. -/
def ofMessage (m : Message) : MessageBuffer :=
  ⟨m.client, m.head, m.type, List.replicate headerSize 0 ++ m.body, m.cursor, m.frame⟩

def withHeader (client : UInt24) (head : UInt16) (type : UInt24) : MessageBuffer :=
  ⟨client, head, type, List.replicate headerSize 0, headerSize, none⟩

def rewind (b : MessageBuffer) : MessageBuffer := { b with cursor := headerSize }

/-! ### Changing -/

def setClient (b : MessageBuffer) (client : UInt24) : MessageBuffer :=
  if b.client = client then b else { b with client, frame := none }

def setHead (b : MessageBuffer) (head : UInt16) : MessageBuffer :=
  if b.head = head then b else { b with head, frame := none }

def setType (b : MessageBuffer) (type : UInt24) : MessageBuffer :=
  if b.type = type then b else { b with type, frame := none }

/-- Puts a reply slot into the type, if it and the base fit. -/
def setReplySlot (slot : Nat) : Edit Unit := fun b =>
  if 0xffffffff < slot + replyBase then (.error (.valueOutOfRange slot), b)
  else
    match UInt24.check (slot + replyBase) with
    | .error e => (.error e, b)
    | .ok type => (.ok (), b.setType type)

/-- Writes behind the body, and cuts off what was written if that fails or outgrows a frame. -/
def append (writing : Writing) : Edit Unit := fun b =>
  let mark := b.buffer.length
  match writing b.buffer with
  | (.error e, written) => (.error e, { b with buffer := written.take mark })
  | (.ok (), written) =>
    if maxFrameSize < written.length then
      (.error (.oversizedFrame written.length), { b with buffer := written.take mark })
    else (.ok (), { b with buffer := written, frame := none })

def set (block : Block α) (v : α) : Edit Unit := append (block.write v)

/-! ### Reading -/

/-- Reads the next block. The cursor of the message is moved once all of the block has been read. -/
def get (block : Block α) : Edit α := fun b =>
  match block.walk (.ofBytes b.buffer b.cursor) with
  | (.ok v, behind) => (.ok v, { b with cursor := behind.position })
  | (.error e, _) => (.error e, b)

def canGet (b : MessageBuffer) (block : Block α) : Bool :=
  (block.walk (.ofBytes b.buffer b.cursor)).1.isOk

/-! ### Bytes and frames -/

/-- Puts the header fields into their places, if the length can be told. -/
def writeHeader : Edit Unit := fun b =>
  let length := b.buffer.length
  if 0xffff < length then (.error (.oversizedFrame length), b)
  else
    let sized := b.buffer.overwrite 0 (Bytes.ofNat 2 length)
    let named := sized.overwrite 2 b.client.toBytes
    let called := named.overwrite 5 (Bytes.ofNat 2 b.head.toNat)
    (.ok (), { b with buffer := called.overwrite 7 b.type.toBytes })

def toBytes : Edit Bytes := fun b =>
  match writeHeader b with
  | (.error e, b) => (.error e, b)
  | (.ok (), b) => (.ok b.buffer, b)

/-- The frame that is kept, or else the one that the pipeline makes, which is kept from now on. -/
def serialize (p : Pipeline) (drawn : Draw) : Edit Bytes := fun b =>
  match b.frame with
  | some frame => (.ok frame, b)
  | none =>
    match toBytes b with
    | (.error e, b) => (.error e, b)
    | (.ok plain, b) =>
      match p.encode drawn plain with
      | .error e => (.error e, b)
      | .ok frame => (.ok frame, { b with frame := some frame })

/-- The header fields, if the length among them is right. Nothing is read behind one that is not. -/
def walkHeader (length : Nat) : Walk (UInt24 × UInt16 × UInt24) := do
  let declared ← Walk.nat 2
  if declared ≠ length then throw (.lengthMismatch declared length)
  let client ← Walk.u24
  let head ← Walk.nat 2
  let type ← Walk.u24
  return (client, UInt16.ofNat head, type)

/-- The bytes themselves become the buffer. -/
def ofBytes (bs : Bytes) : Except Fault MessageBuffer :=
  if bs.length < headerSize then .error (.lengthMismatch (Message.declaredLength bs) bs.length)
  else do
    let (client, head, type) ← (walkHeader bs.length (.ofBytes bs 0)).1
    return ⟨client, head, type, bs, headerSize, none⟩

def ofFrame (p : Pipeline) (frame : Bytes) : Except Fault MessageBuffer := do
  let b ← ofBytes (← p.decode frame)
  return { b with frame := some frame }

end MessageBuffer

end PeerLink
