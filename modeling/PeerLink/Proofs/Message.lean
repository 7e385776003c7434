import PeerLink.Message
import PeerLink.Proofs.Pipeline
import PeerLink.Proofs.Reader

/-!
The header on the wire. A message of a size that its header can say reads back from its bytes, and only
the bytes of a message read as one.
-/
namespace PeerLink.Message

theorem length_header (m : Message) : m.header.length = headerSize := by
  simp only [header, List.length_append, Bytes.length_ofNat, UInt24.length_toBytes]

theorem size_withHeader_le (client : UInt24) (head : UInt16) (type : UInt24) :
    (withHeader client head type).size ≤ maxFrameSize := by
  change headerSize + 0 ≤ maxFrameSize
  decide

theorem toBytes_eq {m : Message} (fits : m.size ≤ maxFrameSize) : m.toBytes = .ok (m.header ++ m.body) :=
  if_neg (Nat.not_lt.mpr fits)

theorem toBytes_ok {m : Message} {bs : Bytes} (h : m.toBytes = .ok bs) :
    m.size ≤ maxFrameSize ∧ bs = m.header ++ m.body := by
  unfold toBytes at h
  split at h
  · cases h
  · next fits =>
    cases h
    exact ⟨Nat.not_lt.mp fits, rfl⟩

theorem length_append_body (m : Message) : (m.header ++ m.body).length = m.size := by
  rw [List.length_append, length_header, size]

theorem append_body_ne_nil (m : Message) : m.header ++ m.body ≠ [] := by
  intro empty
  have length := congrArg List.length empty
  rw [length_append_body, size] at length
  cases Nat.eq_zero_of_add_eq_zero_right length

theorem readHeader_append (size : Nat) (client : UInt24) (head : UInt16) (type : UInt24) (rest : Bytes) :
    readHeader (Bytes.ofNat 2 size ++ client.toBytes ++ Bytes.ofNat 2 head.toNat ++ type.toBytes ++ rest) =
      .ok ((size % Bytes.capacity 2, client, head, type), rest) := by
  have small : head.toNat % Bytes.capacity 2 = head.toNat := Nat.mod_eq_of_lt head.toNat_lt
  simp only [List.append_assoc, readHeader, bind, StateT.bind, Reader.nat_ofNat_append, Except.bind,
    Reader.u24_toBytes_append, small, UInt16.ofNat_toNat]
  rfl

theorem readHeader_ok {bs body : Bytes} {declared : Nat} {client type : UInt24} {head : UInt16}
    (h : readHeader bs = .ok ((declared, client, head, type), body)) :
    bs = Bytes.ofNat 2 declared ++ client.toBytes ++ Bytes.ofNat 2 head.toNat ++ type.toBytes ++ body ∧
      declared ≤ maxFrameSize := by
  obtain ⟨_, _, sized, h⟩ := Reader.bind_ok h
  obtain ⟨_, _, named, h⟩ := Reader.bind_ok h
  obtain ⟨n, _, called, h⟩ := Reader.bind_ok h
  obtain ⟨_, _, typed, h⟩ := Reader.bind_ok h
  cases h
  obtain ⟨rfl, short⟩ := Reader.nat_ok sized
  obtain rfl := Reader.u24_ok named
  obtain ⟨rfl, small⟩ := Reader.nat_ok called
  obtain rfl := Reader.u24_ok typed
  have kept : (UInt16.ofNat n).toNat = n := UInt16.toNat_ofNat_of_lt small
  simp only [kept, List.append_assoc]
  exact ⟨trivial, Nat.le_of_lt_succ short⟩

theorem ofBytes_append {m : Message} (fits : m.size ≤ maxFrameSize) :
    ofBytes (m.header ++ m.body) = .ok { m with cursor := headerSize, frame := none } := by
  have long : ¬(m.header ++ m.body).length < headerSize := by
    rw [length_append_body, size]
    exact Nat.not_lt.mpr (Nat.le_add_right _ _)
  have small : m.size % Bytes.capacity 2 = m.size := Nat.mod_eq_of_lt (Nat.lt_succ_of_le fits)
  have read : readHeader (m.header ++ m.body) = .ok ((m.size, m.client, m.head, m.type), m.body) := by
    rw [header, readHeader_append, small]
  rw [ofBytes, if_neg long, read]
  simp only [bind, Except.bind, length_append_body, if_true]
  rfl

theorem ofBytes_ok {bs : Bytes} {m : Message} (h : ofBytes bs = .ok m) :
    bs = m.header ++ m.body ∧ m.size ≤ maxFrameSize ∧ m.cursor = headerSize ∧ m.frame = none := by
  unfold ofBytes at h
  split at h
  · cases h
  · cases read : readHeader bs with
    | error fault =>
      rw [read] at h
      cases h
    | ok fields =>
      obtain ⟨⟨declared, client, head, type⟩, body⟩ := fields
      rw [read] at h
      simp only [bind, Except.bind] at h
      split at h
      · next whole =>
        cases h
        obtain ⟨spelled, short⟩ := readHeader_ok read
        have length : bs.length = headerSize + body.length := by
          have total := congrArg List.length spelled
          simp only [List.length_append, Bytes.length_ofNat, UInt24.length_toBytes] at total
          exact total
        have size : declared = headerSize + body.length := whole.trans length
        rw [size] at spelled short
        exact ⟨spelled, short, rfl, rfl⟩
      · cases h

/-- The header of a message declares the length of the whole. -/
theorem declared_size {m : Message} (fits : m.size ≤ maxFrameSize) :
    Bytes.toNat ((m.header ++ m.body).take lengthPrefix) = (m.header ++ m.body).length := by
  have front : (m.header ++ m.body).take lengthPrefix = Bytes.ofNat 2 m.size := by
    simp only [header, List.append_assoc]
    exact List.take_left' (Bytes.length_ofNat 2 m.size)
  rw [front, Bytes.toNat_ofNat, length_append_body]
  exact Nat.mod_eq_of_lt (Nat.lt_succ_of_le fits)

theorem serialize_ok {m m' : Message} {p : Pipeline} {drawn : Draw} {frame : Bytes}
    (unpacked : m.frame = none) (h : m.serialize p drawn = .ok (frame, m')) :
    m.size ≤ maxFrameSize ∧ p.encode drawn (m.header ++ m.body) = .ok frame ∧
      m' = { m with frame := some frame } := by
  rw [serialize, unpacked] at h
  obtain ⟨bs, plain, h⟩ := ok_of_bind h
  obtain ⟨_, encoded, same⟩ := ok_of_bind h
  cases same
  obtain ⟨fits, rfl⟩ := toBytes_ok plain
  exact ⟨fits, encoded, rfl⟩

/-- Serialization gives away the frame that is kept, or makes it. -/
theorem serialize_cases {m m' : Message} {p : Pipeline} {drawn : Draw} {frame : Bytes}
    (h : m.serialize p drawn = .ok (frame, m')) :
    m.frame = some frame ∧ m' = m ∨
      m.frame = none ∧ m.size ≤ maxFrameSize ∧ p.encode drawn (m.header ++ m.body) = .ok frame ∧
        m' = { m with frame := some frame } := by
  cases kept : m.frame with
  | some old =>
    rw [serialize, kept] at h
    cases h
    exact .inl ⟨rfl, rfl⟩
  | none => exact .inr ⟨rfl, serialize_ok kept h⟩

theorem ofFrame_ok {m : Message} {p : Pipeline} {frame : Bytes} (h : ofFrame p frame = .ok m) :
    p.decode frame = .ok (m.header ++ m.body) ∧ m.size ≤ maxFrameSize ∧ m.cursor = headerSize ∧
      m.frame = some frame := by
  obtain ⟨bs, decoded, h⟩ := ok_of_bind h
  obtain ⟨plain, parsed, same⟩ := ok_of_bind h
  cases same
  obtain ⟨rfl, fits, start, -⟩ := ofBytes_ok parsed
  exact ⟨decoded, fits, start, rfl⟩

end PeerLink.Message
