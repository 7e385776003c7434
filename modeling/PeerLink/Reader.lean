import PeerLink.Fault
import PeerLink.UInt24

/-!
Reading fields off the front of a byte string. A reader that fails consumes nothing, because the bytes
left over are part of a successful result only. Runs of bytes that announce their own length carry it
in two bytes in front; `prefixed_withPrefix` says that such a run reads back.
-/
namespace PeerLink

/-- Takes a value off the front of a byte string and leaves the rest. -/
abbrev Reader (α : Type) := StateT Bytes (Except Fault) α

namespace Reader

def take (n : Nat) : Reader Bytes := fun bs =>
  match Bytes.split? n bs with
  | some (head, rest) => .ok (head, rest)
  | none => .error (.bufferUnderrun n bs.length)

def nat (width : Nat) : Reader Nat := fun bs =>
  match take width bs with
  | .ok (head, rest) => .ok (Bytes.toNat head, rest)
  | .error e => .error e

def u24 : Reader UInt24 := fun bs =>
  match take UInt24.width bs with
  | .ok (head, rest) => .ok (UInt24.ofBytes head, rest)
  | .error e => .error e

/-- A two-byte length and as many bytes as it says. -/
def prefixed : Reader Bytes := fun bs =>
  match nat 2 bs with
  | .ok (n, rest) => take n rest
  | .error e => .error e

/-- `n` values in a row, on top of those already read. -/
def manyOnto {α : Type} (item : Reader α) : Nat → List α → Reader (List α)
  | 0, acc => fun bs => .ok (acc.reverse, bs)
  | n + 1, acc => fun bs =>
    match item bs with
    | .ok (a, rest) => manyOnto item n (a :: acc) rest
    | .error e => .error e

def many {α : Type} (item : Reader α) (n : Nat) : Reader (List α) :=
  manyOnto item n []

theorem take_append (as bs : Bytes) : take as.length (as ++ bs) = .ok (as, bs) := by
  simp only [take, Bytes.split?_append]

theorem take_eq_ok {n : Nat} {bs head rest : Bytes} (h : take n bs = .ok (head, rest)) :
    bs = head ++ rest ∧ head.length = n := by
  unfold take at h
  split at h
  · next hs =>
    cases h
    exact Bytes.split?_eq_some hs
  · cases h

theorem nat_ofNat_append (w n : Nat) (bs : Bytes) :
    nat w (Bytes.ofNat w n ++ bs) = .ok (n % Bytes.capacity w, bs) := by
  have h := take_append (Bytes.ofNat w n) bs
  rw [Bytes.length_ofNat] at h
  simp only [nat, h, Bytes.toNat_ofNat]

theorem u24_toBytes_append (a : UInt24) (bs : Bytes) : u24 (a.toBytes ++ bs) = .ok (a, bs) := by
  have h := take_append a.toBytes bs
  rw [UInt24.length_toBytes] at h
  simp only [u24, h, UInt24.ofBytes_toBytes]

end Reader

/-- A byte string behind its own length in two bytes; one of 65536 bytes or more has no such form. -/
def Bytes.withPrefix (bs : Bytes) : Except Fault Bytes :=
  if bs.length < 0x10000 then .ok (Bytes.ofNat 2 bs.length ++ bs) else .error (.oversizedFrame bs.length)

/-- A run behind its length is read back, whatever follows it. -/
theorem Reader.prefixed_withPrefix {bs out : Bytes} (h : bs.withPrefix = .ok out) (rest : Bytes) :
    Reader.prefixed (out ++ rest) = .ok (bs, rest) := by
  unfold Bytes.withPrefix at h
  split at h
  · next hlt =>
    cases h
    have hn : bs.length % Bytes.capacity 2 = bs.length := Nat.mod_eq_of_lt hlt
    simp only [Reader.prefixed, List.append_assoc, Reader.nat_ofNat_append, hn, Reader.take_append]
  · cases h

/-- A byte string with a position in it: what lies before is a count, what lies ahead is kept. -/
structure Cursor where
  position : Nat
  rest : Bytes
  deriving DecidableEq

namespace Cursor

/-- A cursor `position` bytes into `bs`, or at its end if it is shorter. -/
def ofBytes (bs : Bytes) (position : Nat) : Cursor :=
  ⟨min position bs.length, bs.drop position⟩

def remaining (c : Cursor) : Nat := c.rest.length

/-- Reads at the cursor and moves past what was read; a failed read does not move it. -/
def read {α : Type} (c : Cursor) (item : Reader α) : Except Fault (α × Cursor) :=
  match item c.rest with
  | .ok (a, rest) => .ok (a, ⟨c.position + (c.rest.length - rest.length), rest⟩)
  | .error e => .error e

end Cursor

end PeerLink
