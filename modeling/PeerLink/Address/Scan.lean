import PeerLink.Address

/-!
Reading socket addresses. Every part is written in ASCII digits without signs or blanks. A byte has no
leading zero, while a group, a port and a scope may have them.
-/
namespace PeerLink

namespace SocketAddress

/-- Takes a value off the front of a text, or nothing. -/
abbrev Scan := StateT (List Char) Option

namespace Scan

variable {α : Type}

def char (c : Char) : Scan Unit := fun cs =>
  match cs with
  | d :: rest => if c = d then some ((), rest) else none
  | [] => none

/-- The value of a digit, if it is one in this base of at most sixteen. -/
def digit? (base : Nat) (c : Char) : Option Nat :=
  let value :=
    if '0' ≤ c ∧ c ≤ '9' then some (c.toNat - '0'.toNat)
    else if 'a' ≤ c ∧ c ≤ 'f' then some (c.toNat - 'a'.toNat + 10)
    else if 'A' ≤ c ∧ c ≤ 'F' then some (c.toNat - 'A'.toNat + 10)
    else none
  value.filter (· < base)

/-- All digits that follow, as a number. -/
def digits (base : Nat) : Scan (List Char × Nat) := fun cs =>
  let taken := cs.takeWhile fun c => (digit? base c).isSome
  let value := taken.foldl (fun n c => base * n + (digit? base c).getD 0) 0
  if taken.isEmpty then none else some ((taken, value), cs.drop taken.length)

def byte : Scan UInt8 := do
  let (taken, value) ← digits 10
  if 3 < taken.length ∨ taken.head? = some '0' ∧ 1 < taken.length ∨ 0xff < value then failure
  return UInt8.ofNat value

/-- A group in at most four hexadecimal digits. -/
def group : Scan UInt16 := do
  let (taken, value) ← digits 16
  if 4 < taken.length then failure
  return UInt16.ofNat value

def port : Scan UInt16 := do
  char ':'
  let (_, value) ← digits 10
  if 0xffff < value then failure
  return UInt16.ofNat value

/-- A percent sign and the number of an interface, or zero without them. -/
def scope : Scan UInt32 :=
  (do
    char '%'
    let (_, value) ← digits 10
    if 0xffffffff < value then failure
    return UInt32.ofNat value) <|> pure 0

def bytes : Scan (UInt8 × UInt8 × UInt8 × UInt8) := do
  let a ← byte
  char '.'
  let b ← byte
  char '.'
  let c ← byte
  char '.'
  let d ← byte
  return (a, b, c, d)

/-- The given value, behind a colon unless it is the first one. -/
def separated (first : Bool) (item : Scan α) : Scan α :=
  if first then item else char ':' *> item

/-- Two groups made of two bytes each. -/
def joined (a b c d : UInt8) : List UInt16 :=
  [a.toUInt16 <<< 8 ||| b.toUInt16, c.toUInt16 <<< 8 ||| d.toUInt16]

/-- Up to `most` groups. Four bytes in decimal may stand for the last two, and then nothing follows;
the second result tells whether they do. -/
def groups : (most : Nat) → (first : Bool) → Scan (List UInt16 × Bool)
  | 0, _ => pure ([], false)
  | most + 1, first =>
    (do
      if most = 0 then failure
      let (a, b, c, d) ← separated first bytes
      return (joined a b c d, true)) <|>
    (do
      let g ← separated first group
      let (gs, closed) ← groups most false
      return (g :: gs, closed)) <|>
    pure ([], false)

/-- Eight groups, of which two colons may leave out one or more that are zero. -/
def v6 : Scan IpAddress := do
  let (front, closed) ← groups 8 true
  if front.length = 8 then return .v6 (Vector.ofFn fun i => front.getD i 0)
  if closed then failure
  char ':'
  char ':'
  let (back, _) ← groups (7 - front.length) true
  let all := front ++ List.replicate (8 - front.length - back.length) 0 ++ back
  return .v6 (Vector.ofFn fun i => all.getD i 0)

def socketV4 : Scan SocketAddress := do
  let (a, b, c, d) ← bytes
  return ⟨.v4 a b c d, 0, ← port⟩

def socketV6 : Scan SocketAddress := do
  char '['
  let ip ← v6
  let scope ← scope
  char ']'
  return ⟨ip, scope, ← port⟩

end Scan

def ofString? (s : String) : Option SocketAddress :=
  match (Scan.socketV4 <|> Scan.socketV6) s.toList with
  | some (a, []) => some a
  | _ => none

end SocketAddress

end PeerLink
