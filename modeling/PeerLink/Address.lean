import PeerLink.Fault

/-!
Internet addresses and how they are written: `10.0.0.5:7777` and `[fe80::1%3]:7777`. In the second
form the longest run of zero groups is left out, the first one if two are equally long.
-/
namespace PeerLink

inductive IpAddress where
  | v4 (a b c d : UInt8)
  | v6 (groups : Vector UInt16 8)
  deriving DecidableEq

namespace IpAddress

def dotted (a b c d : UInt8) : String := s!"{a}.{b}.{c}.{d}"

def colons (groups : List UInt16) : String :=
  ":".intercalate (groups.map fun g => String.ofList (Nat.toDigits 16 g.toNat))

/-- Where the first of the longest runs of zero groups starts, and its length. -/
def longestGap (groups : List UInt16) : Nat × Nat :=
  (List.range groups.length).foldl (fun best start =>
    let length := ((groups.drop start).takeWhile (· == 0)).length
    if best.2 < length then (start, length) else best) (0, 0)

/-- Eight groups. An address that only wraps one of four bytes shows these as they are, and a single
zero group is not left out. -/
def compressed (groups : List UInt16) : String :=
  match groups with
  | [0, 0, 0, 0, 0, 0xffff, high, low] =>
    "::ffff:" ++ dotted (high >>> 8).toUInt8 high.toUInt8 (low >>> 8).toUInt8 low.toUInt8
  | _ =>
    let (start, length) := longestGap groups
    if length ≤ 1 then colons groups
    else colons (groups.take start) ++ "::" ++ colons (groups.drop (start + length))

def render : IpAddress → String
  | v4 a b c d => dotted a b c d
  | v6 groups => compressed groups.toList

end IpAddress

/-- The address of a socket: a host, the interface it is reached through if that matters, a port. -/
structure SocketAddress where
  ip : IpAddress
  scope : UInt32
  port : UInt16
  deriving DecidableEq

namespace SocketAddress

def render (a : SocketAddress) : String :=
  match a.ip with
  | .v4 .. => s!"{a.ip.render}:{a.port}"
  | .v6 _ => if a.scope = 0 then s!"[{a.ip.render}]:{a.port}" else s!"[{a.ip.render}%{a.scope}]:{a.port}"

/-- The address for datagrams beside an address for streams: the same host, one port further. -/
def datagramAddress (a : SocketAddress) : SocketAddress := ⟨a.ip, 0, a.port + 1⟩

end SocketAddress

end PeerLink
