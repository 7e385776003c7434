import PeerLink.Compression.Lz4
import PeerLink.Compression.Zstd.Encoder
import PeerLink.Fault

/-!
Compression strategies. Decompression stops at the size of one frame, since no message is larger: whatever
would unfold to more is refused, however short it is.
-/
namespace PeerLink

structure Compressor where
  name : String
  compress : Bytes → Except Fault Bytes
  decompress : Bytes → Except Fault Bytes
  /-- Whether both directions leave every message as it is. -/
  isIdentity : Bool

inductive CompressionKind where
  | none
  | lz4
  | zstd
  deriving DecidableEq, Inhabited, Repr

/-- The most bytes that decompression may give. -/
abbrev decompressedLimit : Nat := 0xffff

namespace CompressionKind

def all : List CompressionKind := [none, lz4, zstd]

/-- The name, both in messages to people and in configuration files. -/
def name : CompressionKind → String
  | none => "none"
  | lz4 => "lz4"
  | zstd => "zstd"

def ofName? (s : String) : Option CompressionKind :=
  all.find? (·.name = s)

def compress : CompressionKind → Bytes → Bytes
  | none, bs => bs
  | lz4, bs => Lz4.encode bs
  | zstd, bs => Zstd.encode bs

def decompress? : CompressionKind → Bytes → Option Bytes
  | none, bs => some bs
  | lz4, bs => Lz4.decode decompressedLimit bs
  | zstd, bs => Zstd.decode decompressedLimit bs

def build (kind : CompressionKind) : Compressor where
  name := kind.name
  compress bs := .ok (kind.compress bs)
  decompress bs :=
    match kind.decompress? bs with
    | some plain => .ok plain
    | Option.none => .error .decompressionFailure
  isIdentity := kind = none

end CompressionKind

end PeerLink
