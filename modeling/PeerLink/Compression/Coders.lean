import PeerLink.Compression

/-!
Compression with coders of any make. An LZ4 message goes to its decoder only if the size in front of it fits a
frame. A Zstandard message is read piece by piece, in pieces of whatever lengths the decoder chooses, until there is
more of it than a frame holds. `Coders.own` are the coders of this library.
-/
namespace PeerLink

/-- The coders that the strategies call. An open reader answers each call with a piece and what is left of it; an
empty piece is the end. -/
structure Coders where
  lz4Encode : Bytes → Bytes
  lz4Decode : Bytes → Option Bytes
  zstdEncode : Bytes → Option Bytes
  ZstdReader : Type
  zstdOpen : Bytes → Option ZstdReader
  zstdRead : (room : Nat) → ZstdReader → Option (Bytes × ZstdReader)

/-- Bytes that a reader has room for at a time. -/
abbrev pieceRoom : Nat := 8192

/-- Collects the pieces of a reader behind `out`, until its end or until there are more than `limit` bytes. -/
def gather {ρ : Type} (limit : Nat) (read : ρ → Option (Bytes × ρ)) (reader : ρ) (out : Bytes) : Option Bytes :=
  match read reader with
  | none => none
  | some ([], _) => some out
  | some (b :: piece, reader) =>
    if limit < (out ++ b :: piece).length then none else gather limit read reader (out ++ b :: piece)
termination_by limit + 1 - out.length
decreasing_by
  rename_i fits
  rw [List.length_append, List.length_cons] at fits ⊢
  omega

namespace Coders

def compress (c : Coders) : CompressionKind → Bytes → Except Fault Bytes
  | .none, bs => .ok bs
  | .lz4, bs => .ok (c.lz4Encode bs)
  | .zstd, bs =>
    match c.zstdEncode bs with
    | some packed => .ok packed
    | none => .error .compressionFailure

def decompress (c : Coders) : CompressionKind → Bytes → Except Fault Bytes
  | .none, bs => .ok bs
  | .lz4, bs =>
    match Bytes.split? 4 bs with
    | none => .error .decompressionFailure
    | some (size, _) =>
      if decompressedLimit < Bytes.toNat size then .error .decompressionFailure
      else
        match c.lz4Decode bs with
        | none => .error .decompressionFailure
        | some plain =>
          if decompressedLimit < plain.length then .error .decompressionFailure else .ok plain
  | .zstd, bs =>
    match c.zstdOpen bs with
    | none => .error .decompressionFailure
    | some reader =>
      match gather decompressedLimit (c.zstdRead pieceRoom) reader [] with
      | none => .error .decompressionFailure
      | some plain => .ok plain

def build (c : Coders) (kind : CompressionKind) : Compressor where
  name := kind.name
  compress := c.compress kind
  decompress := c.decompress kind
  isIdentity := kind = .none

/-- The coders of this library. A decoder without a limit needs a number that no message reaches: a size in four
bytes, or that many full blocks as there are bytes. -/
def own : Coders where
  lz4Encode := Lz4.encode
  lz4Decode := Lz4.decode (Bytes.capacity 4)
  zstdEncode bs := some (Zstd.encode bs)
  ZstdReader := Bytes
  zstdOpen bs := Zstd.decode (Zstd.blockLimit * bs.length) bs
  zstdRead room left := some (left.take room, left.drop room)

end Coders

end PeerLink
