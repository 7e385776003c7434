/-!
Text between double quotes in which nothing is invisible: blanks other than the plain one, controls and
marks that join the character before them are written by their numbers.
-/
namespace PeerLink.Quoted

/-- Ranges of characters that show as nothing or as a blank, or that have no agreed meaning. -/
def hidden : List (Nat × Nat) :=
  [(0x00, 0x1f), (0x7f, 0xa0), (0xad, 0xad), (0x300, 0x36f), (0x483, 0x489), (0x591, 0x5bd),
    (0x600, 0x605), (0x610, 0x61a), (0x61c, 0x61c), (0x64b, 0x65f), (0x6dd, 0x6dd), (0x70f, 0x70f),
    (0x1680, 0x1680), (0x180b, 0x180f), (0x1ab0, 0x1ace), (0x1dc0, 0x1dff), (0x2000, 0x200f),
    (0x2028, 0x202f), (0x205f, 0x206f), (0x20d0, 0x20f0), (0x3000, 0x3000), (0x302a, 0x302f),
    (0x3099, 0x309a), (0xe000, 0xf8ff), (0xfe00, 0xfe0f), (0xfe20, 0xfe2f), (0xfeff, 0xfeff),
    (0xfff0, 0xfffb), (0xfffe, 0xffff), (0xe0000, 0x10ffff)]

def isHidden (c : Char) : Bool := hidden.any fun (low, high) => low ≤ c.toNat && c.toNat ≤ high

def escape (c : Char) : String :=
  if c = '"' then "\\\""
  else if c = '\\' then "\\\\"
  else if c = '\t' then "\\t"
  else if c = '\n' then "\\n"
  else if c = '\r' then "\\r"
  else if c.toNat = 0 then "\\0"
  else if isHidden c then "\\u\x7b" ++ String.ofList (Nat.toDigits 16 c.toNat) ++ "\x7d"
  else c.toString

def quote (s : String) : String :=
  "\"" ++ String.join (s.toList.map escape) ++ "\""

end PeerLink.Quoted
