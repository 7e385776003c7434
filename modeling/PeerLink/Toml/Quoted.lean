import PeerLink.Toml.Bare

/-!
Quoted strings: between double quotes with escapes, between single quotes as they stand, and either of
them between three quotes over several lines. Every loop takes at least one character a turn and is
given the length of the text as its bound.
-/
namespace PeerLink.Toml.Quoted

/-- Whether the character can stand in a comment. -/
def isPlain (c : Char) : Bool := c == '\t' || (' ' ≤ c && c ≤ '~') || 0x80 ≤ c.toNat

def isBlank (c : Char) : Bool := c == ' ' || c == '\t'

def newline? : List Char → Option (List Char)
  | '\n' :: cs => some cs
  | '\r' :: '\n' :: cs => some cs
  | _ => none

/-- Drops blanks and line ends. -/
def dropLines : List Char → List Char
  | '\r' :: '\n' :: cs => dropLines cs
  | c :: cs => if isBlank c || c == '\n' then dropLines cs else c :: cs
  | [] => []

/-- The character with a number in as many hexadecimal digits. -/
def coded? (size : Nat) (cs : List Char) : Option (Char × List Char) :=
  let ds := cs.take size
  let n := Bare.number 16 ds
  if ds.length = size ∧ ds.all Bare.isHexDigit ∧ n.isValidChar then
    some (Char.ofNat n, cs.drop size)
  else none

/-- The character that the text behind a backslash stands for. -/
def escape? : List Char → Option (Char × List Char)
  | 'b' :: cs => some ('\x08', cs)
  | 'f' :: cs => some ('\x0c', cs)
  | 'n' :: cs => some ('\n', cs)
  | 'r' :: cs => some ('\r', cs)
  | 't' :: cs => some ('\t', cs)
  | '"' :: cs => some ('"', cs)
  | '\\' :: cs => some ('\\', cs)
  | 'u' :: cs => coded? 4 cs
  | 'U' :: cs => coded? 8 cs
  | _ => none

/-- The rest of a string on one line, on top of what is read, last character first. -/
def line? (mark : Char) : Nat → (got : List Char) → List Char → Option (String × List Char)
  | 0, _, _ => none
  | _ + 1, _, [] => none
  | fuel + 1, got, c :: cs =>
    if c = mark then some (String.ofList got.reverse, cs)
    else if c = '\\' ∧ mark = '"' then
      match escape? cs with
      | some (d, cs) => line? mark fuel (d :: got) cs
      | none => none
    else if isPlain c then line? mark fuel (c :: got) cs
    else none

/-- The rest of a string over several lines. Up to two quotes may stand before the three that end it. A
backslash at the end of a line takes the line end and the blanks after it away. -/
def lines? (mark : Char) : Nat → (got : List Char) → List Char → Option (String × List Char)
  | 0, _, _ => none
  | _ + 1, _, [] => none
  | fuel + 1, got, c :: cs =>
    if c = mark then
      let quotes := min 5 ((c :: cs).takeWhile (· == mark)).length
      let rest := (c :: cs).drop quotes
      if 3 ≤ quotes then
        some (String.ofList (List.replicate (quotes - 3) mark ++ got).reverse, rest)
      else lines? mark fuel (List.replicate quotes mark ++ got) rest
    else if c = '\\' ∧ mark = '"' then
      match newline? (cs.dropWhile isBlank) with
      | some cs => lines? mark fuel got (dropLines cs)
      | none =>
        match escape? cs with
        | some (d, cs) => lines? mark fuel (d :: got) cs
        | none => none
    else
      match newline? (c :: cs) with
      | some cs => lines? mark fuel ('\n' :: got) cs
      | none => if isPlain c then lines? mark fuel (c :: got) cs else none

def short? : List Char → Option (String × List Char)
  | c :: cs => if c = '"' ∨ c = '\'' then line? c (cs.length + 1) [] cs else none
  | [] => none

/-- A string. A line end right behind three quotes does not belong to it. -/
def scan? (cs : List Char) : Option (String × List Char) :=
  match cs with
  | a :: b :: c :: rest =>
    if a = b ∧ b = c ∧ (a = '"' ∨ a = '\'') then
      let rest := (newline? rest).getD rest
      lines? a (rest.length + 1) [] rest
    else short? cs
  | _ => short? cs

end PeerLink.Toml.Quoted
