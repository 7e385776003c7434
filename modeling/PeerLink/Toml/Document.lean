import PeerLink.Toml.Quoted

/-!
Reading a whole document. Headers open tables, and lines of key and value fill the table that was
opened last. Brackets and braces nest less than eighty deep, which also bounds the parts of a key.
-/
namespace PeerLink.Toml

/-- Takes a value off the front of a text. -/
abbrev Scan (α : Type) := List Char → Except Fault (α × List Char)

namespace Scan

/-- The least depth of nesting that is refused. -/
abbrev depthLimit : Nat := 80

def isKeyPart (c : Char) : Bool := c.isAlphanum || c == '_' || c == '-'

def skipBlanks (cs : List Char) : List Char := cs.dropWhile Quoted.isBlank

/-- Drops blanks, line ends and comments. -/
def skipLines (inComment : Bool) : List Char → List Char
  | [] => []
  | '\r' :: '\n' :: cs => skipLines false cs
  | c :: cs =>
    if c = '\n' then skipLines false cs
    else if inComment && Quoted.isPlain c then skipLines true cs
    else if !inComment && Quoted.isBlank c then skipLines false cs
    else if !inComment && c == '#' then skipLines true cs
    else c :: cs

/-- Nothing but blanks and a comment up to the end of the line. -/
def endOfLine (cs : List Char) : Except Fault (List Char) :=
  let rest := match skipBlanks cs with
    | '#' :: cs => cs.dropWhile Quoted.isPlain
    | cs => cs
  match rest, Quoted.newline? rest with
  | [], _ => .ok []
  | _, some rest => .ok rest
  | _, none => .error .malformed

def simpleKey : Scan String := fun cs =>
  match cs with
  | '"' :: _ | '\'' :: _ =>
    match Quoted.short? cs with
    | some r => .ok r
    | none => .error .malformed
  | _ =>
    let taken := cs.takeWhile isKeyPart
    if taken.isEmpty then .error .malformed else .ok (String.ofList taken, cs.drop taken.length)

/-- A key with points between its parts: the parts before the last one, and that one. -/
def key : Nat → (before : List String) → Scan (List String × String)
  | 0, _, _ => .error .malformed
  | fuel + 1, before, cs => do
    let (part, cs) ← simpleKey (skipBlanks cs)
    match skipBlanks cs with
    | '.' :: cs => key fuel (before ++ [part]) cs
    | cs => return ((before, part), cs)

def dottedKey : Scan (List String × String) := key (depthLimit - 1) []

def expect (c : Char) (cs : List Char) : Except Fault (List Char) :=
  match cs with
  | d :: cs => if c = d then .ok cs else .error .malformed
  | [] => .error .malformed

/-- Items up to the closing bracket, on top of those read, last item first. -/
def items (item : Scan Value) : Nat → (got : List Value) → Scan (List Value)
  | 0, _, _ => .error .malformed
  | fuel + 1, got, cs =>
    match skipLines false cs with
    | ']' :: cs => .ok (got.reverse, cs)
    | cs => do
      let (v, cs) ← item cs
      match skipLines false cs with
      | ',' :: cs => items item fuel (v :: got) cs
      | cs => return ((v :: got).reverse, ← expect ']' cs)

/-- A key and what stands before it in a dotted key, with its value. -/
abbrev Setting := List String × String × Value

def setting (item : Scan Value) : Scan Setting := fun cs => do
  let ((path, key), cs) ← dottedKey cs
  let (v, cs) ← item (skipBlanks (← expect '=' cs))
  return ((path, key, v), cs)

/-- Settings up to the closing brace, at least one, on top of those read, last one first. -/
def settings (item : Scan Value) : Nat → (got : List Setting) → Scan (List Setting)
  | 0, _, _ => .error .malformed
  | fuel + 1, got, cs => do
    let (s, cs) ← setting item cs
    match skipBlanks cs with
    | ',' :: cs => settings item fuel (s :: got) cs
    | cs => return ((s :: got).reverse, ← expect '}' cs)

/-- A value that nests less deep than the bound. -/
def value : (depth : Nat) → Scan Value
  | depth, cs =>
    match depth, cs with
    | _, '"' :: _ | _, '\'' :: _ =>
      match Quoted.scan? cs with
      | some (s, cs) => .ok (.string s, cs)
      | none => .error .malformed
    | depth + 1, '[' :: cs => do
      let (vs, cs) ← items (value depth) (cs.length + 1) [] cs
      return (.array vs, cs)
    | depth + 1, '\x7b' :: cs =>
      match skipBlanks cs with
      | '\x7d' :: cs => .ok (.table .inline [], cs)
      | _ => do
        let (ss, cs) ← settings (value depth) (cs.length + 1) [] cs
        let es ← ss.foldlM (fun es (path, key, v) => Entries.insertInline es path key v) []
        return (.table .inline es, cs)
    | _, cs =>
      match Bare.scan? cs with
      | some r => .ok r
      | none => .error .malformed

end Scan

/-- A document that has been read up to some line. -/
structure Draft where
  /-- What is complete. -/
  root : Entries
  /-- The table that was opened last. -/
  current : Entries
  path : List String
  /-- Whether the table is one of several under the same key. -/
  isRepeated : Bool

namespace Draft

def start : Draft := ⟨[], [], [], false⟩

/-- Puts the table that was opened last into its place. -/
def finish (d : Draft) : Except Fault Entries :=
  match d.path.getLast? with
  | none => .ok d.current
  | some key => do
    let place (_ : Origin) (es : Entries) : Except Fault (Unit × Entries) :=
      if d.isRepeated then
        match es.get? key with
        | some (.tables items) => .ok ((), es.replace key (.tables (items ++ [d.current])))
        | _ => .error (.duplicateKey key (some d.path.dropLast))
      else .ok ((), es ++ [(key, .table .header d.current)])
    return (← Entries.descend false place [] .header d.root d.path.dropLast).2

/-- Opens a table. One that only stood above others so far keeps these. -/
def openTable (d : Draft) (above : List String) (key : String) : Except Fault Draft := do
  let root ← d.finish
  let take (_ : Origin) (es : Entries) : Except Fault (Entries × Entries) :=
    match es.get? key with
    | none => .ok ([], es)
    | some (.table .implied inner) => .ok (inner, es.erase key)
    | some _ => .error (.duplicateKey key (some above))
  let (current, root) ← Entries.descend false take [] .header root above
  return ⟨root, current, above ++ [key], false⟩

/-- Opens one more of several tables under the same key. -/
def openRepeated (d : Draft) (above : List String) (key : String) : Except Fault Draft := do
  let root ← d.finish
  let check (_ : Origin) (es : Entries) : Except Fault (Unit × Entries) :=
    match es.get? key with
    | none => .ok ((), es ++ [(key, .tables [])])
    | some (.tables _) => .ok ((), es)
    | some _ => .error (.duplicateKey key (some above))
  let ((), root) ← Entries.descend false check [] .header root above
  return ⟨root, [], above ++ [key], true⟩

def add (d : Draft) (s : Scan.Setting) : Except Fault Draft := do
  let (path, key, v) := s
  return { d with current := ← Entries.insertDotted d.current .header (some d.path) path key v }

/-- Reads the line at the front of a text. -/
def line (d : Draft) (cs : List Char) : Except Fault (Draft × List Char) :=
  match cs with
  | '#' :: _ => do return (d, ← Scan.endOfLine cs)
  | '[' :: '[' :: cs => do
    let ((above, key), cs) ← Scan.dottedKey cs
    let cs ← Scan.endOfLine (← Scan.expect ']' (← Scan.expect ']' cs))
    return (← d.openRepeated above key, cs)
  | '[' :: cs => do
    let ((above, key), cs) ← Scan.dottedKey cs
    let cs ← Scan.endOfLine (← Scan.expect ']' cs)
    return (← d.openTable above key, cs)
  | cs =>
    match Quoted.newline? cs with
    | some cs => .ok (d, cs)
    | none => do
      let (s, cs) ← Scan.setting (Scan.value (Scan.depthLimit - 1)) cs
      let cs ← Scan.endOfLine cs
      return (← d.add s, cs)

def lines : (fuel : Nat) → Draft → List Char → Except Fault Entries
  | 0, _, _ => .error .malformed
  | fuel + 1, d, cs =>
    match Scan.skipBlanks cs with
    | [] => d.finish
    | cs => do
      let (d, cs) ← d.line cs
      lines fuel d cs

end Draft

/-- The entries of the document that a text spells. A mark of the byte order in front is no part of it. -/
def parse (s : String) : Except Fault Entries :=
  let cs := match s.toList with
    | '\ufeff' :: cs => cs
    | cs => cs
  Draft.start.lines (cs.length + 1) cs

end PeerLink.Toml
