/-!
Documents of settings in TOML: tables of keys and values. A table remembers how it came about, because
that decides who may still add to it. Entries keep the order in which they were written.
-/
namespace PeerLink.Toml

/-- How a table came about. -/
inductive Origin where
  /-- It has a header of its own, or is the document. -/
  | header
  /-- It only stands above a table with a header. -/
  | implied
  /-- It stands above the last part of a dotted key. -/
  | dotted
  /-- It is written between braces, and complete. -/
  | inline
  deriving DecidableEq, Inhabited

/-- Whether the table has not been defined itself. -/
def Origin.isImplicit : Origin → Bool
  | implied | dotted => true
  | header | inline => false

/-- A value. Fractions and dates are kept as they are written. -/
inductive Value where
  | string (s : String)
  | integer (n : Int)
  | float (written : String)
  | boolean (b : Bool)
  | date (written : String)
  | array (items : List Value)
  | table (origin : Origin) (entries : List (String × Value))
  /-- Tables with one header each, in order. -/
  | tables (items : List (List (String × Value)))
  deriving Inhabited

abbrev Entries := List (String × Value)

/-- What kind of value a key was found to have. -/
def Value.kind : Value → String
  | string _ => "string"
  | integer _ => "integer"
  | float _ => "float"
  | boolean _ => "boolean"
  | date _ => "datetime"
  | array _ => "array"
  | table .inline _ => "inline table"
  | table _ _ => "table"
  | tables _ => "array of tables"

inductive Fault where
  | malformed
  /-- The key is defined twice, in the named table if that matters. -/
  | duplicateKey (key : String) (table : Option (List String))
  /-- A key goes through a value that cannot be added to. -/
  | notTable (path : List String) (kind : String)
  deriving DecidableEq

def joined (path : List String) : String := ".".intercalate path

def Fault.message : Fault → String
  | malformed => "malformed text"
  | duplicateKey key none => s!"duplicate key `{key}`"
  | duplicateKey key (some []) => s!"duplicate key `{key}` in document root"
  | duplicateKey key (some path) => s!"duplicate key `{key}` in table `{joined path}`"
  | notTable path kind =>
    s!"dotted key `{joined path}` attempted to extend non-table type ({kind})"

namespace Entries

def get? (es : Entries) (key : String) : Option Value := List.lookup key es

/-- Gives an existing key another value. -/
def replace (es : Entries) (key : String) (v : Value) : Entries :=
  es.map fun e => if e.1 = key then (key, v) else e

def erase (es : Entries) (key : String) : Entries := es.filter (·.1 != key)

/-- Changes the table at the end of a path; `walked` is the part of the path already behind. Tables that
the path lacks are made on the way. A dotted key only passes tables that nothing else has defined. -/
def descend {β : Type} (asDotted : Bool) (change : Origin → Entries → Except Fault (β × Entries))
    (walked : List String) (origin : Origin) (es : Entries) :
    (path : List String) → Except Fault (β × Entries)
  | [] => change origin es
  | key :: path => do
    let walked := walked ++ [key]
    match es.get? key with
    | none =>
      let made : Origin := if asDotted then .dotted else .implied
      let (b, inner) ← descend asDotted change walked made [] path
      return (b, es ++ [(key, .table made inner)])
    | some (.table origin inner) =>
      if origin = .inline then throw (.notTable walked "inline table")
      if asDotted && !origin.isImplicit then throw (.duplicateKey key none)
      let (b, inner) ← descend asDotted change walked origin inner path
      return (b, es.replace key (.table origin inner))
    | some (.tables items) =>
      let (b, last) ← descend asDotted change walked .header (items.getLast?.getD []) path
      return (b, es.replace key (.tables (items.dropLast ++ [last])))
    | some v => throw (.notTable walked v.kind)

/-- Adds a value under a dotted key. -/
def insertDotted (es : Entries) (origin : Origin) (table : Option (List String)) (path : List String)
    (key : String) (v : Value) : Except Fault Entries := do
  let add (origin : Origin) (inner : Entries) : Except Fault (Unit × Entries) :=
    if (origin == .dotted) == path.isEmpty then .error (.duplicateKey key none)
    else if (inner.get? key).isSome then .error (.duplicateKey key table)
    else .ok ((), inner ++ [(key, v)])
  return (← descend true add [] origin es path).2

/-- Changes the table at the end of a path between braces, where every table that is not dotted is
complete. -/
def descendInline (change : Origin → Entries → Except Fault Entries) (walked : List String)
    (origin : Origin) (es : Entries) : (path : List String) → Except Fault Entries
  | [] => change origin es
  | key :: path => do
    let walked := walked ++ [key]
    match es.get? key with
    | none => return es ++ [(key, .table .dotted (← descendInline change walked .dotted [] path))]
    | some (.table origin inner) =>
      if !origin.isImplicit then throw (.duplicateKey key none)
      return es.replace key (.table origin (← descendInline change walked origin inner path))
    | some v => throw (.notTable walked v.kind)

/-- Adds a value under a dotted key between braces. -/
def insertInline (es : Entries) (path : List String) (key : String) (v : Value) : Except Fault Entries :=
  descendInline (fun origin inner =>
    if (origin == .dotted) == path.isEmpty then .error (.duplicateKey key none)
    else if (inner.get? key).isSome then .error (.duplicateKey key none)
    else .ok (inner ++ [(key, v)])) [] .inline es path

end Entries

end PeerLink.Toml
