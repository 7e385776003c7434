import PeerLink.Toml.Value

/-!
Writing documents of tables whose values are strings, numbers and truth values: a header for each table,
a line for each entry, and an empty line between two tables.
-/
namespace PeerLink.Toml

/-- A character between double quotes. -/
def escape (c : Char) : String :=
  if c = '"' then "\\\""
  else if c = '\\' then "\\\\"
  else if c.toNat < 0x20 ∨ c.toNat = 0x7f then
    let digits := Nat.toDigits 16 c.toNat
    "\\u" ++ String.ofList (List.replicate (4 - digits.length) '0' ++ digits)
  else c.toString

/-- A value on the right of an equals sign; nested ones have no such form here. -/
def Value.render : Value → String
  | .string s => "\"" ++ String.join (s.toList.map escape) ++ "\""
  | .integer n => toString n
  | .float written | .date written => written
  | .boolean b => toString b
  | .array _ | .tables _ => "[]"
  | .table _ _ => "\x7b\x7d"

def renderTable (name : String) (es : Entries) : String :=
  s!"[{name}]\n" ++ String.join (es.map fun (key, v) => key ++ " = " ++ v.render ++ "\n")

def render (tables : List (String × Entries)) : String :=
  "\n".intercalate (tables.map fun (name, es) => renderTable name es)

end PeerLink.Toml
