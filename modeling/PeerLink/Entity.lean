import PeerLink.Block.Object

/-!
Entities that a game sends as nested objects, with their formats.
-/
namespace PeerLink

structure Spawn where
  name : String
  x : Single
  y : Single
  z : Single
  deriving DecidableEq, Inhabited

inductive Shape where
  | point
  | circle (radius : Double)
  | rect (width height : UInt16)
  deriving DecidableEq, Inhabited

structure Record where
  id : UInt32
  name : String
  tags : List String
  parent : Option Int64
  alive : Bool
  shape : Shape
  deriving DecidableEq, Inhabited

/-- The name and then the three coordinates. -/
def Spawn.format : ObjectFormat Spawn :=
  let single := ObjectFormat.scalar Scalar.f32
  (ObjectFormat.text.pair (single.pair (single.pair single))).along
    (fun s => (s.name, s.x, s.y, s.z)) fun (name, x, y, z) => some ⟨name, x, y, z⟩

/-- The number of the outline's kind in four bytes and then its measures. -/
def Shape.format : ObjectFormat Shape where
  write
    | .point => (ObjectFormat.number 4).write 0
    | .circle r => ((ObjectFormat.number 4).pair (ObjectFormat.scalar .f64)).write (1, r)
    | .rect w h =>
      let side := ObjectFormat.scalar Scalar.u16
      ((ObjectFormat.number 4).pair (side.pair side)).write (2, w, h)
  read := do
    match ← (ObjectFormat.number 4).read with
    | 0 => return .point
    | 1 => return .circle (← (ObjectFormat.scalar .f64).read)
    | 2 => return .rect (← (ObjectFormat.scalar .u16).read) (← (ObjectFormat.scalar .u16).read)
    | _ => failure

def Record.format : ObjectFormat Record :=
  ((ObjectFormat.scalar Scalar.u32).pair <| ObjectFormat.text.pair <| ObjectFormat.text.list.pair <|
    (ObjectFormat.scalar Scalar.i64).option.pair <| ObjectFormat.flag.pair Shape.format).along
    (fun r => (r.id, r.name, r.tags, r.parent, r.alive, r.shape))
    fun (id, name, tags, parent, alive, shape) => some ⟨id, name, tags, parent, alive, shape⟩

end PeerLink
