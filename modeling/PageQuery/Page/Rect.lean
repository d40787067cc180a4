/-
# Rectangles

A rectangle has its sides along the axes and is given by its corner of least coordinates, its width
and its height.

Key definitions: `Rect`, `Rect.union`, `Rect.ofJson?`.
-/
import PageQuery.Json.Record

namespace PageQuery

structure Rect where
  x : Double
  y : Double
  width : Double
  height : Double
  deriving DecidableEq, Repr

namespace Rect

/-- The rectangle at the origin without extent. -/
def zero : Rect := ⟨.zero, .zero, .zero, .zero⟩

/-- Whether two rectangles have equal numbers. -/
def same (a b : Rect) : Bool :=
  a.x.sameValue b.x && a.y.sameValue b.y && a.width.sameValue b.width && a.height.sameValue b.height

/-- The smallest rectangle that holds both. -/
def union (a b : Rect) : Rect :=
  let x := a.x.lesser b.x
  let y := a.y.lesser b.y
  let right := (a.x.add a.width).greater (b.x.add b.width)
  let bottom := (a.y.add a.height).greater (b.y.add b.height)
  ⟨x, y, right.sub x, bottom.sub y⟩

/-- The union of some rectangles, if there are any. -/
def unionAll : List Rect → Option Rect
  | [] => none
  | r :: rest => some (rest.foldl union r)

def toJson (r : Rect) : Json :=
  .object [("height", .ofDouble r.height), ("width", .ofDouble r.width), ("x", .ofDouble r.x),
    ("y", .ofDouble r.y)]

/-- Reads a rectangle; all four numbers must be there. -/
def ofJson? (v : Json) : Option Rect := do
  match ← v.parts? false ["x", "y", "width", "height"] with
  | [x, y, width, height] =>
    let x ← Json.required Json.double? x
    let y ← Json.required Json.double? y
    let width ← Json.required Json.double? width
    let height ← Json.required Json.double? height
    return ⟨x, y, width, height⟩
  | _ => none

end Rect

end PageQuery
