import Polyfield.Cell.Integral

/-!
# Averages over a cell and its faces

The mean of a quantity over a face, over the cell, or over all faces and the cell in one pass.  A
constant is its own mean; a function is integrated with the rules of a level and divided by the
measure.  Arrays and fields have no averages.
-/

namespace Polyfield

variable {R : Type} [Scalar R]

/-- All entries of a buffer times a number. -/
def scale (a : R) (buf : Buffer R) : Buffer R := buf.map (· * a)

namespace CellCache

/-- The mean of a function over a face, written over a slot of its components. -/
def averageFunctionOnFace (cm : CellCache R) (f : Nat) (t : R) (func : SpaceTimeFunction R)
    (rule : SimplexRule R 3) (slot : Buffer R) : Except Breach (Buffer R) := do
  let out ← cm.integrateFace f t func rule (slot.map fun _ => 0)
  return scale (1 / (← fetch cm.faces f).measure) out

/-- The mean of a function over the cell, written over a slot of its components. -/
def averageFunctionOnCell (cm : CellCache R) (t : R) (func : SpaceTimeFunction R)
    (rule : SimplexRule R 4) (slot : Buffer R) : Except Breach (Buffer R) := do
  let out ← cm.integrateCell t func rule (slot.map fun _ => 0)
  return scale (1 / cm.volume) out

/-- The means of a function over all faces and over the cell, written over a slot for them all:
face after face, and the cell last. -/
def averageFunctionOnAll (cm : CellCache R) (t : R) (func : SpaceTimeFunction R)
    (tetraRule : SimplexRule R 4) (triangleRule : SimplexRule R 3) (slot : Buffer R) :
    Except Breach (Buffer R) := do
  let zeros := slot.map fun _ => 0
  let count := func.dim * cm.faceCount
  let (cellInt, faceInt) ← cm.integrateCellAndFaces t func tetraRule triangleRule
    (zeros.drop count) (zeros.take count)
  let faceMeans := List.zipWith (fun out (face : EntityGeometry R) => scale (1 / face.measure) out)
    (blocks func.dim cm.faceCount faceInt) cm.faces
  return faceMeans.flatten ++ scale (1 / cm.volume) cellInt

/-- The mean of a quantity over a face. -/
def faceAverage (cm : CellCache R) (q : Quantity R) (f : Nat) (t : R) (level : Level) :
    Fill R Unit :=
  match q.source with
  | .constant v => .ofUpdate v.writeTo
  | .function func => do
    let rule ← SimplexRule.triangleFor level func.dim
    Fill.ofUpdate (updateFirst func.dim (cm.averageFunctionOnFace f t func rule))
  | _ => do refuse (.unsupportedKind .faceAverage q.kind)

/-- The mean of a quantity over the cell. -/
def cellAverage (cm : CellCache R) (q : Quantity R) (t : R) (level : Level) : Fill R Unit :=
  match q.source with
  | .constant v => .ofUpdate v.writeTo
  | .function func => do
    let rule ← SimplexRule.tetraFor level func.dim
    Fill.ofUpdate (updateFirst func.dim (cm.averageFunctionOnCell t func rule))
  | _ => do refuse (.unsupportedKind .cellAverage q.kind)

/-- The means of a quantity over all faces, face after face, and over the cell. -/
def allAverages (cm : CellCache R) (q : Quantity R) (t : R) (level : Level) : Fill R Unit :=
  match q.source with
  | .constant v => .ofUpdate fun buf =>
    (Selection.all (cm.faceCount + 1)).forEach v.dim (fun _ slot => v.writeTo slot) buf
  | .function func => do
    let tetraRule ← SimplexRule.tetraFor level func.dim
    let triangleRule ← SimplexRule.triangleFor level func.dim
    Fill.ofUpdate fun buf => do
      cm.requires [.faceGeometry]
      updateFirst (func.dim * (cm.faceCount + 1))
        (cm.averageFunctionOnAll t func tetraRule triangleRule) buf
  | _ => do refuse (.unsupportedKind .allAverages q.kind)

end CellCache

end Polyfield
