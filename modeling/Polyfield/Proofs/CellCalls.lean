import Polyfield.Cell.Average
import Polyfield.Cell.Flux
import Polyfield.Cell.Value

/-!
# Calls on a cell

`CellCall` lists the routines that read a cell from its cache, each with all of its arguments but
the cache and the buffer, and `CellCall.run` runs them.  What is said about all routines at once
is said about calls.

A routine that returns a number or a vector leaves the buffer alone; what a call returns beside
its buffer is an `Answer`.
-/

namespace Polyfield

variable {R : Type}

/-- What a routine returns beside its buffer. -/
inductive Answer (R : Type)
  | done
  | number (x : R)
  | vector (v : Vec3 R)

namespace Fill

/-- A routine that only writes. -/
def done (m : Fill R Unit) : Fill R (Answer R) := do
  m
  return .done

/-- A routine that only returns something. -/
def returning {α : Type} (f : α → Answer R) (x : Except Fault α) : Fill R (Answer R) := do
  return f (← x)

end Fill

/-- A call of a routine on a cell. -/
inductive CellCall (R : Type)
  | value (q : Quantity R) (t : R)
  | functionAtCenter (f : SpaceTimeFunction R) (t : R)
  | arrayValue (a : ValueArray R)
  | fieldValue (f : ValueField R)
  | valueAtPoints (q : Quantity R) (points : List (Vec3 R)) (t : R)
  | arrayAtPoints (a : ValueArray R) (n : Nat)
  | fieldAtPoints (f : ValueField R) (n : Nat)
  | vectorArrayAtPoints (a : ValueArray R) (n : Nat)
  | vectorFieldAtPoints (f : ValueField R) (n : Nat)
  | faceAverage (q : Quantity R) (face : Nat) (t : R) (level : Level)
  | cellAverage (q : Quantity R) (t : R) (level : Level)
  | allAverages (q : Quantity R) (t : R) (level : Level)
  | averageVertices (values : List R) (stride : Nat)
  | writeVectorOfFluxes (fluxes : List R)
  | integrateFace (face : Nat) (t : R) (f : SpaceTimeFunction R) (rule : SimplexRule R 3)
  | integrateCell (t : R) (f : SpaceTimeFunction R) (rule : SimplexRule R 4)
  /-- The integral over the cell goes to the first `cellEntries` entries of the buffer, those over
  the faces to the others. -/
  | integrateCellAndFaces (t : R) (f : SpaceTimeFunction R) (tetraRule : SimplexRule R 4)
    (triangleRule : SimplexRule R 3) (cellEntries : Nat)
  | faceFlux (q : Quantity R) (face : Nat) (t : R) (level : Level)
  | constantFlux (face : Nat) (u : Vec3 R)
  | functionFlux (face : Nat) (t : R) (f : SpaceTimeFunction R) (level : Level)
  | tensorFlux (q : Quantity R) (face : Nat) (t : R) (level : Level)
  | vertexFlux (q : Quantity R) (face : Nat) (t : R) (level : Level)
  | constantVertexFlux (face : Nat) (u : Vec3 R)
  | functionVertexFlux (face : Nat) (t : R) (f : SpaceTimeFunction R) (level : Level)

/-- Run a call on the cell of a cache. -/
def CellCall.run [Scalar R] (cm : CellCache R) : CellCall R → Fill R (Answer R)
  | value q t => .done (cm.value q t)
  | functionAtCenter f t => .done (.ofUpdate (cm.functionAtCenter f t))
  | arrayValue a => .done (cm.arrayValue a)
  | fieldValue f => .done (cm.fieldValue f)
  | valueAtPoints q points t => .done (cm.valueAtPoints q points t)
  | arrayAtPoints a n => .done (cm.arrayAtPoints a n)
  | fieldAtPoints f n => .done (cm.fieldAtPoints f n)
  | vectorArrayAtPoints a n => .done (cm.vectorArrayAtPoints a n)
  | vectorFieldAtPoints f n => .done (cm.vectorFieldAtPoints f n)
  | faceAverage q face t level => .done (cm.faceAverage q face t level)
  | cellAverage q t level => .done (cm.cellAverage q t level)
  | allAverages q t level => .done (cm.allAverages q t level)
  | averageVertices values stride => .done (.ofUpdate (cm.averageVertices values stride))
  | writeVectorOfFluxes fluxes => .done (.ofUpdate (cm.writeVectorOfFluxes fluxes))
  | integrateFace face t f rule => .done (.ofUpdate (cm.integrateFace face t f rule))
  | integrateCell t f rule => .done (.ofUpdate (cm.integrateCell t f rule))
  | integrateCellAndFaces t f tetraRule triangleRule cellEntries => .done (.ofUpdate fun buf => do
    let (cellOut, faceOut) ← cm.integrateCellAndFaces t f tetraRule triangleRule
      (buf.take cellEntries) (buf.drop cellEntries)
    return cellOut ++ faceOut)
  | faceFlux q face t level => .returning .number (cm.faceFlux q face t level)
  | constantFlux face u => .returning .number (liftM (cm.constantFlux face u))
  | functionFlux face t f level => .returning .number (cm.functionFlux face t f level)
  | tensorFlux q face t level => .returning .vector (cm.tensorFlux q face t level)
  | vertexFlux q face t level => .done (cm.vertexFlux q face t level)
  | constantVertexFlux face u => .done (.ofUpdate (cm.constantVertexFlux face u))
  | functionVertexFlux face t f level => .done (cm.functionVertexFlux face t f level)

end Polyfield
