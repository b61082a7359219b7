import Polyfield.Reconstruction

/-!
# Values in a cell

The value of a quantity at the center of a cell and at points inside it.  Results are written to
the first entries of the buffer; at several points, one slot after the other.

A function is evaluated at each point.  A constant, an array or a field gives every point its
value in the cell: values of the cell are read, vertex values averaged, and fluxes through dual
faces made into a vector.
-/

namespace Polyfield

variable {R : Type} [Scalar R]

namespace CellCache

/-! ## At the cell center -/

/-- Evaluate a function at the cell center. -/
def functionAtCenter (cm : CellCache R) (f : SpaceTimeFunction R) (t : R) (buf : Buffer R) :
    Except Breach (Buffer R) :=
  f.evaluate t [cm.center] (.all 1) buf

/-- The value of an array in the cell. -/
def arrayValue (cm : CellCache R) (a : ValueArray R) : Fill R Unit :=
  match a.location with
  | .cell => .ofUpdate fun buf => do
    updateFirst a.stride (fun slot => do copyTo (← a.entity cm.cell) slot) buf
  | .vertex => .ofUpdate (cm.averageVertices a.values a.stride)
  | .dualFaceByCell => .ofUpdate fun buf => do
    cm.writeVectorOfFluxes (← a.cellBlock cm.cell) buf
  | s => do refuse (.unsupportedSupport .arrayInCell s)

/-- The value of a field in the cell. -/
def fieldValue (cm : CellCache R) (f : ValueField R) : Fill R Unit :=
  match f.location with
  | .cell => .ofUpdate fun buf => do
    updateFirst f.dim (fun slot => do copyTo (← f.entity cm.cell) slot) buf
  | .vertex => .ofUpdate (cm.averageVertices f.values f.dim)
  | s => do refuse (.unsupportedSupport .fieldInCell s)

/-- The value of a quantity at the cell center. -/
def value (cm : CellCache R) (q : Quantity R) (t : R) : Fill R Unit :=
  match q.source with
  | .constant v => .ofUpdate v.writeTo
  | .function f => .ofUpdate (cm.functionAtCenter f t)
  | .array a => cm.arrayValue a
  | .field f => cm.fieldValue f

/-! ## At points -/

/-- Evaluate a function at each point. -/
def functionAtPoints (f : SpaceTimeFunction R) (points : List (Vec3 R)) (t : R)
    (buf : Buffer R) : Except Breach (Buffer R) :=
  f.evaluate t points (.all points.length) buf

/-- Give a constant to `n` points. -/
def constantAtPoints (v : Value R) (n : Nat) (buf : Buffer R) : Except Breach (Buffer R) :=
  (Selection.all n).forEach v.dim (fun _ slot => v.writeTo slot) buf

/-- Copy the `dim` values of the first point to all of `n` points. -/
def repeatFirstPoint (dim n : Nat) (buf : Buffer R) : Except Breach (Buffer R) :=
  updateFirst (dim * n)
    (fun out => if dim = 0 then .ok out else .ok (List.replicate n (out.take dim)).flatten) buf

/-- Give the value of an array in the cell to `n` points. -/
def arrayAtPoints (cm : CellCache R) (a : ValueArray R) (n : Nat) : Fill R Unit :=
  if n = 0 then pure ()
  else do
    Fill.onFirst a.dim (cm.arrayValue a)
    Fill.ofUpdate (repeatFirstPoint a.dim n)

/-- Give the value of a field in the cell to `n` points. -/
def fieldAtPoints (cm : CellCache R) (f : ValueField R) (n : Nat) : Fill R Unit :=
  if n = 0 then pure ()
  else do
    Fill.onFirst f.dim (cm.fieldValue f)
    Fill.ofUpdate (repeatFirstPoint f.dim n)

/-- The value of a quantity at points inside the cell. -/
def valueAtPoints (cm : CellCache R) (q : Quantity R) (points : List (Vec3 R)) (t : R) :
    Fill R Unit :=
  match q.source with
  | .function f => .ofUpdate (functionAtPoints f points t)
  | .constant v => .ofUpdate (constantAtPoints v points.length)
  | .array a => cm.arrayAtPoints a points.length
  | .field f => cm.fieldAtPoints f points.length

/-! ## Vectors at points -/

/-- Give a constant vector to `n` points. -/
def vectorAtPoints (v : Vec3 R) (n : Nat) (buf : Buffer R) : Except Breach (Buffer R) :=
  constantAtPoints (.vector v) n buf

/-- Give the vector of an array in the cell to `n` points. -/
def vectorArrayAtPoints (cm : CellCache R) (a : ValueArray R) (n : Nat) : Fill R Unit := do
  if a.location ≠ .dualFaceByCell ∧ a.stride ≠ 3 then
    refuse (.invalidDimension .vectorArrayAtPoints a.stride)
  else cm.arrayAtPoints a n

/-- Give the vector of a field in the cell to `n` points. -/
def vectorFieldAtPoints (cm : CellCache R) (f : ValueField R) (n : Nat) : Fill R Unit := do
  if f.dim ≠ 3 then refuse (.invalidDimension .vectorFieldAtPoints f.dim)
  else cm.fieldAtPoints f n

end CellCache

end Polyfield
