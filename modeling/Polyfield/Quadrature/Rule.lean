import Polyfield.Quantity

/-!
# Quadrature rules

A rule integrates over a simplex by evaluating a function at a few nodes, each with a weight that
is a fraction of the measure of the simplex.  Nodes are given by their barycentric coordinates.

| level        | triangle           | tetrahedron        |
|--------------|--------------------|--------------------|
| `bary`       | 1 node, degree 1   | 1 node, degree 1   |
| `barySubdiv` | 1 node, degree 1   | 1 node, degree 1   |
| `higher`     | 3 nodes, degree 2  | 4 nodes, degree 2  |
| `highest`    | 4 nodes, degree 3  | 5 nodes, degree 3  |

Levels `bary` and `barySubdiv` share their rules; callers subdivide cells and faces differently
for them.
-/

namespace Polyfield

variable {R : Type} [Scalar R]

/-! ## Rules -/

/-- A simplex of `n` corners, with its area or volume. -/
structure Simplex (R : Type) (n : Nat) where
  corners : Vector (Vec3 R) n
  measure : R

/-- A triangle. -/
def Simplex.triangle (a b c : Vec3 R) (area : R) : Simplex R 3 := ⟨#v[a, b, c], area⟩

/-- A tetrahedron. -/
def Simplex.tetra (a b c d : Vec3 R) (volume : R) : Simplex R 4 := ⟨#v[a, b, c, d], volume⟩

/-- A point at which a function is evaluated, and the factor of the value. -/
structure Sample (R : Type) where
  weight : R
  point : Vec3 R

/-- A node of a quadrature rule. -/
structure Node (R : Type) (n : Nat) where
  /-- The barycentric coordinates. -/
  barycentric : Vector R n
  /-- The weight, as a fraction of the measure of the simplex. -/
  weight : R

namespace Node

/-- The point of a simplex with the barycentric coordinates of a node. -/
def pointIn {n : Nat} (node : Node R n) (corners : Vector (Vec3 R) n) : Vec3 R :=
  total (List.zipWith (fun (l : R) x => l • x) node.barycentric.toList corners.toList)

end Node

/-- A quadrature rule for simplices of `n` corners. -/
structure SimplexRule (R : Type) (n : Nat) where
  nodes : List (Node R n)
  /-- The highest degree of the polynomials that are integrated exactly. -/
  degree : Nat

/-- The largest number of components of an integrated function. -/
def maxComponents : Nat := 9

namespace SimplexRule

variable {n : Nat}

/-- The points at which a rule evaluates a function on a simplex, with their weights. -/
def samples (rule : SimplexRule R n) (corners : Vector (Vec3 R) n) : List (Sample R) :=
  rule.nodes.map fun node => ⟨node.weight, node.pointIn corners⟩

/-- A rule takes functions of at least one component and at most `maxComponents`. -/
def requireDim (dim : Nat) : Except Breach Unit :=
  if maxComponents < dim then .error .quadratureDimension
  else if dim = 0 then .error .emptyParts
  else .ok ()

/-- The values of a function at the nodes of a simplex, each with its weight. -/
def weightedValues (rule : SimplexRule R n) (t : R) (corners : Vector (Vec3 R) n)
    (f : SpaceTimeFunction R) : Except Breach (List (R × List R)) := do
  requireDim f.dim
  return (rule.samples corners).map fun s => (s.weight, f.components t s.point)

/-- Add the integral of a function over a simplex to a buffer. -/
def integrate (rule : SimplexRule R n) (t : R) (simplex : Simplex R n)
    (f : SpaceTimeFunction R) (buf : Buffer R) : Except Breach (Buffer R) := do
  let values ← rule.weightedValues t simplex.corners f
  return values.foldl (fun out (w, v) => addScaled (simplex.measure * w) v out) buf

/-- Add the integral of a function over several simplices to a buffer. -/
def integrateAll (rule : SimplexRule R n) (t : R) (simplices : List (Simplex R n))
    (f : SpaceTimeFunction R) (buf : Buffer R) : Except Breach (Buffer R) :=
  simplices.foldlM (fun out s => rule.integrate t s f out) buf

end SimplexRule

/-! ## The rules of the levels -/

namespace SimplexRule

open Scalar

/-- One node at the barycenter. -/
def triangleCenter : SimplexRule R 3 where
  nodes := [⟨#v[ratio 1 3, ratio 1 3, ratio 1 3], 1⟩]
  degree := 1

/-- Three nodes of equal weights. -/
def triangleThree : SimplexRule R 3 where
  nodes :=
    [⟨#v[ratio 2 3, ratio 1 6, ratio 1 6], ratio 1 3⟩,
      ⟨#v[ratio 1 6, ratio 2 3, ratio 1 6], ratio 1 3⟩,
      ⟨#v[ratio 1 6, ratio 1 6, ratio 2 3], ratio 1 3⟩]
  degree := 2

/-- The barycenter with a negative weight, and three nodes around it. -/
def triangleFour : SimplexRule R 3 where
  nodes :=
    [⟨#v[ratio 1 3, ratio 1 3, ratio 1 3], -ratio 27 48⟩,
      ⟨#v[ratio 3 5, ratio 1 5, ratio 1 5], ratio 25 48⟩,
      ⟨#v[ratio 1 5, ratio 3 5, ratio 1 5], ratio 25 48⟩,
      ⟨#v[ratio 1 5, ratio 1 5, ratio 3 5], ratio 25 48⟩]
  degree := 3

/-- One node at the barycenter. -/
def tetraCenter : SimplexRule R 4 where
  nodes := [⟨#v[ratio 1 4, ratio 1 4, ratio 1 4, ratio 1 4], 1⟩]
  degree := 1

/-- The large coordinate of the nodes of `tetraFour`: `(5 + 3 √5) / 20`. -/
def tetraNear : R := ((5 : Nat) + (3 : Nat) * sqrt ((5 : Nat) : R)) / (20 : Nat)

/-- The small coordinate of the nodes of `tetraFour`: `(5 - √5) / 20`. -/
def tetraFar : R := ((5 : Nat) - sqrt ((5 : Nat) : R)) / (20 : Nat)

/-- Four nodes of equal weights. -/
def tetraFour : SimplexRule R 4 where
  nodes :=
    [⟨#v[tetraNear, tetraFar, tetraFar, tetraFar], ratio 1 4⟩,
      ⟨#v[tetraFar, tetraNear, tetraFar, tetraFar], ratio 1 4⟩,
      ⟨#v[tetraFar, tetraFar, tetraNear, tetraFar], ratio 1 4⟩,
      ⟨#v[tetraFar, tetraFar, tetraFar, tetraNear], ratio 1 4⟩]
  degree := 2

/-- The barycenter with a negative weight, and four nodes around it. -/
def tetraFive : SimplexRule R 4 where
  nodes :=
    [⟨#v[ratio 1 4, ratio 1 4, ratio 1 4, ratio 1 4], -ratio 4 5⟩,
      ⟨#v[ratio 1 2, ratio 1 6, ratio 1 6, ratio 1 6], ratio 9 20⟩,
      ⟨#v[ratio 1 6, ratio 1 2, ratio 1 6, ratio 1 6], ratio 9 20⟩,
      ⟨#v[ratio 1 6, ratio 1 6, ratio 1 2, ratio 1 6], ratio 9 20⟩,
      ⟨#v[ratio 1 6, ratio 1 6, ratio 1 6, ratio 1 2], ratio 9 20⟩]
  degree := 3

/-- The triangle rule of a level. -/
def triangle : Level → SimplexRule R 3
  | .bary | .barySubdiv => triangleCenter
  | .higher => triangleThree
  | .highest => triangleFour

/-- The tetrahedron rule of a level. -/
def tetra : Level → SimplexRule R 4
  | .bary | .barySubdiv => tetraCenter
  | .higher => tetraFour
  | .highest => tetraFive

/-- Scalars, vectors and tensors are integrated; other numbers of components are refused. -/
def checkDim (op : Operation) (dim : Nat) : Except Fault Unit :=
  if dim = 1 ∨ dim = 3 ∨ dim = 9 then .ok () else refuse (.invalidDimension op dim)

/-- The triangle rule of a level, for functions of `dim` components. -/
def triangleFor (level : Level) (dim : Nat) : Except Fault (SimplexRule R 3) := do
  checkDim .triangleRule dim
  return triangle level

/-- The tetrahedron rule of a level, for functions of `dim` components. -/
def tetraFor (level : Level) (dim : Nat) : Except Fault (SimplexRule R 4) := do
  checkDim .tetraRule dim
  return tetra level

end SimplexRule

end Polyfield
