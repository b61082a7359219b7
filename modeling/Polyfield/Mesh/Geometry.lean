import Polyfield.Vec3
import Polyfield.Mesh.Loop

/-!
# Geometry of polygons and cells

* A polygon is divided into the triangles between its sides and the mean of its corners; their
  areas weigh the triangle centroids in its barycenter, and their vector areas add up to its own.
* A cell is divided into the cones over its faces whose apex is the mean of the face centers.
* Each edge of each face of a cell spans a tetrahedron with the face center and the cell center.
  Half of it belongs to either end of the edge, and the triangle between the edge midpoint and
  the two centers is a part of the dual face of the edge.
-/

namespace Polyfield

variable {R : Type} [Scalar R]

/-- The center, unit direction and measure of an edge or a face. -/
structure EntityGeometry (R : Type) where
  /-- The barycenter. -/
  center : Vec3 R
  /-- The unit tangent of an edge or the unit normal of a face. -/
  unit : Vec3 R
  /-- The length of an edge or the area of a face. -/
  measure : R

instance : Inhabited (EntityGeometry R) := ⟨⟨0, 0, 0⟩⟩

namespace EntityGeometry

/-- The geometry of the segment from one point to another. -/
def ofSegment (a b : Vec3 R) : EntityGeometry R :=
  let length := (b - a).norm
  ⟨Vec3.midpoint a b, (b - a) / length, length⟩

end EntityGeometry

/-! ## Polygons -/

namespace Polygon

/-- The mean of the corners. -/
def apex (corners : List (Vec3 R)) : Vec3 R := total corners / (corners.length : R)

/-- The vector area: the sum over the triangles between the sides and the apex. -/
def vectorArea (corners : List (Vec3 R)) : Vec3 R :=
  let x := apex corners
  total ((cyclicPairs corners).map fun (a, b) => triangleVector x a b)

/-- The sum of the areas of these triangles. -/
def fanArea (corners : List (Vec3 R)) : R :=
  let x := apex corners
  total ((cyclicPairs corners).map fun (a, b) => (triangleVector x a b).norm)

/-- The mean of the centroids of these triangles, weighed by their areas. -/
def barycenter (corners : List (Vec3 R)) : Vec3 R :=
  let x := apex corners
  total ((cyclicPairs corners).map fun (a, b) =>
      ((triangleVector x a b).norm • (a + b + x)) / ((3 : Nat) : R)) /
    fanArea corners

/-- The barycenter, unit normal and area of a polygon. -/
def geometry (corners : List (Vec3 R)) : EntityGeometry R :=
  let area := (vectorArea corners).norm
  ⟨barycenter corners, vectorArea corners / area, area⟩

end Polygon

/-! ## Cells -/

namespace Cone

/-- The common apex of the cones of a cell: the mean of its face centers. -/
def apex (faces : List (EntityGeometry R)) : Vec3 R :=
  total (faces.map (·.center)) / (faces.length : R)

/-- The height of a point below the plane of a face, against its normal. -/
def height (x : Vec3 R) (face : EntityGeometry R) : R := face.unit.dot (face.center - x)

/-- The volume of the cone over a face. -/
def volume (x : Vec3 R) (face : EntityGeometry R) : R :=
  Scalar.abs (height x face) * face.measure / (3 : Nat)

/-- The barycenter of the cone over a face. -/
def barycenter (x : Vec3 R) (face : EntityGeometry R) : Vec3 R :=
  x + (Scalar.ratio 3 4 : R) • (face.center - x)

/-- The orientation of a face: `1` if its normal points away from the apex. -/
def sign (x : Vec3 R) (face : EntityGeometry R) : Int := if 0 ≤ height x face then 1 else -1

theorem sign_eq (x : Vec3 R) (face : EntityGeometry R) : sign x face = 1 ∨ sign x face = -1 := by
  unfold sign
  split <;> simp

/-- The volume of the cell with the given faces. -/
def cellVolume (faces : List (EntityGeometry R)) : R :=
  total (faces.map (volume (apex faces)))

/-- The barycenter of the cell with the given faces. -/
def cellCenter (faces : List (EntityGeometry R)) : Vec3 R :=
  let x := apex faces
  total (faces.map fun face => volume x face • barycenter x face) / cellVolume faces

end Cone

/-! ## Dual parts -/

namespace Dual

/-- The volume of half the tetrahedron between an edge, a face center and a cell center. -/
def halfVolume (a b faceCenter cellCenter : Vec3 R) : R :=
  tetraVolume a (Vec3.midpoint a b) faceCenter cellCenter

/-- The part of the dual face of an edge inside a cone, turned along the edge. -/
def facePart (a b faceCenter cellCenter : Vec3 R) : Vec3 R :=
  let part := triangleVector (Vec3.midpoint a b) faceCenter cellCenter
  if part.dot (b - a) < 0 then -part else part

end Dual

end Polyfield
