import Polyfield.Scalar

/-!
# Vectors and tensors

Points, vectors and tensors of three-dimensional space with scalar components, and the measures
of the simplices they span: `triangleArea` and `tetraVolume`.
-/

namespace Polyfield

variable {R : Type} [Scalar R]

/-- A point or vector of space. -/
@[ext]
structure Vec3 (R : Type) where
  x : R
  y : R
  z : R

namespace Vec3

instance : Zero (Vec3 R) := ⟨⟨0, 0, 0⟩⟩

instance : Inhabited (Vec3 R) := ⟨0⟩

instance : Add (Vec3 R) := ⟨fun a b => ⟨a.x + b.x, a.y + b.y, a.z + b.z⟩⟩

instance : Sub (Vec3 R) := ⟨fun a b => ⟨a.x - b.x, a.y - b.y, a.z - b.z⟩⟩

instance : Neg (Vec3 R) := ⟨fun a => ⟨-a.x, -a.y, -a.z⟩⟩

instance : SMul R (Vec3 R) := ⟨fun s a => ⟨s * a.x, s * a.y, s * a.z⟩⟩

instance : HDiv (Vec3 R) R (Vec3 R) := ⟨fun a s => ⟨a.x / s, a.y / s, a.z / s⟩⟩

@[simp] theorem zero_x : (0 : Vec3 R).x = 0 := rfl

@[simp] theorem zero_y : (0 : Vec3 R).y = 0 := rfl

@[simp] theorem zero_z : (0 : Vec3 R).z = 0 := rfl

@[simp] theorem add_x (a b : Vec3 R) : (a + b).x = a.x + b.x := rfl

@[simp] theorem add_y (a b : Vec3 R) : (a + b).y = a.y + b.y := rfl

@[simp] theorem add_z (a b : Vec3 R) : (a + b).z = a.z + b.z := rfl

@[simp] theorem sub_x (a b : Vec3 R) : (a - b).x = a.x - b.x := rfl

@[simp] theorem sub_y (a b : Vec3 R) : (a - b).y = a.y - b.y := rfl

@[simp] theorem sub_z (a b : Vec3 R) : (a - b).z = a.z - b.z := rfl

@[simp] theorem neg_x (a : Vec3 R) : (-a).x = -a.x := rfl

@[simp] theorem neg_y (a : Vec3 R) : (-a).y = -a.y := rfl

@[simp] theorem neg_z (a : Vec3 R) : (-a).z = -a.z := rfl

@[simp] theorem smul_x (s : R) (a : Vec3 R) : (s • a).x = s * a.x := rfl

@[simp] theorem smul_y (s : R) (a : Vec3 R) : (s • a).y = s * a.y := rfl

@[simp] theorem smul_z (s : R) (a : Vec3 R) : (s • a).z = s * a.z := rfl

@[simp] theorem div_x (a : Vec3 R) (s : R) : (a / s).x = a.x / s := rfl

@[simp] theorem div_y (a : Vec3 R) (s : R) : (a / s).y = a.y / s := rfl

@[simp] theorem div_z (a : Vec3 R) (s : R) : (a / s).z = a.z / s := rfl

/-- The scalar product. -/
def dot (a b : Vec3 R) : R := a.x * b.x + a.y * b.y + a.z * b.z

/-- The vector product. -/
def cross (a b : Vec3 R) : Vec3 R :=
  ⟨a.y * b.z - a.z * b.y, a.z * b.x - a.x * b.z, a.x * b.y - a.y * b.x⟩

/-- The Euclidean length. -/
def norm (a : Vec3 R) : R := Scalar.sqrt (a.dot a)

/-- The three components in order. -/
def toList (a : Vec3 R) : List R := [a.x, a.y, a.z]

omit [Scalar R] in
@[simp] theorem length_toList (a : Vec3 R) : a.toList.length = 3 := rfl

/-- The midpoint of two points. -/
def midpoint (a b : Vec3 R) : Vec3 R := (Scalar.half : R) • (a + b)

end Vec3

/-- A tensor of space, given by its rows. -/
@[ext]
structure Tensor (R : Type) where
  row0 : Vec3 R
  row1 : Vec3 R
  row2 : Vec3 R

namespace Tensor

/-- The tensor applied to a vector: each row times the vector. -/
def apply (m : Tensor R) (v : Vec3 R) : Vec3 R := ⟨m.row0.dot v, m.row1.dot v, m.row2.dot v⟩

/-- The nine components, row by row. -/
def toList (m : Tensor R) : List R := m.row0.toList ++ m.row1.toList ++ m.row2.toList

omit [Scalar R] in
@[simp] theorem length_toList (m : Tensor R) : m.toList.length = 9 := rfl

end Tensor

/-- The vector area of a triangle: half the vector product of two of its sides. -/
def triangleVector (a b c : Vec3 R) : Vec3 R :=
  (Scalar.half : R) • (b - a).cross (c - a)

/-- The area of a triangle. -/
def triangleArea (a b c : Vec3 R) : R := Scalar.half * ((b - a).cross (c - a)).norm

/-- The unsigned volume of a tetrahedron. -/
def tetraVolume (a b c d : Vec3 R) : R :=
  Scalar.abs ((b - a).dot ((c - a).cross (d - a))) / (6 : Nat)

end Polyfield
