import Polyfield.Vec3
import Polyfield.Selection

/-!
# Quantities

A `Quantity` pairs the support it applies to with the `Source` of its values: a constant
`Value`, a `SpaceTimeFunction`, a `ValueArray` of precomputed values, or a `ValueField` that
someone else keeps.
-/

namespace Polyfield

variable {R : Type}

/-! ## Constants -/

/-- A constant scalar, vector or tensor. -/
inductive Value (R : Type)
  | scalar (s : R)
  | vector (v : Vec3 R)
  | tensor (m : Tensor R)

namespace Value

/-- The number of components. -/
def dim : Value R → Nat
  | scalar _ => 1
  | vector _ => 3
  | tensor _ => 9

/-- The components; those of a tensor row by row. -/
def components : Value R → List R
  | scalar s => [s]
  | vector v => v.toList
  | tensor m => m.toList

@[simp] theorem length_components (v : Value R) : v.components.length = v.dim := by
  cases v <;> rfl

theorem dim_pos (v : Value R) : 0 < v.dim := by
  cases v <;> simp [dim]

/-- Write the components to the first entries of a buffer. -/
def writeTo (v : Value R) (buf : Buffer R) : Except Breach (Buffer R) :=
  overwriteFirst v.components buf

end Value

/-- The vector of the first three components. -/
def Vec3.ofComponents : List R → Except Breach (Vec3 R)
  | x :: y :: z :: _ => .ok ⟨x, y, z⟩
  | _ => .error .outOfRange

/-- The tensor of nine components, row by row. -/
def Tensor.ofComponents : List R → Except Breach (Tensor R)
  | [a, b, c, d, e, f, g, h, i] => .ok ⟨⟨a, b, c⟩, ⟨d, e, f⟩, ⟨g, h, i⟩⟩
  | _ => .error .lengthMismatch

@[simp] theorem Vec3.ofComponents_toList (v : Vec3 R) : Vec3.ofComponents v.toList = .ok v := rfl

@[simp] theorem Tensor.ofComponents_toList (m : Tensor R) :
    Tensor.ofComponents m.toList = .ok m := rfl

/-! ## Functions -/

/-- A function of time and position with `dim` components, evaluated point by point. -/
structure SpaceTimeFunction (R : Type) where
  /-- The number of components. -/
  dim : Nat
  /-- The value at a time and a point. -/
  value : R → Vec3 R → Vector R dim

namespace SpaceTimeFunction

/-- The components at a time and a point, in order. -/
def components (f : SpaceTimeFunction R) (t : R) (x : Vec3 R) : List R := (f.value t x).toList

@[simp] theorem length_components (f : SpaceTimeFunction R) (t : R) (x : Vec3 R) :
    (f.components t x).length = f.dim := by
  simp [components]

/-- Evaluate a function at the selected points of a list. -/
def evaluate (f : SpaceTimeFunction R) (t : R) (points : List (Vec3 R)) (sel : Selection)
    (buf : Buffer R) : Except Breach (Buffer R) :=
  sel.forEach f.dim (fun e slot => do copyTo (f.components t (← fetch points e)) slot) buf

end SpaceTimeFunction

/-! ## Arrays and fields -/

/-- Precomputed values, `stride` for each entity.  On dual faces the values are fluxes, stored
in one block for each cell. -/
structure ValueArray (R : Type) where
  /-- The values of all entities, one entity after the other. -/
  values : List R
  /-- The number of values of an entity. -/
  stride : Nat
  /-- Where the values live. -/
  location : Support
  /-- The start of the block of each cell, and the end of the last block. -/
  index : Option (List Nat)

namespace ValueArray

/-- The values of one entity. -/
def entity (a : ValueArray R) (id : Nat) : Except Breach (List R) :=
  slice a.values (a.stride * id) (a.stride * (id + 1))

/-- The block of values of a cell. -/
def cellBlock (a : ValueArray R) (c : Nat) : Except Breach (List R) := do
  match a.index with
  | none => .error .blockIndexMissing
  | some index => slice a.values (← fetch index c) (← fetch index (c + 1))

/-- Values on dual faces can only be evaluated with their block index. -/
def requireIndex (a : ValueArray R) : Except Breach Unit :=
  if a.location = .dualFaceByCell ∧ a.index.isNone then .error .dualFaceIndexMissing else .ok ()

/-- The number of components of the quantity: the fluxes of a cell make a vector. -/
def dim (a : ValueArray R) : Nat :=
  match a.location with
  | .dualFaceByCell => 3
  | _ => a.stride

end ValueArray

/-- Values that someone else keeps, `dim` for each entity. -/
structure ValueField (R : Type) where
  /-- The number of components of an entity. -/
  dim : Nat
  /-- Where the field lives. -/
  location : Support
  /-- The values of all entities, one entity after the other. -/
  values : List R

/-- The values of one entity. -/
def ValueField.entity (f : ValueField R) (id : Nat) : Except Breach (List R) :=
  slice f.values (f.dim * id) (f.dim * (id + 1))

/-! ## Quantities -/

/-- Where the values of a quantity come from. -/
inductive Source (R : Type)
  | constant (value : Value R)
  | function (f : SpaceTimeFunction R)
  | array (a : ValueArray R)
  | field (f : ValueField R)

/-- The kind of a source. -/
def Source.kind : Source R → SourceKind
  | constant _ => .constant
  | function _ => .function
  | array _ => .array
  | field _ => .field

/-- The number of components of the values. -/
def Source.dim : Source R → Nat
  | constant v => v.dim
  | function f => f.dim
  | array a => a.dim
  | field f => f.dim

/-- A quantity: where it applies and how its values are provided. -/
structure Quantity (R : Type) where
  support : Support
  source : Source R

namespace Quantity

/-- How the values are provided. -/
def kind (q : Quantity R) : SourceKind := q.source.kind

/-- The number of components. -/
def dim (q : Quantity R) : Nat := q.source.dim

/-- One line that describes the quantity. -/
def describe (q : Quantity R) : String :=
  "definition by " ++ q.kind.name ++ " on " ++ q.support.name ++ ", dimension " ++
    toString q.dim

end Quantity

end Polyfield
