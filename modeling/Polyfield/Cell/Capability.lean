/-!
# Capabilities of a cell cache

A cell cache holds the groups of quantities it was asked for.  A group is a `Capability`; a
`CapabilitySet` is closed under the dependencies between groups, because `CapabilitySet.insert`
adds a capability together with all that it needs.
-/

namespace Polyfield

/-- A group of quantities of a cell. -/
inductive Capability
  /-- Vertex numbers. -/
  | vertexIds
  /-- Vertex points and interpolation weights. -/
  | vertexGeometry
  /-- Edge numbers. -/
  | edgeIds
  /-- Edge centers, unit tangents and lengths. -/
  | edgeGeometry
  /-- Face numbers and orientations. -/
  | faceIds
  /-- Face centers, unit normals and areas. -/
  | faceGeometry
  /-- The edges of each face. -/
  | faceEdges
  /-- The areas of the triangles between the edges of a face and its center. -/
  | faceTriangles
  /-- The endpoints of each edge. -/
  | edgeVertices
  /-- The distances from the cell center to the face planes. -/
  | faceHeights
  deriving DecidableEq

namespace Capability

/-- The short name of a capability, as messages write it. -/
def name : Capability → String
  | vertexIds => "Pv"
  | vertexGeometry => "Pvq"
  | edgeIds => "Pe"
  | edgeGeometry => "Peq"
  | faceIds => "Pf"
  | faceGeometry => "Pfq"
  | faceEdges => "Fe"
  | faceTriangles => "Feq"
  | edgeVertices => "Ev"
  | faceHeights => "Hfc"

/-- All capabilities, in the order in which sets are listed. -/
def all : List Capability :=
  [vertexIds, vertexGeometry, edgeIds, edgeGeometry, faceIds, faceGeometry, faceEdges,
    faceTriangles, edgeVertices, faceHeights]

/-- The capability of a short name. -/
def ofName? (name : String) : Option Capability := all.find? (·.name == name)

/-- The capabilities that a capability is computed from. -/
def dependencies : Capability → List Capability
  | vertexIds | edgeIds | faceIds => []
  | vertexGeometry => [vertexIds]
  | edgeGeometry => [edgeIds]
  | faceGeometry => [faceIds]
  | faceEdges => [faceIds, edgeIds]
  | edgeVertices => [edgeIds, vertexIds]
  | faceTriangles => [faceEdges, edgeVertices, faceGeometry, vertexGeometry]
  | faceHeights => [faceGeometry]

/-- A capability and what it depends on along chains of at most `depth` dependencies. -/
def within : Nat → Capability → List Capability
  | 0, k => [k]
  | depth + 1, k => k :: k.dependencies.flatMap (within depth)

/-- A capability with all that it needs.  No chain of dependencies is longer than two. -/
def closure (k : Capability) : List Capability := within 2 k

theorem closure_subset_of_mem {j k : Capability} (h : j ∈ k.closure) :
    ∀ i ∈ j.closure, i ∈ k.closure := by
  revert h
  cases k <;> cases j <;> decide

end Capability

/-- A set of capabilities. -/
structure CapabilitySet where
  /-- Whether a capability is in the set. -/
  contains : Capability → Bool

namespace CapabilitySet

/-- The set without capabilities. -/
def empty : CapabilitySet := ⟨fun _ => false⟩

/-- The set with a capability and all that it needs added. -/
def insert (s : CapabilitySet) (k : Capability) : CapabilitySet :=
  ⟨fun j => s.contains j || k.closure.contains j⟩

/-- The set of the given capabilities and all that they need. -/
def ofList (ks : List Capability) : CapabilitySet := ks.foldl insert empty

/-- The set of all capabilities. -/
def all : CapabilitySet := ofList Capability.all

/-- The capabilities of a set, in the order of `Capability.all`. -/
def toList (s : CapabilitySet) : List Capability := Capability.all.filter s.contains

@[simp] theorem contains_empty (k : Capability) : empty.contains k = false := rfl

theorem contains_insert (s : CapabilitySet) (k j : Capability) :
    (s.insert k).contains j = (s.contains j || decide (j ∈ k.closure)) := by
  simp [insert]

theorem contains_all (k : Capability) : all.contains k = true := by cases k <;> rfl

end CapabilitySet

end Polyfield
