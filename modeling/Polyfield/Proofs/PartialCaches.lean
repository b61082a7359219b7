import Polyfield.Proofs.BuiltCache
import Polyfield.Proofs.CellCalls
import Polyfield.Proofs.Slots

/-!
# Partial caches

A cache that was not built with all capabilities is a part of the full cache of its cell: it holds
the same where it holds anything (`CellCache.PartOf`).  A routine that checks all capabilities it
relies on cannot tell the two apart, unless its check fails.

* `AgreesUpTo`, `Fill.Agrees` : a run that finds something lacking, or is the same as another run;
  this is carried through the steps of a routine;
* `CellCache.PartOf.requires` : the check of a routine finds something lacking in the part, or
  passes on both caches;
* `CellCache.PartOf.exists_eq_with` : what integrals and fluxes read is the same in both, if the
  part has the triangles of the faces.
-/

namespace Polyfield

variable {R : Type}

/-! ## Runs that agree unless something is lacking -/

/-- A computation that stops for a certain reason, or is the same as another one. -/
def AgreesUpTo {ε α : Type} (Lacks : ε → Prop) (x y : Except ε α) : Prop :=
  (∃ e, Lacks e ∧ x = .error e) ∨ x = y

/-- A capability is missing. -/
def Breach.IsLack (b : Breach) : Prop := ∃ k, b = .missingCapability k

/-- A capability is missing. -/
def Fault.IsLack (e : Fault) : Prop := ∃ b : Breach, b.IsLack ∧ e = .breached b

theorem liftM_eq_ok {α : Type} {x : Except Breach α} {a : α} :
    (liftM x : Except Fault α) = .ok a ↔ x = .ok a := by
  cases x with
  | ok b => simp
  | error b => exact ⟨nofun, nofun⟩

namespace AgreesUpTo

variable {ε α β : Type} {Lacks : ε → Prop} {x y : Except ε α}

theorem of_eq (h : x = y) : AgreesUpTo Lacks x y := .inr h

theorem refl (x : Except ε α) : AgreesUpTo Lacks x x := .inr rfl

/-- Steps that agree, each given that those before it had a result. -/
theorem bind {f g : α → Except ε β} (hx : AgreesUpTo Lacks x y)
    (hf : ∀ a, x = .ok a → AgreesUpTo Lacks (f a) (g a)) :
    AgreesUpTo Lacks (x >>= f) (y >>= g) := by
  rcases hx with ⟨e, he, rfl⟩ | rfl
  · exact .inl ⟨e, he, rfl⟩
  · cases x with
    | ok a => exact hf a rfl
    | error e => exact .inr rfl

/-- Branches that agree, taken alike. -/
theorem ite {p : Prop} [Decidable p] {x' y' : Except ε α} (hpos : p → AgreesUpTo Lacks x y)
    (hneg : ¬p → AgreesUpTo Lacks x' y') :
    AgreesUpTo Lacks (if p then x else x') (if p then y else y') := by
  by_cases hp : p
  · rw [if_pos hp, if_pos hp]
    exact hpos hp
  · rw [if_neg hp, if_neg hp]
    exact hneg hp

/-- Among steps that can refuse. -/
theorem liftM {x y : Except Breach α} (h : AgreesUpTo Breach.IsLack x y) :
    AgreesUpTo Fault.IsLack (liftM x : Except Fault α) (liftM y) := by
  rcases h with ⟨b, hb, rfl⟩ | rfl
  · exact .inl ⟨.breached b, ⟨b, hb, rfl⟩, rfl⟩
  · exact .inr rfl

theorem updateFirst {len : Nat} {f g : List α → Except Breach (List α)}
    (h : ∀ slot, AgreesUpTo Breach.IsLack (f slot) (g slot)) (buf : List α) :
    AgreesUpTo Breach.IsLack (updateFirst len f buf) (updateFirst len g buf) := by
  unfold Polyfield.updateFirst updateSlot
  exact .ite (fun _ => (h _).bind fun _ _ => .refl _) fun _ => .refl _

end AgreesUpTo

/-- A routine that finds a capability missing when it is run on a buffer, or is the same there as
another one. -/
def Fill.Agrees {α : Type} (m m' : Fill R α) (buf : Buffer R) : Prop :=
  (∃ k out, m buf = .error (.breached (.missingCapability k)) out) ∨ m buf = m' buf

namespace Fill.Agrees

variable {α β : Type} {m m' : Fill R α} {buf : Buffer R}

theorem refl (m : Fill R α) (buf : Buffer R) : m.Agrees m buf := .inr rfl

theorem of_ofUpdate {f g : Buffer R → Except Breach (Buffer R)}
    (h : AgreesUpTo Breach.IsLack (f buf) (g buf)) : (ofUpdate f).Agrees (ofUpdate g) buf := by
  rcases h with ⟨b, ⟨k, rfl⟩, hf⟩ | heq
  · refine .inl ⟨k, buf, ?_⟩
    rw [ofUpdate, hf]
  · refine .inr ?_
    rw [ofUpdate, heq, ofUpdate]

theorem of_lift {x y : Except Fault α} (h : AgreesUpTo Fault.IsLack x y) (buf : Buffer R) :
    (liftM x : Fill R α).Agrees (liftM y) buf := by
  rcases h with ⟨e, ⟨b, ⟨k, rfl⟩, rfl⟩, rfl⟩ | rfl
  · exact .inl ⟨k, buf, rfl⟩
  · exact .inr rfl

/-- Steps that agree. -/
theorem bind {k k' : α → Fill R β} (hm : m.Agrees m' buf)
    (hk : ∀ a out, m buf = .ok a out → (k a).Agrees (k' a) out) :
    (m >>= k).Agrees (m' >>= k') buf := by
  rcases hm with ⟨c, out, hlack⟩ | heq
  · exact .inl ⟨c, out, bind_of_run_error hlack⟩
  · cases hrun : m buf with
    | ok a out =>
      have hstep := hk a out hrun
      unfold Fill.Agrees
      rw [bind_of_run_ok hrun, bind_of_run_ok (heq.symm.trans hrun)]
      exact hstep
    | error e out =>
      refine .inr ?_
      rw [bind_of_run_error hrun, bind_of_run_error (heq.symm.trans hrun)]

/-- Branches that agree, taken alike. -/
theorem ite {p : Prop} [Decidable p] {n n' : Fill R α} (hpos : p → m.Agrees m' buf)
    (hneg : ¬p → n.Agrees n' buf) :
    (if p then m else n).Agrees (if p then m' else n') buf := by
  by_cases hp : p
  · rw [if_pos hp, if_pos hp]
    exact hpos hp
  · rw [if_neg hp, if_neg hp]
    exact hneg hp

theorem onFirst {len : Nat} (h : ∀ front, m.Agrees m' front) (buf : Buffer R) :
    (Fill.onFirst len m).Agrees (Fill.onFirst len m') buf := by
  unfold Fill.Agrees Fill.onFirst
  by_cases hlen : len ≤ buf.length
  · rw [if_pos hlen, if_pos hlen]
    rcases h (buf.take len) with ⟨k, out, hlack⟩ | heq
    · exact .inl ⟨k, out ++ buf.drop len, by rw [hlack]⟩
    · exact .inr (by rw [heq])
  · rw [if_neg hlen, if_neg hlen]
    exact .inr rfl

theorem done {m m' : Fill R Unit} (h : m.Agrees m' buf) :
    (Fill.done m).Agrees (Fill.done m') buf :=
  h.bind fun _ _ _ => refl _ _

theorem returning {f : α → Answer R} {x y : Except Fault α} (h : AgreesUpTo Fault.IsLack x y) :
    (Fill.returning f x).Agrees (Fill.returning f y) buf :=
  (of_lift h buf).bind fun _ _ _ => refl _ _

end Fill.Agrees

/-! ## Parts of a full cache -/

variable [Scalar R]

namespace CellCache

/-- A cache holds all that it is to hold as a full cache does. -/
structure PartOf (cm full : CellCache R) : Prop where
  closed : cm.capabilities.Closed
  full_has : ∀ k, full.has k = true
  cell : cm.cell = full.cell
  shape : cm.shape = full.shape
  center : cm.center = full.center
  volume : cm.volume = full.volume
  vertexIds : cm.has .vertexIds = true → cm.vertexIds = full.vertexIds
  vertexPoints : cm.has .vertexGeometry = true → cm.vertexPoints = full.vertexPoints
  vertexWeights : cm.has .vertexGeometry = true → cm.vertexWeights = full.vertexWeights
  edgeIds : cm.has .edgeIds = true → cm.edgeIds = full.edgeIds
  edges : cm.has .edgeGeometry = true → cm.edges = full.edges
  edgeVertices : cm.has .edgeVertices = true → cm.edgeVertices = full.edgeVertices
  faceIds : cm.has .faceIds = true → cm.faceIds = full.faceIds
  faceSigns : cm.has .faceIds = true → cm.faceSigns = full.faceSigns
  faces : cm.has .faceGeometry = true → cm.faces = full.faces
  faceHeights : cm.has .faceHeights = true → cm.faceHeights = full.faceHeights
  faceStarts : cm.has .faceEdges = true → cm.faceStarts = full.faceStarts
  faceEdgeIds : cm.has .faceEdges = true → cm.faceEdgeIds = full.faceEdgeIds
  triangleAreas : cm.has .faceTriangles = true → cm.triangleAreas = full.triangleAreas
  /-- What is left out is empty. -/
  vertexIds_of_lack : cm.has .vertexIds = false → cm.vertexIds = []
  faceIds_of_lack : cm.has .faceIds = false → cm.faceIds = []

theorem partOf_ofTables (m : MeshTables R) (c : Nat) {ks : CapabilitySet} (hks : ks.Closed) :
    (ofTables m c ks).PartOf (ofTables m c .all) where
  closed := hks
  full_has := CapabilitySet.contains_all
  cell := rfl
  shape := rfl
  center := rfl
  volume := rfl
  vertexIds hk := vertexIds_ofTables hk
  vertexPoints hk := vertexPoints_ofTables hk
  vertexWeights hk := vertexWeights_ofTables hk
  edgeIds hk := edgeIds_ofTables hk
  edges hk := edges_ofTables hk
  edgeVertices hk := edgeVertices_ofTables hk
  faceIds hk := faceIds_ofTables hk
  faceSigns hk := if_pos hk
  faces hk := faces_ofTables hk
  faceHeights hk := if_pos hk
  faceStarts hk := if_pos hk
  faceEdgeIds hk := if_pos hk
  triangleAreas hk := if_pos hk
  vertexIds_of_lack hk := if_neg_of_eq_false hk
  faceIds_of_lack hk := if_neg_of_eq_false hk

section Parts

variable {cm full : CellCache R}

omit [Scalar R]

/-- A check finds a capability missing, or passes on both caches. -/
theorem PartOf.requires (h : cm.PartOf full) (ks : List Capability) :
    AgreesUpTo Breach.IsLack (cm.requires ks) (full.requires ks) := by
  induction ks with
  | nil => exact .refl _
  | cons k ks ih =>
    rw [CellCache.requires, CellCache.requires, if_pos (h.full_has k)]
    by_cases hk : cm.has k = true
    · rw [if_pos hk]
      exact ih
    · rw [if_neg hk]
      exact .inl ⟨_, ⟨k, rfl⟩, rfl⟩

/-- A cache holds what the groups that it holds are computed from. -/
theorem PartOf.has_of_mem_closure (h : cm.PartOf full) {j k : Capability} (hk : cm.has k = true)
    (hj : j ∈ k.closure) : cm.has j = true :=
  h.closed k hk j hj

/-- With the triangles of the faces, a cache holds all but the geometry of the edges and the heights
of the faces. -/
theorem PartOf.exists_eq_with (h : cm.PartOf full) (hk : cm.has .faceTriangles = true) :
    ∃ ks edges heights,
      full = { cm with capabilities := ks, edges := edges, faceHeights := heights } ∧
        (cm.has .faceHeights = true → heights = cm.faceHeights) := by
  have hheld : ∀ k ∈ Capability.closure .faceTriangles, cm.has k = true := h.closed _ hk
  refine ⟨full.capabilities, full.edges, full.faceHeights, ?_, fun hh => (h.faceHeights hh).symm⟩
  rw [h.cell, h.shape, h.center, h.volume, h.vertexIds (hheld _ (by decide)),
    h.vertexPoints (hheld _ (by decide)), h.vertexWeights (hheld _ (by decide)),
    h.edgeIds (hheld _ (by decide)), h.edgeVertices (hheld _ (by decide)),
    h.faceIds (hheld _ (by decide)), h.faceSigns (hheld _ (by decide)),
    h.faces (hheld _ (by decide)), h.faceStarts (hheld _ (by decide)),
    h.faceEdgeIds (hheld _ (by decide)), h.triangleAreas hk]

theorem PartOf.faceCount (h : cm.PartOf full) (hk : cm.has .faceIds = true) :
    cm.faceCount = full.faceCount :=
  congrArg List.length (h.faceIds hk)

theorem PartOf.vertexCount_le (h : cm.PartOf full) : cm.vertexCount ≤ full.vertexCount := by
  unfold vertexCount
  cases hk : cm.has .vertexIds with
  | true => rw [h.vertexIds hk]
  | false =>
    rw [h.vertexIds_of_lack hk]
    exact Nat.zero_le _

end Parts

end CellCache

end Polyfield
