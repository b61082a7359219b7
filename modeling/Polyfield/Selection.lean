import Polyfield.Buffer

/-!
# Selections

A `Selection` says which entities a bulk evaluation reads and where their results go: the
`i`-th evaluated entity is `source i` and its slot of `stride` entries starts at
`stride * target i`.

`Selection.forEach` rewrites the slots one after the other.  `Selection.forEachInOrder` visits
the slots of a dense selection in any order of their positions; `Selection.parForEach` does so
for selections that reach a threshold, and walks through a scattered selection in list order,
since its entities may repeat.
-/

namespace Polyfield

/-- Which entities to evaluate and how to lay out the results. -/
inductive Selection
  /-- The entities below `n`, each written at its number. -/
  | all (n : Nat)
  /-- Some entities, each written at its number. -/
  | scattered (ids : List Nat)
  /-- Some entities, each written at its position in the list. -/
  | compact (ids : List Nat)
  deriving DecidableEq

namespace Selection

variable {α : Type}

/-- The number of entities evaluated. -/
def length : Selection → Nat
  | all n => n
  | scattered ids | compact ids => ids.length

/-- Whether nothing is evaluated. -/
def isEmpty (s : Selection) : Bool := s.length == 0

/-- The explicit list of entities, if there is one. -/
def ids? : Selection → Option (List Nat)
  | all _ => none
  | scattered ids | compact ids => some ids

/-- The entities in the order in which they are evaluated. -/
def entities : Selection → List Nat
  | all n => List.range n
  | scattered ids | compact ids => ids

@[simp] theorem length_entities (s : Selection) : s.entities.length = s.length := by
  cases s <;> simp [entities, length]

/-- The entity evaluated at position `i`. -/
def source (i : Nat) : Selection → Except Breach Nat
  | all _ => .ok i
  | scattered ids | compact ids => fetch ids i

/-- The slot, counted in strides, that the entity at position `i` is written to. -/
def target (i : Nat) : Selection → Except Breach Nat
  | all _ | compact _ => .ok i
  | scattered ids => fetch ids i

/-- Rewrite consecutive slots of a buffer, one for each entity of a list. -/
def fillSlots (stride : Nat) (f : Nat → List α → Except Breach (List α)) :
    List Nat → List α → Except Breach (List α)
  | [], buf => .ok buf
  | e :: es, buf => do
    let slot ← f e (buf.take stride)
    let rest ← fillSlots stride f es (buf.drop stride)
    return slot ++ rest

/-- Check that a buffer can be divided into `n` slots of at least one entry. -/
def requireSlots (stride n : Nat) (buf : List α) : Except Breach Unit :=
  if buf.length < n * stride then .error .outOfRange
  else if stride = 0 then .error .emptyParts
  else .ok ()

/-- Rewrite the slot of every selected entity, in the order of the selection. -/
def forEach (stride : Nat) (f : Nat → List α → Except Breach (List α)) (buf : List α) :
    Selection → Except Breach (List α)
  | all n => do
    requireSlots stride n buf
    fillSlots stride f (List.range n) buf
  | compact ids => do
    requireSlots stride ids.length buf
    fillSlots stride f ids buf
  | scattered ids =>
    ids.foldlM (fun out e => updateSlot (e * stride) stride (f e) out) buf

/-- Rewrite the slots at the given positions of a list of entities, in the order given. -/
def forEachInOrder (stride : Nat) (f : Nat → List α → Except Breach (List α))
    (entities order : List Nat) (buf : List α) : Except Breach (List α) :=
  order.foldlM
    (fun out i => do
      let e ← fetch entities i
      updateSlot (i * stride) stride (f e) out)
    buf

/-- Rewrite the slot of every selected entity; the slots of a dense selection of at least
`threshold` entities are visited in the order that `order` gives for their number. -/
def parForEach (stride threshold : Nat) (f : Nat → List α → Except Breach (List α))
    (order : Nat → List Nat) (buf : List α) (s : Selection) : Except Breach (List α) :=
  if s.length < threshold then s.forEach stride f buf
  else
    match s with
    | all n => do
      requireSlots stride n buf
      forEachInOrder stride f (List.range n) (order n) buf
    | compact ids => do
      requireSlots stride ids.length buf
      forEachInOrder stride f ids (order ids.length) buf
    | scattered ids => (scattered ids).forEach stride f buf

end Selection

end Polyfield
