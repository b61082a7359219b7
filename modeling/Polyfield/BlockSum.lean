import Polyfield.Buffer

/-!
# Blocked summation

`BlockSum.sum` adds the terms of a list in blocks of about as many terms as there are blocks, and
the sums of the blocks again in blocks of that size.  The size is kept from one sum to the next
and grows when a list is longer than its square; the sums of the blocks go to a list that is kept,
too, and emptied before it is used again.
-/

namespace Polyfield

variable {R : Type} [Scalar R]

/-- What is summed over the values `v` with weights `w`. -/
inductive SumKind
  /-- The values. -/
  | sum
  /-- The values, each times its weight. -/
  | weightedSum
  /-- The absolute values. -/
  | sumAbs
  /-- The absolute values, each times its weight. -/
  | weightedSumAbs
  /-- The squares. -/
  | sumSquares
  /-- The squares, each times its weight. -/
  | weightedSumSquares
  deriving DecidableEq

namespace SumKind

/-- Whether the sum needs weights. -/
def isWeighted : SumKind → Bool
  | weightedSum | weightedSumAbs | weightedSumSquares => true
  | sum | sumAbs | sumSquares => false

/-- The term of a value. -/
def term : SumKind → R → R
  | sum, v | weightedSum, v => v
  | sumAbs, v | weightedSumAbs, v => Scalar.abs v
  | sumSquares, v | weightedSumSquares, v => v * v

end SumKind

/-- The state of a blocked summation. -/
structure BlockSum (R : Type) where
  /-- The number of terms of a block. -/
  blockSize : Nat
  /-- The sums of the blocks of the list that is being summed, or was summed last. -/
  scratch : List R

namespace BlockSum

/-- The block size for `n` terms: the square root of `n` rounded up, and at least one. -/
def blockSizeFor (R : Type) [Scalar R] (n : Nat) : Nat :=
  max 1 (Scalar.ceilNat (Scalar.sqrt (n : R)))

/-- A summation for lists of about `n` values. -/
def forSize (n : Nat) : BlockSum R := ⟨blockSizeFor R n, []⟩

/-- The weights that a sum over `n` values uses; they are looked at only if the kind needs them. -/
def usedWeights (kind : SumKind) (n : Nat) (weights : Option (List R)) :
    Except Breach (Option (List R)) :=
  if kind.isWeighted then
    match weights with
    | none => .error .weightsMissing
    | some ws => if ws.length = n then .ok (some ws) else .error .weightCountMismatch
  else .ok none

/-- The summation after it has met a list of `n` terms. -/
def grow (s : BlockSum R) (n : Nat) : BlockSum R :=
  if s.blockSize * s.blockSize < n then { s with blockSize := blockSizeFor R n } else s

/-- The sum of a block of values, the first of which has number `start`. -/
def blockTotal (kind : SumKind) (weights : Option (List R)) (start : Nat) (block : List R) :
    Except Breach R :=
  match weights with
  | none => .ok (total (block.map kind.term))
  | some ws => do
    let ws ← slice ws start ws.length
    return total (List.zipWith (fun v w => w * kind.term v) block ws)

/-- Append the sum of block `b` of a list to what the summation keeps. -/
def addBlock (kind : SumKind) (weights : Option (List R)) (s : BlockSum R) :
    List R × Nat → Except Breach (BlockSum R)
  | (block, b) => do
    let x ← blockTotal kind weights (b * s.blockSize) block
    return { s with scratch := s.scratch ++ [x] }

/-- Put the sums of all blocks of a list in the place of what the summation had kept. -/
def fillScratch (s : BlockSum R) (kind : SumKind) (values : List R) (weights : Option (List R)) :
    Except Breach (BlockSum R) :=
  (chunks s.blockSize values).zipIdx.foldlM (addBlock kind weights) { s with scratch := [] }

/-- Sum a list of values; the answer comes with the summation to go on with. -/
def sum (s : BlockSum R) (kind : SumKind) (values : List R) (weights : Option (List R)) :
    Except Breach (R × BlockSum R) := do
  let weights ← usedWeights kind values.length weights
  let s ← (s.grow values.length).fillScratch kind values weights
  return (total ((chunks s.blockSize s.scratch).map total), s)

end BlockSum

end Polyfield
