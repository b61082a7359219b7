import Polyfield.BlockSum

/-!
# Statistics of an array

`Statistics.analyse` gathers the range, the mean, the standard deviation and the Euclidean norm
of the values of an array, or of the lengths of its entities where these have several components.
-/

namespace Polyfield

variable {R : Type} [Scalar R]

/-- Basic statistics of a list of numbers. -/
structure Statistics (R : Type) where
  /-- The least number. -/
  min : R
  /-- The greatest number. -/
  max : R
  /-- The arithmetic mean. -/
  mean : R
  /-- The standard deviation around the mean. -/
  sigma : R
  /-- The square root of the sum of squares. -/
  euclideanNorm : R

namespace Statistics

/-- The statistics of no numbers. -/
def zero : Statistics R := ⟨0, 0, 0, 0, 0⟩

/-- The least and the greatest entry of a list.  Entries that do not compare with themselves are
passed over; where nothing else is left the range is written the wrong way around, from the
quotient of one by zero to its negative. -/
def range (xs : List R) : R × R :=
  match xs.filter (fun x => x ≤ x) with
  | [] => (1 / 0, -1 / 0)
  | x :: rest =>
    rest.foldl (fun (lo, hi) v => (if v < lo then v else lo, if hi < v then v else hi)) (x, x)

/-- The length of an entity with the given components. -/
def entityNorm (components : List R) : R :=
  Scalar.sqrt (total (components.map fun v => v * v))

/-- The analysed numbers: the values themselves if entities have one component, and otherwise
the length of each entity. -/
def analysed (values : List R) (stride : Nat) : List R :=
  if stride = 1 then values
  else (blocks stride (values.length / stride) values).map entityNorm

/-- The statistics of a list that is not empty. -/
def ofList (xs : List R) : Except Breach (Statistics R) := do
  let n : R := (xs.length : R)
  let (lo, hi) := range xs
  let (sum, s) ← (BlockSum.forSize xs.length).sum .sum xs none
  let mean := sum / n
  let (squares, s) ← s.sum .sumSquares xs none
  let (deviations, _) ← s.sum .sumSquares (xs.map fun v => v - mean) none
  return ⟨lo, hi, mean, Scalar.sqrt (deviations / n), Scalar.sqrt squares⟩

/-- The statistics of an array of `stride` components for each entity. -/
def analyse (values : List R) (stride : Nat) : Except Breach (Statistics R) :=
  if stride = 0 then .error .strideNotPositive
  else if values.length % stride ≠ 0 then .error .raggedValues
  else
    match analysed values stride with
    | [] => .ok zero
    | xs => ofList xs

end Statistics

end Polyfield
