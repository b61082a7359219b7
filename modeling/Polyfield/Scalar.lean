/-!
# Scalars

Every number of the library is an element of a type `R` with `Scalar R`: the field operations,
a square root, an absolute value, the order and the least natural number above a scalar.  The
programs run over `Float`; the same definitions read over the real numbers are the mathematics
they stand for.

* `Scalar.ratio` writes the constants, as quotients of two natural numbers;
* `total` adds a list from left to right, the one order of additions used everywhere.
-/

namespace Polyfield

/-- Arithmetic of one kind of number. -/
class Scalar (R : Type) extends Zero R, One R, NatCast R, Add R, Sub R, Mul R, Div R, Neg R,
    LT R, LE R where
  /-- The square root. -/
  sqrt : R → R
  /-- The absolute value. -/
  abs : R → R
  /-- The least natural number that is not below a scalar. -/
  ceilNat : R → Nat
  /-- The strict order is decidable. -/
  decideLT : ∀ a b : R, Decidable (a < b)
  /-- The order is decidable. -/
  decideLE : ∀ a b : R, Decidable (a ≤ b)

namespace Scalar

variable {R : Type} [Scalar R]

instance (a b : R) : Decidable (a < b) := decideLT a b

instance (a b : R) : Decidable (a ≤ b) := decideLE a b

/-- The quotient of two natural numbers.  A decimal constant of few digits is one: rounding the
quotient gives the number nearest to the constant. -/
def ratio (p q : Nat) : R := (p : R) / (q : R)

/-- One half. -/
def half : R := ratio 1 2

end Scalar

/-- Double precision numbers, each operation rounded to nearest. -/
instance : Scalar Float where
  zero := 0
  one := 1
  natCast := Float.ofNat
  sqrt := Float.sqrt
  abs := Float.abs
  ceilNat x := x.ceil.toUInt64.toNat
  decideLT := fun _ _ => inferInstance
  decideLE := fun _ _ => inferInstance

/-- The sum of a list, added from left to right. -/
def total {V : Type} [Zero V] [Add V] (xs : List V) : V := xs.foldl (· + ·) 0

end Polyfield
