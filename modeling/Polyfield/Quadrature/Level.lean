/-!
# Quadrature levels

How accurately an integral over a cell or a face is asked for.
-/

namespace Polyfield

/-- An accuracy level, from the least accurate to the most accurate. -/
inductive Level
  /-- One evaluation at the barycenter. -/
  | bary
  /-- One evaluation at the barycenter of each piece of a subdivision. -/
  | barySubdiv
  /-- A rule exact for quadratic functions on each piece. -/
  | higher
  /-- A rule exact for cubic functions on each piece. -/
  | highest
  deriving DecidableEq

/-- The name of a level, as messages and settings write it. -/
def Level.name : Level → String
  | .bary => "Bary"
  | .barySubdiv => "BarySubdiv"
  | .higher => "Higher"
  | .highest => "Highest"

/-- All levels, the least accurate first. -/
def Level.all : List Level := [.bary, .barySubdiv, .higher, .highest]

/-- The level of a name. -/
def Level.ofName? (name : String) : Option Level := Level.all.find? (·.name == name)

/-- Levels are read back from their names. -/
theorem Level.ofName?_name (l : Level) : Level.ofName? l.name = some l := by
  cases l <;> rfl

end Polyfield
