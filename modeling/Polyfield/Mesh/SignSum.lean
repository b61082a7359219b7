/-!
# Sums of signs

Directions of edges and orientations of faces are signs, and the connectivity of a mesh holds
sums of them.  `signTotal` is such a sum.  A mesh keeps each sum in one signed byte:
`signTotal?` adds sign by sign, and has no answer once a partial sum does not fit.

* `signTotal_eq_of_signTotal?` : an answer of `signTotal?` is the sum;
* `fitsByte_of_signTotal?` : and it fits into a byte;
* `signTotal_perm` : the sum does not depend on the order of the signs, which the partial sums do;
* `fitsByte_signTotal` : up to 127 signs fit in any order.
-/

namespace Polyfield

/-- Whether a number fits into a signed byte. -/
def fitsByte (n : Int) : Bool := -128 ≤ n && n ≤ 127

/-- The sum of the directions of one edge, or of the orientations of one face. -/
def signTotal (signs : List Int) : Int := signs.foldl (· + ·) 0

/-- Add a sign to a byte. -/
def addSign (s x : Int) : Option Int := if fitsByte (s + x) then some (s + x) else none

/-- The sum of some signs, added from left to right in a byte. -/
def signTotal? (signs : List Int) : Option Int := signs.foldlM addSign 0

theorem signTotal_perm {xs ys : List Int} (h : xs.Perm ys) : signTotal xs = signTotal ys :=
  h.foldl_eq' (fun _ _ _ _ _ => by omega) 0

theorem foldl_signs_bounds {signs : List Int} (h : ∀ x ∈ signs, x = 1 ∨ x = -1) (s : Int) :
    s - signs.length ≤ signs.foldl (· + ·) s ∧ signs.foldl (· + ·) s ≤ s + signs.length := by
  induction signs generalizing s with
  | nil => simp
  | cons x xs ih =>
    have hx := h x List.mem_cons_self
    have := ih (fun y hy => h y (List.mem_cons_of_mem x hy)) (s + x)
    rw [List.foldl_cons, List.length_cons]
    omega

/-- A sum of up to 127 signs fits into a byte. -/
theorem fitsByte_signTotal {signs : List Int} (h : ∀ x ∈ signs, x = 1 ∨ x = -1)
    (hlen : signs.length ≤ 127) : fitsByte (signTotal signs) = true := by
  have hbounds := foldl_signs_bounds h 0
  have hlow : -128 ≤ signTotal signs := by unfold signTotal; omega
  have hhigh : signTotal signs ≤ 127 := by unfold signTotal; omega
  simp [fitsByte, hlow, hhigh]

theorem addSign_eq_some {s x t : Int} :
    addSign s x = some t ↔ fitsByte (s + x) = true ∧ s + x = t := by
  unfold addSign
  split <;> simp_all

theorem foldl_eq_of_foldlM_addSign {signs : List Int} {s t : Int}
    (h : signs.foldlM addSign s = some t) : signs.foldl (· + ·) s = t := by
  induction signs generalizing s with
  | nil => simpa using h
  | cons x xs ih =>
    rw [List.foldlM_cons] at h
    obtain ⟨u, hu, hxs⟩ := Option.bind_eq_some_iff.1 h
    rw [List.foldl_cons, (addSign_eq_some.1 hu).2]
    exact ih hxs

theorem fitsByte_of_foldlM_addSign {signs : List Int} {s t : Int} (hs : fitsByte s = true)
    (h : signs.foldlM addSign s = some t) : fitsByte t = true := by
  induction signs generalizing s with
  | nil =>
    obtain rfl : s = t := by simpa using h
    exact hs
  | cons x xs ih =>
    rw [List.foldlM_cons] at h
    obtain ⟨u, hu, hxs⟩ := Option.bind_eq_some_iff.1 h
    obtain ⟨hfit, rfl⟩ := addSign_eq_some.1 hu
    exact ih hfit hxs

/-- Where the bytes suffice, they hold the sum. -/
theorem signTotal_eq_of_signTotal? {signs : List Int} {t : Int} (h : signTotal? signs = some t) :
    signTotal signs = t :=
  foldl_eq_of_foldlM_addSign h

theorem fitsByte_of_signTotal? {signs : List Int} {t : Int} (h : signTotal? signs = some t) :
    fitsByte t = true :=
  fitsByte_of_foldlM_addSign (by decide) h

end Polyfield
