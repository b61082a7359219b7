/-!
# Face loops

A face is given by the loop of its vertices.  Loops with the same vertices are the same face,
whatever their start and direction; loops of one face have one `Loop.key`.  An edge joins two
vertices that follow each other in a loop and is written with the smaller vertex first.

* `cyclicPairs` lists the sides of a loop, the closing side last;
* `firstSeen` keeps of a list the first element of each key, and so numbers the keys in the order
  in which they are first seen;
* `Loop.edges` lists the edges along which a loop walks, and `Edge.walkSign` is the direction of
  an edge along a side.
-/

namespace Polyfield

/-- The neighbouring pairs of a cyclic list; the last pair closes it. -/
def cyclicPairs {α : Type} : List α → List (α × α)
  | [] => []
  | a :: as => List.zip (a :: as) (as ++ [a])

@[simp] theorem length_cyclicPairs {α : Type} (xs : List α) :
    (cyclicPairs xs).length = xs.length := by
  cases xs <;> simp [cyclicPairs]

theorem cyclicPairs_map {α β : Type} (f : α → β) (xs : List α) :
    cyclicPairs (xs.map f) = (cyclicPairs xs).map (Prod.map f f) := by
  cases xs with
  | nil => rfl
  | cons a as =>
    simp only [List.map_cons, cyclicPairs]
    rw [show List.map f as ++ [f a] = (as ++ [a]).map f by simp, ← List.map_cons,
      List.zip_map]

section FirstSeen

variable {α κ : Type} [DecidableEq κ]

/-- The elements whose keys are new, given the keys that were seen before. -/
def firstSeenAfter (key : α → κ) : List κ → List α → List α
  | _, [] => []
  | seen, a :: as =>
    if key a ∈ seen then firstSeenAfter key seen as
    else a :: firstSeenAfter key (key a :: seen) as

/-- The first element of each key. -/
def firstSeen (key : α → κ) (xs : List α) : List α := firstSeenAfter key [] xs

theorem mem_of_mem_firstSeenAfter {key : α → κ} {seen : List κ} {xs : List α} {a : α}
    (h : a ∈ firstSeenAfter key seen xs) : a ∈ xs ∧ key a ∉ seen := by
  induction xs generalizing seen with
  | nil => simp [firstSeenAfter] at h
  | cons b bs ih =>
    rw [firstSeenAfter] at h
    split at h
    · exact ⟨List.mem_cons_of_mem _ (ih h).1, (ih h).2⟩
    · rcases List.mem_cons.1 h with rfl | h
      · exact ⟨List.mem_cons_self, by assumption⟩
      · have := ih h
        exact ⟨List.mem_cons_of_mem _ this.1, fun hs => this.2 (List.mem_cons_of_mem _ hs)⟩

theorem key_mem_firstSeenAfter {key : α → κ} {seen : List κ} {xs : List α} {a : α}
    (h : a ∈ xs) (hs : key a ∉ seen) : key a ∈ (firstSeenAfter key seen xs).map key := by
  induction xs generalizing seen with
  | nil => simp at h
  | cons b bs ih =>
    rw [firstSeenAfter]
    rcases List.mem_cons.1 h with rfl | h
    · simp [hs]
    · split
      · exact ih h hs
      · by_cases hb : key a = key b
        · simp [hb]
        · rw [List.map_cons]
          exact List.mem_cons_of_mem _ (ih h (by simp [hb, hs]))

theorem nodup_firstSeenAfter (key : α → κ) (seen : List κ) (xs : List α) :
    ((firstSeenAfter key seen xs).map key).Nodup := by
  induction xs generalizing seen with
  | nil => exact List.nodup_nil
  | cons b bs ih =>
    rw [firstSeenAfter]
    split
    · exact ih seen
    · rw [List.map_cons, List.nodup_cons]
      refine ⟨fun h => ?_, ih _⟩
      obtain ⟨c, hc, hk⟩ := List.mem_map.1 h
      exact (mem_of_mem_firstSeenAfter hc).2 (by simp [hk])

/-- No key occurs twice among the first elements of each key. -/
theorem nodup_firstSeen (key : α → κ) (xs : List α) : ((firstSeen key xs).map key).Nodup :=
  nodup_firstSeenAfter key [] xs

theorem mem_of_mem_firstSeen {key : α → κ} {xs : List α} {a : α} (h : a ∈ firstSeen key xs) :
    a ∈ xs :=
  (mem_of_mem_firstSeenAfter h).1

/-- Every key of a list is a key of its first elements. -/
theorem key_mem_firstSeen {key : α → κ} {xs : List α} {a : α} (h : a ∈ xs) :
    key a ∈ (firstSeen key xs).map key :=
  key_mem_firstSeenAfter h (by simp)

end FirstSeen

/-- The vertices around a face. -/
abbrev Loop := List Nat

namespace Loop

/-- The vertices in increasing order: what loops of one face have in common. -/
def key (l : Loop) : List Nat := l.mergeSort

end Loop

/-- An edge, directed from its first vertex to its second. -/
abbrev Edge := Nat × Nat

namespace Edge

/-- The edge of a side of a loop. -/
def ofSide (side : Nat × Nat) : Edge := (min side.1 side.2, max side.1 side.2)

/-- The direction of the edge of a side relative to the loop: `1` if the loop walks from the
smaller to the larger vertex, and `-1` otherwise. -/
def walkSign (side : Nat × Nat) : Int := if side.1 < side.2 then 1 else -1

theorem walkSign_eq (side : Nat × Nat) : walkSign side = 1 ∨ walkSign side = -1 := by
  unfold walkSign
  split <;> simp

end Edge

namespace Loop

/-- The distinct edges of a loop, in the order in which the loop first walks along them. -/
def edges (l : Loop) : List Edge := firstSeen id ((cyclicPairs l).map Edge.ofSide)

end Loop

end Polyfield
