import Polyfield.Scalar
import Polyfield.Fault

/-!
# Buffers

Values are read from lists and written to a `Buffer`, the output list of a call, whose length
never changes.  Reading or writing outside a list is a breach.

* `fetch`, `slice` read; `updateSlot`, `updateFirst`, `overwriteFirst` rewrite a part of a buffer
  and keep the rest;
* `addScaled` adds a multiple of some values entry by entry;
* `Fill` is the type of a routine that works on its output buffer and may refuse: what it answers
  carries the buffer in every case, so that "a refusal leaves the buffer as it was" can be said.
-/

namespace Polyfield

variable {α : Type}

/-- The output of a call. -/
abbrev Buffer (R : Type) := List R

/-! ## Reading -/

/-- The entry of a list at an index. -/
def fetch (xs : List α) (i : Nat) : Except Breach α :=
  match xs[i]? with
  | some a => .ok a
  | none => .error .outOfRange

theorem fetch_eq_ok {xs : List α} {i : Nat} {a : α} : fetch xs i = .ok a ↔ xs[i]? = some a := by
  unfold fetch
  cases xs[i]? <;> simp

theorem fetch_of_lt {xs : List α} {i : Nat} (h : i < xs.length) : fetch xs i = .ok xs[i] :=
  fetch_eq_ok.2 (List.getElem?_eq_getElem h)

/-- The entries of a list from `start` on up to `stop`, which is left out. -/
def slice (xs : List α) (start stop : Nat) : Except Breach (List α) :=
  if start ≤ stop ∧ stop ≤ xs.length then .ok ((xs.drop start).take (stop - start))
  else .error .outOfRange

theorem length_of_slice_eq_ok {xs ys : List α} {start stop : Nat}
    (h : slice xs start stop = .ok ys) : ys.length = stop - start := by
  unfold slice at h
  split at h
  · cases h
    simp only [List.length_take, List.length_drop]
    omega
  · cases h

/-- The first `count` blocks of `size` entries of a list. -/
def blocks (size : Nat) : Nat → List α → List (List α)
  | 0, _ => []
  | count + 1, xs => xs.take size :: blocks size count (xs.drop size)

@[simp] theorem length_blocks (size count : Nat) (xs : List α) :
    (blocks size count xs).length = count := by
  induction count generalizing xs with
  | zero => rfl
  | succ n ih => simp [blocks, ih]

/-- A list in blocks of `size` entries; the last block may be shorter. -/
def chunks (size : Nat) (xs : List α) : List (List α) :=
  blocks size ((xs.length + size - 1) / size) xs

/-! ## Writing -/

/-- Rewrite the `len` entries from `start` on. -/
def updateSlot (start len : Nat) (f : List α → Except Breach (List α)) (buf : List α) :
    Except Breach (List α) :=
  if start + len ≤ buf.length then do
    let slot ← f ((buf.drop start).take len)
    return buf.take start ++ slot ++ buf.drop (start + len)
  else .error .outOfRange

/-- Rewrite the first `len` entries. -/
def updateFirst (len : Nat) (f : List α → Except Breach (List α)) (buf : List α) :
    Except Breach (List α) :=
  updateSlot 0 len f buf

/-- Put values in place of the first entries of a buffer. -/
def overwriteFirst (values buf : List α) : Except Breach (List α) :=
  if values.length ≤ buf.length then .ok (values ++ buf.drop values.length)
  else .error .outOfRange

/-- Put values in place of all entries of a slot, which has to have their length. -/
def copyTo (values slot : List α) : Except Breach (List α) :=
  if slot.length = values.length then .ok values else .error .lengthMismatch

theorem copyTo_eq_ok {values slot out : List α} :
    copyTo values slot = .ok out ↔ slot.length = values.length ∧ out = values := by
  unfold copyTo
  split
  · simp_all [eq_comm]
  · simp_all

/-- Add `a` times some values to a buffer, entry by entry as far as both go. -/
def addScaled {R : Type} [Scalar R] (a : R) : List R → Buffer R → Buffer R
  | v :: vs, o :: os => (o + a * v) :: addScaled a vs os
  | _, os => os

@[simp] theorem length_addScaled {R : Type} [Scalar R] (a : R) (vs : List R) (os : Buffer R) :
    (addScaled a vs os).length = os.length := by
  induction os generalizing vs with
  | nil => cases vs <;> rfl
  | cons o os ih => cases vs <;> simp [addScaled, ih]

/-- Add a number to one entry of a buffer. -/
def addAt {R : Type} [Scalar R] (i : Nat) (a : R) (buf : List R) : Except Breach (List R) := do
  let old ← fetch buf i
  return buf.set i (old + a)

/-! ## Routines on a buffer -/

/-- A routine that works on its output buffer and may stop with a fault. -/
abbrev Fill (R α : Type) := EStateM Fault (Buffer R) α

namespace Fill

variable {R : Type}

/-- A routine that never refuses. -/
def ofUpdate (f : Buffer R → Except Breach (Buffer R)) : Fill R Unit := fun buf =>
  match f buf with
  | .ok out => .ok () out
  | .error b => .error (.breached b) buf

/-- Such a routine leaves the buffer of every refusal as it was, because there is none. -/
theorem ofUpdate_ne_refused {f : Buffer R → Except Breach (Buffer R)} {buf out : Buffer R}
    {r : Refusal} : ofUpdate f buf ≠ .error (.refused r) out := by
  unfold ofUpdate
  split <;> simp

/-- A step that reads and does not touch the buffer. -/
instance : MonadLift (Except Fault) (EStateM Fault (Buffer R)) where
  monadLift x := fun buf =>
    match x with
    | .ok a => .ok a buf
    | .error e => .error e buf

/-- Run a routine on the first `len` entries of the buffer. -/
def onFirst (len : Nat) (m : Fill R α) : Fill R α := fun buf =>
  if len ≤ buf.length then
    match m (buf.take len) with
    | .ok a out => .ok a (out ++ buf.drop len)
    | .error e out => .error e (out ++ buf.drop len)
  else .error (.breached .outOfRange) buf

end Fill

end Polyfield
