import Mathlib.Data.List.Induction
import Mathlib.Data.List.Nodup
import Polyfield.Mesh.Loop

/-!
# Order of first occurrence

`FirstOccurrences ks xs` says that `ks` lists the elements of `xs` once each, in the order in which
they first occur.  It determines `ks`, and `firstSeen` has it.

* `firstSeen_concat`, `firstSeen_append` : one more element is entered if its key is new, and so
  are the elements of a second list;
* `find?_of_mem_firstSeen` : an element that is kept is the first one with its key;
* `firstOccurrences_firstSeen` : the keys of `firstSeen` are in the order of first occurrence;
* `FirstOccurrences.map` : a renaming of the elements keeps that order.
-/

namespace Polyfield

/-- The elements of a list once each, in the order in which they first occur. -/
structure FirstOccurrences {κ : Type} [DecidableEq κ] (ks xs : List κ) : Prop where
  mem_iff : ∀ k, k ∈ ks ↔ k ∈ xs
  increasing : ks.Pairwise fun a b => xs.idxOf a < xs.idxOf b

/-! ## One element more -/

section FirstSeen

variable {α κ : Type} [DecidableEq κ]

theorem firstSeenAfter_concat (key : α → κ) (seen : List κ) (xs : List α) (a : α) :
    firstSeenAfter key seen (xs ++ [a]) = firstSeenAfter key seen xs ++
      if key a ∈ seen ∨ key a ∈ xs.map key then [] else [a] := by
  induction xs generalizing seen with
  | nil => by_cases h : key a ∈ seen <;> simp [firstSeenAfter, h]
  | cons b bs ih =>
    rw [List.cons_append, firstSeenAfter, firstSeenAfter]
    by_cases hb : key b ∈ seen
    · have hiff : (key a ∈ seen ∨ key a ∈ (b :: bs).map key) ↔
          (key a ∈ seen ∨ key a ∈ bs.map key) := by
        rw [List.map_cons, List.mem_cons]
        exact ⟨fun h => h.elim .inl fun h => h.elim (fun h => .inl (h ▸ hb)) .inr,
          fun h => h.imp_right .inr⟩
      simp only [if_pos hb, ih, hiff]
    · have hiff : (key a ∈ seen ∨ key a ∈ (b :: bs).map key) ↔
          (key a ∈ key b :: seen ∨ key a ∈ bs.map key) := by
        rw [List.map_cons, List.mem_cons, List.mem_cons]
        tauto
      simp only [if_neg hb, ih, hiff, List.cons_append]

/-- The keys of the first elements are the keys of all elements. -/
theorem mem_map_firstSeen {key : α → κ} {xs : List α} {k : κ} :
    k ∈ (firstSeen key xs).map key ↔ k ∈ xs.map key := by
  constructor
  · intro h
    obtain ⟨a, ha, rfl⟩ := List.mem_map.1 h
    exact List.mem_map_of_mem (mem_of_mem_firstSeen ha)
  · intro h
    obtain ⟨a, ha, rfl⟩ := List.mem_map.1 h
    exact key_mem_firstSeen ha

/-- **One more element is entered if its key is new.** -/
theorem firstSeen_concat (key : α → κ) (xs : List α) (a : α) :
    firstSeen key (xs ++ [a]) = firstSeen key xs ++
      if key a ∈ (firstSeen key xs).map key then [] else [a] := by
  simp only [mem_map_firstSeen]
  simpa [firstSeen] using firstSeenAfter_concat key [] xs a

@[simp] theorem mem_firstSeen_id {xs : List κ} {k : κ} : k ∈ firstSeen id xs ↔ k ∈ xs := by
  have hmem := @mem_map_firstSeen _ _ _ id xs k
  rwa [List.map_id, List.map_id] at hmem

/-- Of elements with distinct keys all are kept. -/
theorem firstSeen_eq_self {key : α → κ} {xs : List α} (h : (xs.map key).Nodup) :
    firstSeen key xs = xs := by
  induction xs using List.reverseRecOn with
  | nil => rfl
  | append_singleton xs a ih =>
    rw [List.map_append, List.nodup_append] at h
    have hself := ih h.1
    have hnew : key a ∉ xs.map key := fun ha => h.2.2 _ ha _ (by simp) rfl
    rw [firstSeen_concat, hself, if_neg hnew]

/-- **Of a second list those are entered whose keys are new.** -/
theorem firstSeen_append (key : α → κ) (xs ys : List α) :
    firstSeen key (xs ++ ys) =
      firstSeen key xs ++ (firstSeen key ys).filter (fun y => key y ∉ xs.map key) := by
  induction ys using List.reverseRecOn with
  | nil => simp [firstSeen, firstSeenAfter]
  | append_singleton ys y ih =>
    rw [← List.append_assoc, firstSeen_concat, firstSeen_concat, ih, List.append_assoc,
      List.filter_append]
    simp only [← ih, mem_map_firstSeen, List.map_append, List.mem_append]
    by_cases hy : key y ∈ ys.map key
    · rw [if_pos (.inr hy), if_pos hy]
      rfl
    · by_cases hx : key y ∈ xs.map key
      · rw [if_pos (.inl hx), if_neg hy, List.filter_cons_of_neg (by simpa using hx)]
        rfl
      · rw [if_neg (not_or.2 ⟨hx, hy⟩), if_neg hy, List.filter_cons_of_pos (by simpa using hx)]
        rfl

/-- A renaming that keeps the keys apart keeps what is seen first. -/
theorem firstSeen_map {β μ : Type} [DecidableEq μ] {key : α → κ} {key' : β → μ} {f : α → β}
    (h : ∀ a b, key' (f a) = key' (f b) ↔ key a = key b) (xs : List α) :
    firstSeen key' (xs.map f) = (firstSeen key xs).map f := by
  induction xs using List.reverseRecOn with
  | nil => rfl
  | append_singleton xs a ih =>
    have hmem : key' (f a) ∈ ((firstSeen key xs).map f).map key' ↔
        key a ∈ (firstSeen key xs).map key := by
      simp only [List.map_map, List.mem_map, Function.comp_apply, h]
    rw [List.map_append, List.map_singleton, firstSeen_concat, firstSeen_concat, ih, List.map_append]
    simp only [hmem]
    split <;> simp

/-- **An element that is kept is the first one with its key.** -/
theorem find?_of_mem_firstSeen {key : α → κ} {xs : List α} {a : α} (h : a ∈ firstSeen key xs) :
    xs.find? (fun b => key b = key a) = some a := by
  induction xs using List.reverseRecOn with
  | nil => simp [firstSeen, firstSeenAfter] at h
  | append_singleton xs b ih =>
    rw [firstSeen_concat, List.mem_append] at h
    rw [List.find?_append]
    rcases h with h | h
    · rw [ih h, Option.some_or]
    · split at h
      · simp at h
      · rename_i hnew
        obtain rfl := List.mem_singleton.1 h
        have hnone : xs.find? (fun b => key b = key a) = none := by
          rw [List.find?_eq_none]
          intro b hb hkey
          exact hnew (mem_map_firstSeen.2 (of_decide_eq_true hkey ▸ List.mem_map_of_mem hb))
        simp [hnone]

/-- **The keys of the first elements are in the order of first occurrence.** -/
theorem firstOccurrences_firstSeen (key : α → κ) (xs : List α) :
    FirstOccurrences ((firstSeen key xs).map key) (xs.map key) where
  mem_iff _ := mem_map_firstSeen
  increasing := by
    induction xs using List.reverseRecOn with
    | nil => simp [firstSeen, firstSeenAfter]
    | append_singleton xs b ih =>
      have hold : ∀ k ∈ (firstSeen key xs).map key,
          ((xs ++ [b]).map key).idxOf k = (xs.map key).idxOf k ∧
            (xs.map key).idxOf k < (xs.map key).length := by
        intro k hk
        have hmem := mem_map_firstSeen.1 hk
        rw [List.map_append, List.idxOf_append_of_mem hmem]
        exact ⟨rfl, List.idxOf_lt_length_of_mem hmem⟩
      rw [firstSeen_concat]
      split
      · rw [List.append_nil]
        exact ih.imp_of_mem fun hk hk' h => by rwa [(hold _ hk).1, (hold _ hk').1]
      · rename_i hnew
        have hsplit : (firstSeen key xs ++ [b]).map key =
            (firstSeen key xs).map key ++ [key b] := by simp
        rw [hsplit, List.pairwise_append]
        refine ⟨ih.imp_of_mem fun hk hk' h => by rwa [(hold _ hk).1, (hold _ hk').1], by simp,
          fun k hk k' hk' => ?_⟩
        obtain rfl : k' = key b := by simpa using hk'
        rw [(hold k hk).1, List.map_append,
          List.idxOf_append_of_notMem fun h => hnew (mem_map_firstSeen.2 h)]
        have hlt := (hold k hk).2
        omega

end FirstSeen

/-! ## Order of first occurrence -/

namespace FirstOccurrences

variable {κ μ : Type} [DecidableEq κ] [DecidableEq μ] {ks xs : List κ}

theorem nodup (h : FirstOccurrences ks xs) : ks.Nodup :=
  h.increasing.imp fun hlt heq => by
    subst heq
    omega

/-- The position of the first occurrence survives a renaming that keeps the elements apart. -/
theorem idxOf_map {f : κ → μ} (hf : ∀ a ∈ xs, ∀ b ∈ xs, f a = f b → a = b) {a : κ} (ha : a ∈ xs) :
    (xs.map f).idxOf (f a) = xs.idxOf a := by
  induction xs with
  | nil => simp at ha
  | cons x xs ih =>
    rw [List.map_cons, List.idxOf_cons, List.idxOf_cons]
    by_cases hx : x = a
    · simp [hx]
    · have hfx : f x ≠ f a := fun h => hx (hf x List.mem_cons_self a ha h)
      have hmem : a ∈ xs := (List.mem_cons.1 ha).resolve_left (Ne.symm hx)
      rw [beq_eq_false_iff_ne.2 hfx, beq_eq_false_iff_ne.2 hx,
        ih (fun b hb c hc => hf b (List.mem_cons_of_mem x hb) c (List.mem_cons_of_mem x hc)) hmem]

/-- **A renaming that keeps the elements apart keeps the order of first occurrence.** -/
theorem map {f : κ → μ} (hf : ∀ a ∈ xs, ∀ b ∈ xs, f a = f b → a = b)
    (h : FirstOccurrences ks xs) : FirstOccurrences (ks.map f) (xs.map f) where
  mem_iff k := by
    simp only [List.mem_map, h.mem_iff]
  increasing := by
    refine List.pairwise_map.2 (h.increasing.imp_of_mem fun ha hb hlt => ?_)
    rwa [idxOf_map hf ((h.mem_iff _).1 ha), idxOf_map hf ((h.mem_iff _).1 hb)]

end FirstOccurrences

end Polyfield
