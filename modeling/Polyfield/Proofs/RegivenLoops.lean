import Mathlib.Data.List.Forall2
import Polyfield.Proofs.MeshNumbering
import Polyfield.Proofs.TurnedLoops

/-!
# Cells given by other loops

The loops of some cells are given again: every loop is replaced by one with the same vertices, and
the first loop of each face, which is the one that counts, by one related to it (`Regiven`).  The
faces of the cells keep their numbers.  If the first loops are only turned, so that they walk along
the same edges, the edges are the same as well, and only their numbers change.

* `Regiven.loops`, `Regiven.cellFaces` : the numbering of the faces;
* `Regiven.edges_perm` : the edges; `Numbering.renumber` : the new number of an edge;
* `Numbering.walk_perm_of_isRotated`, `Numbering.walk_perm_of_isRotated_reverse` : the sides of a
  turned loop by number;
* `SparseRow.gather_renumbered` : a row whose entries are renumbered.
-/

namespace Polyfield

/-! ## Rows with other numbers -/

namespace SparseRow

variable {V W : Type} {es : List (Nat × V)} {es' : List (Nat × W)} {σ : Nat → Nat}

section Renumbered

variable (hσ : ∀ i ∈ es.map Prod.fst, ∀ j ∈ es.map Prod.fst, σ i = σ j → i = j)
include hσ

theorem sortedColumns_renumbered
    (h : ∀ j, j ∈ es'.map Prod.fst ↔ j ∈ (es.map Prod.fst).map σ) :
    (sortedColumns es').Perm ((sortedColumns es).map σ) := by
  have hnd : ((sortedColumns es).map σ).Nodup :=
    (nodup_sortedColumns es).map_on fun i hi j hj =>
      hσ i (mem_sortedColumns.1 hi) j (mem_sortedColumns.1 hj)
  refine (List.perm_ext_iff_of_nodup (nodup_sortedColumns es') hnd).2 fun j => ?_
  rw [mem_sortedColumns, h, List.mem_map, List.mem_map]
  simp only [mem_sortedColumns]

variable {g : V → W} (hes : es'.Perm (es.map (Prod.map σ g)))
include hes

theorem valuesAt_renumbered {j : Nat} (hj : j ∈ es.map Prod.fst) :
    (valuesAt (σ j) es').Perm ((valuesAt j es).map g) := by
  refine (valuesAt_perm (σ j) hes).trans (.of_eq ?_)
  rw [valuesAt, valuesAt, List.filter_map, List.map_map, List.map_map]
  have hfilter : es.filter ((fun e : Nat × W => e.1 == σ j) ∘ Prod.map σ g) =
      es.filter fun e => e.1 == j := by
    refine List.filter_congr fun e he => ?_
    have hiff : σ e.1 = σ j ↔ e.1 = j :=
      ⟨hσ e.1 (List.mem_map_of_mem he) j hj, congrArg σ⟩
    simpa using hiff
  rw [hfilter]
  rfl

/-- Renumbered entries make the same row up to the numbers, which sort it differently. -/
theorem gather_renumbered {sum : List V → V} {sum' : List W → W}
    (hsum : ∀ vs ws, ws.Perm (vs.map g) → sum' ws = g (sum vs)) :
    (gather sum' es').Perm ((gather sum es).map (Prod.map σ g)) := by
  have hmem : ∀ j, j ∈ es'.map Prod.fst ↔ j ∈ (es.map Prod.fst).map σ := by
    intro j
    rw [(hes.map Prod.fst).mem_iff, List.map_map, List.map_map]
    rfl
  refine ((sortedColumns_renumbered hσ hmem).map _).trans (.of_eq ?_)
  rw [gather, List.map_map, List.map_map]
  refine List.map_congr_left fun j hj => ?_
  exact congrArg (Prod.mk (σ j))
    (hsum _ _ (valuesAt_renumbered hσ hes (mem_sortedColumns.1 hj)))

end Renumbered

end SparseRow

/-! ## Loops of the same faces -/

theorem Loop.key_eq_iff {l l' : Loop} : l.key = l'.key ↔ l.Perm l' := by
  constructor
  · intro h
    have hkeys : l.key.Perm l'.key := .of_eq h
    exact ((List.mergeSort_perm l _).symm.trans hkeys).trans (List.mergeSort_perm l' _)
  · intro h
    have hle : ∀ k : Loop, k.key.Pairwise (· ≤ ·) := fun k =>
      (List.pairwise_mergeSort (by simp; omega) (by simp; omega) k).imp (by simp)
    exact List.Perm.eq_of_pairwise' (hle l) (hle l')
      (((List.mergeSort_perm l _).trans h).trans (List.mergeSort_perm l' _).symm)

/-- A single cell with distinct faces numbers them as it lists them. -/
theorem Numbering.ofCells_single {cell : List Loop} (h : cell.Pairwise fun l l' => ¬l.Perm l') :
    (ofCells [cell]).loops = cell ∧ (ofCells [cell]).cellFaces = [List.range cell.length] := by
  have hnd : (cell.map Loop.key).Nodup :=
    List.pairwise_map.2 (h.imp fun hl hkey => hl (Loop.key_eq_iff.1 hkey))
  have hloops : (ofCells [cell]).loops = cell := by
    simpa [ofCells] using firstSeen_eq_self hnd
  refine ⟨hloops, ?_⟩
  have hfaces : (ofCells [cell]).cellFaces =
      [cell.map fun l => ((ofCells [cell]).loops.map Loop.key).idxOf l.key] := rfl
  rw [hfaces, hloops]
  refine congrArg (fun ids => [ids]) (List.ext_getElem (by simp) fun i hi hi' => ?_)
  rw [List.getElem_map, List.getElem_range]
  have hlt : i < cell.length := by simpa using hi
  have hkey : i < (cell.map Loop.key).length := by simpa using hi
  have hget : (cell.map Loop.key)[i] = cell[i].key := List.getElem_map _
  rw [← hget, hnd.idxOf_getElem]

/-- One loop walks like another from a different start, or the other way round. -/
def Loop.Turned (l l' : Loop) : Prop := l.IsRotated l' ∨ l.reverse.IsRotated l'

instance : DecidableRel Loop.Turned :=
  fun l l' => inferInstanceAs (Decidable (l.IsRotated l' ∨ l.reverse.IsRotated l'))

namespace Loop.Turned

variable {l l' : Loop} (h : l.Turned l')
include h

theorem perm : l.Perm l' := by
  rcases h with h | h
  · exact h.perm
  · exact (List.reverse_perm l).symm.trans h.perm

/-- Turned loops walk along the same edges. -/
theorem sides_perm : ((cyclicPairs l').map Edge.ofSide).Perm ((cyclicPairs l).map Edge.ofSide) := by
  rcases h with h | h
  · exact (cyclicPairs_perm_of_isRotated h).map _
  · refine ((cyclicPairs_perm_of_isRotated_reverse h).map _).trans (.of_eq ?_)
    rw [List.map_map]
    exact List.map_congr_left fun s _ => Edge.ofSide_eq_iff.2 (.inr rfl)

end Loop.Turned

theorem map_eq_map_of_forall₂ {α β γ : Type} {f : α → γ} {g : β → γ} {xs : List α} {ys : List β}
    (h : List.Forall₂ (fun a b => f a = g b) xs ys) : xs.map f = ys.map g := by
  induction h with
  | nil => rfl
  | cons hab _ ih => rw [List.map_cons, List.map_cons, hab, ih]

theorem exists_mem_of_forall₂ {α β : Type} {R : α → β → Prop} {xs : List α} {ys : List β}
    (h : List.Forall₂ R xs ys) {b : β} (hb : b ∈ ys) : ∃ a ∈ xs, R a b := by
  induction h with
  | nil => simp at hb
  | cons hab _ ih =>
    rcases List.mem_cons.1 hb with rfl | hb
    · exact ⟨_, List.mem_cons_self, hab⟩
    · obtain ⟨a, ha, hab⟩ := ih hb
      exact ⟨a, List.mem_cons_of_mem _ ha, hab⟩

/-- If the elements of a list are replaced by others with the same keys, the first element of each
key is replaced by the one in its place. -/
theorem forall₂_firstSeenAfter {α κ : Type} [DecidableEq κ] {key : α → κ} {r : α → α → Prop}
    {xs ys : List α} (hkey : List.Forall₂ (fun a b => key a = key b) xs ys) (seen : List κ)
    (hfirst : ∀ i a b, xs[i]? = some a → ys[i]? = some b → key a ∉ seen →
      (∀ k ∈ xs.take i, key k ≠ key a) → r a b) :
    List.Forall₂ r (firstSeenAfter key seen xs) (firstSeenAfter key seen ys) := by
  induction hkey generalizing seen with
  | nil => exact .nil
  | @cons a b as bs hab _ ih =>
    rw [firstSeenAfter, firstSeenAfter, ← hab]
    by_cases ha : key a ∈ seen
    · rw [if_pos ha, if_pos ha]
      refine ih seen fun i c d hc hd hseen hbefore => hfirst (i + 1) c d hc hd hseen ?_
      rw [List.take_succ_cons, List.forall_mem_cons]
      exact ⟨fun h => hseen (h ▸ ha), hbefore⟩
    · rw [if_neg ha, if_neg ha]
      refine .cons (hfirst 0 a b rfl rfl ha (by simp)) ?_
      refine ih (key a :: seen) fun i c d hc hd hseen hbefore => ?_
      rw [List.mem_cons, not_or] at hseen
      refine hfirst (i + 1) c d hc hd hseen.2 ?_
      rw [List.take_succ_cons, List.forall_mem_cons]
      exact ⟨fun h => hseen.1 h.symm, hbefore⟩

/-- The same cells with other loops for their faces: the vertices of a loop may come in another
order, and the first loop of each face is related to the one that was first before. -/
structure Regiven (r : Loop → Loop → Prop) (cells cells' : List (List Loop)) : Prop where
  perm : List.Forall₂ (List.Forall₂ List.Perm) cells cells'
  first : ∀ i l l', cells.flatten[i]? = some l → cells'.flatten[i]? = some l' →
    (∀ k ∈ cells.flatten.take i, ¬k.Perm l) → r l l'

/-- Loops that are all turned, the first ones and the others. -/
theorem regiven_of_turned {cells cells' : List (List Loop)}
    (h : List.Forall₂ (List.Forall₂ Loop.Turned) cells cells') :
    Regiven Loop.Turned cells cells' where
  perm := h.imp fun _ _ hcell => hcell.imp fun _ _ hl => hl.perm
  first i l l' hl hl' _ := by
    obtain ⟨hi, rfl⟩ := List.getElem?_eq_some_iff.1 hl
    obtain ⟨hi', rfl⟩ := List.getElem?_eq_some_iff.1 hl'
    exact (List.rel_flatten h).get hi hi'

namespace Regiven

open Polyfield.Numbering

variable {r : Loop → Loop → Prop} {cells cells' : List (List Loop)} (h : Regiven r cells cells')
include h

theorem keys_eq : cells'.map (·.map Loop.key) = cells.map (·.map Loop.key) := by
  refine (map_eq_map_of_forall₂ (h.perm.imp fun cell cell' hcell => ?_)).symm
  exact map_eq_map_of_forall₂ (hcell.imp fun l l' hl => Loop.key_eq_iff.2 hl)

/-- The loops of the faces, in the order of their numbers. -/
theorem loops : List.Forall₂ (fun l l' => l.Perm l' ∧ r l l') (ofCells cells).loops
    (ofCells cells').loops := by
  have hperm : List.Forall₂ List.Perm cells.flatten cells'.flatten := List.rel_flatten h.perm
  refine forall₂_firstSeenAfter (hperm.imp fun l l' hl => Loop.key_eq_iff.2 hl) []
    fun i l l' hl hl' _ hbefore => ?_
  have hrel : r l l' :=
    h.first i l l' hl hl' fun k hk hkl => hbefore k hk (Loop.key_eq_iff.2 hkl)
  obtain ⟨hi, rfl⟩ := List.getElem?_eq_some_iff.1 hl
  obtain ⟨hi', rfl⟩ := List.getElem?_eq_some_iff.1 hl'
  exact ⟨hperm.get hi hi', hrel⟩

theorem length_loops : (ofCells cells').loops.length = (ofCells cells).loops.length :=
  h.loops.length_eq.symm

theorem loop_related {f : Nat} (hf : f < (ofCells cells).loops.length) :
    ((ofCells cells).loop f).Perm ((ofCells cells').loop f) ∧
      r ((ofCells cells).loop f) ((ofCells cells').loop f) := by
  have hf' : f < (ofCells cells').loops.length := h.length_loops ▸ hf
  rw [loop, loop, List.getD_eq_getElem _ _ hf, List.getD_eq_getElem _ _ hf']
  exact h.loops.get hf hf'

/-- The faces keep their numbers. -/
theorem cellFaces : (ofCells cells').cellFaces = (ofCells cells).cellFaces := by
  have hkeys : (ofCells cells').loops.map Loop.key = (ofCells cells).loops.map Loop.key :=
    (map_eq_map_of_forall₂ (f := Loop.key) (g := Loop.key)
      (h.loops.imp fun l l' hl => Loop.key_eq_iff.2 hl.1)).symm
  have hsplit : ∀ cs : List (List Loop), (ofCells cs).cellFaces =
      (cs.map (·.map Loop.key)).map (·.map ((ofCells cs).loops.map Loop.key).idxOf) := by
    intro cs
    simp [ofCells, Function.comp_def]
  rw [hsplit, hsplit, hkeys, h.keys_eq]

theorem isListedOnce : (ofCells cells').isListedOnce = (ofCells cells).isListedOnce := by
  funext f
  rw [Numbering.isListedOnce, Numbering.isListedOnce, h.cellFaces]

theorem facesOfCell (c : Nat) : (ofCells cells').facesOfCell c = (ofCells cells).facesOfCell c := by
  rw [Numbering.facesOfCell, Numbering.facesOfCell, h.cellFaces]

/-- Cells that are large enough and name given vertices stay so. -/
theorem checkCells {k : Nat} (hcheck : PolyhedralMesh.checkCells k cells = .ok ()) :
    PolyhedralMesh.checkCells k cells' = .ok () := by
  rw [PolyhedralMesh.checkCells_eq_ok] at hcheck ⊢
  refine ⟨fun cell' hcell' => ?_, fun cell' hcell' l' hl' v hv => ?_⟩
  · obtain ⟨cell, hcell, hperm⟩ := exists_mem_of_forall₂ h.perm hcell'
    obtain ⟨hfaces, hloops⟩ := hcheck.1 cell hcell
    refine ⟨hperm.length_eq ▸ hfaces, fun l' hl' => ?_⟩
    obtain ⟨l, hl, hperm⟩ := exists_mem_of_forall₂ hperm hl'
    exact hperm.length_eq ▸ hloops l hl
  · obtain ⟨cell, hcell, hperm⟩ := exists_mem_of_forall₂ h.perm hcell'
    obtain ⟨l, hl, hperm⟩ := exists_mem_of_forall₂ hperm hl'
    exact hcheck.2 cell hcell l hl v (hperm.mem_iff.2 hv)

end Regiven

/-- If the first loops are the same, so is the numbering. -/
theorem Regiven.numbering_eq {cells cells' : List (List Loop)} (h : Regiven Eq cells cells') :
    Numbering.ofCells cells' = Numbering.ofCells cells := by
  have hloops : (Numbering.ofCells cells').loops = (Numbering.ofCells cells).loops := by
    have heq := h.loops.imp fun l l' hl => hl.2
    rw [List.forall₂_eq_eq_eq] at heq
    exact heq.symm
  have hedges : (Numbering.ofCells cells').edges = (Numbering.ofCells cells).edges :=
    congrArg (fun loops : List Loop => firstSeen id ((loops.flatMap cyclicPairs).map Edge.ofSide))
      hloops
  calc Numbering.ofCells cells' = ⟨(Numbering.ofCells cells').loops,
        (Numbering.ofCells cells').edges, (Numbering.ofCells cells').cellFaces⟩ := rfl
    _ = Numbering.ofCells cells := by rw [hloops, hedges, h.cellFaces]

/-! ## Turned first loops -/

/-- The number that the edge with a number has in another numbering. -/
def Numbering.renumber (n n' : Numbering) (e : Nat) : Nat := n'.edgeId (n.ends e)

namespace Regiven

open Polyfield.Numbering

variable {cells cells' : List (List Loop)} (h : Regiven Loop.Turned cells cells')
include h

theorem sides_perm (f : Nat) : ((cyclicPairs ((ofCells cells').loop f)).map Edge.ofSide).Perm
    ((cyclicPairs ((ofCells cells).loop f)).map Edge.ofSide) := by
  by_cases hf : f < (ofCells cells).loops.length
  · exact (h.loop_related hf).2.sides_perm
  · have hf' : ¬f < (ofCells cells').loops.length := h.length_loops ▸ hf
    rw [loop, loop, List.getD_eq_default _ _ (Nat.le_of_not_lt hf),
      List.getD_eq_default _ _ (Nat.le_of_not_lt hf')]

/-- The edges are the same, in another order. -/
theorem edges_perm : (ofCells cells').edges.Perm (ofCells cells).edges := by
  have hmem : ∀ {cs : List (List Loop)} {e : Edge}, e ∈ (ofCells cs).edges ↔
      ∃ f < (ofCells cs).loops.length, e ∈ (cyclicPairs ((ofCells cs).loop f)).map Edge.ofSide := by
    intro cs e
    constructor
    · intro he
      obtain ⟨l, hl, s, hs, rfl⟩ := exists_side_of_mem_edges he
      obtain ⟨f, hf, rfl⟩ := List.getElem_of_mem hl
      refine ⟨f, hf, List.mem_map_of_mem ?_⟩
      rwa [loop, List.getD_eq_getElem _ _ hf]
    · rintro ⟨f, hf, he⟩
      obtain ⟨s, hs, rfl⟩ := List.mem_map.1 he
      exact ofSide_mem_edges (loop_mem hf) hs
  refine (List.perm_ext_iff_of_nodup (nodup_edges cells') (nodup_edges cells)).2 fun e => ?_
  rw [hmem, hmem, h.length_loops]
  simp only [(h.sides_perm _).mem_iff]

theorem edges_length : (ofCells cells').edges.length = (ofCells cells).edges.length :=
  h.edges_perm.length_eq

theorem ends_mem {e : Nat} (he : e < (ofCells cells).edges.length) :
    (ofCells cells).ends e ∈ (ofCells cells').edges := by
  rw [h.edges_perm.mem_iff, ends, List.getD_eq_getElem _ _ he]
  exact List.getElem_mem he

theorem renumber_lt {e : Nat} (he : e < (ofCells cells).edges.length) :
    renumber (ofCells cells) (ofCells cells') e < (ofCells cells).edges.length :=
  h.edges_length ▸ edgeId_lt (h.ends_mem he)

theorem ends_renumber {e : Nat} (he : e < (ofCells cells).edges.length) :
    (ofCells cells').ends (renumber (ofCells cells) (ofCells cells') e) = (ofCells cells).ends e :=
  ends_edgeId (h.ends_mem he)

theorem getElem?_renumber {e : Nat} (he : e < (ofCells cells).edges.length) :
    (ofCells cells').edges[renumber (ofCells cells) (ofCells cells') e]? =
      (ofCells cells).edges[e]? := by
  have hold : (ofCells cells).edges[e]? = some ((ofCells cells).ends e) := by
    rw [ends, List.getD_eq_getElem _ _ he]
    exact List.getElem?_eq_getElem he
  exact ((idxOf_eq_iff_getElem? (nodup_edges cells') (h.ends_mem he)).1 rfl).trans hold.symm

theorem renumber_injective {i j : Nat} (hi : i < (ofCells cells).edges.length)
    (hj : j < (ofCells cells).edges.length)
    (hij : renumber (ofCells cells) (ofCells cells') i =
      renumber (ofCells cells) (ofCells cells') j) : i = j := by
  have hends : (ofCells cells).ends i = (ofCells cells).ends j := by
    rw [← h.ends_renumber hi, hij, h.ends_renumber hj]
  rw [ends, ends, List.getD_eq_getElem _ _ hi, List.getD_eq_getElem _ _ hj] at hends
  exact (List.Nodup.getElem_inj_iff (nodup_edges cells)).1 hends

end Regiven

namespace Numbering

variable {cells cells' : List (List Loop)} {l l' : Loop}

/-- The edge of a side of a face. -/
theorem ofSide_mem_edges_of_loop {f : Nat} {s : Nat × Nat}
    (hs : s ∈ cyclicPairs ((ofCells cells).loop f)) : Edge.ofSide s ∈ (ofCells cells).edges := by
  by_cases hf : f < (ofCells cells).loops.length
  · exact ofSide_mem_edges (loop_mem hf) hs
  · rw [loop, List.getD_eq_default _ _ (Nat.le_of_not_lt hf)] at hs
    simp [cyclicPairs] at hs

theorem lt_of_mem_walk {f e : Nat}
    (he : e ∈ ((ofCells cells).walk ((ofCells cells).loop f)).map Prod.fst) :
    e < (ofCells cells).edges.length := by
  obtain ⟨s, hs, rfl⟩ := mem_walk_columns.1 he
  exact edgeId_lt (ofSide_mem_edges_of_loop hs)

theorem walk_renumbered (hl : l ∈ (ofCells cells).loops) {turn : Nat × Nat → Nat × Nat}
    {u : Int → Int} (hsides : (cyclicPairs l').Perm ((cyclicPairs l).map turn))
    (hedge : ∀ s, Edge.ofSide (turn s) = Edge.ofSide s)
    (hsign : ∀ s ∈ cyclicPairs l, Edge.walkSign (turn s) = u (Edge.walkSign s)) :
    ((ofCells cells').walk l').Perm (((ofCells cells).walk l).map
      (Prod.map (renumber (ofCells cells) (ofCells cells')) u)) := by
  refine (hsides.map _).trans (.of_eq ?_)
  rw [walk, List.map_map, List.map_map]
  refine List.map_congr_left fun s hs => ?_
  simp only [Function.comp_apply, Prod.map_apply, hedge, hsign s hs, renumber,
    ends_edgeId (ofSide_mem_edges hl hs)]

theorem walk_perm_of_isRotated (hl : l ∈ (ofCells cells).loops) (h : l.IsRotated l') :
    ((ofCells cells').walk l').Perm (((ofCells cells).walk l).map
      (Prod.map (renumber (ofCells cells) (ofCells cells')) id)) := by
  have hsides : (cyclicPairs l').Perm ((cyclicPairs l).map id) := by
    rw [List.map_id]
    exact cyclicPairs_perm_of_isRotated h
  exact walk_renumbered hl hsides (fun _ => rfl) fun _ _ => rfl

/-- The other direction negates the directions of the edges, if no side is a single point. -/
theorem walk_perm_of_isRotated_reverse (hl : l ∈ (ofCells cells).loops)
    (h : l.reverse.IsRotated l') (hne : ∀ s ∈ cyclicPairs l, s.1 ≠ s.2) :
    ((ofCells cells').walk l').Perm (((ofCells cells).walk l).map
      (Prod.map (renumber (ofCells cells) (ofCells cells')) Neg.neg)) := by
  refine walk_renumbered hl (cyclicPairs_perm_of_isRotated_reverse h)
    (fun s => Edge.ofSide_eq_iff.2 (.inr rfl)) fun s hs => ?_
  have := hne s hs
  simp only [Edge.walkSign, Prod.fst_swap, Prod.snd_swap]
  split <;> split <;> omega

end Numbering

namespace Regiven

open Polyfield.Numbering

variable {cells cells' : List (List Loop)} (h : Regiven Loop.Turned cells cells')
include h

/-- A face has the same edges, by their new numbers. -/
theorem walk_columns_perm (f : Nat) : (((ofCells cells').walk ((ofCells cells').loop f)).map
    Prod.fst).Perm ((((ofCells cells).walk ((ofCells cells).loop f)).map Prod.fst).map
      (renumber (ofCells cells) (ofCells cells'))) := by
  have hsplit : ∀ (n : Numbering) (l : Loop), (n.walk l).map Prod.fst =
      ((cyclicPairs l).map Edge.ofSide).map n.edgeId := by
    intro n l
    simp [walk]
  rw [hsplit, hsplit]
  refine ((h.sides_perm f).map _).trans (.of_eq ?_)
  simp only [List.map_map]
  refine List.map_congr_left fun s hs => ?_
  simp only [Function.comp_apply, renumber, ends_edgeId (ofSide_mem_edges_of_loop hs)]

theorem renumber_injOn_walk (f : Nat) :
    ∀ i ∈ ((ofCells cells).walk ((ofCells cells).loop f)).map Prod.fst,
    ∀ j ∈ ((ofCells cells).walk ((ofCells cells).loop f)).map Prod.fst,
      renumber (ofCells cells) (ofCells cells') i = renumber (ofCells cells) (ofCells cells') j →
        i = j :=
  fun _ hi _ hj => h.renumber_injective (lt_of_mem_walk hi) (lt_of_mem_walk hj)

end Regiven

/-! ## Signs in bytes -/

/-- Signs can be added in a byte if the sums of the first of them fit. -/
theorem isSome_signTotal? {signs : List Int}
    (h : ∀ first, first.IsPrefix signs → fitsByte (signTotal first) = true) :
    (signTotal? signs).isSome = true := by
  induction signs using List.reverseRecOn with
  | nil => rfl
  | append_singleton xs x ih =>
    obtain ⟨s, hs⟩ := Option.isSome_iff_exists.1
      (ih fun first hfirst => h first (hfirst.trans (List.prefix_append xs [x])))
    have hsum : signTotal (xs ++ [x]) = s + x := by
      rw [← signTotal_eq_of_signTotal? hs, signTotal, List.foldl_append]
      rfl
    have hfit : fitsByte (s + x) = true := hsum ▸ h _ (List.prefix_refl _)
    rw [signTotal?] at hs
    rw [signTotal?, List.foldlM_append, hs]
    simp [addSign, hfit]

/-- A row whose signs can be added in any order fits into bytes. -/
theorem SparseRow.signsFit_of_perm {entries : List (Nat × Int)}
    (h : ∀ j ∈ entries.map Prod.fst, ∀ signs, signs.Perm (valuesAt j entries) →
      (signTotal? signs).isSome = true) : signsFit entries = true := by
  have hperm := Sorting.introsort_perm Prod.fst entries
  refine Bool.or_eq_true_iff.2 (.inr (List.all_eq_true.2 fun j hj => ?_))
  exact h j ((hperm.map Prod.fst).mem_iff.1 (mem_sortedColumns.1 hj)) _ (valuesAt_perm j hperm)

namespace Numbering

variable {cells : List (List Loop)} {l : Loop}

/-- The directions of an edge along a loop. -/
theorem valuesAt_walk (hl : l ∈ (ofCells cells).loops) {e : Edge}
    (he : e ∈ (ofCells cells).edges) :
    SparseRow.valuesAt ((ofCells cells).edgeId e) ((ofCells cells).walk l) =
      ((cyclicPairs l).filter fun s => Edge.ofSide s == e).map Edge.walkSign := by
  rw [SparseRow.valuesAt, walk, List.filter_map, List.map_map]
  refine congrArg (List.map _) (List.filter_congr fun s hs => ?_)
  have hiff : (ofCells cells).edgeId (Edge.ofSide s) = (ofCells cells).edgeId e ↔
      Edge.ofSide s = e := by
    refine ⟨fun h => ?_, congrArg _⟩
    rw [← ends_edgeId (ofSide_mem_edges hl hs), h, ends_edgeId he]
  rw [Bool.eq_iff_iff]
  simpa using hiff

/-- The directions along a loop fit into bytes if those of each of its edges do, in any order. -/
theorem signsFit_walk (hl : l ∈ (ofCells cells).loops)
    (h : ∀ s ∈ cyclicPairs l, ∀ signs : List Int,
      signs.Perm (((cyclicPairs l).filter fun t => Edge.ofSide t == Edge.ofSide s).map
        Edge.walkSign) → (signTotal? signs).isSome = true) :
    SparseRow.signsFit ((ofCells cells).walk l) = true := by
  refine SparseRow.signsFit_of_perm fun j hj signs hsigns => ?_
  obtain ⟨s, hs, rfl⟩ := mem_walk_columns.1 hj
  exact h s hs signs (valuesAt_walk hl (ofSide_mem_edges hl hs) ▸ hsigns)

end Numbering

theorem Loop.nodup_edges (l : Loop) : l.edges.Nodup := by
  simpa [edges] using nodup_firstSeen id ((cyclicPairs l).map Edge.ofSide)

theorem Loop.length_edges_le (l : Loop) : l.edges.length ≤ l.length := by
  have hsub : l.edges ⊆ (cyclicPairs l).map Edge.ofSide := fun e he => mem_of_mem_firstSeen he
  simpa using (l.nodup_edges.subperm hsub).length_le

/-- Bytes can hold the sums of signs of small faces and cells. -/
theorem Numbering.signsFit_of_length_le {n : Numbering} {a b : Nat}
    (hloops : ∀ l ∈ n.loops, l.length ≤ a) (hcells : ∀ ids ∈ n.cellFaces, ids.length ≤ b)
    (ha : a ≤ 127) (hba : b * a ≤ 127) : n.signsFit = true := by
  have hfaces : ∀ f, ((n.loops.map Loop.edges).getD f []).length ≤ a := by
    intro f
    rw [getD_map_eq (show Loop.edges [] = [] from rfl)]
    rcases Nat.lt_or_ge f n.loops.length with hf | hf
    · exact (Loop.length_edges_le _).trans (hloops _ (Numbering.loop_mem hf))
    · rw [List.getD_eq_default _ _ hf]
      exact Nat.zero_le a
  refine Bool.and_eq_true_iff.2 ⟨List.all_eq_true.2 fun l hl => ?_,
    List.all_eq_true.2 fun ids hids => List.all_eq_true.2 fun e _ => ?_⟩
  · have hlen := hloops l hl
    simp [SparseRow.signsFit, walk, show l.length ≤ 127 by omega]
  · have hmeetings : (ids.flatMap fun f => (n.loops.map Loop.edges).getD f []).length ≤ b * a := by
      rw [List.length_flatMap]
      refine (List.sum_le_card_nsmul _ a fun x hx => ?_).trans ?_
      · obtain ⟨f, -, rfl⟩ := List.mem_map.1 hx
        exact hfaces f
      · rw [List.length_map, smul_eq_mul]
        exact Nat.mul_le_mul_right a (hcells ids hids)
    have hcount := (List.count_le_length (a := e)).trans hmeetings
    simp only [fitsByte, Bool.and_eq_true, decide_eq_true_eq]
    omega

theorem Loop.Turned.edges_perm {l l' : Loop} (h : l.Turned l') : l'.edges.Perm l.edges := by
  refine (List.perm_ext_iff_of_nodup l'.nodup_edges l.nodup_edges).2 fun e => ?_
  rw [Loop.edges, Loop.edges, mem_firstSeen_id, mem_firstSeen_id, h.sides_perm.mem_iff]

namespace Regiven

open Polyfield.Numbering

variable {cells cells' : List (List Loop)} (h : Regiven Loop.Turned cells cells')
include h

/-- A face walks along the same edges. -/
theorem loopEdges_perm (f : Nat) : (((ofCells cells').loops.map Loop.edges).getD f []).Perm
    (((ofCells cells).loops.map Loop.edges).getD f []) := by
  by_cases hf : f < (ofCells cells).loops.length
  · have hf' : f < (ofCells cells').loops.length := h.length_loops ▸ hf
    have hturned := (h.loop_related hf).2.edges_perm
    rw [loop, loop, List.getD_eq_getElem _ _ hf, List.getD_eq_getElem _ _ hf'] at hturned
    rw [List.getD_eq_getElem _ _ (by simpa using hf'), List.getD_eq_getElem _ _ (by simpa using hf)]
    simpa using hturned
  · have hf' : ¬f < (ofCells cells').loops.length := h.length_loops ▸ hf
    rw [List.getD_eq_default _ _ (by simpa using hf'), List.getD_eq_default _ _ (by simpa using hf)]

/-- A cell meets each edge as often as before. -/
theorem meetingsFit : (ofCells cells').meetingsFit = (ofCells cells).meetingsFit := by
  have hfits : ∀ {xs ys : List Edge}, xs.Perm ys →
      ((firstSeen id xs).all fun e => fitsByte (xs.count e)) =
        (firstSeen id ys).all fun e => fitsByte (ys.count e) := by
    intro xs ys hperm
    rw [Bool.eq_iff_iff, List.all_eq_true, List.all_eq_true]
    simp only [mem_firstSeen_id, hperm.mem_iff, hperm.count_eq]
  rw [Numbering.meetingsFit, Numbering.meetingsFit, h.cellFaces]
  exact congrArg (List.all _) (funext fun ids =>
    hfits (List.Perm.flatMap_left ids fun f _ => h.loopEdges_perm f))

/-- Bytes can hold the directions along loops that walk at most 127 times along each edge,
whichever way they walk. -/
theorem walksFit_of_count_le
    (hcount : ∀ l ∈ (ofCells cells).loops, ∀ e,
      ((cyclicPairs l).map Edge.ofSide).count e ≤ 127) : (ofCells cells').walksFit = true := by
  refine List.all_eq_true.2 fun l' hl' => signsFit_walk hl' fun s _ signs hsigns => ?_
  obtain ⟨l, hl, -, hturned⟩ := exists_mem_of_forall₂ h.loops hl'
  have hlen : signs.length ≤ 127 := by
    rw [hsigns.length_eq, List.length_map, ← List.countP_eq_length_filter]
    refine le_trans (le_of_eq ?_) (hcount l hl (Edge.ofSide s))
    rw [← hturned.sides_perm.count_eq, List.count, List.countP_map]
    rfl
  have hsign : ∀ x ∈ signs, x = 1 ∨ x = -1 := by
    intro x hx
    obtain ⟨t, -, rfl⟩ := List.mem_map.1 (hsigns.mem_iff.1 hx)
    exact Edge.walkSign_eq t
  exact isSome_signTotal? fun first hfirst =>
    fitsByte_signTotal (fun x hx => hsign x (hfirst.subset hx)) (hfirst.length_le.trans hlen)

end Regiven

end Polyfield
