import Polyfield.Proofs.CellCalls
import Polyfield.Proofs.Slots

/-!
# Steps that refuse

A routine may refuse what it is asked for.  `RefusesAs expected x` says that `x` refuses in one
way, if at all: it succeeds only where nothing is `expected`, and the refusal it answers is the
expected one.  `Fill.RefusesAs` says in addition that the buffer of a refusal is as it was.

Both are carried through the steps of a routine.  What keeps the buffer of a refusal as it was is
the order of the steps: the steps in front of one that can refuse only read
(`Fill.RefusesAs.read_bind`), and behind one that writes no step refuses (`Fill.RefusesAs.bind`).
-/

namespace Polyfield

variable {R : Type}

/-- A computation that succeeds only if no refusal is expected, and refuses only as expected.  It
may always meet a breach. -/
structure RefusesAs {α : Type} (expected : Option Refusal) (x : Except Fault α) : Prop where
  ok : ∀ a, x = .ok a → expected = none
  refused : ∀ r, x = .error (.refused r) → expected = some r

namespace RefusesAs

variable {α β : Type} {o o' : Option Refusal}

theorem of_ok (a : α) : RefusesAs none (.ok a) := ⟨fun _ _ => rfl, nofun⟩

theorem of_refuse (r : Refusal) : RefusesAs (some r) (refuse r : Except Fault α) :=
  ⟨nofun, fun _ h => by cases h; rfl⟩

/-- Steps that can only meet a breach. -/
theorem of_breach (x : Except Breach α) : RefusesAs none (liftM x : Except Fault α) := by
  cases x with
  | ok a => exact of_ok a
  | error b => exact ⟨fun _ _ => rfl, nofun⟩

/-- Of two steps, the first decides if it refuses. -/
theorem bind {x : Except Fault α} {f : α → Except Fault β} (hx : RefusesAs o x)
    (hf : ∀ a, RefusesAs o' (f a)) : RefusesAs (o <|> o') (x >>= f) := by
  cases hxa : x with
  | ok a =>
    rw [hx.ok a hxa, ok_bind]
    exact hf a
  | error e =>
    refine ⟨nofun, fun r h => ?_⟩
    cases h
    rw [hx.refused r hxa]
    rfl

/-- Two steps of which the second never refuses. -/
theorem bind_none {x : Except Fault α} {f : α → Except Fault β} (hx : RefusesAs o x)
    (hf : ∀ a, RefusesAs none (f a)) : RefusesAs o (x >>= f) := by
  have h := hx.bind hf
  cases o <;> exact h

theorem foldlM {σ ι : Type} {f : σ → ι → Except Fault σ} (hf : ∀ s i, RefusesAs none (f s i))
    (is : List ι) (s : σ) : RefusesAs none (is.foldlM f s) := by
  induction is generalizing s with
  | nil => exact of_ok s
  | cons i is ih =>
    rw [List.foldlM_cons]
    exact (hf s i).bind ih

end RefusesAs

/-- A routine that succeeds only if no refusal is expected, and refuses only as expected, with the
buffer as it was. -/
structure Fill.RefusesAs {α : Type} (expected : Option Refusal) (m : Fill R α) : Prop where
  ok : ∀ buf a out, m buf = .ok a out → expected = none
  refused : ∀ buf r out, m buf = .error (.refused r) out → expected = some r ∧ out = buf

namespace Fill.RefusesAs

variable {α β : Type} {o o' : Option Refusal} {m : Fill R α} {k : α → Fill R β}

/-- A run meets a breach, is refused as expected, or succeeds where nothing is expected. -/
theorem run_cases (hm : RefusesAs o m) (buf : Buffer R) :
    (∃ b out, m buf = .error (.breached b) out) ∨
    (∃ r, o = some r ∧ m buf = .error (.refused r) buf) ∨
    o = none ∧ ∃ a out, m buf = .ok a out := by
  cases hrun : m buf with
  | ok a out => exact .inr (.inr ⟨hm.ok buf a out hrun, a, out, rfl⟩)
  | error e out =>
    cases e with
    | breached b => exact .inl ⟨b, out, rfl⟩
    | refused r =>
      obtain ⟨ho, rfl⟩ := hm.refused buf r out hrun
      exact .inr (.inl ⟨r, ho, rfl⟩)

theorem of_ofUpdate (f : Buffer R → Except Breach (Buffer R)) : RefusesAs none (ofUpdate f) :=
  ⟨fun _ _ _ _ => rfl, fun _ _ _ h => absurd h ofUpdate_ne_refused⟩

theorem of_pure (a : α) : RefusesAs none (pure a : Fill R α) := ⟨fun _ _ _ _ => rfl, nofun⟩

/-- A step that only reads. -/
theorem of_lift {x : Except Fault α} (hx : Polyfield.RefusesAs o x) :
    RefusesAs o (liftM x : Fill R α) := by
  cases hxa : x with
  | ok a => exact ⟨fun _ _ _ _ => hx.ok a hxa, nofun⟩
  | error e =>
    refine ⟨nofun, fun buf r out h => ?_⟩
    cases h
    exact ⟨hx.refused r hxa, rfl⟩

theorem of_refuse (r : Refusal) :
    RefusesAs (some r) (liftM (refuse r : Except Fault α) : Fill R α) :=
  of_lift (.of_refuse r)

/-- Nothing follows a refusal. -/
theorem of_refuse_bind (r : Refusal) (k : α → Fill R β) :
    RefusesAs (some r) ((liftM (refuse r : Except Fault α) : Fill R α) >>= k) := by
  have hrun : ∀ buf, ((liftM (refuse r : Except Fault α) : Fill R α) >>= k) buf =
      .error (.refused r) buf := fun buf => bind_of_run_error rfl
  constructor
  · intro buf b out h
    rw [hrun] at h
    cases h
  · intro buf r' out h
    rw [hrun] at h
    cases h
    exact ⟨rfl, rfl⟩

/-- Two steps of which the first leaves the buffer alone. -/
theorem read_bind (hm : RefusesAs o m) (hread : ∀ buf a out, m buf = .ok a out → out = buf)
    (hk : ∀ a, RefusesAs o' (k a)) : RefusesAs (o <|> o') (m >>= k) := by
  constructor
  · intro buf b out h
    cases hmb : m buf with
    | ok a mid =>
      rw [bind_of_run_ok hmb] at h
      rw [hm.ok buf a mid hmb]
      exact (hk a).ok mid b out h
    | error e mid =>
      rw [bind_of_run_error hmb] at h
      cases h
  · intro buf r out h
    cases hmb : m buf with
    | ok a mid =>
      rw [bind_of_run_ok hmb] at h
      obtain ⟨ho', rfl⟩ := (hk a).refused mid r out h
      rw [hm.ok buf a _ hmb, ho']
      exact ⟨rfl, hread buf a _ hmb⟩
    | error e mid =>
      rw [bind_of_run_error hmb] at h
      cases h
      obtain ⟨ho, hout⟩ := hm.refused buf r _ hmb
      rw [ho]
      exact ⟨rfl, hout⟩

/-- Two steps of which the second never refuses; the first may write. -/
theorem bind (hm : RefusesAs o m) (hk : ∀ a, RefusesAs none (k a)) : RefusesAs o (m >>= k) := by
  constructor
  · intro buf b out h
    cases hmb : m buf with
    | ok a mid => exact hm.ok buf a mid hmb
    | error e mid =>
      rw [bind_of_run_error hmb] at h
      cases h
  · intro buf r out h
    cases hmb : m buf with
    | ok a mid =>
      rw [bind_of_run_ok hmb] at h
      exact absurd ((hk a).refused mid r out h).1 (by simp)
    | error e mid =>
      rw [bind_of_run_error hmb] at h
      cases h
      exact hm.refused buf r _ hmb

/-- A step that only reads, in front of others. -/
theorem lift_bind {x : Except Fault α} (hx : Polyfield.RefusesAs o x)
    (hk : ∀ a, RefusesAs o' (k a)) : RefusesAs (o <|> o') ((liftM x : Fill R α) >>= k) := by
  refine (of_lift hx).read_bind (fun buf a out h => ?_) hk
  cases x with
  | ok b =>
    cases h
    rfl
  | error e => cases h

/-- A check in front of a routine. -/
theorem check_bind {check : Buffer R → Except Breach (Buffer R)} {k : Fill R β}
    (hcheck : ∀ buf out, check buf = .ok out → out = buf) (hk : RefusesAs o k) :
    RefusesAs o (ofUpdate check >>= fun _ => k) := by
  have hread : ∀ buf a out, ofUpdate check buf = .ok a out → out = buf :=
    fun buf _ out h => hcheck buf out (ofUpdate_eq_ok.1 h)
  exact (of_ofUpdate check).read_bind hread fun _ => hk

/-- A routine on the front of the buffer. -/
theorem onFirst (hm : RefusesAs o m) (len : Nat) : RefusesAs o (Fill.onFirst len m) := by
  constructor
  · intro buf a out h
    unfold Fill.onFirst at h
    by_cases hlen : len ≤ buf.length
    · rw [if_pos hlen] at h
      cases hmb : m (buf.take len) with
      | ok b mid => exact hm.ok _ b mid hmb
      | error e mid =>
        rw [hmb] at h
        cases h
    · rw [if_neg hlen] at h
      cases h
  · intro buf r out h
    unfold Fill.onFirst at h
    by_cases hlen : len ≤ buf.length
    · rw [if_pos hlen] at h
      cases hmb : m (buf.take len) with
      | ok b mid =>
        rw [hmb] at h
        cases h
      | error e mid =>
        rw [hmb] at h
        cases h
        obtain ⟨ho, rfl⟩ := hm.refused _ r mid hmb
        exact ⟨ho, List.take_append_drop len buf⟩
    · rw [if_neg hlen] at h
      cases h

theorem done {m : Fill R Unit} (hm : RefusesAs o m) : RefusesAs o (Fill.done m) :=
  hm.bind fun _ => of_pure _

theorem returning {f : α → Answer R} {x : Except Fault α} (hx : Polyfield.RefusesAs o x) :
    RefusesAs o (Fill.returning f x) :=
  (of_lift hx).bind fun _ => of_pure _

end Fill.RefusesAs

end Polyfield
