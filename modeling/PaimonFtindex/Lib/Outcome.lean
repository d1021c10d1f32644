/-
Inversion of a successful run of monadic code: what a bind returned, its
two halves returned. One lemma each for code that may fail (`Except`)
and for code that may fail and leaves a state behind (`EStateM`). A loop
that collects results returned one for each element, in order
(`mapM_eq_ok`).

Where only success matters, and not the result, `Succeeds` has the same
rules without the results. Where failing runs matter as well, `Keeps`
says what holds of the state either way, with one rule for each way to
put a run together.
-/
import Mathlib.Data.List.Forall2

namespace PaimonFtindex.Lib

variable {ε σ α β : Type}

/-- A run that returned: both halves did. -/
theorem except_bind_eq_ok {x : Except ε α} {f : α → Except ε β} {b : β} :
    (x >>= f) = .ok b ↔ ∃ a, x = .ok a ∧ f a = .ok b := by
  cases x with
  | error e =>
      constructor
      · intro h; cases h
      · intro h
        obtain ⟨a, ha, -⟩ := h
        cases ha
  | ok a =>
      constructor
      · intro h
        exact ⟨a, rfl, h⟩
      · intro h
        obtain ⟨a', ha, hf⟩ := h
        cases ha
        exact hf

theorem estate_bind_eq_ok {x : EStateM ε σ α} {f : α → EStateM ε σ β}
    {s t : σ} {b : β} :
    (x >>= f) s = .ok b t ↔ ∃ a u, x s = .ok a u ∧ f a u = .ok b t := by
  show EStateM.bind x f s = .ok b t ↔ _
  unfold EStateM.bind
  cases hx : x s with
  | error e u =>
      dsimp only
      constructor
      · intro h; cases h
      · intro h
        obtain ⟨a, u', ha, -⟩ := h
        cases ha
  | ok a u =>
      dsimp only
      constructor
      · intro h
        exact ⟨a, u, rfl, h⟩
      · intro h
        obtain ⟨a', u', ha, hf⟩ := h
        cases ha
        exact hf

/-- A first half that fails ends the run. -/
theorem estate_bind_of_error {x : EStateM ε σ α} {f : α → EStateM ε σ β}
    {s t : σ} {e : ε} (h : x s = .error e t) : (x >>= f) s = .error e t := by
  show EStateM.bind x f s = .error e t
  unfold EStateM.bind
  rw [h]

/-- A loop that returned: each element has its result, in order. -/
theorem mapM_eq_ok {f : α → Except ε β} {xs : List α} {ys : List β} :
    xs.mapM f = .ok ys ↔ List.Forall₂ (fun x y => f x = .ok y) xs ys := by
  induction xs generalizing ys with
  | nil =>
      rw [List.mapM_nil, List.forall₂_nil_left_iff]
      constructor
      · intro h
        cases h
        rfl
      · intro h
        rw [h]
        rfl
  | cons x xs ih =>
      rw [List.mapM_cons, List.forall₂_cons_left_iff]
      simp only [except_bind_eq_ok]
      constructor
      · intro h
        obtain ⟨y, hy, ys', hys, hret⟩ := h
        cases hret
        exact ⟨y, ys', hy, ih.mp hys, rfl⟩
      · intro h
        obtain ⟨y, ys', hy, hys, rfl⟩ := h
        exact ⟨y, hy, ys', ih.mpr hys, rfl⟩

/-- Every source element has a result. -/
theorem exists_mem_of_forall₂ {R : α → β → Prop} {xs : List α} {ys : List β}
    (h : List.Forall₂ R xs ys) : ∀ x ∈ xs, ∃ y ∈ ys, R x y := by
  induction h with
  | nil =>
      intro x hx
      cases hx
  | cons hxy _ ih =>
      intro x hx
      rcases List.mem_cons.mp hx with rfl | hx
      · exact ⟨_, List.mem_cons_self, hxy⟩
      · obtain ⟨y, hy, hr⟩ := ih x hx
        exact ⟨y, List.mem_cons_of_mem _ hy, hr⟩

/-- What the relation gives each result, every result has. -/
theorem forall_of_forall₂ {R : α → β → Prop} {Q : β → Prop} {xs : List α}
    {ys : List β} (h : List.Forall₂ R xs ys) (hR : ∀ x y, R x y → Q y) :
    ∀ y ∈ ys, Q y := by
  induction h with
  | nil => simp
  | @cons x y xs ys hxy _ ih =>
      intro z hz
      rcases List.mem_cons.mp hz with rfl | hz
      · exact hR x z hxy
      · exact ih z hz

/-- Results that are a function of their elements. -/
theorem eq_map_of_forall₂ {f : α → β} {xs : List α} {ys : List β}
    (h : List.Forall₂ (fun x y => y = f x) xs ys) : ys = xs.map f := by
  induction h with
  | nil => rfl
  | cons hxy _ ih => rw [hxy, ih, List.map_cons]

/-- What holds of some source element holds of some result. -/
theorem exists_iff_of_forall₂ {R : α → β → Prop} {P : α → Prop} {Q : β → Prop}
    {xs : List α} {ys : List β} (h : List.Forall₂ R xs ys)
    (hiff : ∀ x ∈ xs, ∀ y, R x y → (P x ↔ Q y)) :
    (∃ x ∈ xs, P x) ↔ ∃ y ∈ ys, Q y := by
  induction h with
  | nil => simp
  | @cons x y xs ys hxy _ ih =>
      have hxs := ih fun x' hx' => hiff x' (List.mem_cons_of_mem _ hx')
      rw [List.exists_mem_cons_iff, List.exists_mem_cons_iff, hxs,
        hiff x List.mem_cons_self y hxy]

/-- What holds of every source element holds of every result. -/
theorem forall_iff_of_forall₂ {R : α → β → Prop} {P : α → Prop} {Q : β → Prop}
    {xs : List α} {ys : List β} (h : List.Forall₂ R xs ys)
    (hiff : ∀ x ∈ xs, ∀ y, R x y → (P x ↔ Q y)) :
    (∀ x ∈ xs, P x) ↔ ∀ y ∈ ys, Q y := by
  induction h with
  | nil => simp
  | @cons x y xs ys hxy _ ih =>
      have hxs := ih fun x' hx' => hiff x' (List.mem_cons_of_mem _ hx')
      rw [List.forall_mem_cons, List.forall_mem_cons, hxs,
        hiff x List.mem_cons_self y hxy]

-- ================================================================ success

/-- The run returned something. -/
def Succeeds (x : Except ε α) : Prop := ∃ a, x = .ok a

@[simp] theorem succeeds_ok (a : α) : Succeeds (.ok a : Except ε α) := ⟨a, rfl⟩

@[simp] theorem succeeds_pure (a : α) : Succeeds (pure a : Except ε α) :=
  ⟨a, rfl⟩

@[simp] theorem not_succeeds_error (e : ε) :
    ¬ Succeeds (.error e : Except ε α) := by
  intro h
  obtain ⟨a, ha⟩ := h
  cases ha

theorem succeeds_bind {x : Except ε α} {f : α → Except ε β} :
    Succeeds (x >>= f) ↔ ∃ a, x = .ok a ∧ Succeeds (f a) := by
  unfold Succeeds
  simp only [except_bind_eq_ok]
  constructor
  · intro h
    obtain ⟨b, a, hx, hf⟩ := h
    exact ⟨a, hx, b, hf⟩
  · intro h
    obtain ⟨a, hx, b, hf⟩ := h
    exact ⟨b, a, hx, hf⟩

/-- A second half that succeeds on every result, or on none. -/
theorem succeeds_bind_of_iff {x : Except ε α} {f : α → Except ε β} {Q : Prop}
    (h : ∀ a, x = .ok a → (Succeeds (f a) ↔ Q)) :
    Succeeds (x >>= f) ↔ Succeeds x ∧ Q := by
  rw [succeeds_bind]
  constructor
  · intro hbind
    obtain ⟨a, hx, hf⟩ := hbind
    exact ⟨⟨a, hx⟩, (h a hx).mp hf⟩
  · intro hboth
    obtain ⟨⟨a, hx⟩, hQ⟩ := hboth
    exact ⟨a, hx, (h a hx).mpr hQ⟩

/-- A second half that cannot fail. -/
theorem succeeds_bind_of_succeeds {x : Except ε α} {f : α → Except ε β}
    (h : ∀ a, x = .ok a → Succeeds (f a)) :
    Succeeds (x >>= f) ↔ Succeeds x := by
  rw [succeeds_bind_of_iff fun a ha => iff_true_intro (h a ha), and_true]

theorem succeeds_bind_pure {x : Except ε α} {f : α → β} :
    Succeeds (x >>= fun a => pure (f a)) ↔ Succeeds x :=
  succeeds_bind_of_succeeds fun a _ => succeeds_pure (f a)

/-- A loop succeeds when its body does on every element. -/
theorem succeeds_mapM {f : α → Except ε β} {xs : List α} :
    Succeeds (xs.mapM f) ↔ ∀ x ∈ xs, Succeeds (f x) := by
  constructor
  · intro h x hx
    obtain ⟨ys, hys⟩ := h
    obtain ⟨y, -, hy⟩ := exists_mem_of_forall₂ (mapM_eq_ok.mp hys) x hx
    exact ⟨y, hy⟩
  · intro h
    induction xs with
    | nil => exact ⟨[], rfl⟩
    | cons x xs ih =>
        rw [List.forall_mem_cons] at h
        obtain ⟨y, hy⟩ := h.1
        obtain ⟨ys, hys⟩ := ih h.2
        refine ⟨y :: ys, mapM_eq_ok.mpr ?_⟩
        exact List.Forall₂.cons hy (mapM_eq_ok.mp hys)

-- =========================================================== failing runs

/-- From a state in `I` the run ends in one, with a result in `Q`, or
fails in a state in `E`. -/
def Keeps (I E : σ → Prop) (Q : α → Prop) (x : EStateM ε σ α) : Prop :=
  ∀ s, I s → match x s with
    | .ok a t => I t ∧ Q a
    | .error _ t => E t

/-- The state a run ends in, whether it fails or not. -/
def endState : EStateM.Result ε σ α → σ
  | .ok _ s => s
  | .error _ s => s

section
variable {I E : σ → Prop} {Q : α → Prop} {Q' : β → Prop}

theorem keeps_pure {a : α} (ha : Q a) :
    Keeps I E Q (pure a : EStateM ε σ α) := fun _ hs => ⟨hs, ha⟩

theorem keeps_throw (hE : ∀ s, I s → E s) {e : ε} :
    Keeps I E Q (throw e : EStateM ε σ α) := hE

theorem keeps_bind {x : EStateM ε σ α} {f : α → EStateM ε σ β}
    (hx : Keeps I E Q x) (hf : ∀ a, Q a → Keeps I E Q' (f a)) :
    Keeps I E Q' (x >>= f) := by
  intro s hs
  have hfirst := hx s hs
  show match EStateM.bind x f s with
    | .ok b t => I t ∧ Q' b
    | .error _ t => E t
  unfold EStateM.bind
  cases hrun : x s with
  | ok a t =>
      rw [hrun] at hfirst
      exact hf a hfirst.2 t hfirst.1
  | error e t =>
      rw [hrun] at hfirst
      exact hfirst

/-- A run that fails in no state returns. -/
theorem exists_ok_of_keeps {x : EStateM ε σ α}
    (hx : Keeps I (fun _ => False) Q x) {s : σ} (hs : I s) :
    ∃ a t, x s = .ok a t := by
  have hrun := hx s hs
  cases hres : x s with
  | ok a t => exact ⟨a, t, rfl⟩
  | error e t =>
      rw [hres] at hrun
      exact hrun.elim

/-- A run that keeps `I` or fails in `E` ends in one of the two. -/
theorem endState_of_keeps {x : EStateM ε σ α} (hx : Keeps I E Q x)
    (hE : ∀ s, I s → E s) {s : σ} (hs : I s) : E (endState (x s)) := by
  have hrun := hx s hs
  cases hres : x s with
  | ok a t =>
      rw [hres] at hrun
      exact hE t hrun.1
  | error e t =>
      rw [hres] at hrun
      exact hrun

end

end PaimonFtindex.Lib
