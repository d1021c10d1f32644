/-
Programs that share a state and yet see only their own part of it.

What a program knows of the shared state is its view (`Sees`). A view
says which operations the program may perform and what they do to the
view, one after the other as if the program were alone (`Legal`,
`Local`). Two facts about the operations make that sound (`Viewed`): a
legal operation does to the state what the view says, and no program's
legal operation changes what another one sees.

A program is then checked alone, over its view (`Prog.Follows`), and
`follows_of_run` says that in every interleaving the invariant holds,
every program still sees what it was checked against, and one that has
ended ended as it was checked to; `legal_of_run`, that every operation on
the way was legal.
-/
import PaimonFtindex.Lib.Interleave

namespace PaimonFtindex.Lib

variable {Op : Type} {Res : Op → Type} {ε α σ ν : Type}

section
variable (Legal : ν → Op → Prop) (Local : ν → (op : Op) → Res op → ν → Prop)

/-- From its view the program only performs legal operations and ends as
`Q` says. -/
def Prog.Follows (Q : ν → Except ε α → Prop) : Prog Op Res ε α → ν → Prop
  | .ret a, v => Q v (.ok a)
  | .fail e, v => Q v (.error e)
  | .call op k, v => Legal v op ∧ ∀ r v', Local v op r v' → (k r).Follows Q v'

end

/-- Views that are sound: `Sees i s v` is what program `i` sees of `s`. -/
structure Viewed (exec : σ → (op : Op) → Res op → σ → Prop) (I : σ → Prop)
    (Sees : Nat → σ → ν → Prop) (Legal : Nat → ν → Op → Prop)
    (Local : Nat → ν → (op : Op) → Res op → ν → Prop) : Prop where
  own : ∀ {s i v op r s'}, I s → Sees i s v → Legal i v op → exec s op r s' →
    I s' ∧ ∃ v', Local i v op r v' ∧ Sees i s' v'
  other : ∀ {s i v op r s' j v'}, I s → Sees i s v → Legal i v op →
    exec s op r s' → i ≠ j → Sees j s v' → Sees j s' v'

/-- The invariant holds and every program follows its view. -/
def AllFollow (I : σ → Prop) (Sees : Nat → σ → ν → Prop)
    (Legal : Nat → ν → Op → Prop)
    (Local : Nat → ν → (op : Op) → Res op → ν → Prop)
    (Q : Nat → ν → Except ε α → Prop) (c : Config Op Res ε α σ) : Prop :=
  I c.shared ∧ ∀ (i : Nat) (p : Prog Op Res ε α), c.threads[i]? = some p →
    ∃ v, Sees i c.shared v ∧ p.Follows (Legal i) (Local i) (Q i) v

section
variable {exec : σ → (op : Op) → Res op → σ → Prop} {I : σ → Prop}
  {Sees : Nat → σ → ν → Prop} {Legal : Nat → ν → Op → Prop}
  {Local : Nat → ν → (op : Op) → Res op → ν → Prop}
  {Q : Nat → ν → Except ε α → Prop} {c c' : Config Op Res ε α σ}

theorem follows_of_step (hviewed : Viewed exec I Sees Legal Local)
    (hfollow : AllFollow I Sees Legal Local Q c) {e : Event Op Res σ}
    (h : Step exec c e c') : AllFollow I Sees Legal Local Q c' := by
  obtain ⟨k, hget, hset⟩ := h.threads_eq
  obtain ⟨v, hsees, hlegal, hnext⟩ := hfollow.2 _ _ hget
  obtain ⟨hinv, v', hlocal, hsees'⟩ :=
    hviewed.own hfollow.1 hsees hlegal h.effect
  refine ⟨hinv, fun i p hp => ?_⟩
  rw [hset] at hp
  by_cases hi : e.thread = i
  · subst hi
    have hlt : e.thread < c.threads.length :=
      (List.getElem?_eq_some_iff.mp hget).1
    rw [List.getElem?_set_self hlt] at hp
    cases hp
    exact ⟨v', hsees', hnext _ _ hlocal⟩
  · rw [List.getElem?_set_ne hi] at hp
    obtain ⟨u, hu, hfollows⟩ := hfollow.2 i p hp
    exact ⟨u, hviewed.other hfollow.1 hsees hlegal h.effect hi hu, hfollows⟩

/-- So it is in every state that a run reaches. -/
theorem follows_of_run (hviewed : Viewed exec I Sees Legal Local)
    (hfollow : AllFollow I Sees Legal Local Q c) {es : List (Event Op Res σ)}
    (h : Run exec c es c') : AllFollow I Sees Legal Local Q c' := by
  induction h with
  | nil c => exact hfollow
  | cons step rest ih => exact ih (follows_of_step hviewed hfollow step)

/-- Every event of a run was legal for what its program saw. -/
theorem legal_of_run (hviewed : Viewed exec I Sees Legal Local)
    (hfollow : AllFollow I Sees Legal Local Q c) {es : List (Event Op Res σ)}
    (h : Run exec c es c') :
    ∀ e ∈ es, ∃ v, Sees e.thread e.before v ∧ Legal e.thread v e.op := by
  induction h with
  | nil c => exact fun e he => by cases he
  | cons step rest ih =>
      intro e he
      rcases List.mem_cons.mp he with rfl | he
      · obtain ⟨k, hget, -⟩ := step.threads_eq
        obtain ⟨v, hsees, hlegal, -⟩ := hfollow.2 _ _ hget
        rw [step.before_eq]
        exact ⟨v, hsees, hlegal⟩
      · exact ih (follows_of_step hviewed hfollow step) e he

/-- A sequence follows when its first half ends where the second does. -/
theorem Prog.Follows.bind {β : Type} {Legal : ν → Op → Prop}
    {Local : ν → (op : Op) → Res op → ν → Prop}
    {Q : ν → Except ε α → Prop} {Q' : ν → Except ε β → Prop}
    {p : Prog Op Res ε α} {f : α → Prog Op Res ε β} {v : ν}
    (h : p.Follows Legal Local Q v)
    (hfail : ∀ v e, Q v (.error e) → Q' v (.error e))
    (hf : ∀ v a, Q v (.ok a) → (f a).Follows Legal Local Q' v) :
    (p >>= f).Follows Legal Local Q' v := by
  induction p generalizing v with
  | ret a => exact hf v a h
  | fail e => exact hfail v e h
  | call op k ih => exact ⟨h.1, fun r v' hlocal => ih r (h.2 r v' hlocal)⟩

/-- A program whose failure is a result, and what is done with it. -/
theorem Prog.Follows.attempt_bind {β ε' : Type} {Legal : ν → Op → Prop}
    {Local : ν → (op : Op) → Res op → ν → Prop}
    {Q : ν → Except ε α → Prop} {Q' : ν → Except ε' β → Prop}
    {p : Prog Op Res ε α} {f : Except ε α → Prog Op Res ε' β} {v : ν}
    (h : p.Follows Legal Local Q v)
    (hf : ∀ v r, Q v r → (f r).Follows Legal Local Q' v) :
    (p.attempt >>= f).Follows Legal Local Q' v := by
  induction p generalizing v with
  | ret a => exact hf v _ h
  | fail e => exact hf v _ h
  | call op k ih => exact ⟨h.1, fun r v' hlocal => ih r (h.2 r v' hlocal)⟩

end

end PaimonFtindex.Lib
