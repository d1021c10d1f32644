/-
Programs over atomic operations, run in any interleaving.

A program performs operations one at a time on a state it shares with
other programs, sees only their results, and ends in a value or a
failure (`Prog`). A run interleaves the operations of any number of
programs in any order (`Run`); what one operation may do to the shared
state is a relation, so results may be nondeterministic.

# The rule

`Contract` is proved once per operation: under the shared invariant and
the operation's precondition it keeps the invariant and its result meets
its postcondition. `Safe` is proved once per program, alone and without
the state: it only performs operations within their preconditions and,
given results within their postconditions, ends well.
`safe_of_run` puts the two together for every run of every number of
programs.

# Histories

What a program does of its own accord, whatever the results, is a
property of its paths (`Always`); `always_of_run` says that its events
in a run, in order, are such a path. `Ends` and `ends_of_run` say the
same of the paths to an end. What all programs do together is the sum of
what each of them does (`total_eq_of_run`).
-/
import Mathlib.Algebra.BigOperators.Group.List.Basic
import Mathlib.Algebra.GroupWithZero.Nat
import Mathlib.Algebra.Order.BigOperators.Group.List
import Mathlib.Algebra.Order.Group.Nat
import Mathlib.Data.List.Basic

namespace PaimonFtindex.Lib

/-- A program: it ends in a value, fails, or performs an operation and
goes on with its result. -/
inductive Prog (Op : Type) (Res : Op → Type) (ε α : Type) where
  | ret (a : α)
  | fail (e : ε)
  | call (op : Op) (k : Res op → Prog Op Res ε α)

namespace Prog

variable {Op : Type} {Res : Op → Type} {ε α β : Type}

/-- Run one program after another; a failure ends both. -/
def bind : Prog Op Res ε α → (α → Prog Op Res ε β) → Prog Op Res ε β
  | ret a, f => f a
  | fail e, _ => fail e
  | call op k, f => call op fun r => (k r).bind f

instance : Monad (Prog Op Res ε) where
  pure := ret
  bind := bind

@[simp] theorem pure_eq (a : α) : (pure a : Prog Op Res ε α) = ret a := rfl

@[simp] theorem ret_bind (a : α) (f : α → Prog Op Res ε β) :
    (ret a >>= f) = f a := rfl

@[simp] theorem fail_bind (e : ε) (f : α → Prog Op Res ε β) :
    (fail e >>= f) = fail e := rfl

@[simp] theorem call_bind (op : Op) (k : Res op → Prog Op Res ε α)
    (f : α → Prog Op Res ε β) :
    (call op k >>= f) = call op fun r => k r >>= f := rfl

theorem bind_assoc {γ : Type} (p : Prog Op Res ε α)
    (f : α → Prog Op Res ε β) (g : β → Prog Op Res ε γ) :
    ((p >>= f) >>= g) = p >>= fun a => f a >>= g := by
  induction p with
  | ret a => rfl
  | fail e => rfl
  | call op k ih => exact congrArg (call op) (funext ih)

/-- The program with its failures renamed. -/
def mapError {ε' : Type} (f : ε → ε') : Prog Op Res ε α → Prog Op Res ε' α
  | ret a => ret a
  | fail e => fail (f e)
  | call op k => call op fun r => (k r).mapError f

/-- The program with its failure as a result. -/
def attempt {ε' : Type} : Prog Op Res ε α → Prog Op Res ε' (Except ε α)
  | ret a => ret (.ok a)
  | fail e => ret (.error e)
  | call op k => call op fun r => (k r).attempt

/-- The program over other operations: each of its own is done by a
program of those. -/
def carriedBy {Op' : Type} {Res' : Op' → Type}
    (impl : (op : Op) → Prog Op' Res' ε (Res op)) :
    Prog Op Res ε α → Prog Op' Res' ε α
  | ret a => ret a
  | fail e => fail e
  | call op k => (impl op).bind fun r => (k r).carriedBy impl

-- ========================================================== one program

section
variable (Pre : Op → Prop) (Post : (op : Op) → Res op → Prop)

/-- The program stays within its operations' preconditions and ends as
`Q` says, as long as the results are within their postconditions. -/
def Safe (Q : Except ε α → Prop) : Prog Op Res ε α → Prop
  | ret a => Q (.ok a)
  | fail e => Q (.error e)
  | call op k => Pre op ∧ ∀ r, Post op r → (k r).Safe Q

variable {Pre Post}

theorem Safe.mono {Q Q' : Except ε α → Prop} (hQ : ∀ r, Q r → Q' r)
    {p : Prog Op Res ε α} (h : p.Safe Pre Post Q) : p.Safe Pre Post Q' := by
  induction p with
  | ret a => exact hQ _ h
  | fail e => exact hQ _ h
  | call op k ih => exact ⟨h.1, fun r hr => ih r (h.2 r hr)⟩

theorem Safe.mono_pre {Pre' : Op → Prop} {Q : Except ε α → Prop}
    (hpre : ∀ op, Pre op → Pre' op) {p : Prog Op Res ε α}
    (h : p.Safe Pre Post Q) : p.Safe Pre' Post Q := by
  induction p with
  | ret a => exact h
  | fail e => exact h
  | call op k ih => exact ⟨hpre op h.1, fun r hr => ih r (h.2 r hr)⟩

/-- What a program ends in whatever the results, it also ends in within
its contract. -/
theorem Safe.and {Q Q' : Except ε α → Prop} {p : Prog Op Res ε α}
    (h : p.Safe Pre Post Q)
    (h' : p.Safe (fun _ => True) (fun _ _ => True) Q') :
    p.Safe Pre Post fun r => Q r ∧ Q' r := by
  induction p with
  | ret a => exact ⟨h, h'⟩
  | fail e => exact ⟨h, h'⟩
  | call op k ih =>
      exact ⟨h.1, fun r hr => ih r (h.2 r hr) (h'.2 r trivial)⟩

/-- Renaming failures renames them in what the program ends in. -/
theorem Safe.mapError {ε' : Type} {f : ε → ε'} {Q : Except ε α → Prop}
    {Q' : Except ε' α → Prop} (hok : ∀ a, Q (.ok a) → Q' (.ok a))
    (herror : ∀ e, Q (.error e) → Q' (.error (f e))) {p : Prog Op Res ε α}
    (h : p.Safe Pre Post Q) : (p.mapError f).Safe Pre Post Q' := by
  induction p with
  | ret a => exact hok a h
  | fail e => exact herror e h
  | call op k ih => exact ⟨h.1, fun r hr => ih r (h.2 r hr)⟩

/-- A program whose result is turned into another one. -/
theorem Safe.map {f : α → β} {Q : Except ε β → Prop} {p : Prog Op Res ε α}
    (h : p.Safe Pre Post fun r => Q (r.map f)) :
    (p >>= fun a => ret (f a)).Safe Pre Post Q := by
  induction p with
  | ret a => exact h
  | fail e => exact h
  | call op k ih => exact ⟨h.1, fun r hr => ih r (h.2 r hr)⟩

/-- Nothing is asked of a program and nothing of its end. -/
theorem safe_trivial (p : Prog Op Res ε α) :
    p.Safe (fun _ => True) Post fun _ => True := by
  induction p with
  | ret a => trivial
  | fail e => trivial
  | call op k ih => exact ⟨trivial, fun r _ => ih r⟩

/-- A sequence is safe when its first half ends where the second is. -/
theorem Safe.bind {Q : Except ε α → Prop} {Q' : Except ε β → Prop}
    {p : Prog Op Res ε α} {f : α → Prog Op Res ε β}
    (h : p.Safe Pre Post Q) (hfail : ∀ e, Q (.error e) → Q' (.error e))
    (hf : ∀ a, Q (.ok a) → (f a).Safe Pre Post Q') :
    (p >>= f).Safe Pre Post Q' := by
  induction p with
  | ret a => exact hf a h
  | fail e => exact hfail e h
  | call op k ih => exact ⟨h.1, fun r hr => ih r (h.2 r hr)⟩

/-- A failure that is a result is one the program may end in. -/
theorem Safe.attempt {ε' : Type} {Q : Except ε α → Prop}
    {p : Prog Op Res ε α} (h : p.Safe Pre Post Q) :
    (p.attempt : Prog Op Res ε' (Except ε α)).Safe Pre Post
      fun r => ∃ a, r = .ok a ∧ Q a := by
  induction p with
  | ret a => exact ⟨_, rfl, h⟩
  | fail e => exact ⟨_, rfl, h⟩
  | call op k ih => exact ⟨h.1, fun r hr => ih r (h.2 r hr)⟩

/-- A program is safe over other operations when each of its own is done
as its contract says. -/
theorem Safe.carriedBy {Op' : Type} {Res' : Op' → Type} {Pre' : Op' → Prop}
    {Post' : (op : Op') → Res' op → Prop}
    {impl : (op : Op) → Prog Op' Res' ε (Res op)}
    (himpl : ∀ op, Pre op →
      (impl op).Safe Pre' Post' fun r => ∃ a, r = .ok a ∧ Post op a)
    {Q : Except ε α → Prop} {p : Prog Op Res ε α} (h : p.Safe Pre Post Q) :
    (p.carriedBy impl).Safe Pre' Post' Q := by
  induction p with
  | ret a => exact h
  | fail e => exact h
  | call op k ih =>
      refine Safe.bind (himpl op h.1) ?_ ?_
      · intro e herror
        obtain ⟨a, ha, -⟩ := herror
        cases ha
      · intro r hr
        obtain ⟨a, ha, hpost⟩ := hr
        cases ha
        exact ih r (h.2 r hpost)

end

/-- An operation together with its result. -/
abbrev Performed (Op : Type) (Res : Op → Type) : Type := (op : Op) × Res op

/-- Every path of the program, from any point on, satisfies `P`. -/
def Always (P : List (Performed Op Res) → Prop) : Prog Op Res ε α → Prop
  | ret _ => P []
  | fail _ => P []
  | call op k => P [] ∧ ∀ r, (k r).Always fun h => P (⟨op, r⟩ :: h)

/-- Wherever the program ends, with results within `Post`, its path and
its end are as `P` says. -/
def Ends (Post : (op : Op) → Res op → Prop)
    (P : List (Performed Op Res) → Except ε α → Prop) : Prog Op Res ε α → Prop
  | ret a => P [] (.ok a)
  | fail e => P [] (.error e)
  | call op k => ∀ r, Post op r → (k r).Ends Post fun h => P (⟨op, r⟩ :: h)

/-- A program that performs no operation. -/
def Quiet : Prog Op Res ε α → Prop
  | ret _ => True
  | fail _ => True
  | call _ _ => False

/-- Paths through a quiet first half are paths of what follows it. -/
theorem Quiet.always_bind {P : List (Performed Op Res) → Prop}
    {p : Prog Op Res ε α} {f : α → Prog Op Res ε β} (hp : p.Quiet)
    (hnil : P []) (hf : ∀ a, (f a).Always P) : (p >>= f).Always P := by
  cases p with
  | ret a => exact hf a
  | fail e => exact hnil
  | call op k => exact hp.elim

theorem Quiet.bind {p : Prog Op Res ε α} {f : α → Prog Op Res ε β}
    (hp : p.Quiet) (hf : ∀ a, (f a).Quiet) : (p >>= f).Quiet := by
  cases p with
  | ret a => exact hf a
  | fail e => trivial
  | call op k => exact hp.elim

theorem Quiet.always {P : List (Performed Op Res) → Prop}
    {p : Prog Op Res ε α} (hp : p.Quiet) (hnil : P []) : p.Always P := by
  cases p with
  | ret a => exact hnil
  | fail e => exact hnil
  | call op k => exact hp.elim

theorem Quiet.ends {Post : (op : Op) → Res op → Prop}
    {P : List (Performed Op Res) → Except ε α → Prop} {p : Prog Op Res ε α}
    (hp : p.Quiet) (hend : ∀ r, P [] r) : p.Ends Post P := by
  cases p with
  | ret a => exact hend _
  | fail e => exact hend _
  | call op k => exact hp.elim

end Prog

-- ================================================================= runs

section
variable {Op : Type} {Res : Op → Type} {ε α σ : Type}

/-- A shared state and the programs on it. -/
structure Config (Op : Type) (Res : Op → Type) (ε α σ : Type) where
  shared : σ
  threads : List (Prog Op Res ε α)

/-- One operation of one program, with the shared state around it. -/
structure Event (Op : Type) (Res : Op → Type) (σ : Type) where
  thread : Nat
  op : Op
  res : Res op
  before : σ
  after : σ

variable (exec : σ → (op : Op) → Res op → σ → Prop)

/-- `c` goes to `c'` by `e`: one program performs its next operation. -/
structure Step (c : Config Op Res ε α σ) (e : Event Op Res σ)
    (c' : Config Op Res ε α σ) : Prop where
  before_eq : e.before = c.shared
  after_eq : e.after = c'.shared
  effect : exec c.shared e.op e.res c'.shared
  threads_eq : ∃ k, c.threads[e.thread]? = some (.call e.op k)
    ∧ c'.threads = c.threads.set e.thread (k e.res)

/-- A program about to perform `op` can take that step. -/
theorem step_of_call {exec : σ → (op : Op) → Res op → σ → Prop}
    {c : Config Op Res ε α σ} (i : Nat) {op : Op}
    {k : Res op → Prog Op Res ε α} {r : Res op} {s' : σ}
    (hget : c.threads[i]? = some (.call op k))
    (heffect : exec c.shared op r s') :
    Step exec c ⟨i, op, r, c.shared, s'⟩ ⟨s', c.threads.set i (k r)⟩ :=
  ⟨rfl, rfl, heffect, k, hget, rfl⟩

inductive Run : Config Op Res ε α σ → List (Event Op Res σ) →
    Config Op Res ε α σ → Prop
  | nil (c : Config Op Res ε α σ) : Run c [] c
  | cons {c c' c'' : Config Op Res ε α σ} {e : Event Op Res σ}
      {es : List (Event Op Res σ)} (step : Step exec c e c')
      (rest : Run c' es c'') : Run c (e :: es) c''

/-- A state reached from `c'` is reached from `c` by one step more. -/
theorem exists_run_of_step {exec : σ → (op : Op) → Res op → σ → Prop}
    {P : Config Op Res ε α σ → Prop} {c c' : Config Op Res ε α σ}
    {e : Event Op Res σ} (step : Step exec c e c')
    (h : ∃ es final, Run exec c' es final ∧ P final) :
    ∃ es final, Run exec c es final ∧ P final := by
  obtain ⟨es, final, hrun, hP⟩ := h
  exact ⟨e :: es, final, Run.cons step hrun, hP⟩

/-- The program has ended. -/
def Prog.Ended : Prog Op Res ε α → Prop
  | .ret _ => True
  | .fail _ => True
  | .call _ _ => False

/-- Where no operation can block, a program can be run to its end. -/
theorem exists_run_to_end {exec : σ → (op : Op) → Res op → σ → Prop}
    (htotal : ∀ s op, ∃ r s', exec s op r s') {c : Config Op Res ε α σ}
    {i : Nat} {p : Prog Op Res ε α} (hget : c.threads[i]? = some p) :
    ∃ es final, Run exec c es final
      ∧ ∃ q, final.threads[i]? = some q ∧ q.Ended := by
  induction p generalizing c with
  | ret a => exact ⟨[], c, Run.nil c, .ret a, hget, trivial⟩
  | fail e => exact ⟨[], c, Run.nil c, .fail e, hget, trivial⟩
  | call op k ih =>
      obtain ⟨r, s', heffect⟩ := htotal c.shared op
      have hlt : i < c.threads.length := (List.getElem?_eq_some_iff.mp hget).1
      apply exists_run_of_step (step_of_call i hget heffect)
      apply ih r
      exact List.getElem?_set_self hlt

/-- Each operation keeps the invariant and meets its postcondition,
whichever program performs it. -/
def Contract (I : σ → Prop) (Pre : Nat → Op → Prop)
    (Post : (op : Op) → Res op → Prop) : Prop :=
  ∀ s i op r s', I s → Pre i op → exec s op r s' → I s' ∧ Post op r

/-- The invariant holds and every program is safe. -/
def AllSafe (I : σ → Prop) (Pre : Nat → Op → Prop)
    (Post : (op : Op) → Res op → Prop) (Q : Nat → Except ε α → Prop)
    (c : Config Op Res ε α σ) : Prop :=
  I c.shared ∧ ∀ (i : Nat) (p : Prog Op Res ε α),
    c.threads[i]? = some p → p.Safe (Pre i) Post (Q i)

variable {exec} {I : σ → Prop} {Pre : Nat → Op → Prop}
  {Post : (op : Op) → Res op → Prop} {Q : Nat → Except ε α → Prop}
  {c c' : Config Op Res ε α σ}

/-- One step keeps every program safe, and was within its precondition. -/
theorem safe_of_step (hcontract : Contract exec I Pre Post)
    (hsafe : AllSafe I Pre Post Q c) {e : Event Op Res σ}
    (h : Step exec c e c') :
    AllSafe I Pre Post Q c' ∧ Pre e.thread e.op ∧ Post e.op e.res := by
  obtain ⟨k, hget, hset⟩ := h.threads_eq
  obtain ⟨hpre, hk⟩ := hsafe.2 _ _ hget
  obtain ⟨hinv, hpost⟩ := hcontract _ _ _ _ _ hsafe.1 hpre h.effect
  refine ⟨⟨hinv, ?_⟩, hpre, hpost⟩
  intro i p hp
  rw [hset] at hp
  by_cases hi : e.thread = i
  · subst hi
    have hlt : e.thread < c.threads.length :=
      (List.getElem?_eq_some_iff.mp hget).1
    rw [List.getElem?_set_self hlt] at hp
    cases hp
    exact hk _ hpost
  · rw [List.getElem?_set_ne hi] at hp
    exact hsafe.2 _ _ hp

/-- So does every run, and each of its events was within its contract. -/
theorem safe_of_run (hcontract : Contract exec I Pre Post)
    (hsafe : AllSafe I Pre Post Q c) {es : List (Event Op Res σ)}
    (h : Run exec c es c') :
    AllSafe I Pre Post Q c'
      ∧ ∀ e ∈ es, Pre e.thread e.op ∧ Post e.op e.res := by
  induction h with
  | nil c => exact ⟨hsafe, fun e he => by cases he⟩
  | cons step rest ih =>
      obtain ⟨hstep, hevent⟩ := safe_of_step hcontract hsafe step
      obtain ⟨hend, hevents⟩ := ih hstep
      refine ⟨hend, fun e he => ?_⟩
      rcases List.mem_cons.mp he with rfl | he
      · exact hevent
      · exact hevents e he

/-- No program appears or disappears. -/
theorem length_of_run {es : List (Event Op Res σ)} (h : Run exec c es c') :
    c'.threads.length = c.threads.length := by
  induction h with
  | nil c => rfl
  | cons step rest ih =>
      obtain ⟨k, -, hset⟩ := step.threads_eq
      rw [ih, hset, List.length_set]

/-- A run is a run up to any of its events, that event's step, and a
run behind it. -/
theorem split_of_run {past future : List (Event Op Res σ)}
    {e : Event Op Res σ} (h : Run exec c (past ++ e :: future) c') :
    ∃ c₁ c₂, Run exec c past c₁ ∧ Step exec c₁ e c₂ ∧ Run exec c₂ future c' := by
  induction past generalizing c with
  | nil =>
      cases h with
      | cons step rest => exact ⟨c, _, Run.nil c, step, rest⟩
  | cons d past ih =>
      cases h with
      | cons step rest =>
          obtain ⟨c₁, c₂, hpast, hstep, hfuture⟩ := ih rest
          exact ⟨c₁, c₂, Run.cons step hpast, hstep, hfuture⟩

/-- What every event did to the shared state. -/
theorem effect_of_run {es : List (Event Op Res σ)} (h : Run exec c es c') :
    ∀ e ∈ es, exec e.before e.op e.res e.after := by
  induction h with
  | nil c => exact fun e he => by cases he
  | cons step rest ih =>
      intro e he
      rcases List.mem_cons.mp he with rfl | he
      · rw [step.before_eq, step.after_eq]
        exact step.effect
      · exact ih e he

/-- The operations of one program in a run, in order. -/
def ownEvents (i : Nat) (es : List (Event Op Res σ)) :
    List (Prog.Performed Op Res) :=
  (es.filter fun e => e.thread = i).map fun e => ⟨e.op, e.res⟩

/-- A program's events in a run are one of its paths. -/
theorem always_of_run {i : Nat} {p : Prog Op Res ε α}
    {P : List (Prog.Performed Op Res) → Prop}
    (hget : c.threads[i]? = some p) (hp : p.Always P)
    {es : List (Event Op Res σ)} (h : Run exec c es c') :
    P (ownEvents i es) := by
  induction h generalizing p P with
  | nil c =>
      cases p with
      | ret a => exact hp
      | fail e => exact hp
      | call op k => exact hp.1
  | @cons c c₁ c₂ e es step rest ih =>
      obtain ⟨k, hcall, hset⟩ := step.threads_eq
      by_cases hi : e.thread = i
      · have hown : ownEvents i (e :: es) = ⟨e.op, e.res⟩ :: ownEvents i es := by
          unfold ownEvents
          rw [List.filter_cons_of_pos (by simpa using hi), List.map_cons]
        rw [hi, hget] at hcall
        cases hcall
        have hlt : i < c.threads.length :=
          (List.getElem?_eq_some_iff.mp hget).1
        rw [hown]
        refine ih (p := k e.res) ?_ (hp.2 e.res)
        rw [hset, hi, List.getElem?_set_self hlt]
      · have hown : ownEvents i (e :: es) = ownEvents i es := by
          unfold ownEvents
          rw [List.filter_cons_of_neg (by simpa using hi)]
        rw [hown]
        refine ih (p := p) ?_ hp
        rw [hset, List.getElem?_set_ne hi, hget]

/-- A program that has ended has gone one of its paths to its end. -/
theorem ends_of_run {i : Nat} {p : Prog Op Res ε α}
    {Post : (op : Op) → Res op → Prop}
    {P : List (Prog.Performed Op Res) → Except ε α → Prop}
    (hget : c.threads[i]? = some p) (hp : p.Ends Post P)
    {es : List (Event Op Res σ)} (h : Run exec c es c')
    (hpost : ∀ e ∈ es, Post e.op e.res) {q : Prog Op Res ε α}
    (hend : c'.threads[i]? = some q) (hq : q.Ended) :
    ∃ r, P (ownEvents i es) r := by
  induction h generalizing p P with
  | nil c =>
      rw [hget] at hend
      cases hend
      cases q with
      | ret a => exact ⟨.ok a, hp⟩
      | fail e => exact ⟨.error e, hp⟩
      | call op k => exact hq.elim
  | @cons c c₁ c₂ e es step rest ih =>
      obtain ⟨k, hcall, hset⟩ := step.threads_eq
      have hrest : ∀ e ∈ es, Post e.op e.res := fun e he =>
        hpost e (List.mem_cons_of_mem _ he)
      by_cases hi : e.thread = i
      · have hown : ownEvents i (e :: es) = ⟨e.op, e.res⟩ :: ownEvents i es := by
          unfold ownEvents
          rw [List.filter_cons_of_pos (by simpa using hi), List.map_cons]
        rw [hi, hget] at hcall
        cases hcall
        have hlt : i < c.threads.length :=
          (List.getElem?_eq_some_iff.mp hget).1
        have hnext : c₁.threads[i]? = some (k e.res) := by
          rw [hset, hi, List.getElem?_set_self hlt]
        obtain ⟨r, hr⟩ := ih hnext (hp e.res (hpost e List.mem_cons_self)) hrest
          hend
        rw [hown]
        exact ⟨r, hr⟩
      · have hown : ownEvents i (e :: es) = ownEvents i es := by
          unfold ownEvents
          rw [List.filter_cons_of_neg (by simpa using hi)]
        have hnext : c₁.threads[i]? = some p := by
          rw [hset, List.getElem?_set_ne hi, hget]
        rw [hown]
        exact ih hnext hp hrest hend

/-- What the events of a run weigh together. -/
def total (w : Prog.Performed Op Res → Nat) (es : List (Event Op Res σ)) :
    Nat :=
  (es.map fun e => w ⟨e.op, e.res⟩).sum

/-- What the events of one program weigh. -/
def ownTotal (w : Prog.Performed Op Res → Nat) (i : Nat)
    (es : List (Event Op Res σ)) : Nat :=
  ((ownEvents i es).map w).sum

theorem ownTotal_cons (w : Prog.Performed Op Res → Nat) (i : Nat)
    (e : Event Op Res σ) (es : List (Event Op Res σ)) :
    ownTotal w i (e :: es)
      = (if e.thread = i then w ⟨e.op, e.res⟩ else 0) + ownTotal w i es := by
  unfold ownTotal ownEvents
  by_cases hi : e.thread = i
  · rw [if_pos hi, List.filter_cons_of_pos (by simpa using hi), List.map_cons,
      List.map_cons, List.sum_cons]
  · rw [if_neg hi, List.filter_cons_of_neg (by simpa using hi), Nat.zero_add]

theorem sum_range_single (a : Nat) {i n : Nat} (h : i < n) :
    ((List.range n).map fun j => if i = j then a else 0).sum = a := by
  induction n with
  | zero => omega
  | succ n ih =>
      rw [List.range_succ, List.map_append, List.sum_append, List.map_singleton,
        List.sum_singleton]
      by_cases hi : i = n
      · have hnone : ∀ x ∈ (List.range n).map fun j => if i = j then a else 0,
            x = 0 := by
          intro x hx
          obtain ⟨j, hj, rfl⟩ := List.mem_map.mp hx
          rw [List.mem_range] at hj
          exact if_neg (by omega)
        rw [List.sum_eq_zero hnone, if_pos hi, Nat.zero_add]
      · rw [ih (by omega), if_neg hi, Nat.add_zero]

/-- The programs' events are all there are. -/
theorem total_eq_sum {es : List (Event Op Res σ)} (h : Run exec c es c')
    (w : Prog.Performed Op Res → Nat) :
    total w es
      = ((List.range c.threads.length).map fun i => ownTotal w i es).sum := by
  induction h with
  | nil c =>
      symm
      apply List.sum_eq_zero
      intro x hx
      obtain ⟨i, -, rfl⟩ := List.mem_map.mp hx
      rfl
  | @cons c c₁ c₂ e es step rest ih =>
      obtain ⟨k, hcall, hset⟩ := step.threads_eq
      have hlt : e.thread < c.threads.length :=
        (List.getElem?_eq_some_iff.mp hcall).1
      have hlength : c₁.threads.length = c.threads.length := by
        rw [hset, List.length_set]
      show w ⟨e.op, e.res⟩ + total w es = _
      rw [ih, hlength]
      simp only [ownTotal_cons, List.sum_map_add, sum_range_single _ hlt]

variable {β : Type} {xs : List β} {es : List (Event Op Res σ)}
  {w : Prog.Performed Op Res → Nat} {f : β → Nat}

theorem map_range_eq {g : Nat → Nat}
    (h : ∀ (i : Nat) x, xs[i]? = some x → g i = f x) :
    (List.range xs.length).map g = xs.map f := by
  apply List.ext_getElem?
  intro i
  rw [List.getElem?_map, List.getElem?_map]
  by_cases hi : i < xs.length
  · rw [List.getElem?_range hi, List.getElem?_eq_getElem hi]
    exact congrArg some (h i _ (List.getElem?_eq_getElem hi))
  · rw [List.getElem?_eq_none (by simpa using hi),
      List.getElem?_eq_none (by simpa using hi)]
    rfl

/-- Programs that weigh what is said weigh together what is said. -/
theorem total_eq_of_run (h : Run exec c es c')
    (hlength : c.threads.length = xs.length)
    (hown : ∀ (i : Nat) x, xs[i]? = some x → ownTotal w i es = f x) :
    total w es = (xs.map f).sum := by
  rw [total_eq_sum h, hlength, map_range_eq hown]

theorem total_le_of_run (h : Run exec c es c')
    (hlength : c.threads.length = xs.length)
    (hown : ∀ (i : Nat) x, xs[i]? = some x → ownTotal w i es ≤ f x) :
    total w es ≤ (xs.map f).sum := by
  have hlimits : (List.range xs.length).map
      (fun i => (xs[i]?.map f).getD 0) = xs.map f := by
    apply map_range_eq
    intro i x hx
    rw [hx]
    rfl
  rw [total_eq_sum h, hlength, ← hlimits]
  apply List.sum_le_sum
  intro i hi
  rw [List.mem_range] at hi
  rw [List.getElem?_eq_getElem hi]
  exact hown i _ (List.getElem?_eq_getElem hi)

end

end PaimonFtindex.Lib
