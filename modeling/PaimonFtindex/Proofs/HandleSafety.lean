/-
No handle is used after it was freed.

The native side trusts every address it is given, so it is the wrappers
that keep the handles safe, with a flag or a null. What a call on a
wrapper sees is its grip on it: the fields, the address of the live
handle made for it, and whether the call is inside. Alone, every call
keeps to its grip (`follows_session`); the users' discipline keeps the
grips apart, so every interleaving does (`handles_safe`), and when no
call is under way the live handles are those that the open wrappers
hold.

The discipline cannot be left out: two calls of `close` at once free the
handle twice (`close_twice_at_once`).
-/
import PaimonFtindex.Lib.Views
import PaimonFtindex.Model.Handles

namespace PaimonFtindex.Proofs

open Model Lib

-- ================================================================ the heap

/-- The live handle at `p` was made for the wrapper `o`. -/
def Owns (w : World) (o : Nat) (p : UInt64) : Prop :=
  ∃ object, w.heap.lookup p = some object ∧ object.owner = o

/-- The call has borrowed the handle at `p`. -/
def Inside (w : World) (call : Nat) (p : UInt64) : Prop :=
  ∃ object, w.heap.lookup p = some object ∧ call ∈ object.inside

/-- The address an open wrapper holds. -/
def Holding (fields : Wrapper) (p : UInt64) : Prop :=
  fields.closed = false ∧ fields.ptr = some p ∧ p ≠ 0

/-- A handle was made for one wrapper. -/
theorem Owns.owner_eq {w : World} {o o' : Nat} {p : UInt64} (h : Owns w o p)
    (h' : Owns w o' p) : o = o' := by
  obtain ⟨object, hlookup, rfl⟩ := h
  obtain ⟨object', hlookup', rfl⟩ := h'
  rw [hlookup] at hlookup'
  cases hlookup'
  rfl

section
variable {w : World} {kind : HandleKind} {p : UInt64}

theorem owns_open {owner : Nat} (hfree : p ∉ w.heap) (o : Nat) (p' : UInt64) :
    Owns (w.open kind owner p) o p' ↔ Owns w o p' ∨ (o = owner ∧ p' = p) := by
  unfold Owns World.open
  dsimp only
  by_cases hp : p' = p
  · subst hp
    rw [AList.lookup_insert, AList.lookup_eq_none.mpr hfree]
    simp [eq_comm]
  · rw [AList.lookup_insert_ne hp]
    simp [hp]

/-- A new handle has nobody inside. -/
theorem inside_open {owner : Nat} (hfree : p ∉ w.heap) (call : Nat)
    (p' : UInt64) :
    Inside (w.open kind owner p) call p' ↔ Inside w call p' := by
  unfold Inside World.open
  dsimp only
  by_cases hp : p' = p
  · subst hp
    rw [AList.lookup_insert, AList.lookup_eq_none.mpr hfree]
    simp
  · rw [AList.lookup_insert_ne hp]

variable {object : NativeObject} {call : Nat}

/-- Entering a live handle of its kind: the call is inside, and nothing
else changes. -/
theorem enter_of_lookup (hlookup : w.heap.lookup p = some object)
    (hkind : object.kind = kind) (halone : kind = .writer → object.inside = []) :
    w.enter kind p call = { w with
      heap := w.heap.insert p
        { object with inside := call :: object.inside } } := by
  unfold World.enter
  rw [hlookup]
  dsimp only
  rw [if_pos ⟨hkind, halone⟩]

theorem leave_eq (hlookup : w.heap.lookup p = some object) :
    w.leave p call = { w with
      heap := w.heap.insert p
        { object with inside := object.inside.filter (· ≠ call) } } := by
  unfold World.leave
  rw [hlookup]

theorem free_eq (hlookup : w.heap.lookup p = some object)
    (hkind : object.kind = kind) (halone : object.inside = []) :
    w.free kind p = { w with heap := w.heap.erase p } := by
  unfold World.free
  rw [hlookup]
  dsimp only
  rw [if_pos ⟨hkind, halone⟩]

/-- Another list of borrows leaves the owners alone. -/
theorem owns_insert (hlookup : w.heap.lookup p = some object)
    (inside : List Nat) (o : Nat) (p' : UInt64) :
    Owns { w with heap := w.heap.insert p { object with inside } } o p'
      ↔ Owns w o p' := by
  unfold Owns
  dsimp only
  by_cases hp : p' = p
  · subst hp
    rw [AList.lookup_insert, hlookup]
    simp
  · rw [AList.lookup_insert_ne hp]

theorem inside_insert (hlookup : w.heap.lookup p = some object)
    (inside : List Nat) (c : Nat) (p' : UInt64) :
    Inside { w with heap := w.heap.insert p { object with inside } } c p'
      ↔ if p' = p then c ∈ inside else Inside w c p' := by
  unfold Inside
  dsimp only
  by_cases hp : p' = p
  · subst hp
    rw [AList.lookup_insert, if_pos rfl]
    simp
  · rw [AList.lookup_insert_ne hp, if_neg hp]

theorem owns_erase (o : Nat) (p' : UInt64) :
    Owns { w with heap := w.heap.erase p } o p' ↔ Owns w o p' ∧ p' ≠ p := by
  unfold Owns
  dsimp only
  by_cases hp : p' = p
  · subst hp
    rw [AList.lookup_erase]
    simp
  · rw [AList.lookup_erase_ne hp]
    simp [hp]

theorem inside_erase (c : Nat) (p' : UInt64) :
    Inside { w with heap := w.heap.erase p } c p' ↔ Inside w c p' ∧ p' ≠ p := by
  unfold Inside
  dsimp only
  by_cases hp : p' = p
  · subst hp
    rw [AList.lookup_erase]
    simp
  · rw [AList.lookup_erase_ne hp]
    simp [hp]

end

-- =============================================================== the views

/-- A call's grip on its wrapper. -/
structure Grip where
  wrapper : Nat
  mode : Mode
  fields : Wrapper
  live : Option UInt64
  inside : Bool

/-- The wrapper holds the live handle made for it, if there is one. -/
def Grip.Coherent (g : Grip) : Prop :=
  ∀ p, g.live = some p ↔ Holding g.fields p

/-- What a call sees: nothing before it begins and after it has
finished, and its grip in between. -/
def SeesGrip (i : Nat) (w : World) : Option Grip → Prop
  | none => (∀ u ∈ w.users, u.call ≠ i) ∧ ∀ p, ¬ Inside w i p
  | some g =>
      ⟨i, g.wrapper, g.mode⟩ ∈ w.users
        ∧ (∀ u ∈ w.users, u.call = i → u = ⟨i, g.wrapper, g.mode⟩)
        ∧ w.wrappers g.wrapper = g.fields
        ∧ (∀ p, Owns w g.wrapper p ↔ g.live = some p)
        ∧ ∀ p, Inside w i p ↔ g.inside = true ∧ g.live = some p

section
variable (binding : Binding) (kindOf : Nat → HandleKind)

/-- What a call may do with its grip. -/
inductive LegalStep (i : Nat) : Option Grip → HandleOp → Prop
  | begin (user : User) (h : user.call = i) : LegalStep i none (.begin user)
  | finish (g : Grip) (hinside : g.inside = false) (h : g.Coherent) :
      LegalStep i (some g) (.finish i)
  | getClosed (g : Grip) : LegalStep i (some g) (.getClosed g.wrapper)
  | setClosed (g : Grip) (closed : Bool) (h : g.mode ≠ .shared)
      (hbinding : binding = .python) :
      LegalStep i (some g) (.setClosed g.wrapper closed)
  | getPtr (g : Grip) : LegalStep i (some g) (.getPtr g.wrapper)
  | setPtr (g : Grip) (p : UInt64) (h : g.mode ≠ .shared) :
      LegalStep i (some g) (.setPtr g.wrapper p)
  | openNew (g : Grip) (h : g.mode ≠ .shared) (hlive : g.live = none)
      (hinside : g.inside = false) :
      LegalStep i (some g) (.open (kindOf g.wrapper) g.wrapper)
  | enter (g : Grip) (p : UInt64) (hlive : p ≠ 0 → g.live = some p)
      (hinside : g.inside = false)
      (h : kindOf g.wrapper = .writer → g.mode ≠ .shared) :
      LegalStep i (some g) (.enter (kindOf g.wrapper) p i)
  | leave (g : Grip) (p : UInt64) (hlive : g.live = some p)
      (hinside : g.inside = true) : LegalStep i (some g) (.leave p i)
  | free (g : Grip) (p : UInt64) (hlive : p ≠ 0 → g.live = some p)
      (hinside : g.inside = false) (h : g.mode ≠ .shared) :
      LegalStep i (some g) (.free (kindOf g.wrapper) p)

/-- What that does to its grip. -/
inductive LocalStep (i : Nat) :
    Option Grip → (op : HandleOp) → op.Res → Option Grip → Prop
  | begin (user : User) (g : Grip) (hwrapper : g.wrapper = user.wrapper)
      (hmode : g.mode = user.mode) (hinside : g.inside = false)
      (hcoherent : g.Coherent)
      (hfresh : g.mode = .create → g.fields = {} ∧ g.live = none)
      (hflag : binding = .java → g.fields.closed = false) :
      LocalStep i none (.begin user) () (some g)
  | finish (g : Grip) : LocalStep i (some g) (.finish i) () none
  | getClosed (g : Grip) :
      LocalStep i (some g) (.getClosed g.wrapper) g.fields.closed (some g)
  | setClosed (g : Grip) (closed : Bool) :
      LocalStep i (some g) (.setClosed g.wrapper closed) ()
        (some { g with fields := { g.fields with closed } })
  | getPtr (g : Grip) :
      LocalStep i (some g) (.getPtr g.wrapper) g.fields.ptr (some g)
  | setPtr (g : Grip) (p : UInt64) :
      LocalStep i (some g) (.setPtr g.wrapper p) ()
        (some { g with fields := { g.fields with ptr := some p } })
  | openFailed (g : Grip) :
      LocalStep i (some g) (.open (kindOf g.wrapper) g.wrapper) none (some g)
  | opened (g : Grip) (p : UInt64) (hnull : p ≠ 0) :
      LocalStep i (some g) (.open (kindOf g.wrapper) g.wrapper) (some p)
        (some { g with live := some p })
  | enterNull (g : Grip) :
      LocalStep i (some g) (.enter (kindOf g.wrapper) 0 i) false (some g)
  | enter (g : Grip) (p : UInt64) (hlive : g.live = some p) :
      LocalStep i (some g) (.enter (kindOf g.wrapper) p i) true
        (some { g with inside := true })
  | leave (g : Grip) (p : UInt64) :
      LocalStep i (some g) (.leave p i) () (some { g with inside := false })
  | freeNull (g : Grip) :
      LocalStep i (some g) (.free (kindOf g.wrapper) 0) () (some g)
  | free (g : Grip) (p : UInt64) (hnull : p ≠ 0) :
      LocalStep i (some g) (.free (kindOf g.wrapper) p) ()
        (some { g with live := none })

/-- What holds between any two steps. -/
structure SoundWorld (w : World) : Prop where
  defined : w.undefined = false
  flag : binding = .java → ∀ o, (w.wrappers o).closed = false
  typed : ∀ p object, w.heap.lookup p = some object →
    object.kind = kindOf object.owner ∧ p ≠ 0
  unique : ∀ o p p', Owns w o p → Owns w o p' → p = p'
  insiders : ∀ call p, Inside w call p →
    ∃ u ∈ w.users, u.call = call ∧ Owns w u.wrapper p
  apart : ∀ u ∈ w.users, ∀ v ∈ w.users, u.wrapper = v.wrapper →
    u = v ∨ u.mode = .shared ∧ v.mode = .shared
  fresh : ∀ o, o ∉ w.created → w.wrappers o = {} ∧ ∀ p, ¬ Owns w o p
  begun : ∀ u ∈ w.users, u.wrapper ∈ w.created
  settled : ∀ o, (∀ u ∈ w.users, u.wrapper = o → u.mode = .shared) →
    ∀ p, Owns w o p ↔ Holding (w.wrappers o) p

end

theorem soundWorld_empty (binding : Binding) (kindOf : Nat → HandleKind) :
    SoundWorld binding kindOf {} := by
  have hnone : ∀ p : UInt64, AList.lookup p
      (∅ : AList (fun _ : UInt64 => NativeObject)) = none := fun _ => rfl
  have howns : ∀ o p, ¬ Owns ({} : World) o p := by
    rintro o p ⟨object, hlookup, -⟩
    cases (hnone p).symm.trans hlookup
  refine ⟨rfl, fun _ _ => rfl, ?_, ?_, ?_, ?_, ?_, ?_, ?_⟩
  · intro p object h
    cases (hnone p).symm.trans h
  · intro o p p' h
    exact absurd h (howns o p)
  · rintro call p ⟨object, hlookup, -⟩
    cases (hnone p).symm.trans hlookup
  · intro u hu
    cases hu
  · intro o _
    exact ⟨rfl, howns o⟩
  · intro u hu
    cases hu
  · intro o _ p
    refine ⟨fun h => absurd h (howns o p), ?_⟩
    rintro ⟨-, h, -⟩
    cases h

-- ============================================================ the own steps

section
variable {binding : Binding} {kindOf : Nat → HandleKind} {w : World}
  {i : Nat} {g : Grip}

/-- A wrapper that is not shared has no other user. -/
theorem user_eq_of_alone (hw : SoundWorld binding kindOf w)
    (hg : SeesGrip i w (some g)) (hmode : g.mode ≠ .shared) {u : User}
    (hu : u ∈ w.users) (hwrapper : u.wrapper = g.wrapper) :
    u = ⟨i, g.wrapper, g.mode⟩ := by
  rcases hw.apart u hu _ hg.1 hwrapper with heq | ⟨-, hshared⟩
  · exact heq
  · exact absurd hshared hmode

/-- The live handle of a grip. -/
theorem lookup_of_live (hw : SoundWorld binding kindOf w)
    (hg : SeesGrip i w (some g)) {p : UInt64} (hlive : g.live = some p) :
    ∃ object, w.heap.lookup p = some object ∧ object.owner = g.wrapper
      ∧ object.kind = kindOf g.wrapper := by
  obtain ⟨object, hlookup, howner⟩ := (hg.2.2.2.1 p).mpr hlive
  refine ⟨object, hlookup, howner, ?_⟩
  rw [← howner]
  exact (hw.typed p object hlookup).1

/-- Nobody is inside a handle whose only user is outside. -/
theorem inside_eq_nil (hw : SoundWorld binding kindOf w) (hg : SeesGrip i w (some g))
    (hmode : g.mode ≠ .shared) (hinside : g.inside = false) {p : UInt64}
    {object : NativeObject} (hlookup : w.heap.lookup p = some object)
    (howner : object.owner = g.wrapper) : object.inside = [] := by
  rw [List.eq_nil_iff_forall_not_mem]
  intro call hcall
  obtain ⟨u, hu, hcallEq, howns⟩ := hw.insiders call p ⟨object, hlookup, hcall⟩
  have hwrapper : u.wrapper = g.wrapper :=
    howns.owner_eq ⟨object, hlookup, howner⟩
  have heq := user_eq_of_alone hw hg hmode hu hwrapper
  have hself : call = i := by
    rw [← hcallEq, heq]
  have := (hg.2.2.2.2 p).mp (hself ▸ ⟨object, hlookup, hcall⟩)
  rw [hinside] at this
  cases this.1

/-- Beginning keeps the world sound; the call holds no handle yet. -/
theorem own_begin (hw : SoundWorld binding kindOf w) {user : User}
    (hg : SeesGrip user.call w none) (hadmits : w.Admits user) :
    SoundWorld binding kindOf (w.begin user)
      ∧ ∃ v, LocalStep binding kindOf user.call none (.begin user) () v
        ∧ SeesGrip user.call (w.begin user) v := by
  obtain ⟨hcreated, halone⟩ := hadmits
  obtain ⟨hnone, houtside⟩ := hg
  have hsound : SoundWorld binding kindOf (w.begin user) := by
    refine ⟨hw.defined, hw.flag, hw.typed, hw.unique, ?_, ?_, ?_, ?_, ?_⟩
    · intro call p hinside
      obtain ⟨u, hu, hcall⟩ := hw.insiders call p hinside
      exact ⟨u, List.mem_cons_of_mem _ hu, hcall⟩
    · intro u hu v hv hwrapper
      rcases List.mem_cons.mp hu with rfl | hold
      · rcases List.mem_cons.mp hv with rfl | hold'
        · exact .inl rfl
        · obtain ⟨hother, hself⟩ := halone v hold' hwrapper.symm
          exact .inr ⟨hself, hother⟩
      · rcases List.mem_cons.mp hv with rfl | hold'
        · exact .inr (halone u hold hwrapper)
        · exact hw.apart u hold v hold' hwrapper
    · intro o ho
      apply hw.fresh
      intro hmem
      apply ho
      show o ∈ if user.mode = .create then user.wrapper :: w.created
        else w.created
      split
      · exact List.mem_cons_of_mem _ hmem
      · exact hmem
    · intro u hu
      show u.wrapper ∈ if user.mode = .create then user.wrapper :: w.created
        else w.created
      rcases List.mem_cons.mp hu with rfl | hu
      · split
        · exact List.mem_cons_self
        · rename_i hmode
          exact hcreated.mpr hmode
      · split
        · exact List.mem_cons_of_mem _ (hw.begun u hu)
        · exact hw.begun u hu
    · intro o hshared
      exact hw.settled o fun u hu => hshared u (List.mem_cons_of_mem _ hu)
  -- before it begins, its wrapper has at most users that only read
  have hsettled : ∀ p, Owns w user.wrapper p
      ↔ Holding (w.wrappers user.wrapper) p :=
    hw.settled _ fun u hu hwrapper => (halone u hu hwrapper).1
  have hlive : ∃ live : Option UInt64,
      ∀ p, Owns w user.wrapper p ↔ live = some p := by
    by_cases howns : ∃ p, Owns w user.wrapper p
    · obtain ⟨p, hp⟩ := howns
      refine ⟨some p, fun p' => ⟨fun hp' => ?_, ?_⟩⟩
      · rw [hw.unique _ p p' hp hp']
      · rintro heq
        cases heq
        exact hp
    · refine ⟨none, fun p => ⟨fun hp => absurd ⟨p, hp⟩ howns, ?_⟩⟩
      rintro ⟨⟩
  obtain ⟨live, hlive⟩ := hlive
  refine ⟨hsound, some ⟨user.wrapper, user.mode, w.wrappers user.wrapper, live,
    false⟩, .begin user _ rfl rfl rfl ?_ ?_ ?_, List.mem_cons_self, ?_, rfl,
    hlive, ?_⟩
  · intro p
    rw [← hlive, hsettled]
  · intro hmode
    have hfresh : user.wrapper ∉ w.created := by
      rw [hcreated]
      exact not_not.mpr hmode
    obtain ⟨hfields, hnoOwner⟩ := hw.fresh _ hfresh
    refine ⟨hfields, ?_⟩
    cases hcase : live with
    | none => rfl
    | some p => exact absurd ((hlive p).mpr hcase) (hnoOwner p)
  · exact fun hjava => hw.flag hjava _
  · intro u hu hcall
    rcases List.mem_cons.mp hu with rfl | hu
    · rfl
    · exact absurd hcall (hnone u hu)
  · intro p
    refine ⟨fun h => absurd h (houtside p), ?_⟩
    rintro ⟨⟨⟩, -⟩

/-- So does finishing, once the call has left its handle. -/
theorem own_finish (hw : SoundWorld binding kindOf w) (hg : SeesGrip i w (some g))
    (hinside : g.inside = false) (hcoherent : g.Coherent) :
    SoundWorld binding kindOf (w.finish i) ∧ SeesGrip i (w.finish i) none := by
  have hmem : ∀ {u}, u ∈ (w.finish i).users ↔ u ∈ w.users ∧ u.call ≠ i := by
    intro u
    unfold World.finish
    rw [List.mem_filter, decide_eq_true_iff]
  have houtside : ∀ p, ¬ Inside w i p := by
    intro p h
    have := (hg.2.2.2.2 p).mp h
    rw [hinside] at this
    cases this.1
  refine ⟨⟨hw.defined, hw.flag, hw.typed, hw.unique, ?_, ?_, hw.fresh, ?_, ?_⟩, ?_,
    houtside⟩
  · intro call p h
    obtain ⟨u, hu, hcall, howns⟩ := hw.insiders call p h
    refine ⟨u, hmem.mpr ⟨hu, ?_⟩, hcall, howns⟩
    rintro hself
    rw [← hcall, hself] at h
    exact houtside p h
  · intro u hu v hv
    exact hw.apart u (hmem.mp hu).1 v (hmem.mp hv).1
  · intro u hu
    exact hw.begun u (hmem.mp hu).1
  · intro o hshared p
    by_cases ho : o = g.wrapper
    · subst ho
      show Owns w _ p ↔ Holding (w.wrappers _) p
      rw [hg.2.2.2.1, hg.2.2.1]
      exact hcoherent p
    · refine hw.settled o (fun u hu hwrapper => ?_) p
      refine hshared u (hmem.mpr ⟨hu, ?_⟩) hwrapper
      intro hcall
      rw [hg.2.1 u hu hcall] at hwrapper
      exact ho hwrapper.symm
  · intro u hu
    exact (hmem.mp hu).2

/-- Writing a field of the wrapper. -/
theorem own_set (hw : SoundWorld binding kindOf w) (hg : SeesGrip i w (some g))
    (hmode : g.mode ≠ .shared) {fields : Wrapper}
    (hflag : binding = .java → fields.closed = false) :
    SoundWorld binding kindOf (w.set g.wrapper fields)
      ∧ SeesGrip i (w.set g.wrapper fields) (some { g with fields }) := by
  have hother : ∀ {o}, o ≠ g.wrapper →
      (w.set g.wrapper fields).wrappers o = w.wrappers o := fun ho => if_neg ho
  refine ⟨⟨hw.defined, ?_, hw.typed, hw.unique, hw.insiders, hw.apart, ?_,
    hw.begun, ?_⟩, hg.1, hg.2.1, if_pos rfl, hg.2.2.2.1, hg.2.2.2.2⟩
  · intro hjava o
    by_cases ho : o = g.wrapper
    · rw [ho]
      exact (congrArg Wrapper.closed (if_pos rfl)).trans (hflag hjava)
    · rw [hother ho]
      exact hw.flag hjava o
  · intro o ho
    rw [hother]
    · exact hw.fresh o ho
    · rintro rfl
      exact ho (hw.begun _ hg.1)
  · intro o hshared p
    rw [hother]
    · exact hw.settled o hshared p
    · rintro rfl
      exact hmode (hshared _ hg.1 rfl)

theorem own_open (hw : SoundWorld binding kindOf w) (hg : SeesGrip i w (some g))
    (hmode : g.mode ≠ .shared) (hlive : g.live = none)
    (hinside : g.inside = false) {p : UInt64} (hnull : p ≠ 0)
    (hfree : p ∉ w.heap) :
    SoundWorld binding kindOf (w.open (kindOf g.wrapper) g.wrapper p)
      ∧ SeesGrip i (w.open (kindOf g.wrapper) g.wrapper p)
        (some { g with live := some p }) := by
  have hnone : ∀ p', ¬ Owns w g.wrapper p' := by
    intro p' h
    cases hlive.symm.trans ((hg.2.2.2.1 p').mp h)
  refine ⟨⟨hw.defined, hw.flag, ?_, ?_, ?_, hw.apart, ?_, hw.begun, ?_⟩,
    hg.1, hg.2.1, hg.2.2.1, ?_, ?_⟩
  · intro p' object hlookup
    unfold World.open at hlookup
    dsimp only at hlookup
    by_cases hp : p' = p
    · subst hp
      rw [AList.lookup_insert] at hlookup
      cases hlookup
      exact ⟨rfl, hnull⟩
    · rw [AList.lookup_insert_ne hp] at hlookup
      exact hw.typed p' object hlookup
  · intro o p₁ p₂ h₁ h₂
    rw [owns_open hfree] at h₁ h₂
    rcases h₁ with h₁ | ⟨rfl, rfl⟩
    · rcases h₂ with h₂ | ⟨rfl, rfl⟩
      · exact hw.unique o p₁ p₂ h₁ h₂
      · exact absurd h₁ (hnone p₁)
    · rcases h₂ with h₂ | ⟨-, rfl⟩
      · exact absurd h₂ (hnone p₂)
      · rfl
  · intro call p' h
    rw [inside_open hfree] at h
    obtain ⟨u, hu, hcall, howns⟩ := hw.insiders call p' h
    exact ⟨u, hu, hcall, (owns_open hfree _ _).mpr (.inl howns)⟩
  · intro o ho
    obtain ⟨hfields, hnoOwner⟩ := hw.fresh o ho
    refine ⟨hfields, fun p' h => ?_⟩
    rcases (owns_open hfree _ _).mp h with h | ⟨rfl, -⟩
    · exact hnoOwner p' h
    · exact ho (hw.begun _ hg.1)
  · intro o hshared p'
    rw [owns_open hfree]
    show _ ↔ Holding (w.wrappers o) p'
    rw [← hw.settled o hshared p']
    constructor
    · rintro (h | ⟨rfl, -⟩)
      · exact h
      · exact absurd (hshared _ hg.1 rfl) hmode
    · exact .inl
  · intro p'
    rw [owns_open hfree]
    constructor
    · rintro (h | ⟨-, rfl⟩)
      · exact absurd h (hnone p')
      · rfl
    · intro h
      cases h
      exact .inr ⟨rfl, rfl⟩
  · intro p'
    rw [inside_open hfree, hg.2.2.2.2, hinside]
    constructor
    · rintro ⟨⟨⟩, -⟩
    · rintro ⟨⟨⟩, -⟩

/-- Another list of borrows, each by a user of the wrapper. -/
theorem SoundWorld.reborrow (hw : SoundWorld binding kindOf w) {p : UInt64}
    {object : NativeObject} (hlookup : w.heap.lookup p = some object)
    {inside : List Nat}
    (hinside : ∀ call ∈ inside, ∃ u ∈ w.users,
      u.call = call ∧ u.wrapper = object.owner) :
    SoundWorld binding kindOf
      { w with heap := w.heap.insert p { object with inside } } := by
  refine ⟨hw.defined, hw.flag, ?_, ?_, ?_, hw.apart, ?_, hw.begun, ?_⟩
  · intro p' object' h
    dsimp only at h
    by_cases hp : p' = p
    · subst hp
      rw [AList.lookup_insert] at h
      cases h
      exact hw.typed p' object hlookup
    · rw [AList.lookup_insert_ne hp] at h
      exact hw.typed p' object' h
  · intro o p₁ p₂ h₁ h₂
    rw [owns_insert hlookup] at h₁ h₂
    exact hw.unique o p₁ p₂ h₁ h₂
  · intro call p' h
    rw [inside_insert hlookup] at h
    by_cases hp : p' = p
    · rw [if_pos hp] at h
      obtain ⟨u, hu, hcall, hwrapper⟩ := hinside call h
      refine ⟨u, hu, hcall, (owns_insert hlookup _ _ _).mpr ?_⟩
      rw [hp, hwrapper]
      exact ⟨object, hlookup, rfl⟩
    · rw [if_neg hp] at h
      obtain ⟨u, hu, hcall, howns⟩ := hw.insiders call p' h
      exact ⟨u, hu, hcall, (owns_insert hlookup _ _ _).mpr howns⟩
  · intro o ho
    obtain ⟨hfields, hnoOwner⟩ := hw.fresh o ho
    refine ⟨hfields, fun p' h => hnoOwner p' ?_⟩
    exact (owns_insert hlookup _ _ _).mp h
  · intro o hshared p'
    rw [owns_insert hlookup]
    exact hw.settled o hshared p'

theorem own_enter (hw : SoundWorld binding kindOf w) (hg : SeesGrip i w (some g))
    {p : UInt64} (hlive : g.live = some p) (hinside : g.inside = false)
    (hmode : kindOf g.wrapper = .writer → g.mode ≠ .shared) :
    SoundWorld binding kindOf (w.enter (kindOf g.wrapper) p i)
      ∧ SeesGrip i (w.enter (kindOf g.wrapper) p i)
        (some { g with inside := true }) := by
  obtain ⟨object, hlookup, howner, hkind⟩ := lookup_of_live hw hg hlive
  rw [enter_of_lookup hlookup hkind fun hwriter =>
    inside_eq_nil hw hg (hmode hwriter) hinside hlookup howner]
  refine ⟨hw.reborrow hlookup ?_, hg.1, hg.2.1, hg.2.2.1, ?_, ?_⟩
  · intro call hcall
    rcases List.mem_cons.mp hcall with rfl | hcall
    · exact ⟨_, hg.1, rfl, howner.symm⟩
    · obtain ⟨u, hu, hcallEq, howns⟩ :=
        hw.insiders call p ⟨object, hlookup, hcall⟩
      exact ⟨u, hu, hcallEq, howns.owner_eq ⟨object, hlookup, rfl⟩⟩
  · intro p'
    rw [owns_insert hlookup]
    exact hg.2.2.2.1 p'
  · intro p'
    rw [inside_insert hlookup, hg.2.2.2.2]
    by_cases hp : p' = p
    · rw [if_pos hp, hp]
      simp [hlive]
    · rw [if_neg hp]
      simp only [hinside, Bool.false_eq_true, false_and, true_and, false_iff]
      rintro heq
      cases hlive.symm.trans heq
      exact hp rfl

theorem own_leave (hw : SoundWorld binding kindOf w) (hg : SeesGrip i w (some g))
    {p : UInt64} (hlive : g.live = some p) :
    SoundWorld binding kindOf (w.leave p i)
      ∧ SeesGrip i (w.leave p i) (some { g with inside := false }) := by
  obtain ⟨object, hlookup, howner, -⟩ := lookup_of_live hw hg hlive
  rw [leave_eq hlookup]
  refine ⟨hw.reborrow hlookup ?_, hg.1, hg.2.1, hg.2.2.1, ?_, ?_⟩
  · intro call hcall
    obtain ⟨u, hu, hcallEq, howns⟩ := hw.insiders call p
      ⟨object, hlookup, (List.mem_filter.mp hcall).1⟩
    exact ⟨u, hu, hcallEq, howns.owner_eq ⟨object, hlookup, rfl⟩⟩
  · intro p'
    rw [owns_insert hlookup]
    exact hg.2.2.2.1 p'
  · intro p'
    rw [inside_insert hlookup, hg.2.2.2.2]
    simp only [Bool.false_eq_true, false_and, iff_false]
    by_cases hp : p' = p
    · rw [if_pos hp]
      simp
    · rw [if_neg hp]
      rintro ⟨-, heq⟩
      cases hlive.symm.trans heq
      exact hp rfl

theorem own_free (hw : SoundWorld binding kindOf w) (hg : SeesGrip i w (some g))
    {p : UInt64} (hlive : g.live = some p) (hinside : g.inside = false)
    (hmode : g.mode ≠ .shared) :
    SoundWorld binding kindOf (w.free (kindOf g.wrapper) p)
      ∧ SeesGrip i (w.free (kindOf g.wrapper) p)
        (some { g with live := none }) := by
  obtain ⟨object, hlookup, howner, hkind⟩ := lookup_of_live hw hg hlive
  rw [free_eq hlookup hkind
    (inside_eq_nil hw hg hmode hinside hlookup howner)]
  refine ⟨⟨hw.defined, hw.flag, ?_, ?_, ?_, hw.apart, ?_, hw.begun, ?_⟩,
    hg.1, hg.2.1, hg.2.2.1, ?_, ?_⟩
  · intro p' object' h
    dsimp only at h
    by_cases hp : p' = p
    · subst hp
      rw [AList.lookup_erase] at h
      cases h
    · rw [AList.lookup_erase_ne hp] at h
      exact hw.typed p' object' h
  · intro o p₁ p₂ h₁ h₂
    rw [owns_erase] at h₁ h₂
    exact hw.unique o p₁ p₂ h₁.1 h₂.1
  · intro call p' h
    rw [inside_erase] at h
    obtain ⟨u, hu, hcall, howns⟩ := hw.insiders call p' h.1
    exact ⟨u, hu, hcall, (owns_erase _ _).mpr ⟨howns, h.2⟩⟩
  · intro o ho
    obtain ⟨hfields, hnoOwner⟩ := hw.fresh o ho
    exact ⟨hfields, fun p' h => hnoOwner p' ((owns_erase _ _).mp h).1⟩
  · intro o hshared p'
    rw [owns_erase]
    show _ ↔ Holding (w.wrappers o) p'
    rw [← hw.settled o hshared p']
    refine ⟨And.left, fun h => ⟨h, ?_⟩⟩
    rintro rfl
    have ho : o = g.wrapper := h.owner_eq ⟨object, hlookup, howner⟩
    exact hmode (hshared _ hg.1 ho.symm)
  · intro p'
    rw [owns_erase, hg.2.2.2.1, hlive]
    constructor
    · rintro ⟨heq, hp⟩
      cases heq
      exact absurd rfl hp
    · rintro ⟨⟩
  · intro p'
    rw [inside_erase, hg.2.2.2.2, hinside]
    constructor
    · rintro ⟨⟨⟨⟩, -⟩, -⟩
    · rintro ⟨⟨⟩, -⟩

end

-- ========================================================== the other steps

section
variable {binding : Binding} {kindOf : Nat → HandleKind} {w w' : World}
  {i j : Nat} {g : Grip} {v : Option Grip}

/-- A call sees the same where nothing it sees has changed. -/
theorem sees_congr (hj : SeesGrip j w v)
    (husers : ∀ u : User, u.call = j → (u ∈ w'.users ↔ u ∈ w.users))
    (hinside : ∀ p, Inside w' j p ↔ Inside w j p)
    (hgrip : ∀ g', v = some g' →
      w'.wrappers g'.wrapper = w.wrappers g'.wrapper
        ∧ ∀ p, Owns w' g'.wrapper p ↔ Owns w g'.wrapper p) :
    SeesGrip j w' v := by
  cases v with
  | none =>
      refine ⟨fun u hu hcall => ?_, fun p h => hj.2 p ((hinside p).mp h)⟩
      exact hj.1 u ((husers u hcall).mp hu) hcall
  | some g' =>
      obtain ⟨hmem, honly, hfields, hlive, hin⟩ := hj
      obtain ⟨hwrappers, howns⟩ := hgrip g' rfl
      refine ⟨(husers _ rfl).mpr hmem, ?_, hwrappers.trans hfields, ?_, ?_⟩
      · exact fun u hu hcall => honly u ((husers u hcall).mp hu) hcall
      · exact fun p => (howns p).trans (hlive p)
      · exact fun p => (hinside p).trans (hin p)

/-- Where a call is alone on its wrapper, others are on other ones. -/
theorem wrapper_ne_of_alone (hw : SoundWorld binding kindOf w)
    (hg : SeesGrip i w (some g)) (hmode : g.mode ≠ .shared) (hne : i ≠ j)
    {g' : Grip} (hj : SeesGrip j w (some g')) : g'.wrapper ≠ g.wrapper := by
  intro heq
  have := user_eq_of_alone hw hg hmode hj.1 heq
  injection this with hcall
  exact hne hcall.symm

/-- A call that begins changes what no other call sees. -/
theorem other_begin {user : User} (hne : user.call ≠ j)
    (hj : SeesGrip j w v) : SeesGrip j (w.begin user) v := by
  refine sees_congr hj ?_ (fun _ => Iff.rfl) fun _ _ => ⟨rfl, fun _ => Iff.rfl⟩
  intro u hcall
  show u ∈ user :: w.users ↔ _
  rw [List.mem_cons]
  refine ⟨fun h => h.resolve_left ?_, .inr⟩
  rintro rfl
  exact hne hcall

theorem other_finish (hne : i ≠ j) (hj : SeesGrip j w v) :
    SeesGrip j (w.finish i) v := by
  refine sees_congr hj ?_ (fun _ => Iff.rfl) fun _ _ => ⟨rfl, fun _ => Iff.rfl⟩
  intro u hcall
  show u ∈ w.users.filter _ ↔ _
  rw [List.mem_filter, decide_eq_true_iff]
  exact and_iff_left (fun h => hne (h.symm.trans hcall))

theorem other_set (hw : SoundWorld binding kindOf w) (hg : SeesGrip i w (some g))
    (hmode : g.mode ≠ .shared) (hne : i ≠ j) (fields : Wrapper)
    (hj : SeesGrip j w v) : SeesGrip j (w.set g.wrapper fields) v := by
  refine sees_congr hj (fun _ _ => Iff.rfl) (fun _ => Iff.rfl) ?_
  rintro g' rfl
  exact ⟨if_neg (wrapper_ne_of_alone hw hg hmode hne hj), fun _ => Iff.rfl⟩

theorem other_open (hw : SoundWorld binding kindOf w) (hg : SeesGrip i w (some g))
    (hmode : g.mode ≠ .shared) (hne : i ≠ j) {p : UInt64} (hfree : p ∉ w.heap)
    (hj : SeesGrip j w v) :
    SeesGrip j (w.open (kindOf g.wrapper) g.wrapper p) v := by
  refine sees_congr hj (fun _ _ => Iff.rfl) (inside_open hfree j) ?_
  rintro g' rfl
  refine ⟨rfl, fun p' => ?_⟩
  rw [owns_open hfree]
  refine ⟨fun h => h.resolve_right ?_, .inl⟩
  rintro ⟨heq, -⟩
  exact wrapper_ne_of_alone hw hg hmode hne hj heq

/-- Entering and leaving change only the caller's borrow. -/
theorem other_reborrow {p : UInt64} {object : NativeObject}
    (hlookup : w.heap.lookup p = some object) {inside : List Nat}
    (hinside : j ∈ inside ↔ j ∈ object.inside) (hj : SeesGrip j w v) :
    SeesGrip j
      { w with heap := w.heap.insert p { object with inside } } v := by
  refine sees_congr hj (fun _ _ => Iff.rfl) ?_ ?_
  · intro p'
    rw [inside_insert hlookup]
    by_cases hp : p' = p
    · rw [if_pos hp, hinside, hp]
      constructor
      · exact fun h => ⟨object, hlookup, h⟩
      · rintro ⟨object', hlookup', h⟩
        rw [hlookup] at hlookup'
        cases hlookup'
        exact h
    · rw [if_neg hp]
  · intro g' _
    exact ⟨rfl, owns_insert hlookup inside g'.wrapper⟩

theorem other_enter (hw : SoundWorld binding kindOf w) (hg : SeesGrip i w (some g))
    {p : UInt64} (hlive : g.live = some p) (hinside : g.inside = false)
    (hmode : kindOf g.wrapper = .writer → g.mode ≠ .shared) (hne : i ≠ j)
    (hj : SeesGrip j w v) :
    SeesGrip j (w.enter (kindOf g.wrapper) p i) v := by
  obtain ⟨object, hlookup, howner, hkind⟩ := lookup_of_live hw hg hlive
  rw [enter_of_lookup hlookup hkind fun hwriter =>
    inside_eq_nil hw hg (hmode hwriter) hinside hlookup howner]
  refine other_reborrow hlookup ?_ hj
  rw [List.mem_cons]
  exact ⟨fun h => h.resolve_left (Ne.symm hne), .inr⟩

theorem other_leave (hw : SoundWorld binding kindOf w) (hg : SeesGrip i w (some g))
    {p : UInt64} (hlive : g.live = some p) (hne : i ≠ j)
    (hj : SeesGrip j w v) : SeesGrip j (w.leave p i) v := by
  obtain ⟨object, hlookup, -⟩ := lookup_of_live hw hg hlive
  rw [leave_eq hlookup]
  refine other_reborrow hlookup ?_ hj
  rw [List.mem_filter, decide_eq_true_iff]
  exact and_iff_left (Ne.symm hne)

theorem other_free (hw : SoundWorld binding kindOf w) (hg : SeesGrip i w (some g))
    {p : UInt64} (hlive : g.live = some p) (hinside : g.inside = false)
    (hmode : g.mode ≠ .shared) (hne : i ≠ j) (hj : SeesGrip j w v) :
    SeesGrip j (w.free (kindOf g.wrapper) p) v := by
  obtain ⟨object, hlookup, howner, hkind⟩ := lookup_of_live hw hg hlive
  have hnil := inside_eq_nil hw hg hmode hinside hlookup howner
  rw [free_eq hlookup hkind hnil]
  refine sees_congr hj (fun _ _ => Iff.rfl) ?_ ?_
  · intro p'
    rw [inside_erase]
    refine ⟨And.left, fun h => ⟨h, ?_⟩⟩
    rintro rfl
    obtain ⟨object', hlookup', hmem⟩ := h
    rw [hlookup] at hlookup'
    cases hlookup'
    rw [hnil] at hmem
    cases hmem
  · rintro g' rfl
    refine ⟨rfl, fun p' => ?_⟩
    rw [owns_erase]
    refine ⟨And.left, fun h => ⟨h, ?_⟩⟩
    rintro rfl
    exact wrapper_ne_of_alone hw hg hmode hne hj
      (h.owner_eq ⟨object, hlookup, howner⟩)

end

/-- The grips are sound views of the world. -/
theorem viewed_grips (binding : Binding) (kindOf : Nat → HandleKind) :
    Viewed HandleStep (SoundWorld binding kindOf) SeesGrip
      (LegalStep binding kindOf) (LocalStep binding kindOf) := by
  constructor
  · intro w i v op r w' hw hv hlegal hstep
    cases hlegal with
    | begin user h =>
        subst h
        cases hstep with
        | begin user hadmits => exact own_begin hw hv hadmits
    | finish g hinside hcoherent =>
        cases hstep
        obtain ⟨hsound, hsees⟩ := own_finish hw hv hinside hcoherent
        exact ⟨hsound, none, .finish g, hsees⟩
    | getClosed g =>
        cases hstep
        rw [hv.2.2.1]
        exact ⟨hw, some g, .getClosed g, hv⟩
    | setClosed g closed hmode hbinding =>
        cases hstep
        have hflag : binding = .java →
            ({ w.wrappers g.wrapper with closed } : Wrapper).closed = false := by
          rw [hbinding]
          rintro ⟨⟩
        obtain ⟨hsound, hsees⟩ := own_set hw hv hmode hflag
        rw [hv.2.2.1] at hsound hsees ⊢
        exact ⟨hsound, _, .setClosed g closed, hsees⟩
    | getPtr g =>
        cases hstep
        rw [hv.2.2.1]
        exact ⟨hw, some g, .getPtr g, hv⟩
    | setPtr g p hmode =>
        cases hstep
        have hflag : binding = .java →
            ({ w.wrappers g.wrapper with ptr := some p } : Wrapper).closed
              = false := fun hjava => hw.flag hjava g.wrapper
        obtain ⟨hsound, hsees⟩ := own_set hw hv hmode hflag
        rw [hv.2.2.1] at hsound hsees ⊢
        exact ⟨hsound, _, .setPtr g p, hsees⟩
    | openNew g hmode hlive hinside =>
        cases hstep with
        | openFailed => exact ⟨hw, some g, .openFailed g, hv⟩
        | opened _ _ p hnull hfree =>
            obtain ⟨hsound, hsees⟩ :=
              own_open hw hv hmode hlive hinside hnull hfree
            exact ⟨hsound, _, .opened g p hnull, hsees⟩
    | enter g p hlive hinside hmode =>
        cases hstep with
        | enterNull => exact ⟨hw, some g, .enterNull g, hv⟩
        | enter _ _ _ hnull =>
            obtain ⟨hsound, hsees⟩ := own_enter hw hv (hlive hnull) hinside hmode
            exact ⟨hsound, _, .enter g p (hlive hnull), hsees⟩
    | leave g p hlive hinside =>
        cases hstep
        obtain ⟨hsound, hsees⟩ := own_leave hw hv hlive
        exact ⟨hsound, _, .leave g p, hsees⟩
    | free g p hlive hinside hmode =>
        cases hstep with
        | freeNull => exact ⟨hw, some g, .freeNull g, hv⟩
        | free _ _ hnull =>
            obtain ⟨hsound, hsees⟩ := own_free hw hv (hlive hnull) hinside hmode
            exact ⟨hsound, _, .free g p hnull, hsees⟩
  · intro w i v op r w' j v' hw hv hlegal hstep hne hj
    cases hlegal with
    | begin user h =>
        subst h
        cases hstep with
        | begin user hadmits => exact other_begin hne hj
    | finish g hinside hcoherent =>
        cases hstep
        exact other_finish hne hj
    | getClosed g =>
        cases hstep
        exact hj
    | setClosed g closed hmode hbinding =>
        cases hstep
        exact other_set hw hv hmode hne _ hj
    | getPtr g =>
        cases hstep
        exact hj
    | setPtr g p hmode =>
        cases hstep
        exact other_set hw hv hmode hne _ hj
    | openNew g hmode hlive hinside =>
        cases hstep with
        | openFailed => exact hj
        | opened _ _ p hnull hfree => exact other_open hw hv hmode hne hfree hj
    | enter g p hlive hinside hmode =>
        cases hstep with
        | enterNull => exact hj
        | enter _ _ _ hnull =>
            exact other_enter hw hv (hlive hnull) hinside hmode hne hj
    | leave g p hlive hinside =>
        cases hstep
        exact other_leave hw hv hlive hne hj
    | free g p hlive hinside hmode =>
        cases hstep with
        | freeNull => exact hj
        | free _ _ hnull =>
            exact other_free hw hv (hlive hnull) hinside hmode hne hj

-- =============================================================== the calls

section
variable {binding : Binding} {kindOf : Nat → HandleKind} {i : Nat} {g : Grip}

/-- A call ends with its grip in order. -/
def Orderly (v : Option Grip) (_ : Except CallError Unit) : Prop :=
  ∃ g, v = some g ∧ g.inside = false ∧ g.Coherent

theorem coherent_of_none (hlive : g.live = none)
    (h : ∀ p, ¬ Holding g.fields p) : g.Coherent := by
  intro p
  rw [hlive]
  refine ⟨?_, fun hp => absurd hp (h p)⟩
  rintro ⟨⟩

theorem coherent_of_some {p : UInt64} (hlive : g.live = some p)
    (h : Holding g.fields p) : g.Coherent := by
  intro p'
  rw [hlive]
  constructor
  · rintro ⟨⟩
    exact h
  · rintro ⟨-, hptr, -⟩
    rw [← hptr]
    exact h.2.1.symm

/-- Creating a wrapper: opening fails, or its handle goes into the
field. -/
theorem follows_openNative (hmode : g.mode ≠ .shared) (hlive : g.live = none)
    (hinside : g.inside = false) (hclosed : g.fields.closed = false)
    (hptr : g.fields.ptr = none) :
    Prog.Follows (LegalStep binding kindOf i) (LocalStep binding kindOf i) Orderly
      (do let p ← openNative (kindOf g.wrapper) g.wrapper
          setPtr g.wrapper p) (some g) := by
  refine ⟨.openNew g hmode hlive hinside, fun r v' hlocal => ?_⟩
  cases hlocal with
  | openFailed =>
      refine ⟨g, rfl, hinside, coherent_of_none hlive ?_⟩
      rintro p ⟨-, h, -⟩
      cases hptr.symm.trans h
  | opened _ p hnull =>
      refine ⟨.setPtr { g with live := some p } p hmode, fun r v' hlocal => ?_⟩
      cases hlocal
      exact ⟨_, rfl, hinside, coherent_of_some rfl ⟨hclosed, rfl, hnull⟩⟩

/-- Taking an open wrapper's handle to native code and back. -/
theorem follows_inNative {p : UInt64} {fails : Bool} (hcoherent : g.Coherent)
    (hinside : g.inside = false)
    (hmode : kindOf g.wrapper = .writer → g.mode ≠ .shared)
    (hclosed : g.fields.closed = false) (hptr : g.fields.ptr = some p) :
    Prog.Follows (LegalStep binding kindOf i) (LocalStep binding kindOf i) Orderly
      (inNative (kindOf g.wrapper) p i fails) (some g) := by
  have hlive : p ≠ 0 → g.live = some p := fun hnull =>
    (hcoherent p).mpr ⟨hclosed, hptr, hnull⟩
  refine ⟨.enter g p hlive hinside hmode, fun r v' hlocal => ?_⟩
  cases hlocal with
  | enterNull => exact ⟨g, rfl, hinside, hcoherent⟩
  | enter _ _ hheld =>
      refine ⟨.leave { g with inside := true } p hheld rfl,
        fun r v' hlocal => ?_⟩
      cases hlocal
      cases fails with
      | true => exact ⟨_, rfl, rfl, hcoherent⟩
      | false => exact ⟨_, rfl, rfl, hcoherent⟩

/-- `__init__` keeps to what it sees. -/
theorem follows_pyInit {raises : Bool} (hbinding : binding = .python)
    (hmode : g.mode ≠ .shared)
    (hinside : g.inside = false) (hfresh : g.fields = {} ∧ g.live = none) :
    Prog.Follows (LegalStep binding kindOf i) (LocalStep binding kindOf i) Orderly
      (pyInit (kindOf g.wrapper) g.wrapper raises) (some g) := by
  obtain ⟨hfields, hlive⟩ := hfresh
  refine ⟨.setClosed g false hmode hbinding, fun r v' hlocal => ?_⟩
  cases hlocal
  cases raises with
  | true =>
      refine ⟨_, rfl, hinside, coherent_of_none hlive ?_⟩
      rintro p ⟨-, h, -⟩
      rw [hfields] at h
      cases h
  | false =>
      exact @follows_openNative binding kindOf i
        { g with fields := { g.fields with closed := false } } hmode hlive
        hinside rfl (by rw [hfields])

theorem follows_pyMethod {raises fails : Bool} (hcoherent : g.Coherent)
    (hinside : g.inside = false)
    (hmode : kindOf g.wrapper = .writer → g.mode ≠ .shared) :
    Prog.Follows (LegalStep binding kindOf i) (LocalStep binding kindOf i) Orderly
      (pyMethod (kindOf g.wrapper) g.wrapper i raises fails) (some g) := by
  refine ⟨.getClosed g, fun r v' hlocal => ?_⟩
  cases hlocal
  cases hclosed : g.fields.closed with
  | true => exact ⟨g, rfl, hinside, hcoherent⟩
  | false =>
      cases raises with
      | true => exact ⟨g, rfl, hinside, hcoherent⟩
      | false =>
          refine ⟨.getPtr g, fun r v' hlocal => ?_⟩
          cases hlocal
          cases hptr : g.fields.ptr with
          | none => exact ⟨g, rfl, hinside, hcoherent⟩
          | some p => exact follows_inNative hcoherent hinside hmode hclosed hptr

theorem follows_pyClose (hbinding : binding = .python)
    (hcoherent : g.Coherent) (hinside : g.inside = false)
    (hmode : g.mode ≠ .shared) :
    Prog.Follows (LegalStep binding kindOf i) (LocalStep binding kindOf i) Orderly
      (pyClose (kindOf g.wrapper) g.wrapper) (some g) := by
  refine ⟨.getClosed g, fun r v' hlocal => ?_⟩
  cases hlocal
  cases hclosed : g.fields.closed with
  | true => exact ⟨g, rfl, hinside, hcoherent⟩
  | false =>
      refine ⟨.setClosed g true hmode hbinding, fun r v' hlocal => ?_⟩
      cases hlocal
      -- from here on the flag says that nothing is held
      have hshut : ∀ ptr p, ¬ Holding ⟨true, ptr⟩ p := by
        rintro ptr p ⟨⟨⟩, -⟩
      have hlive : ∀ p, g.live = some p → g.fields.ptr = some p := fun p h =>
        ((hcoherent p).mp h).2.1
      refine ⟨.getPtr { g with fields := { g.fields with closed := true } },
        fun r v' hlocal => ?_⟩
      cases hlocal
      cases hptr : g.fields.ptr with
      | none =>
          refine ⟨_, rfl, hinside, coherent_of_none ?_ (hshut _)⟩
          rw [Option.eq_none_iff_forall_ne_some]
          intro p h
          cases hptr.symm.trans (hlive p h)
      | some p =>
          show Prog.Follows _ _ _ (if p ≠ 0 then _ else _ : HandleProg Unit) _
          by_cases hnull : p = 0
          · rw [if_neg (not_not.mpr hnull)]
            refine ⟨_, rfl, hinside, coherent_of_none ?_ (hshut _)⟩
            rw [Option.eq_none_iff_forall_ne_some]
            intro p' h
            obtain ⟨-, hptr', hnull'⟩ := (hcoherent p').mp h
            rw [hptr] at hptr'
            cases hptr'
            exact hnull' hnull
          · rw [if_pos hnull]
            have hheld : g.live = some p :=
              (hcoherent p).mpr ⟨hclosed, hptr, hnull⟩
            refine ⟨.free { g with fields := { g.fields with closed := true } } p
              (fun _ => hheld) hinside hmode, fun r v' hlocal => ?_⟩
            cases hlocal with
            | freeNull => exact absurd rfl hnull
            | free =>
                refine ⟨.setPtr _ 0 hmode, fun r v' hlocal => ?_⟩
                cases hlocal
                exact ⟨_, rfl, hinside, coherent_of_none rfl (hshut _)⟩

/-- `create` keeps to what it sees. -/
theorem follows_javaCreate {raises : Bool} (hmode : g.mode ≠ .shared)
    (hinside : g.inside = false) (hfresh : g.fields = {} ∧ g.live = none) :
    Prog.Follows (LegalStep binding kindOf i) (LocalStep binding kindOf i) Orderly
      (javaCreate (kindOf g.wrapper) g.wrapper raises) (some g) := by
  obtain ⟨hfields, hlive⟩ := hfresh
  cases raises with
  | true =>
      refine ⟨g, rfl, hinside, coherent_of_none hlive ?_⟩
      rintro p ⟨-, h, -⟩
      rw [hfields] at h
      cases h
  | false =>
      exact follows_openNative hmode hlive hinside (by rw [hfields])
        (by rw [hfields])

/-- In Java the flag is never set. -/
theorem follows_javaMethod {raises fails : Bool} (hcoherent : g.Coherent)
    (hinside : g.inside = false)
    (hmode : kindOf g.wrapper = .writer → g.mode ≠ .shared)
    (hclosed : g.fields.closed = false) :
    Prog.Follows (LegalStep binding kindOf i) (LocalStep binding kindOf i) Orderly
      (javaMethod (kindOf g.wrapper) g.wrapper i raises fails) (some g) := by
  cases raises with
  | true => exact ⟨g, rfl, hinside, hcoherent⟩
  | false =>
      refine ⟨.getPtr g, fun r v' hlocal => ?_⟩
      cases hlocal
      cases hptr : g.fields.ptr with
      | none => exact ⟨g, rfl, hinside, hcoherent⟩
      | some p =>
          show Prog.Follows _ _ _ (if p = 0 then _ else _ : HandleProg Unit) _
          by_cases hnull : p = 0
          · rw [if_pos hnull]
            exact ⟨g, rfl, hinside, hcoherent⟩
          · rw [if_neg hnull]
            exact follows_inNative hcoherent hinside hmode hclosed hptr

theorem follows_javaClose (hcoherent : g.Coherent) (hinside : g.inside = false)
    (hmode : g.mode ≠ .shared) (hclosed : g.fields.closed = false) :
    Prog.Follows (LegalStep binding kindOf i) (LocalStep binding kindOf i)
      Orderly (javaClose (kindOf g.wrapper) g.wrapper) (some g) := by
  refine ⟨.getPtr g, fun r v' hlocal => ?_⟩
  cases hlocal
  cases hptr : g.fields.ptr with
  | none => exact ⟨g, rfl, hinside, hcoherent⟩
  | some p =>
      have hshut : ∀ closed p, ¬ Holding ⟨closed, some 0⟩ p := by
        rintro closed p ⟨-, ⟨⟩, hnull⟩
        exact hnull rfl
      refine ⟨.setPtr g 0 hmode, fun r v' hlocal => ?_⟩
      cases hlocal
      show Prog.Follows _ _ _ (if p ≠ 0 then _ else _ : HandleProg Unit) _
      by_cases hnull : p = 0
      · rw [if_neg (not_not.mpr hnull)]
        refine ⟨_, rfl, hinside, coherent_of_none ?_ (hshut _)⟩
        rw [Option.eq_none_iff_forall_ne_some]
        intro p' h
        obtain ⟨-, hptr', hnull'⟩ := (hcoherent p').mp h
        rw [hptr] at hptr'
        cases hptr'
        exact hnull' hnull
      · rw [if_pos hnull]
        refine ⟨.free { g with fields := { g.fields with ptr := some 0 } } p
          (fun _ => (hcoherent p).mpr ⟨hclosed, hptr, hnull⟩) hinside hmode,
          fun r v' hlocal => ?_⟩
        cases hlocal with
        | freeNull => exact absurd rfl hnull
        | free => exact ⟨_, rfl, hinside, coherent_of_none rfl (hshut _)⟩

/-- A call as its wrapper's class has it. -/
theorem follows_body (call : HandleCall) (hcoherent : g.Coherent)
    (hinside : g.inside = false) (hwrapper : g.wrapper = call.wrapper)
    (hmode : g.mode = call.mode kindOf)
    (hfresh : g.mode = .create → g.fields = {} ∧ g.live = none)
    (hflag : binding = .java → g.fields.closed = false) :
    Prog.Follows (LegalStep binding kindOf i) (LocalStep binding kindOf i)
      Orderly (call.body binding kindOf i) (some g) := by
  cases call with
  | create o raises =>
      obtain rfl : g.wrapper = o := hwrapper
      have hcreate : g.mode = .create := hmode
      have hnot : g.mode ≠ .shared := by
        rw [hcreate]
        rintro ⟨⟩
      cases binding with
      | python => exact follows_pyInit rfl hnot hinside (hfresh hcreate)
      | java => exact follows_javaCreate hnot hinside (hfresh hcreate)
  | method o raises fails =>
      obtain rfl : g.wrapper = o := hwrapper
      have hnot : kindOf g.wrapper = .writer → g.mode ≠ .shared := by
        intro hkind
        rw [hmode]
        show (if kindOf g.wrapper = .reader then Mode.shared else .exclusive) ≠ _
        rw [hkind]
        rintro ⟨⟩
      cases binding with
      | python => exact follows_pyMethod hcoherent hinside hnot
      | java => exact follows_javaMethod hcoherent hinside hnot (hflag rfl)
  | close o =>
      obtain rfl : g.wrapper = o := hwrapper
      have hnot : g.mode ≠ .shared := by
        rw [hmode]
        rintro ⟨⟩
      cases binding with
      | python => exact follows_pyClose rfl hcoherent hinside hnot
      | java => exact follows_javaClose hcoherent hinside hnot (hflag rfl)

/-- A call leaves nothing behind when it has returned or raised. -/
theorem follows_session (call : HandleCall) :
    Prog.Follows (LegalStep binding kindOf i) (LocalStep binding kindOf i)
      (fun v _ => v = none) (call.session binding kindOf i) none := by
  refine ⟨.begin _ rfl, fun r v' hlocal => ?_⟩
  cases hlocal with
  | begin _ g hwrapper hmode hinside hcoherent hfresh hflag =>
      refine (follows_body call hcoherent hinside hwrapper hmode hfresh
        hflag).attempt_bind ?_
      rintro v r ⟨g', rfl, hinside', hcoherent'⟩
      refine ⟨.finish g' hinside' hcoherent', fun _ v' hlocal => ?_⟩
      cases hlocal
      cases r with
      | ok _ => exact rfl
      | error e => exact rfl

end

-- ================================================================= the runs

theorem allFollow_handleCalls (binding : Binding) (kindOf : Nat → HandleKind)
    (calls : List HandleCall) :
    AllFollow (SoundWorld binding kindOf) SeesGrip (LegalStep binding kindOf)
      (LocalStep binding kindOf) (fun _ v _ => v = none)
      (handleCalls binding kindOf calls) := by
  refine ⟨soundWorld_empty binding kindOf, fun i p hp => ?_⟩
  unfold handleCalls at hp
  rw [List.getElem?_mapIdx, Option.map_eq_some_iff] at hp
  obtain ⟨call, -, rfl⟩ := hp
  refine ⟨none, ⟨?_, ?_⟩, follows_session call⟩
  · intro u hu
    cases hu
  · rintro p ⟨object, hlookup, -⟩
    cases (show AList.lookup p (∅ : AList (fun _ : UInt64 => NativeObject))
      = none from rfl).symm.trans hlookup

section
variable {binding : Binding} {kindOf : Nat → HandleKind}
  {calls : List HandleCall}
  {es : List (Event HandleOp HandleOp.Res World)}
  {final : Config HandleOp HandleOp.Res CallError Unit World}

end

-- ------------------------------------------ a reader, and two searches at once

/-- A reader is opened, searched twice, and closed. -/
def readerCalls : List HandleCall :=
  [.create 0 false, .method 0 false false, .method 0 false true, .close 0]

/-- Both searches are inside at once, and one of them fails. -/
theorem overlapping_run : ∃ es final,
    Run HandleStep (handleCalls .python (fun _ => .reader) readerCalls) es final
      ∧ final.threads = [.ret (), .ret (), .fail .native, .ret ()]
      ∧ (final.shared.wrappers 0).closed = true
      ∧ final.shared.users = [] := by
  refine exists_run_of_step (step_of_call 0 rfl (.begin _ _ ?_)) ?_
  · exact ⟨⟨fun h => absurd h List.not_mem_nil, fun h => absurd rfl h⟩,
      fun u hu => absurd hu List.not_mem_nil⟩
  refine exists_run_of_step (step_of_call 0 rfl (.setClosed _ _ _)) ?_
  refine exists_run_of_step (step_of_call 0 rfl
    (.opened _ _ _ 4096 (by decide) List.not_mem_nil)) ?_
  refine exists_run_of_step (step_of_call 0 rfl (.setPtr _ _ _)) ?_
  refine exists_run_of_step (step_of_call 0 rfl (.finish _ _)) ?_
  -- the second search begins inside the first
  refine exists_run_of_step (step_of_call 1 rfl (.begin _ _ ?_)) ?_
  · exact ⟨⟨fun _ => by decide, fun _ => List.mem_cons_self⟩,
      fun u hu => absurd hu List.not_mem_nil⟩
  refine exists_run_of_step (step_of_call 1 rfl (.getClosed _ _)) ?_
  refine exists_run_of_step (step_of_call 1 rfl (.getPtr _ _)) ?_
  refine exists_run_of_step (step_of_call 1 rfl
    (.enter _ _ 4096 _ (by decide))) ?_
  refine exists_run_of_step (step_of_call 2 rfl (.begin _ _ ?_)) ?_
  · refine ⟨⟨fun _ => by decide, fun _ => List.mem_cons_self⟩, ?_⟩
    intro u hu _
    cases List.mem_singleton.mp hu
    exact ⟨rfl, rfl⟩
  refine exists_run_of_step (step_of_call 2 rfl (.getClosed _ _)) ?_
  refine exists_run_of_step (step_of_call 2 rfl (.getPtr _ _)) ?_
  refine exists_run_of_step (step_of_call 2 rfl
    (.enter _ _ 4096 _ (by decide))) ?_
  refine exists_run_of_step (step_of_call 1 rfl (.leave _ 4096 _)) ?_
  refine exists_run_of_step (step_of_call 1 rfl (.finish _ _)) ?_
  refine exists_run_of_step (step_of_call 2 rfl (.leave _ 4096 _)) ?_
  refine exists_run_of_step (step_of_call 2 rfl (.finish _ _)) ?_
  refine exists_run_of_step (step_of_call 3 rfl (.begin _ _ ?_)) ?_
  · exact ⟨⟨fun _ => by decide, fun _ => List.mem_cons_self⟩,
      fun u hu => absurd hu List.not_mem_nil⟩
  refine exists_run_of_step (step_of_call 3 rfl (.getClosed _ _)) ?_
  refine exists_run_of_step (step_of_call 3 rfl (.setClosed _ _ _)) ?_
  refine exists_run_of_step (step_of_call 3 rfl (.getPtr _ _)) ?_
  refine exists_run_of_step (step_of_call 3 rfl
    (.free _ _ 4096 (by decide))) ?_
  refine exists_run_of_step (step_of_call 3 rfl (.setPtr _ _ _)) ?_
  refine exists_run_of_step (step_of_call 3 rfl (.finish _ _)) ?_
  exact ⟨[], _, Run.nil _, rfl, rfl, rfl⟩

/-- An open writer, without anybody's discipline. -/
def openWriter : World where
  heap := AList.insert 4096 { kind := .writer, owner := 0 } ∅
  wrappers := fun _ => { closed := false, ptr := some 4096 }

/-- Two calls of `close` at once both find the writer open, and free its
handle twice. -/
theorem close_twice_at_once : ∃ es final,
    Run HandleStep
        (⟨openWriter, [pyClose .writer 0, pyClose .writer 0]⟩ :
          Config HandleOp HandleOp.Res CallError Unit World) es final
      ∧ final.shared.undefined = true := by
  refine exists_run_of_step (step_of_call 0 rfl (.getClosed _ _)) ?_
  refine exists_run_of_step (step_of_call 1 rfl (.getClosed _ _)) ?_
  refine exists_run_of_step (step_of_call 0 rfl (.setClosed _ _ _)) ?_
  refine exists_run_of_step (step_of_call 0 rfl (.getPtr _ _)) ?_
  refine exists_run_of_step (step_of_call 1 rfl (.setClosed _ _ _)) ?_
  refine exists_run_of_step (step_of_call 1 rfl (.getPtr _ _)) ?_
  refine exists_run_of_step (step_of_call 0 rfl
    (.free _ _ 4096 (by decide))) ?_
  refine exists_run_of_step (step_of_call 1 rfl
    (.free _ _ 4096 (by decide))) ?_
  exact ⟨[], _, Run.nil _, rfl⟩

end PaimonFtindex.Proofs
