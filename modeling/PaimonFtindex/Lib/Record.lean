/-
Reading a record from named members in any order.

A record has finitely many fields, each with its own type, and a member
`key: value` belongs to a field when its key is one of the field's
names. The reader keeps one slot per field, fills the slot of each
member it recognises, skips members of other names and fails on a field
given twice (`readMembers`).

`readMembers_of_rendering` is the converse of interest: if every field
is given by at most one member, under any of its names and in any place,
and the members read as the fields' values, the reader ends with exactly
those values. `readMembers_iff` says that nothing else is read, and
`readElements_iff` the same of values given by position.
-/
import Mathlib.Data.List.Perm.Basic
import Mathlib.Data.List.Nodup
import Mathlib.Logic.Function.Basic

namespace PaimonFtindex.Lib

/-- How the members of a record are read: which field a key names, how a
field's value is read and the error for a field given twice. -/
structure RecordSpec (ε J F : Type) (V : F → Type) where
  ofKey : String → Option F
  read : (f : F) → J → Except ε (V f)
  duplicate : F → ε

variable {ε J F : Type} {V : F → Type} [DecidableEq F]

/-- What has been read so far. -/
abbrev Slots (V : F → Type) : Type := (f : F) → Option (V f)

def emptySlots : Slots V := fun _ => none

namespace RecordSpec

variable (spec : RecordSpec ε J F V)

/-- Read members, one after the other, into slots. -/
def readMembers : List (String × J) → Slots V → Except ε (Slots V)
  | [], slots => .ok slots
  | (key, value) :: members, slots =>
      match spec.ofKey key with
      | none => readMembers members slots
      | some f =>
          match slots f with
          | some _ => .error (spec.duplicate f)
          | none =>
              match spec.read f value with
              | .error e => .error e
              | .ok x => readMembers members (Function.update slots f (some x))

/-- Read values by position; the values left over are returned. -/
def readElements : List F → List J → Slots V → Except ε (Slots V × List J)
  | f :: fields, value :: values, slots =>
      match spec.read f value with
      | .error e => .error e
      | .ok x => readElements fields values (Function.update slots f (some x))
  | _, values, slots => .ok (slots, values)

variable {spec}

/-- Members of distinct fields that are still empty fill their slots and
nothing else. -/
theorem readMembers_eq_ok {members : List (String × J)} {slots x : Slots V}
    (hread : ∀ key value, (key, value) ∈ members →
      ∃ f y, spec.ofKey key = some f ∧ spec.read f value = .ok y
        ∧ x f = some y ∧ slots f = none)
    (hnodup : (members.map fun m => spec.ofKey m.1).Nodup)
    (hrest : ∀ f, (∀ m ∈ members, spec.ofKey m.1 ≠ some f) → x f = slots f) :
    spec.readMembers members slots = .ok x := by
  induction members generalizing slots with
  | nil =>
      have heq : slots = x := by
        funext f
        exact (hrest f (by simp)).symm
      rw [heq]
      rfl
  | cons m members ih =>
      obtain ⟨key, value⟩ := m
      obtain ⟨f, y, hkey, hy, hx, hslot⟩ := hread key value List.mem_cons_self
      rw [List.map_cons, List.nodup_cons] at hnodup
      have hother : ∀ m ∈ members, spec.ofKey m.1 ≠ some f := by
        intro m hm heq
        apply hnodup.1
        rw [hkey]
        exact List.mem_map.mpr ⟨m, hm, heq⟩
      unfold readMembers
      simp only [hkey, hslot, hy]
      refine ih ?_ hnodup.2 ?_
      · intro key' value' hm
        obtain ⟨g, z, hkey', hz, hxg, hslot'⟩ :=
          hread key' value' (List.mem_cons_of_mem _ hm)
        have hne : g ≠ f := by
          intro heq
          exact hother _ hm (heq ▸ hkey')
        refine ⟨g, z, hkey', hz, hxg, ?_⟩
        rw [Function.update_of_ne hne]
        exact hslot'
      · intro g hg
        by_cases heq : g = f
        · subst heq
          rw [Function.update_self, hx]
        · rw [Function.update_of_ne heq]
          refine hrest g fun m hm => ?_
          rcases List.mem_cons.mp hm with rfl | hm
          · rw [hkey]
            intro h
            exact heq (Option.some.inj h).symm
          · exact hg m hm

/-- A rendering of the fields gives each at most one member, under one
of its names; the members may come in any order. -/
theorem readMembers_of_rendering {fields : List F} (hfields : fields.Nodup)
    (hall : ∀ f, f ∈ fields) {member : F → Option (String × J)} {x : Slots V}
    {members : List (String × J)}
    (hmembers : members.Perm (fields.filterMap member))
    (hsome : ∀ f key value, member f = some (key, value) →
      spec.ofKey key = some f ∧ ∃ y, spec.read f value = .ok y ∧ x f = some y)
    (hnone : ∀ f, member f = none → x f = none) :
    spec.readMembers members emptySlots = .ok x := by
  apply readMembers_eq_ok
  · intro key value hm
    obtain ⟨f, -, hf⟩ := List.mem_filterMap.mp (hmembers.mem_iff.mp hm)
    obtain ⟨hkey, y, hy, hx⟩ := hsome f key value hf
    exact ⟨f, y, hkey, hy, hx, rfl⟩
  · -- the members' fields are a sublist of the fields
    have hperm := hmembers.map fun m : String × J => spec.ofKey m.1
    rw [hperm.nodup_iff]
    have hsub : (fields.filterMap member).map (fun m => spec.ofKey m.1)
        |>.Sublist (fields.map some) := by
      clear hmembers hperm hall hfields
      induction fields with
      | nil => exact List.Sublist.slnil
      | cons f fields ih =>
          cases hf : member f with
          | none =>
              rw [List.filterMap_cons_none hf, List.map_cons]
              exact List.Sublist.cons _ ih
          | some m =>
              rw [List.filterMap_cons_some hf, List.map_cons, List.map_cons,
                (hsome f m.1 m.2 hf).1]
              exact List.Sublist.cons_cons _ ih
    apply List.Nodup.sublist hsub
    exact hfields.map fun _ _ h => Option.some.inj h
  · intro f hf
    cases hm : member f with
    | none => exact hnone f hm
    | some m =>
        exfalso
        have hmem : m ∈ members :=
          hmembers.mem_iff.mpr (List.mem_filterMap.mpr ⟨f, hall f, hm⟩)
        exact hf m hmem (hsome f m.1 m.2 hm).1

variable (spec) in
/-- The members of known names. -/
def known (members : List (String × J)) : List (String × J) :=
  members.filter fun m => (spec.ofKey m.1).isSome

/-- Members of unknown names change nothing, wherever they stand. -/
theorem readMembers_known (members : List (String × J)) (slots : Slots V) :
    spec.readMembers (spec.known members) slots
      = spec.readMembers members slots := by
  induction members generalizing slots with
  | nil => rfl
  | cons m members ih =>
      obtain ⟨key, value⟩ := m
      cases hkey : spec.ofKey key with
      | none =>
          rw [known, List.filter_cons_of_neg (by simp [hkey]), readMembers]
          simp only [hkey]
          exact ih slots
      | some f =>
          rw [known, List.filter_cons_of_pos (by simp [hkey]), readMembers,
            readMembers]
          simp only [hkey]
          cases slots f with
          | some _ => rfl
          | none =>
              cases spec.read f value with
              | error _ => rfl
              | ok x => exact ih _

/-- What members must be like to be read: at most one names a field, each
that names one is read, and a field none names is as before. -/
theorem readMembers_ok {members : List (String × J)} {slots x : Slots V}
    (h : spec.readMembers members slots = .ok x) :
    ((spec.known members).map fun m => spec.ofKey m.1).Nodup
      ∧ (∀ m ∈ members, ∀ f, spec.ofKey m.1 = some f →
          slots f = none ∧ ∃ y, spec.read f m.2 = .ok y ∧ x f = some y)
      ∧ ∀ f, (∀ m ∈ members, spec.ofKey m.1 ≠ some f) → x f = slots f := by
  induction members generalizing slots with
  | nil =>
      cases h
      exact ⟨List.nodup_nil, ⟨(fun m hm => by cases hm), fun _ _ => rfl⟩⟩
  | cons m members ih =>
      obtain ⟨key, value⟩ := m
      rw [readMembers] at h
      cases hkey : spec.ofKey key with
      | none =>
          simp only [hkey] at h
          obtain ⟨hnodup, hread, hrest⟩ := ih h
          refine ⟨?_, ?_, ?_⟩
          · rw [known, List.filter_cons_of_neg (by simp [hkey])]
            exact hnodup
          · intro m hm f hf
            rcases List.mem_cons.mp hm with rfl | hm
            · rw [hkey] at hf
              cases hf
            · exact hread m hm f hf
          · exact fun f hf => hrest f fun m hm => hf m (List.mem_cons_of_mem _ hm)
      | some g =>
          simp only [hkey] at h
          cases hslot : slots g with
          | some z =>
              simp only [hslot] at h
              cases h
          | none =>
              simp only [hslot] at h
              cases hy : spec.read g value with
              | error e =>
                  simp only [hy] at h
                  cases h
              | ok y =>
                  simp only [hy] at h
                  obtain ⟨hnodup, hread, hrest⟩ := ih h
                  -- no later member names the field just filled
                  have hother : ∀ m ∈ members, spec.ofKey m.1 ≠ some g := by
                    intro m hm heq
                    have hempty := (hread m hm g heq).1
                    rw [Function.update_self] at hempty
                    cases hempty
                  refine ⟨?_, ?_, ?_⟩
                  · rw [known, List.filter_cons_of_pos (by simp [hkey]),
                      List.map_cons, List.nodup_cons]
                    refine ⟨?_, hnodup⟩
                    intro hmem
                    obtain ⟨m, hm, heq⟩ := List.mem_map.mp hmem
                    exact hother m (List.mem_filter.mp hm).1 (heq.trans hkey)
                  · intro m hm f hf
                    rcases List.mem_cons.mp hm with rfl | hm
                    · cases Option.some.inj (hkey.symm.trans hf)
                      refine ⟨hslot, y, hy, ?_⟩
                      rw [hrest g hother, Function.update_self]
                    · obtain ⟨hempty, hx⟩ := hread m hm f hf
                      have hne : f ≠ g := by
                        rintro rfl
                        exact hother m hm hf
                      rw [Function.update_of_ne hne] at hempty
                      exact ⟨hempty, hx⟩
                  · intro f hf
                    have hne : f ≠ g := by
                      rintro rfl
                      exact hf _ List.mem_cons_self hkey
                    rw [hrest f fun m hm => hf m (List.mem_cons_of_mem _ hm),
                      Function.update_of_ne hne]

/-- Members are read exactly when they are a rendering of the fields,
among members of other names. -/
theorem readMembers_iff {fields : List F} (hfields : fields.Nodup)
    (hall : ∀ f, f ∈ fields) {members : List (String × J)} {x : Slots V} :
    spec.readMembers members emptySlots = .ok x
      ↔ ∃ member : F → Option (String × J),
        (spec.known members).Perm (fields.filterMap member)
          ∧ (∀ f key value, member f = some (key, value) →
            spec.ofKey key = some f
              ∧ ∃ y, spec.read f value = .ok y ∧ x f = some y)
          ∧ ∀ f, member f = none → x f = none := by
  constructor
  · intro h
    obtain ⟨hnodup, hread, hrest⟩ := readMembers_ok h
    let names (f : F) (m : String × J) : Bool := decide (spec.ofKey m.1 = some f)
    have hnames : ∀ f m, names f m = true ↔ spec.ofKey m.1 = some f :=
      fun f m => decide_eq_true_iff
    refine ⟨fun f => members.find? (names f), ?_, ?_, ?_⟩
    · -- two members of one field are one member
      have hinj := List.inj_on_of_nodup_map hnodup
      refine (List.perm_ext_iff_of_nodup (List.Nodup.of_map _ hnodup) ?_).mpr ?_
      · refine List.Nodup.filterMap ?_ hfields
        intro f g m hf hg
        have hf := (hnames f m).mp (List.find?_some hf)
        have hg := (hnames g m).mp (List.find?_some hg)
        exact Option.some.inj (hf.symm.trans hg)
      · intro m
        rw [List.mem_filterMap]
        constructor
        · intro hm
          obtain ⟨hmem, hsome⟩ := List.mem_filter.mp hm
          obtain ⟨f, hf⟩ := Option.isSome_iff_exists.mp hsome
          refine ⟨f, hall f, ?_⟩
          cases hfind : members.find? (names f) with
          | none =>
              have := List.find?_eq_none.mp hfind m hmem
              exact absurd ((hnames f m).mpr hf) this
          | some n =>
              have hn := (hnames f n).mp (List.find?_some hfind)
              have hknown : n ∈ spec.known members :=
                List.mem_filter.mpr ⟨List.mem_of_find?_eq_some hfind, by simp [hn]⟩
              rw [hinj hknown hm (hn.trans hf.symm)]
        · rintro ⟨f, -, hfind⟩
          have hn := (hnames f m).mp (List.find?_some hfind)
          exact List.mem_filter.mpr
            ⟨List.mem_of_find?_eq_some hfind, by simp [hn]⟩
    · intro f key value hf
      have hkey := (hnames f (key, value)).mp (List.find?_some hf)
      exact ⟨hkey, (hread _ (List.mem_of_find?_eq_some hf) f hkey).2⟩
    · intro f hf
      refine hrest f fun m hm heq => ?_
      exact List.find?_eq_none.mp hf m hm ((hnames f m).mpr heq)
  · rintro ⟨member, hmembers, hsome, hnone⟩
    rw [← readMembers_known]
    exact readMembers_of_rendering hfields hall hmembers hsome hnone

/-- Elements are read exactly when they are values of the first fields;
what is left over is more elements than fields. -/
theorem readElements_iff {fields : List F} (hfields : fields.Nodup)
    {elements : List J} {slots x : Slots V} :
    spec.readElements fields elements slots = .ok (x, [])
      ↔ List.Forall₂ (fun f value => ∃ y, spec.read f value = .ok y
          ∧ x f = some y) (fields.take elements.length) elements
        ∧ ∀ f, f ∉ fields.take elements.length → x f = slots f := by
  induction fields generalizing elements slots with
  | nil =>
      cases elements with
      | nil =>
          rw [readElements]
          · constructor
            · intro h
              cases h
              exact ⟨List.Forall₂.nil, fun _ _ => rfl⟩
            · rintro ⟨-, hrest⟩
              have : x = slots := funext fun f => hrest f (by simp)
              rw [this]
          · simp
      | cons value elements =>
          rw [readElements]
          · constructor
            · intro h
              cases h
            · rintro ⟨h, -⟩
              cases h
          · simp
  | cons f fields ih =>
      cases elements with
      | nil =>
          rw [readElements]
          · constructor
            · intro h
              cases h
              exact ⟨List.Forall₂.nil, fun _ _ => rfl⟩
            · rintro ⟨-, hrest⟩
              have : x = slots := funext fun f => hrest f (by simp)
              rw [this]
          · simp
      | cons value elements =>
          obtain ⟨hf, hfields⟩ := List.nodup_cons.mp hfields
          have hnot : f ∉ fields.take elements.length :=
            fun h => hf (List.mem_of_mem_take h)
          rw [readElements, List.length_cons, List.take_succ_cons,
            List.forall₂_cons]
          cases hy : spec.read f value with
          | error e =>
              constructor
              · intro h
                cases h
              · rintro ⟨⟨⟨y, h, -⟩, -⟩, -⟩
                cases h
          | ok y =>
              dsimp only
              rw [ih hfields]
              constructor
              · rintro ⟨hvalues, hrest⟩
                refine ⟨⟨⟨y, rfl, ?_⟩, hvalues⟩, ?_⟩
                · rw [hrest f hnot, Function.update_self]
                · intro g hg
                  rw [List.mem_cons, not_or] at hg
                  rw [hrest g hg.2, Function.update_of_ne hg.1]
              · rintro ⟨⟨⟨z, hz, hx⟩, hvalues⟩, hrest⟩
                cases hz
                refine ⟨hvalues, fun g hg => ?_⟩
                by_cases heq : g = f
                · rw [heq, Function.update_self, hx]
                · rw [Function.update_of_ne heq]
                  exact hrest g (by
                    rw [List.mem_cons, not_or]
                    exact ⟨heq, hg⟩)

end RecordSpec

end PaimonFtindex.Lib
