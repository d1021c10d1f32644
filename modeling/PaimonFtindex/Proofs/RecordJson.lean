/-
What the derived reader of a record reads: exactly its renderings.

A rendering of a record is an object that gives its fields in any order,
leaves out no field but at its default and may hold members of other
names, or an array that gives the first fields in their order.

`structVariant_iff` says it once for every record, whatever its fields
are and whatever a spelling of each is; the header of an archive and the
variants of a query are cases of it.
-/
import PaimonFtindex.Proofs.QueryJson

namespace PaimonFtindex.Proofs

open Model Lib

-- ============================================================== renderings

/-- Members that give the fields, each by one member at most and left out
only at its default; the others are of names the record does not have. -/
def MembersSpelled {F : Type} (fields : List F) (names : F → List String)
    (isDefault : F → Prop) (spelled : F → Json → Prop)
    (members : List (String × Json)) : Prop :=
  ∃ member : F → Option (String × Json),
    (members.filter fun m =>
        (fields.find? fun f => (names f).contains m.1).isSome).Perm
      (fields.filterMap member)
    ∧ ∀ f, GivenAs (names f) (isDefault f) (spelled f) (member f)

/-- Elements that give the first fields, the others at their defaults. -/
def ElementsSpelled {F : Type} (fields : List F) (isDefault : F → Prop)
    (spelled : F → Json → Prop) (elements : List Json) : Prop :=
  List.Forall₂ spelled (fields.take elements.length) elements
    ∧ ∀ f, f ∉ fields.take elements.length → isDefault f

/-- A rendering of a record. -/
def RecordSpelled {F : Type} (fields : List F) (names : F → List String)
    (isDefault : F → Prop) (spelled : F → Json → Prop) : Json → Prop
  | .object members => MembersSpelled fields names isDefault spelled members
  | .array elements => ElementsSpelled fields isDefault spelled elements
  | _ => False

/-- The names of a record's fields: all fields are listed once, and each
name is of one field, serde's name of it the first. -/
structure FieldNames {F : Type} [DecidableEq F] (fields : List F)
    (names : F → List String) : Prop where
  nodup : fields.Nodup
  all : ∀ f, f ∈ fields
  head : ∀ f, (names f).headD "" ∈ names f
  find : ∀ f, ∀ key ∈ names f,
    (fields.find? fun g => (names g).contains key) = some f

/-- A slot holds the value, or nothing where the value is the default. -/
def Fills {α : Type} (isDefault : α → Prop) : Option α → α → Prop
  | some y, x => y = x
  | none, x => isDefault x

/-- A field with one default has the value of its slot, or that default. -/
theorem fills_eq_iff {α : Type} {slot : Option α} {default x : α} :
    Fills (· = default) slot x ↔ slot.getD default = x := by
  cases slot with
  | none => exact eq_comm
  | some y => exact Iff.rfl

theorem fills_required_iff {α : Type} {slot : Option α} {x : α} :
    Fills (fun _ => False) slot x ↔ slot = some x := by
  cases slot with
  | none => simp [Fills]
  | some y => simp [Fills]

section

variable {F α : Type} {V : F → Type} [DecidableEq F] {fields : List F}
  {names : F → List String} {isDefault : (f : F) → V f → Prop}
  {spelled : (f : F) → V f → Json → Prop} {given : (f : F) → V f}
  {read : Nat → (f : F) → Json → Except JsonError (V f)}
  {finish : (String → JsonError) → Slots V → Except JsonError α}

/-- An object is read exactly when its members give the fields. -/
theorem structVariant_object_iff (hnames : FieldNames fields names)
    {remaining : Nat} (hone : 1 < remaining)
    (hread : ∀ f json y, read (remaining - 1) f json = .ok y
      ↔ spelled f y json)
    {a : α} (hfinish : ∀ missing slots, finish missing slots = .ok a
      ↔ ∀ f, Fills (isDefault f) (slots f) (given f))
    {members : List (String × Json)} :
    structVariant (fun remaining => namedFields fields names (read remaining))
        fields finish remaining (.object members) = .ok a
      ↔ MembersSpelled fields names (fun f => isDefault f (given f))
        (fun f => spelled f (given f)) members := by
  unfold structVariant
  dsimp only
  rw [enter_eq hone]
  constructor
  · intro h
    obtain ⟨slots, hslots, h⟩ := except_bind_eq_ok.mp h
    obtain ⟨member, hmembers, hsome, hnone⟩ :=
      (RecordSpec.readMembers_iff hnames.nodup hnames.all).mp hslots
    refine ⟨member, hmembers, fun f => ?_⟩
    have hfills := (hfinish _ _).mp h f
    cases hm : member f with
    | none =>
        rw [hnone f hm] at hfills
        exact hfills
    | some m =>
        obtain ⟨hkey, y, hy, hslot⟩ := hsome f m.1 m.2 hm
        have hkey : (fields.find? fun g => (names g).contains m.1) = some f :=
          hkey
        have hcontains := List.find?_some hkey
        rw [hslot] at hfills
        cases (show y = given f from hfills)
        exact ⟨List.contains_iff_mem.mp hcontains, (hread f m.2 _).mp hy⟩
  · rintro ⟨member, hmembers, hgiven⟩
    have hslots : (namedFields fields names (read (remaining - 1))).readMembers
        members emptySlots = .ok fun f => (member f).map fun _ => given f := by
      refine (RecordSpec.readMembers_iff hnames.nodup hnames.all).mpr
        ⟨member, hmembers, ?_, ?_⟩
      · intro f key value hf
        have hgivenf := hgiven f
        rw [hf] at hgivenf ⊢
        exact ⟨hnames.find f key hgivenf.1, given f,
          (hread f value _).mpr hgivenf.2, rfl⟩
      · intro f hf
        rw [hf]
        rfl
    rw [hslots]
    refine (hfinish _ _).mpr fun f => ?_
    have hgivenf := hgiven f
    cases hm : member f with
    | none =>
        rw [hm] at hgivenf
        exact hgivenf
    | some m => exact rfl

/-- An array is read exactly when its elements give the first fields. -/
theorem structVariant_array_iff (hnames : FieldNames fields names)
    {remaining : Nat} (hone : 1 < remaining)
    (hread : ∀ f json y, read (remaining - 1) f json = .ok y
      ↔ spelled f y json)
    {a : α} (hfinish : ∀ missing slots, finish missing slots = .ok a
      ↔ ∀ f, Fills (isDefault f) (slots f) (given f))
    {elements : List Json} :
    structVariant (fun remaining => namedFields fields names (read remaining))
        fields finish remaining (.array elements) = .ok a
      ↔ ElementsSpelled fields (fun f => isDefault f (given f))
        (fun f => spelled f (given f)) elements := by
  unfold structVariant
  dsimp only
  rw [enter_eq hone]
  constructor
  · intro h
    obtain ⟨⟨slots, rest⟩, hslots, h⟩ := except_bind_eq_ok.mp h
    obtain ⟨value, hvalue, h⟩ := except_bind_eq_ok.mp h
    cases rest with
    | cons _ _ => cases h
    | nil =>
        cases h
        have hfills := (hfinish _ _).mp hvalue
        dsimp only at hfills
        obtain ⟨hvalues, hrest⟩ :=
          (RecordSpec.readElements_iff hnames.nodup).mp hslots
        refine ⟨hvalues.imp fun f value hvalue => ?_, fun f hf => ?_⟩
        · obtain ⟨y, hy, hslot⟩ := hvalue
          have hfillsf := hfills f
          rw [hslot] at hfillsf
          cases (show y = given f from hfillsf)
          exact (hread f value _).mp hy
        · have hfillsf := hfills f
          rw [hrest f hf] at hfillsf
          exact hfillsf
  · rintro ⟨hvalues, hrest⟩
    have hslots : (namedFields fields names (read (remaining - 1))).readElements
        fields elements emptySlots = .ok (fun f =>
          if f ∈ fields.take elements.length then some (given f) else none,
          []) := by
      refine (RecordSpec.readElements_iff hnames.nodup).mpr
        ⟨?_, fun f hf => if_neg hf⟩
      refine ((List.forall₂_and_left _ _).mpr ⟨fun f hf => hf, hvalues⟩).imp
        fun f value h => ?_
      exact ⟨given f, (hread f value _).mpr h.2, if_pos h.1⟩
    rw [hslots]
    refine except_bind_eq_ok.mpr ⟨_, rfl, except_bind_eq_ok.mpr
      ⟨a, (hfinish _ _).mpr fun f => ?_, rfl⟩⟩
    dsimp only
    by_cases hf : f ∈ fields.take elements.length
    · rw [if_pos hf]
      exact rfl
    · rw [if_neg hf]
      exact hrest f hf

/-- The derived reader of a record reads its renderings and nothing
else. -/
theorem structVariant_iff (hnames : FieldNames fields names)
    {remaining : Nat} (hone : 1 < remaining)
    (hread : ∀ f json y, read (remaining - 1) f json = .ok y
      ↔ spelled f y json)
    {a : α} (hfinish : ∀ missing slots, finish missing slots = .ok a
      ↔ ∀ f, Fills (isDefault f) (slots f) (given f))
    {json : Json} :
    structVariant (fun remaining => namedFields fields names (read remaining))
        fields finish remaining json = .ok a
      ↔ RecordSpelled fields names (fun f => isDefault f (given f))
        (fun f => spelled f (given f)) json := by
  cases json with
  | object members =>
      exact structVariant_object_iff hnames hone hread hfinish
  | array elements =>
      exact structVariant_array_iff hnames hone hread hfinish
  | _ =>
      constructor
      · intro h
        cases h
      · exact False.elim

end

-- ============================================================== the values

theorem readString_iff {json : Json} {s : String} :
    readString json = .ok s ↔ json = .string s := by
  cases json <;> simp [readString, invalidType]

theorem readUsize_iff {json : Json} {n : UInt64} :
    readUsize json = .ok n ↔ json = usizeToJson n := by
  cases json with
  | number m => cases m <;> simp [readUsize, invalidType, usizeToJson]
  | _ => simp [readUsize, invalidType, usizeToJson]

/-- A list is read off an array of renderings. -/
theorem readVec_iff {α : Type} {read : Nat → Json → Except JsonError α}
    {spelled : α → Json → Prop} {remaining : Nat} (hone : 1 < remaining)
    (hread : ∀ json x, read (remaining - 1) json = .ok x ↔ spelled x json)
    {xs : List α} {json : Json} :
    readVec read remaining json = .ok xs ↔ VecSpelled spelled xs json := by
  cases json with
  | array elements =>
      unfold readVec
      dsimp only
      rw [enter_eq hone, mapM_eq_ok]
      constructor
      · intro h
        exact ⟨elements, rfl, h.flip.imp fun x json => (hread json x).mp⟩
      · rintro ⟨_, heq, h⟩
        cases heq
        exact (h.imp fun x json => (hread json x).mpr).flip
  | _ =>
      constructor
      · intro h
        cases h
      · rintro ⟨_, heq, -⟩
        cases heq

theorem required_eq_ok {α : Type} {error : JsonError} {slot : Option α} {x : α} :
    required error slot = .ok x ↔ slot = some x := by
  cases slot with
  | none => simp [required]
  | some y => simp [required]

end PaimonFtindex.Proofs
