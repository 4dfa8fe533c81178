import SdlAssembly.Annotated.Entities

/-!
# Patterns that fit

A pattern fits a type if each of its fields is at the end of a path that can be walked from the type:
through objects and interfaces, to a leaf type where the field is bare and to an object or interface
where it is not. What a path does not show, such as aliases or wrappers of types, makes no difference.
-/

namespace SdlAssembly.Schemas

/-! ## Types without wrappers -/

def InputField.unwrapped (field : InputField) : InputField :=
  { field with type := .named field.type.core }

def Field.unwrapped (field : Field) : Field :=
  { field with
    arguments := field.arguments.map InputField.unwrapped
    type := .named field.type.core }

/-- A type whose members have their types without lists and marks that they may not be null. -/
def NamedType.unwrapped (t : NamedType) : NamedType :=
  { t with
    shape := match t.shape with
      | .object interfaces fields => .object interfaces (fields.map Field.unwrapped)
      | .interface interfaces fields => .interface interfaces (fields.map Field.unwrapped)
      | .inputObject fields oneOf => .inputObject (fields.map InputField.unwrapped) oneOf
      | .scalar _ | .union _ | .enum _ => t.shape }

def Schema.unwrapped (schema : Schema) : Schema :=
  { schema with types := schema.types.map NamedType.unwrapped }

end SdlAssembly.Schemas

namespace SdlAssembly.Annotated

open Grammar Schemas

/-! ## Paths -/

/-- Whether a type has fields that can be selected. -/
def hasFields (t : NamedType) : Bool := t.isObject || t.isInterface

/-- The type of a field. -/
def fieldTarget? (schema : Schema) (t : NamedType) (name : String) : Option NamedType :=
  (t.field? name).bind fun field => schema.type? field.type.core

/-- The type at the end of a path of field names; only objects and interfaces are walked through. -/
def walk (schema : Schema) (t : NamedType) : List String → Option NamedType
  | [] => some t
  | name :: path =>
    if hasFields t then (fieldTarget? schema t name).bind fun target => walk schema target path
    else none

/-- The fields of a selection set at any depth, by their paths of names from the root, with their
sub-selections. -/
inductive FieldAt : SelectionSet → List String → Option SelectionSet → Prop
  | here {aliasName name arguments directives sub set} :
    Selection.field aliasName name arguments directives sub ∈ set → FieldAt set [name] sub
  | inside {aliasName name arguments directives inner set path sub} :
    Selection.field aliasName name arguments directives (some inner) ∈ set →
      FieldAt inner path sub → FieldAt set (name :: path) sub

/-- Selection sets with a fragment at some depth. -/
inductive HasFragment : SelectionSet → Prop
  | spread {name directives set} : Selection.spread name directives ∈ set → HasFragment set
  | inline {condition directives inner set} :
    Selection.inline condition directives inner ∈ set → HasFragment set
  | inside {aliasName name arguments directives inner set} :
    Selection.field aliasName name arguments directives (some inner) ∈ set →
      HasFragment inner → HasFragment set

/-- What a field selects fits its type: nothing of a leaf type, something of any other that has
fields. -/
def EndsAt (target : NamedType) : Option SelectionSet → Prop
  | none => target.isLeaf
  | some _ => hasFields target

/-- Every field is at the end of a path that can be walked. -/
structure Walkable (schema : Schema) (t : NamedType) (set : SelectionSet) : Prop where
  plain : ¬HasFragment set
  ends : ∀ path sub, FieldAt set path sub →
    ∃ target, walk schema t path = some target ∧ EndsAt target sub

section Walking

variable {schema : Schema} {t : NamedType} {selection : Selection} {set : SelectionSet}

theorem walk_cons (ht : hasFields t) (name : String) (path : List String) :
    walk schema t (name :: path) =
      (fieldTarget? schema t name).bind fun target => walk schema target path := by
  rw [walk, if_pos ht]

/-! ## Selections one by one -/

theorem FieldAt.mono {set' : SelectionSet} {path : List String} {sub : Option SelectionSet}
    (h : FieldAt set path sub) (hs : set ⊆ set') : FieldAt set' path sub := by
  cases h with
  | here hm => exact .here (hs hm)
  | inside hm hi => exact .inside (hs hm) hi

theorem HasFragment.mono {set' : SelectionSet} (h : HasFragment set) (hs : set ⊆ set') :
    HasFragment set' := by
  cases h with
  | spread hm => exact .spread (hs hm)
  | inline hm => exact .inline (hs hm)
  | inside hm hi => exact .inside (hs hm) hi

/-- A selection set is walkable if each of its selections is. -/
theorem walkable_iff_forall :
    Walkable schema t set ↔ ∀ selection ∈ set, Walkable schema t [selection] := by
  constructor
  · intro h selection hm
    have hs : [selection] ⊆ set := by simpa using hm
    exact ⟨fun hf => h.plain (hf.mono hs), fun path sub hf => h.ends path sub (hf.mono hs)⟩
  · intro h
    constructor
    · intro hf
      cases hf with
      | spread hm => exact (h _ hm).plain (.spread List.mem_cons_self)
      | inline hm => exact (h _ hm).plain (.inline List.mem_cons_self)
      | inside hm hi => exact (h _ hm).plain (.inside List.mem_cons_self hi)
    · intro path sub hf
      cases hf with
      | here hm => exact (h _ hm).ends _ _ (.here List.mem_cons_self)
      | inside hm hi => exact (h _ hm).ends _ _ (.inside List.mem_cons_self hi)

theorem walkable_nil : Walkable schema t [] :=
  walkable_iff_forall.mpr (by simp)

theorem walkable_cons {selection : Selection} :
    Walkable schema t (selection :: set) ↔
      Walkable schema t [selection] ∧ Walkable schema t set := by
  rw [walkable_iff_forall, List.forall_mem_cons, ← walkable_iff_forall]

theorem not_walkable_spread {name : String} {directives : List Directive} :
    ¬Walkable schema t [.spread name directives] := fun h => h.plain (.spread List.mem_cons_self)

theorem not_walkable_inline {condition : Option String} {directives : List Directive} :
    ¬Walkable schema t [.inline condition directives set] :=
  fun h => h.plain (.inline List.mem_cons_self)

section Field

variable {aliasName : Option String} {name : String} {arguments : List Argument}
  {directives : List Directive}

theorem hasFragment_field {sub : Option SelectionSet} :
    HasFragment [.field aliasName name arguments directives sub] ↔
      ∃ inner, sub = some inner ∧ HasFragment inner := by
  constructor
  · intro h
    cases h with
    | spread hm | inline hm => simp at hm
    | inside hm hi =>
        simp only [List.mem_singleton, Selection.field.injEq] at hm
        obtain ⟨-, -, -, -, rfl⟩ := hm
        exact ⟨_, rfl, hi⟩
  · rintro ⟨inner, rfl, hi⟩
    exact .inside List.mem_cons_self hi

theorem fieldAt_field {sub sub' : Option SelectionSet} {path : List String} :
    FieldAt [.field aliasName name arguments directives sub] path sub' ↔
      path = [name] ∧ sub' = sub
        ∨ ∃ inner rest, sub = some inner ∧ path = name :: rest ∧ FieldAt inner rest sub' := by
  constructor
  · intro h
    cases h with
    | here hm =>
        simp only [List.mem_singleton, Selection.field.injEq] at hm
        obtain ⟨-, rfl, -, -, rfl⟩ := hm
        exact .inl ⟨rfl, rfl⟩
    | inside hm hi =>
        simp only [List.mem_singleton, Selection.field.injEq] at hm
        obtain ⟨-, rfl, -, -, rfl⟩ := hm
        exact .inr ⟨_, _, rfl, rfl, hi⟩
  · rintro (⟨rfl, rfl⟩ | ⟨inner, rest, rfl, rfl, hi⟩)
    · exact .here List.mem_cons_self
    · exact .inside List.mem_cons_self hi

/-- The first step of a path to a field. -/
theorem walk_singleton (ht : hasFields t) (name : String) :
    walk schema t [name] = fieldTarget? schema t name := by
  rw [walk_cons ht]
  exact Option.bind_fun_some _

theorem walkable_leaf (ht : hasFields t) :
    Walkable schema t [.field aliasName name arguments directives none] ↔
      ∃ target, fieldTarget? schema t name = some target ∧ target.isLeaf := by
  constructor
  · intro h
    obtain ⟨target, hw, he⟩ := h.ends [name] none (fieldAt_field.mpr (.inl ⟨rfl, rfl⟩))
    exact ⟨target, walk_singleton ht name ▸ hw, he⟩
  · rintro ⟨target, hf, he⟩
    refine ⟨by simp [hasFragment_field], fun path sub h => ?_⟩
    rcases fieldAt_field.mp h with ⟨rfl, rfl⟩ | ⟨inner, rest, hi, -⟩
    · exact ⟨target, (walk_singleton ht name).trans hf, he⟩
    · cases hi

theorem walkable_nested (ht : hasFields t) :
    Walkable schema t [.field aliasName name arguments directives (some set)] ↔
      ∃ target, fieldTarget? schema t name = some target ∧ hasFields target
        ∧ Walkable schema target set := by
  constructor
  · intro h
    obtain ⟨target, hw, he⟩ := h.ends [name] (some set) (fieldAt_field.mpr (.inl ⟨rfl, rfl⟩))
    have hf : fieldTarget? schema t name = some target := walk_singleton ht name ▸ hw
    refine ⟨target, hf, he, fun hi => h.plain (hasFragment_field.mpr ⟨set, rfl, hi⟩),
      fun path sub hi => ?_⟩
    obtain ⟨last, hw, he⟩ :=
      h.ends (name :: path) sub (fieldAt_field.mpr (.inr ⟨set, path, rfl, rfl, hi⟩))
    rw [walk_cons ht, hf] at hw
    exact ⟨last, hw, he⟩
  · rintro ⟨target, hf, he, hs⟩
    refine ⟨fun h => ?_, fun path sub h => ?_⟩
    · obtain ⟨inner, hinner, hi⟩ := hasFragment_field.mp h
      cases hinner
      exact hs.plain hi
    · rcases fieldAt_field.mp h with ⟨rfl, rfl⟩ | ⟨inner, rest, hinner, rfl, hi⟩
      · exact ⟨target, (walk_singleton ht name).trans hf, he⟩
      · cases hinner
        obtain ⟨last, hw, he⟩ := hs.ends _ _ hi
        exact ⟨last, by rw [walk_cons ht, hf]; exact hw, he⟩

end Field

/-! ## Fitting is walking -/

/-- An object or interface has no members but its fields. -/
theorem memberType?_bind (ht : hasFields t) (name : String) :
    ((memberType? t name).bind fun type => schema.type? type.core) = fieldTarget? schema t name := by
  have hnone : t.inputFields = [] := by
    unfold NamedType.inputFields
    split
    · rename_i hs
      simp [hasFields, NamedType.isObject, NamedType.isInterface, hs] at ht
    · rfl
  rw [memberType?, hnone, fieldTarget?]
  cases t.field? name <;> rfl

mutual

theorem fitsSelection_iff (schema : Schema) : (selection : Selection) → (t : NamedType) →
    hasFields t → (fitsSelection schema selection t ↔ Walkable schema t [selection])
  | .spread _ _, t, _ => by simp [fitsSelection, not_walkable_spread]
  | .inline _ _ _, t, _ => by simp [fitsSelection, not_walkable_inline]
  | .field _ name _ _ none, t, ht => by
      rw [walkable_leaf ht, fitsSelection, memberType?_bind ht]
      cases fieldTarget? schema t name <;> simp
  | .field _ name _ _ (some set), t, ht => by
      rw [walkable_nested ht, fitsSelection, memberType?_bind ht]
      cases fieldTarget? schema t name with
      | none => simp
      | some target =>
          simp only [Bool.and_eq_true, Option.some.injEq, exists_eq_left']
          exact and_congr_right fun hf => fits_iff schema set target hf

/-- A pattern fits if its fields can be walked to. -/
theorem fits_iff (schema : Schema) : (set : SelectionSet) → (t : NamedType) → hasFields t →
    (fits schema set t ↔ Walkable schema t set)
  | [], t, _ => by
      simp [fits, walkable_nil]
  | selection :: rest, t, ht => by
      rw [fits, Bool.and_eq_true, fitsSelection_iff schema selection t ht, fits_iff schema rest t ht,
        ← walkable_cons]

end

end Walking

/-! ## What makes no difference -/

/-- Selection sets that differ, at any depth, in aliases, arguments and directives and in the order
and repetition of their selections. -/
inductive SameFields : SelectionSet → SelectionSet → Prop
  | refl (set) : SameFields set set
  | symm {set set'} : SameFields set set' → SameFields set' set
  | trans {set set' set''} : SameFields set set' → SameFields set' set'' → SameFields set set''
  | cons (selection) {set set'} :
    SameFields set set' → SameFields (selection :: set) (selection :: set')
  | swap (first second set) : SameFields (first :: second :: set) (second :: first :: set)
  | again (selection set) : SameFields (selection :: selection :: set) (selection :: set)
  | relabel (name sub set) {aliasName aliasName' arguments arguments' directives directives'} :
    SameFields (.field aliasName name arguments directives sub :: set)
      (.field aliasName' name arguments' directives' sub :: set)
  | inside (set) {aliasName name arguments directives inner inner'} : SameFields inner inner' →
    SameFields (.field aliasName name arguments directives (some inner) :: set)
      (.field aliasName name arguments directives (some inner') :: set)

theorem SameFields.fits_eq {set set' : SelectionSet} (h : SameFields set set') (schema : Schema)
    (t : NamedType) : fits schema set t = fits schema set' t := by
  induction h generalizing t with
  | refl => rfl
  | symm _ ih => exact (ih t).symm
  | trans _ _ ih ih' => exact (ih t).trans (ih' t)
  | cons selection _ ih => rw [fits, fits, ih]
  | swap first second set => simp only [fits, Bool.and_left_comm]
  | again selection set => simp only [fits, ← Bool.and_assoc, Bool.and_self]
  | relabel name sub set => cases sub <;> simp only [fits, fitsSelection]
  | inside set _ ih => simp only [fits, fitsSelection, ih]

/-! ### Wrappers -/

section Wrappers

variable {schema : Schema} {t : NamedType}

theorem isLeaf_unwrapped (t : NamedType) : t.unwrapped.isLeaf = t.isLeaf := by
  obtain ⟨name, description, shape⟩ := t
  cases shape <;> rfl

theorem hasFields_unwrapped (t : NamedType) : hasFields t.unwrapped = hasFields t := by
  obtain ⟨name, description, shape⟩ := t
  cases shape <;> rfl

theorem field?_unwrapped (t : NamedType) (name : String) :
    t.unwrapped.field? name = (t.field? name).map Field.unwrapped := by
  have hfields : t.unwrapped.fields = t.fields.map Field.unwrapped := by
    obtain ⟨name, description, shape⟩ := t
    cases shape <;> rfl
  rw [NamedType.field?, hfields, List.find?_map]
  rfl

theorem type?_unwrapped (schema : Schema) (name : String) :
    schema.unwrapped.type? name = (schema.type? name).map NamedType.unwrapped := by
  rw [Schema.type?, Schema.unwrapped, List.find?_map]
  rfl

theorem fieldTarget?_unwrapped (name : String) :
    fieldTarget? schema.unwrapped t.unwrapped name =
      (fieldTarget? schema t name).map NamedType.unwrapped := by
  rw [fieldTarget?, fieldTarget?, field?_unwrapped, Option.bind_map, Option.map_bind]
  exact congrArg _ (funext fun field => type?_unwrapped schema field.type.core)

/-- A path leads to the same type whatever the wrappers. -/
theorem walk_unwrapped (path : List String) : walk schema.unwrapped t.unwrapped path =
    (walk schema t path).map NamedType.unwrapped := by
  induction path generalizing t with
  | nil => rfl
  | cons name path ih =>
      rw [walk, walk, hasFields_unwrapped, fieldTarget?_unwrapped]
      split
      · rw [Option.bind_map, Option.map_bind]
        exact congrArg _ (funext fun target => ih)
      · rfl

theorem endsAt_unwrapped (sub : Option SelectionSet) : EndsAt t.unwrapped sub ↔ EndsAt t sub := by
  cases sub <;> simp only [EndsAt, isLeaf_unwrapped, hasFields_unwrapped]

theorem walkable_unwrapped (set : SelectionSet) :
    Walkable schema.unwrapped t.unwrapped set ↔ Walkable schema t set := by
  have hends : ∀ path sub, (∃ target, walk schema.unwrapped t.unwrapped path = some target
      ∧ EndsAt target sub) ↔ ∃ target, walk schema t path = some target ∧ EndsAt target sub := by
    intro path sub
    rw [walk_unwrapped]
    cases walk schema t path with
    | none => simp
    | some target => simp [endsAt_unwrapped]
  constructor
  · exact fun h => ⟨h.plain, fun path sub hf => (hends path sub).mp (h.ends path sub hf)⟩
  · exact fun h => ⟨h.plain, fun path sub hf => (hends path sub).mpr (h.ends path sub hf)⟩

theorem fits_unwrapped (ht : hasFields t) (set : SelectionSet) :
    fits schema.unwrapped set t.unwrapped = fits schema set t := by
  rw [Bool.eq_iff_iff, fits_iff _ set _ (hasFields_unwrapped t ▸ ht), fits_iff _ set _ ht,
    walkable_unwrapped]

end Wrappers

/-! ## The answer for a pattern -/

/-- A pattern fits an object or interface exactly if it has no fragment and each of its fields is at
the end of a path that can be walked from the type. Aliases, arguments, directives, the order and
repetition of selections and the wrappers of types make no difference. -/
theorem fits_exact (schema : Schema) (t : NamedType) (ht : t.isObject ∨ t.isInterface)
    (set : SelectionSet) :
    (fits schema set t ↔ ¬HasFragment set ∧ ∀ path sub, FieldAt set path sub →
        ∃ target, walk schema t path = some target ∧ EndsAt target sub)
      ∧ (∀ set', SameFields set set' → fits schema set' t = fits schema set t)
      ∧ ∀ (schema' : Schema) (t' : NamedType), schema'.unwrapped = schema.unwrapped →
        t'.unwrapped = t.unwrapped → fits schema' set t' = fits schema set t := by
  have ht : hasFields t := by simpa [hasFields] using ht
  refine ⟨(fits_iff schema set t ht).trans ⟨fun h => ⟨h.plain, h.ends⟩, fun h => ⟨h.1, h.2⟩⟩,
    fun set' hs => (hs.fits_eq schema t).symm, fun schema' t' hschema htype => ?_⟩
  have ht' : hasFields t' := by rw [← hasFields_unwrapped, htype, hasFields_unwrapped, ht]
  rw [← fits_unwrapped ht', hschema, htype, fits_unwrapped ht]

/-- A user has an organization, which has users. -/
def user : NamedType :=
  { name := "User"
    shape := .object [] [{ name := "id", type := .nonNull (.named "ID") },
      { name := "owner", type := .named "Organization" }] }

/-- Two types that lead to each other. -/
def membership : Schema :=
  { types := [user,
      { name := "Organization"
        shape := .interface [] [{ name := "members", type := .list (.nonNull (.named "User")) }] },
      { name := "ID", shape := .scalar none }]
    directives := [] }

/-- The pattern `id key: owner { members { id } }`. -/
def memberKey : SelectionSet :=
  [.field none "id" [] [] none,
    .field (some "key") "owner" [] []
      (some [.field none "members" [] [] (some [.field none "id" [] [] none])])]

theorem fits_exact_membership :
    ¬HasFragment memberKey ∧ ∀ path sub, FieldAt memberKey path sub →
      ∃ target, walk membership user path = some target ∧ EndsAt target sub :=
  (fits_exact membership user (.inl rfl) memberKey).1.mp (by decide)

example : fits membership [.field none "owner" [] [] none] user = false := by decide

end SdlAssembly.Annotated
