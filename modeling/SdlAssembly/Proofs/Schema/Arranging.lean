import SdlAssembly.Proofs.Outcomes
import SdlAssembly.Schema.Build

/-!
# The types of an arranged schema

Arranging lists each given type once, with all that it leads to. The standard types join in where
they are reached, and no other types do.
-/

namespace SdlAssembly.Schemas

open Grammar

/-! ## Names that are reached -/

section Reaching

variable {type? : String → Option NamedType} {seen middle seen' : List String}

/-- What a type leads to is seen, as far as it is there. -/
def ClosedAt (type? : String → Option NamedType) (seen : List String) (name : String) : Prop :=
  ∀ t, type? name = some t → ∀ next ∈ t.leadsTo, (type? next).isSome → next ∈ seen

theorem ClosedAt.mono {name : String} (h : ClosedAt type? seen name) (hs : seen ⊆ seen') :
    ClosedAt type? seen' name :=
  fun t ht next hn hk => hs (h t ht next hn hk)

/-- Names to which others were added with all that these lead to. -/
structure Reaches (type? : String → Option NamedType) (seen names seen' : List String) : Prop where
  kept : seen ⊆ seen'
  nodup : seen.Nodup → seen'.Nodup
  known : ∀ name ∈ seen', name ∉ seen → (type? name).isSome
  added : ∀ name ∈ names, (type? name).isSome → name ∈ seen'
  closed : ∀ name ∈ seen', name ∉ seen → ClosedAt type? seen' name

theorem Reaches.nil (seen : List String) : Reaches type? seen [] seen :=
  ⟨fun _ h => h, id, fun _ h hn => (hn h).elim, by simp, fun _ h hn => (hn h).elim⟩

theorem Reaches.append {names names' : List String} (h : Reaches type? seen names middle)
    (h' : Reaches type? middle names' seen') : Reaches type? seen (names ++ names') seen' := by
  refine ⟨fun _ hm => h'.kept (h.kept hm), fun hn => h'.nodup (h.nodup hn), ?_, ?_, ?_⟩
  · intro name hm hs
    by_cases hmid : name ∈ middle
    · exact h.known name hmid hs
    · exact h'.known name hm hmid
  · intro name hm hk
    rcases List.mem_append.mp hm with hm | hm
    · exact h'.kept (h.added name hm hk)
    · exact h'.added name hm hk
  · intro name hm hs
    by_cases hmid : name ∈ middle
    · exact (h.closed name hmid hs).mono h'.kept
    · exact h'.closed name hm hmid

/-- The number of names that are not seen yet. -/
def unseen (names seen : List String) : Nat := names.countP fun name => decide (name ∉ seen)

theorem unseen_mono {names : List String} (h : seen ⊆ seen') :
    unseen names seen' ≤ unseen names seen := by
  refine List.countP_mono_left fun name _ hn => ?_
  exact decide_eq_true fun hs => of_decide_eq_true hn (h hs)

theorem unseen_append {names : List String} {name : String} (hm : name ∈ names)
    (hs : name ∉ seen) : unseen names (seen ++ [name]) < unseen names seen := by
  refine List.countP_lt_countP_of_mem (fun x hx => ?_) hm (by simp) (by simpa using hs)
  exact decide_eq_true fun h => of_decide_eq_true hx (List.mem_append_left _ h)

theorem reaches_foldl {names : List String} {step : List String → String → List String}
    {fuel : Nat} (hstep : ∀ seen name, unseen names seen < fuel →
      Reaches type? seen [name] (step seen name)) (items : List String)
    (hf : unseen names seen < fuel) : Reaches type? seen items (items.foldl step seen) := by
  induction items generalizing seen with
  | nil => exact .nil seen
  | cons name items ih =>
      have hfirst := hstep seen name hf
      have hrest := ih (Nat.lt_of_le_of_lt (unseen_mono hfirst.kept) hf)
      exact hfirst.append hrest

/-- Reaching a name sees it and all that it leads to, with fuel for each name not seen yet. -/
theorem reach_reaches {names : List String} (hn : ∀ name, (type? name).isSome → name ∈ names)
    {fuel : Nat} {seen : List String} {name : String} (hf : unseen names seen < fuel) :
    Reaches type? seen [name] (reach type? fuel seen name) := by
  induction fuel generalizing seen name with
  | zero => cases hf
  | succ fuel ih =>
      unfold reach
      split
      · rename_i hs
        refine { Reaches.nil seen with added := fun x hx _ => ?_ }
        obtain rfl := List.mem_singleton.mp hx
        simpa using hs
      · rename_i hs
        have hs : name ∉ seen := by simpa using hs
        split
        · rename_i ht
          refine { Reaches.nil seen with added := fun x hx hk => ?_ }
          obtain rfl := List.mem_singleton.mp hx
          rw [ht] at hk
          cases hk
        · rename_i t ht
          have hlt := unseen_append (hn name (by simp [ht])) hs
          have hr : Reaches type? (seen ++ [name]) t.leadsTo _ :=
            reaches_foldl (fun seen name h => ih h) t.leadsTo
              (Nat.lt_of_lt_of_le hlt (Nat.le_of_lt_succ hf))
          have hname := hr.kept (List.mem_append_right seen (List.mem_singleton_self name))
          refine ⟨fun x hx => hr.kept (List.mem_append_left _ hx), fun hd => hr.nodup ?_, ?_, ?_, ?_⟩
          · exact List.nodup_append.mpr ⟨hd, by simp, by
              intro a ha b hb
              obtain rfl := List.mem_singleton.mp hb
              exact fun he => hs (he ▸ ha)⟩
          · intro x hx hxs
            by_cases hxn : x = name
            · simp [hxn, ht]
            · exact hr.known x hx (by simp [hxs, hxn])
          · intro x hx _
            rwa [List.mem_singleton.mp hx]
          · intro x hx hxs
            by_cases hxn : x = name
            · subst hxn
              intro t' ht'
              rw [ht, Option.some.injEq] at ht'
              subst ht'
              exact hr.added
            · exact hr.closed x hx (by simp [hxs, hxn])

/-- An order of names in which each name leads only to names of the order. -/
structure Ordered (type? : String → Option NamedType) (given others order : List String) : Prop where
  nodup : order.Nodup
  known : ∀ name ∈ order, (type? name).isSome
  given : given ⊆ order
  others : ∀ name ∈ others, (type? name).isSome → name ∈ order
  closed : ∀ name ∈ order, ClosedAt type? order name

/-- Names to which given ones are moved, one after the other, with what they lead to. -/
def turns (type? : String → Option NamedType) (fuel : Nat) (rest seen : List String) :
    List String :=
  rest.foldl (fun seen name => reach type? fuel (seen.erase name) name) seen

/-- While given names take their turns, those still to come need not be closed. -/
theorem turns_ordered {names : List String} (hn : ∀ name, (type? name).isSome → name ∈ names)
    {fuel : Nat} (hf : names.length < fuel) (rest : List String) {seen : List String}
    (hd : seen.Nodup) (hr : rest ⊆ seen) (hk : ∀ name ∈ seen, (type? name).isSome)
    (hc : ∀ name ∈ seen, name ∈ rest ∨ ClosedAt type? seen name) :
    Ordered type? seen [] (turns type? fuel rest seen) := by
  induction rest generalizing seen with
  | nil =>
      exact ⟨hd, hk, fun _ h => h, by simp, fun name hm => (hc name hm).resolve_left (by simp)⟩
  | cons name rest ih =>
      have hfuel : unseen names (seen.erase name) < fuel :=
        Nat.lt_of_le_of_lt (List.countP_le_length) hf
      have hreach : Reaches type? _ [name] _ := reach_reaches hn hfuel
      have hin : name ∈ reach type? fuel (seen.erase name) name :=
        hreach.added name (by simp) (hk name (hr (by simp)))
      have hkept : seen ⊆ reach type? fuel (seen.erase name) name := by
        intro x hx
        by_cases hxn : x = name
        · rwa [hxn]
        · exact hreach.kept ((List.mem_erase_of_ne hxn).mpr hx)
      have hrest : Ordered type? (reach type? fuel (seen.erase name) name) []
          (turns type? fuel (name :: rest) seen) := by
        refine ih (hreach.nodup (hd.erase name)) (fun x hx => hkept (hr (by simp [hx]))) ?_ ?_
        · intro x hx
          by_cases hxs : x ∈ seen.erase name
          · exact hk x (List.mem_of_mem_erase hxs)
          · exact hreach.known x hx hxs
        · intro x hx
          by_cases hxs : x ∈ seen.erase name
          · rcases hc x (List.mem_of_mem_erase hxs) with hx | hx
            · rcases List.mem_cons.mp hx with rfl | hx
              · exact (hd.not_mem_erase hxs).elim
              · exact .inl hx
            · exact .inr (hx.mono hkept)
          · exact .inr (hreach.closed x hx hxs)
      exact { hrest with given := fun x hx => hrest.given (hkept hx) }

theorem orderOfTypes_ordered {names : List String}
    (hn : ∀ name, (type? name).isSome → name ∈ names) {fuel : Nat} (hf : names.length < fuel)
    {given : List String} (hd : given.Nodup) (hk : ∀ name ∈ given, (type? name).isSome)
    (others : List String) : Ordered type? given others (orderOfTypes type? fuel given others) := by
  have hgiven : Ordered type? given [] (turns type? fuel given given) :=
    turns_ordered hn hf given hd (fun _ h => h) hk fun name hm => .inl hm
  have hothers : Reaches type? (turns type? fuel given given) others
      (orderOfTypes type? fuel given others) :=
    reaches_foldl (fun seen name h => reach_reaches hn h) others
      (Nat.lt_of_le_of_lt List.countP_le_length hf)
  refine ⟨hothers.nodup hgiven.nodup, ?_, fun x hx => hothers.kept (hgiven.given hx),
    hothers.added, ?_⟩
  · intro x hx
    by_cases hxs : x ∈ turns type? fuel given given
    · exact hgiven.known x hxs
    · exact hothers.known x hx hxs
  · intro x hx
    by_cases hxs : x ∈ turns type? fuel given given
    · exact (hgiven.closed x hxs).mono hothers.kept
    · exact hothers.closed x hx hxs

/-- Reaching stays among names that lead to each other only. -/
theorem reach_within {p : String → Prop}
    (hp : ∀ name t, p name → type? name = some t → ∀ next ∈ t.leadsTo, p next) (fuel : Nat)
    {seen : List String} {name : String} (hs : ∀ x ∈ seen, p x) (hn : p name) :
    ∀ x ∈ reach type? fuel seen name, p x := by
  induction fuel generalizing seen name with
  | zero => exact hs
  | succ fuel ih =>
      unfold reach
      split
      · exact hs
      · split
        · exact hs
        · rename_i t ht
          have hstart : ∀ x ∈ seen ++ [name], p x :=
            List.forall_mem_append.mpr ⟨hs, List.forall_mem_singleton.mpr hn⟩
          exact List.foldlRecOn (motive := fun seen => ∀ x ∈ seen, p x) t.leadsTo _ hstart
            fun _ hs next hm => ih hs (hp name t hn ht next hm)

theorem orderOfTypes_within {p : String → Prop}
    (hp : ∀ name t, p name → type? name = some t → ∀ next ∈ t.leadsTo, p next) (fuel : Nat)
    {given others : List String} (hg : ∀ x ∈ given, p x) (ho : ∀ x ∈ others, p x) :
    ∀ x ∈ orderOfTypes type? fuel given others, p x := by
  have hturns : ∀ x ∈ turns type? fuel given given, p x :=
    List.foldlRecOn (motive := fun seen => ∀ x ∈ seen, p x) given _ hg fun _ hs name hn =>
      reach_within hp fuel (fun x hx => hs x (List.mem_of_mem_erase hx)) (hg name hn)
  exact List.foldlRecOn (motive := fun seen => ∀ x ∈ seen, p x) others _ hturns
    fun _ hs name hn => reach_within hp fuel hs (ho name hn)

end Reaching

/-! ## Types by name -/

theorem isStandardType_iff {name : String} :
    isStandardType name ↔ name ∈ standardTypes.map NamedType.name := by
  have he : standardTypes.map NamedType.name = builtinScalars ++ introspectionTypes := by decide
  simp [he, isStandardType, isBuiltinScalar, isIntrospectionType]

theorem standardType?_eq_none {name : String} (h : isStandardType name = false) :
    standardType? name = none := by
  refine List.find?_eq_none.mpr fun (t : NamedType) ht he => ?_
  have hs : isStandardType name := isStandardType_iff.mpr (List.mem_map.mpr ⟨t, ht, eq_of_beq he⟩)
  rw [h] at hs
  cases hs

theorem find?_name {types : List NamedType} {name : String} {t : NamedType}
    (h : types.find? (fun t => t.name == name) = some t) : t.name = name :=
  eq_of_beq (List.find?_some (p := fun (t : NamedType) => t.name == name) h)

/-- With keys that differ, each item is found by its key. -/
theorem find?_key {α : Type} {key : α → String} {items : List α} (hd : (items.map key).Nodup)
    {name : String} {a : α} :
    items.find? (fun a => key a == name) = some a ↔ a ∈ items ∧ key a = name := by
  constructor
  · intro h
    exact ⟨List.mem_of_find?_eq_some h, eq_of_beq (List.find?_some (p := fun a => key a == name) h)⟩
  · rintro ⟨ha, rfl⟩
    induction items with
    | nil => cases ha
    | cons first items ih =>
        obtain ⟨hf, hd⟩ := List.nodup_cons.mp hd
        rcases List.mem_cons.mp ha with rfl | ha
        · simp
        · have hne : (key first == key a) = false :=
            beq_eq_false_iff_ne.mpr fun he => hf (he ▸ List.mem_map_of_mem ha)
          rw [List.find?_cons, hne]
          exact ih hd ha

theorem find?_eq_some_iff {types : List NamedType} (hd : (types.map NamedType.name).Nodup)
    {name : String} {t : NamedType} :
    types.find? (fun t => t.name == name) = some t ↔ t ∈ types ∧ t.name = name :=
  find?_key hd

/-- With names that differ, each type is found by its name. -/
theorem find?_of_mem {types : List NamedType} (hd : (types.map NamedType.name).Nodup)
    {t : NamedType} (ht : t ∈ types) : types.find? (fun x => x.name == t.name) = some t :=
  (find?_key hd).mpr ⟨ht, rfl⟩

theorem Schema.mem_types {s : Schema} (hd : s.typeNames.Nodup) {t : NamedType} :
    t ∈ s.types ↔ s.type? t.name = some t :=
  ⟨find?_of_mem hd, List.mem_of_find?_eq_some⟩

/-- The type that a name stands for: a given one, or else a standard one. -/
def target? (given : List NamedType) (name : String) : Option NamedType :=
  (given.find? fun t => t.name == name).or (standardType? name)

theorem target?_name {given : List NamedType} {name : String} {t : NamedType}
    (h : target? given name = some t) : t.name = name := by
  rcases Option.or_eq_some_iff.mp h with h | ⟨-, h⟩
  · exact find?_name h
  · exact find?_name h

theorem target?_of_mem {given : List NamedType} (hd : (given.map NamedType.name).Nodup)
    {t : NamedType} (ht : t ∈ given) : target? given t.name = some t := by
  rw [target?, find?_of_mem hd ht, Option.some_or]

/-- A name that is not standard stands for a given type. -/
theorem mem_of_target? {given : List NamedType} {name : String} {t : NamedType}
    (h : target? given name = some t) (hs : isStandardType name = false) : t ∈ given := by
  rw [target?, standardType?_eq_none hs, Option.or_none] at h
  exact List.mem_of_find?_eq_some h

/-! ## Arranged schemas -/

/-- The types of a schema that was arranged from given types. -/
structure Arranged (schema : Schema) (given : List NamedType) (arranged : Schema) : Prop where
  nodup : arranged.typeNames.Nodup
  target : ∀ t ∈ arranged.types, target? given t.name = some t
  kept : given ⊆ arranged.types
  closed : ∀ t ∈ arranged.types, ∀ name ∈ t.leadsTo, ∀ next, target? given name = some next →
    next ∈ arranged.types
  roots : ∀ name ∈ schema.rootNames, ∀ t, target? given name = some t → t ∈ arranged.types
  directives : ∀ d ∈ schema.directives, ∀ a ∈ d.arguments, ∀ t,
    target? given a.type.core = some t → t ∈ arranged.types
  introspection : ∀ t, target? given introspectionRoot = some t → t ∈ arranged.types

/-- What a given list and the standard types that it leaves hold under a name. -/
theorem find?_known (given : List NamedType) (name : String) :
    (given ++ standardTypes.filter fun t => !given.any (·.name == t.name)).find?
      (fun t => t.name == name) = target? given name := by
  rw [List.find?_append, target?]
  cases hg : given.find? fun t => t.name == name with
  | some t => rfl
  | none =>
      have hnone : given.any (·.name == name) = false :=
        List.any_eq_false.mpr (List.find?_eq_none.mp hg)
      have hp : (fun (t : NamedType) => !given.any (·.name == t.name) && t.name == name) =
          fun t => t.name == name := by
        funext t
        cases ht : t.name == name with
        | false => exact Bool.and_false _
        | true => rw [eq_of_beq ht, hnone, Bool.not_false, Bool.true_and]
      rw [Option.none_or, Option.none_or, List.find?_filter, standardType?, ← hp]
      congr 1
      funext t
      rw [Bool.eq_iff_iff]
      simp

theorem map_name_filterMap {type? : String → Option NamedType}
    (hn : ∀ name t, type? name = some t → t.name = name) {order : List String}
    (hk : ∀ name ∈ order, (type? name).isSome) :
    (order.filterMap type?).map NamedType.name = order := by
  induction order with
  | nil => rfl
  | cons name order ih =>
      obtain ⟨t, ht⟩ := Option.isSome_iff_exists.mp (hk name (by simp))
      rw [List.filterMap_cons, ht]
      simp [hn name t ht, ih fun x hx => hk x (List.mem_cons_of_mem _ hx)]

/-- The names that arranging reaches after the given types. -/
def Schema.others (schema : Schema) : List String :=
  schema.rootNames
    ++ schema.directives.flatMap (fun d => d.arguments.map fun argument => argument.type.core)
    ++ [introspectionRoot]

/-- Arranging lists what the names stand for in the order in which they are reached. -/
theorem exists_order (schema : Schema) (given : List NamedType) : ∃ fuel,
    ((given ++ standardTypes.filter fun t => !given.any (·.name == t.name)).map
        NamedType.name).length < fuel
      ∧ (schema.arrange given).types =
        (orderOfTypes (target? given) fuel (given.map NamedType.name) schema.others).filterMap
          (target? given) := by
  refine ⟨_, Nat.lt_succ_self _, ?_⟩
  rw [List.length_map, ← funext (find?_known given)]
  rfl

/-- Arranging lists no types but those under names that lead to each other. -/
theorem arrange_within (schema : Schema) {given : List NamedType} {p : String → Prop}
    (hp : ∀ name t, p name → target? given name = some t → ∀ next ∈ t.leadsTo, p next)
    (hg : ∀ t ∈ given, p t.name) (ho : ∀ name ∈ schema.others, p name) :
    ∀ t ∈ (schema.arrange given).types, p t.name := by
  intro t ht
  obtain ⟨fuel, -, htypes⟩ := exists_order schema given
  rw [htypes] at ht
  obtain ⟨name, hn, ht⟩ := List.mem_filterMap.mp ht
  obtain rfl := target?_name ht
  exact orderOfTypes_within hp fuel (List.forall_mem_map.mpr hg) ho _ hn

theorem arrange_arranged (schema : Schema) {given : List NamedType}
    (hd : (given.map NamedType.name).Nodup) : Arranged schema given (schema.arrange given) := by
  have hnames : ∀ name, (target? given name).isSome → name ∈ (given ++ standardTypes.filter fun t =>
      !given.any (·.name == t.name)).map NamedType.name := by
    intro name hk
    obtain ⟨t, ht⟩ := Option.isSome_iff_exists.mp hk
    rw [← find?_known] at ht
    exact List.mem_map.mpr ⟨t, List.mem_of_find?_eq_some ht, find?_name ht⟩
  have hgiven : ∀ name ∈ given.map NamedType.name, (target? given name).isSome := by
    intro name hm
    obtain ⟨t, ht, rfl⟩ := List.mem_map.mp hm
    rw [target?_of_mem hd ht]
    rfl
  have horder : ∃ order, Ordered (target? given) (given.map NamedType.name) schema.others order
      ∧ (schema.arrange given).types = order.filterMap (target? given) := by
    obtain ⟨fuel, hf, htypes⟩ := exists_order schema given
    exact ⟨_, orderOfTypes_ordered hnames hf hd hgiven _, htypes⟩
  obtain ⟨order, hordered, htypes⟩ := horder
  have hmem : ∀ name ∈ order, ∀ t, target? given name = some t → t ∈ (schema.arrange given).types :=
    fun name hn t ht => htypes ▸ List.mem_filterMap.mpr ⟨name, hn, ht⟩
  have hmap : (schema.arrange given).typeNames = order := by
    rw [Schema.typeNames, htypes]
    exact map_name_filterMap (fun _ _ => target?_name) hordered.known
  have hnext : ∀ name ∈ order, ∀ t, target? given name = some t → ∀ next ∈ t.leadsTo,
      ∀ t', target? given next = some t' → t' ∈ (schema.arrange given).types :=
    fun name hn t ht next hm t' ht' =>
      hmem next (hordered.closed name hn t ht next hm (by simp [ht'])) t' ht'
  have htarget : ∀ t ∈ (schema.arrange given).types,
      t.name ∈ order ∧ target? given t.name = some t := by
    intro t ht
    rw [htypes] at ht
    obtain ⟨name, hn, ht⟩ := List.mem_filterMap.mp ht
    obtain rfl := target?_name ht
    exact ⟨hn, ht⟩
  refine ⟨hmap ▸ hordered.nodup, fun t ht => (htarget t ht).2, fun t ht => ?_, ?_, ?_, ?_, ?_⟩
  · exact hmem t.name (hordered.given (List.mem_map_of_mem ht)) t (target?_of_mem hd ht)
  · intro t ht next hn
    exact hnext t.name (htarget t ht).1 t (htarget t ht).2 next hn
  · intro name hn t ht
    exact hmem name (hordered.others name (by simp [Schema.others, hn]) (by simp [ht])) t ht
  · intro d hd' a ha t ht
    refine hmem _ (hordered.others _ ?_ (by simp [ht])) t ht
    refine List.mem_append_left _ (List.mem_append_right _ ?_)
    exact List.mem_flatMap.mpr ⟨d, hd', List.mem_map_of_mem ha⟩
  · exact fun t ht => hmem _ (hordered.others _ (by simp [Schema.others]) (by simp [ht])) t ht

namespace Arranged

variable {schema arranged : Schema} {given : List NamedType}

theorem type?_eq_some (h : Arranged schema given arranged) {name : String} {t : NamedType} :
    arranged.type? name = some t ↔ t ∈ arranged.types ∧ t.name = name :=
  find?_eq_some_iff h.nodup

end Arranged

end SdlAssembly.Schemas
