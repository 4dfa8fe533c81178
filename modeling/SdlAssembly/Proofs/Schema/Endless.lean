import SdlAssembly.Proofs.Collecting
import SdlAssembly.Schema.Validity

/-!
# Input objects inside themselves

The search for ways back finds nothing exactly if every input object can be given, that is, no way
through fields that must be given goes on forever.
-/

namespace SdlAssembly.Schemas

open Collecting Relation

/-- An input object cannot be given without another. -/
def MustHold (schema : Schema) (outer inner : String) : Prop :=
  ∃ t, schema.type? outer = some t ∧ ∃ field, (field, inner) ∈ t.mustHold schema

/-- All that an input object must hold comes to an end. -/
def Givable (schema : Schema) (name : String) : Prop :=
  Acc (fun inner outer => MustHold schema outer inner) name

theorem Givable.not_within_itself {schema : Schema} {name : String} (h : Givable schema name) :
    ¬TransGen (fun inner outer => MustHold schema outer inner) name name := by
  intro hc
  have ha := h.transGen
  clear h
  induction ha with
  | intro name _ ih => exact ih name hc hc

/-! ## One search -/

/-- What one field of an input object on the way leads to. -/
def followField (schema : Schema) (fuel : Nat) (way : List Through) (t : NamedType)
    (visited : List String) (field : String × String) : List String × List Violation :=
  let way := way ++ [⟨t.name, field.1⟩]
  match wayBack way field.2, schema.type? field.2 with
  | some path, _ => (visited, [.endlessInput field.2 path])
  | none, none => (visited, [])
  | none, some next => searchInputs schema fuel way visited next

section Search

variable {schema : Schema} {fuel : Nat} {way : List Through} {visited visited' : List String}
  {t : NamedType}

theorem searchInputs_succ : searchInputs schema (fuel + 1) way visited t =
    if visited.contains t.name then (visited, [])
    else (t.mustHold schema).foldl (fun state field =>
      ((followField schema fuel way t state.1 field).1,
        state.2 ++ (followField schema fuel way t state.1 field).2)) (t.name :: visited, []) := by
  rw [searchInputs]
  split
  · rfl
  · congr 1
    funext ⟨visited, found⟩ ⟨field, name⟩
    unfold followField
    dsimp only
    split <;> simp [*]

theorem wayBack_eq_none {type : String} :
    wayBack way type = none ↔ type ∉ way.map Through.type := by
  induction way with
  | nil => simp [wayBack]
  | cons step way ih =>
      unfold wayBack at ih ⊢
      by_cases hs : step.type = type
      · simp [hs]
      · rw [List.dropWhile_cons_of_pos (by simpa using hs), ih]
        simp [Ne.symm hs]

/-- What is known while a way is followed: the way is made of types that were looked at, each
once, and all other types that were looked at can be given. -/
structure OnWay (schema : Schema) (fuel : Nat) (way : List String) (visited : List String) :
    Prop where
  nodup : way.Nodup
  looked : way ⊆ visited
  named : way ⊆ schema.typeNames
  enough : schema.types.length < fuel + way.length
  givable : ∀ name ∈ visited, name ∈ way ∨ Givable schema name

theorem type?_of_mustHold {field : String × String} (h : field ∈ t.mustHold schema) :
    (schema.type? field.2).isSome := by
  obtain ⟨input, -, hf⟩ := List.mem_filterMap.mp h
  split at hf
  · split at hf
    · rename_i hi
      cases hf
      cases ht : schema.type? _ with
      | none => simp [ht] at hi
      | some t => rfl
    · cases hf
  · cases hf

/-- What a search that found nothing leaves: more types were looked at, and all of them can be
given but for the way to them. -/
structure Leaves (schema : Schema) (way visited visited' : List String) : Prop where
  kept : visited ⊆ visited'
  givable : ∀ name ∈ visited', name ∈ way ∨ Givable schema name

theorem OnWay.after {way visited visited' : List String}
    (h : OnWay schema fuel way visited) (hl : Leaves schema way visited visited') :
    OnWay schema fuel way visited' :=
  { h with looked := fun _ hm => hl.kept (h.looked hm), givable := hl.givable }

/-- One step further on a way, to a type that was not looked at. -/
theorem OnWay.step {way visited : List String} {name : String}
    (h : OnWay schema (fuel + 1) way visited) (hn : name ∈ schema.typeNames)
    (hv : name ∉ visited) : OnWay schema fuel (way ++ [name]) (name :: visited) := by
  refine ⟨?_, ?_, ?_, ?_, ?_⟩
  · refine List.nodup_append.mpr ⟨h.nodup, by simp, fun a ha b hb => ?_⟩
    rw [List.mem_singleton.mp hb]
    rintro rfl
    exact hv (h.looked ha)
  · intro x hx
    rcases List.mem_append.mp hx with hx | hx
    · exact List.mem_cons_of_mem _ (h.looked hx)
    · simp [List.mem_singleton.mp hx]
  · intro x hx
    rcases List.mem_append.mp hx with hx | hx
    · exact h.named hx
    · rwa [List.mem_singleton.mp hx]
  · have henough := h.enough
    rw [List.length_append, List.length_singleton]
    omega
  · intro x hx
    rcases List.mem_cons.mp hx with rfl | hx
    · simp
    · exact (h.givable x hx).imp_left (List.mem_append_left _)

section Fields

variable (hsearch : ∀ {way : List Through} {visited visited' : List String} {t : NamedType},
  schema.type? t.name = some t → OnWay schema fuel (way.map Through.type) visited →
    searchInputs schema fuel way visited t = (visited', []) →
      Leaves schema (way.map Through.type) visited visited'
        ∧ (t.name ∈ way.map Through.type ∨ Givable schema t.name))

include hsearch

theorem followField_leaves {field : String × String} (hf : field ∈ t.mustHold schema)
    (h : OnWay schema fuel (way.map Through.type ++ [t.name]) visited)
    (hq : (followField schema fuel way t visited field).2 = []) :
    Leaves schema (way.map Through.type ++ [t.name]) visited
      (followField schema fuel way t visited field).1 ∧ Givable schema field.2 := by
  obtain ⟨next, hn⟩ := Option.isSome_iff_exists.mp (type?_of_mustHold hf)
  have hname : next.name = field.2 := eq_of_beq
    (List.find?_some (p := fun (t : NamedType) => t.name == field.2) hn)
  unfold followField at hq ⊢
  dsimp only at hq ⊢
  generalize hway : way ++ [(⟨t.name, field.1⟩ : Through)] = further at hq ⊢
  have hnames : way.map Through.type ++ [t.name] = further.map Through.type := by simp [← hway]
  rw [hn] at hq ⊢
  cases hb : wayBack further field.2 with
  | some path =>
      rw [hb] at hq
      cases hq
  | none =>
      rw [hb] at hq
      dsimp only at hq ⊢
      rw [hnames] at h ⊢
      rw [wayBack_eq_none, ← hname] at hb
      rw [← hname] at hn ⊢
      obtain ⟨hl, hg⟩ := hsearch hn h (Prod.ext rfl hq)
      exact ⟨hl, hg.resolve_left hb⟩

theorem followFields_leaves {fields : List (String × String)}
    (hf : ∀ field ∈ fields, field ∈ t.mustHold schema)
    (h : OnWay schema fuel (way.map Through.type ++ [t.name]) visited)
    (hq : Quiet (followField schema fuel way t) visited fields) :
    Leaves schema (way.map Through.type ++ [t.name]) visited
      (remember (followField schema fuel way t) visited fields)
        ∧ ∀ field ∈ fields, Givable schema field.2 := by
  induction fields generalizing visited with
  | nil => exact ⟨⟨fun _ hm => hm, h.givable⟩, by simp⟩
  | cons field fields ih =>
      obtain ⟨hfirst, hf⟩ := List.forall_mem_cons.mp hf
      obtain ⟨hone, hg⟩ := followField_leaves hsearch hfirst h hq.1
      obtain ⟨hrest, hgs⟩ := ih hf (h.after hone) hq.2
      exact ⟨⟨fun _ hm => hrest.kept (hone.kept hm), hrest.givable⟩,
        List.forall_mem_cons.mpr ⟨hg, hgs⟩⟩

end Fields

/-- A search that finds nothing leaves all that it looked at givable, but for the way to it. -/
theorem searchInputs_leaves (fuel : Nat) {way : List Through} {visited visited' : List String}
    {t : NamedType} (ht : schema.type? t.name = some t)
    (h : OnWay schema fuel (way.map Through.type) visited)
    (hs : searchInputs schema fuel way visited t = (visited', [])) :
    Leaves schema (way.map Through.type) visited visited'
      ∧ (t.name ∈ way.map Through.type ∨ Givable schema t.name) := by
  induction fuel generalizing way visited visited' t with
  | zero =>
      have hlength := h.nodup.length_le_of_subset h.named
      have henough := h.enough
      rw [Schema.typeNames, List.length_map (f := NamedType.name)] at hlength
      omega
  | succ fuel ih =>
      rw [searchInputs_succ] at hs
      split at hs
      · rename_i hv
        cases hs
        exact ⟨⟨fun _ hm => hm, h.givable⟩, h.givable _ (by simpa using hv)⟩
      · rename_i hv
        have hv : t.name ∉ visited := by simpa using hv
        have hname : t.name ∈ schema.typeNames :=
          List.mem_map_of_mem (List.mem_of_find?_eq_some ht)
        have hquiet := (foldl_eq_nil _).mp (congrArg Prod.snd hs)
        have hend := congrArg Prod.fst hs
        rw [foldl_collect] at hend
        dsimp only at hend
        obtain ⟨hl, hfields⟩ := followFields_leaves (@ih) (fun _ hm => hm) (h.step hname hv) hquiet
        rw [hend] at hl
        have hgivable : Givable schema t.name := by
          refine .intro _ fun inner hi => ?_
          obtain ⟨t', ht', field, hf⟩ := hi
          cases ht.symm.trans ht'
          exact hfields _ hf
        refine ⟨⟨fun x hx => hl.kept (List.mem_cons_of_mem _ hx), fun x hx => ?_⟩, .inr hgivable⟩
        rcases hl.givable x hx with hx | hx
        · rcases List.mem_append.mp hx with hx | hx
          · exact .inl hx
          · exact .inr (List.mem_singleton.mp hx ▸ hgivable)
        · exact .inr hx

/-- Where every input object can be given, a search finds nothing. -/
theorem searchInputs_eq_nil (fuel : Nat) {way : List Through} {visited : List String}
    {t : NamedType} (ht : schema.type? t.name = some t) (hg : ∀ name, Givable schema name)
    (hway : ∀ name ∈ way.map Through.type,
      TransGen (fun inner outer => MustHold schema outer inner) t.name name) :
    (searchInputs schema fuel way visited t).2 = [] := by
  induction fuel generalizing way visited t with
  | zero => rfl
  | succ fuel ih =>
      rw [searchInputs_succ]
      split
      · rfl
      · refine (foldl_eq_nil _).mpr (quiet_of_forall (fun field hf visited => ?_) _)
        obtain ⟨next, hn⟩ := Option.isSome_iff_exists.mp (type?_of_mustHold hf)
        have hname : next.name = field.2 := eq_of_beq
          (List.find?_some (p := fun (t : NamedType) => t.name == field.2) hn)
        have hstep : MustHold schema t.name field.2 := ⟨t, ht, field.1, hf⟩
        have hfurther : ∀ name ∈ (way ++ [(⟨t.name, field.1⟩ : Through)]).map Through.type,
            TransGen (fun inner outer => MustHold schema outer inner) field.2 name := by
          intro name hm
          rw [List.map_append] at hm
          rcases List.mem_append.mp hm with hm | hm
          · exact TransGen.trans (.single hstep) (hway name hm)
          · rw [List.mem_singleton.mp hm]
            exact .single hstep
        have hback : wayBack (way ++ [⟨t.name, field.1⟩]) field.2 = none :=
          wayBack_eq_none.mpr fun hm => (hg field.2).not_within_itself (hfurther _ hm)
        unfold followField
        dsimp only
        rw [hback, hn]
        rw [← hname] at hn hfurther
        exact ih hn hfurther

end Search

end SdlAssembly.Schemas
