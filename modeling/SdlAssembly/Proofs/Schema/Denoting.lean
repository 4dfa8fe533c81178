import Mathlib.Order.Lattice.Nat
import SdlAssembly.Proofs.Schema.Building
import SdlAssembly.Proofs.Schema.Fitting
import SdlAssembly.Proofs.Schema.Following

/-!
# What sources denote

Names that stand for what their sources give are read as their types say: a literal is read under a
name that leads to an input object with the fields of that object, and the defaults among them were
read before it.
-/

namespace SdlAssembly.Schemas

open Grammar Lexer Except

/-! ## The last of each name -/

section Last

variable {α β : Type} {key : α → String} {items : List α} {item : α}

theorem lastOfEach_eq (key : α → String) (items : List α) :
    lastOfEach key items = (putAll key id items []).map Prod.snd := rfl

theorem keys_putAll : ∀ pair ∈ putAll key id items [], pair.1 = key pair.2 :=
  forall_putAll (P := fun name value => name = key value) (by simp) fun _ _ => rfl

theorem nodup_lastOfEach (key : α → String) (items : List α) :
    ((lastOfEach key items).map key).Nodup := by
  have hd : ((putAll key id items []).map Prod.fst).Nodup := nodup_putAll (by simp)
  rw [List.map_congr_left keys_putAll] at hd
  rwa [lastOfEach_eq, List.map_map]

theorem mem_of_mem_lastOfEach (h : item ∈ lastOfEach key items) : item ∈ items := by
  rw [lastOfEach_eq] at h
  obtain ⟨pair, hm, rfl⟩ := List.mem_map.mp h
  exact forall_putAll (P := fun _ value => value ∈ items) (by simp) (fun _ h => h) pair hm

/-- Each of the items that are read is one of a name, and was read from one of those given. -/
theorem lastOfEach_mapM {key : β → String} {read : α → Except BuildFault β} {kept : List β}
    (h : (do return lastOfEach key (← items.mapM read)) = .ok kept) :
    (kept.map key).Nodup ∧ ∀ b ∈ kept, ∃ a ∈ items, read a = .ok b := by
  obtain ⟨all, ha, h⟩ := bind_eq_ok h
  cases h
  exact ⟨nodup_lastOfEach key all, fun b hb => mapM_eq_ok ha b (mem_of_mem_lastOfEach hb)⟩

end Last

/-! ## Kinds -/

section Kinds

variable {sources : Sources} {source : TypeSource} {t : NamedType}

/-- A type passes the tests that its source passes. -/
theorem tests_of_type (h : source.type sources = .ok t) :
    source.isInput = t.isInput ∧ source.isOutput = t.isOutput
      ∧ source.isInterface = t.isInterface ∧ source.isObject = t.isObject := by
  cases source with
  | ready t' =>
      cases h
      exact ⟨rfl, rfl, rfl, rfl⟩
  | written node extensions =>
      obtain ⟨shape, hs, h⟩ := bind_eq_ok h
      cases h
      have hread := shapeOf_eq_ok hs
      cases shape with
      | scalar url =>
          simp [TypeSource.isInput, TypeSource.isOutput, TypeSource.isInterface,
            TypeSource.isObject, NamedType.isInput, NamedType.isOutput, NamedType.isInputObject,
            NamedType.isLeaf, NamedType.isInterface, NamedType.isObject, hread.1]
      | object | interface =>
          obtain ⟨⟨_, _, hb⟩, -⟩ := hread
          simp [TypeSource.isInput, TypeSource.isOutput, TypeSource.isInterface,
            TypeSource.isObject, NamedType.isInput, NamedType.isOutput, NamedType.isInputObject,
            NamedType.isLeaf, NamedType.isInterface, NamedType.isObject, hb]
      | union | enum | inputObject =>
          obtain ⟨⟨_, hb⟩, -⟩ := hread
          simp [TypeSource.isInput, TypeSource.isOutput, TypeSource.isInterface,
            TypeSource.isObject, NamedType.isInput, NamedType.isOutput, NamedType.isInputObject,
            NamedType.isLeaf, NamedType.isInterface, NamedType.isObject, hb]

end Kinds

/-- Names stand for what their sources give, and every source gives a type. -/
structure Denotes (sources : Sources) (type? : String → Option NamedType) : Prop where
  total : ∀ name source, sources.find? name = some source →
    ∃ t, source.type sources = .ok t ∧ type? name = some t
  source : ∀ name t, type? name = some t → ∃ source, sources.find? name = some source
    ∧ source.type sources = .ok t

theorem Denotes.leads {sources : Sources} {type? : String → Option NamedType}
    (h : Denotes sources type?) {test : TypeSource → Bool} {test' : NamedType → Bool}
    (ht : ∀ source t, source.type sources = .ok t → test source = test' t) {name : String}
    (hn : sources.test test name) : Leads type? test' name := by
  unfold Sources.test at hn
  cases hs : sources.find? name with
  | none => simp [hs] at hn
  | some source =>
      obtain ⟨t, hsource, hk⟩ := h.total name source hs
      exact ⟨t, hk, by rw [← ht source t hsource]; simpa [hs] using hn⟩

/-! ## Fields of input objects -/

/-- What is written of sources can be read, under the names of its definitions; the types that are
there already are no input objects. -/
structure Sources.Proper (sources : Sources) : Prop where
  named : sources.Named
  written : ∀ name node extensions, sources.find? name = some (.written node extensions) →
    ∀ n ∈ node :: extensions, n.Proper
  ready : ∀ name t, sources.find? name = some (.ready t) → t.isInputObject = false

section Inputs

variable {sources : Sources} {shape : String → Except BuildFault (InputShape BuildFault)}
  {type? : String → Option NamedType} {readable : String → Prop} {nodes : List TypeNode}

theorem inputField_eq_ok {wrongType : BuildFault} {d : InputDefinition} {field : InputField}
    (h : inputField sources shape wrongType d = .ok field) : field.name = d.name
      ∧ field.type = d.type ∧ sources.test TypeSource.isInput d.type.core
      ∧ readDefault shape d = .ok field.default := by
  obtain ⟨-, -, h⟩ := bind_eq_ok h
  obtain ⟨default, hd, h⟩ := bind_eq_ok h
  obtain ⟨deprecation, -, h⟩ := bind_eq_ok h
  split at h
  · rename_i ht
    cases h
    exact ⟨rfl, rfl, ht, hd⟩
  · cases h

theorem fits_readDefault (h : ReadsTypes shape type? readable) {d : InputDefinition}
    (hp : d.Proper) {default : Option Constant} (hr : readDefault shape d = .ok default) :
    ∀ c ∈ default, Fits type? readable c d.type := by
  intro c hc
  obtain rfl : default = some c := hc
  unfold readDefault at hr
  split at hr
  · cases hr
  · rename_i literal hl
    exact fits_readLiteral h literal d.type c (hp.default literal hl) hr

theorem proper_inputDefinitions (h : ∀ node ∈ nodes, node.Proper) :
    ∀ d ∈ nodes.flatMap inputDefinitionsOf, d.Proper := by
  intro d hd
  obtain ⟨node, hn, hd⟩ := List.mem_flatMap.mp hd
  have hbody := (h node hn).body
  unfold inputDefinitionsOf at hd
  split at hd
  · rename_i hb
    rw [hb] at hbody
    exact hbody d hd
  · cases hd

/-- Fields that were read have names that can be written, each once, and defaults that fit. -/
theorem fits_inputFields (h : ReadsTypes shape type? readable)
    (hp : ∀ node ∈ nodes, node.Proper) {fields : List InputField}
    (hf : inputFields sources shape nodes = .ok fields) : (∀ f ∈ fields, IsName f.name)
      ∧ (fields.map InputField.name).Nodup
      ∧ ∀ f ∈ fields, ∀ c ∈ f.default, Fits type? readable c f.type := by
  obtain ⟨hd, hread⟩ := lastOfEach_mapM hf
  refine ⟨fun f hm => ?_, hd, fun f hm => ?_⟩
  · obtain ⟨d, hd, hfield⟩ := hread f hm
    rw [(inputField_eq_ok hfield).1]
    exact (proper_inputDefinitions hp d hd).name
  · obtain ⟨d, hd, hfield⟩ := hread f hm
    obtain ⟨-, htype, -, hdefault⟩ := inputField_eq_ok hfield
    rw [htype]
    exact fits_readDefault h (proper_inputDefinitions hp d hd) hdefault

/-- With whatever fuel fields are read, they are the fields of their type. -/
theorem inputFields_eq {fuel : Nat} {fields fields' : List InputField} (hn : sources.Named)
    (h : inputFields sources sources.shape nodes = .ok fields)
    (h' : inputFields sources (inputShape sources fuel) nodes = .ok fields') :
    fields' = fields := by
  obtain ⟨found, hf, rfl⟩ :=
    inputFields_follows (.refl hn) (inputShape_follows_shape hn fuel) nodes _ h'
  exact Except.ok.inj (hf.symm.trans h)

/-- An input object comes from definitions. -/
theorem exists_of_inputObject (hp : sources.Proper) (hd : Denotes sources type?) {name : String}
    {t : NamedType} {fields : List InputField} {oneOf : Bool} (ht : type? name = some t)
    (hs : t.shape = .inputObject fields oneOf) : ∃ node extensions definitions,
      sources.find? name = some (.written node extensions) ∧ node.body = .inputObject definitions
        ∧ inputFields sources sources.shape (node :: extensions) = .ok fields := by
  obtain ⟨source, hf, hsource⟩ := hd.source name t ht
  cases source with
  | ready t' =>
      cases hsource
      have hi := hp.ready name t hf
      simp [NamedType.isInputObject, hs] at hi
  | written node extensions =>
      obtain ⟨shape, hshape, hsource⟩ := bind_eq_ok hsource
      cases hsource
      obtain rfl : shape = _ := hs
      obtain ⟨⟨definitions, hb⟩, -, hfields⟩ := shapeOf_eq_ok hshape
      exact ⟨node, extensions, definitions, hf, hb, hfields⟩

theorem inputShape_inputObject {name : String} {node : TypeNode} {extensions : List TypeNode}
    {definitions : List InputDefinition} (fuel : Nat)
    (hf : sources.find? name = some (.written node extensions))
    (hb : node.body = .inputObject definitions) :
    inputShape sources (fuel + 1) name = .ok (.object (fun _ =>
      (inputFields sources (inputShape sources fuel) (node :: extensions)).mapError
        (.unresolved name .fields)) (isOneOf node)) := by
  rw [inputShape, hf]
  simp only [hb]

theorem written_of_inputShape {fuel : Nat} {name : String} {oneOf : Bool}
    {expected : Unit → Except BuildFault (List InputField)}
    (h : inputShape sources (fuel + 1) name = .ok (.object expected oneOf)) :
    ∃ node extensions definitions, sources.find? name = some (.written node extensions)
      ∧ node.body = .inputObject definitions := by
  unfold inputShape at h
  split at h
  · cases h
  · split at h <;> cases h
  · rename_i node extensions hf
    split at h
    · cases h
    · obtain ⟨values, -, h⟩ := bind_eq_ok h
      cases h
    · rename_i definitions hb
      exact ⟨node, extensions, definitions, hf, hb⟩
    · cases h

end Inputs

/-! ## Named types -/

section Types

variable {sources : Sources} {type? : String → Option NamedType}

/-- What is read as a leaf stands for one that reads literals alike. -/
theorem leaf_of_inputShape (hp : sources.Proper) (hd : Denotes sources type?) {fuel : Nat}
    {name : String} {t : NamedType} (h : inputShape sources fuel name = .ok (.leaf t)) :
    ∃ t', type? name = some t' ∧ t'.isLeaf
      ∧ ∀ literal, leafLiteral t literal = leafLiteral t' literal := by
  cases fuel with
  | zero => cases h
  | succ fuel =>
      unfold inputShape at h
      split at h
      · cases h
      · rename_i hf
        split at h
        · rename_i hleaf
          cases h
          obtain ⟨t', hsource, hk⟩ := hd.total name _ hf
          cases hsource
          exact ⟨t, hk, hleaf, fun _ => rfl⟩
        · cases h
      · rename_i node extensions hf
        obtain ⟨t', hsource, hk⟩ := hd.total name _ hf
        obtain ⟨shape, hshape, hsource⟩ := bind_eq_ok hsource
        cases hsource
        unfold shapeOf at hshape
        split at h
        · rename_i hb
          simp only [hb] at hshape
          obtain ⟨url, -, hshape⟩ := bind_eq_ok hshape
          cases hshape
          cases h
          exact ⟨_, hk, rfl, leafLiteral_scalar (hp.named name node extensions hf).symm rfl rfl⟩
        · rename_i hb
          simp only [hb] at hshape
          obtain ⟨values, hv, hshape⟩ := bind_eq_ok hshape
          cases hshape
          obtain ⟨values', hv', h⟩ := bind_eq_ok h
          cases h
          cases hv.symm.trans hv'
          exact ⟨_, hk, rfl, fun _ => rfl⟩
        · cases h
        · cases h

/-- Literals are read as the types say that the sources give. -/
theorem readsTypes_inputShape (hp : sources.Proper) (hd : Denotes sources type?) (fuel : Nat) :
    ReadsTypes (inputShape sources fuel) type? (Settled sources fuel) := by
  refine ⟨fun name t => leaf_of_inputShape hp hd, ?_⟩
  induction fuel with
  | zero => exact fun _ _ _ _ h => (nomatch h)
  | succ fuel ih =>
      intro name expected oneOf fields h hfields
      obtain ⟨node, extensions, definitions, hf, hb⟩ := written_of_inputShape h
      have hread := (inputShape_inputObject fuel hf hb).symm.trans h
      cases hread
      have hread := mapError_eq_ok hfields
      obtain ⟨t, hsource, hk⟩ := hd.total name _ hf
      obtain ⟨shape, hshape, hsource⟩ := bind_eq_ok hsource
      cases hsource
      unfold shapeOf at hshape
      simp only [hb] at hshape
      obtain ⟨fields', hfields', hshape⟩ := bind_eq_ok hshape
      cases hshape
      obtain rfl := inputFields_eq hp.named (mapError_eq_ok hfields') hread
      obtain ⟨hnames, hnodup, hfit⟩ := fits_inputFields
        ⟨fun name t => leaf_of_inputShape hp hd, ih⟩ (hp.written name node extensions hf) hread
      refine ⟨⟨_, _, fields, h, hfields⟩, ⟨_, hk, rfl⟩, hnames, hnodup, fun f hm c hc => ?_⟩
      exact (hfit f hm c hc).mono fun other ho => ho.mono hp.named (Nat.le_succ fuel)

/-- Each input object is read before those that have it in their defaults. -/
theorem ranked_of_denotes (hp : sources.Proper) (hd : Denotes sources type?) : Ranked type? := by
  refine ⟨fun name => sInf {fuel | Settled sources fuel name}, fun name t ht f hf c hc => ?_⟩
  cases hs : t.shape with
  | inputObject fields oneOf =>
      obtain ⟨node, extensions, definitions, hfind, hb, hfields⟩ :=
        exists_of_inputObject hp hd ht hs
      have hsome : Settled sources (sources.length + 2) name :=
        ⟨_, _, fields, inputShape_inputObject _ hfind hb, congrArg (Except.mapError _) hfields⟩
      have hfirst : Settled sources (sInf {fuel | Settled sources fuel name}) name :=
        Nat.sInf_mem (s := {fuel | Settled sources fuel name}) ⟨_, hsome⟩
      have hmem : f ∈ fields := by simpa [NamedType.inputFields, hs] using hf
      cases hrank : sInf {fuel | Settled sources fuel name} with
      | zero =>
          rw [hrank] at hfirst
          obtain ⟨_, _, _, h, -⟩ := hfirst
          cases h
      | succ fuel =>
          rw [hrank] at hfirst
          obtain ⟨expected, _, read, hshape, hread⟩ := hfirst
          cases (inputShape_inputObject fuel hfind hb).symm.trans hshape
          have hread := mapError_eq_ok hread
          obtain rfl := inputFields_eq hp.named hfields hread
          obtain ⟨-, -, hfit⟩ := fits_inputFields (readsTypes_inputShape hp hd fuel)
            (hp.written name node extensions hfind) hread
          exact (hfit f hmem c hc).mono fun other ho =>
            (Nat.lt_succ_of_le (Nat.sInf_le ho)).trans_eq hrank.symm
  | _ => simp [NamedType.inputFields, hs] at hf

end Types

end SdlAssembly.Schemas
