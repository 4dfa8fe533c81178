import SdlAssembly.Proofs.Outcomes
import SdlAssembly.Yaml.Reading

/-!
# Keys of mappings

No two keys of a mapping that is read count as one, so the value of a text key is that of its only
entry.
-/

namespace SdlAssembly.Yaml

/-! ## Distinct keys -/

/-- No two keys of a list of entries count as one. -/
def DistinctKeys (entries : List (Datum × Datum)) : Prop :=
  entries.Pairwise fun a b => a.1.sameKey b.1 = false

section Entries

variable {entries : List (Datum × Datum)} {key value : Datum} {name : String}

theorem key_of_mem_put {entry : Datum × Datum} (h : entry ∈ Datum.put entries key value) :
    entry.1 = key ∨ ∃ other ∈ entries, other.1 = entry.1 := by
  induction entries with
  | nil => exact .inl (List.mem_singleton.mp h ▸ rfl)
  | cons first rest ih =>
      obtain ⟨k, old⟩ := first
      unfold Datum.put at h
      split at h
      · rcases List.mem_cons.mp h with rfl | h
        · exact .inr ⟨(k, old), List.mem_cons_self, rfl⟩
        · exact .inr ⟨entry, List.mem_cons_of_mem _ h, rfl⟩
      · rcases List.mem_cons.mp h with rfl | h
        · exact .inr ⟨(k, old), List.mem_cons_self, rfl⟩
        · exact (ih h).imp_right fun ⟨other, ho, hk⟩ => ⟨other, List.mem_cons_of_mem _ ho, hk⟩

/-- Putting a value keeps keys distinct: it takes the place of the same key, or goes to the end. -/
theorem DistinctKeys.put (h : DistinctKeys entries) (key value : Datum) :
    DistinctKeys (Datum.put entries key value) := by
  induction entries with
  | nil => exact List.pairwise_singleton _ _
  | cons first rest ih =>
      obtain ⟨k, old⟩ := first
      obtain ⟨hk, hrest⟩ := List.pairwise_cons.mp h
      unfold Datum.put
      split
      · exact List.pairwise_cons.mpr ⟨hk, hrest⟩
      · rename_i hne
        refine List.pairwise_cons.mpr ⟨fun entry he => ?_, ih hrest⟩
        rcases key_of_mem_put he with he | ⟨other, ho, he⟩
        · exact he ▸ Bool.not_eq_true _ ▸ hne
        · exact he ▸ hk other ho

theorem distinctKeys_distinct (entries : List (Datum × Datum)) :
    DistinctKeys (distinct entries) := by
  have hall : ∀ kept, DistinctKeys kept →
      DistinctKeys (entries.foldl (fun kept entry => Datum.put kept entry.1 entry.2) kept) := by
    induction entries with
    | nil => exact fun _ h => h
    | cons entry rest ih => exact fun kept h => ih _ (h.put entry.1 entry.2)
  exact hall [] List.Pairwise.nil

/-! ## Text keys -/

theorem sameKey_text : key.sameKey (.text name) = true ↔ key = .text name := by
  cases key with
  | float value =>
      simp only [Datum.sameKey, Datum.whole?]
      cases value.toInt? <;> simp
  | _ => simp [Datum.sameKey, Datum.whole?]

theorem DistinctKeys.value_unique (h : DistinctKeys entries) {other : Datum}
    (hv : (.text name, value) ∈ entries) (ho : (.text name, other) ∈ entries) : value = other := by
  have hself : (Datum.text name).sameKey (.text name) = true := sameKey_text.mpr rfl
  induction entries with
  | nil => cases hv
  | cons first rest ih =>
      obtain ⟨hk, hrest⟩ := List.pairwise_cons.mp h
      rcases List.mem_cons.mp hv with rfl | hlater <;> rcases List.mem_cons.mp ho with he | ho
      · cases he
        rfl
      · have hne := hk _ ho
        exact absurd hself (Bool.eq_false_iff.mp hne)
      · cases he
        have hne := hk _ hlater
        exact absurd hself (Bool.eq_false_iff.mp hne)
      · exact ih hrest hlater ho

theorem lookup?_eq_none :
    Datum.lookup? entries name = none ↔ ∀ value, (.text name, value) ∉ entries := by
  simp only [Datum.lookup?, Option.map_eq_none_iff, List.find?_eq_none, sameKey_text]
  exact ⟨fun h value hm => h _ hm rfl, fun h (key, value) hm hk => h value (hk ▸ hm)⟩

/-- The value of a text key is that of its entry. -/
theorem DistinctKeys.lookup?_eq_some (h : DistinctKeys entries) :
    Datum.lookup? entries name = some value ↔ (.text name, value) ∈ entries := by
  have hmem : ∀ {found}, Datum.lookup? entries name = some found →
      (.text name, found) ∈ entries := fun {found} hf => by
    obtain ⟨⟨key, other⟩, ho, rfl⟩ := Option.map_eq_some_iff.mp hf
    have hk := List.find?_some ho
    exact sameKey_text.mp hk ▸ List.mem_of_find?_eq_some ho
  refine ⟨hmem, fun hm => ?_⟩
  cases hl : Datum.lookup? entries name with
  | none => exact absurd hm (lookup?_eq_none.mp hl value)
  | some found => rw [h.value_unique (hmem hl) hm]

end Entries

/-! ## Read mappings -/

section Reading

variable {entries : List (Datum × Datum)}

theorem scalarValue_ne_map {tag : Tag} {text : ScalarText} :
    scalarValue tag text ≠ .ok (.map entries) := by
  intro h
  unfold scalarValue at h
  split at h
  case h_2 | h_3 | h_4 | h_5 =>
    obtain ⟨value, -, he⟩ := Except.map_eq_ok (Except.mapError_eq_ok h)
    cases he
  case h_6 => split at h <;> cases h
  case h_7 => cases text <;> cases h
  all_goals cases h

theorem mappingValue_ne_map {tag : Tag} {nodes : List (Node × Node)} :
    mappingValue tag nodes ≠ .ok (.map entries) := by
  intro h
  unfold mappingValue at h
  cases hs : tag.isScalar with
  | false =>
      rw [hs] at h
      cases h
  | true =>
      simp only [hs, Bool.not_true, Bool.false_eq_true, ↓reduceIte] at h
      obtain ⟨text, -, h⟩ := Except.bind_eq_ok h
      split at h
      · cases h
      · exact scalarValue_ne_map h

/-- Only the entries of a mapping become one, with distinct keys. -/
theorem distinctKeys_of_found {level : Nat} {node : Node}
    (h : found level node = .ok (.map entries)) : DistinctKeys entries := by
  unfold found at h
  -- A text or a list is none, nor is a mapping with a tag that is not its own.
  split at h
  · cases h
  · exact absurd (Except.mapError_eq_ok h) scalarValue_ne_map
  · split at h
    case h_4 => cases h
    all_goals
      obtain ⟨items, -, he⟩ := Except.map_eq_ok h
      cases he
  · split at h
    · split at h
      · obtain ⟨given, -, he⟩ := Except.map_eq_ok h
        split at he
        · cases he
        · cases he
          exact distinctKeys_distinct given
      · cases h
    · exact absurd (Except.mapError_eq_ok h) mappingValue_ne_map

theorem distinctKeys_of_read {deepest : Nat} {bytes : List UInt8}
    (h : read deepest bytes = .ok (.map entries)) : DistinctKeys entries := by
  obtain ⟨parsed, hp, h⟩ := Except.bind_eq_ok h
  cases parsed with
  | none => cases h
  | some root => exact distinctKeys_of_found (Except.mapError_eq_ok h)

end Reading

end SdlAssembly.Yaml
