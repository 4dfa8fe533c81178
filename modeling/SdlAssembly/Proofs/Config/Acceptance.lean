import Mathlib.Data.List.Nodup
import SdlAssembly.Config.Acceptance
import SdlAssembly.Proofs.Yaml.Keys

/-!
# Accepted options

Options are accepted from entries that each give one of them a truth value, none of them under two
names. Of other entries each is told once: a value that is rejected, and a key that no option is
read under.
-/

namespace SdlAssembly.Config

open Yaml

/-! ## Names that options are given under -/

/-- Whether a text is a key of some entries. -/
def Given (entries : List (Datum × Datum)) (name : String) : Prop :=
  ∃ value, (.text name, value) ∈ entries

/-- Whether an option is read under one of its names: none of those before it is given. -/
def Switch.ReadUnder (switch : Switch) (entries : List (Datum × Datum)) (name : String) : Prop :=
  ∃ before after, switch.names = before ++ name :: after ∧ ∀ other ∈ before, ¬Given entries other

section Names

variable {entries : List (Datum × Datum)} {switch : Switch} {name : String} {value : Datum}

theorem Switch.mem_all (switch : Switch) : switch ∈ all := by
  cases switch <;> simp [all]

theorem Switch.nodup_names (switch : Switch) : switch.names.Nodup := by
  cases switch <;> decide

/-- No name belongs to two options. -/
theorem Switch.eq_of_mem_names {other : Switch} (h : name ∈ switch.names)
    (ho : name ∈ other.names) : switch = other := by
  cases switch <;> cases other <;> simp [names] at h ho ⊢ <;> rcases h with rfl | rfl <;> simp at ho

theorem Switch.ReadUnder.mem_names (h : switch.ReadUnder entries name) : name ∈ switch.names := by
  obtain ⟨before, after, hs, -⟩ := h
  simp [hs]

theorem Switch.given?_eq_none :
    switch.given? entries = none ↔ ∀ name ∈ switch.names, ¬Given entries name := by
  simp only [given?, List.findSome?_eq_none_iff, Option.map_eq_none_iff, lookup?_eq_none, Given,
    not_exists]

theorem Switch.given?_eq_some (h : DistinctKeys entries) :
    switch.given? entries = some (name, value)
      ↔ switch.ReadUnder entries name ∧ (.text name, value) ∈ entries := by
  simp only [given?, List.findSome?_eq_some_iff, Option.map_eq_some_iff, Option.map_eq_none_iff,
    lookup?_eq_none, h.lookup?_eq_some, ReadUnder, Given, not_exists]
  constructor
  · rintro ⟨before, other, after, hs, ⟨found, hf, he⟩, hn⟩
    cases he
    exact ⟨⟨before, after, hs, hn⟩, hf⟩
  · rintro ⟨⟨before, after, hs, hn⟩, hm⟩
    exact ⟨before, name, after, hs, ⟨value, hm, rfl⟩, hn⟩

theorem mem_namesUsed : name ∈ namesUsed entries ↔
    ∃ switch : Switch, ∃ value, switch.given? entries = some (name, value) := by
  simp only [namesUsed, List.mem_filterMap, Option.map_eq_some_iff, Prod.exists, Switch.mem_all,
    true_and]
  exact exists_congr fun switch => ⟨fun ⟨_, value, hg, hn⟩ => ⟨value, hn ▸ hg⟩,
    fun ⟨value, hg⟩ => ⟨name, value, hg, rfl⟩⟩

end Names

/-! ## Verdicts -/

/-- What is wrong with an entry, if anything is. -/
inductive Verdict (entries : List (Datum × Datum)) : Datum × Datum → Option Problem → Prop
  | accepted {switch : Switch} {name value flag} (hr : switch.ReadUnder entries name)
    (hv : switchOf value = .ok flag) : Verdict entries (.text name, value) none
  | rejected {switch : Switch} {name value complaint} (hr : switch.ReadUnder entries name)
    (hv : switchOf value = .error complaint) :
    Verdict entries (.text name, value) (some ⟨complaint, [.name name], value⟩)
  /-- The option is read under another name. -/
  | superfluous {switch : Switch} {before name after other value}
    (hs : switch.names = before ++ name :: after) (ho : other ∈ before) (hg : Given entries other) :
    Verdict entries (.text name, value) (some ⟨.unknownKey, [.name name], value⟩)
  | unknown {name value} (hn : ∀ switch : Switch, name ∉ switch.names) :
    Verdict entries (.text name, value) (some ⟨.unknownKey, [.name name], value⟩)
  | notText {key value} (hk : ∀ name, key ≠ .text name) :
    Verdict entries (key, value) (some ⟨.keyNotText, [stepOf key], key⟩)

/-- The problem of a value that stands for no truth value. -/
def rejection? (entry : Datum × Datum) : Option Problem :=
  match switchOf entry.2 with
  | .ok _ => none
  | .error complaint => some ⟨complaint, [stepOf entry.1], entry.2⟩

/-- The problem of an entry: that of its key, or else that of its value. -/
def verdict (entries : List (Datum × Datum)) (entry : Datum × Datum) : Option Problem :=
  (strayKey (namesUsed entries) entry).or (rejection? entry)

section Verdicts

variable {entries : List (Datum × Datum)} {entry : Datum × Datum}

theorem strayKey_notText {used : List String} {key : Datum} (hk : ∀ name, key ≠ .text name)
    (value : Datum) : strayKey used (key, value) = some ⟨.keyNotText, [stepOf key], key⟩ := by
  cases key with
  | text name => exact (hk name rfl).elim
  | _ => rfl

theorem strayKey_eq_none {used : List String} :
    strayKey used entry = none ↔ ∃ name ∈ used, entry.1 = .text name := by
  obtain ⟨key, value⟩ := entry
  by_cases ht : ∃ name, key = .text name
  · obtain ⟨name, rfl⟩ := ht
    simp [strayKey]
  · have hk : ∀ name, key ≠ .text name := fun name he => ht ⟨name, he⟩
    rw [strayKey_notText hk]
    exact iff_of_false (Option.some_ne_none _) fun ⟨name, _, he⟩ => hk name he

/-- A name of an option is one that it is read under, or comes after a name that is given. -/
theorem readUnder_or (switch : Switch) {name : String} (hn : name ∈ switch.names) :
    switch.ReadUnder entries name ∨ ∃ before after other, switch.names = before ++ name :: after
      ∧ other ∈ before ∧ Given entries other := by
  obtain ⟨before, after, hs⟩ := List.append_of_mem hn
  by_cases hg : ∃ other ∈ before, Given entries other
  · obtain ⟨other, ho, hg⟩ := hg
    exact .inr ⟨before, after, other, hs, ho, hg⟩
  · exact .inl ⟨before, after, hs, fun other ho hg' => hg ⟨other, ho, hg'⟩⟩

theorem verdict_spec (h : DistinctKeys entries) (hm : entry ∈ entries) :
    Verdict entries entry (verdict entries entry) := by
  obtain ⟨key, value⟩ := entry
  unfold verdict
  by_cases ht : ∃ name, key = .text name
  · obtain ⟨name, rfl⟩ := ht
    by_cases hu : name ∈ namesUsed entries
    · obtain ⟨switch, found, hg⟩ := mem_namesUsed.mp hu
      have hr := ((Switch.given?_eq_some h).mp hg).1
      rw [strayKey_eq_none.mpr ⟨name, hu, rfl⟩, Option.none_or]
      cases hv : switchOf value with
      | ok flag =>
          simp only [rejection?, hv]
          exact .accepted hr hv
      | error complaint =>
          simp only [rejection?, hv]
          exact .rejected hr hv
    · have hs : strayKey (namesUsed entries) (.text name, value) =
          some ⟨.unknownKey, [.name name], value⟩ := by simp [strayKey, hu]
      rw [hs, Option.some_or]
      -- A name of an option goes unused only if one before it is given.
      by_cases hn : ∃ switch : Switch, name ∈ switch.names
      · obtain ⟨switch, hn⟩ := hn
        rcases readUnder_or switch hn with hr | ⟨before, after, other, hs, ho, hg⟩
        · have hg := (Switch.given?_eq_some h).mpr ⟨hr, hm⟩
          exact (hu (mem_namesUsed.mpr ⟨switch, value, hg⟩)).elim
        · exact .superfluous hs ho hg
      · exact .unknown fun switch hn' => hn ⟨switch, hn'⟩
  · have hk : ∀ name, key ≠ .text name := fun name he => ht ⟨name, he⟩
    rw [strayKey_notText hk, Option.some_or]
    exact .notText hk

end Verdicts

/-! ## Problems -/

/-- All that is wrong with some entries, in the order in which it is told. -/
def problems (entries : List (Datum × Datum)) : List Problem :=
  Switch.all.filterMap (fun switch => match switch.accept entries with
    | .error problem => some problem
    | .ok _ => none) ++ entries.filterMap (strayKey (namesUsed entries))

section Problems

variable {entries : List (Datum × Datum)}

/-- Of two tests, the items that fail the first one, and of the others those that fail the second
one. -/
theorem filterMap_or_perm {α β : Type} (first second : α → Option β) (items : List α) :
    (items.filterMap fun item => (first item).or (second item)).Perm
      ((items.filter fun item => (first item).isNone).filterMap second
        ++ items.filterMap first) := by
  induction items with
  | nil => exact .nil
  | cons item rest ih =>
      cases hf : first item with
      | some found =>
          simp only [List.filterMap_cons, List.filter_cons, hf, Option.some_or, Option.isNone_some]
          exact (ih.cons found).trans List.perm_middle.symm
      | none =>
          cases hs : second item with
          | none => simpa [List.filterMap_cons, List.filter_cons, hf, hs] using ih
          | some found =>
              simpa [List.filterMap_cons, List.filter_cons, hf, hs] using ih.cons found

/-- The entries that options are read from. -/
def readEntries (entries : List (Datum × Datum)) : List (Datum × Datum) :=
  Switch.all.filterMap fun switch =>
    (switch.given? entries).map fun (name, value) => (.text name, value)

theorem mem_readEntries {entry : Datum × Datum} : entry ∈ readEntries entries ↔
    ∃ switch : Switch, ∃ name, switch.given? entries = some (name, entry.2)
      ∧ entry.1 = .text name := by
  simp only [readEntries, List.mem_filterMap, Option.map_eq_some_iff, Prod.exists, Switch.mem_all,
    true_and]
  refine exists_congr fun switch => exists_congr fun name => ⟨?_, fun ⟨hg, hk⟩ => ?_⟩
  · rintro ⟨value, hg, rfl⟩
    exact ⟨hg, rfl⟩
  · exact ⟨entry.2, hg, Prod.ext hk.symm rfl⟩

theorem Switch.eq_of_given? (h : DistinctKeys entries) {switch other : Switch} {name : String}
    {value found : Datum} (hg : switch.given? entries = some (name, value))
    (ho : other.given? entries = some (name, found)) : switch = other :=
  eq_of_mem_names ((given?_eq_some h).mp hg).1.mem_names ((given?_eq_some h).mp ho).1.mem_names

theorem nodup_readEntries (h : DistinctKeys entries) : (readEntries entries).Nodup := by
  have hall : Switch.all.Nodup := by simp [Switch.all]
  refine List.Nodup.filterMap (fun switch other entry hs ho => ?_) hall
  obtain ⟨⟨name, value⟩, hg, rfl⟩ := Option.map_eq_some_iff.mp hs
  obtain ⟨⟨name', value'⟩, hg', he⟩ := Option.map_eq_some_iff.mp ho
  cases he
  exact Switch.eq_of_given? h hg hg'

theorem readEntries_perm (h : DistinctKeys entries) :
    (entries.filter fun entry => (strayKey (namesUsed entries) entry).isNone).Perm
      (readEntries entries) := by
  have hnodup :
      (entries.filter fun entry => (strayKey (namesUsed entries) entry).isNone).Nodup := by
    refine (List.Pairwise.filter _ h).imp_of_mem fun {a b} ha _ hd he => ?_
    have hnone := Option.isNone_iff_eq_none.mp (List.mem_filter.mp ha).2
    obtain ⟨name, -, hk⟩ := strayKey_eq_none.mp hnone
    rw [← he, hk, sameKey_text.mpr rfl] at hd
    cases hd
  refine (List.perm_ext_iff_of_nodup hnodup (nodup_readEntries h)).mpr fun ⟨key, value⟩ => ?_
  rw [List.mem_filter, Option.isNone_iff_eq_none, strayKey_eq_none, mem_readEntries]
  constructor
  · rintro ⟨hm, name, hu, rfl⟩
    obtain ⟨switch, found, hg⟩ := mem_namesUsed.mp hu
    have hr := ((Switch.given?_eq_some h).mp hg).1
    exact ⟨switch, name, (Switch.given?_eq_some h).mpr ⟨hr, hm⟩, rfl⟩
  · rintro ⟨switch, name, hg, rfl⟩
    exact ⟨((Switch.given?_eq_some h).mp hg).2, name, mem_namesUsed.mpr ⟨switch, _, hg⟩, rfl⟩

/-- Each entry that something is wrong with is told once. -/
theorem problems_perm (h : DistinctKeys entries) :
    (problems entries).Perm (entries.filterMap (verdict entries)) := by
  -- The options are walked in their own order, the entries in that of the mapping.
  have hread : (readEntries entries).filterMap rejection? =
      Switch.all.filterMap fun switch => match switch.accept entries with
        | .error problem => some problem
        | .ok _ => none := by
    rw [readEntries, List.filterMap_filterMap]
    refine List.filterMap_congr fun switch _ => ?_
    unfold Switch.accept
    rcases switch.given? entries with _ | ⟨name, value⟩
    · rfl
    · cases hv : switchOf value <;> simp [rejection?, hv, stepOf]
  have hparts := filterMap_or_perm (strayKey (namesUsed entries)) rejection? entries
  have hrejected := ((readEntries_perm h).filterMap rejection?).append_right
    (entries.filterMap (strayKey (namesUsed entries)))
  rw [hread] at hrejected
  exact (hparts.trans hrejected).symm

end Problems

/-! ## Acceptance -/

/-- The value of an option. -/
def Switch.get (switch : Switch) (options : Options) : Bool :=
  match switch with
  | strict => options.strict
  | skipEntities => options.skipEntities

/-- Entries that options are taken from: each key is a name of an option, no option has two of its
names among them, and each value stands for a truth value. -/
structure Acceptable (entries : List (Datum × Datum)) : Prop where
  known : ∀ entry ∈ entries, ∃ switch : Switch, ∃ name ∈ switch.names, entry.1 = .text name
  single : ∀ switch : Switch, ∀ name ∈ switch.names, ∀ other ∈ switch.names,
    Given entries name → Given entries other → name = other
  boolean : ∀ entry ∈ entries, ∃ flag, switchOf entry.2 = .ok flag

/-- Options that are taken from entries: each has the value that it is given, or else its
default. -/
def TakenFrom (entries : List (Datum × Datum)) (options : Options) : Prop :=
  ∀ switch : Switch,
    (∀ name ∈ switch.names, ∀ value, (.text name, value) ∈ entries →
      switchOf value = .ok (switch.get options))
    ∧ ((∀ name ∈ switch.names, ¬Given entries name) → switch.get options = switch.get {})

/-- Options with the value that entries give to one of them, if they do. -/
def Switch.apply (switch : Switch) (entries : List (Datum × Datum)) (options : Options) : Options :=
  match switch.accept entries with
  | .ok set => set options
  | .error _ => options

/-- The options that entries give, and the others by default. -/
def chosen (entries : List (Datum × Datum)) : Options :=
  Switch.skipEntities.apply entries (Switch.strict.apply entries {})

section Acceptance

variable {entries : List (Datum × Datum)} {switch : Switch} {options : Options}

theorem acceptEntries_eq : acceptEntries entries =
    match problems entries with
    | [] => .ok (chosen entries)
    | found => .error found := rfl

theorem verdict_eq_none {entry : Datum × Datum} : verdict entries entry = none ↔
    (∃ name ∈ namesUsed entries, entry.1 = .text name) ∧ ∃ flag, switchOf entry.2 = .ok flag := by
  rw [verdict, Option.or_eq_none_iff, strayKey_eq_none, rejection?]
  cases switchOf entry.2 <;> simp

/-- Two names of an option are used only if they are one. -/
theorem eq_of_mem_namesUsed (h : DistinctKeys entries) {name other : String}
    (hn : name ∈ switch.names) (ho : other ∈ switch.names) (hu : name ∈ namesUsed entries)
    (hu' : other ∈ namesUsed entries) : name = other := by
  have hgiven : ∀ {used}, used ∈ switch.names → used ∈ namesUsed entries →
      ∃ value, switch.given? entries = some (used, value) := fun hs hm => by
    obtain ⟨found, value, hg⟩ := mem_namesUsed.mp hm
    rw [Switch.eq_of_mem_names hs ((Switch.given?_eq_some h).mp hg).1.mem_names]
    exact ⟨value, hg⟩
  obtain ⟨value, hg⟩ := hgiven hn hu
  obtain ⟨value', hg'⟩ := hgiven ho hu'
  cases hg.symm.trans hg'
  rfl

/-- A name that is given is read, as no other name of its option is given. -/
theorem Acceptable.readUnder (ha : Acceptable entries) {name : String} (hn : name ∈ switch.names)
    (hg : Given entries name) : switch.ReadUnder entries name := by
  rcases readUnder_or switch hn with hr | ⟨before, after, other, hs, ho, hg'⟩
  · exact hr
  · have hsame : name = other := ha.single switch name hn other (by simp [hs, ho]) hg hg'
    have hnodup := switch.nodup_names
    rw [hs, List.nodup_append] at hnodup
    exact (hnodup.2.2 other ho name List.mem_cons_self hsame.symm).elim

theorem problems_eq_nil (h : DistinctKeys entries) :
    problems entries = [] ↔ Acceptable entries := by
  have hnil : problems entries = [] ↔ ∀ entry ∈ entries, verdict entries entry = none := by
    rw [← List.filterMap_eq_nil_iff, ← List.perm_nil, ← List.perm_nil]
    exact ⟨(problems_perm h).symm.trans, (problems_perm h).trans⟩
  rw [hnil]
  constructor
  · intro hall
    have hused : ∀ {name}, Given entries name → name ∈ namesUsed entries := fun ⟨value, hm⟩ => by
      obtain ⟨⟨used, hu, hk⟩, -⟩ := verdict_eq_none.mp (hall _ hm)
      cases hk
      exact hu
    refine ⟨fun entry hm => ?_, fun switch name hn other ho hg hg' => ?_, fun entry hm =>
      (verdict_eq_none.mp (hall entry hm)).2⟩
    · obtain ⟨⟨name, hu, hk⟩, -⟩ := verdict_eq_none.mp (hall entry hm)
      obtain ⟨switch, value, hg⟩ := mem_namesUsed.mp hu
      exact ⟨switch, name, ((Switch.given?_eq_some h).mp hg).1.mem_names, hk⟩
    · exact eq_of_mem_namesUsed h hn ho (hused hg) (hused hg')
  · rintro ha ⟨key, value⟩ hm
    obtain ⟨switch, name, hn, rfl⟩ := ha.known _ hm
    have hr := ha.readUnder hn ⟨value, hm⟩
    refine verdict_eq_none.mpr ⟨⟨name, ?_, rfl⟩, ha.boolean _ hm⟩
    exact mem_namesUsed.mpr ⟨switch, value, (Switch.given?_eq_some h).mpr ⟨hr, hm⟩⟩

theorem Switch.apply_of_none (hg : switch.given? entries = none) :
    switch.apply entries options = options := by
  simp [apply, accept, hg]

theorem Switch.get_set (flag : Bool) : switch.get (switch.set flag options) = flag := by
  cases switch <;> rfl

theorem Switch.get_set_of_ne {other : Switch} (h : switch ≠ other) (flag : Bool) :
    switch.get (other.set flag options) = switch.get options := by
  cases switch <;> cases other <;> simp [get, set] at h ⊢

theorem Switch.get_apply {name : String} {value : Datum} {flag : Bool}
    (hg : switch.given? entries = some (name, value)) (hv : switchOf value = .ok flag) :
    switch.get (switch.apply entries options) = flag := by
  simp [apply, accept, hg, hv, get_set]

/-- An option does not change with others. -/
theorem Switch.get_apply_of_ne {other : Switch} (h : switch ≠ other) :
    switch.get (other.apply entries options) = switch.get options := by
  unfold apply accept
  rcases other.given? entries with _ | ⟨name, value⟩
  · rfl
  · cases hv : switchOf value with
    | error complaint => simp only [hv]
    | ok flag => simp only [hv, get_set_of_ne h]

theorem get_chosen {name : String} {value : Datum} {flag : Bool}
    (hg : switch.given? entries = some (name, value)) (hv : switchOf value = .ok flag) :
    switch.get (chosen entries) = flag := by
  cases switch with
  | strict => exact (Switch.get_apply_of_ne (by decide)).trans (Switch.get_apply hg hv)
  | skipEntities => exact Switch.get_apply hg hv

theorem get_chosen_of_none (hg : switch.given? entries = none) :
    switch.get (chosen entries) = switch.get {} := by
  unfold chosen
  cases switch with
  | strict => rw [Switch.get_apply_of_ne (by decide), Switch.apply_of_none hg]
  | skipEntities => rw [Switch.apply_of_none hg, Switch.get_apply_of_ne (by decide)]

theorem takenFrom_chosen (h : DistinctKeys entries) (ha : Acceptable entries) :
    TakenFrom entries (chosen entries) := by
  refine fun switch => ⟨fun name hn value hm => ?_, fun hn =>
    get_chosen_of_none (Switch.given?_eq_none.mpr hn)⟩
  obtain ⟨flag, hv⟩ := ha.boolean _ hm
  have hr := ha.readUnder hn ⟨value, hm⟩
  rw [get_chosen ((Switch.given?_eq_some h).mpr ⟨hr, hm⟩) hv]
  exact hv

end Acceptance

end SdlAssembly.Config
