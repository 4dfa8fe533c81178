import SdlAssembly.Proofs.Command.Courses
import SdlAssembly.Proofs.Config.Acceptance

/-!
# Loaded options

A file that holds a mapping gives the options of its entries, or all that is wrong with them. One
that holds null or an empty mapping gives none, and the defaults are taken. Flags of a command line
go before what its file says.
-/

namespace SdlAssembly.Config

open Yaml Command Files

/-! ## Values of files -/

/-- Problems that tell of each entry what is wrong with it, if anything is, and of nothing else. -/
def ToldOf (entries : List (Datum × Datum)) (problems : List Problem) : Prop :=
  ∃ verdict : Datum × Datum → Option Problem,
    (∀ entry ∈ entries, Verdict entries entry (verdict entry))
      ∧ problems.Perm (entries.filterMap verdict)

/-- Whether a value gives an option under one of its names. -/
def GivesOption (root : Datum) : Prop :=
  ∃ entries, root = .map entries ∧ ∃ switch : Switch, ∃ name ∈ switch.names, Given entries name

/-- What is loaded of a file that holds a value. -/
structure Loads (root : Datum) (loaded : Except LoadFailure Options) : Prop where
  /-- Null and an empty mapping give no option and the defaults, and nothing else does. A mapping
  that spells the defaults out gives options. -/
  defaults : root = .null ∨ root = .map [] ↔ loaded = .ok {} ∧ ¬GivesOption root
  notMapping : ∀ typeName, loaded = .error (.notMapping typeName)
    ↔ root ≠ .null ∧ (∀ entries, root ≠ .map entries) ∧ typeName = root.typeName
  accepted : ∀ entries, root = .map entries →
    ((∃ options, loaded = .ok options) ↔ Acceptable entries)
  taken : ∀ entries options, root = .map entries → loaded = .ok options → TakenFrom entries options
  rejected : ∀ entries, root = .map entries → ¬Acceptable entries →
    ∃ problems, loaded = .error (.rejected problems) ∧ ToldOf entries problems

section Roots

variable {entries : List (Datum × Datum)} {root : Datum}

/-- The options of a mapping, empty or not, are those of its entries. -/
theorem ofRoot_map (entries : List (Datum × Datum)) :
    ofRoot (.map entries) = (acceptEntries entries).mapError .rejected := by
  cases entries <;> rfl

theorem ofRoot_accepted (h : DistinctKeys entries) (ha : Acceptable entries) :
    ofRoot (.map entries) = .ok (chosen entries) := by
  rw [ofRoot_map, acceptEntries_eq, (problems_eq_nil h).mpr ha]
  rfl

theorem ofRoot_rejected (h : DistinctKeys entries) (ha : ¬Acceptable entries) :
    ofRoot (.map entries) = .error (.rejected (problems entries)) := by
  rw [ofRoot_map, acceptEntries_eq]
  cases hp : problems entries with
  | nil => exact (ha ((problems_eq_nil h).mp hp)).elim
  | cons problem rest => rfl

theorem toldOf_problems (h : DistinctKeys entries) : ToldOf entries (problems entries) :=
  ⟨verdict entries, fun _ hm => verdict_spec h hm, problems_perm h⟩

/-- Of accepted entries the first one gives an option. -/
theorem Acceptable.givesOption (ha : Acceptable entries) (hn : entries ≠ []) :
    GivesOption (.map entries) := by
  obtain ⟨⟨key, value⟩, hm⟩ := List.exists_mem_of_ne_nil entries hn
  obtain ⟨switch, name, hs, rfl⟩ := ha.known _ hm
  exact ⟨entries, rfl, switch, name, hs, value, hm⟩

theorem not_given_nil (name : String) : ¬Given [] name :=
  fun ⟨_, hm⟩ => List.not_mem_nil hm

theorem acceptable_nil : Acceptable [] where
  known _ hm := (List.not_mem_nil hm).elim
  single _ name _ _ _ hg _ := (not_given_nil name hg).elim
  boolean _ hm := (List.not_mem_nil hm).elim

theorem not_givesOption (h : ∀ entries, root = .map entries → entries = []) :
    ¬GivesOption root := by
  rintro ⟨entries, he, switch, name, -, hg⟩
  rw [h entries he] at hg
  exact not_given_nil name hg

theorem loads_null : Loads .null (ofRoot .null) := by
  refine ⟨?defaults, ?notMapping, ?accepted, ?taken, ?rejected⟩
  case defaults =>
    exact ⟨fun _ => ⟨rfl, not_givesOption fun _ he => nomatch he⟩, fun _ => .inl rfl⟩
  case notMapping => exact fun _ => ⟨fun he => (nomatch he), fun ⟨hn, _⟩ => (hn rfl).elim⟩
  case accepted => exact fun _ he => nomatch he
  case taken => exact fun _ _ he => nomatch he
  case rejected => exact fun _ he => nomatch he

theorem loads_notMapping (hn : root ≠ .null) (hm : ∀ entries, root ≠ .map entries) :
    Loads root (ofRoot root) := by
  have hr : ofRoot root = .error (.notMapping root.typeName) := by
    cases root with
    | null => exact (hn rfl).elim
    | map entries => exact (hm entries rfl).elim
    | _ => rfl
  rw [hr]
  refine ⟨?defaults, ?notMapping, ?accepted, ?taken, ?rejected⟩
  case defaults =>
    refine ⟨fun he => ?_, fun ⟨he, _⟩ => nomatch he⟩
    exact (he.elim hn (hm [])).elim
  case notMapping =>
    refine fun typeName => ⟨fun he => ?_, fun ⟨_, _, ht⟩ => ht ▸ rfl⟩
    cases he
    exact ⟨hn, hm, rfl⟩
  case accepted => exact fun entries he => (hm entries he).elim
  case taken => exact fun entries _ he => (hm entries he).elim
  case rejected => exact fun entries he => (hm entries he).elim

theorem loads_accepted (h : DistinctKeys entries) (ha : Acceptable entries) :
    Loads (.map entries) (ofRoot (.map entries)) := by
  rw [ofRoot_accepted h ha]
  refine ⟨?defaults, ?notMapping, ?accepted, ?taken, ?rejected⟩
  case defaults =>
    refine ⟨fun he => ?_, fun ⟨_, hn⟩ => .inr ?_⟩
    · obtain rfl : entries = [] := Datum.map.inj (he.resolve_left fun hn => nomatch hn)
      exact ⟨rfl, not_givesOption fun _ he => (Datum.map.inj he).symm⟩
    · by_contra hne
      exact hn (ha.givesOption fun hnil => hne (hnil ▸ rfl))
  case notMapping =>
    exact fun _ => ⟨fun he => (nomatch he), fun ⟨_, hm, _⟩ => (hm entries rfl).elim⟩
  case accepted =>
    rintro _ ⟨⟩
    exact ⟨fun _ => ha, fun _ => ⟨_, rfl⟩⟩
  case taken =>
    rintro _ _ ⟨⟩ ⟨⟩
    exact takenFrom_chosen h ha
  case rejected =>
    rintro _ ⟨⟩ hn
    exact (hn ha).elim

theorem loads_rejected (h : DistinctKeys entries) (ha : ¬Acceptable entries) :
    Loads (.map entries) (ofRoot (.map entries)) := by
  rw [ofRoot_rejected h ha]
  refine ⟨?defaults, ?notMapping, ?accepted, ?taken, ?rejected⟩
  case defaults =>
    refine ⟨fun he => ?_, fun ⟨he, _⟩ => nomatch he⟩
    obtain rfl : entries = [] := Datum.map.inj (he.resolve_left fun hn => nomatch hn)
    exact (ha acceptable_nil).elim
  case notMapping =>
    exact fun _ => ⟨fun he => (nomatch he), fun ⟨_, hm, _⟩ => (hm entries rfl).elim⟩
  case accepted =>
    rintro _ ⟨⟩
    exact ⟨fun ⟨_, ho⟩ => (nomatch ho), fun hn => (ha hn).elim⟩
  case taken => exact fun _ _ _ ho => nomatch ho
  case rejected =>
    rintro _ ⟨⟩ -
    exact ⟨_, rfl, toldOf_problems h⟩

theorem loads_ofRoot (h : ∀ entries, root = .map entries → DistinctKeys entries) :
    Loads root (ofRoot root) := by
  by_cases hn : root = .null
  · exact hn ▸ loads_null
  by_cases hm : ∃ entries, root = .map entries
  · obtain ⟨entries, rfl⟩ := hm
    by_cases ha : Acceptable entries
    · exact loads_accepted (h entries rfl) ha
    · exact loads_rejected (h entries rfl) ha
  · exact loads_notMapping hn fun entries he => hm ⟨entries, he⟩

/-- The value of a file has distinct keys, if it is a mapping. -/
theorem distinctKeys_of_readRoot {deepest : Nat} {bytes : List UInt8}
    (h : readRoot deepest bytes = .ok (.map entries)) : DistinctKeys entries :=
  distinctKeys_of_read (Except.mapError_eq_ok h)

theorem load_value {deepest : Nat} {bytes : List UInt8} (h : readRoot deepest bytes = .ok root)
    (path : String) : (load deepest (some (path, some bytes))).value = ofRoot root := by
  unfold load
  dsimp only
  rw [h]
  rfl

end Roots

/-! ## Flags -/

theorem override_flags (request : Request) (options : Options) :
    options.override request.overrides =
      ⟨options.strict && !request.noStrict, options.skipEntities || request.skipEntities⟩ := by
  unfold Options.override Request.overrides
  cases request.noStrict <;> cases request.skipEntities <;> simp

/-! ## Mappings of texts -/

/-- The entries of a mapping from texts to texts. -/
def textEntries? : Datum → Option (List (String × String))
  | .map entries => entries.mapM fun
    | (.text name, .text value) => some (name, value)
    | _ => none
  | _ => none

theorem eq_of_textEntries? {root : Datum} {pairs : List (String × String)}
    (h : textEntries? root = some pairs) :
    root = .map (pairs.map fun (name, value) => (.text name, .text value)) := by
  unfold textEntries? at h
  split at h
  · rename_i entries
    congr 1
    induction entries generalizing pairs with
    | nil =>
        cases h
        rfl
    | cons entry rest ih =>
        rw [List.mapM_cons] at h
        obtain ⟨pair, hp, h⟩ := Option.bind_eq_some_iff.mp h
        obtain ⟨others, ho, h⟩ := Option.bind_eq_some_iff.mp h
        cases h
        rw [ih ho, List.map_cons]
        split at hp
        · cases hp
          rfl
        · cases hp
  · cases h

/-- Both options, one under its second name. -/
def givenOptions : List UInt8 :=
  "strict_validation: 'on'\nskipEntityExtraction: 'Y'\n".toUTF8.toList

/-- An option under both of its names, one of them with a value that is none, and a key that is no
name. -/
def wrongOptions : List UInt8 :=
  "strictValidation: 'maybe'\nstrict_validation: 'on'\ncache: 'x'\n".toUTF8.toList

theorem acceptable_given : Acceptable [(.text "strict_validation", .text "on"),
    (.text "skipEntityExtraction", .text "Y")] where
  known := by
    refine List.forall_mem_cons.mpr ⟨?_, List.forall_mem_singleton.mpr ?_⟩
    · exact ⟨.strict, "strict_validation", by decide, rfl⟩
    · exact ⟨.skipEntities, "skipEntityExtraction", by decide, rfl⟩
  single switch name hn other ho hg hg' := by
    cases switch <;> simp [Switch.names, Given] at hn ho hg hg' <;> grind
  boolean := List.forall_mem_cons.mpr ⟨⟨true, rfl⟩, List.forall_mem_singleton.mpr ⟨true, rfl⟩⟩

/-! ## Loading -/

/-- Of a file that holds null or an empty mapping the defaults are loaded. Another one has to hold a
mapping that gives each of its options once and all of them truth values: these are loaded, and the
other options by default. What is wrong with a mapping is told entry by entry. A flag for leniency
makes the options of a command lenient whatever is loaded, and one for skipping keys skips them; an
option without its flag is the loaded one. -/
theorem load_exact (deepest : Nat) :
    (∀ bytes root, readRoot deepest bytes = .ok root → ∀ path,
      Loads root (load deepest (some (path, some bytes))).value)
      ∧ ∀ (request : Request) (tree : Tree) (options : Options),
        (load deepest (request.configFile tree)).value = .ok options →
          Gives (readOptions deepest request) tree
            ⟨options.strict && !request.noStrict, options.skipEntities || request.skipEntities⟩
            tree := by
  refine ⟨fun bytes root h path => ?_, fun request tree options h => ?_⟩
  · rw [load_value h]
    exact loads_ofRoot fun entries he => distinctKeys_of_readRoot (he ▸ h)
  · rw [← override_flags]
    exact readOptions_ok h

theorem load_exact_given :
    (load usualDeepest (some ("a.yaml", some givenOptions))).value = .ok ⟨true, true⟩
      ∧ Gives (readOptions usualDeepest ⟨[], some ⟨["a.yaml"]⟩, true, false, none⟩)
        { entries := [(["a.yaml"], .file givenOptions)] } ⟨false, true⟩
        { entries := [(["a.yaml"], .file givenOptions)] }
      ∧ ∃ entries problems, readRoot usualDeepest wrongOptions = .ok (.map entries) ∧ ¬Acceptable entries
        ∧ (load usualDeepest (some ("a.yaml", some wrongOptions))).value = .error (.rejected problems)
        ∧ ToldOf entries problems := by
  obtain ⟨hroots, hflags⟩ := load_exact usualDeepest
  have hgiven : (readRoot usualDeepest givenOptions).toOption.bind textEntries? =
      some [("strict_validation", "on"), ("skipEntityExtraction", "Y")] := by decide +kernel
  have hwrong : (readRoot usualDeepest wrongOptions).toOption.bind textEntries? =
      some [("strictValidation", "maybe"), ("strict_validation", "on"), ("cache", "x")] := by
    decide +kernel
  have hok : (load usualDeepest (some ("a.yaml", some givenOptions))).value = .ok ⟨true, true⟩ := by
    obtain ⟨root, hroot, htexts⟩ := Option.bind_eq_some_iff.mp hgiven
    obtain rfl := eq_of_textEntries? htexts
    have hloads := hroots _ _ (Except.toOption_eq_some.mp hroot) "a.yaml"
    obtain ⟨⟨strict, skipEntities⟩, ho⟩ := (hloads.accepted _ rfl).mpr acceptable_given
    have htaken := hloads.taken _ _ rfl ho
    cases (htaken .strict).1 "strict_validation" (by decide) (.text "on") (.head _)
    cases (htaken .skipEntities).1 "skipEntityExtraction" (by decide) (.text "Y")
      (.tail _ (.head _))
    exact ho
  refine ⟨hok, ?flags, ?wrong⟩
  case flags =>
    have hfile : Request.configFile ⟨[], some ⟨["a.yaml"]⟩, true, false, none⟩
        { entries := [(["a.yaml"], .file givenOptions)] } = some ("a.yaml", some givenOptions) := by
      decide +kernel
    exact hflags _ _ ⟨true, true⟩ (hfile ▸ hok)
  case wrong =>
    obtain ⟨root, hroot, htexts⟩ := Option.bind_eq_some_iff.mp hwrong
    obtain rfl := eq_of_textEntries? htexts
    have hread := Except.toOption_eq_some.mp hroot
    have hn : ¬Acceptable [(.text "strictValidation", .text "maybe"),
        (.text "strict_validation", .text "on"), (.text "cache", .text "x")] := fun ha => by
      have hsame := ha.single .strict "strictValidation" (by decide) "strict_validation" (by decide)
        ⟨_, .head _⟩ ⟨_, .tail _ (.head _)⟩
      exact absurd hsame (by decide)
    obtain ⟨problems, hp, htold⟩ := (hroots _ _ hread "a.yaml").rejected _ rfl hn
    exact ⟨_, problems, hread, hn, hp, htold⟩

end SdlAssembly.Config
