import SdlAssembly.Proofs.Command.Runs
import SdlAssembly.Proofs.Files.Covering

/-!
# Command lines that name the same schemas

The schemas of a command line only matter for what they resolve to, which their order and repetition
do not change. So a run does the same for two command lines that are read alike but for these: it
ends with the same code and leaves the same log, console and files.
-/

namespace SdlAssembly.Command

open Files Console Model

/-! ## Requests -/

/-- Requests that are alike, but for the order and the repetition of their schemas. -/
structure Request.Reorders (request request' : Request) : Prop where
  schemas : ∀ path, path ∈ request'.schemas ↔ path ∈ request.schemas
  config : request'.config = request.config
  noStrict : request'.noStrict = request.noStrict
  skipEntities : request'.skipEntities = request.skipEntities
  output : request'.output = request.output

namespace Request.Reorders

variable {request request' : Request} (h : request.Reorders request')

include h

theorem readOptions (deepest : Nat) :
    readOptions deepest request' = readOptions deepest request := by
  unfold Command.readOptions
  rw [h.config, h.noStrict, h.skipEntities]

theorem assembleRequest : assembleRequest request' = assembleRequest request := by
  have hresolve : ∀ tree : Tree, tree.resolve request'.schemas = tree.resolve request.schemas :=
    fun _ => Tree.resolve_congr h.schemas
  funext options
  simp only [Command.assembleRequest, hresolve]

theorem runAssemble (around : Surroundings) :
    runAssemble around request' = runAssemble around request := by
  unfold Command.runAssemble
  rw [h.readOptions, h.assembleRequest, h.output]

theorem runCompose (around : Surroundings) :
    runCompose around request' = runCompose around request := by
  unfold Command.runCompose
  rw [h.readOptions, h.assembleRequest, h.output]

theorem command (verb : Verb) (around : Surroundings) :
    verb.command around request' = verb.command around request := by
  cases verb with
  | assemble => exact h.runAssemble around
  | compose => exact h.runCompose around

end Request.Reorders

/-! ## Words -/

instance : LawfulBEq CommandOption where
  rfl := fun {a} => by cases a <;> rfl
  eq_of_beq := fun {a b} h => by cases a <;> cases b <;> first | rfl | cases h

/-- Words that are read alike, but for the order and the repetition of schemas. -/
structure Given.Reorders (given given' : Given CommandOption) : Prop where
  schemas : ∀ path, (.schemas, path) ∈ given'.options ↔ (.schemas, path) ∈ given.options
  others : given'.options.filter (fun option => option.1 != .schemas) =
    given.options.filter fun option => option.1 != .schemas
  words : given'.words = given.words

/-- Answers that are requests which are alike, or refusals with one code. -/
inductive AnswersAlike : Except Refusal Request → Except Refusal Request → Prop
  | requests {request request' : Request} (alike : request.Reorders request') :
    AnswersAlike (.ok request) (.ok request')
  | refusals {refusal refusal' : Refusal} (code : refusal'.exitCode = refusal.exitCode) :
    AnswersAlike (.error refusal) (.error refusal')

namespace AnswersAlike

variable {tree : Tree} {schemas schemas' : List String}

/-- A first part that is the same. -/
theorem bind {α : Type} {first first' : Except Refusal α} {next next' : α → Except Refusal Request}
    (hf : first' = first) (hn : ∀ a, AnswersAlike (next a) (next' a)) :
    AnswersAlike (first >>= next) (first' >>= next') := by
  subst hf
  cases first' with
  | error refusal => exact .refusals rfl
  | ok a => exact hn a

/-- First parts that give different values. -/
theorem given {α : Type} {a a' : α} {next next' : α → Except Refusal Request}
    (hn : AnswersAlike (next a) (next' a')) :
    AnswersAlike (orUsage (.ok a) >>= next) (orUsage (.ok a') >>= next') := hn

/-- A refusal under a condition that is the same. -/
theorem guard {condition condition' : Bool} {refusal : Refusal}
    {next next' : PUnit → Except Refusal Request} (hc : condition' = condition)
    (hn : AnswersAlike (next ()) (next' ())) :
    AnswersAlike (if condition then throw refusal >>= next else next ())
      (if condition' then throw refusal >>= next' else next' ()) := by
  subst hc
  cases condition' with
  | true => exact .refusals rfl
  | false => exact hn

theorem forM_checkExists (schemas : List String) :
    (∀ path ∈ schemas, (tree.written? path).isSome)
        ∧ orUsage (schemas.forM (checkExists tree)) = .ok ()
      ∨ (∃ path ∈ schemas, ¬(tree.written? path).isSome)
        ∧ ∃ fault, orUsage (schemas.forM (checkExists tree)) = .error (.usage fault) := by
  induction schemas with
  | nil => exact .inl ⟨by simp, rfl⟩
  | cons first rest ih =>
      have hcons : (first :: rest).forM (checkExists tree) =
        checkExists tree first >>= fun _ => rest.forM (checkExists tree) := rfl
      rw [hcons, checkExists]
      by_cases hf : (tree.written? first).isSome
      · rw [if_pos hf]
        refine ih.imp (fun hok => ⟨List.forall_mem_cons.mpr ⟨hf, hok.1⟩, hok.2⟩) fun hbad => ?_
        obtain ⟨⟨path, hm, hn⟩, hfault⟩ := hbad
        exact ⟨⟨path, List.mem_cons_of_mem _ hm, hn⟩, hfault⟩
      · rw [if_neg hf]
        exact .inr ⟨⟨first, List.mem_cons_self, hf⟩, _, rfl⟩

/-- The first schema that is missing may be another one. -/
theorem checked (hm : ∀ path, path ∈ schemas' ↔ path ∈ schemas)
    {next next' : PUnit → Except Refusal Request} (hn : AnswersAlike (next ()) (next' ())) :
    AnswersAlike (orUsage (schemas.forM (checkExists tree)) >>= next)
      (orUsage (schemas'.forM (checkExists tree)) >>= next') := by
  obtain ⟨hall, he⟩ | ⟨⟨path, hp, hmissing⟩, fault, he⟩ := @forM_checkExists tree schemas
  · obtain ⟨-, he'⟩ | ⟨⟨path, hp, hmissing⟩, -⟩ := @forM_checkExists tree schemas'
    · rw [he, he']
      exact hn
    · exact (hmissing (hall path ((hm path).mp hp))).elim
  · obtain ⟨hall, -⟩ | ⟨-, fault', he'⟩ := @forM_checkExists tree schemas'
    · exact (hmissing (hall path ((hm path).mpr hp))).elim
    · rw [he, he']
      exact .refusals rfl

end AnswersAlike

section Reading

variable {given given' : Given CommandOption} {environment : Environment} {lead : String}

/-- The other options are given the same values. -/
theorem Given.Reorders.given_eq (h : given.Reorders given') {option : CommandOption}
    (ho : option ≠ .schemas) :
    Settings.given ⟨given'.options, environment, lead⟩ option.form =
      Settings.given ⟨given.options, environment, lead⟩ option.form := by
  have hid : option.form.id = option := by cases option <;> rfl
  have hothers : ∀ options : List (CommandOption × String),
      options.filter (fun given => given.1 == option) =
        (options.filter fun given => given.1 != .schemas).filter fun given => given.1 == option := by
    intro options
    rw [List.filter_filter]
    refine List.filter_congr fun given _ => ?_
    by_cases he : given.1 = option
    · simp [he, ho]
    · simp [he]
  rw [Settings.given, Settings.given, hid]
  refine congrArg (List.map Prod.snd) ((hothers _).trans ?_)
  rw [h.others, ← hothers]

theorem Given.Reorders.mem_values (h : given.Reorders given') (path : String) :
    path ∈ Settings.values ⟨given'.options, environment, lead⟩ CommandOption.schemas.form ↔
      path ∈ Settings.values ⟨given.options, environment, lead⟩ CommandOption.schemas.form := by
  have hgiven : ∀ (options : List (CommandOption × String)) (path : String),
      path ∈ Settings.given ⟨options, environment, lead⟩ CommandOption.schemas.form ↔
        (.schemas, path) ∈ options := by
    intro options path
    simp [Settings.given, CommandOption.form]
  have hmem : ∀ path, path ∈ Settings.given ⟨given'.options, environment, lead⟩
      CommandOption.schemas.form ↔ path ∈ Settings.given ⟨given.options, environment, lead⟩
        CommandOption.schemas.form := fun path => by rw [hgiven, hgiven, h.schemas]
  unfold Settings.values
  -- without a schema among the words, both take the variable
  split
  · rename_i hnone
    have hnone' := List.eq_nil_iff_forall_not_mem.mpr fun path hm =>
      List.not_mem_nil (hnone ▸ (hmem path).mpr hm)
    rw [hnone']
    rfl
  · rename_i hsome
    split
    · rename_i hnone
      obtain ⟨first, hfirst⟩ := List.exists_mem_of_ne_nil _ hsome
      exact (List.not_mem_nil (hnone ▸ (hmem first).mp hfirst)).elim
    · exact hmem path

theorem Given.Reorders.isEmpty_values (h : given.Reorders given') :
    (Settings.values ⟨given'.options, environment, lead⟩ CommandOption.schemas.form).isEmpty =
      (Settings.values ⟨given.options, environment, lead⟩ CommandOption.schemas.form).isEmpty := by
  rw [Bool.eq_iff_iff]
  simp only [List.isEmpty_iff, List.eq_nil_iff_forall_not_mem, h.mem_values]

theorem Given.Reorders.value?_eq (h : given.Reorders given') {option : CommandOption}
    (ho : option ≠ .schemas) :
    Settings.value? ⟨given'.options, environment, lead⟩ option.form =
      Settings.value? ⟨given.options, environment, lead⟩ option.form := by
  rw [Settings.value?, Settings.value?, h.given_eq ho]
  rfl

theorem Given.Reorders.flag_eq (h : given.Reorders given') {option : CommandOption}
    (ho : option ≠ .schemas) :
    Settings.flag ⟨given'.options, environment, lead⟩ option.form =
      Settings.flag ⟨given.options, environment, lead⟩ option.form := by
  rw [Settings.flag, Settings.flag, h.given_eq ho]
  rfl

/-- The words of a command, read. -/
def readCommandWords (words : List String) : Except UsageFault (Given CommandOption) :=
  readWords (CommandOption.all.map CommandOption.form) true words

theorem readRequest_reorders {words words' : List String} (h : given.Reorders given')
    (hw : readCommandWords words = .ok given) (hw' : readCommandWords words' = .ok given')
    (tree : Tree) (environment : Environment) (verb : Verb) :
    AnswersAlike (readRequest tree environment verb words)
      (readRequest tree environment verb words') := by
  unfold readRequest
  unfold readCommandWords at hw hw'
  rw [hw, hw']
  refine .given (.bind (congrArg orUsage (h.flag_eq (by decide))) fun help =>
    .guard rfl (.guard h.isEmpty_values (.checked h.mem_values ?_)))
  rw [h.value?_eq (show CommandOption.config ≠ .schemas by decide)]
  -- the checks of a path that is given are the same, and what follows them too
  obtain _ | path := Settings.value? _ CommandOption.config.form
  on_goal 2 => refine .bind rfl fun _ => .bind rfl fun _ => ?_
  all_goals
    refine .bind (congrArg orUsage (h.flag_eq (by decide))) fun noStrict =>
      .bind (congrArg orUsage (h.flag_eq (by decide))) fun skipEntities => ?_
    rw [h.value?_eq (show CommandOption.output ≠ .schemas by decide)]
    refine .guard rfl ?_
    obtain _ | path := Settings.value? _ CommandOption.output.form
    on_goal 2 => refine .bind rfl fun _ => ?_
    all_goals
      rw [h.words]
      cases given.words with
      | nil => exact .requests ⟨fun path => by simp [h.mem_values], rfl, rfl, rfl, rfl⟩
      | cons word rest => exact .refusals rfl

end Reading

/-! ## Runs -/

section Running

variable {tree : Tree} {around : Surroundings} {general : General} {words words' : List String}

/-- A command ends alike when its words ask for the same. -/
theorem outcome_runVerb (hread : ∀ tree, AnswersAlike
      (readRequest tree around.environment general.verb general.words)
      (readRequest tree around.environment general.verb words')) (world : World) :
    Outcome.of general.logLevel
        ((runVerb around { general with words := words' }).run.run world) =
      Outcome.of general.logLevel ((runVerb around general).run.run world) := by
  obtain ⟨result, between, hs⟩ : ∃ result between,
    Ends (startLogFile general.logFile) world result between := ⟨_, _, rfl⟩
  cases result with
  | error stop =>
      have hv : Ends (runVerb around general) world (.error stop) between := Ends.stop hs
      have hv' : Ends (runVerb around { general with words := words' }) world (.error stop)
        between := Ends.stop hs
      exact congrArg (Outcome.of general.logLevel) (hv'.trans hv.symm)
  | ok _ =>
      have hread := hread between.tree
      generalize hr : readRequest between.tree around.environment general.verb general.words = answer
        at hread
      generalize hr' : readRequest between.tree around.environment general.verb words' = answer' at hread
      cases hread with
      | @requests request request' alike =>
          obtain ⟨result, last, hc⟩ : ∃ result last,
            Ends (general.verb.command around request) between result last := ⟨_, _, rfl⟩
          have hc' : Ends (general.verb.command around request') between result last := by
            rw [alike.command]
            exact hc
          have hv : Ends (runVerb around general) world result last := ends_runVerb hs hr hc
          have hv' := @ends_runVerb { general with words := words' } _ _ _ _ hs hr' _ _ hc'
          exact congrArg (Outcome.of general.logLevel) (hv'.trans hv.symm)
      | @refusals refusal refusal' code =>
          have hv : Ends (runVerb around general) world (.error (.refused refusal))
              between := ends_refused hs hr
          have hv' := @ends_refused { general with words := words' } _ _ _ hs _ hr'
          have hv : (runVerb around general).run.run world = _ := hv
          have hv' : (runVerb around { general with words := words' }).run.run world = _ := hv'
          rw [hv, hv']
          simp [Outcome.of, Stop.exitCode, code]

end Running

/-- Command lines that are read alike, but for the order and the repetition of schemas. -/
def Reorders (tree : Tree) (environment : Environment) (words words' : List String) : Prop :=
  ∃ general after given given', readGeneral tree environment words = .ok general
    ∧ readGeneral tree environment words' = .ok { general with words := after }
    ∧ readCommandWords general.words = .ok given ∧ readCommandWords after = .ok given'
    ∧ given.Reorders given'

/-- What paths resolve to is in order, each path once. Path lists with the same members resolve to
the same, and so do path lists that cover each other, as when paths to directories and documents are
added to one that lie inside of a directory that it names. So a run does not depend on the order and
the repetition of its schemas. -/
theorem run_reorders (tree : Tree) :
    (∀ paths, Path.InOrder (tree.resolve paths))
      ∧ (∀ paths paths', (∀ path, path ∈ paths' ↔ path ∈ paths) →
        tree.resolve paths' = tree.resolve paths ∧ tree.load paths' = tree.load paths)
      ∧ (tree.WellFormed → ∀ paths paths', (∀ path ∈ paths', tree.Covers paths path) →
        (∀ path ∈ paths, tree.Covers paths' path) →
        tree.resolve paths' = tree.resolve paths ∧ tree.load paths' = tree.load paths)
      ∧ ∀ around words words', Reorders tree around.environment words words' →
        run tree around words' = run tree around words := by
  have hload : ∀ {paths paths'}, tree.resolve paths' = tree.resolve paths →
      tree.resolve paths' = tree.resolve paths ∧ tree.load paths' = tree.load paths :=
    fun he => ⟨he, congrArg tree.documentsAt he⟩
  refine ⟨Tree.resolve_inOrder, fun _ _ hm => hload (Tree.resolve_congr hm),
    fun h _ _ hc hc' => hload (Tree.resolve_of_covers h hc hc'), ?_⟩
  rintro around words words' ⟨general, after, given, given', hg, hg', hw, hw', h⟩
  rw [run, run, hg, hg']
  exact outcome_runVerb (fun tree => readRequest_reorders h hw hw' tree around.environment general.verb) _

theorem readCommandWords_of_toOption {words : List String} {given : Given CommandOption}
    (h : (readCommandWords words).toOption.map (fun given => (given.options, given.words)) =
      some (given.options, given.words)) : readCommandWords words = .ok given := by
  obtain ⟨⟨options, others⟩, hread, he⟩ := Option.map_eq_some_iff.mp h
  cases he
  exact Except.toOption_eq_some.mp hread

/-- Two schemas, one of them in the other. -/
def twoSchemas : List String :=
  ["compose", "-s", "d", "-o", "out.graphql", "--schema=d/x.graphql", "--no-strict"]

/-- The schemas the other way round, one of them twice. -/
def threeSchemas : List String :=
  ["compose", "-sd/x.graphql", "-o", "out.graphql", "--no-strict", "--schema", "d", "-s", "d"]

theorem reorders_threeSchemas : Reorders Tree.nestedTree [] twoSchemas threeSchemas := by
  refine ⟨⟨.info, none, .compose, twoSchemas.tail⟩, threeSchemas.tail,
    ⟨[(.schemas, "d"), (.output, "out.graphql"), (.schemas, "d/x.graphql"), (.noStrict, "")], []⟩,
    ⟨[(.schemas, "d/x.graphql"), (.output, "out.graphql"), (.noStrict, ""), (.schemas, "d"),
      (.schemas, "d")], []⟩,
    Except.toOption_eq_some.mp (by decide +kernel), Except.toOption_eq_some.mp (by decide +kernel),
    readCommandWords_of_toOption (by decide +kernel),
    readCommandWords_of_toOption (by decide +kernel), fun path => ?_, rfl, rfl⟩
  simp [or_comm]

theorem run_reorders_nested : Tree.nestedTree.WellFormed
    ∧ Tree.nestedTree.resolve [⟨["d"]⟩, ⟨["d", "x.graphql"]⟩, ⟨["d", "x.graphql", "a.graphql"]⟩] =
      Tree.nestedTree.resolve [⟨["d"]⟩]
    ∧ run Tree.nestedTree {} threeSchemas = run Tree.nestedTree {} twoSchemas := by
  obtain ⟨-, -, hcovered, hrun⟩ := run_reorders Tree.nestedTree
  have hdirectory : Tree.nestedTree.Covers [⟨["d"]⟩] (Path.append ⟨["d"]⟩ ["x.graphql"]) :=
    .directory List.mem_cons_self rfl rfl
  have hdocument : Tree.nestedTree.Covers [⟨["d"]⟩]
      (Path.append ⟨["d"]⟩ ["x.graphql", "a.graphql"]) :=
    .document List.mem_cons_self rfl rfl ⟨"a.graphql", rfl, by decide +kernel⟩
  refine ⟨Tree.nestedTree_wellFormed, (hcovered Tree.nestedTree_wellFormed _ _ ?_ ?_).1,
    hrun {} _ _ reorders_threeSchemas⟩
  · simp only [List.forall_mem_cons, List.not_mem_nil, false_implies, implies_true, and_true]
    exact ⟨.named List.mem_cons_self, hdirectory, hdocument⟩
  · exact fun path hm => .named (List.mem_cons.mpr (.inl (List.mem_singleton.mp hm)))

end SdlAssembly.Command
