import SdlAssembly.Command.Run
import SdlAssembly.Proofs.Console.Messages

/-!
# Courses of commands

A command goes through its stages until one of them fails: it reads options and documents, makes a
model and what it is to write, makes directories, writes and tells so. A course says which stage
fails, if one does, and what is then left of the file tree.
-/

namespace SdlAssembly.Command

open Files Console Model Annotated

/-! ## Steps -/

/-- A step that is started in one state ends in another one. -/
def Ends {α : Type} (step : Run α) (world : World) (result : Except Stop α) (after : World) : Prop :=
  step.run.run world = (result, after)

/-- How a failure ends a run: it is reported, if it has a report. -/
inductive Answers (escape : Escape) : Option String → Stop → Log → Prop
  | reported (message : String) (log : Log) :
    Answers escape (some message) .failed (log ++ [⟨.error, message⟩])
  | escaped (log : Log) : Answers escape none (.escaped escape) log

/-- A step gives a value, and changes a tree into another one. -/
def Gives {α : Type} (step : Run α) (tree : Tree) (a : α) (after : Tree) : Prop :=
  ∀ world, world.tree = tree → ∃ last, Ends step world (.ok a) last ∧ last.tree = after

/-- A step fails, and changes a tree into another one. -/
def Breaks {α : Type} (step : Run α) (tree : Tree) (report : Option String) (escape : Escape)
    (after : Tree) : Prop :=
  ∀ world, world.tree = tree → ∃ stop last, Ends step world (.error stop) last ∧ last.tree = after
    ∧ Answers escape report stop last.log

section Steps

variable {α β : Type} {step : Run α} {next : α → Run β} {a : α} {b : β}
  {tree middle after : Tree} {report : Option String} {escape : Escape} {path : Path}
  {bytes : List UInt8} {fault : FileFault}

theorem Ends.bind {world between last : World} {result : Except Stop β}
    (hs : Ends step world (.ok a) between) (hn : Ends (next a) between result last) :
    Ends (step >>= next) world result last := by
  have hs : step world = (.ok a, between) := hs
  show ExceptT.bindCont next (step world).1 (step world).2 = _
  rw [hs]
  exact hn

theorem Ends.stop {world last : World} {stop : Stop} (hs : Ends step world (.error stop) last) :
    Ends (step >>= next) world (.error stop) last := by
  have hs : step world = (.error stop, last) := hs
  show ExceptT.bindCont next (step world).1 (step world).2 = _
  rw [hs]
  rfl

theorem gives_pure (a : α) (tree : Tree) : Gives (pure a) tree a tree :=
  fun world hw => ⟨world, rfl, hw⟩

theorem Gives.bind (hs : Gives step tree a middle) (hn : Gives (next a) middle b after) :
    Gives (step >>= next) tree b after := by
  intro world hw
  obtain ⟨between, he, hm⟩ := hs world hw
  obtain ⟨last, hl, ha⟩ := hn between hm
  exact ⟨last, he.bind hl, ha⟩

theorem Gives.breaks (hs : Gives step tree a middle)
    (hn : Breaks (next a) middle report escape after) :
    Breaks (step >>= next) tree report escape after := by
  intro world hw
  obtain ⟨between, he, hm⟩ := hs world hw
  obtain ⟨stop, last, hl, ha⟩ := hn between hm
  exact ⟨stop, last, he.bind hl, ha⟩

theorem Breaks.bind (hs : Breaks step tree report escape after) :
    Breaks (step >>= next) tree report escape after := by
  intro world hw
  obtain ⟨stop, last, hl, ha⟩ := hs world hw
  exact ⟨stop, last, hl.stop, ha⟩

/-- Steps only look at the tree of the state that they start in. -/
theorem gives_get {next : World → Run β}
    (h : ∀ world, world.tree = tree → Gives (next world) tree b after) :
    Gives (get >>= next) tree b after := by
  intro world hw
  obtain ⟨last, hl, ha⟩ := h world hw world hw
  exact ⟨last, Ends.bind (rfl : Ends get world (.ok world) world) hl, ha⟩

theorem breaks_get {next : World → Run β}
    (h : ∀ world, world.tree = tree → Breaks (next world) tree report escape after) :
    Breaks (get >>= next) tree report escape after := by
  intro world hw
  obtain ⟨stop, last, hl, ha⟩ := h world hw world hw
  exact ⟨stop, last, Ends.bind (rfl : Ends get world (.ok world) world) hl, ha⟩

theorem gives_logged (t : Logged α) (tree : Tree) : Gives (logged t) tree t.value tree :=
  fun world hw => ⟨{ world with log := world.log ++ t.log }, rfl, hw⟩

theorem breaks_stopBy (report : Option String) (escape : Escape) (tree : Tree) :
    Breaks (stopBy report escape : Run α) tree report escape tree := by
  intro world hw
  cases report with
  | none => exact ⟨_, world, rfl, hw, .escaped world.log⟩
  | some message =>
      exact ⟨_, { world with log := world.log ++ [⟨.error, message⟩] }, rfl, hw,
        .reported message world.log⟩

theorem breaks_throw (escape : Escape) (tree : Tree) :
    Breaks (throw (.escaped escape) : Run α) tree none escape tree :=
  fun world hw => ⟨_, world, rfl, hw, .escaped world.log⟩

theorem gives_makeParents (h : tree.makeParents path = (after, none)) :
    Gives (makeParents path) tree () after := by
  unfold makeParents
  refine gives_get fun world hw => ?_
  rw [hw, h]
  exact fun world _ => ⟨{ world with tree := after }, rfl, rfl⟩

theorem breaks_makeParents (h : tree.makeParents path = (after, some fault)) :
    Breaks (makeParents path) tree none (.file fault) after := by
  unfold makeParents
  refine breaks_get fun world hw => ?_
  rw [hw, h]
  exact fun world _ => ⟨_, { world with tree := after }, rfl, rfl, .escaped _⟩

theorem gives_fill (h : tree.write path bytes = .ok after) : Gives (fill path bytes) tree () after := by
  unfold fill
  refine gives_get fun world hw => ?_
  rw [hw, h]
  exact fun world _ => ⟨{ world with tree := after }, rfl, rfl⟩

theorem breaks_fill (h : tree.write path bytes = .error fault) :
    Breaks (fill path bytes) tree none (.file fault) tree := by
  unfold fill
  refine breaks_get fun world hw => ?_
  rw [hw, h]
  exact breaks_throw _ tree

end Steps

/-! ## Failures -/

/-- The report of a failure, if it has one. -/
def Escape.report? (request : Request) : Escape → Option String
  | .config failure =>
    (configReport (request.config.getD ⟨[]⟩) failure).map ("Invalid assembler config: " ++ ·)
  | .documents failure => documentsReport failure
  | .assembly failure => assemblyReport failure
  | .build failure => buildReport failure
  | .print _ | .file _ | .unencodable | .display _ => none

/-- Whether a failure shows after directories are made. -/
def Escape.late : Escape → Bool
  | .config _ | .documents _ | .assembly _ | .build _ => false
  | .print _ | .file _ | .unencodable | .display _ => true

/-- A part of a command ends by a failure, if it has one, and changes a tree into another one. -/
def Goes (step : Run Unit) (request : Request) (tree : Tree) : Option Escape → Tree → Prop
  | none, after => Gives step tree () after
  | some escape, after => Breaks step tree (escape.report? request) escape after

section Going

variable {α : Type} {step : Run α} {next : α → Run Unit} {a : α} {request : Request}
  {tree middle after : Tree} {failure : Option Escape} {escape : Escape}

theorem Gives.goes (hs : Gives step tree a middle) (hn : Goes (next a) request middle failure after) :
    Goes (step >>= next) request tree failure after := by
  cases failure with
  | none => exact hs.bind hn
  | some escape => exact hs.breaks hn

theorem Goes.bind {step : Run Unit} {next : Unit → Run Unit}
    (hs : Goes step request tree none middle) (hn : Goes (next ()) request middle failure after) :
    Goes (step >>= next) request tree failure after :=
  Gives.goes hs hn

theorem Goes.stop {step : Run Unit} {next : Unit → Run Unit}
    (h : Goes step request tree (some escape) after) :
    Goes (step >>= next) request tree (some escape) after :=
  Breaks.bind h

end Going

/-! ## Writing and telling -/

/-- How a text gets into a file of a tree: a file is emptied for a text that cannot be encoded. -/
inductive Writes (encoding : Encoding) (path : Path) (text : String) (tree : Tree) :
    Option Escape → Tree → Prop
  | refused {fault} (h : tree.write path ((encoding text).getD []) = .error fault) :
    Writes encoding path text tree (some (.file fault)) tree
  | emptied {after} (he : encoding text = none) (h : tree.write path [] = .ok after) :
    Writes encoding path text tree (some .unencodable) after
  | filled {bytes after} (he : encoding text = some bytes) (h : tree.write path bytes = .ok after) :
    Writes encoding path text tree none after

/-- How the telling of messages ends. -/
inductive Tells (device : Device) (messages : List Message) : Option Escape → Prop
  | all {shown} (h : device.displayAll messages = .ok shown) : Tells device messages none
  | broken {fault} (h : device.displayAll messages = .error fault) :
    Tells device messages (some (.display fault))

section Telling

variable {device : Device} {message : Message} {messages rest : List Message} {shown : String}
  {fault : DisplayFault} {encoding : Encoding} {path : Path} {text : String} {request : Request}
  {tree after : Tree} {failure : Option Escape}

theorem exists_writes (encoding : Encoding) (path : Path) (text : String) (tree : Tree) :
    ∃ failure after, Writes encoding path text tree failure after := by
  cases hw : tree.write path ((encoding text).getD []) with
  | error fault => exact ⟨_, _, .refused hw⟩
  | ok after =>
      cases he : encoding text with
      | none =>
          rw [he] at hw
          exact ⟨_, _, .emptied he hw⟩
      | some bytes =>
          rw [he] at hw
          exact ⟨_, _, .filled he hw⟩

theorem exists_tells (device : Device) (messages : List Message) :
    ∃ failure, Tells device messages failure := by
  cases h : device.displayAll messages with
  | ok shown => exact ⟨_, .all h⟩
  | error fault => exact ⟨_, .broken h⟩

theorem Writes.goes (h : Writes encoding path text tree failure after) :
    Goes (writeFile encoding path text) request tree failure after := by
  unfold writeFile
  cases h with
  | refused hw => exact (breaks_fill hw).bind
  | emptied he hw =>
      rw [he]
      exact (gives_fill hw).breaks (breaks_throw _ after)
  | filled he hw =>
      rw [he]
      exact (gives_fill hw).bind (gives_pure () after)

theorem ends_tell (h : device.display message = .ok shown) (world : World) :
    Ends (tell device message) world (.ok ()) { world with console := world.console ++ shown } := by
  unfold tell
  rw [h]
  rfl

/-- What is shown of messages is added to the console. -/
theorem ends_tellAll (h : device.displayAll messages = .ok shown) (world : World) :
    Ends (tellAll device messages) world (.ok ())
      { world with console := world.console ++ shown } := by
  induction messages generalizing shown world with
  | nil =>
      cases h
      simp only [String.append_empty]
      rfl
  | cons message rest ih =>
      obtain ⟨first, others, hf, ho, rfl⟩ := Device.displayAll_cons_eq_ok h
      have hrest := ih ho { world with console := world.console ++ first }
      rw [String.append_assoc] at hrest
      exact (ends_tell hf world).bind hrest

theorem breaks_tellAll (h : device.displayAll messages = .error fault) (tree : Tree) :
    Breaks (tellAll device messages) tree none (.display fault) tree := by
  induction messages with
  | nil => cases h
  | cons message rest ih =>
      rcases Device.displayAll_cons_eq_error h with hf | ⟨first, hf, ho⟩
      · refine Breaks.bind ?_
        unfold tell
        rw [hf]
        exact breaks_throw _ tree
      · intro world hw
        obtain ⟨stop, last, he, hl⟩ := ih ho { world with console := world.console ++ first } hw
        exact ⟨stop, last, (ends_tell hf world).bind he, hl⟩

theorem Tells.goes (h : Tells device messages failure) (tree : Tree) :
    Goes (tellAll device messages) request tree failure tree := by
  cases h with
  | all h => exact fun world hw => ⟨_, ends_tellAll h world, hw⟩
  | broken h => exact breaks_tellAll h tree

end Telling

/-! ## Stages -/

/-- The configuration of a request, if it has one, by its name and what it holds. -/
def Request.configFile (request : Request) (tree : Tree) : Option (String × Option (List UInt8)) :=
  request.config.map fun path => (path.text, match tree.lookup? path with
    | some (_, .file bytes) => some bytes
    | _ => none)

def Request.overrides (request : Request) : Config.Overrides :=
  ⟨if request.noStrict then some false else none, if request.skipEntities then some true else none⟩

/-- The options and the model of a request. -/
def Request.model (deepest : Nat) (request : Request) (tree : Tree) :
    Except Escape (Config.Options × TypeSystem) := do
  let loaded ← (Config.load deepest (request.configFile tree)).value.mapError .config
  let options := loaded.override request.overrides
  let documents ← (tree.load (tree.resolve request.schemas)).value.mapError .documents
  let model ← (assemble (some documents) options.strict options.skipEntities).value.mapError .assembly
  return (options, model)

/-- What a command is to write and to tell. That a schema cannot be printed shows after its
directories are made. -/
structure Draft where
  text : Except Escape String
  messages : List Message

def Request.draft (deepest : Nat) (request : Request) (tree : Tree) : Verb → Except Escape Draft
  | .assemble => do
    let (_, model) ← request.model deepest tree
    return ⟨.ok (Report.ofModel model).fileText, reportMessages request.output model⟩
  | .compose => do
    let (options, model) ← request.model deepest tree
    let annotated ← model.annotated.value.mapError .build
    return ⟨annotated.print.mapError .print,
      schemaMessages (request.output.getD ⟨[]⟩) options.strict⟩

/-- Where a command writes, if it does. -/
def Request.target (request : Request) : Verb → Option Path
  | .assemble => request.output
  | .compose => some (request.output.getD ⟨[]⟩)

/-- How a command goes on a tree: the failure that ends it, if one does, and the tree that it
leaves. -/
inductive Course (around : Surroundings) (verb : Verb) (request : Request) (tree : Tree) :
    Option Escape → Tree → Prop
  | undrafted {escape} (hd : request.draft around.deepest tree verb = .error escape) :
    Course around verb request tree (some escape) tree
  | shown {draft failure} (hd : request.draft around.deepest tree verb = .ok draft)
    (ho : request.target verb = none) (ht : Tells around.device draft.messages failure) :
    Course around verb request tree failure tree
  | unmade {draft path after fault} (hd : request.draft around.deepest tree verb = .ok draft)
    (ho : request.target verb = some path) (hp : tree.makeParents path = (after, some fault)) :
    Course around verb request tree (some (.file fault)) after
  | unprinted {draft escape path after} (hd : request.draft around.deepest tree verb = .ok draft)
    (hx : draft.text = .error escape) (ho : request.target verb = some path)
    (hp : tree.makeParents path = (after, none)) :
    Course around verb request tree (some escape) after
  | unwritten {draft text path after escape left}
    (hd : request.draft around.deepest tree verb = .ok draft) (hx : draft.text = .ok text)
    (ho : request.target verb = some path) (hp : tree.makeParents path = (after, none))
    (hw : Writes around.encoding path text after (some escape) left) :
    Course around verb request tree (some escape) left
  | written {draft text path after left failure}
    (hd : request.draft around.deepest tree verb = .ok draft) (hx : draft.text = .ok text)
    (ho : request.target verb = some path) (hp : tree.makeParents path = (after, none))
    (hw : Writes around.encoding path text after none left)
    (ht : Tells around.device draft.messages failure) :
    Course around verb request tree failure left

theorem exists_course (around : Surroundings) (verb : Verb) (request : Request) (tree : Tree) :
    ∃ failure after, Course around verb request tree failure after := by
  cases hd : request.draft around.deepest tree verb with
  | error escape => exact ⟨_, _, .undrafted hd⟩
  | ok draft =>
      obtain ⟨failure, ht⟩ := exists_tells around.device draft.messages
      cases ho : request.target verb with
      | none => exact ⟨_, _, .shown hd ho ht⟩
      | some path =>
          rcases hp : tree.makeParents path with ⟨after, fault⟩
          cases fault with
          | some fault => exact ⟨_, _, .unmade hd ho hp⟩
          | none =>
              cases hx : draft.text with
              | error escape => exact ⟨_, _, .unprinted hd hx ho hp⟩
              | ok text =>
                  obtain ⟨stopped, left, hw⟩ := exists_writes around.encoding path text after
                  cases stopped with
                  | some escape => exact ⟨_, _, .unwritten hd hx ho hp hw⟩
                  | none => exact ⟨_, _, .written hd hx ho hp hw ht⟩

section Drafts

variable {deepest : Nat} {request : Request} {tree : Tree} {verb : Verb} {escape : Escape}
  {draft : Draft}

theorem model_early (h : request.model deepest tree = .error escape) : escape.late = false := by
  unfold Request.model at h
  rcases Except.bind_eq_error h with hc | ⟨loaded, -, h⟩
  · obtain ⟨failure, -, rfl⟩ := Except.mapError_eq_error hc
    rfl
  · rcases Except.bind_eq_error h with hl | ⟨documents, -, h⟩
    · obtain ⟨failure, -, rfl⟩ := Except.mapError_eq_error hl
      rfl
    · rcases Except.bind_eq_error h with ha | ⟨model, -, h⟩
      · obtain ⟨failure, -, rfl⟩ := Except.mapError_eq_error ha
        rfl
      · cases h

theorem draft_early (h : request.draft deepest tree verb = .error escape) :
    escape.late = false := by
  cases verb with
  | assemble =>
      rcases Except.bind_eq_error h with hm | ⟨read, -, h⟩
      · exact model_early hm
      · cases h
  | compose =>
      rcases Except.bind_eq_error h with hm | ⟨read, -, h⟩
      · exact model_early hm
      · rcases Except.bind_eq_error h with ha | ⟨annotated, -, h⟩
        · obtain ⟨failure, -, rfl⟩ := Except.mapError_eq_error ha
          rfl
        · cases h

/-- Only the text of a schema may be missing in a draft. -/
theorem draft_missing (h : request.draft deepest tree verb = .ok draft)
    (hx : draft.text = .error escape) :
    verb = .compose ∧ ∃ options model annotated failure,
      request.model deepest tree = .ok (options, model)
        ∧ model.annotated.value = .ok annotated ∧ annotated.print = .error failure
        ∧ escape = .print failure := by
  cases verb with
  | assemble =>
      obtain ⟨read, -, h⟩ := Except.bind_eq_ok h
      cases h
      cases hx
  | compose =>
      obtain ⟨⟨options, model⟩, hm, h⟩ := Except.bind_eq_ok h
      obtain ⟨annotated, ha, h⟩ := Except.bind_eq_ok h
      cases h
      obtain ⟨failure, hf, rfl⟩ := Except.mapError_eq_error hx
      exact ⟨rfl, options, model, annotated, failure, hm, Except.mapError_eq_ok ha, hf, rfl⟩

/-- The numbers of a model can always be told. -/
theorem exists_display_counts (model : TypeSystem) (limit : Nat) :
    ∀ message ∈ counts model, ∃ text, message.display limit = .ok text := by
  simp only [counts, List.forall_mem_cons, List.not_mem_nil, false_implies, implies_true, and_true]
  exact ⟨exists_display_leafTypes _ limit, exists_display_patterns _ limit⟩

/-- A message that cannot be shown for its markup tells of a path with an opening bracket. -/
theorem draft_markup {device : Device} {fault : MarkupFault}
    (h : request.draft deepest tree verb = .ok draft)
    (ht : device.displayAll draft.messages = .error (.markup fault)) :
    ∃ path, request.target verb = some path ∧ '[' ∈ path.text.toList := by
  obtain ⟨message, hm, hf⟩ := Device.exists_display_eq_error ht
  have hf := Device.display_eq_markup hf
  refine Classical.byContradiction fun hn => ?_
  obtain ⟨shown, hs⟩ : ∃ shown, message.display device.width = .ok shown := by
    cases verb with
    | assemble =>
        obtain ⟨⟨options, model⟩, -, ht⟩ := Except.bind_eq_ok h
        cases ht
        have hcounts : message ∈ counts model → _ := exists_display_counts model device.width message
        cases ho : request.output with
        | none =>
            rw [ho] at hm
            rcases List.mem_cons.mp hm with rfl | hm
            · exact ⟨_, rfl⟩
            · exact hcounts hm
        | some path =>
            rw [ho] at hm
            rcases List.mem_cons.mp hm with rfl | hm
            · exact exists_display_success (by simpa using fun hb => hn ⟨path, ho, hb⟩) _
            · exact hcounts hm
    | compose =>
        obtain ⟨⟨options, model⟩, -, h⟩ := Except.bind_eq_ok h
        obtain ⟨annotated, -, ht⟩ := Except.bind_eq_ok h
        cases ht
        rcases List.mem_cons.mp hm with rfl | hm
        · exact exists_display_success (by simpa using fun hb => hn ⟨_, rfl, hb⟩) _
        · split at hm
          · cases hm
          · rw [List.mem_singleton.mp hm]
            exact exists_display_lenient _
  cases hf.symm.trans hs

end Drafts

/-! ## Commands -/

section Commands

variable {around : Surroundings} {deepest : Nat} {request : Request} {tree : Tree}

theorem readOptions_ok {loaded : Config.Options}
    (h : (Config.load deepest (request.configFile tree)).value = .ok loaded) :
    Gives (readOptions deepest request) tree (loaded.override request.overrides) tree := by
  unfold readOptions
  refine gives_get fun world hw => ?_
  have hfile := gives_logged (Config.load deepest (request.configFile tree)) tree
  rw [h] at hfile
  rw [hw]
  exact hfile.bind (gives_pure _ tree)

theorem readOptions_error {failure : Config.LoadFailure}
    (h : (Config.load deepest (request.configFile tree)).value = .error failure) :
    Breaks (readOptions deepest request) tree (Escape.report? request (.config failure)) (.config failure)
      tree := by
  unfold readOptions
  refine breaks_get fun world hw => ?_
  have hfile := gives_logged (Config.load deepest (request.configFile tree)) tree
  rw [h] at hfile
  rw [hw]
  exact hfile.breaks (breaks_stopBy _ _ tree)

theorem assembleRequest_ok {options : Config.Options} {documents : List Documents.NamedDocument}
    {model : TypeSystem} (hl : (tree.load (tree.resolve request.schemas)).value = .ok documents)
    (ha : (assemble (some documents) options.strict options.skipEntities).value = .ok model) :
    Gives (assembleRequest request options) tree model tree := by
  unfold assembleRequest
  refine gives_get fun world hw => ?_
  have hload := gives_logged (tree.load (tree.resolve request.schemas)) tree
  have hassemble := gives_logged (assemble (some documents) options.strict options.skipEntities) tree
  rw [hl] at hload
  rw [ha] at hassemble
  rw [hw]
  exact hload.bind (hassemble.bind (gives_pure _ tree))

theorem unloaded_breaks {options : Config.Options} {failure : Files.LoadFailure}
    (hl : (tree.load (tree.resolve request.schemas)).value = .error failure) :
    Breaks (assembleRequest request options) tree (Escape.report? request (.documents failure))
      (.documents failure) tree := by
  unfold assembleRequest
  refine breaks_get fun world hw => ?_
  have hload := gives_logged (tree.load (tree.resolve request.schemas)) tree
  rw [hl] at hload
  rw [hw]
  exact hload.breaks (breaks_stopBy _ _ tree)

theorem unassembled_breaks {options : Config.Options} {documents : List Documents.NamedDocument}
    {failure : AssemblyFailure}
    (hl : (tree.load (tree.resolve request.schemas)).value = .ok documents)
    (ha : (assemble (some documents) options.strict options.skipEntities).value = .error failure) :
    Breaks (assembleRequest request options) tree (Escape.report? request (.assembly failure))
      (.assembly failure) tree := by
  unfold assembleRequest
  refine breaks_get fun world hw => ?_
  have hload := gives_logged (tree.load (tree.resolve request.schemas)) tree
  have hassemble := gives_logged (assemble (some documents) options.strict options.skipEntities) tree
  rw [hl] at hload
  rw [ha] at hassemble
  rw [hw]
  exact hload.breaks (hassemble.breaks (breaks_stopBy _ _ tree))

/-- Both commands start by reading the same model. -/
theorem model_eq_ok {options : Config.Options} {model : TypeSystem}
    (h : request.model deepest tree = .ok (options, model)) :
    Gives (readOptions deepest request) tree options tree
      ∧ Gives (assembleRequest request options) tree model tree := by
  unfold Request.model at h
  obtain ⟨loaded, hc, h⟩ := Except.bind_eq_ok h
  obtain ⟨documents, hl, h⟩ := Except.bind_eq_ok h
  obtain ⟨model, ha, h⟩ := Except.bind_eq_ok h
  obtain ⟨rfl, rfl⟩ := Prod.mk.inj (Except.ok.inj h)
  exact ⟨readOptions_ok (Except.mapError_eq_ok hc),
    assembleRequest_ok (Except.mapError_eq_ok hl) (Except.mapError_eq_ok ha)⟩

theorem model_eq_error {escape : Escape} (h : request.model deepest tree = .error escape)
    (next : Config.Options → TypeSystem → Run Unit) :
    Breaks (do
      let options ← readOptions deepest request
      let model ← assembleRequest request options
      next options model) tree (escape.report? request) escape tree := by
  unfold Request.model at h
  rcases Except.bind_eq_error h with hc | ⟨loaded, hc, h⟩
  · obtain ⟨failure, hf, rfl⟩ := Except.mapError_eq_error hc
    exact (readOptions_error hf).bind
  · refine (readOptions_ok (Except.mapError_eq_ok hc)).breaks (Breaks.bind ?_)
    rcases Except.bind_eq_error h with hl | ⟨documents, hl, h⟩
    · obtain ⟨failure, hf, rfl⟩ := Except.mapError_eq_error hl
      exact unloaded_breaks hf
    · rcases Except.bind_eq_error h with ha | ⟨model, -, h⟩
      · obtain ⟨failure, hf, rfl⟩ := Except.mapError_eq_error ha
        exact unassembled_breaks (Except.mapError_eq_ok hl) hf
      · cases h

/-- A report is drafted from the model that the command reads. -/
theorem drafted_assemble {draft : Draft} (h : request.draft deepest tree .assemble = .ok draft) :
    ∃ options model,
      draft = ⟨.ok (Report.ofModel model).fileText, reportMessages request.output model⟩
        ∧ Gives (readOptions deepest request) tree options tree
        ∧ Gives (assembleRequest request options) tree model tree := by
  obtain ⟨⟨options, model⟩, hm, ht⟩ := Except.bind_eq_ok h
  exact ⟨options, model, (Except.ok.inj ht).symm, model_eq_ok hm⟩

/-- A schema is drafted from the model that the command reads, once it is annotated. -/
theorem drafted_compose {draft : Draft} (h : request.draft deepest tree .compose = .ok draft) :
    ∃ options model annotated,
      draft = ⟨annotated.print.mapError .print,
        schemaMessages (request.output.getD ⟨[]⟩) options.strict⟩
        ∧ Gives (readOptions deepest request) tree options tree
        ∧ Gives (assembleRequest request options) tree model tree
        ∧ Gives (logged model.annotated) tree (.ok annotated) tree := by
  obtain ⟨⟨options, model⟩, hm, h⟩ := Except.bind_eq_ok h
  obtain ⟨annotated, ha, ht⟩ := Except.bind_eq_ok h
  obtain ⟨hoptions, hmodel⟩ := model_eq_ok hm
  have hlogged := gives_logged model.annotated tree
  rw [Except.mapError_eq_ok ha] at hlogged
  exact ⟨options, model, annotated, (Except.ok.inj ht).symm, hoptions, hmodel, hlogged⟩

theorem undrafted_compose {escape : Escape}
    (h : request.draft deepest tree .compose = .error escape) :
    request.model deepest tree = .error escape ∨ ∃ options model failure, escape = .build failure
      ∧ Gives (readOptions deepest request) tree options tree
      ∧ Gives (assembleRequest request options) tree model tree
      ∧ Gives (logged model.annotated) tree (.error failure) tree := by
  rcases Except.bind_eq_error h with hm | ⟨⟨options, model⟩, hm, h⟩
  · exact .inl hm
  · rcases Except.bind_eq_error h with ha | ⟨annotated, -, h⟩
    · obtain ⟨failure, hf, rfl⟩ := Except.mapError_eq_error ha
      obtain ⟨hoptions, hmodel⟩ := model_eq_ok hm
      have hlogged := gives_logged model.annotated tree
      rw [hf] at hlogged
      exact .inr ⟨options, model, failure, rfl, hoptions, hmodel, hlogged⟩
    · cases h

theorem runAssemble_goes {failure : Option Escape} {after : Tree}
    (h : Course around .assemble request tree failure after) :
    Goes (runAssemble around request) request tree failure after := by
  unfold runAssemble
  cases h with
  | undrafted hd =>
      rcases Except.bind_eq_error hd with hm | ⟨⟨options, model⟩, hm, hd⟩
      · exact model_eq_error hm _
      · cases hd
  | shown hd ho ht =>
      obtain ⟨options, model, rfl, hoptions, hmodel⟩ := drafted_assemble hd
      refine hoptions.goes (hmodel.goes ?_)
      have ho : request.output = _ := ho
      rw [ho] at ht ⊢
      exact ht.goes tree
  | unmade hd ho hp =>
      obtain ⟨options, model, -, hoptions, hmodel⟩ := drafted_assemble hd
      refine hoptions.goes (hmodel.goes ?_)
      have ho : request.output = _ := ho
      rw [ho]
      exact (breaks_makeParents hp).bind
  | unprinted hd hx ho hp => cases (draft_missing hd hx).1
  | unwritten hd hx ho hp hw =>
      obtain ⟨options, model, rfl, hoptions, hmodel⟩ := drafted_assemble hd
      obtain rfl := Except.ok.inj hx
      refine hoptions.goes (hmodel.goes ?_)
      have ho : request.output = _ := ho
      rw [ho]
      exact (gives_makeParents hp).goes hw.goes.stop
  | written hd hx ho hp hw ht =>
      obtain ⟨options, model, rfl, hoptions, hmodel⟩ := drafted_assemble hd
      obtain rfl := Except.ok.inj hx
      refine hoptions.goes (hmodel.goes ?_)
      have ho : request.output = _ := ho
      rw [ho] at ht ⊢
      exact (gives_makeParents hp).goes (hw.goes.bind (ht.goes _))

theorem runCompose_goes {failure : Option Escape} {after : Tree}
    (h : Course around .compose request tree failure after) :
    Goes (runCompose around request) request tree failure after := by
  unfold runCompose
  cases h with
  | undrafted hd =>
      rcases undrafted_compose hd with hm | ⟨options, model, failure, rfl, hoptions, hmodel, hlogged⟩
      · exact model_eq_error hm _
      · exact hoptions.goes (hmodel.goes (hlogged.goes (breaks_stopBy _ _ tree).bind))
  | shown hd ho ht => cases ho
  | unmade hd ho hp =>
      obtain ⟨options, model, annotated, -, hoptions, hmodel, hlogged⟩ := drafted_compose hd
      refine hoptions.goes (hmodel.goes (hlogged.goes ?_))
      have ho : request.output.getD ⟨[]⟩ = _ := Option.some.inj ho
      rw [ho]
      exact (breaks_makeParents hp).bind
  | unprinted hd hx ho hp =>
      obtain ⟨options, model, annotated, rfl, hoptions, hmodel, hlogged⟩ := drafted_compose hd
      obtain ⟨failure, hf, rfl⟩ := Except.mapError_eq_error hx
      refine hoptions.goes (hmodel.goes (hlogged.goes ?_))
      have ho : request.output.getD ⟨[]⟩ = _ := Option.some.inj ho
      rw [ho]
      dsimp only
      rw [pure_bind, hf]
      exact (gives_makeParents hp).breaks (breaks_throw _ _)
  | unwritten hd hx ho hp hw =>
      obtain ⟨options, model, annotated, rfl, hoptions, hmodel, hlogged⟩ := drafted_compose hd
      refine hoptions.goes (hmodel.goes (hlogged.goes ?_))
      have ho : request.output.getD ⟨[]⟩ = _ := Option.some.inj ho
      rw [ho]
      dsimp only
      rw [pure_bind, Except.mapError_eq_ok hx]
      exact (gives_makeParents hp).goes hw.goes.stop
  | written hd hx ho hp hw ht =>
      obtain ⟨options, model, annotated, rfl, hoptions, hmodel, hlogged⟩ := drafted_compose hd
      refine hoptions.goes (hmodel.goes (hlogged.goes ?_))
      have ho : request.output.getD ⟨[]⟩ = _ := Option.some.inj ho
      rw [ho] at ht ⊢
      dsimp only
      rw [pure_bind, Except.mapError_eq_ok hx]
      exact (gives_makeParents hp).goes (hw.goes.bind (ht.goes _))

end Commands

end SdlAssembly.Command
