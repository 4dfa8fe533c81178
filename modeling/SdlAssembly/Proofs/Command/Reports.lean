import SdlAssembly.Proofs.Command.Runs
import SdlAssembly.Proofs.Files.Locations
import SdlAssembly.Proofs.Report.Ascii
import SdlAssembly.Proofs.Selections
import SdlAssembly.Proofs.SoundModels

/-!
# Reports of runs

The report of a model tells of each entry of its registries once, in their order. A run writes it to
a file or shows it on the console, and from both it is read as the same value.
-/

namespace SdlAssembly.Command

open Files Console Grammar Annotation Model Report Json

/-! ## Reports -/

/-- A value is the text of a pattern, in its compact form, and is read back as the pattern. -/
def IsTextOf (set : SelectionSet) (value : Json) : Prop :=
  value = .string (formatSelectionSet set) ∧ parseSelectionSet (formatSelectionSet set) = .ok set

/-- A report has the entries of the registries of a model in their order, no name twice: both types
of a leaf type, null where one is missing, and the texts of patterns. -/
structure Lists (report : Json) (model : TypeSystem) : Prop where
  members : ∃ globals types, report = .object
      [("definitions", .int model.definitions.length),
        ("placeholderScalars", .list (model.placeholders.keys.map .string)),
        ("leafTypes", .object (model.leafTypes.toList.map fun (name, info) => (name, .object
          [("runtimeType", info.runtimeType.elim .null .string),
            ("serializationType", info.serializationType.elim .null .string)]))),
        ("entityPatterns", .object [("global", .list globals), ("types", .object types)])]
    ∧ List.Forall₂ IsTextOf model.entityPatterns.globals globals
    ∧ List.Forall₂ (fun pattern text => text.1 = pattern.1 ∧ IsTextOf pattern.2 text.2)
      model.entityPatterns.types.toList types
  distinct : model.placeholders.keys.Nodup ∧ model.leafTypes.keys.Nodup
    ∧ model.entityPatterns.types.keys.Nodup

theorem plain_optional (text : Option String) : Plain (.optional text) := by
  cases text with
  | none => exact .null
  | some text => exact .string text

/-- An object of the entries of a registry. -/
theorem plain_registry {α : Type} (registry : Registry α) {entry : α → Json}
    (h : ∀ value, Plain (entry value)) :
    Plain (.object (registry.toList.map fun (name, value) => (name, entry value))) := by
  refine .object ?_ (List.forall_mem_map.mpr fun pair _ => h pair.2)
  rw [List.map_map]
  exact registry.nodup

theorem plain_ofModel (model : TypeSystem) : Plain (ofModel model) := by
  have hleaf : ∀ info, Plain (ofLeafType info) := fun info =>
    .object (show ["runtimeType", "serializationType"].Nodup by decide) <| by
    simp only [List.forall_mem_cons, List.not_mem_nil, false_implies, implies_true, and_true]
    exact ⟨plain_optional _, plain_optional _⟩
  have hpatterns : Plain (ofPatterns model.entityPatterns) :=
    .object (show ["global", "types"].Nodup by decide) <| by
    simp only [List.forall_mem_cons, List.not_mem_nil, false_implies, implies_true, and_true]
    exact ⟨.list (List.forall_mem_map.mpr fun set _ => .string _),
      plain_registry _ fun set => .string _⟩
  refine .object (show ["definitions", "placeholderScalars", "leafTypes",
    "entityPatterns"].Nodup by decide) ?_
  simp only [List.forall_mem_cons, List.not_mem_nil, false_implies, implies_true, and_true]
  exact ⟨.int _, .list (List.forall_mem_map.mpr fun name _ => .string name),
    plain_registry _ hleaf, hpatterns⟩

theorem display_report (value : Json) {limit : Nat} (hl : 0 < limit) :
    (Message.report value).display limit = .ok (value.displayText ++ "\n") :=
  congrArg Except.ok (if_neg (Nat.ne_of_gt hl))

/-- Whatever comes of a step, it writes nothing to the console. -/
def Quiet {α : Type} (step : Run α) : Prop :=
  ∀ world, (step.run.run world).2.console = world.console

section Steps

variable {α β : Type} {step : Run α} {next : α → Run β}

theorem Quiet.bind (hs : Quiet step) (hn : ∀ a, Quiet (next a)) : Quiet (step >>= next) := by
  intro world
  obtain ⟨result, between, he⟩ : ∃ result between, Ends step world result between := ⟨_, _, rfl⟩
  have hbetween : between.console = world.console := by
    rw [← hs world, show step.run.run world = _ from he]
  cases result with
  | error stop =>
      have hstop : Ends (step >>= next) world (.error stop) between := he.stop
      rw [show (step >>= next).run.run world = _ from hstop]
      exact hbetween
  | ok a =>
      have hnext : Ends (step >>= next) world _ _ := he.bind rfl
      rw [show (step >>= next).run.run world = _ from hnext]
      exact (hn a between).trans hbetween

theorem quiet_pure (a : α) : Quiet (pure a : Run α) := fun _ => rfl

theorem quiet_throw (stop : Stop) : Quiet (throw stop : Run α) := fun _ => rfl

theorem quiet_get : Quiet (get : Run World) := fun _ => rfl

theorem quiet_logged (t : Logged α) : Quiet (logged t) := fun _ => rfl

theorem quiet_stopBy (report : Option String) (escape : Escape) :
    Quiet (stopBy report escape : Run α) := by
  cases report <;> exact fun _ => rfl

theorem quiet_startLogFile (path : Option String) : Quiet (startLogFile path) := by
  cases path with
  | none => exact quiet_pure ()
  | some text =>
      refine quiet_get.bind fun world => quiet_get.bind fun world => ?_
      split
      · exact fun _ => rfl
      · exact quiet_throw _

theorem quiet_readOptions (deepest : Nat) (request : Request) :
    Quiet (readOptions deepest request) := by
  refine quiet_get.bind fun world => (quiet_logged _).bind fun loaded => ?_
  cases loaded with
  | error failure => exact quiet_stopBy _ _
  | ok options => exact quiet_pure _

theorem quiet_assembleRequest (request : Request) (options : Config.Options) :
    Quiet (assembleRequest request options) := by
  refine quiet_get.bind fun world => (quiet_logged _).bind fun documents => ?_
  cases documents with
  | error failure => exact quiet_stopBy _ _
  | ok documents =>
      refine (quiet_logged _).bind fun model => ?_
      cases model with
      | error failure => exact quiet_stopBy _ _
      | ok model => exact quiet_pure model

theorem Gives.quiet {tree after : Tree} {a : α} (h : Gives step tree a after) (hq : Quiet step)
    {world : World} (hw : world.tree = tree) :
    ∃ last, Ends step world (.ok a) last ∧ last.tree = after ∧ last.console = world.console := by
  obtain ⟨last, he, ht⟩ := h world hw
  have hconsole := hq world
  rw [show step.run.run world = _ from he] at hconsole
  exact ⟨last, he, ht, hconsole⟩

end Steps

/-! ## Runs -/

theorem runAssemble_shows {around : Surroundings} {request : Request} {tree : Tree}
    {options : Config.Options} {model : TypeSystem} (ho : request.output = none)
    (hm : request.model around.deepest tree = .ok (options, model)) {shown : String}
    (hs : around.device.displayAll (reportMessages none model) = .ok shown) {world : World}
    (hw : world.tree = tree) : ∃ last, Ends (runAssemble around request) world (.ok ()) last
      ∧ last.console = world.console ++ shown := by
  obtain ⟨hoptions, hmodel⟩ := model_eq_ok hm
  obtain ⟨read, hread, ht, hc⟩ := hoptions.quiet (quiet_readOptions around.deepest request) hw
  obtain ⟨made, hmade, -, hc'⟩ := hmodel.quiet (quiet_assembleRequest request options) ht
  have hcommand : Ends (runAssemble around request) world (.ok ())
      { made with console := made.console ++ shown } := by
    refine hread.bind (hmade.bind ?_)
    rw [ho]
    exact ends_tellAll hs made
  exact ⟨_, hcommand, by rw [hc', hc]⟩

/-- A run that reports a model. -/
def Reports (tree : Tree) (around : Surroundings) (words : List String) (request : Request)
    (model : TypeSystem) : Prop :=
  ∃ general started options, readGeneral tree around.environment words = .ok general
    ∧ general.verb = .assemble ∧ general.start tree = .ok started
    ∧ readRequest started around.environment general.verb general.words = .ok request
    ∧ request.model around.deepest started = .ok (options, model)

/-- What a run leaves on its console that shows a report there: the report in the looks of the device,
and the numbers of the model. On a device without a cell there is no room for it. -/
inductive Shown (around : Surroundings) (model : TypeSystem) (report : Json) (outcome : Outcome) : Prop
  | shown {text others : String} (hx : outcome.exitCode = 0)
    (hc : outcome.console = around.device.dress (.report report) text ++ others)
    (hr : 0 < around.device.width → read text = some report)
    (ho : around.device.displayAll (counts model) = .ok others)
  | unencodable {text : String} (he : outcome.escape = some (.display .unencodable))
    (ht : around.device.canShow text = false)

/-- An encoding that writes ASCII texts as they are, as those of systems do. -/
def Encoding.KeepsAscii (encoding : Encoding) : Prop :=
  ∀ text : String, IsAscii text.toList → encoding text = some text.toUTF8.toList

/-- What a run leaves of its output that writes a report there: its text in bytes. -/
inductive Filed (around : Surroundings) (path : Path) (report : Json) (outcome : Outcome) : Prop
  | filed {location : Location} {bytes : List UInt8}
    (hl : outcome.tree.lookup? path = some (location, .file bytes))
    (he : around.encoding report.fileText = some bytes)
    (hr : around.encoding.KeepsAscii → readBytes bytes = some report)
  | refused {fault : FileFault} (he : outcome.escape = some (.file fault))
  | unencodable (he : outcome.escape = some .unencodable)
    (ht : around.encoding report.fileText = none)

section Running

variable {tree : Tree} {around : Surroundings} {words : List String} {request : Request}
  {model : TypeSystem}

/-- A report that is shown is the first message. -/
theorem Reports.console (h : Reports tree around words request model)
    (ho : request.output = none) {shown : String}
    (hs : around.device.displayAll (reportMessages none model) = .ok shown) :
    (run tree around words).exitCode = 0 ∧ (run tree around words).console = shown := by
  obtain ⟨general, started, options, hg, hv, hstarted, hr, hm⟩ := h
  obtain ⟨between, hstart, ht, hc⟩ := (gives_startLogFile hstarted).quiet (quiet_startLogFile _)
    (rfl : ({ tree := tree } : World).tree = tree)
  obtain ⟨last, hrun, hlast⟩ := runAssemble_shows ho hm hs ht
  have hcommand : Ends (general.verb.command around request) between (.ok ()) last := by
    rw [hv]
    exact hrun
  have hverb := ends_runVerb hstart (ht ▸ hr) hcommand
  rw [run_of_general hg, show (runVerb around general).run.run _ = _ from hverb]
  refine ⟨rfl, ?_⟩
  rw [Outcome.of, hlast, hc, String.empty_append]

theorem Reports.draft (h : Reports tree around words request model) :
    ∃ general started, readGeneral tree around.environment words = .ok general
      ∧ general.start tree = .ok started
      ∧ readRequest started around.environment general.verb general.words = .ok request
      ∧ general.verb = .assemble
      ∧ request.draft around.deepest started .assemble =
        .ok ⟨.ok (ofModel model).fileText, reportMessages request.output model⟩ := by
  obtain ⟨general, started, options, hg, hv, hs, hr, hm⟩ := h
  refine ⟨general, started, hg, hs, hr, hv, ?_⟩
  rw [Request.draft, hm]
  rfl

theorem Reports.shown (h : Reports tree around words request model) (ho : request.output = none) :
    Shown around model (ofModel model) (run tree around words) := by
  cases hs : around.device.displayAll (reportMessages none model) with
  | ok shown =>
      obtain ⟨hx, hc⟩ := h.console ho hs
      obtain ⟨first, others, hf, hothers, rfl⟩ := Device.displayAll_cons_eq_ok hs
      obtain ⟨text, ht, rfl, -⟩ := Device.display_eq_ok hf
      refine .shown hx hc (fun hw => ?_) hothers
      obtain rfl := Except.ok.inj ((display_report _ hw).symm.trans ht)
      exact (read_texts (plain_ofModel model)).2
  | error fault =>
      obtain ⟨general, started, hg, hstarted, hr, hv, hd⟩ := h.draft
      rw [ho] at hd
      have hcourse : Course around general.verb request started (some (.display fault)) started := by
        rw [hv]
        exact .shown hd ho (.broken hs)
      obtain ⟨-, hshown, -⟩ := run_broken hg hstarted hr hcourse
      have hescape : (run tree around words).escape = some (.display fault) := by
        cases hshown with
        | escaped he => exact he
      cases fault with
      | markup cause =>
          obtain ⟨path, hp, -⟩ := draft_markup hd hs
          cases ho.symm.trans hp
      | unencodable =>
          obtain ⟨message, -, hm⟩ := Device.exists_display_eq_error hs
          obtain ⟨text, ht⟩ := Device.canShow_of_display hm
          exact .unencodable hescape ht

theorem Reports.filed (h : Reports tree around words request model) {path : Path}
    (ho : request.output = some path) :
    Filed around path (ofModel model) (run tree around words) := by
  obtain ⟨general, started, hg, hstarted, hr, hv, hd⟩ := h.draft
  have hplain := plain_ofModel model
  have hfiled : ∀ {made left : Tree},
      Writes around.encoding path (ofModel model).fileText made none left →
        (run tree around words).tree = left →
          Filed around path (ofModel model) (run tree around words) := by
    rintro made left (_ | _ | ⟨he, hw⟩) rfl
    obtain ⟨location, hl⟩ := Tree.lookup?_write hw
    refine .filed hl he fun hk => ?_
    have hascii : IsAscii (ofModel model).fileText.toList := by
      rw [fileText, String.toList_ofList]
      exact ascii_render hplain 0
    obtain rfl := Option.some.inj (he.symm.trans (hk _ hascii))
    exact readBytes_fileText hplain
  obtain ⟨failure, after, hc⟩ := exists_course around .assemble request started
  have hcourse : Course around general.verb request started failure after := hv ▸ hc
  cases failure with
  | none =>
      obtain ⟨-, -, ht⟩ := run_finished hg hstarted hr hcourse
      cases hc with
      | shown _ ho' => cases ho.symm.trans ho'
      | written hd' hx ho' _ hw =>
          cases hd.symm.trans hd'
          obtain rfl := Except.ok.inj hx
          cases ho.symm.trans ho'
          exact hfiled hw ht
  | some escape =>
      obtain ⟨-, hshown, ht⟩ := run_broken hg hstarted hr hcourse
      have hescape : escape.report? request = none →
          (run tree around words).escape = some escape := by
        intro hn
        rw [hn] at hshown
        cases hshown with
        | escaped he => exact he
      cases hc with
      | undrafted hd' => cases hd.symm.trans hd'
      | shown _ ho' => cases ho.symm.trans ho'
      | unmade => exact .refused (hescape rfl)
      | unprinted hd' hx =>
          cases hd.symm.trans hd'
          cases hx
      | unwritten hd' hx ho' _ hw =>
          cases hd.symm.trans hd'
          obtain rfl := Except.ok.inj hx
          cases hw with
          | refused => exact .refused (hescape rfl)
          | emptied he => exact .unencodable (hescape rfl) he
      | written hd' hx ho' _ hw =>
          cases hd.symm.trans hd'
          obtain rfl := Except.ok.inj hx
          cases ho.symm.trans ho'
          exact hfiled hw ht

end Running

deriving instance DecidableEq for Request

end SdlAssembly.Command
