import SdlAssembly.Proofs.Command.Courses

/-!
# Runs

A run that is not refused starts its log file and goes on with its command. What it leaves behind is
told by the course of the command.
-/

namespace SdlAssembly.Command

open Files Console Model

/-! ## Outcomes -/

section Outcomes

variable {step : Run Unit} {tree after : Tree} {report : Option String} {escape : Escape}

/-- What an outcome shows of a failure: a record in the log, unless that tells critical records
only, or the failure itself. -/
inductive Outcome.Shows (outcome : Outcome) (level : LogLevel) (escape : Escape) :
    Option String → Prop
  | reported {message : String} (he : outcome.escape = none)
    (hl : level ≠ .critical → ⟨.error, message⟩ ∈ outcome.log) : outcome.Shows level escape (some message)
  | escaped (he : outcome.escape = some escape) : outcome.Shows level escape none

theorem Gives.outcome (h : Gives step tree () after) (level : LogLevel) :
    (Outcome.of level (step.run.run { tree := tree })).exitCode = 0
      ∧ (Outcome.of level (step.run.run { tree := tree })).escape = none
      ∧ (Outcome.of level (step.run.run { tree := tree })).tree = after := by
  obtain ⟨last, he, rfl⟩ := h { tree := tree } rfl
  have he : step.run.run { tree := tree } = (.ok (), last) := he
  rw [he]
  exact ⟨rfl, rfl, rfl⟩

theorem Breaks.outcome (h : Breaks step tree report escape after) (level : LogLevel) :
    (Outcome.of level (step.run.run { tree := tree })).exitCode = 1
      ∧ (Outcome.of level (step.run.run { tree := tree })).Shows level escape report
      ∧ (Outcome.of level (step.run.run { tree := tree })).tree = after := by
  obtain ⟨stop, last, he, rfl, ha⟩ := h { tree := tree } rfl
  have he : step.run.run { tree := tree } = (.error stop, last) := he
  rw [he]
  generalize hl : last.log = log at ha
  cases ha with
  | escaped log => exact ⟨rfl, .escaped rfl, rfl⟩
  | reported message log =>
      refine ⟨rfl, .reported rfl fun hc => ?_, rfl⟩
      have hlevel : level.rank ≤ LogLevel.error.rank := by
        cases level <;> first | decide | exact (hc rfl).elim
      have hm : (⟨.error, message⟩ : LogRecord) ∈ last.log.atLeast level := by
        rw [hl]
        exact List.mem_filter.mpr ⟨by simp, by simpa using hlevel⟩
      exact hm

end Outcomes

/-! ## Log files -/

/-- The tree with the log file started. -/
def General.start (general : General) (tree : Tree) : Except FileFault Tree :=
  match general.logFile with
  | none => .ok tree
  | some text => tree.write (tree.absolute (.ofText text)) []

section Starting

variable {general : General} {tree started : Tree}

theorem gives_startLogFile (h : general.start tree = .ok started) :
    Gives (startLogFile general.logFile) tree () started := by
  unfold General.start at h
  cases hl : general.logFile with
  | none =>
      rw [hl] at h
      cases h
      exact gives_pure () tree
  | some text =>
      rw [hl] at h
      refine gives_get fun world hw => ?_
      rw [hw]
      exact gives_fill h

end Starting

/-! ## Commands -/

def Verb.command (verb : Verb) (around : Surroundings) (request : Request) : Run Unit :=
  match verb with
  | assemble => runAssemble around request
  | compose => runCompose around request

section Commands

variable {general : General} {tree started : Tree} {around : Surroundings} {request : Request}
  {world between : World}

/-- A run starts its log file, reads its request and goes on with its command. -/
theorem ends_runVerb (hs : Ends (startLogFile general.logFile) world (.ok ()) between)
    (hr : readRequest between.tree around.environment general.verb general.words = .ok request)
    {result : Except Stop Unit} {last : World}
    (hc : Ends (general.verb.command around request) between result last) :
    Ends (runVerb around general) world result last := by
  have hanswer : Ends (orRefuse (readRequest between.tree around.environment general.verb general.words))
      between (.ok request) between := by
    rw [hr]
    rfl
  exact hs.bind (Ends.bind (rfl : Ends get between (.ok between) between) (hanswer.bind hc))

theorem ends_refused (hs : Ends (startLogFile general.logFile) world (.ok ()) between)
    {refusal : Refusal}
    (hr : readRequest between.tree around.environment general.verb general.words = .error refusal) :
    Ends (runVerb around general) world (.error (.refused refusal)) between := by
  have hanswer : Ends (orRefuse (readRequest between.tree around.environment general.verb general.words))
      between (.error (.refused refusal)) between := by
    rw [hr]
    rfl
  exact hs.bind (Ends.bind (rfl : Ends get between (.ok between) between) hanswer.stop)

/-- Once the log file is started, the command of a run goes the way of its course. -/
theorem runVerb_goes (hs : general.start tree = .ok started)
    (hr : readRequest started around.environment general.verb general.words = .ok request)
    {failure : Option Escape} {after : Tree}
    (hc : Course around general.verb request started failure after) :
    Goes (runVerb around general) request tree failure after := by
  have hstart := gives_startLogFile hs
  unfold runVerb
  cases failure with
  | none =>
      refine hstart.bind (gives_get fun world hw => ?_)
      rw [hw, hr]
      refine (gives_pure request started).bind ?_
      split
      · rename_i hv
        exact runAssemble_goes (hv ▸ hc)
      · rename_i hv
        exact runCompose_goes (hv ▸ hc)
  | some escape =>
      refine hstart.breaks (breaks_get fun world hw => ?_)
      rw [hw, hr]
      refine (gives_pure request started).breaks ?_
      split
      · rename_i hv
        exact runAssemble_goes (hv ▸ hc)
      · rename_i hv
        exact runCompose_goes (hv ▸ hc)

end Commands

/-! ## Runs -/

section Runs

variable {tree started after : Tree} {around : Surroundings} {words : List String}
  {general : General} {request : Request}

theorem run_of_general (h : readGeneral tree around.environment words = .ok general) :
    run tree around words =
      Outcome.of general.logLevel ((runVerb around general).run.run { tree := tree }) := by
  rw [run, h]

/-- A run without a failure. -/
theorem run_finished (hg : readGeneral tree around.environment words = .ok general)
    (hs : general.start tree = .ok started)
    (hr : readRequest started around.environment general.verb general.words = .ok request)
    (hc : Course around general.verb request started none after) :
    (run tree around words).exitCode = 0 ∧ (run tree around words).escape = none
      ∧ (run tree around words).tree = after := by
  rw [run_of_general hg]
  exact Gives.outcome (runVerb_goes hs hr hc) general.logLevel

/-- A run with a failure. -/
theorem run_broken (hg : readGeneral tree around.environment words = .ok general)
    (hs : general.start tree = .ok started)
    (hr : readRequest started around.environment general.verb general.words = .ok request)
    {escape : Escape} (hc : Course around general.verb request started (some escape) after) :
    (run tree around words).exitCode = 1
      ∧ (run tree around words).Shows general.logLevel escape (escape.report? request)
      ∧ (run tree around words).tree = after := by
  rw [run_of_general hg]
  exact Breaks.outcome (runVerb_goes hs hr hc) general.logLevel

end Runs

/-! ## Trees to run on -/

end SdlAssembly.Command
