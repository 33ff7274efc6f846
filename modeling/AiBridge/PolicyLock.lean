import AiBridge.Executor
import AiBridge.FirstSeen
import AiBridge.Policy

namespace AiBridge

open Text

variable {rx : RegexEngine} {config : CriteriaConfig}

/-- What the loop over the commands asks of one command. -/
structure CleanCommand (rx : RegexEngine) (config : CriteriaConfig) (command : String) : Prop where
  tagged : (Symbol.extractFromCommand command).1.classification = .delegable
  scanned : ∃ textSummary,
    evaluateTextCommand rx (Symbol.extractFromCommand command).2 config = some textSummary ∧
      textSummary.triggered = []

theorem evaluateTextCommand_status {text : String} {textSummary : CriteriaSummary}
    (h : evaluateTextCommand rx text config = some textSummary) :
    textSummary.status = .nonDelegable ↔ textSummary.triggered ≠ [] := by
  have hempty : ∀ triggered : List Criterion,
      (if triggered.isEmpty then EvaluationStatus.delegable else .nonDelegable) = .nonDelegable ↔
        triggered ≠ [] := by
    intro triggered
    cases triggered with
    | nil => simp
    | cons criterion triggered => simp
  simp only [evaluateTextCommand, Option.bind_eq_bind, Option.bind_eq_some_iff,
    Option.some.injEq] at h
  obtain ⟨_, _, _, _, _, _, _, _, _, _, hsummary⟩ := h
  rw [← hsummary]
  exact hempty _

/-- The criteria that the loop gathers from one command: those of its text, if its tag is valid. -/
def commandCriteria (rx : RegexEngine) (config : CriteriaConfig) (command : String) :
    List Criterion :=
  if (Symbol.extractFromCommand command).1 = .critUnclassified then []
  else ((evaluateTextCommand rx (Symbol.extractFromCommand command).2 config).map
    CriteriaSummary.triggered).getD []

theorem cleanCommand_iff_of_scan {command : String} {textSummary : CriteriaSummary}
    (h : evaluateTextCommand rx (Symbol.extractFromCommand command).2 config = some textSummary) :
    CleanCommand rx config command ↔
      (Symbol.extractFromCommand command).1.classification = .delegable ∧
        textSummary.triggered = [] := by
  constructor
  · intro hclean
    obtain ⟨textSummary', hscan', hnone⟩ := hclean.scanned
    rw [h, Option.some.injEq] at hscan'
    rw [← hscan'] at hnone
    exact ⟨hclean.tagged, hnone⟩
  · intro hclean
    exact ⟨hclean.1, textSummary, h, hclean.2⟩

/-- One round of the loop: the criteria of the command are gathered, a clean command leaves the
status as it is and any other refuses the plan. -/
theorem evaluateCommands_step (hc : config.Compilable rx) (command : String)
    (commands : List String) (triggered : List Criterion) (status : EvaluationStatus) :
    ∃ status', evaluateCommands rx config (command :: commands) triggered status =
        evaluateCommands rx config commands
          (FirstSeen.gather triggered (commandCriteria rx config command)) status' ∧
      (CleanCommand rx config command → commandCriteria rx config command = [] ∧
        status' = status) ∧
      (¬CleanCommand rx config command → status' = .nonDelegable) := by
  obtain ⟨textSummary, hscan⟩ := Option.isSome_iff_exists.mp
    (evaluateTextCommand_isSome hc (Symbol.extractFromCommand command).2)
  have hstatus := evaluateTextCommand_status hscan
  rw [cleanCommand_iff_of_scan hscan]
  by_cases hu : (Symbol.extractFromCommand command).1 = .critUnclassified
  · have hnone : commandCriteria rx config command = [] := by
      rw [commandCriteria, if_pos hu]
    rw [hnone, FirstSeen.gather_nil]
    refine ⟨.nonDelegable, by simp [evaluateCommands, hscan, hu], ?_, fun _ => rfl⟩
    intro h
    exact absurd hu (Symbol.delegable_ne_unclassified h.1)
  · have hstart := Symbol.startsWith_of_tagged hu
    have hfound : commandCriteria rx config command = textSummary.triggered := by
      rw [commandCriteria, if_neg hu, hscan, Option.map_some, Option.getD_some]
    rw [hfound]
    cases hclass : (Symbol.extractFromCommand command).1.classification with
    | critical =>
      refine ⟨.nonDelegable, ?_, by simp, fun _ => rfl⟩
      simp [evaluateCommands, hscan, hu, hstart, hclass, FirstSeen.gather]
    | delegable =>
      by_cases hnone : textSummary.triggered = []
      · have hkept : textSummary.status ≠ .nonDelegable := fun h => hstatus.mp h hnone
        refine ⟨status, ?_, fun _ => ⟨hnone, rfl⟩, by simp [hnone]⟩
        simp [evaluateCommands, hscan, hu, hstart, hclass, hnone, hkept]
      · have hrefused := hstatus.mpr hnone
        refine ⟨.nonDelegable, ?_, by simp [hnone], fun _ => rfl⟩
        simp [evaluateCommands, hscan, hu, hstart, hclass, hrefused, FirstSeen.gather]

/-- One round of the loop: a clean command changes nothing, any other refuses the plan. -/
theorem evaluateCommands_cons (hc : config.Compilable rx) (command : String)
    (commands : List String) (triggered : List Criterion) (status : EvaluationStatus) :
    (CleanCommand rx config command ∧
      evaluateCommands rx config (command :: commands) triggered status =
        evaluateCommands rx config commands triggered status) ∨
    (¬CleanCommand rx config command ∧ ∃ triggered',
      evaluateCommands rx config (command :: commands) triggered status =
        evaluateCommands rx config commands triggered' .nonDelegable) := by
  obtain ⟨status', hnext, hclean, hrefused⟩ :=
    evaluateCommands_step hc command commands triggered status
  by_cases h : CleanCommand rx config command
  · left
    obtain ⟨hnone, hsame⟩ := hclean h
    rw [hnone, FirstSeen.gather_nil, hsame] at hnext
    exact ⟨h, hnext⟩
  · right
    rw [hrefused h] at hnext
    exact ⟨h, _, hnext⟩

/-- Once a command has refused the plan it stays refused. -/
theorem evaluateCommands_refused (hc : config.Compilable rx) (commands : List String)
    (triggered : List Criterion) :
    (evaluateCommands rx config commands triggered .nonDelegable).map CriteriaSummary.status =
      some .nonDelegable := by
  induction commands generalizing triggered with
  | nil => rfl
  | cons command commands ih =>
    rcases evaluateCommands_cons hc command commands triggered .nonDelegable with h | h
    · rw [h.2]
      exact ih triggered
    · obtain ⟨_, triggered', hnext⟩ := h
      rw [hnext]
      exact ih triggered'

/-- The loop ends delegable exactly if every command is clean, and else non-delegable. -/
theorem evaluateCommands_status (hc : config.Compilable rx) (commands : List String)
    (triggered : List Criterion) :
    ((∀ command ∈ commands, CleanCommand rx config command) ∧
      (evaluateCommands rx config commands triggered .delegable).map CriteriaSummary.status =
        some .delegable) ∨
    ((∃ command ∈ commands, ¬CleanCommand rx config command) ∧
      (evaluateCommands rx config commands triggered .delegable).map CriteriaSummary.status =
        some .nonDelegable) := by
  induction commands generalizing triggered with
  | nil => exact Or.inl ⟨by simp, rfl⟩
  | cons command commands ih =>
    rcases evaluateCommands_cons hc command commands triggered .delegable with h | h
    · obtain ⟨hclean, hnext⟩ := h
      rw [hnext]
      rcases ih triggered with hall | hsome
      · left
        exact ⟨List.forall_mem_cons.mpr ⟨hclean, hall.1⟩, hall.2⟩
      · right
        obtain ⟨⟨bad, hmem, hbad⟩, hstatus⟩ := hsome
        exact ⟨⟨bad, List.mem_cons_of_mem command hmem, hbad⟩, hstatus⟩
    · obtain ⟨hbad, triggered', hnext⟩ := h
      right
      rw [hnext]
      exact ⟨⟨command, List.mem_cons_self, hbad⟩, evaluateCommands_refused hc commands triggered'⟩

/-- A plan is delegable exactly if every command of it is clean. -/
theorem decidePolicyWithConfig_cases (hc : config.Compilable rx) (plan : ExecutionPlan) :
    (decidePolicyWithConfig rx plan config = some .delegable ∧
      ∀ command ∈ plan.commands, CleanCommand rx config command) ∨
    (decidePolicyWithConfig rx plan config = some .nonDelegable ∧
      ∃ command ∈ plan.commands, ¬CleanCommand rx config command) := by
  rw [decidePolicyWithConfig_eq]
  rcases evaluateCommands_status hc plan.commands [] with h | h
  · left
    rw [h.2]
    exact ⟨rfl, h.1⟩
  · right
    rw [h.2]
    exact ⟨rfl, h.1⟩

theorem decidePolicyWithConfig_eq_delegable_iff (hc : config.Compilable rx) (plan : ExecutionPlan) :
    decidePolicyWithConfig rx plan config = some .delegable ↔
      ∀ command ∈ plan.commands, CleanCommand rx config command := by
  rcases decidePolicyWithConfig_cases hc plan with ⟨hdecide, hall⟩ | ⟨hdecide, bad, hmem, hbad⟩
  · exact iff_of_true hdecide hall
  · rw [hdecide]
    constructor
    · intro habs
      simp at habs
    · intro hall
      exact absurd (hall bad hmem) hbad

/-- On a command that is not blank, the class of its symbol and the answer of an armed lock are
the same. -/
theorem delegable_iff_allow {guard : SafetyGuard} (harmed : guard.state.armed = true)
    (command : String) :
    (Symbol.extractFromCommand command).1.classification = .delegable ↔
      trim command ≠ "" ∧ guard.evaluateForCommand command = .allow := by
  rw [SafetyGuard.evaluateForCommand_eq_allow_iff, ne_eq (guard.evaluateForCommand command),
    SafetyGuard.evaluateForCommand_eq_block_iff]
  by_cases hblank : trim command = ""
  · simp [Symbol.extractFromCommand_of_blank hblank, hblank, Symbol.classification]
  · cases hclass : (Symbol.extractFromCommand command).1.classification with
    | delegable => simp [hblank]
    | critical => simp [hblank, harmed]

theorem not_delegable_of_bad {command : String}
    (h : UntaggedCommand command ∨ UnknownTag command ∨ CriticalTag command ∨ trim command = "") :
    (Symbol.extractFromCommand command).1.classification ≠ .delegable := by
  have hunclassified : Symbol.critUnclassified.classification ≠ .delegable := by decide
  rcases h with huntagged | hunknown | hcritical | hblank
  · rw [Symbol.extractFromCommand_of_untagged huntagged]
    exact hunclassified
  · rw [Symbol.extractFromCommand_of_unknownTag hunknown]
    exact hunclassified
  · obtain ⟨symbol, rest, htagged, hclass⟩ := hcritical
    rw [Symbol.extractFromCommand_fst_of_tagged htagged, hclass]
    decide
  · rw [Symbol.extractFromCommand_of_blank hblank]
    exact hunclassified

theorem decidePolicyWithConfig_of_bad (hc : config.Compilable rx) {plan : ExecutionPlan}
    {command : String} (hmem : command ∈ plan.commands)
    (hbad : (Symbol.extractFromCommand command).1.classification ≠ .delegable) :
    decidePolicyWithConfig rx plan config = some .nonDelegable := by
  have hnot : ¬CleanCommand rx config command := fun hclean => hbad hclean.tagged
  rcases decidePolicyWithConfig_cases hc plan with ⟨_, hall⟩ | ⟨hrefused, _⟩
  · exact absurd (hall command hmem) hnot
  · exact hrefused

/-- A plan is decided as delegable exactly if the armed lock allows each of its commands, none of
them blank, and the scan of each remaining text finds nothing. -/
theorem decidePolicyWithConfig_agrees_with_lock {rx : RegexEngine} {config : CriteriaConfig}
    (hc : config.Compilable rx) (plan : ExecutionPlan) :
    (decidePolicyWithConfig rx plan config = some .delegable ↔
      ∀ command ∈ plan.commands, trim command ≠ "" ∧
        SafetyGuard.new.evaluateForCommand command = .allow ∧
        ∃ textSummary,
          evaluateTextCommand rx (Symbol.extractFromCommand command).2 config = some textSummary ∧
            textSummary.triggered = []) ∧
    (decidePolicyWithConfig rx plan config = some .delegable →
      ∀ command ∈ plan.commands, safetyLock SafetyGuard.new command = .ok ()) ∧
    ((∃ command ∈ plan.commands, UntaggedCommand command ∨ UnknownTag command ∨
        CriticalTag command ∨ trim command = "") →
      decidePolicyWithConfig rx plan config = some .nonDelegable) := by
  have hclean : ∀ command, CleanCommand rx config command ↔ trim command ≠ "" ∧
      SafetyGuard.new.evaluateForCommand command = .allow ∧
      ∃ textSummary,
        evaluateTextCommand rx (Symbol.extractFromCommand command).2 config = some textSummary ∧
          textSummary.triggered = [] := by
    intro command
    have hlock := delegable_iff_allow (rfl : SafetyGuard.new.state.armed = true) command
    constructor
    · intro h
      obtain ⟨hblank, hallow⟩ := hlock.mp h.tagged
      exact ⟨hblank, hallow, h.scanned⟩
    · intro h
      exact ⟨hlock.mpr ⟨h.1, h.2.1⟩, h.2.2⟩
  have hplan := decidePolicyWithConfig_eq_delegable_iff hc plan
  refine ⟨?_, ?_, ?_⟩
  · rw [hplan]
    simp only [hclean]
  · intro h command hmem
    have hcommand := (hclean command).mp (hplan.mp h command hmem)
    exact safetyLock_eq_ok_iff.mpr hcommand.2.1
  · intro h
    obtain ⟨command, hmem, hbad⟩ := h
    exact decidePolicyWithConfig_of_bad hc hmem (not_delegable_of_bad hbad)

theorem decidePolicyWithConfig_agrees_with_lock_tidy :
    (∃ command ∈ ["[[AB:OPS.TERM.RUN.LOCAL]] cargo test", "cargo test"],
      UntaggedCommand command ∨ UnknownTag command ∨ CriticalTag command ∨ trim command = "") ∧
    decidePolicyWithConfig plainRegex.toRegexEngine
      ⟨"task-1", "run the tests twice", ["[[AB:OPS.TERM.RUN.LOCAL]] cargo test", "cargo test"]⟩
      .defaultPatterns = some .nonDelegable := by
  have huntagged : UntaggedCommand "cargo test" := by
    intro name rest hform
    obtain ⟨stripped, hs, _⟩ := tagForm_iff.mp hform
    have hnone : stripPrefix (trim "cargo test") "[[AB:" = none := by decide
    rw [hnone] at hs
    simp at hs
  have hbad : ∃ command ∈ ["[[AB:OPS.TERM.RUN.LOCAL]] cargo test", "cargo test"],
      UntaggedCommand command ∨ UnknownTag command ∨ CriticalTag command ∨ trim command = "" :=
    ⟨"cargo test", by simp, Or.inl huntagged⟩
  have hagrees := decidePolicyWithConfig_agrees_with_lock plainRegex.compiles
    ⟨"task-1", "run the tests twice", ["[[AB:OPS.TERM.RUN.LOCAL]] cargo test", "cargo test"]⟩
  exact ⟨hbad, hagrees.2.2 hbad⟩

end AiBridge
