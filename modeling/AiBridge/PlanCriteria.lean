import AiBridge.RelaxedCriteria
import Mathlib.Data.List.Perm.Basic

namespace AiBridge

open Text

variable {rx : RegexEngine} {config : CriteriaConfig} {plan : ExecutionPlan}

/-- The loop gathers the criteria of its commands, and refuses if one of them is not clean. -/
theorem evaluateCommands_eq (hc : config.Compilable rx) (commands : List String)
    (triggered : List Criterion) (status : EvaluationStatus) :
    ∃ status', evaluateCommands rx config commands triggered status =
        some ⟨FirstSeen.gather triggered (commands.flatMap (commandCriteria rx config)), status'⟩ ∧
      (status' = .nonDelegable ↔
        status = .nonDelegable ∨ ∃ command ∈ commands, ¬CleanCommand rx config command) := by
  induction commands generalizing triggered status with
  | nil => exact ⟨status, rfl, by simp⟩
  | cons command commands ih =>
    obtain ⟨next, hnext, hclean, hrefused⟩ :=
      evaluateCommands_step hc command commands triggered status
    obtain ⟨status', hrest, hstatus⟩ :=
      ih (FirstSeen.gather triggered (commandCriteria rx config command)) next
    refine ⟨status', ?_, ?_⟩
    · rw [hnext, hrest, List.flatMap_cons, FirstSeen.gather_append]
    · rw [hstatus, List.exists_mem_cons_iff]
      by_cases h : CleanCommand rx config command
      · rw [(hclean h).2]
        simp [h]
      · simp [hrefused h, h]

/-- The summary of a plan: the criteria of its commands, each where it is first met, and a refusal
if one of the commands is not clean. -/
theorem evaluateCriteriaWithConfig_eq (hc : config.Compilable rx) (plan : ExecutionPlan) :
    ∃ status, evaluateCriteriaWithConfig rx plan config =
        some ⟨FirstSeen.gather [] (plan.commands.flatMap (commandCriteria rx config)), status⟩ ∧
      (status = .nonDelegable ↔
        ∃ command ∈ plan.commands, ¬CleanCommand rx config command) := by
  obtain ⟨status, hsummary, hstatus⟩ := evaluateCommands_eq hc plan.commands [] .delegable
  rw [or_iff_right (by simp)] at hstatus
  exact ⟨status, hsummary, hstatus⟩

theorem not_clean_of_criteria (hc : config.Compilable rx) {command : String}
    (h : commandCriteria rx config command ≠ []) : ¬CleanCommand rx config command := by
  intro hclean
  obtain ⟨_, _, hkept, _⟩ := evaluateCommands_step hc command [] [] .delegable
  exact h (hkept hclean).1

theorem mem_triggered_iff {commands : List String} {criterion : Criterion} :
    criterion ∈ FirstSeen.gather [] (commands.flatMap (commandCriteria rx config)) ↔
      ∃ command ∈ commands, criterion ∈ commandCriteria rx config command := by
  rw [FirstSeen.mem_gather, List.mem_flatMap]
  simp

theorem EvaluationStatus.eq_of_iff {status status' : EvaluationStatus}
    (h : status = .nonDelegable ↔ status' = .nonDelegable) : status = status' := by
  cases status' with
  | nonDelegable => exact h.mpr rfl
  | delegable =>
    cases status with
    | nonDelegable => exact (h.mp rfl).symm
    | delegable => rfl

/-- The evaluation of a plan is put together from those of its parts. -/
theorem evaluateCriteriaWithConfig_append (hc : config.Compilable rx) (plan : ExecutionPlan)
    (p q : List String) :
    ∃ first second both,
      evaluateCriteriaWithConfig rx { plan with commands := p } config = some first ∧
      evaluateCriteriaWithConfig rx { plan with commands := q } config = some second ∧
      evaluateCriteriaWithConfig rx { plan with commands := p ++ q } config = some both ∧
      (both.status = .nonDelegable ↔
        first.status = .nonDelegable ∨ second.status = .nonDelegable) ∧
      both.triggered =
        first.triggered ++ second.triggered.filter (· ∉ first.triggered) ∧
      first.triggered.Nodup ∧
      (first.triggered ≠ [] → first.status = .nonDelegable) ∧
      (∀ r, (∀ command, command ∈ r ↔ command ∈ p) → ∃ other,
        evaluateCriteriaWithConfig rx { plan with commands := r } config = some other ∧
          other.status = first.status ∧
          ∀ criterion, criterion ∈ other.triggered ↔ criterion ∈ first.triggered) ∧
      (∀ r, p ⊆ r → first.status = .nonDelegable → ∃ other,
        evaluateCriteriaWithConfig rx { plan with commands := r } config = some other ∧
          other.status = .nonDelegable) := by
  obtain ⟨first, hfirst, hfirst_status⟩ :=
    evaluateCriteriaWithConfig_eq hc { plan with commands := p }
  obtain ⟨second, hsecond, hsecond_status⟩ :=
    evaluateCriteriaWithConfig_eq hc { plan with commands := q }
  obtain ⟨both, hboth, hboth_status⟩ :=
    evaluateCriteriaWithConfig_eq hc { plan with commands := p ++ q }
  refine ⟨_, _, _, hfirst, hsecond, hboth, ?_, ?_, FirstSeen.nodup_gather List.nodup_nil, ?_, ?_, ?_⟩
  · rw [hboth_status, hfirst_status, hsecond_status]
    simp only [List.mem_append, or_and_right, exists_or]
  · rw [List.flatMap_append, FirstSeen.gather_append, FirstSeen.gather_eq_append]
  · intro hne
    rw [hfirst_status]
    obtain ⟨criterion, hmem⟩ := List.exists_mem_of_ne_nil _ hne
    obtain ⟨command, hcommand, hfound⟩ := mem_triggered_iff.mp hmem
    exact ⟨command, hcommand, not_clean_of_criteria hc (List.ne_nil_of_mem hfound)⟩
  · intro r hsame
    obtain ⟨other, hother, hother_status⟩ :=
      evaluateCriteriaWithConfig_eq hc { plan with commands := r }
    have hrefused : other = .nonDelegable ↔ first = .nonDelegable := by
      rw [hother_status, hfirst_status]
      simp only [hsame]
    refine ⟨_, hother, EvaluationStatus.eq_of_iff hrefused, ?_⟩
    · intro criterion
      rw [mem_triggered_iff, mem_triggered_iff]
      simp only [hsame]
  · intro r hmore hrefused
    obtain ⟨other, hother, hother_status⟩ :=
      evaluateCriteriaWithConfig_eq hc { plan with commands := r }
    obtain ⟨command, hmem, hbad⟩ := hfirst_status.mp hrefused
    exact ⟨_, hother, hother_status.mpr ⟨command, hmore hmem, hbad⟩⟩

/-- An untagged command is added to one that names a password. -/
theorem evaluateCriteriaWithConfig_append_untagged : ∃ both,
    evaluateCriteriaWithConfig plainRegex.toRegexEngine
        { delegablePlan "task-1" with
          commands := ["[[AB:OPS.TERM.RUN.LOCAL]] echo password"] ++ ["cargo test"] }
        .defaultPatterns = some both ∧
      both.status = .nonDelegable ∧
      both.triggered = [.credentialsSecrets] := by
  have hp : evaluateCriteriaWithConfig plainRegex.toRegexEngine
      { delegablePlan "task-1" with commands := ["[[AB:OPS.TERM.RUN.LOCAL]] echo password"] }
      .defaultPatterns = some ⟨[.credentialsSecrets], .nonDelegable⟩ := by decide +kernel
  have hq : evaluateCriteriaWithConfig plainRegex.toRegexEngine
      { delegablePlan "task-1" with commands := ["cargo test"] } .defaultPatterns =
        some ⟨[], .nonDelegable⟩ := by decide +kernel
  obtain ⟨first, second, both, hfirst, hsecond, hboth, hstatus, htriggered, _⟩ :=
    evaluateCriteriaWithConfig_append plainRegex.compiles (delegablePlan "task-1")
      ["[[AB:OPS.TERM.RUN.LOCAL]] echo password"] ["cargo test"]
  rw [hp, Option.some.injEq] at hfirst
  rw [hq, Option.some.injEq] at hsecond
  rw [← hfirst, ← hsecond] at hstatus htriggered
  exact ⟨both, hboth, hstatus.mpr (Or.inl rfl), htriggered⟩

theorem mem_commandCriteria_iff (hc : config.Compilable rx) {command : String}
    {criterion : Criterion} : criterion ∈ commandCriteria rx config command ↔
      (Symbol.extractFromCommand command).1 ≠ .critUnclassified ∧
        criterion.Caught rx config (scanText (Symbol.extractFromCommand command).2) := by
  obtain ⟨textSummary, hscan, htriggered⟩ :=
    evaluateTextCommand_spec hc (Symbol.extractFromCommand command).2
  rw [commandCriteria, hscan, ← htriggered]
  by_cases hu : (Symbol.extractFromCommand command).1 = .critUnclassified
  · simp [hu]
  · simp [hu]

/-- The summary of a plan in terms of its commands. -/
theorem evaluateCriteriaWithConfig_spec (hc : config.Compilable rx) (plan : ExecutionPlan) :
    ∃ summary, evaluateCriteriaWithConfig rx plan config = some summary ∧
      (summary.status = .nonDelegable ↔
        ∃ command ∈ plan.commands, ¬CleanCommand rx config command) ∧
      ∀ criterion, criterion ∈ summary.triggered ↔ ∃ command ∈ plan.commands,
        (Symbol.extractFromCommand command).1 ≠ .critUnclassified ∧
          criterion.Caught rx config (scanText (Symbol.extractFromCommand command).2) := by
  obtain ⟨status, hsummary, hstatus⟩ := evaluateCriteriaWithConfig_eq hc plan
  refine ⟨_, hsummary, hstatus, ?_⟩
  intro criterion
  rw [mem_triggered_iff]
  simp only [mem_commandCriteria_iff hc]

section Monotone

variable {config' : CriteriaConfig} {criterion : Criterion} {text : String}

theorem Criterion.Caught.mono (hsub : ∀ criterion, config.patterns criterion ⊆ config'.patterns criterion)
    (h : criterion.Caught rx config text) : criterion.Caught rx config' text := by
  rcases h with hrule | ⟨pattern, hmem, hhits⟩
  · exact Or.inl hrule
  · exact Or.inr ⟨pattern, hsub criterion hmem, hhits⟩

/-- The patterns match whatever is added around what they match. -/
def Unanchored (rx : RegexEngine) (patterns : List String) : Prop :=
  ∀ pattern ∈ patterns, ∀ before text after, containsPattern rx text pattern = some true →
    containsPattern rx (before ++ text ++ after) pattern = some true

theorem irreversibleText_append (h : irreversibleText text config = true) (more : String) :
    irreversibleText (text ++ more) config = true := by
  have hstay : ∀ {pattern}, contains text pattern = true → contains (text ++ more) pattern = true :=
    fun hfound => contains_append hfound more
  simp only [irreversibleText, Bool.or_eq_true, Bool.and_eq_true, List.any_eq_true] at h ⊢
  rcases h with (⟨marker, hmem, hfound⟩ | ⟨hrm, hplace⟩) | ⟨⟨hdd, hzero⟩, hdevice⟩
  · exact Or.inl (Or.inl ⟨marker, hmem, hstay hfound⟩)
  · refine Or.inl (Or.inr ⟨hstay hrm, ?_⟩)
    exact hplace.imp (Or.imp (Or.imp (Or.imp (Or.imp hstay hstay) hstay) hstay) hstay) hstay
  · refine Or.inr ⟨⟨hstay hdd, hstay hzero⟩, ?_⟩
    exact hdevice.imp (Or.imp (Or.imp hstay hstay) hstay) hstay

theorem Criterion.Caught.append (hadded : Unanchored rx config.scanned)
    (h : criterion.Caught rx config text) (more : String) :
    criterion.Caught rx config (text ++ more) := by
  by_cases hirreversible : criterion = .irreversibility
  · rw [hirreversible, caught_irreversibility_iff] at h ⊢
    exact irreversibleText_append h more
  · rw [caught_scanned_iff hirreversible] at h ⊢
    obtain ⟨pattern, hmem, hmatch⟩ := h
    have hscanned : pattern ∈ config.scanned :=
      CriteriaConfig.mem_scanned_iff.mpr ⟨criterion, hirreversible, hmem⟩
    have hmore := hadded pattern hscanned "" text more hmatch
    rw [String.empty_append] at hmore
    exact ⟨pattern, hmem, hmore⟩

/-- The text that is scanned of a tagged command is a beginning of what is scanned of a longer one. -/
theorem scanText_append {command rest : String} {symbol : Symbol} (h : Tagged command symbol rest)
    (more : String) : (Symbol.extractFromCommand (command ++ more)).1 = symbol ∧
      ∃ tail, scanText (Symbol.extractFromCommand (command ++ more)).2 =
        scanText (Symbol.extractFromCommand command).2 ++ tail := by
  obtain ⟨tail, htagged⟩ := h.append more
  obtain ⟨added, hadded⟩ := trim_append rest tail
  rw [Symbol.extractFromCommand_of_tagged htagged, Symbol.extractFromCommand_of_tagged h]
  refine ⟨rfl, toAsciiLowercase added, ?_⟩
  rw [scanText, scanText, trim_idem, trim_idem, hadded, toAsciiLowercase_append]

/-- A command that is refused is still refused where its symbol is the same and no less is found in
its text. -/
theorem not_clean_mono (hc : config.Compilable rx) (hc' : config'.Compilable rx)
    {command command' : String}
    (hsymbol : (Symbol.extractFromCommand command').1 = (Symbol.extractFromCommand command).1)
    (hcaught : ∀ criterion : Criterion,
      criterion.Caught rx config (scanText (Symbol.extractFromCommand command).2) →
      criterion.Caught rx config' (scanText (Symbol.extractFromCommand command').2))
    (hbad : ¬CleanCommand rx config command) : ¬CleanCommand rx config' command' := by
  rw [cleanCommand_iff hc] at hbad
  rw [cleanCommand_iff hc', hsymbol]
  intro hclean
  apply hbad
  refine ⟨hclean.1, ?_⟩
  intro hfound
  obtain ⟨criterion, h⟩ := triggers_iff_caught.mp hfound
  exact hclean.2 (triggers_iff_caught.mpr ⟨criterion, hcaught criterion h⟩)

/-- A plan that has for each command of another one a command in which no less is found is refused
where the other is, and triggers no less. -/
theorem evaluateCriteriaWithConfig_mono (hc : config.Compilable rx) (hc' : config'.Compilable rx)
    {plan plan' : ExecutionPlan}
    (hcovered : ∀ command ∈ plan.commands, ∃ command' ∈ plan'.commands,
      (Symbol.extractFromCommand command').1 = (Symbol.extractFromCommand command).1 ∧
      ∀ criterion : Criterion,
        criterion.Caught rx config (scanText (Symbol.extractFromCommand command).2) →
        criterion.Caught rx config' (scanText (Symbol.extractFromCommand command').2)) :
    ∃ summary summary',
      evaluateCriteriaWithConfig rx plan config = some summary ∧
      evaluateCriteriaWithConfig rx plan' config' = some summary' ∧
      (summary.status = .nonDelegable → summary'.status = .nonDelegable) ∧
      summary.triggered ⊆ summary'.triggered := by
  obtain ⟨summary, hsummary, hstatus, htriggered⟩ := evaluateCriteriaWithConfig_spec hc plan
  obtain ⟨summary', hsummary', hstatus', htriggered'⟩ := evaluateCriteriaWithConfig_spec hc' plan'
  refine ⟨summary, summary', hsummary, hsummary', ?_, ?_⟩
  · intro hrefused
    obtain ⟨command, hmem, hbad⟩ := hstatus.mp hrefused
    obtain ⟨command', hmem', hsymbol, hcaught⟩ := hcovered command hmem
    exact hstatus'.mpr ⟨command', hmem', not_clean_mono hc hc' hsymbol hcaught hbad⟩
  · intro criterion hmem
    obtain ⟨command, hcommand, htag, hfound⟩ := (htriggered criterion).mp hmem
    obtain ⟨command', hmem', hsymbol, hcaught⟩ := hcovered command hcommand
    refine (htriggered' criterion).mpr ⟨command', hmem', ?_, hcaught criterion hfound⟩
    rw [hsymbol]
    exact htag

end Monotone

/-- More patterns never refuse less, and with the shipped patterns text behind a tagged command
never hides what the command triggers. -/
theorem criteria_monotone (rx : ShippedRegex) :
    (∀ (config config' : CriteriaConfig) (plan : ExecutionPlan),
      config.Compilable rx.toRegexEngine → config'.Compilable rx.toRegexEngine →
      (∀ criterion, config.patterns criterion ⊆ config'.patterns criterion) →
      ∃ summary summary',
        evaluateCriteriaWithConfig rx.toRegexEngine plan config = some summary ∧
        evaluateCriteriaWithConfig rx.toRegexEngine plan config' = some summary' ∧
        (summary.status = .nonDelegable → summary'.status = .nonDelegable) ∧
        summary.triggered ⊆ summary'.triggered) ∧
    (Unanchored rx.toRegexEngine CriteriaConfig.defaultPatterns.scanned →
      ∀ (taskId description command more rest : String) (symbol : Symbol),
      Tagged command symbol rest →
      ∃ summary summary',
        evaluateCriteriaWithConfig rx.toRegexEngine ⟨taskId, description, [command]⟩
          .defaultPatterns = some summary ∧
        evaluateCriteriaWithConfig rx.toRegexEngine ⟨taskId, description, [command ++ more]⟩
          .defaultPatterns = some summary' ∧
        (summary.status = .nonDelegable → summary'.status = .nonDelegable) ∧
        summary.triggered ⊆ summary'.triggered) := by
  constructor
  · intro config config' plan hc hc' hsub
    apply evaluateCriteriaWithConfig_mono hc hc'
    intro command hmem
    exact ⟨command, hmem, rfl, fun _ h => h.mono hsub⟩
  · intro hadded taskId description command more rest symbol htagged
    apply evaluateCriteriaWithConfig_mono rx.compiles rx.compiles
    intro other hmem
    rw [List.mem_singleton.mp hmem]
    obtain ⟨hsymbol, tail, htext⟩ := scanText_append htagged more
    have hsame := hsymbol.trans (Symbol.extractFromCommand_fst_of_tagged htagged).symm
    refine ⟨command ++ more, List.mem_singleton_self _, hsame, ?_⟩
    intro criterion h
    rw [htext]
    exact h.append hadded tail

theorem unanchored_plainRegex (patterns : List String) :
    Unanchored plainRegex.toRegexEngine patterns := by
  intro pattern _ before text after h
  simp only [containsPattern, plainRegex, Option.map_some, Option.some.injEq, contains,
    decide_eq_true_eq, String.toList_append] at h ⊢
  obtain ⟨left, right, htext⟩ := h
  rw [← htext]
  exact ⟨before.toList ++ left, right ++ after.toList, by simp only [List.append_assoc]⟩

/-- A second tag and a closing bracket behind a command that names a password. -/
theorem criteria_monotone_padded : ∃ summary,
    evaluateCriteriaWithConfig plainRegex.toRegexEngine
        ⟨"task-1", "rotate", ["[[AB:OPS.TERM.RUN.LOCAL]] echo password" ++ " ]] [[AB:OPS.APP.OPEN]]"]⟩
        .defaultPatterns = some summary ∧
      summary.status = .nonDelegable ∧ .credentialsSecrets ∈ summary.triggered := by
  have hd : evaluateCriteriaWithConfig plainRegex.toRegexEngine
      ⟨"task-1", "rotate", ["[[AB:OPS.TERM.RUN.LOCAL]] echo password"]⟩ .defaultPatterns =
        some ⟨[.credentialsSecrets], .nonDelegable⟩ := by decide +kernel
  have htag : Tagged "[[AB:OPS.TERM.RUN.LOCAL]] echo password" .opsTermRunLocal " echo password" :=
    ⟨"OPS.TERM.RUN.LOCAL", tagForm_iff.mpr ⟨"OPS.TERM.RUN.LOCAL]] echo password", by decide,
      by decide⟩, by decide⟩
  obtain ⟨summary, summary', hsummary, hsummary', hstatus, hsub⟩ :=
    (criteria_monotone plainRegex).2 (unanchored_plainRegex _) "task-1" "rotate" _
      " ]] [[AB:OPS.APP.OPEN]]" _ _ htag
  rw [hd, Option.some.injEq] at hsummary
  rw [← hsummary] at hstatus hsub
  exact ⟨summary', hsummary', hstatus rfl, hsub List.mem_cons_self⟩

end AiBridge
