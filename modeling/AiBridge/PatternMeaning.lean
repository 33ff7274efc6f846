import AiBridge.PlanCriteria
import AiBridge.SavedConfig

namespace AiBridge

open Text AdminConfig

/-- The rules for `rm -rf` and `dd` that are built in, spelled out. -/
def DestructiveText (text : String) : Prop :=
  (contains text "rm -rf" = true ∧
    ∃ place ∈ ["backup", "/var", "/home", "/tmp", "/etc", "/usr"], contains text place = true) ∨
  (contains text "dd" = true ∧ contains text "/dev/zero" = true ∧
    ∃ device ∈ ["of=", "disk", "sd", "nvme"], contains text device = true)

theorem compoundRule_iff {text : String} : compoundRule text = true ↔ DestructiveText text := by
  simp [compoundRule, irreversibleText, CriteriaConfig.none, DestructiveText, or_assoc, and_assoc]

namespace AdminConfig

/-- The patterns of the last set under one of the names of a category are in force. -/
theorem inForce_of_last {config : AdminConfig} {criterion : Criterion}
    {before after : List CriteriaPatternSet} {set : CriteriaPatternSet}
    (hset : config.criteria = before ++ set :: after) (hcategory : set.category ∈ criterion.names)
    (hlast : ∀ later ∈ after, later.category ∉ criterion.names) :
    config.inForce criterion = set.patterns := by
  have hafter : after.filter (fun set => set.category ∈ criterion.names) = [] := by
    rw [List.filter_eq_nil_iff]
    intro later hmem
    simpa using hlast later hmem
  have hlisted : config.criteria.filter (fun set => set.category ∈ criterion.names) =
      before.filter (fun set => set.category ∈ criterion.names) ++ [set] := by
    rw [hset, List.filter_append, List.filter_cons_of_pos (by simpa using hcategory), hafter]
  rw [inForce, hlisted, List.getLast?_concat, Option.map_some, Option.getD_some]

end AdminConfig

section Meaning

variable {rx : RegexEngine} {config : CriteriaConfig} {criterion : Criterion} {plan : ExecutionPlan}

/-- A validly tagged command in which the criterion finds something refuses the plan. -/
theorem reported_of_caught (hc : config.Compilable rx) {command : String}
    (hmem : command ∈ plan.commands)
    (htag : (Symbol.extractFromCommand command).1 ≠ .critUnclassified)
    (hcaught : criterion.Caught rx config (scanText (Symbol.extractFromCommand command).2)) :
    ∃ summary, evaluateCriteriaWithConfig rx plan config = some summary ∧
      criterion ∈ summary.triggered ∧ summary.status = .nonDelegable := by
  obtain ⟨summary, hsummary, hstatus, htriggered⟩ := evaluateCriteriaWithConfig_spec hc plan
  have hreported := (htriggered criterion).mpr ⟨command, hmem, htag, hcaught⟩
  have hbad : ¬CleanCommand rx config command := by
    rw [cleanCommand_iff hc]
    intro hclean
    exact hclean.2 (triggers_iff_caught.mpr ⟨criterion, hcaught⟩)
  exact ⟨summary, hsummary, hreported, hstatus.mpr ⟨command, hmem, hbad⟩⟩

theorem reported_iff (hc : config.Compilable rx) :
    (∃ summary, evaluateCriteriaWithConfig rx plan config = some summary ∧
      criterion ∈ summary.triggered ∧ summary.status = .nonDelegable) ↔
    ∃ command ∈ plan.commands, (Symbol.extractFromCommand command).1 ≠ .critUnclassified ∧
      criterion.Caught rx config (scanText (Symbol.extractFromCommand command).2) := by
  constructor
  · intro h
    obtain ⟨summary, hsummary, hreported, _⟩ := h
    obtain ⟨summary', hsummary', _, htriggered⟩ := evaluateCriteriaWithConfig_spec hc plan
    rw [hsummary, Option.some.injEq] at hsummary'
    rw [← hsummary'] at htriggered
    exact (htriggered criterion).mp hreported
  · intro h
    obtain ⟨command, hmem, htag, hcaught⟩ := h
    exact reported_of_caught hc hmem htag hcaught

end Meaning

/-- A command that a pattern in force matches as a regular expression is reported under the pattern's
criterion, except that markers of irreversibility count only as they stand, or by the rules that
are built in. -/
theorem matching_pattern_reported_iff (rx : ShippedRegex) (config : AdminConfig)
    (hvalid : config.validate rx.toRegexEngine = .ok ()) (criterion : Criterion)
    (before after : List CriteriaPatternSet) (set : CriteriaPatternSet)
    (hset : config.criteria = before ++ set :: after) (hcategory : set.category ∈ criterion.names)
    (hlast : ∀ later ∈ after, later.category ∉ criterion.names)
    (pattern : String) (hpattern : pattern ∈ set.patterns)
    (plan : ExecutionPlan) (command : String) (hmem : command ∈ plan.commands)
    (htag : (Symbol.extractFromCommand command).1 ≠ .critUnclassified)
    (hmatch : containsPattern rx.toRegexEngine
      (scanText (Symbol.extractFromCommand command).2) pattern = some true) :
    (∃ summary,
      evaluateCriteriaWithConfig rx.toRegexEngine plan config.toCriteriaConfig = some summary ∧
        criterion ∈ summary.triggered ∧ summary.status = .nonDelegable) ↔
    criterion ≠ .irreversibility ∨
      ∃ other ∈ plan.commands, (Symbol.extractFromCommand other).1 ≠ .critUnclassified ∧
        (DestructiveText (scanText (Symbol.extractFromCommand other).2) ∨
          ∃ marker ∈ set.patterns,
            contains (scanText (Symbol.extractFromCommand other).2) marker = true) := by
  have hc := toCriteriaConfig_compilable (validate_eq_ok_iff.mp hvalid)
  have hforce : config.toCriteriaConfig.patterns criterion = set.patterns := by
    rw [patterns_toCriteriaConfig]
    exact inForce_of_last hset hcategory hlast
  rw [reported_iff hc]
  by_cases hirreversible : criterion = .irreversibility
  · rw [hirreversible] at hforce ⊢
    have hmarkers : config.toCriteriaConfig.irreversibility = set.patterns := hforce
    simp only [caught_irreversibility_iff, irreversibleText_eq_true_iff, compoundRule_iff, hmarkers,
      ne_eq, not_true_eq_false, false_or]
  · have hfound : criterion.Caught rx.toRegexEngine config.toCriteriaConfig
        (scanText (Symbol.extractFromCommand command).2) := by
      rw [caught_scanned_iff hirreversible, hforce]
      exact ⟨pattern, hpattern, hmatch⟩
    exact iff_of_true ⟨command, hmem, htag, hfound⟩ (Or.inl hirreversible)

/-- An engine that reads `|` as alternation and anything else as plain text. On patterns without
other operators it answers as the `regex` crate does. -/
def alternatingRegex : ShippedRegex where
  new pattern := some fun text =>
    (pattern.toList.splitOn '|').any fun word => decide (word <:+: text.toList)
  compiles := fun _ _ => rfl

/-- A pattern of the financial category, with a choice in it. -/
theorem matching_pattern_reported_refund : ∃ summary,
    evaluateCriteriaWithConfig alternatingRegex.toRegexEngine
        ⟨"task-1", "pay back", ["[[AB:OPS.TERM.RUN.LOCAL]] refund order"]⟩
        { AdminConfig.empty with criteria := [⟨"financial", ["refund|rebate"]⟩] }.toCriteriaConfig =
          some summary ∧
      Criterion.financial ∈ summary.triggered ∧ summary.status = .nonDelegable :=
  (matching_pattern_reported_iff alternatingRegex
    { AdminConfig.empty with criteria := [⟨"financial", ["refund|rebate"]⟩] } (by decide +kernel)
    .financial [] [] ⟨"financial", ["refund|rebate"]⟩ rfl (by decide) (by simp) "refund|rebate"
    (by simp) ⟨"task-1", "pay back", ["[[AB:OPS.TERM.RUN.LOCAL]] refund order"]⟩
    "[[AB:OPS.TERM.RUN.LOCAL]] refund order" (by simp) (by decide) (by decide +kernel)).mpr
    (Or.inl (by decide))

/-- The same kind of pattern among the markers of irreversibility finds nothing. -/
theorem matching_pattern_unreported :
    let config : AdminConfig :=
      { AdminConfig.empty with criteria := [⟨"irreversibility", ["shred|srm"]⟩] }
    let command := "[[AB:OPS.TERM.RUN.LOCAL]] shred notes"
    config.validate alternatingRegex.toRegexEngine = .ok () ∧
      (Symbol.extractFromCommand command).1 ≠ .critUnclassified ∧
      containsPattern alternatingRegex.toRegexEngine
        (scanText (Symbol.extractFromCommand command).2) "shred|srm" = some true ∧
      evaluateCriteriaWithConfig alternatingRegex.toRegexEngine ⟨"task-1", "tidy up", [command]⟩
        config.toCriteriaConfig = some ⟨[], .delegable⟩ := by
  decide +kernel

section LiveTest

variable {rx : RegexEngine} {config : CriteriaConfig} {text : String} {patterns : List String}

/-- Every pattern that does not compile stands behind one that matches, so that it is never read. -/
def Shielded (rx : RegexEngine) (text : String) (patterns : List String) : Prop :=
  ∀ before bad after, patterns = before ++ bad :: after → rx.new bad = none →
    ∃ good ∈ before, containsPattern rx text good = some true

theorem shielded_nil : Shielded rx text [] := by
  intro before bad after h
  simp at h

theorem containsPattern_eq_none_iff {pattern : String} :
    containsPattern rx text pattern = none ↔ rx.new pattern = none := Option.map_eq_none_iff

theorem shielded_cons_of_match {pattern : String}
    (h : containsPattern rx text pattern = some true) : Shielded rx text (pattern :: patterns) := by
  intro before bad after hsplit hbad
  cases before with
  | nil =>
    obtain ⟨hpattern, _⟩ := List.cons.inj hsplit
    rw [hpattern, containsPattern_eq_none_iff.mpr hbad] at h
    exact absurd h (Option.some_ne_none true).symm
  | cons first before =>
    obtain ⟨hpattern, _⟩ := List.cons.inj hsplit
    exact ⟨first, List.mem_cons_self, hpattern ▸ h⟩

theorem shielded_cons_of_miss {pattern : String}
    (h : containsPattern rx text pattern = some false) :
    Shielded rx text (pattern :: patterns) ↔ Shielded rx text patterns := by
  constructor
  · intro hall before bad after hsplit hbad
    have hsplit' : pattern :: patterns = (pattern :: before) ++ bad :: after := by rw [hsplit]; rfl
    obtain ⟨good, hmem, hmatch⟩ := hall _ bad after hsplit' hbad
    rcases List.mem_cons.mp hmem with heq | hlater
    · rw [heq, h] at hmatch
      simp at hmatch
    · exact ⟨good, hlater, hmatch⟩
  · intro hall before bad after hsplit hbad
    cases before with
    | nil =>
      obtain ⟨hpattern, _⟩ := List.cons.inj hsplit
      rw [hpattern, containsPattern_eq_none_iff.mpr hbad] at h
      exact absurd h (Option.some_ne_none false).symm
    | cons first before =>
      obtain ⟨_, hrest⟩ := List.cons.inj hsplit
      obtain ⟨good, hmem, hmatch⟩ := hall before bad after hrest hbad
      exact ⟨good, List.mem_cons_of_mem _ hmem, hmatch⟩

/-- The search through the patterns does not panic exactly if none of the broken ones is reached. -/
theorem anyPattern_isSome_iff : (anyPattern rx text patterns).isSome ↔ Shielded rx text patterns := by
  induction patterns with
  | nil => exact iff_of_true rfl shielded_nil
  | cons pattern patterns ih =>
    cases hfirst : containsPattern rx text pattern with
    | none =>
      rw [anyPattern, hfirst]
      constructor
      · intro h
        simp at h
      · intro h
        have hbad : rx.new pattern = none := containsPattern_eq_none_iff.mp hfirst
        obtain ⟨good, hmem, _⟩ := h [] pattern patterns rfl hbad
        exact absurd hmem List.not_mem_nil
    | some found =>
      rw [anyPattern, hfirst]
      cases found with
      | true => exact iff_of_true rfl (shielded_cons_of_match hfirst)
      | false => rw [shielded_cons_of_miss hfirst, ← ih]

theorem shielded_of_compiles (h : ∀ pattern ∈ patterns, (rx.new pattern).isSome) :
    Shielded rx text patterns := by
  intro before bad after hsplit hbad
  have hsome := h bad (by simp [hsplit])
  rw [hbad] at hsome
  simp at hsome

theorem evaluateTextCommand_isSome_iff {command : String} :
    (evaluateTextCommand rx command config).isSome ↔
      ∀ criterion : Criterion, criterion ≠ .irreversibility →
        (anyPattern rx (scanText command) (config.patterns criterion)).isSome := by
  have hall : (∀ criterion : Criterion, criterion ≠ .irreversibility →
      (anyPattern rx (scanText command) (config.patterns criterion)).isSome) ↔
      (anyPattern rx (scanText command) config.systemSecurity).isSome ∧
      (anyPattern rx (scanText command) config.credentialsSecrets).isSome ∧
      (anyPattern rx (scanText command) config.dataExfiltration).isSome ∧
      (anyPattern rx (scanText command) config.financial).isSome ∧
      (anyPattern rx (scanText command) config.thirdParty).isSome := by
    constructor
    · intro h
      exact ⟨h .systemSecurity (by simp), h .credentialsSecrets (by simp),
        h .dataExfiltration (by simp), h .financial (by simp), h .thirdPartyImpact (by simp)⟩
    · intro h criterion hne
      obtain ⟨h1, h2, h3, h4, h5⟩ := h
      cases criterion with
      | irreversibility => exact absurd rfl hne
      | systemSecurity => exact h1
      | credentialsSecrets => exact h2
      | dataExfiltration => exact h3
      | financial => exact h4
      | thirdPartyImpact => exact h5
  rw [hall, evaluateTextCommand]
  simp only [Option.isSome_iff_exists, Option.bind_eq_bind, Option.bind_eq_some_iff, scanText]
  constructor
  · intro h
    obtain ⟨_, b1, h1, b2, h2, b3, h3, b4, h4, b5, h5, _⟩ := h
    exact ⟨⟨b1, h1⟩, ⟨b2, h2⟩, ⟨b3, h3⟩, ⟨b4, h4⟩, b5, h5⟩
  · intro h
    obtain ⟨⟨b1, h1⟩, ⟨b2, h2⟩, ⟨b3, h3⟩, ⟨b4, h4⟩, b5, h5⟩ := h
    exact ⟨_, b1, h1, b2, h2, b3, h3, b4, h4, b5, h5, rfl⟩

theorem evaluateCommands_isSome_iff {commands : List String} {triggered : List Criterion}
    {status : EvaluationStatus} : (evaluateCommands rx config commands triggered status).isSome ↔
      ∀ command ∈ commands,
        (evaluateTextCommand rx (Symbol.extractFromCommand command).2 config).isSome := by
  induction commands generalizing triggered status with
  | nil => simp [evaluateCommands]
  | cons command commands ih =>
    rw [List.forall_mem_cons]
    cases hscan : evaluateTextCommand rx (Symbol.extractFromCommand command).2 config with
    | none => simp [evaluateCommands, hscan]
    | some textSummary =>
      simp only [evaluateCommands, hscan, Option.isSome_some, true_and]
      split
      · exact ih
      · exact ih

end LiveTest

/-- The live test returns a summary exactly if each pattern in force that does not compile is kept
from being read, by one before it in its category that matches the command. -/
theorem live_test_returns_iff (lib : Libraries) (self : Desk)
    (hcommand : trim self.panel.testCommand ≠ "") :
    (∃ summary, Desk.runTestCommand lib self = some (some summary)) ↔
      ∀ criterion : Criterion, criterion ≠ .irreversibility →
        Shielded lib.rx.toRegexEngine
          (scanText (Symbol.extractFromCommand self.panel.testCommand).2)
          ((self.typed .criteria).inForce criterion) := by
  have hrun : Desk.runTestCommand lib self =
      some (evaluateCommands lib.rx.toRegexEngine (self.typed .criteria).toCriteriaConfig
        [self.panel.testCommand] [] .delegable) := by
    rw [Desk.runTestCommand, if_neg hcommand]
    rfl
  rw [hrun]
  simp only [Option.some.injEq, ← Option.isSome_iff_exists, evaluateCommands_isSome_iff,
    List.mem_singleton, forall_eq, evaluateTextCommand_isSome_iff, anyPattern_isSome_iff,
    patterns_toCriteriaConfig]

/-- An engine that rejects patterns whose parentheses do not balance, and reads the others as plain
text. On those of them that have no operators it answers as the `regex` crate does. -/
def balancedRegex : ShippedRegex where
  new pattern :=
    if pattern.toList.count '(' = pattern.toList.count ')' then
      some fun text => contains text pattern
    else none
  compiles := by
    unfold CriteriaConfig.Compilable
    decide +kernel

/-- A pattern for secrets that is not finished yet stands in the second line. -/
def Desk.testing (command : String) : Desk :=
  let desk := Desk.unsaved ⟨[], [], [⟨"secrets", "password\n("⟩], [], []⟩ none []
  { desk with panel := { desk.panel with testCommand := command } }

theorem live_test_returns_password : ∃ summary,
    Desk.runTestCommand { knownLibraries ⟨[]⟩ "" [] with rx := balancedRegex }
      (Desk.testing "[[AB:OPS.TERM.RUN.LOCAL]] echo password") = some (some summary) := by
  refine (live_test_returns_iff { knownLibraries ⟨[]⟩ "" [] with rx := balancedRegex }
    (Desk.testing "[[AB:OPS.TERM.RUN.LOCAL]] echo password") (by decide)).mpr ?_
  intro criterion hne
  by_cases hsecrets : criterion = .credentialsSecrets
  · rw [hsecrets]
    have hforce : ((Desk.testing "[[AB:OPS.TERM.RUN.LOCAL]] echo password").typed .criteria).inForce
        .credentialsSecrets = ["password", "("] := by decide +kernel
    rw [hforce]
    exact shielded_cons_of_match (by decide +kernel)
  · have hforce : ((Desk.testing "[[AB:OPS.TERM.RUN.LOCAL]] echo password").typed .criteria).inForce
        criterion = CriteriaConfig.defaultPatterns.patterns criterion := by
      cases criterion with
      | credentialsSecrets => exact absurd rfl hsecrets
      | _ => decide +kernel
    rw [hforce]
    apply shielded_of_compiles
    intro pattern hmem
    exact balancedRegex.compiles pattern (CriteriaConfig.mem_scanned_iff.mpr ⟨criterion, hne, hmem⟩)

/-- The unfinished pattern is read, and the panel goes down. -/
theorem live_test_panics :
    trim (Desk.testing "[[AB:OPS.TERM.RUN.LOCAL]] echo hello").panel.testCommand ≠ "" ∧
      Desk.runTestCommand { knownLibraries ⟨[]⟩ "" [] with rx := balancedRegex }
        (Desk.testing "[[AB:OPS.TERM.RUN.LOCAL]] echo hello") = some none := by
  decide +kernel

end AiBridge
