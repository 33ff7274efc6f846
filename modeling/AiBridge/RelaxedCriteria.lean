import AiBridge.LoweringChanges
import AiBridge.PolicyLock
import AiBridge.Runs

namespace AiBridge

open Text

namespace CriteriaConfig

def patterns (config : CriteriaConfig) : Criterion → List String
  | .irreversibility => config.irreversibility
  | .systemSecurity => config.systemSecurity
  | .credentialsSecrets => config.credentialsSecrets
  | .dataExfiltration => config.dataExfiltration
  | .financial => config.financial
  | .thirdPartyImpact => config.thirdParty

def none : CriteriaConfig := ⟨[], [], [], [], [], []⟩

end CriteriaConfig

/-- The text of a command as the scan reads it. -/
def scanText (command : String) : String := toAsciiLowercase (trim command)

/-- The rules for `rm -rf` and `dd` that no configuration changes. -/
def compoundRule (text : String) : Bool := irreversibleText text .none

namespace Criterion

/-- Markers of irreversibility are looked for as they stand, the others as regular expressions. -/
def Hits (rx : RegexEngine) (criterion : Criterion) (pattern text : String) : Prop :=
  match criterion with
  | .irreversibility => contains text pattern = true
  | _ => containsPattern rx text pattern = some true

/-- The names of its category in a configuration. -/
def names : Criterion → List String
  | .irreversibility => ["irreversibility"]
  | .systemSecurity => ["system_security"]
  | .credentialsSecrets => ["secrets", "credentials_secrets"]
  | .dataExfiltration => ["exfiltration", "data_exfiltration"]
  | .financial => ["financial"]
  | .thirdPartyImpact => ["third_party"]

end Criterion

variable {rx : RegexEngine} {config : CriteriaConfig} {text : String}

theorem anyPattern_spec {patterns : List String} (h : ∀ pattern ∈ patterns, (rx.new pattern).isSome) :
    ∃ found, anyPattern rx text patterns = some found ∧
      (found = true ↔ ∃ pattern ∈ patterns, containsPattern rx text pattern = some true) := by
  induction patterns with
  | nil => exact ⟨false, rfl, by simp⟩
  | cons pattern patterns ih =>
    obtain ⟨found, hrest, hfound⟩ := ih fun p hp => h p (List.mem_cons_of_mem _ hp)
    obtain ⟨re, hre⟩ := Option.isSome_iff_exists.mp (h pattern List.mem_cons_self)
    have hfirst : containsPattern rx text pattern = some (re text) := by
      rw [containsPattern, hre, Option.map_some]
    cases hmatch : re text with
    | true =>
      refine ⟨true, ?_, by simp [hfirst, hmatch]⟩
      rw [anyPattern, hfirst, hmatch]
    | false =>
      refine ⟨found, ?_, by simpa [hfirst, hmatch] using hfound⟩
      rw [anyPattern, hfirst, hmatch]
      exact hrest

/-- A scan finds something in the text: a rule that is built in, or a pattern of the configuration. -/
def Triggers (rx : RegexEngine) (config : CriteriaConfig) (text : String) : Prop :=
  compoundRule text = true ∨
    ∃ criterion : Criterion, ∃ pattern ∈ config.patterns criterion, criterion.Hits rx pattern text

theorem irreversibleText_eq_true_iff : irreversibleText text config = true ↔
    compoundRule text = true ∨ ∃ marker ∈ config.irreversibility, contains text marker = true := by
  have hsplit : irreversibleText text config =
      ((config.irreversibility.any fun marker => contains text marker) || compoundRule text) := by
    rw [compoundRule, irreversibleText, irreversibleText, CriteriaConfig.none]
    simp [Bool.or_assoc]
  rw [hsplit, Bool.or_eq_true, List.any_eq_true, or_comm]

theorem CriteriaConfig.mem_scanned_iff {criteria : CriteriaConfig} {pattern : String} :
    pattern ∈ criteria.scanned ↔
      ∃ criterion : Criterion, criterion ≠ .irreversibility ∧ pattern ∈ criteria.patterns criterion := by
  simp only [CriteriaConfig.scanned, List.mem_append]
  constructor
  · intro h
    rcases h with (((h | h) | h) | h) | h
    · exact ⟨.systemSecurity, by simp, h⟩
    · exact ⟨.credentialsSecrets, by simp, h⟩
    · exact ⟨.dataExfiltration, by simp, h⟩
    · exact ⟨.financial, by simp, h⟩
    · exact ⟨.thirdPartyImpact, by simp, h⟩
  · intro h
    obtain ⟨criterion, hne, hmem⟩ := h
    cases criterion with
    | irreversibility => exact absurd rfl hne
    | systemSecurity => exact Or.inl (Or.inl (Or.inl (Or.inl hmem)))
    | credentialsSecrets => exact Or.inl (Or.inl (Or.inl (Or.inr hmem)))
    | dataExfiltration => exact Or.inl (Or.inl (Or.inr hmem))
    | financial => exact Or.inl (Or.inr hmem)
    | thirdPartyImpact => exact Or.inr hmem

/-- A criterion finds something in a text: its patterns do, or the rules that are built in. -/
def Criterion.Caught (rx : RegexEngine) (config : CriteriaConfig) (criterion : Criterion)
    (text : String) : Prop :=
  (criterion = .irreversibility ∧ compoundRule text = true) ∨
    ∃ pattern ∈ config.patterns criterion, criterion.Hits rx pattern text

theorem triggers_iff_caught :
    Triggers rx config text ↔ ∃ criterion : Criterion, criterion.Caught rx config text := by
  constructor
  · intro h
    rcases h with hrule | ⟨criterion, hfound⟩
    · exact ⟨.irreversibility, Or.inl ⟨rfl, hrule⟩⟩
    · exact ⟨criterion, Or.inr hfound⟩
  · intro h
    obtain ⟨criterion, hcaught⟩ := h
    rcases hcaught with ⟨_, hrule⟩ | hfound
    · exact Or.inl hrule
    · exact Or.inr ⟨criterion, hfound⟩

theorem caught_scanned_iff {criterion : Criterion} (h : criterion ≠ .irreversibility) :
    criterion.Caught rx config text ↔
      ∃ pattern ∈ config.patterns criterion, containsPattern rx text pattern = some true := by
  have hhits : ∀ pattern, criterion.Hits rx pattern text ↔
      containsPattern rx text pattern = some true := by
    intro pattern
    cases criterion with
    | irreversibility => exact absurd rfl h
    | _ => exact Iff.rfl
  rw [Criterion.Caught]
  simp only [h, false_and, false_or, hhits]

theorem caught_irreversibility_iff : Criterion.irreversibility.Caught rx config text ↔
    irreversibleText text config = true := by
  rw [irreversibleText_eq_true_iff, Criterion.Caught]
  simp only [true_and]
  exact Iff.rfl

/-- The scan of a command raises the criteria that find something in its text. -/
theorem evaluateTextCommand_spec (hc : config.Compilable rx) (command : String) :
    ∃ textSummary, evaluateTextCommand rx command config = some textSummary ∧
      ∀ criterion, criterion ∈ textSummary.triggered ↔
        criterion.Caught rx config (scanText command) := by
  have hany : ∀ criterion : Criterion, criterion ≠ .irreversibility →
      ∃ found, anyPattern rx (scanText command) (config.patterns criterion) = some found ∧
        (found = true ↔ criterion.Caught rx config (scanText command)) := by
    intro criterion hne
    rw [caught_scanned_iff hne]
    exact anyPattern_spec fun pattern hmem =>
      hc pattern (CriteriaConfig.mem_scanned_iff.mpr ⟨criterion, hne, hmem⟩)
  obtain ⟨b1, h1, hb1⟩ := hany .systemSecurity (by simp)
  obtain ⟨b2, h2, hb2⟩ := hany .credentialsSecrets (by simp)
  obtain ⟨b3, h3, hb3⟩ := hany .dataExfiltration (by simp)
  obtain ⟨b4, h4, hb4⟩ := hany .financial (by simp)
  obtain ⟨b5, h5, hb5⟩ := hany .thirdPartyImpact (by simp)
  unfold scanText CriteriaConfig.patterns at h1 h2 h3 h4 h5
  simp only [evaluateTextCommand, h1, h2, h3, h4, h5, Option.bind_eq_bind, Option.bind_some,
    Option.some.injEq, exists_eq_left']
  intro criterion
  simp only [List.mem_append, List.mem_ite_nil_right, List.mem_singleton]
  cases criterion with
  | irreversibility =>
    rw [caught_irreversibility_iff]
    simp [scanText]
  | systemSecurity => simp [← hb1]
  | credentialsSecrets => simp [← hb2]
  | dataExfiltration => simp [← hb3]
  | financial => simp [← hb4]
  | thirdPartyImpact => simp [← hb5]

/-- The scan of a command triggers nothing exactly if there is nothing to be found in its text. -/
theorem scanned_iff (hc : config.Compilable rx) (command : String) :
    (∃ textSummary, evaluateTextCommand rx command config = some textSummary ∧
      textSummary.triggered = []) ↔ ¬Triggers rx config (scanText command) := by
  obtain ⟨textSummary, hscan, htriggered⟩ := evaluateTextCommand_spec hc command
  have hempty : textSummary.triggered = [] ↔ ∀ criterion, criterion ∉ textSummary.triggered :=
    List.eq_nil_iff_forall_not_mem
  rw [hscan, triggers_iff_caught, not_exists]
  simp only [Option.some.injEq, exists_eq_left', hempty, htriggered]

namespace AdminConfig

/-- The patterns of a category: those of the last set under one of its names, or else the shipped
ones. -/
def inForce (config : AdminConfig) (criterion : Criterion) : List String :=
  ((config.criteria.filter fun set => set.category ∈ criterion.names).getLast?.map
    CriteriaPatternSet.patterns).getD (CriteriaConfig.defaultPatterns.patterns criterion)

theorem patterns_overrideCategory (criteria : CriteriaConfig) (set : CriteriaPatternSet)
    (criterion : Criterion) : (overrideCategory criteria set).patterns criterion =
      if decide (set.category ∈ criterion.names) = true then set.patterns
      else criteria.patterns criterion := by
  obtain ⟨category, patterns⟩ := set
  by_cases hknown : category ∈ ["irreversibility", "system_security", "secrets",
      "credentials_secrets", "exfiltration", "data_exfiltration", "financial", "third_party"]
  · simp only [List.mem_cons, List.not_mem_nil, or_false] at hknown
    rcases hknown with rfl | rfl | rfl | rfl | rfl | rfl | rfl | rfl
    all_goals cases criterion <;> rfl
  · simp only [List.mem_cons, List.not_mem_nil, or_false, not_or] at hknown
    obtain ⟨h1, h2, h3, h4, h5, h6, h7, h8⟩ := hknown
    have hother : category ∉ criterion.names := by
      cases criterion <;> simp [Criterion.names, *]
    have hkept : overrideCategory criteria ⟨category, patterns⟩ = criteria := by
      simp [overrideCategory, *]
    rw [hkept, decide_eq_false hother]
    rfl

theorem patterns_toCriteriaConfig (config : AdminConfig) (criterion : Criterion) :
    config.toCriteriaConfig.patterns criterion = config.inForce criterion := by
  show (Runs.run overrideCategory .defaultPatterns config.criteria).patterns criterion = _
  exact Runs.run_last_write (fun criteria : CriteriaConfig => criteria.patterns criterion)
    (fun set : CriteriaPatternSet => decide (set.category ∈ criterion.names))
    CriteriaPatternSet.patterns
    fun criteria set => patterns_overrideCategory criteria set criterion

/-- Whatever is in force was shipped or stands in the configuration. -/
theorem mem_inForce {config : AdminConfig} {criterion : Criterion} {pattern : String}
    (h : pattern ∈ config.inForce criterion) :
    pattern ∈ CriteriaConfig.defaultPatterns.patterns criterion ∨
      ∃ set ∈ config.criteria, set.category ∈ criterion.names ∧ pattern ∈ set.patterns := by
  rw [inForce] at h
  cases hlast : (config.criteria.filter fun set => set.category ∈ criterion.names).getLast? with
  | none =>
    rw [hlast, Option.map_none, Option.getD_none] at h
    exact Or.inl h
  | some set =>
    rw [hlast, Option.map_some, Option.getD_some] at h
    have hset := List.mem_filter.mp (List.mem_of_getLast? hlast)
    exact Or.inr ⟨set, hset.1, by simpa using hset.2, h⟩

/-- The criteria of a valid configuration never make the scan panic. -/
theorem toCriteriaConfig_compilable {rx : ShippedRegex} {config : AdminConfig}
    (h : config.Valid rx.toRegexEngine) : config.toCriteriaConfig.Compilable rx.toRegexEngine := by
  intro pattern hmem
  obtain ⟨criterion, hne, hpattern⟩ := CriteriaConfig.mem_scanned_iff.mp hmem
  rw [patterns_toCriteriaConfig] at hpattern
  rcases mem_inForce hpattern with hshipped | ⟨set, hset, _, hin⟩
  · exact rx.compiles pattern (CriteriaConfig.mem_scanned_iff.mpr ⟨criterion, hne, hshipped⟩)
  · exact h.patterns set hset pattern hin

/-- A text is caught under the configuration: a rule that is built in finds something, or a pattern
that is in force. -/
def Catches (rx : RegexEngine) (config : AdminConfig) (text : String) : Prop :=
  compoundRule text = true ∨
    ∃ criterion : Criterion, ∃ pattern ∈ config.inForce criterion, criterion.Hits rx pattern text

theorem triggers_toCriteriaConfig {rx : RegexEngine} {config : AdminConfig} {text : String} :
    Triggers rx config.toCriteriaConfig text ↔ config.Catches rx text := by
  rw [Triggers, Catches]
  simp only [patterns_toCriteriaConfig]

end AdminConfig

open AdminConfig

section Relaxed

variable {rx : RegexEngine} {strict loose : CriteriaConfig}

theorem cleanCommand_iff (hc : config.Compilable rx) (command : String) :
    CleanCommand rx config command ↔
      (Symbol.extractFromCommand command).1.classification = .delegable ∧
        ¬Triggers rx config (scanText (Symbol.extractFromCommand command).2) := by
  rw [← scanned_iff hc]
  exact ⟨fun h => ⟨h.tagged, h.scanned⟩, fun h => ⟨h.1, h.2⟩⟩

/-- One command that is tagged as delegable makes a plan out of any text. -/
theorem decidePolicyWithConfig_of_text (hc : config.Compilable rx) (text : String) :
    decidePolicyWithConfig rx ⟨"", "", [Symbol.opsTermRunLocal.withTag text]⟩ config =
        some .nonDelegable ↔ Triggers rx config (scanText text) := by
  have hextract := Symbol.extractFromCommand_of_withTag .opsTermRunLocal text
  have hscan : scanText (trim text) = scanText text := by
    rw [scanText, scanText, trim_idem]
  have hclean : CleanCommand rx config (Symbol.opsTermRunLocal.withTag text) ↔
      ¬Triggers rx config (scanText text) := by
    rw [cleanCommand_iff hc, hextract, hscan]
    exact ⟨fun h => h.2, fun h => ⟨rfl, h⟩⟩
  rcases decidePolicyWithConfig_cases hc ⟨"", "", [Symbol.opsTermRunLocal.withTag text]⟩ with
    ⟨hdecide, hall⟩ | ⟨hdecide, command, hmem, hbad⟩
  · rw [hdecide]
    have hnone := hclean.mp (hall _ List.mem_cons_self)
    simp [hnone]
  · rw [List.mem_singleton.mp hmem, hclean, not_not] at hbad
    rw [hdecide]
    simp [hbad]

/-- Some plan is relaxed from one configuration to another exactly if some text is. -/
theorem exists_relaxed_iff (hs : strict.Compilable rx) (hl : loose.Compilable rx) :
    (∃ plan, decidePolicyWithConfig rx plan strict = some .nonDelegable ∧
      decidePolicyWithConfig rx plan loose = some .delegable) ↔
        ∃ text, Triggers rx strict (scanText text) ∧ ¬Triggers rx loose (scanText text) := by
  constructor
  · intro h
    obtain ⟨plan, hstrict, hloose⟩ := h
    rcases decidePolicyWithConfig_cases hs plan with ⟨habs, _⟩ | ⟨_, command, hmem, hbad⟩
    · rw [habs] at hstrict
      simp at hstrict
    · rcases decidePolicyWithConfig_cases hl plan with ⟨_, hall⟩ | ⟨habs, _⟩
      · have hclean := (cleanCommand_iff hl command).mp (hall command hmem)
        rw [cleanCommand_iff hs, not_and, not_not] at hbad
        exact ⟨_, hbad hclean.1, hclean.2⟩
      · rw [habs] at hloose
        simp at hloose
  · intro h
    obtain ⟨text, hstrict, hloose⟩ := h
    refine ⟨_, (decidePolicyWithConfig_of_text hs text).mpr hstrict, ?_⟩
    rcases decidePolicyWithConfig_cases hl ⟨"", "", [Symbol.opsTermRunLocal.withTag text]⟩ with
      ⟨hdecide, _⟩ | ⟨hdecide, _⟩
    · exact hdecide
    · exact absurd ((decidePolicyWithConfig_of_text hl text).mp hdecide) hloose

/-- Two configurations decide every plan alike exactly if they find something in the same texts. -/
theorem same_decisions_iff (hs : strict.Compilable rx) (hl : loose.Compilable rx) :
    (∀ plan, decidePolicyWithConfig rx plan strict = decidePolicyWithConfig rx plan loose) ↔
      ∀ text, Triggers rx strict (scanText text) ↔ Triggers rx loose (scanText text) := by
  constructor
  · intro h text
    rw [← decidePolicyWithConfig_of_text hs, ← decidePolicyWithConfig_of_text hl, h]
  · intro h plan
    rcases decidePolicyWithConfig_cases hs plan with ⟨hstrict, _⟩ | ⟨hstrict, _⟩
    · rcases decidePolicyWithConfig_cases hl plan with ⟨hloose, _⟩ | ⟨hloose, _⟩
      · rw [hstrict, hloose]
      · obtain ⟨text, hcaught, hmissed⟩ := (exists_relaxed_iff hl hs).mp ⟨plan, hloose, hstrict⟩
        exact absurd ((h text).mpr hcaught) hmissed
    · rcases decidePolicyWithConfig_cases hl plan with ⟨hloose, _⟩ | ⟨hloose, _⟩
      · obtain ⟨text, hcaught, hmissed⟩ := (exists_relaxed_iff hs hl).mp ⟨plan, hstrict, hloose⟩
        exact absurd ((h text).mp hcaught) hmissed
      · rw [hstrict, hloose]

end Relaxed

/-- Between valid configurations there are two flags left: a symbol that is first listed as critical
becomes delegable, or there are fewer sockets. -/
theorem lowers_valid_iff {rx : RegexEngine} {previous config : AdminConfig}
    (h : config.Valid rx) : Lowers previous config ↔
      (∃ entry ∈ config.policy, entry.classification = "delegable" ∧
        ∃ old, previous.policyOf entry.symbol = some old ∧ old.classification = "critical") ∨
      config.sockets.length < previous.sockets.length := by
  constructor
  · intro hlowers
    cases hlowers with
    | wildcard entry hmem hpath hnew => exact absurd hpath (h.noWildcard entry hmem)
    | policy entry hmem old hold hentry =>
      rcases hentry with ⟨hcritical, hdelegable⟩ | ⟨hsymbol, _, hpos⟩
      · exact Or.inl ⟨entry, hmem, hdelegable, old, hold, hcritical⟩
      · have hzero := (h.critical entry hmem hsymbol).2
        omega
    | sockets hfewer => exact Or.inr hfewer
  · intro hflag
    rcases hflag with ⟨entry, hmem, hdelegable, old, hold, hcritical⟩ | hfewer
    · exact .policy entry hmem old hold (Or.inl ⟨hcritical, hdelegable⟩)
    · exact .sockets hfewer

/-- Relaxed criteria are flagged exactly if no text that was caught gets away, or the change is
flagged for something else: the detector does not look at the criteria. -/
theorem relaxed_criteria_flagged_iff (rx : ShippedRegex) (previous config : AdminConfig)
    (hprevious : previous.validate rx.toRegexEngine = .ok ())
    (hconfig : config.validate rx.toRegexEngine = .ok ()) :
    ((∃ plan,
        decidePolicyWithConfig rx.toRegexEngine plan previous.toCriteriaConfig =
          some .nonDelegable ∧
        decidePolicyWithConfig rx.toRegexEngine plan config.toCriteriaConfig = some .delegable) →
      config.isSecurityLoweringChange previous = true) ↔
    (∀ text, previous.Catches rx.toRegexEngine (scanText text) →
      config.Catches rx.toRegexEngine (scanText text)) ∨
    (∃ entry ∈ config.policy, entry.classification = "delegable" ∧
      ∃ old, previous.policyOf entry.symbol = some old ∧ old.classification = "critical") ∨
    config.sockets.length < previous.sockets.length := by
  have hvalid := validate_eq_ok_iff.mp hconfig
  have hrelaxed := exists_relaxed_iff
    (toCriteriaConfig_compilable (validate_eq_ok_iff.mp hprevious))
    (toCriteriaConfig_compilable hvalid)
  rw [isSecurityLoweringChange_iff, hrelaxed, lowers_valid_iff hvalid]
  simp only [triggers_toCriteriaConfig]
  constructor
  · intro hflagged
    by_cases hcaught : ∀ text, previous.Catches rx.toRegexEngine (scanText text) →
        config.Catches rx.toRegexEngine (scanText text)
    · exact Or.inl hcaught
    · simp only [not_forall] at hcaught
      obtain ⟨text, hbefore, hafter⟩ := hcaught
      exact Or.inr (hflagged ⟨text, hbefore, hafter⟩)
  · intro h hsome
    rcases h with hcaught | hflag
    · obtain ⟨text, hbefore, hafter⟩ := hsome
      exact absurd (hcaught text hbefore) hafter
    · exact hflag

/-- The secrets are given up together with a socket. -/
theorem relaxed_with_socket_flagged :
    let socket : SocketDefinition := ⟨"gatekeeper", "/run/ai-bridge/gatekeeper.sock", "0600"⟩
    let previous : AdminConfig := { AdminConfig.empty with sockets := [socket] }
    let config : AdminConfig := { AdminConfig.empty with criteria := [⟨"secrets", []⟩] }
    (∃ plan,
        decidePolicyWithConfig plainRegex.toRegexEngine plan previous.toCriteriaConfig =
          some .nonDelegable ∧
        decidePolicyWithConfig plainRegex.toRegexEngine plan config.toCriteriaConfig =
          some .delegable) →
      config.isSecurityLoweringChange previous = true :=
  (relaxed_criteria_flagged_iff plainRegex _ _ (by decide +kernel) (by decide +kernel)).mpr
    (Or.inr (Or.inr (by decide)))

/-- Nothing flags that the pattern for passwords is gone. -/
theorem relaxed_secrets_unflagged :
    let config : AdminConfig := { AdminConfig.empty with criteria := [⟨"secrets", []⟩] }
    let plan : ExecutionPlan := ⟨"", "", ["[[AB:OPS.TERM.RUN.LOCAL]] echo password"]⟩
    AdminConfig.empty.validate plainRegex.toRegexEngine = .ok () ∧
      config.validate plainRegex.toRegexEngine = .ok () ∧
      decidePolicyWithConfig plainRegex.toRegexEngine plan AdminConfig.empty.toCriteriaConfig =
        some .nonDelegable ∧
      decidePolicyWithConfig plainRegex.toRegexEngine plan config.toCriteriaConfig =
        some .delegable ∧
      config.isSecurityLoweringChange .empty = false := by
  decide +kernel

end AiBridge
