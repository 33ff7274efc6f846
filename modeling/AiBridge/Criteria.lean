import AiBridge.Protocol

namespace AiBridge

open Text

/-- The `regex` crate: a pattern that compiles gives a test on texts. -/
structure RegexEngine where
  new : String → Option (String → Bool)

structure CriteriaConfig where
  irreversibility : List String
  systemSecurity : List String
  credentialsSecrets : List String
  dataExfiltration : List String
  financial : List String
  thirdParty : List String
  deriving DecidableEq, Repr

namespace CriteriaConfig

def defaultPatterns : CriteriaConfig where
  irreversibility :=
    ["permanent delete", "overwrite backup", "overwrite backups", "delete backup",
      "delete backups", "rm -rf /", "rm -rf --no-preserve-root /", "sudo rm -rf /",
      "rm -rf /var/backups", "rm -rf /home", "rm -rf /tmp", "rm -rf /usr", "rm -rf /etc",
      "dd if=/dev/zero", "dd if = /dev/zero", "wipefs", "mkfs"]
  systemSecurity :=
    ["sudoers", "/etc/sudoers", "iptables", "ufw", "firewall",
      "chmod\\s+\\d+\\s+.*(/etc|/usr|/bin|/sbin|/opt)", "chown\\s+.*(root|sudo)",
      "useradd|usermod|passwd", "systemctl\\s+(stop|disable|restart)"]
  credentialsSecrets :=
    ["password", "passwd", "ssh\\s+-i", "id_rsa", "api[_ -]?token", "authorization: bearer",
      "secret", "private[_ -]?key", "aws secret access key"]
  dataExfiltration :=
    ["curl\\s+.*(\\|\\s*sh|--upload|--data|--form)", "scp\\s+", "rsync\\s+.*(ssh|remote)",
      "git\\s+push", "mail\\s+-s", "sendmail", "email.*(send|attach)",
      "upload.*(file|archive|logs)"]
  financial :=
    ["transfer.*money", "bank", "wire transfer", "paypal", "stripe", "invoice", "charge",
      "payment", "currency"]
  thirdParty :=
    ["post\\s+.*(tweet|message|announcement|comment)", "twitter", "x\\.com", "discord", "slack",
      "linkedin", "facebook", "reddit", "telegram"]

/-- The patterns that are read as regular expressions; irreversibility markers are not. -/
def scanned (config : CriteriaConfig) : List String :=
  config.systemSecurity ++ config.credentialsSecrets ++ config.dataExfiltration ++
    config.financial ++ config.thirdParty

/-- Every scanned pattern compiles. -/
def Compilable (rx : RegexEngine) (config : CriteriaConfig) : Prop :=
  ∀ pattern ∈ config.scanned, (rx.new pattern).isSome

end CriteriaConfig

inductive Criterion
  | irreversibility
  | systemSecurity
  | credentialsSecrets
  | dataExfiltration
  | financial
  | thirdPartyImpact
  deriving DecidableEq, Repr

def Criterion.label : Criterion → String
  | irreversibility => "Irreversibility"
  | systemSecurity => "SystemSecurity"
  | credentialsSecrets => "CredentialsSecrets"
  | dataExfiltration => "DataExfiltration"
  | financial => "Financial"
  | thirdPartyImpact => "ThirdPartyImpact"

inductive EvaluationStatus
  | delegable
  | nonDelegable
  deriving DecidableEq, Repr

structure CriteriaSummary where
  triggered : List Criterion
  status : EvaluationStatus
  deriving DecidableEq, Repr

variable (rx : RegexEngine)

/-- `none` is the panic of `Regex::new(pattern).unwrap()`. -/
def containsPattern (text pattern : String) : Option Bool :=
  (rx.new pattern).map fun re => re text

/-- `patterns.iter().any(..)`: patterns behind the first match are never compiled. -/
def anyPattern (text : String) : List String → Option Bool
  | [] => some false
  | pattern :: patterns =>
    match containsPattern rx text pattern with
    | none => none
    | some true => some true
    | some false => anyPattern text patterns

def irreversibleText (lower : String) (config : CriteriaConfig) : Bool :=
  (config.irreversibility.any fun marker => contains lower marker) ||
    (contains lower "rm -rf" &&
      (contains lower "backup" || contains lower "/var" || contains lower "/home" ||
        contains lower "/tmp" || contains lower "/etc" || contains lower "/usr")) ||
    (contains lower "dd" && contains lower "/dev/zero" &&
      (contains lower "of=" || contains lower "disk" || contains lower "sd" ||
        contains lower "nvme"))

def evaluateTextCommand (command : String) (config : CriteriaConfig) : Option CriteriaSummary := do
  let lower := toAsciiLowercase (trim command)
  let irreversible := irreversibleText lower config
  let systemSecurity ← anyPattern rx lower config.systemSecurity
  let credentialsSecrets ← anyPattern rx lower config.credentialsSecrets
  let dataExfiltration ← anyPattern rx lower config.dataExfiltration
  let financial ← anyPattern rx lower config.financial
  let thirdParty ← anyPattern rx lower config.thirdParty
  let triggered :=
    (if irreversible then [Criterion.irreversibility] else []) ++
    (if systemSecurity then [Criterion.systemSecurity] else []) ++
    (if credentialsSecrets then [Criterion.credentialsSecrets] else []) ++
    (if dataExfiltration then [Criterion.dataExfiltration] else []) ++
    (if financial then [Criterion.financial] else []) ++
    (if thirdParty then [Criterion.thirdPartyImpact] else [])
  some ⟨triggered, if triggered.isEmpty then .delegable else .nonDelegable⟩

/-- The loop over the commands, with the criteria and the status gathered so far. -/
def evaluateCommands (config : CriteriaConfig) :
    List String → List Criterion → EvaluationStatus → Option CriteriaSummary
  | [], triggered, status => some ⟨triggered, status⟩
  | command :: commands, triggered, status =>
    let (symbol, remainingCommand) := Symbol.extractFromCommand command
    match evaluateTextCommand rx remainingCommand config with
    | none => none
    | some textSummary =>
      let hasValidTag :=
        startsWith (trimStart command) "[[AB:" && decide (symbol ≠ .critUnclassified)
      if !hasValidTag then evaluateCommands config commands triggered .nonDelegable
      else
        let symbolStatus : EvaluationStatus :=
          match symbol.classification with
          | .delegable => .delegable
          | .critical => .nonDelegable
        let status :=
          if symbolStatus = .nonDelegable ∨ textSummary.status = .nonDelegable then .nonDelegable
          else status
        let triggered := textSummary.triggered.foldl
          (fun known criterion => if criterion ∈ known then known else known ++ [criterion])
          triggered
        evaluateCommands config commands triggered status

def evaluateCriteriaWithConfig (plan : ExecutionPlan) (config : CriteriaConfig) :
    Option CriteriaSummary :=
  evaluateCommands rx config plan.commands [] .delegable

variable {rx}

theorem anyPattern_isSome {text : String} {patterns : List String}
    (h : ∀ pattern ∈ patterns, (rx.new pattern).isSome) :
    (anyPattern rx text patterns).isSome := by
  induction patterns with
  | nil => rfl
  | cons pattern patterns ih =>
    obtain ⟨re, hre⟩ := Option.isSome_iff_exists.mp (h pattern (by simp))
    have hrest := ih fun p hp => h p (List.mem_cons_of_mem _ hp)
    simp only [anyPattern, containsPattern, hre, Option.map_some]
    cases re text with
    | true => rfl
    | false => exact hrest

theorem evaluateTextCommand_isSome {config : CriteriaConfig} (hc : config.Compilable rx)
    (command : String) : (evaluateTextCommand rx command config).isSome := by
  have hany : ∀ patterns, (∀ p ∈ patterns, p ∈ config.scanned) →
      ∃ b, anyPattern rx (toAsciiLowercase (trim command)) patterns = some b :=
    fun patterns hp => Option.isSome_iff_exists.mp
      (anyPattern_isSome fun p hmem => hc p (hp p hmem))
  obtain ⟨_, h1⟩ := hany config.systemSecurity (by simp +contextual [CriteriaConfig.scanned])
  obtain ⟨_, h2⟩ := hany config.credentialsSecrets (by simp +contextual [CriteriaConfig.scanned])
  obtain ⟨_, h3⟩ := hany config.dataExfiltration (by simp +contextual [CriteriaConfig.scanned])
  obtain ⟨_, h4⟩ := hany config.financial (by simp +contextual [CriteriaConfig.scanned])
  obtain ⟨_, h5⟩ := hany config.thirdParty (by simp +contextual [CriteriaConfig.scanned])
  simp only [evaluateTextCommand, h1, h2, h3, h4, h5, Option.bind_eq_bind, Option.bind_some,
    Option.isSome_some]

theorem evaluateCommands_isSome {config : CriteriaConfig} (hc : config.Compilable rx)
    (commands : List String) (triggered : List Criterion) (status : EvaluationStatus) :
    (evaluateCommands rx config commands triggered status).isSome := by
  induction commands generalizing triggered status with
  | nil => rfl
  | cons command commands ih =>
    obtain ⟨summary, hs⟩ := Option.isSome_iff_exists.mp
      (evaluateTextCommand_isSome hc (Symbol.extractFromCommand command).2)
    simp only [evaluateCommands, hs]
    split
    · exact ih _ _
    · exact ih _ _

end AiBridge
