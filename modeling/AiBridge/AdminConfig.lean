import AiBridge.Checks
import AiBridge.Policy

namespace AiBridge

open Text Checks

structure AllowlistEntry where
  name : String
  path : String
  allowed : Bool
  args : List String
  deriving DecidableEq, Repr

structure SymbolDefinition where
  name : String
  classification : String
  description : String
  deriving DecidableEq, Repr

structure PolicySymbolEntry where
  symbol : String
  classification : String
  autoApproveSeconds : Nat
  deriving DecidableEq, Repr

structure CriteriaPatternSet where
  category : String
  patterns : List String
  deriving DecidableEq, Repr

structure SocketDefinition where
  name : String
  path : String
  permissions : String
  deriving DecidableEq, Repr

structure BranchConfig where
  name : String
  subChatLimit : Nat
  contextEnabled : Bool
  deriving DecidableEq, Repr

structure AdminAuditEntry where
  timestamp : String
  action : String
  summary : String
  oldValue : String
  newValue : String
  deriving DecidableEq, Repr

structure AdminConfig where
  allowlist : List AllowlistEntry
  symbols : List SymbolDefinition
  policy : List PolicySymbolEntry
  criteria : List CriteriaPatternSet
  sockets : List SocketDefinition
  branches : List BranchConfig
  audit : List AdminAuditEntry
  deriving DecidableEq, Repr

inductive PolicyValidationError
  | unsafeAllowlistValue (name : String)
  | criticalSymbolReclassified (symbol : String)
  | criticalSymbolAutoApprove (symbol : String) (seconds : Nat)
  | duplicateAllowlistEntry (name : String)
  | invalidCriteriaRegex (category error : String)
  | invalidSocketPermissions (name permissions : String)
  | duplicateSocket (name : String)
  deriving DecidableEq, Repr

def PolicyValidationError.display : PolicyValidationError → String
  | unsafeAllowlistValue name =>
    "Unsafe allowlist value: wildcard '*' not permitted in path for '" ++ name ++ "'"
  | criticalSymbolReclassified symbol =>
    "Critical symbol '" ++ symbol ++ "' must not be classified as delegable"
  | criticalSymbolAutoApprove symbol seconds =>
    "Critical symbol '" ++ symbol ++ "' must never auto-approve; auto_approve_seconds must be 0 (got " ++
      toString seconds ++ "s)"
  | duplicateAllowlistEntry name =>
    "Duplicate allowlist entry: '" ++ name ++ "' appears more than once"
  | invalidCriteriaRegex category error =>
    "Invalid criteria regex for category '" ++ category ++ "': " ++ error
  | invalidSocketPermissions _ permissions =>
    "Socket permissions must be octal, got '" ++ permissions ++ "'"
  | duplicateSocket name => "Duplicate socket definition: '" ++ name ++ "' appears more than once"

def criticalSymbols : List String :=
  ["CRIT.IRREVERSIBLE", "CRIT.SYS.SECURITY", "CRIT.SECRET", "CRIT.EGRESS", "CRIT.FINANCIAL",
    "CRIT.THIRD.PARTY", "CRIT.UNCLASSIFIED"]

/-- Four bytes, a zero and three ASCII digits. -/
def octalPermissions (permissions : String) : Bool :=
  permissions.utf8ByteSize = 4 && startsWith permissions "0" &&
    permissions.toList.tail.all Char.isDigit

namespace AdminConfig

def empty : AdminConfig := ⟨[], [], [], [], [], [], []⟩

section Validate

variable (rx : RegexEngine) (self : AdminConfig)

def validateAllowlist : Except PolicyValidationError Unit :=
  checkDistinct
    (fun entry => if entry.path = "*" then .error (.unsafeAllowlistValue entry.name) else .ok ())
    AllowlistEntry.name (fun entry => .duplicateAllowlistEntry entry.name) [] self.allowlist

def validateSymbolsAndPolicy : Except PolicyValidationError Unit :=
  checkAll
    (fun entry =>
      if entry.symbol ∈ criticalSymbols ∧ entry.classification = "delegable" then
        .error (.criticalSymbolReclassified entry.symbol)
      else if entry.symbol ∈ criticalSymbols ∧ entry.autoApproveSeconds > 0 then
        .error (.criticalSymbolAutoApprove entry.symbol entry.autoApproveSeconds)
      else .ok ())
    self.policy

def validateCriteria : Except PolicyValidationError Unit :=
  checkAll
    (fun set => checkAll
      (fun pattern =>
        if (rx.new pattern).isNone then .error (.invalidCriteriaRegex set.category pattern)
        else .ok ())
      set.patterns)
    self.criteria

def validateSockets : Except PolicyValidationError Unit :=
  checkDistinct
    (fun sock =>
      if octalPermissions sock.permissions then .ok ()
      else .error (.invalidSocketPermissions sock.name sock.permissions))
    SocketDefinition.name (fun sock => .duplicateSocket sock.name) [] self.sockets

def validate : Except PolicyValidationError Unit := do
  self.validateAllowlist
  self.validateSymbolsAndPolicy
  self.validateCriteria rx
  self.validateSockets

end Validate

/-- `iter().find(..)` on the entries of the policy. -/
def policyOf (self : AdminConfig) (symbol : String) : Option PolicySymbolEntry :=
  self.policy.find? fun entry => entry.symbol = symbol

/-- The test on one entry of the new policy, against the first entry of its symbol. -/
def lowersPolicy (previous : AdminConfig) (policy : PolicySymbolEntry) : Bool :=
  match previous.policyOf policy.symbol with
  | none => false
  | some prev =>
    (prev.classification = "critical" && policy.classification = "delegable") ||
      (decide (policy.symbol ∈ criticalSymbols) && prev.autoApproveSeconds = 0 &&
        policy.autoApproveSeconds > 0)

def isSecurityLoweringChange (self previous : AdminConfig) : Bool :=
  (self.allowlist.any fun entry =>
    entry.path = "*" && !previous.allowlist.any fun e => e.name = entry.name) ||
  self.policy.any (lowersPolicy previous) ||
  decide (self.sockets.length < previous.sockets.length)

/-- One round of `to_criteria_config`: a category that is known takes the patterns of the set. -/
def overrideCategory (config : CriteriaConfig) (set : CriteriaPatternSet) : CriteriaConfig :=
  if set.category = "irreversibility" then { config with irreversibility := set.patterns }
  else if set.category = "system_security" then { config with systemSecurity := set.patterns }
  else if set.category = "secrets" ∨ set.category = "credentials_secrets" then
    { config with credentialsSecrets := set.patterns }
  else if set.category = "exfiltration" ∨ set.category = "data_exfiltration" then
    { config with dataExfiltration := set.patterns }
  else if set.category = "financial" then { config with financial := set.patterns }
  else if set.category = "third_party" then { config with thirdParty := set.patterns }
  else config

def toCriteriaConfig (self : AdminConfig) : CriteriaConfig :=
  self.criteria.foldl overrideCategory .defaultPatterns

/-- What a configuration that passes validation keeps. -/
structure Valid (rx : RegexEngine) (config : AdminConfig) : Prop where
  noWildcard : ∀ entry ∈ config.allowlist, entry.path ≠ "*"
  names : (config.allowlist.map AllowlistEntry.name).Nodup
  critical : ∀ entry ∈ config.policy, entry.symbol ∈ criticalSymbols →
    entry.classification ≠ "delegable" ∧ entry.autoApproveSeconds = 0
  patterns : ∀ set ∈ config.criteria, ∀ pattern ∈ set.patterns, (rx.new pattern).isSome
  permissions : ∀ sock ∈ config.sockets, octalPermissions sock.permissions = true
  sockets : (config.sockets.map SocketDefinition.name).Nodup

variable {rx : RegexEngine} {self : AdminConfig}

theorem validateAllowlist_eq_ok_iff : self.validateAllowlist = .ok () ↔
    (∀ entry ∈ self.allowlist, entry.path ≠ "*") ∧
      (self.allowlist.map AllowlistEntry.name).Nodup := by
  rw [validateAllowlist, checkDistinct_eq_ok_iff]
  simp

theorem validateSymbolsAndPolicy_eq_ok_iff : self.validateSymbolsAndPolicy = .ok () ↔
    ∀ entry ∈ self.policy, entry.symbol ∈ criticalSymbols →
      entry.classification ≠ "delegable" ∧ entry.autoApproveSeconds = 0 := by
  rw [validateSymbolsAndPolicy, checkAll_eq_ok_iff]
  apply forall₂_congr
  intro entry _
  by_cases hcritical : entry.symbol ∈ criticalSymbols
  · by_cases hclass : entry.classification = "delegable"
    · simp [hcritical, hclass]
    · simp [hcritical, hclass, Nat.pos_iff_ne_zero]
  · simp [hcritical]

theorem validateCriteria_eq_ok_iff : self.validateCriteria rx = .ok () ↔
    ∀ set ∈ self.criteria, ∀ pattern ∈ set.patterns, (rx.new pattern).isSome := by
  rw [validateCriteria, checkAll_eq_ok_iff]
  apply forall₂_congr
  intro set _
  rw [checkAll_eq_ok_iff]
  apply forall₂_congr
  intro pattern _
  cases rx.new pattern with
  | none => simp
  | some re => simp

theorem validateSockets_eq_ok_iff : self.validateSockets = .ok () ↔
    (∀ sock ∈ self.sockets, octalPermissions sock.permissions = true) ∧
      (self.sockets.map SocketDefinition.name).Nodup := by
  rw [validateSockets, checkDistinct_eq_ok_iff]
  simp

theorem validate_eq_ok_iff : self.validate rx = .ok () ↔ self.Valid rx := by
  have hchain : self.validate rx = .ok () ↔ self.validateAllowlist = .ok () ∧
      self.validateSymbolsAndPolicy = .ok () ∧ self.validateCriteria rx = .ok () ∧
      self.validateSockets = .ok () := by
    simp only [validate, bind_eq_ok_iff]
    constructor
    · intro h
      obtain ⟨_, hallowlist, _, hpolicy, _, hcriteria, hsockets⟩ := h
      exact ⟨hallowlist, hpolicy, hcriteria, hsockets⟩
    · intro h
      obtain ⟨hallowlist, hpolicy, hcriteria, hsockets⟩ := h
      exact ⟨(), hallowlist, (), hpolicy, (), hcriteria, hsockets⟩
  rw [hchain, validateAllowlist_eq_ok_iff, validateSymbolsAndPolicy_eq_ok_iff,
    validateCriteria_eq_ok_iff, validateSockets_eq_ok_iff]
  constructor
  · intro h
    obtain ⟨⟨hwildcard, hnames⟩, hcritical, hpatterns, hpermissions, hsockets⟩ := h
    exact ⟨hwildcard, hnames, hcritical, hpatterns, hpermissions, hsockets⟩
  · intro h
    exact ⟨⟨h.noWildcard, h.names⟩, h.critical, h.patterns, h.permissions, h.sockets⟩

end AdminConfig

end AiBridge
