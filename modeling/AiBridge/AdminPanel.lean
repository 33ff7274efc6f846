import AiBridge.AdminConfig
import AiBridge.Disk
import AiBridge.Executor
import AiBridge.SerdeJson
import AiBridge.Utf8

namespace AiBridge

open Text

structure ExecAllowlistRow where
  name : String
  path : String
  allowed : Bool
  args : String
  deriving DecidableEq, Repr

namespace ExecAllowlistRow

def fromBinary (entry : BinaryEntry) : ExecAllowlistRow where
  name := entry.name
  path := entry.path.getD ""
  allowed := entry.allowed
  args := String.intercalate ", " entry.args

/-- `split(',')`, trimmed and without empty pieces. -/
def splitArgs (self : ExecAllowlistRow) : List String :=
  ((self.args.toList.splitOn ',').map fun s => trim (String.ofList s)).filter (· ≠ "")

def toBinary (self : ExecAllowlistRow) : BinaryEntry where
  name := self.name
  allowed := self.allowed
  path := if self.path = "" then none else some self.path
  args := self.splitArgs

end ExecAllowlistRow

structure SymbolPolicyRow where
  name : String
  description : String
  classification : String
  autoApproveSeconds : Nat
  deriving DecidableEq, Repr

structure CriteriaRow where
  category : String
  patternsText : String
  deriving DecidableEq, Repr

/-- What `lines` does at the end of a line or of the text, `trim` and the filter do anyway. -/
def CriteriaRow.toPatternSet (self : CriteriaRow) : CriteriaPatternSet where
  category := self.category
  patterns :=
    ((self.patternsText.toList.splitOn '\n').map fun l => trim (String.ofList l)).filter (· ≠ "")

structure SocketRow where
  name : String
  path : String
  permissions : String
  deriving DecidableEq, Repr

structure BranchRow where
  name : String
  subChatLimit : Nat
  contextEnabled : Bool
  deriving DecidableEq, Repr

/-- The tabs with a file of their own. -/
inductive AdminTab
  | allowlist
  | symbols
  | criteria
  | sockets
  | branches
  deriving DecidableEq, Repr

structure ConfirmDialog where
  message : String
  action : String
  deriving DecidableEq, Repr

/-- The save that a dialog stands for. -/
def ConfirmDialog.tab (dialog : ConfirmDialog) : Option AdminTab :=
  if dialog.action = "save_exec" then some .allowlist
  else if dialog.action = "save_symbol_policy" then some .symbols
  else if dialog.action = "save_criteria" then some .criteria
  else if dialog.action = "save_sockets" then some .sockets
  else if dialog.action = "save_branches" then some .branches
  else none

structure AuditEntry where
  timestamp : String
  operator : String
  changedFile : String
  action : String
  oldValue : String
  newValue : String
  securityLowering : Bool
  deriving DecidableEq, Repr

def AuditEntry.toJson (entry : AuditEntry) : Json :=
  .obj [("timestamp", .str entry.timestamp), ("operator", .str entry.operator),
    ("changed_file", .str entry.changedFile), ("action", .str entry.action),
    ("old_value", .str entry.oldValue), ("new_value", .str entry.newValue),
    ("security_lowering", .bool entry.securityLowering)]

structure PanelRows where
  execAllowlist : List ExecAllowlistRow
  symbolPolicy : List SymbolPolicyRow
  criteria : List CriteriaRow
  sockets : List SocketRow
  branches : List BranchRow
  deriving DecidableEq, Repr

structure AdminPanel extends PanelRows where
  configRoot : String
  dirty : AdminTab → Bool
  testCommand : String
  auditEntries : List AuditEntry
  statusMessage : String
  confirmDialog : Option ConfirmDialog

/-- The `toml` crate on the two kinds of files. An allowlist is read as it was written. -/
structure Toml where
  allowlistToString : AllowlistConfig → Except String String
  allowlistFromStr : String → Except String AllowlistConfig
  adminToString : AdminConfig → Except String String
  adminFromStr : String → Except String AdminConfig
  allowlist_round : ∀ {config raw}, allowlistToString config = .ok raw →
    allowlistFromStr raw = .ok config

/-- The crates that the panel is built with, and the directory of its manifest. -/
structure Libraries where
  rx : ShippedRegex
  toml : Toml
  json : SerdeJson
  manifestDir : String

/-- What a save meets: the environment and the clocks, whether a file cannot be read for a
comparison and for its old value, and what goes wrong where it writes. -/
structure Circumstances where
  user : Option String
  username : Option String
  timestamp : String
  seconds : Nat
  year : Nat
  month : Nat
  incomparable : Bool
  unreadable : Bool
  backup : Option (Disk.Fault IoError)
  createDir : Option IoError
  write : Option (Disk.Fault IoError)
  auditDir : Option IoError
  append : Option (Disk.Fault IoError)
  deriving DecidableEq, Repr

abbrev FileSystem : Type := Disk String UInt8

/-- `fs::read_to_string(..).ok()`. -/
def FileSystem.readToString (disk : FileSystem) (unreadable : Bool) (path : String) : Option String :=
  if unreadable then none else (disk.files path).bind fromUtf8

/-- The stem of a file with its extension is its name. -/
def backupName (file : String) (seconds : Nat) : String :=
  file ++ (".bak." ++ toString seconds)

/-- The path of a file is that of its directory with its name. -/
def backupConfig (circ : Circumstances) (dir file : String) (disk : FileSystem) :
    FileSystem × Except IoError Unit :=
  match disk.files (ExecutorAllowlist.join dir file) with
  | none => (disk, .ok ())
  | some bytes =>
    disk.write circ.backup (ExecutorAllowlist.join dir (backupName file circ.seconds)) bytes

def writeWithBackup (circ : Circumstances) (dir file contents : String) (disk : FileSystem) :
    FileSystem × Except IoError Unit :=
  match backupConfig circ dir file disk with
  | (disk, .error e) => (disk, .error e)
  | (disk, .ok ()) =>
    match circ.createDir with
    | some e => (disk, .error e)
    | none => disk.write circ.write (ExecutorAllowlist.join dir file) (utf8 contents)

def zeroPadded (width n : Nat) : String :=
  String.ofList (List.replicate (width - (toString n).length) '0') ++ toString n

namespace AuditLog

def currentMonthFilename (circ : Circumstances) : String :=
  "audit-" ++ (zeroPadded 4 circ.year ++ ("-" ++ (zeroPadded 2 circ.month ++ ".jsonl")))

/-- The bytes of an entry and its newline. -/
def line (json : SerdeJson) (entry : AuditEntry) : List UInt8 :=
  utf8 (json.toString entry.toJson ++ "\n")

def append (json : SerdeJson) (circ : Circumstances) (dir : String) (entry : AuditEntry)
    (disk : FileSystem) : FileSystem × Except IoError Unit :=
  match circ.auditDir with
  | some e => (disk, .error e)
  | none =>
    disk.append circ.append (ExecutorAllowlist.join dir (currentMonthFilename circ))
      (line json entry)

end AuditLog

/-- `build_admin_config_from_rows`, with the rows of the panel in one structure. -/
def buildAdminConfigFromRows (rows : PanelRows) : AdminConfig where
  allowlist := rows.execAllowlist.map fun r => ⟨r.name, r.path, r.allowed, r.splitArgs⟩
  symbols := rows.symbolPolicy.map fun r => ⟨r.name, r.classification, r.description⟩
  policy := rows.symbolPolicy.map fun r => ⟨r.name, r.classification, r.autoApproveSeconds⟩
  criteria := rows.criteria.map CriteriaRow.toPatternSet
  sockets := rows.sockets.map fun r => ⟨r.name, r.path, r.permissions⟩
  branches := rows.branches.map fun r => ⟨r.name, r.subChatLimit, r.contextEnabled⟩
  audit := []

/-- The rows of one tab alone. -/
def PanelRows.only (rows : PanelRows) : AdminTab → PanelRows
  | .allowlist => ⟨rows.execAllowlist, [], [], [], []⟩
  | .symbols => ⟨[], rows.symbolPolicy, [], [], []⟩
  | .criteria => ⟨[], [], rows.criteria, [], []⟩
  | .sockets => ⟨[], [], [], rows.sockets, []⟩
  | .branches => ⟨[], [], [], [], rows.branches⟩

/-- The panel and the files it works on. -/
structure Desk where
  panel : AdminPanel
  disk : FileSystem

namespace Desk

/-- Only the status bar changes. -/
def status (self : Desk) (message : String) : Desk :=
  { self with panel := { self.panel with statusMessage := message } }

variable (lib : Libraries) (circ : Circumstances) (self : Desk)

def configPath (file : String) : String := ExecutorAllowlist.join self.panel.configRoot file

def auditDir : String := ExecutorAllowlist.join self.panel.configRoot "audit"

def auditPath : String :=
  ExecutorAllowlist.join self.auditDir (AuditLog.currentMonthFilename circ)

def auditEntry (action file oldValue newValue : String) : AuditEntry where
  timestamp := circ.timestamp
  operator := (circ.user <|> circ.username).getD "admin"
  changedFile := file
  action := action
  oldValue := oldValue
  newValue := newValue
  securityLowering := false

def recordAudit (action file oldValue newValue : String) : Desk :=
  let entry := auditEntry circ action file oldValue newValue
  { panel := { self.panel with auditEntries := self.panel.auditEntries ++ [entry] }
    disk := (AuditLog.append lib.json circ self.auditDir entry self.disk).1 }

/-- The steps of a save: `check` is the validation, `raw` the serialised rows. -/
def saveTab (tab : AdminTab) (file action saved : String)
    (check : Except PolicyValidationError Unit) (raw : Except String String) : Desk :=
  let oldValue := (FileSystem.readToString self.disk circ.unreadable (self.configPath file)).getD ""
  match check with
  | .error e => self.status ("Validation failed: " ++ e.display)
  | .ok () =>
    match raw with
    | .error e => self.status ("Serialize error: " ++ e)
    | .ok raw =>
      match writeWithBackup circ self.panel.configRoot file raw self.disk with
      | (disk, .error e) => { self with disk }.status ("Save failed: " ++ e.message)
      | (disk, .ok ()) =>
        let panel :=
          { self.panel with dirty := Function.update self.panel.dirty tab false
                            statusMessage := saved }
        recordAudit lib circ ⟨panel, disk⟩ action file oldValue raw

/-- Unlike the rows of symbols, criteria and sockets, those of the allowlist are not validated. -/
def saveExecAllowlist : Desk :=
  let config : AllowlistConfig := ⟨self.panel.execAllowlist.map ExecAllowlistRow.toBinary⟩
  saveTab lib circ self .allowlist "executor_allowlist.toml" "allowlist.save"
    "Executor allowlist saved." (.ok ())
    ((lib.toml.allowlistToString config).mapError
      fun e => "failed to serialize allowlist TOML: " ++ e)

def saveSymbolPolicy : Desk :=
  let config : AdminConfig :=
    { AdminConfig.empty with
      symbols := self.panel.symbolPolicy.map fun row =>
        ⟨row.name, row.classification, row.description⟩
      policy := self.panel.symbolPolicy.map fun row =>
        ⟨row.name, row.classification, row.autoApproveSeconds⟩ }
  saveTab lib circ self .symbols "symbol_policy.toml" "symbol_policy.save"
    "Symbol policy saved. Daemon restart required." (config.validate lib.rx.toRegexEngine)
    (lib.toml.adminToString config)

def saveCriteria : Desk :=
  let config : AdminConfig :=
    { AdminConfig.empty with criteria := self.panel.criteria.map CriteriaRow.toPatternSet }
  saveTab lib circ self .criteria "criteria.toml" "criteria.save"
    "Criteria patterns saved. Daemon restart required." (config.validate lib.rx.toRegexEngine)
    (lib.toml.adminToString config)

def saveSockets : Desk :=
  let config : AdminConfig :=
    { AdminConfig.empty with
      sockets := self.panel.sockets.map fun row => ⟨row.name, row.path, row.permissions⟩ }
  saveTab lib circ self .sockets "sockets.toml" "sockets.save"
    "Sockets config saved. Daemon restart required." (config.validate lib.rx.toRegexEngine)
    (lib.toml.adminToString config)

def saveBranches : Desk :=
  let config : AdminConfig :=
    { AdminConfig.empty with
      branches := self.panel.branches.map fun row =>
        ⟨row.name, row.subChatLimit, row.contextEnabled⟩ }
  saveTab lib circ self .branches "branches.toml" "branches.save"
    "Branch config saved. Daemon restart required." (.ok ()) (lib.toml.adminToString config)

def save : AdminTab → Desk
  | .allowlist => saveExecAllowlist lib circ self
  | .symbols => saveSymbolPolicy lib circ self
  | .criteria => saveCriteria lib circ self
  | .sockets => saveSockets lib circ self
  | .branches => saveBranches lib circ self

/-- `find_file`, with the configuration of the workspace behind that of the user. -/
def findFile (file : String) : String :=
  let userPath := self.configPath file
  if (self.disk.files userPath).isSome then userPath
  else ExecutorAllowlist.join (ExecutorAllowlist.join lib.manifestDir "../../config") file

/-- The comparison with the file that is found, if it can be read and parsed. -/
def lowersFound (file : String) (newCfg : AdminConfig) : Bool :=
  match (FileSystem.readToString self.disk circ.incomparable (self.findFile lib file)).map
      lib.toml.adminFromStr with
  | some (.ok prev) => newCfg.isSecurityLoweringChange prev
  | _ => false

/-- The question that a click on the save button of a tab leads to. -/
def question : AdminTab → Option ConfirmDialog
  | .symbols =>
    let newCfg := buildAdminConfigFromRows (self.panel.only .symbols)
    if newCfg.validate lib.rx.toRegexEngine ≠ .ok () then none
    else if lowersFound lib circ self "symbol_policy.toml" newCfg then
      some ⟨"This change lowers the security posture (e.g. reclassifying a critical symbol or " ++
        "enabling auto-approval for critical symbols). Are you sure you want to proceed? This " ++
        "will be recorded in the audit log.", "save_symbol_policy"⟩
    else none
  | .sockets =>
    let newCfg := buildAdminConfigFromRows (self.panel.only .sockets)
    if lowersFound lib circ self "sockets.toml" newCfg then
      some ⟨"This change removes a socket definition, which may reduce the monitored attack " ++
        "surface. Proceed?", "save_sockets"⟩
    else none
  | _ => none

/-- A save button works where its tab is dirty and no dialog is open. -/
def saveEnabled (tab : AdminTab) : Bool :=
  self.panel.dirty tab && self.panel.confirmDialog.isNone

def clickSave (tab : AdminTab) : Desk :=
  if self.saveEnabled tab then
    match question lib circ self tab with
    | some dialog => { self with panel := { self.panel with confirmDialog := some dialog } }
    | none => save lib circ self tab
  else self

def dismissed : Desk := { self with panel := { self.panel with confirmDialog := none } }

def clickConfirm : Desk :=
  match self.panel.confirmDialog with
  | none => self
  | some dialog =>
    match dialog.tab with
    | some tab => save lib circ self.dismissed tab
    | none => self.dismissed

def clickCancel : Desk :=
  match self.panel.confirmDialog with
  | none => self
  | some _ => self.dismissed.status "Change cancelled."

/-- The live test of a command against the criteria as they are typed. -/
def runTestCommand : Option (Option CriteriaSummary) :=
  if trim self.panel.testCommand = "" then none
  else
    let config : AdminConfig :=
      { AdminConfig.empty with criteria := self.panel.criteria.map CriteriaRow.toPatternSet }
    let plan : ExecutionPlan := ⟨"test", "UI live test", [self.panel.testCommand]⟩
    some (evaluateCriteriaWithConfig lib.rx.toRegexEngine plan config.toCriteriaConfig)

end Desk

/-- What happens to the panel. Edits and reloads show other rows with any marks; other programs
leave any files. -/
inductive PanelAction
  | typed (rows : PanelRows) (dirty : AdminTab → Bool)
  | outside (disk : FileSystem)
  | save (circ : Circumstances) (tab : AdminTab)
  | confirm (circ : Circumstances)
  | cancel

def Desk.step (lib : Libraries) (self : Desk) : PanelAction → Desk
  | .typed rows dirty => { self with panel := { self.panel with toPanelRows := rows, dirty } }
  | .outside disk => { self with disk }
  | .save circ tab => clickSave lib circ self tab
  | .confirm circ => clickConfirm lib circ self
  | .cancel => self.clickCancel

end AiBridge
