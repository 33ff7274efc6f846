import AiBridge.AdminPanel

namespace AiBridge

open Text

section Paths

variable {dir a b file : String} {seconds : Nat}

/-- What is joined to a directory stands at the end. -/
theorem join_eq_append (dir : String) :
    ∃ front, ∀ file, ExecutorAllowlist.join dir file = front ++ file := by
  by_cases hend : dir = "" ∨ dir.toList.getLast? = some '/'
  · refine ⟨dir, ?_⟩
    intro file
    rw [ExecutorAllowlist.join, if_pos hend]
  · refine ⟨dir ++ "/", ?_⟩
    intro file
    rw [ExecutorAllowlist.join, if_neg hend]

theorem join_inj : ExecutorAllowlist.join dir a = ExecutorAllowlist.join dir b ↔ a = b := by
  obtain ⟨front, hfront⟩ := join_eq_append dir
  rw [hfront, hfront]
  constructor
  · intro h
    have hlist := congrArg String.toList h
    rw [String.toList_append, String.toList_append] at hlist
    exact String.toList_injective (List.append_cancel_left hlist)
  · intro h
    rw [h]

theorem backupName_ne : backupName file seconds ≠ file := by
  intro h
  have hlist := congrArg String.toList h
  rw [backupName, String.toList_append] at hlist
  have hnone := List.append_right_eq_self.mp hlist
  rw [String.toList_append] at hnone
  have hbak := (List.append_eq_nil_iff.mp hnone).1
  exact absurd hbak (by decide)

end Paths

section Write

variable (circ : Circumstances) (dir file : String) (disk : FileSystem)

/-- The backup of a file that is there is made, and the directory is. -/
def Prepared : Prop :=
  (disk.files (ExecutorAllowlist.join dir file) = none ∨ circ.backup = none) ∧
    circ.createDir = none

instance : Decidable (Prepared circ dir file disk) := by
  unfold Prepared
  infer_instance

def backupPlaces : List String :=
  if disk.files (ExecutorAllowlist.join dir file) = none then []
  else Disk.Fault.places circ.backup
    (ExecutorAllowlist.join dir (backupName file circ.seconds))

/-- The files that `write_with_backup` opens. -/
def writePlaces : List String :=
  backupPlaces circ dir file disk ++
    if Prepared circ dir file disk then
      Disk.Fault.places circ.write (ExecutorAllowlist.join dir file)
    else []

variable {circ dir file disk} {contents : String}

theorem touches_backupConfig :
    Disk.Touches disk (backupConfig circ dir file disk).1 (backupPlaces circ dir file disk) := by
  unfold backupConfig backupPlaces
  cases disk.files (ExecutorAllowlist.join dir file) with
  | none => exact Disk.Touches.refl disk
  | some bytes => exact Disk.touches_put

theorem backupConfig_eq_ok_iff : (backupConfig circ dir file disk).2 = .ok () ↔
    disk.files (ExecutorAllowlist.join dir file) = none ∨ circ.backup = none := by
  unfold backupConfig
  cases disk.files (ExecutorAllowlist.join dir file) with
  | none => simp
  | some bytes => simp [Disk.write, Disk.put_snd_eq_ok_iff]

theorem writeWithBackup_of_prepared (h : Prepared circ dir file disk) :
    writeWithBackup circ dir file contents disk =
      (backupConfig circ dir file disk).1.write circ.write (ExecutorAllowlist.join dir file)
        (utf8 contents) := by
  have hbackup := backupConfig_eq_ok_iff.mpr h.1
  unfold writeWithBackup
  cases hresult : backupConfig circ dir file disk with
  | mk disk' result =>
    rw [hresult] at hbackup
    have hok : result = .ok () := hbackup
    rw [hok, h.2]

theorem writeWithBackup_of_unprepared (h : ¬Prepared circ dir file disk) :
    (writeWithBackup circ dir file contents disk).1 = (backupConfig circ dir file disk).1 ∧
      ∃ e, (writeWithBackup circ dir file contents disk).2 = .error e := by
  unfold writeWithBackup
  cases hresult : backupConfig circ dir file disk with
  | mk disk' result =>
    cases result with
    | error e => exact ⟨rfl, e, rfl⟩
    | ok u =>
      cases hdir : circ.createDir with
      | some e => exact ⟨rfl, e, rfl⟩
      | none =>
        have hok : (backupConfig circ dir file disk).2 = .ok () := by rw [hresult]
        exact absurd ⟨backupConfig_eq_ok_iff.mp hok, hdir⟩ h

theorem touches_writeWithBackup :
    Disk.Touches disk (writeWithBackup circ dir file contents disk).1
      (writePlaces circ dir file disk) := by
  unfold writePlaces
  by_cases hprepared : Prepared circ dir file disk
  · rw [writeWithBackup_of_prepared hprepared, if_pos hprepared]
    exact touches_backupConfig.trans Disk.touches_put
  · rw [(writeWithBackup_of_unprepared hprepared).1, if_neg hprepared, List.append_nil]
    exact touches_backupConfig

/-- A save goes through if the file is prepared and takes all the bytes. -/
theorem writeWithBackup_snd_eq_ok_iff : (writeWithBackup circ dir file contents disk).2 = .ok () ↔
    Prepared circ dir file disk ∧ circ.write = none := by
  by_cases hprepared : Prepared circ dir file disk
  · rw [writeWithBackup_of_prepared hprepared, Disk.write, Disk.put_snd_eq_ok_iff]
    simp [hprepared]
  · obtain ⟨e, he⟩ := (writeWithBackup_of_unprepared hprepared).2
    rw [he]
    simp [hprepared]

theorem files_writeWithBackup (hprepared : Prepared circ dir file disk)
    (hwrite : circ.write = none) :
    (writeWithBackup circ dir file contents disk).1.files (ExecutorAllowlist.join dir file) =
      some (utf8 contents) := by
  rw [writeWithBackup_of_prepared hprepared, hwrite, Disk.write, Disk.put_none, List.nil_append]
  exact Disk.files_store_self

theorem not_mem_backupPlaces :
    ExecutorAllowlist.join dir file ∉ backupPlaces circ dir file disk := by
  have hne : ExecutorAllowlist.join dir file ≠
      ExecutorAllowlist.join dir (backupName file circ.seconds) := by
    rw [Ne, join_inj]
    exact fun h => backupName_ne h.symm
  unfold backupPlaces
  split
  next => exact List.not_mem_nil
  next => exact fun h => hne (Disk.Fault.eq_of_mem_places h)

/-- The file of a tab is opened if it is prepared and the system does not refuse. -/
theorem mem_writePlaces_iff : ExecutorAllowlist.join dir file ∈ writePlaces circ dir file disk ↔
    Prepared circ dir file disk ∧ ∀ e, circ.write ≠ some (.refused e) := by
  rw [writePlaces, List.mem_append]
  have hbackup : ExecutorAllowlist.join dir file ∉ backupPlaces circ dir file disk :=
    not_mem_backupPlaces
  by_cases hprepared : Prepared circ dir file disk
  · rw [if_pos hprepared]
    cases circ.write with
    | none => simp [Disk.Fault.places, hprepared]
    | some fault => cases fault <;> simp [Disk.Fault.places, hprepared, hbackup]
  · rw [if_neg hprepared]
    simp [hprepared, hbackup]

/-- The first thing a save does to the files is refused: the backup of a file that is there, or else
the directory or the file itself. -/
def Blocked (circ : Circumstances) (dir file : String) (disk : FileSystem) : Prop :=
  if disk.files (ExecutorAllowlist.join dir file) = none then
    circ.createDir ≠ none ∨ ∃ e, circ.write = some (.refused e)
  else ∃ e, circ.backup = some (.refused e)

theorem writePlaces_eq_nil_iff :
    writePlaces circ dir file disk = [] ↔ Blocked circ dir file disk := by
  unfold writePlaces Blocked backupPlaces Prepared
  by_cases hnew : disk.files (ExecutorAllowlist.join dir file) = none
  · simp only [hnew, true_or, true_and, if_true, List.nil_append]
    by_cases hdir : circ.createDir = none
    · rw [if_pos hdir]
      cases circ.write with
      | none => simp [Disk.Fault.places, hdir]
      | some fault => cases fault <;> simp [Disk.Fault.places, hdir]
    · simp [hdir]
  · simp only [hnew, if_false, false_or, List.append_eq_nil_iff]
    cases hbackup : circ.backup with
    | none => simp [Disk.Fault.places]
    | some fault => cases fault <;> simp [Disk.Fault.places]

end Write

namespace AdminTab

def file : AdminTab → String
  | .allowlist => "executor_allowlist.toml"
  | .symbols => "symbol_policy.toml"
  | .criteria => "criteria.toml"
  | .sockets => "sockets.toml"
  | .branches => "branches.toml"

def auditAction : AdminTab → String
  | .allowlist => "allowlist.save"
  | .symbols => "symbol_policy.save"
  | .criteria => "criteria.save"
  | .sockets => "sockets.save"
  | .branches => "branches.save"

def savedMessage : AdminTab → String
  | .allowlist => "Executor allowlist saved."
  | .symbols => "Symbol policy saved. Daemon restart required."
  | .criteria => "Criteria patterns saved. Daemon restart required."
  | .sockets => "Sockets config saved. Daemon restart required."
  | .branches => "Branch config saved. Daemon restart required."

end AdminTab

namespace Desk

/-- The configuration that the rows of a tab stand for. -/
def typed (self : Desk) (tab : AdminTab) : AdminConfig :=
  buildAdminConfigFromRows (self.panel.only tab)

def check (lib : Libraries) (self : Desk) : AdminTab → Except PolicyValidationError Unit
  | .allowlist => .ok ()
  | .branches => .ok ()
  | tab => (self.typed tab).validate lib.rx.toRegexEngine

def raw (lib : Libraries) (self : Desk) : AdminTab → Except String String
  | .allowlist =>
    (lib.toml.allowlistToString
        ⟨self.panel.execAllowlist.map ExecAllowlistRow.toBinary⟩).mapError
      fun e => "failed to serialize allowlist TOML: " ++ e
  | tab => lib.toml.adminToString (self.typed tab)

variable {lib : Libraries} {circ : Circumstances} {self : Desk} {tab : AdminTab}

/-- The five saves differ in the rows they save and in whether these are validated. -/
theorem save_eq : save lib circ self tab =
    saveTab lib circ self tab tab.file tab.auditAction tab.savedMessage (self.check lib tab)
      (self.raw lib tab) := by
  cases tab <;> rfl

/-- The places an entry of the audit log is put. -/
def auditPlaces (circ : Circumstances) (self : Desk) : List String :=
  if circ.auditDir = none then Disk.Fault.places circ.append (self.auditPath circ) else []

theorem touches_recordAudit {action file oldValue newValue : String} :
    Disk.Touches self.disk (recordAudit lib circ self action file oldValue newValue).disk
      (self.auditPlaces circ) := by
  unfold recordAudit AuditLog.append auditPlaces
  cases circ.auditDir with
  | none => exact Disk.touches_put
  | some e => exact Disk.Touches.refl self.disk

/-- The text that is recorded as the old value. -/
def oldValue (circ : Circumstances) (self : Desk) (tab : AdminTab) : String :=
  (FileSystem.readToString self.disk circ.unreadable (self.configPath tab.file)).getD ""

/-- The panel after a save that went through, before it is recorded. -/
def written (circ : Circumstances) (self : Desk) (tab : AdminTab) (text : String) : Desk where
  panel :=
    { self.panel with dirty := Function.update self.panel.dirty tab false
                      statusMessage := tab.savedMessage }
  disk := (writeWithBackup circ self.panel.configRoot tab.file text self.disk).1

theorem save_of_invalid {e : PolicyValidationError} (hcheck : self.check lib tab = .error e) :
    save lib circ self tab = self.status ("Validation failed: " ++ e.display) := by
  rw [save_eq, hcheck]
  rfl

theorem save_of_unserialised {e : String} (hcheck : self.check lib tab = .ok ())
    (hraw : self.raw lib tab = .error e) :
    save lib circ self tab = self.status ("Serialize error: " ++ e) := by
  rw [save_eq, hcheck, hraw]
  rfl

theorem save_of_failed {text : String} {e : IoError} (hcheck : self.check lib tab = .ok ())
    (hraw : self.raw lib tab = .ok text)
    (hwrite : (writeWithBackup circ self.panel.configRoot tab.file text self.disk).2 = .error e) :
    save lib circ self tab =
      (Desk.mk self.panel
        (writeWithBackup circ self.panel.configRoot tab.file text self.disk).1).status
          ("Save failed: " ++ e.message) := by
  rw [save_eq, hcheck, hraw]
  unfold saveTab
  cases hresult : writeWithBackup circ self.panel.configRoot tab.file text self.disk with
  | mk disk result =>
    rw [hresult] at hwrite
    have herror : result = .error e := hwrite
    simp only [hresult, herror]

theorem save_of_written {text : String} (hcheck : self.check lib tab = .ok ())
    (hraw : self.raw lib tab = .ok text)
    (hwrite : (writeWithBackup circ self.panel.configRoot tab.file text self.disk).2 = .ok ()) :
    save lib circ self tab =
      recordAudit lib circ (self.written circ tab text) tab.auditAction tab.file
        (self.oldValue circ tab) text := by
  rw [save_eq, hcheck, hraw]
  unfold saveTab written
  cases hresult : writeWithBackup circ self.panel.configRoot tab.file text self.disk with
  | mk disk result =>
    rw [hresult] at hwrite
    have hok : result = .ok () := hwrite
    simp only [hresult, hok]
    rfl

theorem disk_save_of_written {text : String} (hcheck : self.check lib tab = .ok ())
    (hraw : self.raw lib tab = .ok text)
    (hwrite : (writeWithBackup circ self.panel.configRoot tab.file text self.disk).2 = .ok ()) :
    Disk.Touches self.disk (save lib circ self tab).disk
      (writePlaces circ self.panel.configRoot tab.file self.disk ++
        (self.written circ tab text).auditPlaces circ) := by
  rw [save_of_written hcheck hraw hwrite]
  have hfirst : Disk.Touches self.disk (self.written circ tab text).disk
      (writePlaces circ self.panel.configRoot tab.file self.disk) := touches_writeWithBackup
  exact hfirst.trans touches_recordAudit

/-- A save is given up with a message, or its file is written and recorded. -/
theorem save_cases (lib : Libraries) (circ : Circumstances) (self : Desk) (tab : AdminTab) :
    (∃ disk message, save lib circ self tab = (Desk.mk self.panel disk).status message) ∨
      ∃ text, save lib circ self tab =
        recordAudit lib circ (self.written circ tab text) tab.auditAction tab.file
          (self.oldValue circ tab) text := by
  cases hcheck : self.check lib tab with
  | error e => exact Or.inl ⟨self.disk, _, save_of_invalid hcheck⟩
  | ok u =>
    cases hraw : self.raw lib tab with
    | error e => exact Or.inl ⟨self.disk, _, save_of_unserialised hcheck hraw⟩
    | ok text =>
      cases hwrite : (writeWithBackup circ self.panel.configRoot tab.file text self.disk).2 with
      | error e => exact Or.inl ⟨_, _, save_of_failed hcheck hraw hwrite⟩
      | ok u => exact Or.inr ⟨text, save_of_written hcheck hraw hwrite⟩

/-- A save changes neither the rows nor where the files are. -/
theorem panel_save : (save lib circ self tab).panel.toPanelRows = self.panel.toPanelRows ∧
    (save lib circ self tab).panel.configRoot = self.panel.configRoot := by
  rcases save_cases lib circ self tab with ⟨disk, message, hsave⟩ | ⟨text, hsave⟩
  · rw [hsave]
    exact ⟨rfl, rfl⟩
  · rw [hsave]
    exact ⟨rfl, rfl⟩

/-- The save an action comes to, and whether a dialog was confirmed for it. -/
def saveOf (lib : Libraries) (self : Desk) : PanelAction → Option (Circumstances × AdminTab × Bool)
  | .save circ tab =>
    if self.saveEnabled tab ∧ question lib circ self tab = none then some (circ, tab, false)
    else none
  | .confirm circ =>
    (self.panel.confirmDialog.bind ConfirmDialog.tab).map fun tab => (circ, tab, true)
  | _ => none

theorem step_of_clicked {action : PanelAction}
    (h : self.saveOf lib action = some (circ, tab, false)) :
    self.step lib action = save lib circ self tab := by
  cases action with
  | save circ' tab' =>
    simp only [saveOf, Option.ite_none_right_eq_some, Option.some.injEq, Prod.mk.injEq] at h
    obtain ⟨⟨henabled, hquestion⟩, hcirc, htab, _⟩ := h
    rw [← hcirc, ← htab, step, clickSave, if_pos henabled, hquestion]
  | confirm circ' =>
    obtain ⟨tab', _, hsame⟩ := Option.map_eq_some_iff.mp h
    simp at hsame
  | typed rows dirty => simp [saveOf] at h
  | outside disk => simp [saveOf] at h
  | cancel => simp [saveOf] at h

theorem step_of_confirmed {action : PanelAction}
    (h : self.saveOf lib action = some (circ, tab, true)) :
    self.step lib action = save lib circ self.dismissed tab := by
  cases action with
  | confirm circ' =>
    simp only [saveOf, Option.map_eq_some_iff, Option.bind_eq_some_iff, Prod.mk.injEq] at h
    obtain ⟨tab', ⟨dialog, hdialog, htab⟩, hcirc, hsame, _⟩ := h
    rw [← hcirc, ← hsame, step, clickConfirm, hdialog]
    simp only [htab]
  | save circ' tab' => simp [saveOf] at h
  | typed rows dirty => simp [saveOf] at h
  | outside disk => simp [saveOf] at h
  | cancel => simp [saveOf] at h

end Desk

/-- A reader and writer that knows the texts of one allowlist and of some configurations. -/
def knownToml (list : AllowlistConfig) (text : String) (documents : List (AdminConfig × String)) :
    Toml where
  allowlistToString config := if config = list then .ok text else .error "unsupported type"
  allowlistFromStr raw := if raw = text then .ok list else .error "expected a table"
  adminToString config :=
    match documents.find? fun document => document.1 = config with
    | some document => .ok document.2
    | none => .error "unsupported type"
  adminFromStr raw :=
    match documents.find? fun document => document.2 = raw with
    | some document => .ok document.1
    | none => .error "expected a table"
  allowlist_round := by
    intro config raw h
    by_cases hlist : config = list
    · rw [if_pos hlist, Except.ok.injEq] at h
      rw [if_pos h.symm, hlist]
    · rw [if_neg hlist] at h
      simp at h

def knownLibraries (list : AllowlistConfig) (text : String)
    (documents : List (AdminConfig × String)) : Libraries where
  rx := plainRegex
  toml := knownToml list text documents
  json := plainJson []
  manifestDir := "/src/crates/ai-bridge-ui"

/-- Nothing goes wrong. -/
def Circumstances.calm : Circumstances where
  user := some "op"
  username := none
  timestamp := "2026-08-31T12:00:00Z"
  seconds := 1788177600
  year := 2026
  month := 8
  incomparable := false
  unreadable := false
  backup := none
  createDir := none
  write := none
  auditDir := none
  append := none

/-- A panel with unsaved rows, and the texts of some files. -/
def Desk.unsaved (rows : PanelRows) (dialog : Option ConfirmDialog)
    (texts : List (String × String)) : Desk where
  panel :=
    { toPanelRows := rows
      configRoot := "/home/op/.config/ai-bridge"
      dirty := fun _ => true
      testCommand := ""
      auditEntries := []
      statusMessage := ""
      confirmDialog := dialog }
  disk := ⟨fun path => (texts.lookup path).map utf8, []⟩

theorem readToString_unsaved {rows : PanelRows} {dialog : Option ConfirmDialog}
    {texts : List (String × String)} {path text : String} (h : texts.lookup path = some text) :
    FileSystem.readToString (Desk.unsaved rows dialog texts).disk false path = some text := by
  have hfile : (Desk.unsaved rows dialog texts).disk.files path = some (utf8 text) := by
    simp [Desk.unsaved, h]
  rw [FileSystem.readToString, hfile]
  simp [fromUtf8_utf8]

end AiBridge
