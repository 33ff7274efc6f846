import AiBridge.Decimal
import AiBridge.PanelSaves
import AiBridge.Runs

namespace AiBridge

open Text

section Paths

variable {dir dir' a b p q : String} {s t : List Char}

theorem ne_of_ends (hp : s <:+ p.toList) (hq : t <:+ q.toList) (hlen : s.length = t.length)
    (hne : s ≠ t) : p ≠ q := by
  intro heq
  rw [heq] at hp
  exact hne ((List.suffix_of_suffix_length_le hp hq (by omega)).eq_of_length hlen)

theorem suffix_join (h : s <:+ a.toList) : s <:+ (ExecutorAllowlist.join dir a).toList := by
  obtain ⟨front, hfront⟩ := join_eq_append dir
  rw [hfront, String.toList_append]
  exact h.trans (List.suffix_append _ _)

theorem suffix_file (tab : AdminTab) : "toml".toList <:+ tab.file.toList := by
  cases tab <;> decide

theorem extension_currentMonthFilename (circ : Circumstances) :
    ".jsonl".toList <:+ (AuditLog.currentMonthFilename circ).toList := by
  simp only [AuditLog.currentMonthFilename, String.toList_append]
  apply List.IsSuffix.trans (List.suffix_append _ _)
  apply List.IsSuffix.trans (List.suffix_append _ _)
  apply List.IsSuffix.trans (List.suffix_append _ _)
  exact List.suffix_append _ _

theorem suffix_currentMonthFilename (circ : Circumstances) :
    "sonl".toList <:+ (AuditLog.currentMonthFilename circ).toList := by
  have hend : "sonl".toList <:+ ".jsonl".toList := by decide
  exact hend.trans (extension_currentMonthFilename circ)

/-- A backup ends in a digit of its second. -/
theorem suffix_backupName (file : String) (seconds : Nat) :
    ∃ c, c ≠ 'l' ∧ [c] <:+ (backupName file seconds).toList := by
  have hlist : (backupName file seconds).toList =
      file.toList ++ (".bak.".toList ++ Nat.toDigits 10 seconds) := by
    rw [backupName, String.toList_append, String.toList_append, Decimal.toList_toString]
  rcases List.eq_nil_or_concat (Nat.toDigits 10 seconds) with hnone | ⟨front, c, hsome⟩
  · refine ⟨'.', by decide, ?_⟩
    rw [hlist, hnone, List.append_nil]
    have hend : ['.'] <:+ ".bak.".toList := by decide
    exact hend.trans (List.suffix_append _ _)
  · have hmem : c ∈ Nat.toDigits 10 seconds := by
      rw [hsome]
      simp
    refine ⟨c, ?_, ?_⟩
    · intro hl
      have hdigit := Nat.isDigit_of_mem_toDigits (by decide) (by decide) hmem
      rw [hl] at hdigit
      exact absurd hdigit (by decide)
    · rw [hlist, hsome, List.concat_eq_append, ← List.append_assoc, ← List.append_assoc]
      exact List.suffix_append _ _

end Paths

/-- An entry that tells the truth about a save. -/
structure AuditEntry.Tells (entry : AuditEntry) (file : String)
    (old new : List UInt8) (lowers : Prop) (confirmed : Bool) : Prop where
  file : entry.changedFile = file
  old : utf8 entry.oldValue = old
  new : utf8 entry.newValue = new
  lowers : entry.securityLowering = true ↔ lowers
  confirmed : confirmed = true → entry.securityLowering = true

namespace Desk

variable {lib : Libraries} {circ : Circumstances} {self : Desk} {tab : AdminTab}

theorem auditPath_ne_configPath : self.auditPath circ ≠ self.configPath tab.file := by
  apply ne_of_ends (suffix_join (suffix_currentMonthFilename circ)) (suffix_join (suffix_file tab))
  · rfl
  · decide

theorem auditPath_ne_backup {file : String} {seconds : Nat} :
    self.auditPath circ ≠
      ExecutorAllowlist.join self.panel.configRoot (backupName file seconds) := by
  obtain ⟨c, hne, hsuffix⟩ := suffix_backupName file seconds
  have hend : ['l'] <:+ (AuditLog.currentMonthFilename circ).toList := by
    have hl : ['l'] <:+ "sonl".toList := by decide
    exact hl.trans (suffix_currentMonthFilename circ)
  apply ne_of_ends (suffix_join hend) (suffix_join hsuffix)
  · rfl
  · simpa using hne.symm

theorem auditPath_not_mem_writePlaces :
    self.auditPath circ ∉ writePlaces circ self.panel.configRoot tab.file self.disk := by
  have hconfig : self.auditPath circ ≠ ExecutorAllowlist.join self.panel.configRoot tab.file :=
    auditPath_ne_configPath
  have hbackup : self.auditPath circ ≠
      ExecutorAllowlist.join self.panel.configRoot (backupName tab.file circ.seconds) :=
    auditPath_ne_backup
  unfold writePlaces backupPlaces
  rw [List.mem_append, not_or]
  constructor
  · split
    next => exact List.not_mem_nil
    next => exact fun h => hbackup (Disk.Fault.eq_of_mem_places h)
  · split
    next => exact fun h => hconfig (Disk.Fault.eq_of_mem_places h)
    next => exact List.not_mem_nil

theorem configPath_not_mem_auditPlaces :
    self.configPath tab.file ∉ self.auditPlaces circ := by
  have hne : self.configPath tab.file ≠ self.auditPath circ := auditPath_ne_configPath.symm
  unfold auditPlaces
  split
  next => exact fun h => hne (Disk.Fault.eq_of_mem_places h)
  next => exact List.not_mem_nil

/-- The bytes at a place; a file that is not there has none. -/
def bytesAt (self : Desk) (path : String) : List UInt8 := (self.disk.files path).getD []

/-- The configuration that a save replaces: what is in the file that the panel finds for the tab. -/
def replaced (lib : Libraries) (self : Desk) (tab : AdminTab) : Option AdminConfig :=
  (FileSystem.readToString self.disk false (self.findFile lib tab.file)).bind fun text =>
    match tab with
    | .allowlist =>
      (lib.toml.allowlistFromStr text).toOption.map fun config =>
        buildAdminConfigFromRows ⟨config.binaries.map ExecAllowlistRow.fromBinary, [], [], [], []⟩
    | _ => (lib.toml.adminFromStr text).toOption

def SavesLower (lib : Libraries) (self : Desk) (tab : AdminTab) : Prop :=
  ∃ previous, self.replaced lib tab = some previous ∧
    (self.typed tab).isSecurityLoweringChange previous = true

/-- The file of the tab was opened for writing from one state to the next. -/
def Writes (self after : Desk) (tab : AdminTab) : Prop :=
  ∃ places, Disk.Touches self.disk after.disk places ∧ self.configPath tab.file ∈ places

/-- A save that writes has one entry more, in the panel and in the log, and it tells the truth. -/
def Audited (lib : Libraries) (circ : Circumstances) (self after : Desk) (tab : AdminTab)
    (confirmed : Bool) : Prop :=
  self.Writes after tab → ∃ entry : AuditEntry,
    after.panel.auditEntries = self.panel.auditEntries ++ [entry] ∧
    after.disk.files (self.auditPath circ) =
      some (self.bytesAt (self.auditPath circ) ++ AuditLog.line lib.json entry) ∧
    entry.Tells tab.file (self.bytesAt (self.configPath tab.file))
      (after.bytesAt (self.configPath tab.file)) (self.SavesLower lib tab) confirmed

/-- The save gets as far as opening the file of its tab. -/
def Opens (lib : Libraries) (circ : Circumstances) (self : Desk) (tab : AdminTab) : Prop :=
  self.check lib tab = .ok () ∧ (∃ text, self.raw lib tab = .ok text) ∧
    Prepared circ self.panel.configRoot tab.file self.disk ∧
    ∀ e, circ.write ≠ some (.refused e)

/-- What a save that writes has to be for the entry to be right: nothing fails, the old file was
text, and there is nothing to flag. -/
structure Unremarkable (lib : Libraries) (circ : Circumstances) (desk : Desk) (tab : AdminTab)
    (confirmed : Bool) : Prop where
  write : circ.write = none
  log : circ.auditDir = none ∧ circ.append = none
  old : ∀ bytes, desk.disk.files (desk.configPath tab.file) = some bytes →
    bytes = [] ∨ (circ.unreadable = false ∧ (fromUtf8 bytes).isSome)
  lowers : ¬desk.SavesLower lib tab
  asked : confirmed = false

theorem not_writes_of_same_disk {after : Desk} (h : after.disk = self.disk) :
    ¬self.Writes after tab := by
  intro hwrites
  obtain ⟨places, htouches, hmem⟩ := hwrites
  rw [htouches.eq_iff.mp h] at hmem
  exact absurd hmem List.not_mem_nil

theorem writes_iff_of_touches {after : Desk} {more : List String}
    (htouches : Disk.Touches self.disk after.disk
      (writePlaces circ self.panel.configRoot tab.file self.disk ++ more))
    (hmore : self.configPath tab.file ∉ more) :
    self.Writes after tab ↔ Prepared circ self.panel.configRoot tab.file self.disk ∧
      ∀ e, circ.write ≠ some (.refused e) := by
  rw [← mem_writePlaces_iff]
  constructor
  · intro hwrites
    obtain ⟨places, htouches', hmem⟩ := hwrites
    rw [htouches'.unique htouches, List.mem_append] at hmem
    exact hmem.resolve_right hmore
  · intro hmem
    exact ⟨_, htouches, List.mem_append_left _ hmem⟩

theorem writes_save_iff :
    self.Writes (save lib circ self tab) tab ↔ self.Opens lib circ tab := by
  unfold Opens
  cases hcheck : self.check lib tab with
  | error e =>
    rw [save_of_invalid hcheck]
    have hnone : ¬self.Writes (self.status ("Validation failed: " ++ e.display)) tab :=
      not_writes_of_same_disk rfl
    simp [hnone]
  | ok u =>
    cases hraw : self.raw lib tab with
    | error e =>
      rw [save_of_unserialised hcheck hraw]
      have hnone : ¬self.Writes (self.status ("Serialize error: " ++ e)) tab :=
        not_writes_of_same_disk rfl
      simp [hnone]
    | ok text =>
      simp only [true_and, Except.ok.injEq, exists_eq']
      cases hwrite : (writeWithBackup circ self.panel.configRoot tab.file text self.disk).2 with
      | error e =>
        rw [save_of_failed hcheck hraw hwrite]
        apply writes_iff_of_touches _ List.not_mem_nil
        rw [List.append_nil]
        exact touches_writeWithBackup
      | ok u =>
        exact writes_iff_of_touches (disk_save_of_written hcheck hraw hwrite)
          configPath_not_mem_auditPlaces

/-- The recorded old value is the old file exactly if that was empty or could be read as text. -/
theorem utf8_oldValue_iff :
    utf8 (self.oldValue circ tab) = self.bytesAt (self.configPath tab.file) ↔
      ∀ bytes, self.disk.files (self.configPath tab.file) = some bytes →
        bytes = [] ∨ (circ.unreadable = false ∧ (fromUtf8 bytes).isSome) := by
  have hempty : utf8 "" = [] := rfl
  unfold oldValue bytesAt FileSystem.readToString
  cases hfile : self.disk.files (self.configPath tab.file) with
  | none =>
    cases circ.unreadable with
    | true => simp [hempty]
    | false => simp [hempty]
  | some bytes =>
    cases circ.unreadable with
    | true =>
      rw [eq_comm]
      simp [hempty]
    | false =>
      cases htext : fromUtf8 bytes with
      | none =>
        rw [eq_comm]
        simp [htext, hempty]
      | some text => simp [htext, (fromUtf8_eq_some_iff.mp htext).symm]

theorem line_ne_nil {json : SerdeJson} {entry : AuditEntry} : AuditLog.line json entry ≠ [] := by
  rw [AuditLog.line, utf8_append, utf8_newline]
  simp

/-- The log gets the whole line exactly if nothing goes wrong. -/
theorem log_append_iff {json : SerdeJson} {dir : String} {entry : AuditEntry} {disk : FileSystem}
    {path : String}
    (hpath : path = ExecutorAllowlist.join dir (AuditLog.currentMonthFilename circ)) :
    (AuditLog.append json circ dir entry disk).1.files path =
      some ((disk.files path).getD [] ++ AuditLog.line json entry) ↔
      circ.auditDir = none ∧ circ.append = none := by
  have hnot : disk.files path ≠ some ((disk.files path).getD [] ++ AuditLog.line json entry) := by
    intro h
    rw [h, Option.getD_some] at h
    have hsame := Option.some.inj h
    exact line_ne_nil (List.append_right_eq_self.mp hsame.symm)
  unfold AuditLog.append
  rw [← hpath]
  cases circ.auditDir with
  | some e => simp [hnot]
  | none =>
    cases circ.append with
    | none =>
      have hstored : (disk.append (none : Option (Disk.Fault IoError)) path
          (AuditLog.line json entry)).1.files path =
            some ((disk.files path).getD [] ++ AuditLog.line json entry) := by
        rw [Disk.append, Disk.put_none]
        exact Disk.files_store_self
      simp [hstored]
    | some fault =>
      cases fault with
      | refused e => simpa [Disk.append, Disk.put] using hnot
      | cut e taken =>
        have hshort : ((AuditLog.line json entry).dropLast.take taken) ≠
            AuditLog.line json entry := by
          intro h
          have hlength := congrArg List.length h
          rw [List.length_take, List.length_dropLast] at hlength
          have hpos : 0 < (AuditLog.line json entry).length :=
            List.length_pos_of_ne_nil line_ne_nil
          omega
        simpa [Disk.append, Disk.put] using hshort

/-- A save that opens its file and does not fill it is given up without an entry. -/
theorem save_of_interrupted (hopens : self.Opens lib circ tab) (hwrite : circ.write ≠ none) :
    ∃ disk message, save lib circ self tab = (Desk.mk self.panel disk).status message := by
  obtain ⟨hcheck, ⟨text, hraw⟩, _⟩ := hopens
  cases hresult : (writeWithBackup circ self.panel.configRoot tab.file text self.disk).2 with
  | error e => exact ⟨_, _, save_of_failed hcheck hraw hresult⟩
  | ok u => exact absurd (writeWithBackup_snd_eq_ok_iff.mp hresult).2 hwrite

/-- A save that fills its file leaves the log to the entry. -/
theorem save_of_filled (hopens : self.Opens lib circ tab) (hwrite : circ.write = none) :
    ∃ text, self.raw lib tab = .ok text ∧
      save lib circ self tab =
        recordAudit lib circ (self.written circ tab text) tab.auditAction tab.file
          (self.oldValue circ tab) text ∧
      (self.written circ tab text).disk.files (self.auditPath circ) =
        self.disk.files (self.auditPath circ) ∧
      (save lib circ self tab).disk.files (self.configPath tab.file) = some (utf8 text) := by
  obtain ⟨hcheck, ⟨text, hraw⟩, hprepared, _⟩ := hopens
  have hok : (writeWithBackup circ self.panel.configRoot tab.file text self.disk).2 = .ok () :=
    writeWithBackup_snd_eq_ok_iff.mpr ⟨hprepared, hwrite⟩
  have hsaved := save_of_written hcheck hraw hok
  refine ⟨text, hraw, hsaved, ?_, ?_⟩
  · exact touches_writeWithBackup.files _ auditPath_not_mem_writePlaces
  · have hnot : self.configPath tab.file ∉ (self.written circ tab text).auditPlaces circ :=
      configPath_not_mem_auditPlaces
    rw [hsaved, touches_recordAudit.files _ hnot]
    exact files_writeWithBackup hprepared hwrite

theorem audited_save_iff {confirmed : Bool} :
    Audited lib circ self (save lib circ self tab) tab confirmed ↔
      (self.Opens lib circ tab → Unremarkable lib circ self tab confirmed) := by
  unfold Audited
  rw [writes_save_iff]
  apply imp_congr_right
  intro hopens
  by_cases hwrite : circ.write = none
  · obtain ⟨text, _, hsaved, hlog, hfile⟩ := save_of_filled hopens hwrite
    have hnew : (save lib circ self tab).bytesAt (self.configPath tab.file) = utf8 text := by
      rw [bytesAt, hfile, Option.getD_some]
    rw [hnew, hsaved]
    constructor
    · intro h
      obtain ⟨entry, hentries, hline, htells⟩ := h
      have hlist := List.append_cancel_left hentries
      have hentry : auditEntry circ tab.auditAction tab.file (self.oldValue circ tab) text =
          entry := (List.cons.inj hlist).1
      rw [← hentry] at hline htells
      refine ⟨hwrite, ?_, utf8_oldValue_iff.mp htells.old, ?_, ?_⟩
      · apply (log_append_iff rfl).mp
        rw [bytesAt, ← hlog] at hline
        exact hline
      · intro hlowers
        exact absurd (htells.lowers.mpr hlowers) (by simp [auditEntry])
      · cases confirmed with
        | false => rfl
        | true => exact absurd (htells.confirmed rfl) (by simp [auditEntry])
    · intro h
      refine ⟨auditEntry circ tab.auditAction tab.file (self.oldValue circ tab) text, rfl, ?_, ?_⟩
      · rw [bytesAt, ← hlog]
        exact (log_append_iff rfl).mpr h.log
      · refine ⟨rfl, utf8_oldValue_iff.mpr h.old, rfl, ?_, ?_⟩
        · simp [auditEntry, h.lowers]
        · intro hconfirmed
          rw [h.asked] at hconfirmed
          simp at hconfirmed
  · obtain ⟨disk, message, hsaved⟩ := save_of_interrupted hopens hwrite
    rw [hsaved]
    constructor
    · intro h
      obtain ⟨entry, hentries, _⟩ := h
      exact absurd hentries (by simp [status])
    · intro h
      exact absurd h.write hwrite

/-- What the audit log owes to an action that comes to a save. -/
def AuditsSave (lib : Libraries) (self : Desk) (action : PanelAction) : Prop :=
  ∀ circ tab confirmed, self.saveOf lib action = some (circ, tab, confirmed) →
    Audited lib circ self (self.step lib action) tab confirmed

/-- A save that opens its file, if the action comes to one, is unremarkable. -/
def PlainSave (lib : Libraries) (self : Desk) (action : PanelAction) : Prop :=
  ∀ circ tab confirmed, self.saveOf lib action = some (circ, tab, confirmed) →
    self.Opens lib circ tab → Unremarkable lib circ self tab confirmed

theorem auditsSave_iff {action : PanelAction} :
    self.AuditsSave lib action ↔ self.PlainSave lib action := by
  unfold AuditsSave PlainSave
  apply forall_congr'
  intro circ
  apply forall₃_congr
  intro tab confirmed hsave
  cases confirmed with
  | false =>
    rw [step_of_clicked hsave]
    exact audited_save_iff
  | true =>
    rw [step_of_confirmed hsave]
    have hdismissed : Audited lib circ self.dismissed (save lib circ self.dismissed tab) tab true ↔
        (self.dismissed.Opens lib circ tab → Unremarkable lib circ self.dismissed tab true) :=
      audited_save_iff
    have hsame : Unremarkable lib circ self.dismissed tab true ↔
        Unremarkable lib circ self tab true :=
      ⟨fun h => ⟨h.write, h.log, h.old, h.lowers, h.asked⟩,
        fun h => ⟨h.write, h.log, h.old, h.lowers, h.asked⟩⟩
    rw [hsame] at hdismissed
    exact hdismissed

end Desk

open Desk

/-- The audit log tells the truth about every save of a run exactly if every save that opens its
file is unremarkable. -/
theorem audit_truth_iff (lib : Libraries) (start : Desk) (run : List PanelAction) :
    Runs.Along (step lib) (AuditsSave lib) start run ↔
      Runs.Along (step lib) (PlainSave lib) start run :=
  Runs.along_congr fun _ _ => auditsSave_iff

def socketText : String :=
  "[[sockets]]\nname = \"ui\"\npath = \"ui.sock\"\npermissions = \"0600\"\n"

def socketConfig : AdminConfig :=
  { AdminConfig.empty with sockets := [⟨"ui", "ui.sock", "0600"⟩] }

def emptyText : String :=
  "allowlist = []\nsymbols = []\npolicy = []\ncriteria = []\nsockets = []\nbranches = []\naudit = []\n"

def socketLibraries : Libraries :=
  knownLibraries ⟨[]⟩ "binaries = []\n" [(socketConfig, socketText), (.empty, emptyText)]

/-- The only socket was removed in the panel. -/
def socketDesk : Desk :=
  .unsaved ⟨[], [], [], [], []⟩ none [("/home/op/.config/ai-bridge/sockets.toml", socketText)]

/-- The dialog is shown and confirmed, and the entry does not say so. -/
theorem confirmed_unflagged :
    let run : List PanelAction := [.save .calm .sockets, .confirm .calm]
    let after := Runs.run (step socketLibraries) socketDesk run
    after.disk.files "/home/op/.config/ai-bridge/sockets.toml" = some (utf8 emptyText) ∧
      after.panel.auditEntries.map AuditEntry.securityLowering = [false] ∧
      ¬Runs.Along (step socketLibraries) (AuditsSave socketLibraries) socketDesk run := by
  refine ⟨by decide +kernel, by decide +kernel, ?_⟩
  intro h
  have hplain := auditsSave_iff.mp (h [.save .calm .sockets] (.confirm .calm) [] rfl)
  have hopens : Opens socketLibraries .calm
      (Runs.run (step socketLibraries) socketDesk [.save .calm .sockets]) .sockets :=
    ⟨by decide +kernel, ⟨emptyText, by decide +kernel⟩, by decide +kernel, by simp [Circumstances.calm]⟩
  have hasked := (hplain .calm .sockets true (by decide +kernel) hopens).asked
  exact absurd hasked (by decide)

end AiBridge
