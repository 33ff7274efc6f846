import AiBridge.PanelSaves

namespace AiBridge

open Text AdminConfig

namespace Desk

/-- The rows of a tab pass the validation. -/
def Passes (lib : Libraries) (self : Desk) (tab : AdminTab) : Prop :=
  (self.typed tab).validate lib.rx.toRegexEngine = .ok ()

variable {lib : Libraries} {circ : Circumstances} {self after : Desk} {tab : AdminTab}

/-- A save that is validated before it writes: the file of the tab is opened only if the rows pass,
and rows that do not pass change no file and no audit log and leave the tab dirty. -/
structure Validated (lib : Libraries) (before after : Desk) (tab : AdminTab) : Prop where
  opened : ∀ places, Disk.Touches before.disk after.disk places →
    before.configPath tab.file ∈ places → before.Passes lib tab
  kept : ¬before.Passes lib tab → after.disk = before.disk ∧
    after.panel.auditEntries = before.panel.auditEntries ∧ after.panel.dirty = before.panel.dirty

/-- Where nothing of the disk changes for rows that do not pass, the file is not opened either. -/
theorem validated_iff : Validated lib self after tab ↔
    (¬self.Passes lib tab → after.disk = self.disk ∧
      after.panel.auditEntries = self.panel.auditEntries ∧
      after.panel.dirty = self.panel.dirty) := by
  constructor
  · intro h
    exact h.kept
  · intro h
    refine ⟨?_, h⟩
    intro places htouches hmem
    by_contra hinvalid
    have hnone := htouches.eq_iff.mp (h hinvalid).1
    rw [hnone] at hmem
    exact absurd hmem List.not_mem_nil

theorem validated_dismissed_iff :
    Validated lib self.dismissed after tab ↔ Validated lib self after tab := by
  rw [validated_iff, validated_iff]
  exact Iff.rfl

theorem passes_branches : self.Passes lib .branches := by
  apply validate_eq_ok_iff.mpr
  refine ⟨?_, ?_, ?_, ?_, ?_, ?_⟩
  all_goals simp [typed, PanelRows.only, buildAdminConfigFromRows]

theorem passes_allowlist_iff : self.Passes lib .allowlist ↔
    (∀ row ∈ self.panel.execAllowlist, row.path ≠ "*") ∧
      (self.panel.execAllowlist.map ExecAllowlistRow.name).Nodup := by
  have hnames : ((self.typed .allowlist).allowlist.map AllowlistEntry.name) =
      self.panel.execAllowlist.map ExecAllowlistRow.name := by
    simp [typed, PanelRows.only, buildAdminConfigFromRows, Function.comp_def]
  have hpaths : (∀ entry ∈ (self.typed .allowlist).allowlist, entry.path ≠ "*") ↔
      ∀ row ∈ self.panel.execAllowlist, row.path ≠ "*" := by
    simp [typed, PanelRows.only, buildAdminConfigFromRows]
  rw [Passes, validate_eq_ok_iff, ← hnames, ← hpaths]
  constructor
  · intro h
    exact ⟨h.noWildcard, h.names⟩
  · intro h
    refine ⟨h.1, h.2, ?_, ?_, ?_, ?_⟩
    all_goals simp [typed, PanelRows.only, buildAdminConfigFromRows]

/-- The tabs with a validation of their own save nothing that does not pass. -/
theorem exists_check_error (hinvalid : ¬self.Passes lib tab) (htab : tab ≠ .allowlist) :
    ∃ e, self.check lib tab = .error e := by
  have hsame : self.check lib tab = (self.typed tab).validate lib.rx.toRegexEngine := by
    cases tab with
    | allowlist => exact absurd rfl htab
    | branches => exact absurd passes_branches hinvalid
    | symbols => rfl
    | criteria => rfl
    | sockets => rfl
  rw [hsame]
  cases hresult : (self.typed tab).validate lib.rx.toRegexEngine with
  | error e => exact ⟨e, rfl⟩
  | ok u => exact absurd hresult hinvalid

/-- The executor allowlist cannot be serialised, or the system refuses the first thing that is done
to the files. -/
def Stopped (lib : Libraries) (circ : Circumstances) (self : Desk) : Prop :=
  (∃ e, lib.toml.allowlistToString
      ⟨self.panel.execAllowlist.map ExecAllowlistRow.toBinary⟩ = .error e) ∨
    Blocked circ self.panel.configRoot "executor_allowlist.toml" self.disk

/-- What is serialised without a check stays away from the files only if the system stops it. -/
theorem kept_iff_blocked {text : String} (hcheck : self.check lib tab = .ok ())
    (hraw : self.raw lib tab = .ok text) :
    ((save lib circ self tab).disk = self.disk ∧
      (save lib circ self tab).panel.auditEntries = self.panel.auditEntries ∧
      (save lib circ self tab).panel.dirty = self.panel.dirty) ↔
      Blocked circ self.panel.configRoot tab.file self.disk := by
  rw [← writePlaces_eq_nil_iff]
  cases hwrite : (writeWithBackup circ self.panel.configRoot tab.file text self.disk).2 with
  | error e =>
    rw [save_of_failed hcheck hraw hwrite]
    have htouches : Disk.Touches self.disk
        (writeWithBackup circ self.panel.configRoot tab.file text self.disk).1
        (writePlaces circ self.panel.configRoot tab.file self.disk) := touches_writeWithBackup
    constructor
    · intro h
      exact htouches.eq_iff.mp h.1
    · intro hnone
      exact ⟨htouches.eq_iff.mpr hnone, rfl, rfl⟩
  | ok u =>
    have htouches := disk_save_of_written hcheck hraw hwrite
    obtain ⟨hprepared, hnofault⟩ := writeWithBackup_snd_eq_ok_iff.mp hwrite
    have hopened : ExecutorAllowlist.join self.panel.configRoot tab.file ∈
        writePlaces circ self.panel.configRoot tab.file self.disk :=
      mem_writePlaces_iff.mpr ⟨hprepared, by simp [hnofault]⟩
    constructor
    · intro h
      exact (List.append_eq_nil_iff.mp (htouches.eq_iff.mp h.1)).1
    · intro hnone
      rw [hnone] at hopened
      exact absurd hopened List.not_mem_nil

theorem validated_save_iff : Validated lib self (save lib circ self tab) tab ↔
    (tab = .allowlist → self.Passes lib .allowlist ∨ Stopped lib circ self) := by
  rw [validated_iff]
  by_cases htab : tab = .allowlist
  · rw [htab]
    by_cases hvalid : self.Passes lib .allowlist
    · simp [hvalid]
    · simp only [hvalid, not_false_eq_true, true_implies, false_or, Stopped]
      cases htoml : lib.toml.allowlistToString
          ⟨self.panel.execAllowlist.map ExecAllowlistRow.toBinary⟩ with
      | error e =>
        have hraw : self.raw lib .allowlist =
            .error ("failed to serialize allowlist TOML: " ++ e) := by
          rw [raw, htoml]
          rfl
        rw [save_of_unserialised rfl hraw]
        exact ⟨fun _ => Or.inl ⟨e, rfl⟩, fun _ => ⟨rfl, rfl, rfl⟩⟩
      | ok text =>
        have hraw : self.raw lib .allowlist = .ok text := by
          rw [raw, htoml]
          rfl
        rw [kept_iff_blocked rfl hraw]
        simp [AdminTab.file]
  · simp only [htab, false_implies, iff_true]
    intro hinvalid
    obtain ⟨e, he⟩ := exists_check_error hinvalid htab
    rw [save_of_invalid he]
    exact ⟨rfl, rfl, rfl⟩

end Desk

open Desk

/-- A save is validated before it writes exactly if it is not that of the executor allowlist, or its
rows would have passed, or it is stopped before it reaches a file; with a confirmed dialog it is no
different. -/
theorem save_validated_iff (lib : Libraries) (self : Desk) :
    (∀ circ tab, Validated lib self (save lib circ self tab) tab ↔
      (tab = .allowlist →
        ((∀ row ∈ self.panel.execAllowlist, row.path ≠ "*") ∧
          (self.panel.execAllowlist.map ExecAllowlistRow.name).Nodup) ∨
        Stopped lib circ self)) ∧
    ∀ action circ tab confirmed, self.saveOf lib action = some (circ, tab, confirmed) →
      (Validated lib self (self.step lib action) tab ↔
        (tab = .allowlist →
          ((∀ row ∈ self.panel.execAllowlist, row.path ≠ "*") ∧
            (self.panel.execAllowlist.map ExecAllowlistRow.name).Nodup) ∨
          Stopped lib circ self)) := by
  rw [← passes_allowlist_iff]
  constructor
  · intro circ tab
    exact validated_save_iff
  · intro action circ tab confirmed hsave
    cases confirmed with
    | false =>
      rw [step_of_clicked hsave]
      exact validated_save_iff
    | true =>
      rw [step_of_confirmed hsave]
      rw [← validated_dismissed_iff]
      exact validated_save_iff

def wildcardText : String :=
  "[[binaries]]\nname = \"sh\"\nallowed = true\npath = \"*\"\nargs = []\n"

def wildcardLibraries : Libraries :=
  knownLibraries ⟨[⟨"sh", true, some "*", []⟩]⟩ wildcardText []

/-- A shell with a wildcard for its path, typed by the operator. -/
def wildcardDesk (dialog : Option ConfirmDialog) : Desk :=
  .unsaved ⟨[⟨"sh", "*", true, ""⟩], [], [], [], []⟩ dialog []

/-- A socket that is confirmed is not affected by what is typed into the allowlist. -/
theorem confirmed_socket_validated :
    let desk := wildcardDesk (some ⟨"Proceed?", "save_sockets"⟩)
    Validated wildcardLibraries desk (desk.step wildcardLibraries (.confirm .calm)) .sockets :=
  ((save_validated_iff wildcardLibraries (wildcardDesk (some ⟨"Proceed?", "save_sockets"⟩))).2
    (.confirm .calm) .calm .sockets true (by decide)).mpr (by simp)

theorem wildcard_written :
    let desk := wildcardDesk none
    let after := save wildcardLibraries .calm desk .allowlist
    after.disk.files "/home/op/.config/ai-bridge/executor_allowlist.toml" =
        some (utf8 wildcardText) ∧
      ¬Validated wildcardLibraries desk after .allowlist := by
  constructor
  · decide +kernel
  · intro h
    have hinvalid : ¬Passes wildcardLibraries (wildcardDesk none) .allowlist := by
      rw [passes_allowlist_iff]
      decide
    have hdirty := congrFun (h.kept hinvalid).2.2 .allowlist
    exact absurd hdirty (by decide +kernel)

end AiBridge
