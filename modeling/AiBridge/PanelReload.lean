import AiBridge.AuditMonths
import AiBridge.RowRoundTrip

namespace AiBridge

open Text

/-- The row of an entry of the policy, with the description of the first symbol of its name. -/
def SymbolPolicyRow.ofEntry (cfg : AdminConfig) (entry : PolicySymbolEntry) : SymbolPolicyRow where
  name := entry.symbol
  description := ((cfg.symbols.find? fun symbol => symbol.name = entry.symbol).map
    SymbolDefinition.description).getD ""
  classification := entry.classification
  autoApproveSeconds := entry.autoApproveSeconds

namespace Desk

section Load

variable (lib : Libraries) (unreadable : Bool) (self : Desk)

/-- The text of the file of a tab, where there is one that can be read. -/
def found (tab : AdminTab) : Option String :=
  FileSystem.readToString self.disk unreadable (self.findFile lib tab.file)

def readAdmin (tab : AdminTab) : Option AdminConfig :=
  (self.found lib unreadable tab).bind fun raw => (lib.toml.adminFromStr raw).toOption

def loadSymbolPolicy : Desk :=
  { self with
    panel := { self.panel with
      symbolPolicy := ((self.readAdmin lib unreadable .symbols).map fun cfg =>
        cfg.policy.map (SymbolPolicyRow.ofEntry cfg)).getD []
      dirty := Function.update self.panel.dirty .symbols false } }

def loadSockets : Desk :=
  { self with
    panel := { self.panel with
      sockets := ((self.readAdmin lib unreadable .sockets).map fun cfg =>
        cfg.sockets.map fun s => ⟨s.name, s.path, s.permissions⟩).getD []
      dirty := Function.update self.panel.dirty .sockets false } }

def loadBranches : Desk :=
  { self with
    panel := { self.panel with
      branches := ((self.readAdmin lib unreadable .branches).map fun cfg =>
        cfg.branches.map fun b => ⟨b.name, b.subChatLimit, b.contextEnabled⟩).getD []
      dirty := Function.update self.panel.dirty .branches false } }

def load : AdminTab → Desk
  | .allowlist => self.loadExecAllowlist lib unreadable
  | .symbols => self.loadSymbolPolicy lib unreadable
  | .criteria => self.loadCriteria lib unreadable
  | .sockets => self.loadSockets lib unreadable
  | .branches => self.loadBranches lib unreadable

def loadAudit (host : AuditHost) : Desk :=
  { self with
    panel := { self.panel with
      auditEntries :=
        (AuditLog.readAll lib.json host self.auditDir self.disk).toOption.getD [] } }

def loadAll (host : AuditHost) : Desk :=
  let self := self.loadExecAllowlist lib unreadable
  let self := self.loadSymbolPolicy lib unreadable
  let self := self.loadCriteria lib unreadable
  let self := self.loadSockets lib unreadable
  let self := self.loadBranches lib unreadable
  self.loadAudit lib host

end Load

/-- `AdminPanel::new`, with the directory of the configuration. -/
def new (lib : Libraries) (unreadable : Bool) (host : AuditHost) (configRoot : String)
    (disk : FileSystem) : Desk :=
  let panel : AdminPanel :=
    { toPanelRows := ⟨[], [], [], [], []⟩
      configRoot := configRoot
      dirty := fun _ => false
      testCommand := ""
      auditEntries := []
      statusMessage := ""
      confirmDialog := none }
  loadAll lib unreadable ⟨panel, disk⟩ host

end Desk

/-- The rows that a tab shows for the text of its file. -/
def AdminTab.rowsOf (lib : Libraries) (raw : Option String) : AdminTab → PanelRows
  | .allowlist =>
    ⟨((raw.bind fun raw => (lib.toml.allowlistFromStr raw).toOption).map fun cfg =>
      cfg.binaries.map ExecAllowlistRow.fromBinary).getD [], [], [], [], []⟩
  | .symbols =>
    ⟨[], ((raw.bind fun raw => (lib.toml.adminFromStr raw).toOption).map fun cfg =>
      cfg.policy.map (SymbolPolicyRow.ofEntry cfg)).getD [], [], [], []⟩
  | .criteria =>
    ⟨[], [], ((raw.bind fun raw => (lib.toml.adminFromStr raw).toOption).map fun cfg =>
      cfg.criteria.map CriteriaRow.fromSet).getD [], [], []⟩
  | .sockets =>
    ⟨[], [], [], ((raw.bind fun raw => (lib.toml.adminFromStr raw).toOption).map fun cfg =>
      cfg.sockets.map fun s => ⟨s.name, s.path, s.permissions⟩).getD [], []⟩
  | .branches =>
    ⟨[], [], [], [], ((raw.bind fun raw => (lib.toml.adminFromStr raw).toOption).map fun cfg =>
      cfg.branches.map fun b => ⟨b.name, b.subChatLimit, b.contextEnabled⟩).getD []⟩

/-- Rows of one name have one description. -/
def Described (rows : List SymbolPolicyRow) : Prop :=
  ∀ row ∈ rows, ∀ other ∈ rows, row.name = other.name → row.description = other.description

section Rows

variable {lib : Libraries} {raw : Option String} {text : String}

theorem described_rowsOf : Described (AdminTab.symbols.rowsOf lib raw).symbolPolicy := by
  intro row hrow other hother hname
  simp only [AdminTab.rowsOf] at hrow hother
  cases hread : raw.bind fun raw => (lib.toml.adminFromStr raw).toOption with
  | none =>
    rw [hread] at hrow
    exact absurd hrow List.not_mem_nil
  | some cfg =>
    rw [hread] at hrow hother
    obtain ⟨entry, _, hentry⟩ := List.mem_map.mp hrow
    obtain ⟨entry', _, hentry'⟩ := List.mem_map.mp hother
    rw [← hentry, ← hentry'] at hname ⊢
    have hsymbol : entry.symbol = entry'.symbol := hname
    simp only [SymbolPolicyRow.ofEntry, hsymbol]

theorem splitArgs_fromBinary_toBinary (row : ExecAllowlistRow) :
    (ExecAllowlistRow.fromBinary row.toBinary).splitArgs = row.splitArgs :=
  splitArgs_fromBinary_iff.mpr fun _ harg => isPiece_of_mem harg

theorem toPatternSet_fromSet_toPatternSet (row : CriteriaRow) :
    (CriteriaRow.fromSet row.toPatternSet).toPatternSet = row.toPatternSet :=
  toPatternSet_fromSet_iff.mpr fun _ hpattern => isPiece_of_mem hpattern

theorem path_fromBinary_toBinary (row : ExecAllowlistRow) :
    (ExecAllowlistRow.fromBinary row.toBinary).path = row.path := by
  simp only [ExecAllowlistRow.fromBinary, ExecAllowlistRow.toBinary]
  split
  next hempty => rw [hempty, Option.getD_none]
  next => rw [Option.getD_some]

/-- The first symbol of a name has the description of every row of the name. -/
theorem find_description {rows : List SymbolPolicyRow} (h : Described rows) {row : SymbolPolicyRow}
    (hrow : row ∈ rows) :
    ((rows.map fun r => (⟨r.name, r.classification, r.description⟩ : SymbolDefinition)).find?
      fun symbol => symbol.name = row.name).map SymbolDefinition.description =
        some row.description := by
  have hsome : ((rows.map fun r => (⟨r.name, r.classification, r.description⟩ :
      SymbolDefinition)).find? fun symbol => symbol.name = row.name).isSome := by
    rw [List.find?_isSome]
    exact ⟨_, List.mem_map.mpr ⟨row, hrow, rfl⟩, by simp⟩
  obtain ⟨symbol, hsymbol⟩ := Option.isSome_iff_exists.mp hsome
  have hname : symbol.name = row.name := by simpa using List.find?_some hsymbol
  obtain ⟨other, hother, hsame⟩ := List.mem_map.mp (List.mem_of_find?_eq_some hsymbol)
  rw [hsymbol, Option.map_some, ← hsame]
  rw [← hsame] at hname
  exact congrArg some (h other hother row hrow hname)

theorem map_ofEntry {rows : List SymbolPolicyRow} (h : Described rows) {cfg : AdminConfig}
    (hsymbols : cfg.symbols = rows.map fun r => ⟨r.name, r.classification, r.description⟩)
    (hpolicy : cfg.policy = rows.map fun r => ⟨r.name, r.classification, r.autoApproveSeconds⟩) :
    cfg.policy.map (SymbolPolicyRow.ofEntry cfg) = rows := by
  rw [hpolicy, List.map_map, map_eq_self_iff]
  intro row hrow
  have hdescription := find_description h hrow
  simp only [Function.comp_apply, SymbolPolicyRow.ofEntry, hsymbols, hdescription,
    Option.getD_some]

end Rows

namespace Desk

variable {lib : Libraries} {unreadable : Bool} {self : Desk} {circ : Circumstances}
  {tab : AdminTab} {text : String}

theorem only_load (tab : AdminTab) :
    (self.load lib unreadable tab).panel.only tab =
      tab.rowsOf lib (self.found lib unreadable tab) := by
  cases tab <;> rfl

theorem only_load_of_ne {other : AdminTab} (h : other ≠ tab) :
    (self.load lib unreadable tab).panel.only other = self.panel.only other := by
  cases tab <;> cases other <;> first | exact absurd rfl h | rfl

theorem dirty_load : (self.load lib unreadable tab).panel.dirty =
    Function.update self.panel.dirty tab false := by
  cases tab <;> rfl

theorem only_new {host : AuditHost} {configRoot : String} {disk : FileSystem} (tab : AdminTab) :
    (new lib unreadable host configRoot disk).panel.only tab =
      tab.rowsOf lib ((new lib unreadable host configRoot disk).found lib unreadable tab) := by
  cases tab <;> rfl

/-- The rows that are shown after a save stand for the configuration that was saved. -/
theorem typed_of_saved
    (hround : ∀ config raw, lib.toml.adminToString config = .ok raw →
      lib.toml.adminFromStr raw = .ok config)
    (hdescribed : Described self.panel.symbolPolicy) (hraw : self.raw lib tab = .ok text) :
    buildAdminConfigFromRows (tab.rowsOf lib (some text)) = self.typed tab := by
  cases tab with
  | allowlist =>
    have hparsed := lib.toml.allowlist_round (Checks.mapError_eq_ok_iff.mp hraw)
    simp only [AdminTab.rowsOf, Option.bind_some, hparsed, Except.toOption, Option.map_some,
      Option.getD_some, buildAdminConfigFromRows, typed, PanelRows.only, List.map_nil,
      List.map_map]
    congr 1
    apply List.map_congr_left
    intro row _
    simp only [Function.comp_apply, splitArgs_fromBinary_toBinary, path_fromBinary_toBinary]
    rfl
  | symbols =>
    have hparsed := hround _ _ hraw
    have hrows : (self.typed .symbols).policy.map
        (SymbolPolicyRow.ofEntry (self.typed .symbols)) = self.panel.symbolPolicy :=
      map_ofEntry hdescribed rfl rfl
    simp only [AdminTab.rowsOf, Option.bind_some, hparsed, Except.toOption, Option.map_some,
      Option.getD_some, hrows]
    rfl
  | criteria =>
    have hparsed := hround _ _ hraw
    simp only [AdminTab.rowsOf, Option.bind_some, hparsed, Except.toOption, Option.map_some,
      Option.getD_some, buildAdminConfigFromRows, typed, PanelRows.only, List.map_nil,
      List.map_map]
    congr 1
    apply List.map_congr_left
    intro row _
    exact toPatternSet_fromSet_toPatternSet row
  | sockets =>
    have hparsed := hround _ _ hraw
    simp only [AdminTab.rowsOf, Option.bind_some, hparsed, Except.toOption, Option.map_some,
      Option.getD_some, buildAdminConfigFromRows, typed, PanelRows.only, List.map_nil,
      List.map_map]
    rfl
  | branches =>
    have hparsed := hround _ _ hraw
    simp only [AdminTab.rowsOf, Option.bind_some, hparsed, Except.toOption, Option.map_some,
      Option.getD_some, buildAdminConfigFromRows, typed, PanelRows.only, List.map_nil,
      List.map_map]
    rfl

end Desk

end AiBridge
