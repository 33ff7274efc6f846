import AiBridge.PanelReload

namespace AiBridge

open Runs Text

/-- A change of the rows by the controls of a tab. -/
inductive RowEdit
  | editBinary (index : Nat) (row : ExecAllowlistRow)
  | removeBinary (index : Nat)
  | addBinary
  | classify (index : Nat) (delegable : Bool)
  | dragSeconds (index seconds : Nat)
  | editPatterns (index : Nat) (text : String)
  | removeCategory (index : Nat)
  | addCategory
  | editSocket (index : Nat) (path permissions : String)
  | removeSocket (index : Nat)
  | addSocket
  | dragLimit (index limit : Nat)
  | toggleContext (index : Nat) (enabled : Bool)
  deriving DecidableEq, Repr

namespace RowEdit

section Rows

variable {α : Type*}

/-- A row that is there and can be changed. -/
def modifyRow (index : Nat) (change : α → Option α) (rows : List α) : Option (List α) :=
  (rows[index]?.bind change).map (rows.set index)

def removeRow (index : Nat) (rows : List α) : Option (List α) :=
  if index < rows.length then some (rows.eraseIdx index) else none

end Rows

def tab : RowEdit → AdminTab
  | editBinary .. | removeBinary .. | addBinary => .allowlist
  | classify .. | dragSeconds .. => .symbols
  | editPatterns .. | removeCategory .. | addCategory => .criteria
  | editSocket .. | removeSocket .. | addSocket => .sockets
  | dragLimit .. | toggleContext .. => .branches

/-- The combo box of the classification is the one control that does not report a change. -/
def marks : RowEdit → Bool
  | classify .. => false
  | _ => true

/-- The seconds of a critical symbol are not shown. -/
def rows (self : PanelRows) : RowEdit → Option PanelRows
  | editBinary index row =>
    (modifyRow index (fun _ => some row) self.execAllowlist).map fun rows =>
      { self with execAllowlist := rows }
  | removeBinary index =>
    (removeRow index self.execAllowlist).map fun rows => { self with execAllowlist := rows }
  | addBinary =>
    some { self with execAllowlist := self.execAllowlist ++ [⟨"new_binary", "", true, ""⟩] }
  | classify index delegable =>
    (modifyRow index (fun row =>
      some { row with classification := if delegable then "delegable" else "critical" })
        self.symbolPolicy).map fun rows => { self with symbolPolicy := rows }
  | dragSeconds index seconds =>
    (modifyRow index (fun row =>
      if startsWith row.name "CRIT" then none
      else some { row with autoApproveSeconds := min seconds 3600 })
        self.symbolPolicy).map fun rows => { self with symbolPolicy := rows }
  | editPatterns index text =>
    (modifyRow index (fun row => some { row with patternsText := text }) self.criteria).map
      fun rows => { self with criteria := rows }
  | removeCategory index =>
    (removeRow index self.criteria).map fun rows => { self with criteria := rows }
  | addCategory => some { self with criteria := self.criteria ++ [⟨"new_category", ""⟩] }
  | editSocket index path permissions =>
    (modifyRow index (fun row => some { row with path, permissions }) self.sockets).map
      fun rows => { self with sockets := rows }
  | removeSocket index =>
    (removeRow index self.sockets).map fun rows => { self with sockets := rows }
  | addSocket =>
    some { self with sockets := self.sockets ++ [⟨"new_socket", "new_socket.sock", "0600"⟩] }
  | dragLimit index limit =>
    (modifyRow index (fun row => some { row with subChatLimit := max 1 (min limit 10) })
      self.branches).map fun rows => { self with branches := rows }
  | toggleContext index enabled =>
    (modifyRow index (fun row => some { row with contextEnabled := enabled }) self.branches).map
      fun rows => { self with branches := rows }

def warning (self : PanelRows) : RowEdit → Option String
  | classify index true =>
    (self.symbolPolicy[index]?.filter fun row => startsWith row.name "CRIT").map fun row =>
      "WARNING: attempting to reclassify " ++ row.name ++
        " (critical) as delegable — will be rejected on save."
  | _ => none

end RowEdit

/-- What an operator does to the panel. A reload may meet a file that cannot be read. -/
inductive PanelEvent
  | edit (edit : RowEdit)
  /-- The button to remove a symbol. -/
  | removeSymbol (index : Nat)
  | reload (unreadable : Bool) (tab : AdminTab)
  | save (circ : Circumstances) (tab : AdminTab)
  | confirm (circ : Circumstances)
  | cancel
  | dismiss

namespace Desk

variable (lib : Libraries) (self : Desk)

def clickEdit (edit : RowEdit) : Desk :=
  match edit.rows self.panel.toPanelRows with
  | none => self
  | some rows =>
    { self with
      panel := { self.panel with
        toPanelRows := rows
        dirty := if edit.marks then Function.update self.panel.dirty edit.tab true
          else self.panel.dirty
        statusMessage := (edit.warning self.panel.toPanelRows).getD self.panel.statusMessage } }

def clickRemoveSymbol (index : Nat) : Desk :=
  match self.panel.symbolPolicy[index]? with
  | none => self
  | some row =>
    self.status ("Cannot remove symbol " ++ row.name ++
      " from the config — symbol vocabulary is fixed in code.")

/-- One click or edit, as the panel takes it. -/
def turn : PanelEvent → Desk
  | .edit edit => self.clickEdit edit
  | .removeSymbol index => self.clickRemoveSymbol index
  | .reload unreadable tab => self.load lib unreadable tab
  | .save circ tab => clickSave lib circ self tab
  | .confirm circ => clickConfirm lib circ self
  | .cancel => self.clickCancel
  | .dismiss => self.status ""

end Desk

section Places

variable {dir dir' : String} {circ : Circumstances} {disk : FileSystem} {tab other : AdminTab}

/-- The ends that tell the files of the tabs apart. -/
def AdminTab.ending : AdminTab → List Char
  | .allowlist => "st.toml".toList
  | .symbols => "cy.toml".toList
  | .criteria => "ia.toml".toList
  | .sockets => "ts.toml".toList
  | .branches => "es.toml".toList

theorem ending_file (tab : AdminTab) : tab.ending <:+ tab.file.toList := by
  cases tab <;> decide

theorem length_ending (tab : AdminTab) : tab.ending.length = 7 := by
  cases tab <;> decide

theorem ending_inj (h : other.ending = tab.ending) : other = tab := by
  revert h
  cases other <;> cases tab <;> decide

theorem join_file_ne (h : other ≠ tab) :
    ExecutorAllowlist.join dir other.file ≠ ExecutorAllowlist.join dir' tab.file := by
  apply ne_of_ends (suffix_join (ending_file other)) (suffix_join (ending_file tab))
  · rw [length_ending, length_ending]
  · exact fun hsame => h (ending_inj hsame)

theorem file_not_mem_backupPlaces :
    ExecutorAllowlist.join dir other.file ∉ backupPlaces circ dir' tab.file disk := by
  obtain ⟨c, hne, hsuffix⟩ := suffix_backupName tab.file circ.seconds
  have hend : ['l'] <:+ other.file.toList := by
    have hl : ['l'] <:+ "toml".toList := by decide
    exact hl.trans (suffix_file other)
  have hbackup : ExecutorAllowlist.join dir other.file ≠
      ExecutorAllowlist.join dir' (backupName tab.file circ.seconds) := by
    apply ne_of_ends (suffix_join hend) (suffix_join hsuffix)
    · rfl
    · simpa using hne.symm
  unfold backupPlaces
  split
  next => exact List.not_mem_nil
  next => exact fun h => hbackup (Disk.Fault.eq_of_mem_places h)

/-- A write opens the files of other tabs never, and its own only if it is not refused. -/
theorem file_not_mem_writePlaces
    (h : other = tab → Prepared circ dir' tab.file disk → ∃ e, circ.write = some (.refused e)) :
    ExecutorAllowlist.join dir other.file ∉ writePlaces circ dir' tab.file disk := by
  rw [writePlaces, List.mem_append, not_or]
  refine ⟨file_not_mem_backupPlaces, ?_⟩
  split
  next hprepared =>
    by_cases hsame : other = tab
    · obtain ⟨e, hrefused⟩ := h hsame hprepared
      rw [hrefused]
      exact List.not_mem_nil
    · exact fun hmem => join_file_ne hsame (Disk.Fault.eq_of_mem_places hmem)
  next => exact List.not_mem_nil

theorem file_not_mem_auditPlaces {self : Desk} :
    ExecutorAllowlist.join dir other.file ∉ self.auditPlaces circ := by
  have hne : ExecutorAllowlist.join dir other.file ≠ self.auditPath circ := by
    apply ne_of_ends (suffix_join (suffix_file other))
      (suffix_join (suffix_currentMonthFilename circ))
    · rfl
    · decide
  unfold Desk.auditPlaces
  split
  next => exact fun h => hne (Disk.Fault.eq_of_mem_places h)
  next => exact List.not_mem_nil

end Places

/-- The save is not cut off within the file. -/
def Circumstances.Whole (circ : Circumstances) : Prop :=
  ∀ e taken, circ.write ≠ some (.cut e taken)

namespace Desk

variable {lib : Libraries} {unreadable : Bool} {self desk : Desk} {circ : Circumstances}
  {tab other : AdminTab} {text : String}

theorem found_congr (hroot : desk.panel.configRoot = self.panel.configRoot)
    (hfiles : ∀ dir, desk.disk.files (ExecutorAllowlist.join dir tab.file) =
      self.disk.files (ExecutorAllowlist.join dir tab.file)) :
    desk.found lib unreadable tab = self.found lib unreadable tab := by
  have hplace : desk.configPath tab.file = self.configPath tab.file := by
    rw [configPath, configPath, hroot]
  have hfind : desk.findFile lib tab.file = self.findFile lib tab.file := by
    simp only [findFile, hplace]
    rw [configPath, hfiles]
  have hthere : ∃ dir, self.findFile lib tab.file = ExecutorAllowlist.join dir tab.file := by
    by_cases hfile : (self.disk.files (self.configPath tab.file)).isSome
    · exact ⟨self.panel.configRoot, if_pos hfile⟩
    · exact ⟨ExecutorAllowlist.join lib.manifestDir "../../config", if_neg hfile⟩
  obtain ⟨dir, hdir⟩ := hthere
  rw [found, found, hfind, hdir, FileSystem.readToString, FileSystem.readToString, hfiles]

/-- A save that is given up leaves the files of the tabs, if it is not cut off within its own. -/
theorem files_of_failed
    (hwrite : (writeWithBackup circ self.panel.configRoot tab.file text self.disk).2 ≠ .ok ())
    (hwhole : other = tab → circ.Whole) (dir : String) :
    (writeWithBackup circ self.panel.configRoot tab.file text self.disk).1.files
      (ExecutorAllowlist.join dir other.file) =
        self.disk.files (ExecutorAllowlist.join dir other.file) := by
  apply touches_writeWithBackup.files
  apply file_not_mem_writePlaces
  intro hsame hprepared
  cases hfault : circ.write with
  | none => exact absurd (writeWithBackup_snd_eq_ok_iff.mpr ⟨hprepared, hfault⟩) hwrite
  | some fault =>
    cases fault with
    | refused e => exact ⟨e, rfl⟩
    | cut e taken => exact absurd hfault (hwhole hsame e taken)

/-- A save gives up with a message, or writes the text of its rows and takes the mark away. The files
of the other tabs stay as they are. -/
theorem save_spec (lib : Libraries) (circ : Circumstances) (self : Desk) (tab : AdminTab) :
    (∃ disk message, save lib circ self tab = (Desk.mk self.panel disk).status message ∧
      ∀ other, (other = tab → circ.Whole) → ∀ dir,
        disk.files (ExecutorAllowlist.join dir other.file) =
          self.disk.files (ExecutorAllowlist.join dir other.file)) ∨
      ∃ text, self.raw lib tab = .ok text ∧
        (save lib circ self tab).panel.dirty = Function.update self.panel.dirty tab false ∧
        (save lib circ self tab).disk.files (self.configPath tab.file) = some (utf8 text) ∧
        ∀ other, other ≠ tab → ∀ dir,
          (save lib circ self tab).disk.files (ExecutorAllowlist.join dir other.file) =
            self.disk.files (ExecutorAllowlist.join dir other.file) := by
  cases hcheck : self.check lib tab with
  | error e => exact .inl ⟨self.disk, _, save_of_invalid hcheck, fun _ _ _ => rfl⟩
  | ok u =>
    cases hraw : self.raw lib tab with
    | error e => exact .inl ⟨self.disk, _, save_of_unserialised hcheck hraw, fun _ _ _ => rfl⟩
    | ok text =>
      cases hwrite : (writeWithBackup circ self.panel.configRoot tab.file text self.disk).2 with
      | error e =>
        refine .inl ⟨_, _, save_of_failed hcheck hraw hwrite, ?_⟩
        intro other hwhole dir
        exact files_of_failed (by rw [hwrite]; exact nofun) hwhole dir
      | ok u =>
        have hsaved := save_of_written hcheck hraw hwrite
        obtain ⟨hprepared, hnone⟩ := writeWithBackup_snd_eq_ok_iff.mp hwrite
        refine .inr ⟨text, rfl, by rw [hsaved]; rfl, ?_, ?_⟩
        · rw [hsaved, configPath, touches_recordAudit.files _ file_not_mem_auditPlaces]
          exact files_writeWithBackup hprepared hnone
        · intro other hother dir
          rw [hsaved, touches_recordAudit.files _ file_not_mem_auditPlaces]
          apply touches_writeWithBackup.files
          exact file_not_mem_writePlaces fun hsame => absurd hsame hother

end Desk

/-- A configuration without the classifications of its symbols. -/
def AdminConfig.unclassified (self : AdminConfig) : AdminConfig :=
  { self with
    symbols := self.symbols.map fun symbol => { symbol with classification := "" }
    policy := self.policy.map fun entry => { entry with classification := "" } }

section Edits

variable {α β : Type*} {edit : RowEdit} {rows rows' : PanelRows} {tab : AdminTab}

theorem map_modifyRow {g : α → β} {change : α → Option α} {index : Nat} {xs ys : List α}
    (hg : ∀ row row', change row = some row' → g row' = g row)
    (h : RowEdit.modifyRow index change xs = some ys) : ys.map g = xs.map g := by
  obtain ⟨row', hbind, hset⟩ := Option.map_eq_some_iff.mp h
  obtain ⟨row, hrow, hchange⟩ := Option.bind_eq_some_iff.mp hbind
  obtain ⟨hlt, hget⟩ := List.getElem?_eq_some_iff.mp hrow
  have hsame : xs.map g = (xs.map g).set index (g row) := by
    apply List.ext_getElem?
    intro i
    rw [List.getElem?_set]
    split
    next hi =>
      rw [← hi, List.getElem?_map, hrow]
      simp [hlt]
    next => rfl
  rw [← hset, List.map_set, hg row row' hchange, ← hsame]

theorem only_rows_of_ne (h : edit.rows rows = some rows') (hne : tab ≠ edit.tab) :
    rows'.only tab = rows.only tab := by
  cases edit
  all_goals
    simp only [RowEdit.rows, Option.map_eq_some_iff, Option.some.injEq] at h
    obtain ⟨_, _, rfl⟩ := h
    cases tab
    all_goals first | exact absurd rfl hne | rfl

theorem symbolPolicy_of_only (h : rows'.only .symbols = rows.only .symbols) :
    rows'.symbolPolicy = rows.symbolPolicy := by
  simpa [PanelRows.only] using h

/-- No control changes the names and descriptions of the symbols. -/
theorem names_rows (h : edit.rows rows = some rows') :
    rows'.symbolPolicy.map (fun row => (row.name, row.description)) =
      rows.symbolPolicy.map fun row => (row.name, row.description) := by
  by_cases htab : AdminTab.symbols = edit.tab
  · cases edit with
    | classify index delegable =>
      obtain ⟨xs, hmodify, rfl⟩ := Option.map_eq_some_iff.mp h
      exact map_modifyRow (fun row row' hrow => by cases hrow; rfl) hmodify
    | dragSeconds index seconds =>
      obtain ⟨xs, hmodify, rfl⟩ := Option.map_eq_some_iff.mp h
      refine map_modifyRow (fun row row' hrow => ?_) hmodify
      split at hrow
      next => exact nomatch hrow
      next =>
        cases hrow
        rfl
    | _ => exact nomatch htab
  · rw [symbolPolicy_of_only (only_rows_of_ne h htab)]

theorem described_of_names {xs ys : List SymbolPolicyRow}
    (h : xs.map (fun row => (row.name, row.description)) =
      ys.map fun row => (row.name, row.description))
    (hdescribed : Described ys) : Described xs := by
  have hpair : ∀ row ∈ xs, ∃ row' ∈ ys, row'.name = row.name ∧
      row'.description = row.description := by
    intro row hrow
    have hmem : (row.name, row.description) ∈
        ys.map fun row => (row.name, row.description) := by
      rw [← h]
      exact List.mem_map.mpr ⟨row, hrow, rfl⟩
    obtain ⟨row', hrow', hsame⟩ := List.mem_map.mp hmem
    obtain ⟨hname, hdescription⟩ := Prod.mk.inj hsame
    exact ⟨row', hrow', hname, hdescription⟩
  intro row hrow other hother hname
  obtain ⟨row', hrow', hname', hsame⟩ := hpair row hrow
  obtain ⟨other', hother', hothername, hothersame⟩ := hpair other hother
  have heq := hdescribed row' hrow' other' hother' (by rw [hname', hname, hothername])
  rw [← hsame, heq, hothersame]

/-- A control that does not mark its tab changes classifications only. -/
theorem unclassified_rows (h : edit.rows rows = some rows') (hmarks : edit.marks = false) :
    edit.tab = .symbols ∧ (buildAdminConfigFromRows (rows'.only .symbols)).unclassified =
      (buildAdminConfigFromRows (rows.only .symbols)).unclassified := by
  cases edit with
  | classify index delegable =>
    obtain ⟨xs, hmodify, rfl⟩ := Option.map_eq_some_iff.mp h
    have hsymbols : xs.map (fun row => (⟨row.name, "", row.description⟩ : SymbolDefinition)) =
        rows.symbolPolicy.map fun row => ⟨row.name, "", row.description⟩ :=
      map_modifyRow (fun row row' hrow => by cases hrow; rfl) hmodify
    have hpolicy : xs.map (fun row => (⟨row.name, "", row.autoApproveSeconds⟩ :
        PolicySymbolEntry)) = rows.symbolPolicy.map fun row =>
          ⟨row.name, "", row.autoApproveSeconds⟩ :=
      map_modifyRow (fun row row' hrow => by cases hrow; rfl) hmodify
    refine ⟨rfl, ?_⟩
    simp only [AdminConfig.unclassified, buildAdminConfigFromRows, PanelRows.only, List.map_map]
    congr 1
  | _ => exact Bool.noConfusion (hmarks : true = false)

end Edits

namespace Desk

/-- Outside the tab of the symbols there is nothing classified. -/
theorem unclassified_build (rows : PanelRows) {tab : AdminTab} (h : tab ≠ .symbols) :
    (buildAdminConfigFromRows (rows.only tab)).unclassified =
      buildAdminConfigFromRows (rows.only tab) := by
  cases tab <;> first | exact absurd rfl h | rfl

/-- A tab without its mark has rows for what its file holds, as far as the view goes. -/
structure Coherent (lib : Libraries) (view : AdminConfig → AdminConfig) (desk : Desk) : Prop where
  described : Described desk.panel.symbolPolicy
  shown : ∀ tab, desk.panel.dirty tab = false →
    view (buildAdminConfigFromRows (tab.rowsOf lib (desk.found lib false tab))) =
      view (desk.typed tab)

variable {lib : Libraries} {view : AdminConfig → AdminConfig} {self desk : Desk}
  {circ : Circumstances} {tab : AdminTab}

theorem Coherent.congr (h : Coherent lib view self)
    (hrows : desk.panel.toPanelRows = self.panel.toPanelRows)
    (hroot : desk.panel.configRoot = self.panel.configRoot)
    (hdirty : desk.panel.dirty = self.panel.dirty) (hdisk : desk.disk = self.disk) :
    Coherent lib view desk := by
  refine ⟨by rw [hrows]; exact h.described, ?_⟩
  intro tab hclean
  have hfound : desk.found lib false tab = self.found lib false tab :=
    found_congr hroot fun _ => by rw [hdisk]
  rw [hdirty] at hclean
  rw [hfound, typed, hrows]
  exact h.shown tab hclean

theorem coherent_edit {edit : RowEdit} (h : Coherent lib view self)
    (hview : edit.marks = false → ∀ config, view config.unclassified = view config) :
    Coherent lib view (self.clickEdit edit) := by
  unfold clickEdit
  cases hrows : edit.rows self.panel.toPanelRows with
  | none => exact h
  | some rows =>
    refine ⟨described_of_names (names_rows hrows) h.described, ?_⟩
    intro tab hclean
    by_cases htab : tab = edit.tab
    · cases hmarks : edit.marks with
      | true => simp [hmarks, htab] at hclean
      | false =>
        obtain ⟨hsymbols, hsame⟩ := unclassified_rows hrows hmarks
        have hclean' : self.panel.dirty tab = false := by simpa [hmarks] using hclean
        have hshown := h.shown tab hclean'
        have hbuild : view (buildAdminConfigFromRows (rows.only tab)) =
            view (self.typed tab) := by
          rw [htab, hsymbols, ← hview hmarks, hsame, hview hmarks]
          rfl
        exact hshown.trans hbuild.symm
    · have hclean' : self.panel.dirty tab = false := by
        cases hmarks : edit.marks with
        | true => simpa [hmarks, Function.update_of_ne htab] using hclean
        | false => simpa [hmarks] using hclean
      have honly : buildAdminConfigFromRows (rows.only tab) = self.typed tab := by
        rw [typed, only_rows_of_ne hrows htab]
      exact (h.shown tab hclean').trans (congrArg view honly.symm)

theorem coherent_load (h : Coherent lib view self) (tab : AdminTab) :
    Coherent lib view (self.load lib false tab) := by
  have hfound : ∀ other, (self.load lib false tab).found lib false other =
      self.found lib false other := by
    intro other
    cases tab <;> rfl
  constructor
  · by_cases htab : AdminTab.symbols = tab
    · have hrows : (self.load lib false tab).panel.symbolPolicy =
          (AdminTab.symbols.rowsOf lib (self.found lib false .symbols)).symbolPolicy := by
        rw [← htab]
        rfl
      rw [hrows]
      exact described_rowsOf
    · have hrows : (self.load lib false tab).panel.symbolPolicy = self.panel.symbolPolicy :=
        symbolPolicy_of_only (only_load_of_ne htab)
      rw [hrows]
      exact h.described
  · intro other hclean
    rw [hfound]
    by_cases hother : other = tab
    · rw [hother, typed, only_load]
    · rw [typed, only_load_of_ne hother]
      rw [dirty_load, Function.update_of_ne hother] at hclean
      exact h.shown other hclean

theorem coherent_save
    (hround : ∀ config raw, lib.toml.adminToString config = .ok raw →
      lib.toml.adminFromStr raw = .ok config)
    (h : Coherent lib view self) (hwhole : self.panel.dirty tab = false → circ.Whole) :
    Coherent lib view (save lib circ self tab) := by
  have hrows : (save lib circ self tab).panel.toPanelRows = self.panel.toPanelRows := panel_save.1
  have hroot : (save lib circ self tab).panel.configRoot = self.panel.configRoot := panel_save.2
  refine ⟨by rw [hrows]; exact h.described, ?_⟩
  intro other hclean
  rw [typed, hrows]
  rcases save_spec lib circ self tab with
    ⟨disk, message, hsave, hfiles⟩ | ⟨text, hraw, hdirty, hfile, hothers⟩
  · rw [hsave] at hclean ⊢
    have hclean' : self.panel.dirty other = false := hclean
    have hfound : ((Desk.mk self.panel disk).status message).found lib false other =
        self.found lib false other := by
      have hroot : ((Desk.mk self.panel disk).status message).panel.configRoot =
          self.panel.configRoot := rfl
      apply found_congr hroot
      apply hfiles
      intro hother
      rw [hother] at hclean'
      exact hwhole hclean'
    rw [hfound]
    exact h.shown other hclean'
  · by_cases hother : other = tab
    · have hfound : (save lib circ self tab).found lib false tab = some text :=
        read_of_saved hfile
      rw [hother, hfound, typed_of_saved hround h.described hraw]
      rfl
    · have hfound : (save lib circ self tab).found lib false other =
          self.found lib false other := found_congr hroot (hothers other hother)
      rw [hdirty, Function.update_of_ne hother] at hclean
      rw [hfound]
      exact h.shown other hclean

theorem coherent_new {host : AuditHost} {configRoot : String} {disk : FileSystem} :
    Coherent lib view (new lib false host configRoot disk) := by
  refine ⟨described_rowsOf, ?_⟩
  intro tab _
  rw [typed, only_new]

end Desk

namespace PanelEvent

/-- A confirmed save is not cut off within its file, and a reload can read its file. -/
def Whole : PanelEvent → Prop
  | .confirm circ => circ.Whole
  | .reload unreadable _ => unreadable = false
  | _ => True

/-- A classification is chosen. -/
def Classifies : PanelEvent → Prop
  | .edit change => change.marks = false
  | _ => False

end PanelEvent

open Desk

section Turns

variable {lib : Libraries} {view : AdminConfig → AdminConfig} {self : Desk}

theorem coherent_turn {event : PanelEvent}
    (hround : ∀ config raw, lib.toml.adminToString config = .ok raw →
      lib.toml.adminFromStr raw = .ok config)
    (h : Coherent lib view self) (hwhole : event.Whole)
    (hview : event.Classifies → ∀ config, view config.unclassified = view config) :
    Coherent lib view (self.turn lib event) := by
  have hdismissed : Coherent lib view self.dismissed := h.congr rfl rfl rfl rfl
  cases event with
  | edit edit => exact coherent_edit h hview
  | removeSymbol index =>
    rw [turn, clickRemoveSymbol]
    cases self.panel.symbolPolicy[index]? with
    | none => exact h
    | some row => exact h.congr rfl rfl rfl rfl
  | reload unreadable tab =>
    have hreadable : unreadable = false := hwhole
    rw [hreadable]
    exact coherent_load h tab
  | save circ tab =>
    rw [turn, clickSave]
    split
    next henabled =>
      cases question lib circ self tab with
      | none =>
        refine coherent_save hround h fun hclean => ?_
        rw [saveEnabled, hclean] at henabled
        cases henabled
      | some dialog => exact h.congr rfl rfl rfl rfl
    next => exact h
  | confirm circ =>
    rw [turn, clickConfirm]
    cases self.panel.confirmDialog with
    | none => exact h
    | some dialog =>
      cases hdialog : dialog.tab with
      | none => simpa only [hdialog] using hdismissed
      | some tab =>
        have hsaved : Coherent lib view (Desk.save lib circ self.dismissed tab) :=
          coherent_save hround hdismissed fun _ => hwhole
        simpa only [hdialog] using hsaved
  | cancel =>
    rw [turn, clickCancel]
    cases self.panel.confirmDialog with
    | none => exact h
    | some dialog => exact h.congr rfl rfl rfl rfl
  | dismiss => exact h.congr rfl rfl rfl rfl

theorem coherent_run {events : List PanelEvent} {start : Desk}
    (hround : ∀ config raw, lib.toml.adminToString config = .ok raw →
      lib.toml.adminFromStr raw = .ok config)
    (hstart : Coherent lib view start) (hwhole : ∀ event ∈ events, event.Whole)
    (hview : (∃ event ∈ events, event.Classifies) →
      ∀ config, view config.unclassified = view config) :
    Coherent lib view (run (turn lib) start events) := by
  induction events using List.reverseRecOn with
  | nil => exact hstart
  | append_singleton events event ih =>
    rw [run_concat]
    refine coherent_turn hround (ih ?_ ?_) (hwhole event (by simp)) ?_
    · exact fun other hother => hwhole other (by simp [hother])
    · rintro ⟨other, hother, hclassifies⟩
      exact hview ⟨other, by simp [hother], hclassifies⟩
    · intro hclassifies
      exact hview ⟨event, by simp, hclassifies⟩

end Turns

/-- Whatever is edited, reloaded and saved in a session of the panel, a tab without its mark has rows
for what its file holds: a reload gives rows for the same configuration. For the symbols that leaves
out the classifications, if one of these was chosen. -/
theorem clean_tabs_show_files {lib : Libraries} {host : AuditHost} {configRoot : String}
    {disk : FileSystem} {events : List PanelEvent} {tab : AdminTab}
    (hround : ∀ config raw, lib.toml.adminToString config = .ok raw →
      lib.toml.adminFromStr raw = .ok config)
    (hwhole : ∀ event ∈ events, event.Whole)
    (hclean : (run (turn lib) (.new lib false host configRoot disk) events).panel.dirty tab =
      false) :
    let desk := run (turn lib) (.new lib false host configRoot disk) events
    ((desk.load lib false tab).typed tab).unclassified = (desk.typed tab).unclassified ∧
      ((tab = .symbols → ∀ event ∈ events, ¬event.Classifies) →
        (desk.load lib false tab).typed tab = desk.typed tab) := by
  intro desk
  have hidem : ∀ config : AdminConfig, config.unclassified.unclassified = config.unclassified := by
    intro config
    simp only [AdminConfig.unclassified, List.map_map]
    rfl
  have hpart : Coherent lib AdminConfig.unclassified desk :=
    coherent_run hround coherent_new hwhole fun _ => hidem
  have hunclassified : ((desk.load lib false tab).typed tab).unclassified =
      (desk.typed tab).unclassified := by
    rw [Desk.typed, only_load]
    exact hpart.shown tab hclean
  refine ⟨hunclassified, fun hchosen => ?_⟩
  by_cases htab : tab = .symbols
  · have hwhole' : Coherent lib id desk := by
      refine coherent_run hround coherent_new hwhole ?_
      rintro ⟨event, hevent, hclassifies⟩
      exact absurd hclassifies (hchosen htab event hevent)
    have hshown := hwhole'.shown tab hclean
    rw [← only_load] at hshown
    exact hshown
  · rw [Desk.typed, unclassified_build _ htab, Desk.typed, unclassified_build _ htab] at hunclassified
    exact hunclassified

/-- Another spelling of the arguments is saved. -/
def spelledEvents : List PanelEvent :=
  [.edit (.editBinary 0 ⟨"cargo", "/usr/bin/cargo", true, "--version,-q"⟩), .save .calm .allowlist]

/-- There is no log yet. -/
def unloggedHost : AuditHost :=
  ⟨false, .ok [], fun _ => none, ⟨.other, "stream did not contain valid UTF-8"⟩⟩

theorem clean_tabs_show_files_cargo :
    let desk := run (turn oneLibraries)
      (.new oneLibraries false unloggedHost "/home/op/.config/ai-bridge" oneDesk.disk) spelledEvents
    (desk.load oneLibraries false .allowlist).typed .allowlist = desk.typed .allowlist := by
  have hwhole : ∀ event ∈ spelledEvents, event.Whole := by
    intro event hmem
    rcases List.mem_pair.mp hmem with heq | heq
    · rw [heq]
      trivial
    · rw [heq]
      trivial
  have hclean : (run (turn oneLibraries) (.new oneLibraries false unloggedHost
      "/home/op/.config/ai-bridge" oneDesk.disk) spelledEvents).panel.dirty .allowlist = false := by
    decide +kernel
  exact (clean_tabs_show_files knownToml_round hwhole hclean).2 fun h => nomatch h

end AiBridge
