import AiBridge.Pieces
import AiBridge.SavedConfig

namespace AiBridge

open Text

def CriteriaRow.fromSet (set : CriteriaPatternSet) : CriteriaRow where
  category := set.category
  patternsText := String.intercalate "\n" set.patterns

/-- An entry that a row can hold: no empty path, and arguments that are not empty, have no blanks at
their ends and no commas. -/
structure BinaryEntry.FitsRow (entry : BinaryEntry) : Prop where
  path : entry.path ≠ some ""
  args : ∀ arg ∈ entry.args, IsPiece ',' arg

/-- A set that a row can hold: patterns that are not empty, have no blanks at their ends and no
newlines. -/
def CriteriaPatternSet.FitsRow (set : CriteriaPatternSet) : Prop :=
  ∀ pattern ∈ set.patterns, IsPiece '\n' pattern

theorem splitArgs_fromBinary_iff {entry : BinaryEntry} :
    (ExecAllowlistRow.fromBinary entry).splitArgs = entry.args ↔
      ∀ arg ∈ entry.args, IsPiece ',' arg := by
  have hsep : ", ".toList = [',', ' '] := by decide
  have hgap : ∀ c ∈ [' '], isWhitespace c = true ∧ c ≠ ',' := by
    intro c hc
    rw [List.mem_singleton.mp hc]
    exact ⟨by decide, by decide⟩
  rw [← trimmedPieces_join_iff hgap, ← hsep, ← String.toList_intercalate]
  rfl

theorem toBinary_fromBinary_iff {entry : BinaryEntry} :
    (ExecAllowlistRow.fromBinary entry).toBinary = entry ↔ entry.FitsRow := by
  have hpath : (if entry.path.getD "" = "" then none else some (entry.path.getD "")) = entry.path ↔
      entry.path ≠ some "" := by
    cases entry.path with
    | none => simp
    | some path =>
      by_cases hempty : path = ""
      · simp [hempty]
      · simp [hempty]
  obtain ⟨name, allowed, path, args⟩ := entry
  rw [ExecAllowlistRow.toBinary, BinaryEntry.mk.injEq, splitArgs_fromBinary_iff]
  constructor
  · intro h
    exact ⟨hpath.mp h.2.2.1, h.2.2.2⟩
  · intro h
    exact ⟨rfl, rfl, hpath.mpr h.path, h.args⟩

theorem toPatternSet_fromSet_iff {set : CriteriaPatternSet} :
    (CriteriaRow.fromSet set).toPatternSet = set ↔ set.FitsRow := by
  have hsep : "\n".toList = ['\n'] := by decide
  have hgap : ∀ c ∈ ([] : List Char), isWhitespace c = true ∧ c ≠ '\n' := by simp
  obtain ⟨category, patterns⟩ := set
  rw [CriteriaPatternSet.FitsRow, ← trimmedPieces_join_iff hgap, ← hsep,
    ← String.toList_intercalate, CriteriaRow.toPatternSet, CriteriaPatternSet.mk.injEq]
  exact ⟨fun h => h.2, fun h => ⟨rfl, h⟩⟩

/-- A list is left as it is exactly if each of its members is. -/
theorem map_eq_self_iff {α : Type*} {f : α → α} {xs : List α} :
    xs.map f = xs ↔ ∀ x ∈ xs, f x = x := by
  induction xs with
  | nil => simp
  | cons x xs ih => rw [List.map_cons, List.cons.injEq, List.forall_mem_cons, ih]

namespace Desk

section Load

variable (lib : Libraries) (unreadable : Bool) (self : Desk)

/-- What reading and parsing the file of a tab gives, where both go well. -/
def readAllowlist : Option AllowlistConfig :=
  (FileSystem.readToString self.disk unreadable
    (self.findFile lib "executor_allowlist.toml")).bind fun raw =>
      (lib.toml.allowlistFromStr raw).toOption

def readCriteria : Option AdminConfig :=
  (FileSystem.readToString self.disk unreadable (self.findFile lib "criteria.toml")).bind fun raw =>
    (lib.toml.adminFromStr raw).toOption

def loadExecAllowlist : Desk :=
  { self with
    panel := { self.panel with
      execAllowlist := ((readAllowlist lib unreadable self).map fun cfg =>
        cfg.binaries.map ExecAllowlistRow.fromBinary).getD []
      dirty := Function.update self.panel.dirty .allowlist false } }

def loadCriteria : Desk :=
  { self with
    panel := { self.panel with
      criteria := ((readCriteria lib unreadable self).map fun cfg =>
        cfg.criteria.map CriteriaRow.fromSet).getD []
      dirty := Function.update self.panel.dirty .criteria false } }

end Load

variable {lib : Libraries} {unreadable : Bool} {self : Desk} {circ : Circumstances}

theorem rows_loadExecAllowlist {config : AllowlistConfig}
    (h : self.readAllowlist lib unreadable = some config) :
    (self.loadExecAllowlist lib unreadable).panel.execAllowlist =
      config.binaries.map ExecAllowlistRow.fromBinary := by
  rw [loadExecAllowlist, h]
  rfl

theorem rows_loadCriteria {config : AdminConfig}
    (h : self.readCriteria lib unreadable = some config) :
    (self.loadCriteria lib unreadable).panel.criteria =
      config.criteria.map CriteriaRow.fromSet := by
  rw [loadCriteria, h]
  rfl

/-- The file that was saved is the one that is found from then on. -/
theorem read_of_saved {tab : AdminTab} {text : String}
    (hfile : (save lib circ self tab).disk.files (self.configPath tab.file) = some (utf8 text)) :
    FileSystem.readToString (save lib circ self tab).disk false
      ((save lib circ self tab).findFile lib tab.file) = some text := by
  have hroot : (save lib circ self tab).panel.configRoot = self.panel.configRoot := panel_save.2
  have hplace : (save lib circ self tab).configPath tab.file = self.configPath tab.file := by
    rw [configPath, configPath, hroot]
  have hfound : (save lib circ self tab).findFile lib tab.file = self.configPath tab.file := by
    simp only [findFile, hplace, hfile, Option.isSome_some, if_true]
  rw [hfound, FileSystem.readToString, hfile]
  simp [fromUtf8_utf8]

/-- An allowlist that is opened and saved is found as before exactly if its entries fit their
rows. -/
theorem reopened_allowlist_iff {config : AllowlistConfig}
    (hopened : self.readAllowlist lib unreadable = some config)
    (hsaved : Completes lib circ (self.loadExecAllowlist lib unreadable) .allowlist) :
    (save lib circ (self.loadExecAllowlist lib unreadable) .allowlist).readAllowlist lib false =
      some config ↔ ∀ entry ∈ config.binaries, entry.FitsRow := by
  obtain ⟨text, hraw, _, _, hfile⟩ := save_of_filled hsaved.1 hsaved.2
  have hparsed := lib.toml.allowlist_round (Checks.mapError_eq_ok_iff.mp hraw)
  have hread := read_of_saved hfile
  rw [AdminTab.file] at hread
  rw [readAllowlist, hread, Option.bind_some, hparsed, rows_loadExecAllowlist hopened,
    List.map_map, Except.toOption, Option.some.injEq]
  obtain ⟨binaries⟩ := config
  rw [AllowlistConfig.mk.injEq, map_eq_self_iff]
  apply forall₂_congr
  intro entry _
  exact toBinary_fromBinary_iff

/-- The same for the patterns, where a configuration is read as it was written. -/
theorem reopened_criteria_iff {config : AdminConfig}
    (hround : ∀ config raw, lib.toml.adminToString config = .ok raw →
      lib.toml.adminFromStr raw = .ok config)
    (hopened : self.readCriteria lib unreadable = some config)
    (hsaved : Completes lib circ (self.loadCriteria lib unreadable) .criteria) :
    ((save lib circ (self.loadCriteria lib unreadable) .criteria).readCriteria lib false).map
        AdminConfig.criteria = some config.criteria ↔ ∀ set ∈ config.criteria, set.FitsRow := by
  obtain ⟨text, hraw, _, _, hfile⟩ := save_of_filled hsaved.1 hsaved.2
  have hread := read_of_saved hfile
  rw [AdminTab.file] at hread
  have hcriteria : ((self.loadCriteria lib unreadable).typed .criteria).criteria =
      (config.criteria.map CriteriaRow.fromSet).map CriteriaRow.toPatternSet := by
    rw [← rows_loadCriteria hopened]
    rfl
  rw [readCriteria, hread, Option.bind_some, hround _ _ hraw, Except.toOption, Option.map_some,
    hcriteria, List.map_map, Option.some.injEq, map_eq_self_iff]
  apply forall₂_congr
  intro set _
  exact toPatternSet_fromSet_iff

end Desk

open Desk

/-- An entry comes back from its row exactly if it fits the row, and a file that is opened and saved
keeps its binaries, or its patterns, exactly if all of them fit. -/
theorem open_and_save_iff (lib : Libraries)
    (hround : ∀ config raw, lib.toml.adminToString config = .ok raw →
      lib.toml.adminFromStr raw = .ok config) :
    (∀ entry, (ExecAllowlistRow.fromBinary entry).toBinary = entry ↔ entry.FitsRow) ∧
    (∀ set, (CriteriaRow.fromSet set).toPatternSet = set ↔ set.FitsRow) ∧
    ∀ (self : Desk) (circ : Circumstances) (unreadable : Bool),
      (∀ config, self.readAllowlist lib unreadable = some config →
        Completes lib circ (self.loadExecAllowlist lib unreadable) .allowlist →
        ((save lib circ (self.loadExecAllowlist lib unreadable) .allowlist).readAllowlist lib
            false = some config ↔ ∀ entry ∈ config.binaries, entry.FitsRow)) ∧
      ∀ config, self.readCriteria lib unreadable = some config →
        Completes lib circ (self.loadCriteria lib unreadable) .criteria →
        (((save lib circ (self.loadCriteria lib unreadable) .criteria).readCriteria lib
            false).map AdminConfig.criteria = some config.criteria ↔
          ∀ set ∈ config.criteria, set.FitsRow) := by
  refine ⟨fun _ => toBinary_fromBinary_iff, fun _ => toPatternSet_fromSet_iff, ?_⟩
  intro self circ unreadable
  constructor
  · intro config hopened hsaved
    exact reopened_allowlist_iff hopened hsaved
  · intro config hopened hsaved
    exact reopened_criteria_iff hround hopened hsaved

/-- A writer of one configuration reads it back. -/
theorem knownToml_round {list : AllowlistConfig} {text : String} {known : AdminConfig}
    {document : String} (config : AdminConfig) (raw : String)
    (h : (knownToml list text [(known, document)]).adminToString config = .ok raw) :
    (knownToml list text [(known, document)]).adminFromStr raw = .ok config := by
  by_cases hknown : known = config
  · have hraw : document = raw := by simpa [knownToml, hknown] using h
    simp [knownToml, hknown, hraw]
  · simp [knownToml, hknown] at h

def oneBinary : AllowlistConfig := ⟨[⟨"cargo", true, some "/usr/bin/cargo", ["--version", "-q"]⟩]⟩

def oneBinaryText : String :=
  "[[binaries]]\nname = \"cargo\"\nallowed = true\npath = \"/usr/bin/cargo\"\n" ++
    "args = [\"--version\", \"-q\"]\n"

def oneLibraries : Libraries := knownLibraries oneBinary oneBinaryText [(.empty, emptyText)]

def oneDesk : Desk :=
  .unsaved ⟨[], [], [], [], []⟩ none
    [("/home/op/.config/ai-bridge/executor_allowlist.toml", oneBinaryText)]

/-- An allowlist with a path and two arguments is opened and saved. -/
theorem open_and_save_cargo :
    (save oneLibraries .calm (oneDesk.loadExecAllowlist oneLibraries false) .allowlist).readAllowlist
      oneLibraries false = some oneBinary := by
  have hopened : oneDesk.readAllowlist oneLibraries false = some oneBinary := by
    have hfound : oneDesk.findFile oneLibraries "executor_allowlist.toml" =
        "/home/op/.config/ai-bridge/executor_allowlist.toml" := by decide +kernel
    rw [readAllowlist, hfound, oneDesk, readToString_unsaved List.lookup_cons_self,
      Option.bind_some]
    simp [oneLibraries, knownLibraries, knownToml, Except.toOption]
  have hfits : ∀ entry ∈ oneBinary.binaries, entry.FitsRow := by
    intro entry hmem
    rw [List.mem_singleton.mp hmem]
    refine ⟨by decide, ?_⟩
    intro arg harg
    rcases List.mem_pair.mp harg with heq | heq
    · rw [heq]
      exact ⟨by decide, by decide, by decide⟩
    · rw [heq]
      exact ⟨by decide, by decide, by decide⟩
  have hraw : (oneDesk.loadExecAllowlist oneLibraries false).raw oneLibraries .allowlist =
      .ok oneBinaryText := by
    have hsame : (oneDesk.loadExecAllowlist oneLibraries false).panel.execAllowlist.map
        ExecAllowlistRow.toBinary = oneBinary.binaries := by
      rw [rows_loadExecAllowlist hopened, List.map_map, map_eq_self_iff]
      intro entry hmem
      exact toBinary_fromBinary_iff.mpr (hfits entry hmem)
    rw [Desk.raw, hsame]
    simp [oneLibraries, knownLibraries, knownToml, oneBinary, Except.mapError]
  have hsaved : Completes oneLibraries .calm (oneDesk.loadExecAllowlist oneLibraries false)
      .allowlist :=
    ⟨⟨rfl, ⟨oneBinaryText, hraw⟩, ⟨Or.inr rfl, rfl⟩, by simp [Circumstances.calm]⟩, rfl⟩
  have hspec := (open_and_save_iff oneLibraries knownToml_round).2.2 oneDesk .calm false
  exact (hspec.1 oneBinary hopened hsaved).mpr hfits

/-- A comma in an argument, an empty path and a blank that a pattern ends with are lost. -/
theorem rows_lose :
    (ExecAllowlistRow.fromBinary ⟨"printf", true, some "", ["%s,%s"]⟩).toBinary =
        ⟨"printf", true, none, ["%s", "%s"]⟩ ∧
      (CriteriaRow.fromSet ⟨"irreversibility", ["rm "]⟩).toPatternSet =
        ⟨"irreversibility", ["rm"]⟩ := by
  decide

end AiBridge
