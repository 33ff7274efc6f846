import AiBridge.PanelReload
import AiBridge.ValidatedCriteria

namespace AiBridge

open Text

/-- What `save_config` meets, with the texts of the errors. -/
structure ConfigSaveIo where
  createDirAll : Option String
  write : Option (Disk.Fault String)

namespace AdminConfig

/-- The sets that `seed_default_criteria` pushes. -/
def defaultCriteria : List CriteriaPatternSet :=
  let defaults := CriteriaConfig.defaultPatterns
  [⟨"irreversibility", defaults.irreversibility⟩, ⟨"system_security", defaults.systemSecurity⟩,
    ⟨"secrets", defaults.credentialsSecrets⟩, ⟨"exfiltration", defaults.dataExfiltration⟩,
    ⟨"financial", defaults.financial⟩, ⟨"third_party", defaults.thirdParty⟩]

def seedDefaultCriteria (self : AdminConfig) : AdminConfig :=
  if self.criteria = [] then { self with criteria := defaultCriteria } else self

def saveConfig (toml : Toml) (io : ConfigSaveIo) (config : AdminConfig) (path : String)
    (disk : FileSystem) : FileSystem × Except String Unit :=
  match toml.adminToString config with
  | .error message => (disk, .error message)
  | .ok raw =>
    match io.createDirAll with
    | some message => (disk, .error message)
    | none => disk.write io.write path (utf8 raw)

/-- Files that can all be read. -/
def Source.ofDisk (toml : Toml) (disk : FileSystem) : Source where
  readToString path :=
    match disk.files path with
    | none => .error ⟨.notFound, "No such file or directory (os error 2)"⟩
    | some bytes =>
      match fromUtf8 bytes with
      | none => .error ⟨.other, "stream did not contain valid UTF-8"⟩
      | some raw => .ok raw
  tomlFromStr := toml.adminFromStr

section Seed

variable {config : AdminConfig} {toml : Toml} {io : ConfigSaveIo} {path : String}
  {disk : FileSystem}

theorem toCriteriaConfig_congr {other : AdminConfig} (h : other.criteria = config.criteria) :
    other.toCriteriaConfig = config.toCriteriaConfig := by
  rw [toCriteriaConfig, toCriteriaConfig, h]

/-- The six categories put the shipped patterns where these are. -/
theorem toCriteriaConfig_seedDefaultCriteria (config : AdminConfig) :
    config.seedDefaultCriteria.toCriteriaConfig = config.toCriteriaConfig := by
  by_cases hnone : config.criteria = []
  · have hshipped : defaultCriteria.foldl overrideCategory .defaultPatterns =
        CriteriaConfig.defaultPatterns := by decide +kernel
    rw [seedDefaultCriteria, if_pos hnone, toCriteriaConfig, toCriteriaConfig, hnone]
    exact hshipped
  · rw [seedDefaultCriteria, if_neg hnone]

/-- The shipped patterns fit the rows of the panel. -/
theorem fitsRow_seedDefaultCriteria (h : ∀ set ∈ config.criteria, set.FitsRow) :
    ∀ set ∈ config.seedDefaultCriteria.criteria, set.FitsRow := by
  have hpieces : ∀ set ∈ defaultCriteria, ∀ pattern ∈ set.patterns,
      pattern ≠ "" ∧ trim pattern = pattern ∧ '\n' ∉ pattern.toList := by
    decide +kernel
  have hshipped : ∀ set ∈ defaultCriteria, set.FitsRow := by
    intro set hset pattern hpattern
    obtain ⟨hne, htrim, hfresh⟩ := hpieces set hset pattern hpattern
    exact ⟨hne, htrim, hfresh⟩
  unfold seedDefaultCriteria
  split
  next => exact hshipped
  next => exact h

theorem file_saveConfig (hsaved : (saveConfig toml io config path disk).2 = .ok ()) :
    ∃ raw, toml.adminToString config = .ok raw ∧
      (saveConfig toml io config path disk).1.files path = some (utf8 raw) := by
  unfold saveConfig at hsaved ⊢
  cases hraw : toml.adminToString config with
  | error message =>
    rw [hraw] at hsaved
    exact nomatch hsaved
  | ok raw =>
    rw [hraw] at hsaved
    refine ⟨raw, rfl, ?_⟩
    cases hdir : io.createDirAll with
    | some message =>
      rw [hdir] at hsaved
      exact nomatch hsaved
    | none =>
      rw [hdir] at hsaved
      simp only at hsaved ⊢
      rw [Disk.write, Disk.put_snd_eq_ok_iff] at hsaved
      rw [Disk.write, hsaved, Disk.put_none, List.nil_append]
      exact Disk.files_store_self

end Seed

end AdminConfig

open AdminConfig Desk

/-- A configuration that is seeded and saved decides every plan as before, read by a dry run or by
the panel, and goes on doing so when the panel opens its criteria and saves them. -/
theorem seeding_is_inert {rx : RegexEngine} {lib : Libraries} {config : AdminConfig}
    {io : ConfigSaveIo} {path : String} {disk : FileSystem} {self : Desk} {circ : Circumstances}
    (hround : ∀ config raw, lib.toml.adminToString config = .ok raw →
      lib.toml.adminFromStr raw = .ok config)
    (hsaved : (saveConfig lib.toml io config.seedDefaultCriteria path disk).2 = .ok ())
    (hdisk : self.disk = (saveConfig lib.toml io config.seedDefaultCriteria path disk).1)
    (hpath : self.findFile lib "criteria.toml" = path) :
    ((∃ loaded, dryRunValidate rx (.ofDisk lib.toml self.disk) path = .ok loaded) ↔
        config.seedDefaultCriteria.Valid rx) ∧
      (∀ loaded, dryRunValidate rx (.ofDisk lib.toml self.disk) path = .ok loaded ∨
          self.readCriteria lib false = some loaded → ∀ plan,
        decidePolicyWithConfig rx plan loaded.toCriteriaConfig =
          decidePolicyWithConfig rx plan config.toCriteriaConfig) ∧
      ((∀ set ∈ config.criteria, set.FitsRow) →
        Completes lib circ (self.loadCriteria lib false) .criteria →
          ∃ again, (save lib circ (self.loadCriteria lib false) .criteria).readCriteria lib false =
              some again ∧ ∀ plan,
            decidePolicyWithConfig rx plan again.toCriteriaConfig =
              decidePolicyWithConfig rx plan config.toCriteriaConfig) := by
  obtain ⟨raw, hraw, hfile⟩ := file_saveConfig hsaved
  rw [← hdisk] at hfile
  have hparsed := hround _ _ hraw
  have hload : loadConfig (.ofDisk lib.toml self.disk) path = .ok config.seedDefaultCriteria := by
    simp only [loadConfig, Source.ofDisk, hfile, fromUtf8_utf8, hparsed]
  have hread : self.readCriteria lib false = some config.seedDefaultCriteria := by
    rw [readCriteria, hpath, FileSystem.readToString, hfile]
    simp [fromUtf8_utf8, hparsed, Except.toOption]
  have hseeded := toCriteriaConfig_seedDefaultCriteria config
  refine ⟨?_, ?_, ?_⟩
  · simp only [dryRunValidate_eq_ok_iff, hload, Except.ok.injEq]
    constructor
    · rintro ⟨loaded, hsame, hvalid⟩
      rw [hsame]
      exact validate_eq_ok_iff.mp hvalid
    · exact fun hvalid => ⟨_, rfl, validate_eq_ok_iff.mpr hvalid⟩
  · intro loaded hloaded plan
    have hsame : loaded = config.seedDefaultCriteria := by
      rcases hloaded with hdry | hpanel
      · have hsame := (dryRunValidate_eq_ok_iff.mp hdry).1
        rw [hload] at hsame
        exact (Except.ok.inj hsame).symm
      · rw [hread] at hpanel
        exact (Option.some.inj hpanel).symm
    rw [hsame, hseeded]
  · intro hfits hcompletes
    have hreopened := (reopened_criteria_iff hround hread hcompletes).mpr
      (fitsRow_seedDefaultCriteria hfits)
    obtain ⟨again, hagain, hcriteria⟩ := Option.map_eq_some_iff.mp hreopened
    exact ⟨again, hagain, fun plan => by rw [toCriteriaConfig_congr hcriteria, hseeded]⟩

/-- A string as the crate writes it: between apostrophes if it has a backslash. -/
def tomlString (text : String) : String :=
  if '\\' ∈ text.toList then "'" ++ text ++ "'" else "\"" ++ text ++ "\""

def criteriaText (set : CriteriaPatternSet) : String :=
  "\n[[criteria]]\ncategory = " ++ tomlString set.category ++ "\npatterns = [" ++
    String.intercalate ", " (set.patterns.map tomlString) ++ "]\n"

def seededText : String :=
  "allowlist = []\nsymbols = []\npolicy = []\nsockets = []\nbranches = []\naudit = []\n" ++
    String.join (AdminConfig.defaultCriteria.map criteriaText)

def seededLibraries : Libraries :=
  knownLibraries ⟨[]⟩ "binaries = []\n" [(AdminConfig.empty.seedDefaultCriteria, seededText)]

def seededDesk : Desk where
  panel := (Desk.unsaved ⟨[], [], [], [], []⟩ none []).panel
  disk := (saveConfig seededLibraries.toml ⟨none, none⟩ AdminConfig.empty.seedDefaultCriteria
    "/home/op/.config/ai-bridge/criteria.toml" ⟨fun _ => none, []⟩).1

/-- The shipped criteria are saved and pass the dry run. -/
theorem seeding_is_inert_empty :
    ∃ loaded, dryRunValidate plainRegex.toRegexEngine (.ofDisk seededLibraries.toml seededDesk.disk)
      "/home/op/.config/ai-bridge/criteria.toml" = .ok loaded := by
  have hsaved : (saveConfig seededLibraries.toml ⟨none, none⟩ AdminConfig.empty.seedDefaultCriteria
      "/home/op/.config/ai-bridge/criteria.toml" ⟨fun _ => none, []⟩).2 = .ok () := by
    decide +kernel
  have hpath : seededDesk.findFile seededLibraries "criteria.toml" =
      "/home/op/.config/ai-bridge/criteria.toml" := by decide +kernel
  have hvalid : AdminConfig.empty.seedDefaultCriteria.Valid plainRegex.toRegexEngine := by
    refine ⟨?_, ?_, ?_, fun _ _ _ _ => rfl, ?_, ?_⟩
    all_goals decide
  have hinert := @seeding_is_inert plainRegex.toRegexEngine seededLibraries .empty ⟨none, none⟩
    "/home/op/.config/ai-bridge/criteria.toml" ⟨fun _ => none, []⟩ seededDesk .calm
  exact (hinert knownToml_round hsaved rfl hpath).1.mpr hvalid

end AiBridge
