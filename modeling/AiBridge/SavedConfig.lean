import AiBridge.AuditTruth
import AiBridge.ExecutorGate
import AiBridge.RelaxedCriteria
import AiBridge.SlotAgreement

namespace AiBridge

open Text AdminConfig

/-- The decision that a verdict shows. -/
def GatekeeperVerdict.decision : GatekeeperVerdict → PolicyDecision
  | pendingTimeout => .delegable
  | autoApproved => .delegable
  | heldForManualApproval => .nonDelegable

/-- The daemon after a restart: where its paths lead from the directory it runs in, which files it
may not read, the errors it gets, and the workspace it was built in. -/
structure Restart where
  locate : String → String
  unreadable : String → Bool
  failure : String → IoError
  wsRoot : Option String

def Restart.host (self : Restart) (lib : Libraries) (disk : FileSystem) : Host where
  present path := (disk.files (self.locate path)).isSome
  readToString path :=
    match FileSystem.readToString disk (self.unreadable path) (self.locate path) with
    | some text => .ok text
    | none => .error (self.failure path)
  tomlFromStr := lib.toml.allowlistFromStr
  wsRoot := self.wsRoot

/-- A program that some command which passes the safety lock names. -/
def Nameable (shlex : Shlex) (binary : String) : Prop :=
  ∃ command args, shlex.split (workingText command) = some (binary :: args) ∧
    SafetyGuard.new.evaluateForCommand command = .allow

/-- The allowlist that the executor finds has the program. -/
def Listed (host : Host) (binary : String) : Prop :=
  ∃ config, Configured host config ∧
    ∃ entry ∈ config.binaries, entry.name = binary ∧ entry.allowed = true

/-- The rows have the program marked as allowed. -/
def PanelRows.Allows (rows : PanelRows) (binary : String) : Prop :=
  ∃ row ∈ rows.execAllowlist, row.name = binary ∧ row.allowed = true

/-- What is saved is enforced: plans are classified under the saved criteria, and of the programs
that commands name those are started that the saved allowlist allows. -/
structure Enforced {Output : Type} (lib : Libraries) (shlex : Shlex) (host : Host)
    (run : String → List String → Except IoError Output) (desk : Desk) : Prop where
  classifies : ∀ (pending : PendingPlans) (env : Env) (plan : ExecutionPlan) (now : Instant),
    some (pending.ingest lib.rx env plan now).1.1.decision =
      decidePolicyWithConfig lib.rx.toRegexEngine plan (desk.typed .criteria).toCriteriaConfig
  admits : ∀ command binary args, shlex.split (workingText command) = some (binary :: args) →
    SafetyGuard.new.evaluateForCommand command = .allow →
      ((executeApprovedTask shlex host run command).spawned = some (binary, args) ↔
        desk.panel.Allows binary)

/-- The first allowlist that the executor comes across is the one that the panel saves. -/
def FindsSaved (restart : Restart) (lib : Libraries) (desk : Desk) (disk : FileSystem) : Prop :=
  ∃ path, ExecutorAllowlist.defaultPath (restart.host lib disk) = some path ∧
    restart.locate path = desk.configPath "executor_allowlist.toml" ∧
    restart.unreadable path = false

variable {lib : Libraries} {shlex : Shlex} {host : Host} {restart : Restart} {self : Desk}

theorem ingest_decision {rx : ShippedRegex} {pending : PendingPlans} {env : Env}
    {plan : ExecutionPlan} {now : Instant} :
    (pending.ingest rx env plan now).1.1.decision = decidePolicy rx plan := by
  cases hd : decidePolicy rx plan with
  | delegable =>
    rw [PendingPlans.ingest_delegable hd]
    simp only
    split
    next => rfl
    next => rfl
  | nonDelegable =>
    rw [PendingPlans.ingest_critical hd]
    rfl

/-- The daemon decides with the shipped patterns, and the saved ones make no difference exactly if
they catch the same texts. -/
theorem classifies_iff (hvalid : (self.typed .criteria).Valid lib.rx.toRegexEngine) :
    (∀ (pending : PendingPlans) (env : Env) (plan : ExecutionPlan) (now : Instant),
      some (pending.ingest lib.rx env plan now).1.1.decision =
        decidePolicyWithConfig lib.rx.toRegexEngine plan (self.typed .criteria).toCriteriaConfig) ↔
      ∀ text, AdminConfig.empty.Catches lib.rx.toRegexEngine (scanText text) ↔
        (self.typed .criteria).Catches lib.rx.toRegexEngine (scanText text) := by
  have hshipped : AdminConfig.empty.toCriteriaConfig = .defaultPatterns := rfl
  have hsame := same_decisions_iff lib.rx.compiles (toCriteriaConfig_compilable hvalid)
  rw [← hshipped] at hsame
  simp only [triggers_toCriteriaConfig] at hsame
  rw [← hsame, hshipped]
  constructor
  · intro h plan
    rw [← h .new ⟨none⟩ plan 0, ingest_decision]
    exact decidePolicyWithConfig_defaultPatterns lib.rx plan
  · intro h pending env plan now
    rw [ingest_decision, ← h plan]
    exact (decidePolicyWithConfig_defaultPatterns lib.rx plan).symm

theorem spawned_iff {Output : Type} {run : String → List String → Except IoError Output}
    {command binary : String} {args : List String} :
    (executeApprovedTask shlex host run command).spawned = some (binary, args) ↔
      approveSpawn shlex host command = .ok (binary, args) := by
  unfold executeApprovedTask
  cases happrove : approveSpawn shlex host command with
  | error e => simp
  | ok spawn => simp

theorem admits_iff {Output : Type} {run : String → List String → Except IoError Output} :
    (∀ command binary args, shlex.split (workingText command) = some (binary :: args) →
      SafetyGuard.new.evaluateForCommand command = .allow →
        ((executeApprovedTask shlex host run command).spawned = some (binary, args) ↔
          self.panel.Allows binary)) ↔
      ∀ binary, Nameable shlex binary → (Listed host binary ↔ self.panel.Allows binary) := by
  have hspawned : ∀ command binary args,
      shlex.split (workingText command) = some (binary :: args) →
      SafetyGuard.new.evaluateForCommand command = .allow →
      ((executeApprovedTask shlex host run command).spawned = some (binary, args) ↔
        Listed host binary) := by
    intro command binary args hsplit hallow
    rw [spawned_iff, approveSpawn_eq_ok_iff]
    exact ⟨fun h => h.2.2, fun h => ⟨hsplit, hallow, h⟩⟩
  constructor
  · intro h binary hnameable
    obtain ⟨command, args, hsplit, hallow⟩ := hnameable
    rw [← h command binary args hsplit hallow]
    exact (hspawned command binary args hsplit hallow).symm
  · intro h command binary args hsplit hallow
    rw [hspawned command binary args hsplit hallow]
    exact h binary ⟨command, args, hsplit, hallow⟩

theorem configured_unique {config config' : AllowlistConfig} (h : Configured host config)
    (h' : Configured host config') : config = config' := by
  obtain ⟨path, hpath, hload⟩ := h
  obtain ⟨path', hpath', hload'⟩ := h'
  rw [hpath, Option.some.injEq] at hpath'
  rw [← hpath', hload, Except.ok.injEq] at hload'
  exact hload'

/-- The saved allowlist is read as it was typed. -/
theorem listed_of_finds {text : String} {disk : FileSystem}
    (hraw : self.raw lib .allowlist = .ok text)
    (hfile : disk.files (self.configPath "executor_allowlist.toml") = some (utf8 text))
    (hfinds : FindsSaved restart lib self disk) (binary : String) :
    Listed (restart.host lib disk) binary ↔ self.panel.Allows binary := by
  obtain ⟨path, hpath, hplace, hreadable⟩ := hfinds
  have htoml : lib.toml.allowlistToString
      ⟨self.panel.execAllowlist.map ExecAllowlistRow.toBinary⟩ = .ok text := by
    cases htext : lib.toml.allowlistToString
        ⟨self.panel.execAllowlist.map ExecAllowlistRow.toBinary⟩ with
    | error e =>
      rw [Desk.raw, htext] at hraw
      simp [Except.mapError] at hraw
    | ok text' =>
      rw [Desk.raw, htext] at hraw
      exact congrArg Except.ok (Except.ok.inj hraw)
  have hread : (restart.host lib disk).readToString path = .ok text := by
    simp only [Restart.host, FileSystem.readToString, hreadable, hplace, hfile]
    simp [fromUtf8_utf8]
  have hconfigured : Configured (restart.host lib disk)
      ⟨self.panel.execAllowlist.map ExecAllowlistRow.toBinary⟩ := by
    refine ⟨path, hpath, ?_⟩
    have hparse : (restart.host lib disk).tomlFromStr text =
        .ok ⟨self.panel.execAllowlist.map ExecAllowlistRow.toBinary⟩ :=
      lib.toml.allowlist_round htoml
    rw [ExecutorAllowlist.loadConfig, hread]
    simp only [hparse]
  have hentries : (∃ entry ∈ self.panel.execAllowlist.map ExecAllowlistRow.toBinary,
      entry.name = binary ∧ entry.allowed = true) ↔ self.panel.Allows binary := by
    simp [PanelRows.Allows, ExecAllowlistRow.toBinary]
  rw [← hentries]
  constructor
  · intro h
    obtain ⟨config, hconfig, hentry⟩ := h
    rw [configured_unique hconfig hconfigured] at hentry
    exact hentry
  · intro h
    exact ⟨_, hconfigured, h⟩

/-- The live test shows the decision that the typed criteria make. -/
theorem live_test (hvalid : (self.typed .criteria).Valid lib.rx.toRegexEngine) {command : String}
    (hcommand : trim command ≠ "") (taskId description : String) :
    ∃ summary : CriteriaSummary,
      Desk.runTestCommand lib { self with panel := { self.panel with testCommand := command } } =
        some (some summary) ∧
      (decidePolicyWithConfig lib.rx.toRegexEngine ⟨taskId, description, [command]⟩
          (self.typed .criteria).toCriteriaConfig = some .delegable ↔
        summary.status = .delegable) := by
  have hcompiles := toCriteriaConfig_compilable hvalid
  have hsome := evaluateCommands_isSome hcompiles [command] [] .delegable
  obtain ⟨summary, hsummary⟩ := Option.isSome_iff_exists.mp hsome
  refine ⟨summary, ?_, ?_⟩
  · rw [Desk.runTestCommand, if_neg hcommand]
    exact congrArg some hsummary
  · rw [decidePolicyWithConfig, evaluateCriteriaWithConfig, hsummary]
    obtain ⟨triggered, status⟩ := summary
    cases status with
    | delegable => simp
    | nonDelegable => simp

/-- The save opens its file and fills it. -/
def Completes (lib : Libraries) (circ : Circumstances) (desk : Desk) (tab : AdminTab) : Prop :=
  Desk.Opens lib circ desk tab ∧ circ.write = none

/-- After both saves and a restart the daemon enforces what was saved exactly if the saved criteria
catch the same texts as the shipped ones, and the executor finds an allowlist that allows the same
programs, which it does where it finds the saved one first. The live test shows the decisions under
the typed criteria. -/
theorem saved_enforced_iff {Output : Type} (lib : Libraries) (shlex : Shlex) (restart : Restart)
    (run : String → List String → Except IoError Output) (self : Desk)
    (first second : Circumstances) (hcriteria : Completes lib first self .criteria)
    (hallowlist : Completes lib second (Desk.save lib first self .criteria) .allowlist) :
    (Enforced lib shlex
        (restart.host lib
          (Desk.save lib second (Desk.save lib first self .criteria) .allowlist).disk) run self ↔
      (∀ text, AdminConfig.empty.Catches lib.rx.toRegexEngine (scanText text) ↔
        (self.typed .criteria).Catches lib.rx.toRegexEngine (scanText text)) ∧
      ∀ binary, Nameable shlex binary →
        (Listed (restart.host lib
            (Desk.save lib second (Desk.save lib first self .criteria) .allowlist).disk) binary ↔
          self.panel.Allows binary)) ∧
    (FindsSaved restart lib self
        (Desk.save lib second (Desk.save lib first self .criteria) .allowlist).disk →
      ∀ binary, Listed (restart.host lib
          (Desk.save lib second (Desk.save lib first self .criteria) .allowlist).disk) binary ↔
        self.panel.Allows binary) ∧
    ∀ command taskId description, trim command ≠ "" →
      ∃ summary : CriteriaSummary,
        Desk.runTestCommand lib { self with panel := { self.panel with testCommand := command } } =
          some (some summary) ∧
        (decidePolicyWithConfig lib.rx.toRegexEngine ⟨taskId, description, [command]⟩
            (self.typed .criteria).toCriteriaConfig = some .delegable ↔
          summary.status = .delegable) := by
  have hvalid : (self.typed .criteria).Valid lib.rx.toRegexEngine :=
    validate_eq_ok_iff.mp hcriteria.1.1
  refine ⟨⟨?_, ?_⟩, ?_, ?_⟩
  · intro h
    exact ⟨(classifies_iff hvalid).mp h.classifies, admits_iff.mp h.admits⟩
  · intro h
    exact ⟨(classifies_iff hvalid).mpr h.1, admits_iff.mpr h.2⟩
  · intro hfinds binary
    have hkept : (Desk.save lib first self .criteria).panel.toPanelRows = self.panel.toPanelRows ∧
        (Desk.save lib first self .criteria).panel.configRoot = self.panel.configRoot :=
      Desk.panel_save
    have hrows : (Desk.save lib first self .criteria).panel.execAllowlist =
        self.panel.execAllowlist := congrArg PanelRows.execAllowlist hkept.1
    obtain ⟨text, hraw, _, _, hfile⟩ := Desk.save_of_filled hallowlist.1 hallowlist.2
    rw [Desk.raw, hrows] at hraw
    rw [Desk.configPath, hkept.2] at hfile
    exact listed_of_finds hraw hfile hfinds binary
  · intro command taskId description hcommand
    exact live_test hvalid hcommand taskId description

def relaxedText : String :=
  "allowlist = []\nsymbols = []\npolicy = []\nsockets = []\nbranches = []\naudit = []\n\n" ++
    "[[criteria]]\ncategory = \"secrets\"\npatterns = []\n"

def lsText : String := "[[binaries]]\nname = \"ls\"\nallowed = true\nargs = []\n"

def lsLibraries : Libraries :=
  knownLibraries ⟨[⟨"ls", true, none, []⟩]⟩ lsText
    [(.empty, emptyText), ({ AdminConfig.empty with criteria := [⟨"secrets", []⟩] }, relaxedText)]

def lsDesk (criteria : List CriteriaRow) : Desk :=
  .unsaved ⟨[⟨"ls", "", true, ""⟩], [], criteria, [], []⟩ none []

/-- A daemon in `/opt/ai-bridge`, whose `config` is a link to some place. -/
def linkedRestart (place : String) : Restart where
  locate path :=
    if path = "config/executor_allowlist.toml" then place ++ "/executor_allowlist.toml"
    else "/opt/ai-bridge/" ++ path
  unreadable := fun _ => false
  failure := fun _ => ⟨.notFound, "No such file or directory (os error 2)"⟩
  wsRoot := none

/-- The shipped criteria and an allowlist that is linked to where the panel saves it. -/
theorem saved_enforced_linked :
    Enforced lsLibraries blankShlex
      ((linkedRestart "/home/op/.config/ai-bridge").host lsLibraries
        (Desk.save lsLibraries .calm (Desk.save lsLibraries .calm (lsDesk []) .criteria)
          .allowlist).disk)
      (fun _ _ => .ok "") (lsDesk []) := by
  have hcriteria : Completes lsLibraries .calm (lsDesk []) .criteria :=
    ⟨⟨by decide +kernel, ⟨emptyText, by decide +kernel⟩, by decide +kernel,
      by simp [Circumstances.calm]⟩, rfl⟩
  have hallowlist : Completes lsLibraries .calm (Desk.save lsLibraries .calm (lsDesk []) .criteria)
      .allowlist :=
    ⟨⟨rfl, ⟨lsText, by decide +kernel⟩, by decide +kernel, by simp [Circumstances.calm]⟩, rfl⟩
  have hspec := saved_enforced_iff lsLibraries blankShlex
    (linkedRestart "/home/op/.config/ai-bridge") (fun _ _ => .ok "") (lsDesk []) .calm .calm
    hcriteria hallowlist
  apply hspec.1.mpr
  refine ⟨fun _ => Iff.rfl, fun binary _ => ?_⟩
  exact hspec.2.1 ⟨"config/executor_allowlist.toml", by decide +kernel, by decide +kernel, rfl⟩ binary

/-- A daemon that finds no allowlist, and secrets without patterns. -/
theorem saved_not_enforced :
    let desk := lsDesk [⟨"secrets", ""⟩]
    let saved := Desk.save lsLibraries .calm (Desk.save lsLibraries .calm desk .criteria) .allowlist
    let host := (linkedRestart "/opt/ai-bridge/config").host lsLibraries saved.disk
    saved.disk.files "/home/op/.config/ai-bridge/criteria.toml" = some (utf8 relaxedText) ∧
      saved.disk.files "/home/op/.config/ai-bridge/executor_allowlist.toml" = some (utf8 lsText) ∧
      (executeApprovedTask blankShlex host (fun _ _ => .ok "")
        "[[AB:OPS.TERM.RUN.LOCAL]] ls").spawned = none ∧
      ¬Enforced lsLibraries blankShlex host (fun _ _ => .ok "") desk := by
  refine ⟨by decide +kernel, by decide +kernel, by decide +kernel, ?_⟩
  intro h
  have hplan := h.classifies .new ⟨none⟩
    ⟨"task-1", "say it", ["[[AB:OPS.TERM.RUN.LOCAL]] echo password"]⟩ 0
  rw [ingest_decision] at hplan
  exact absurd hplan (by decide +kernel)

end AiBridge
