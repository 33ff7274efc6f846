import AiBridge.Checks
import AiBridge.Executor

namespace AiBridge

open Text Checks

variable {shlex : Shlex} {host : Host} {command binary : String} {args : List String}

/-- The allowlist configuration that the executor finds and reads. -/
def Configured (host : Host) (config : AllowlistConfig) : Prop :=
  ∃ path, ExecutorAllowlist.defaultPath host = some path ∧
    ExecutorAllowlist.loadConfig host path = .ok config

/-- What a command has to be for a program to be spawned with some arguments. -/
structure SpawnGate (shlex : Shlex) (host : Host) (command binary : String)
    (args : List String) : Prop where
  tagged : ∃ name rest, ∃ symbol : Symbol, TagForm command name rest ∧
    trim name = symbol.literalName ∧ symbol.classification = .delegable ∧
    shlex.split (trim rest) = some (binary :: args)
  listed : ∃ config, Configured host config ∧
    ∃ entry ∈ config.binaries, entry.name = binary ∧ entry.allowed = true

/-- The text that is cut into words: without a known tag it is the whole command. -/
def workingText (command : String) : String :=
  if (Symbol.extractFromCommand command).1 = .critUnclassified then command
  else (Symbol.extractFromCommand command).2

theorem parseCommand_eq_ok_iff {tokens : { tokens : List String // tokens ≠ [] }} :
    parseCommand shlex command = .ok tokens ↔
      shlex.split (workingText command) = some tokens.1 := by
  obtain ⟨tokens, nonempty⟩ := tokens
  unfold parseCommand workingText
  simp only
  split
  next hsplit => simp [hsplit]
  next hsplit => simp [hsplit, nonempty.symm]
  next binary args hsplit => simp [hsplit]

theorem mem_ofConfig {config : AllowlistConfig} :
    binary ∈ (ExecutorAllowlist.ofConfig config).allowed ↔
      ∃ entry ∈ config.binaries, entry.name = binary ∧ entry.allowed = true := by
  simp only [ExecutorAllowlist.ofConfig, List.mem_toFinset, List.mem_map, List.mem_filter]
  constructor
  · intro h
    obtain ⟨entry, ⟨hmem, hallowed⟩, hname⟩ := h
    exact ⟨entry, hmem, hname, hallowed⟩
  · intro h
    obtain ⟨entry, hmem, hname, hallowed⟩ := h
    exact ⟨entry, ⟨hmem, hallowed⟩, hname⟩

theorem loadDefault_eq_ok_iff {allowlist : ExecutorAllowlist} :
    ExecutorAllowlist.loadDefault host = .ok allowlist ↔
      ∃ config, Configured host config ∧ allowlist = ExecutorAllowlist.ofConfig config := by
  unfold ExecutorAllowlist.loadDefault Configured
  cases hpath : ExecutorAllowlist.defaultPath host with
  | none => simp
  | some path =>
    cases hload : ExecutorAllowlist.loadConfig host path with
    | error e => simp [ExecutorAllowlist.load, hload, Except.map]
    | ok config =>
      simp only [ExecutorAllowlist.load, hload, Except.map, Option.some.injEq, Except.ok.injEq]
      constructor
      · intro h
        exact ⟨config, ⟨path, rfl, hload⟩, h.symm⟩
      · intro h
        obtain ⟨config', ⟨path', hsame, hload'⟩, hlist⟩ := h
        rw [← hsame, hload, Except.ok.injEq] at hload'
        rw [hlist, hload']

theorem loadDefault_allows_iff : (∃ allowlist, ExecutorAllowlist.loadDefault host = .ok allowlist ∧
      allowlist.isAllowed binary = true) ↔
    ∃ config, Configured host config ∧
      ∃ entry ∈ config.binaries, entry.name = binary ∧ entry.allowed = true := by
  simp only [loadDefault_eq_ok_iff, ExecutorAllowlist.isAllowed, decide_eq_true_eq]
  constructor
  · intro h
    obtain ⟨allowlist, ⟨config, hconfig, hlist⟩, hmem⟩ := h
    rw [hlist] at hmem
    exact ⟨config, hconfig, mem_ofConfig.mp hmem⟩
  · intro h
    obtain ⟨config, hconfig, hentry⟩ := h
    exact ⟨_, ⟨config, hconfig, rfl⟩, mem_ofConfig.mpr hentry⟩

/-- The checks in the order in which they are made. -/
theorem approveSpawn_steps : approveSpawn shlex host command = .ok (binary, args) ↔
    ∃ tokens, parseCommand shlex command = .ok tokens ∧ tokens.1 = binary :: args ∧
      safetyLock SafetyGuard.new command = .ok () ∧
      ∃ allowlist, ExecutorAllowlist.loadDefault host = .ok allowlist ∧
        allowlist.isAllowed binary = true := by
  unfold approveSpawn
  simp only [bind_eq_ok_iff, mapError_eq_ok_iff, unless_throw_eq_ok_iff, pure_eq_ok_iff,
    Prod.mk.injEq, Bool.not_eq_true', Bool.not_eq_false]
  constructor
  · intro h
    obtain ⟨⟨tokens, nonempty⟩, hparse, _, hlock, allowlist, hload, hlisted, hbinary, hargs⟩ := h
    have hwords : tokens = binary :: args := by
      calc tokens = tokens.head nonempty :: tokens.tail := (List.cons_head_tail nonempty).symm
        _ = binary :: args := congrArg₂ List.cons hbinary hargs
    rw [hbinary] at hlisted
    exact ⟨_, hparse, hwords, hlock, allowlist, hload, hlisted⟩
  · intro h
    obtain ⟨⟨tokens, nonempty⟩, hparse, hwords, hlock, allowlist, hload, hlisted⟩ := h
    subst hwords
    exact ⟨_, hparse, (), hlock, allowlist, hload, hlisted, rfl, rfl⟩

/-- The checks pass exactly when the words start with the program, the lock allows the command
and the allowlist has the program. -/
theorem approveSpawn_eq_ok_iff :
    approveSpawn shlex host command = .ok (binary, args) ↔
      shlex.split (workingText command) = some (binary :: args) ∧
      SafetyGuard.new.evaluateForCommand command = .allow ∧
      ∃ config, Configured host config ∧
        ∃ entry ∈ config.binaries, entry.name = binary ∧ entry.allowed = true := by
  rw [approveSpawn_steps, loadDefault_allows_iff, safetyLock_eq_ok_iff]
  constructor
  · intro h
    obtain ⟨tokens, hparse, hwords, hgate⟩ := h
    exact ⟨by rw [parseCommand_eq_ok_iff.mp hparse, hwords], hgate⟩
  · intro h
    obtain ⟨hsplit, hgate⟩ := h
    exact ⟨⟨binary :: args, List.cons_ne_nil _ _⟩, parseCommand_eq_ok_iff.mpr hsplit, rfl, hgate⟩

/-- A blank text is cut into words that are blank and not empty. -/
theorem blank_word {text word : String} {words : List String} (hblank : trim text = "")
    (hsplit : shlex.split text = some words) (hword : word ∈ words) :
    word ≠ "" ∧ trim word = "" := by
  have hchars := trim_eq_empty_iff.mp hblank
  constructor
  · apply shlex.word_ne_empty hsplit hword
    intro c hc hmem
    have hquotes : ("'\"\\".toList.all fun c => !isWhitespace c) = true := by decide
    have hquote : isWhitespace c = false := by
      simpa using List.all_eq_true.mp hquotes c hc
    have hspace := hchars c hmem
    rw [hquote] at hspace
    exact absurd hspace (by decide)
  · apply trim_eq_empty_iff.mpr
    intro c hc
    exact hchars c (shlex.mem_of_mem_word hsplit hword hc)

theorem workingText_of_tagged {rest : String} {symbol : Symbol} (h : Tagged command symbol rest)
    (hclass : symbol.classification = .delegable) : workingText command = trim rest := by
  have hknown := Symbol.delegable_ne_unclassified hclass
  rw [workingText, Symbol.extractFromCommand_of_tagged h, if_neg hknown]

theorem approveSpawn_of_gate (h : SpawnGate shlex host command binary args) :
    approveSpawn shlex host command = .ok (binary, args) := by
  obtain ⟨name, rest, symbol, hform, hname, hclass, hsplit⟩ := h.tagged
  have htagged : Tagged command symbol rest := ⟨name, hform, hname⟩
  apply approveSpawn_eq_ok_iff.mpr
  refine ⟨?_, ?_, h.listed⟩
  · rw [workingText_of_tagged htagged hclass]
    exact hsplit
  · apply SafetyGuard.evaluateForCommand_eq_allow_iff.mpr
    intro hblock
    have hcritical := (SafetyGuard.evaluateForCommand_eq_block_iff.mp hblock).2.2
    rw [Symbol.extractFromCommand_fst_of_tagged htagged, hclass] at hcritical
    exact absurd hcritical (by decide)

/-- Blank commands pass the lock, and the allowlist is what stops them. -/
theorem gate_of_approveSpawn
    (hnames : ∀ config, Configured host config → ∀ entry ∈ config.binaries,
      entry.allowed = true → entry.name ≠ "" → trim entry.name ≠ "")
    (h : approveSpawn shlex host command = .ok (binary, args)) :
    SpawnGate shlex host command binary args := by
  obtain ⟨hsplit, hallow, hlisted⟩ := approveSpawn_eq_ok_iff.mp h
  refine ⟨?_, hlisted⟩
  by_cases hblank : trim command = ""
  · rw [workingText, Symbol.extractFromCommand_of_blank hblank, if_pos rfl] at hsplit
    obtain ⟨hne, hword⟩ := blank_word hblank hsplit (List.mem_cons_self)
    obtain ⟨config, hconfig, entry, hmem, hname, hallowed⟩ := hlisted
    rw [← hname] at hne hword
    exact absurd hword (hnames config hconfig entry hmem hallowed hne)
  · have hdelegable : (Symbol.extractFromCommand command).1.classification = .delegable := by
      cases hclass : (Symbol.extractFromCommand command).1.classification with
      | delegable => rfl
      | critical =>
        have hblock : SafetyGuard.new.evaluateForCommand command = .block :=
          SafetyGuard.evaluateForCommand_eq_block_iff.mpr ⟨rfl, hblank, hclass⟩
        exact absurd hblock (SafetyGuard.evaluateForCommand_eq_allow_iff.mp hallow)
    obtain ⟨symbol, rest, htagged, hclass⟩ :=
      Symbol.extractFromCommand_delegable_iff.mp hdelegable
    rw [workingText_of_tagged htagged hclass] at hsplit
    obtain ⟨name, hform, hname⟩ := htagged
    exact ⟨name, rest, symbol, hform, hname, hclass, hsplit⟩

/-- The executor spawns a program exactly for a delegable tag in front of a text that starts with
an allowed program, and returns an error in every other case. -/
theorem executeApprovedTask_spec {Output : Type} (shlex : Shlex) (host : Host)
    (run : String → List String → Except IoError Output)
    (hnames : ∀ config, Configured host config → ∀ entry ∈ config.binaries,
      entry.allowed = true → entry.name ≠ "" → trim entry.name ≠ "") (command : String) :
    (∀ binary args, (executeApprovedTask shlex host run command).spawned = some (binary, args) ↔
      SpawnGate shlex host command binary args) ∧
    (∀ binary args, SpawnGate shlex host command binary args →
      (executeApprovedTask shlex host run command).result = run binary args) ∧
    ((∀ binary args, ¬SpawnGate shlex host command binary args) →
      (executeApprovedTask shlex host run command).spawned = none ∧
        ∃ e, (executeApprovedTask shlex host run command).result = .error e) := by
  have hgate : ∀ binary args, SpawnGate shlex host command binary args ↔
      approveSpawn shlex host command = .ok (binary, args) :=
    fun _ _ => ⟨approveSpawn_of_gate, gate_of_approveSpawn hnames⟩
  simp only [hgate]
  unfold executeApprovedTask
  cases happrove : approveSpawn shlex host command with
  | error e => simp
  | ok spawn =>
    obtain ⟨binary, args⟩ := spawn
    refine ⟨?_, ?_, ?_⟩
    · intro binary' args'
      simp
    · intro binary' args' h
      obtain ⟨hbinary, hargs⟩ := Prod.mk.inj (Except.ok.inj h)
      rw [hbinary, hargs]
    · intro h
      exact absurd rfl (h binary args)

/-- `splitBlanks` as the tokenizer. -/
def blankShlex : Shlex where
  split := splitBlanks
  mem_of_mem_word := by
    intro text words word c hsplit hword hc
    obtain rfl := Option.some.inj hsplit
    obtain ⟨chars, hchars, rfl⟩ := List.mem_map.mp hword
    rw [String.toList_ofList] at hc
    have hmem : c ∈ [' '].intercalate (text.toList.splitOn ' ') :=
      mem_intercalate (List.mem_of_mem_filter hchars) hc
    rwa [List.intercalate_splitOn] at hmem
  word_ne_empty := by
    intro text words word hsplit hword _
    obtain rfl := Option.some.inj hsplit
    obtain ⟨chars, hchars, rfl⟩ := List.mem_map.mp hword
    have hne := List.of_mem_filter hchars
    simpa using hne

def listingConfig : AllowlistConfig :=
  ⟨[⟨"ls", true, none, []⟩, ⟨"dd", false, none, []⟩]⟩

def listingToml : String :=
  "[[binaries]]\nname = \"ls\"\nallowed = true\n[[binaries]]\nname = \"dd\"\nallowed = false\n"

/-- A working directory whose allowlist reads as `listingConfig`. -/
def listingHost : Host where
  present path := decide (path = "config/executor_allowlist.toml")
  readToString path :=
    if path = "config/executor_allowlist.toml" then .ok listingToml
    else .error ⟨.notFound, "No such file or directory (os error 2)"⟩
  tomlFromStr content :=
    if content = listingToml then .ok listingConfig else .error "expected a table"
  wsRoot := none

theorem executeApprovedTask_spec_listing :
    (executeApprovedTask blankShlex listingHost (fun _ _ => .ok "lib.rs")
      "[[AB:OPS.TERM.RUN.LOCAL]] ls src").spawned = some ("ls", ["src"]) := by
  have hconfig : Configured listingHost listingConfig := ⟨_, rfl, rfl⟩
  have hnames : ∀ config, Configured listingHost config → ∀ entry ∈ config.binaries,
      entry.allowed = true → entry.name ≠ "" → trim entry.name ≠ "" := by
    intro config hconfig'
    obtain ⟨path, hpath, hload⟩ := hconfig'
    have hdefault : "config/executor_allowlist.toml" = path := Option.some.inj hpath
    rw [← hdefault] at hload
    have hsame : listingConfig = config := Except.ok.inj hload
    rw [← hsame]
    decide
  have hgate : SpawnGate blankShlex listingHost "[[AB:OPS.TERM.RUN.LOCAL]] ls src" "ls" ["src"] := by
    refine ⟨⟨"OPS.TERM.RUN.LOCAL", " ls src", .opsTermRunLocal, ?_, by decide, rfl, by decide⟩,
      listingConfig, hconfig, ⟨"ls", true, none, []⟩, by decide, rfl, rfl⟩
    exact tagForm_iff.mpr ⟨"OPS.TERM.RUN.LOCAL]] ls src", by decide, by decide⟩
  have hspec := executeApprovedTask_spec blankShlex listingHost (fun _ _ => .ok "lib.rs") hnames
    "[[AB:OPS.TERM.RUN.LOCAL]] ls src"
  exact (hspec.1 "ls" ["src"]).mpr hgate

end AiBridge
