import AiBridge.Errors
import AiBridge.SafetyGuard
import AiBridge.TagGrammar
import Mathlib.Data.Finset.Basic

namespace AiBridge

open Text

structure BinaryEntry where
  name : String
  allowed : Bool
  path : Option String
  args : List String
  deriving DecidableEq, Repr

structure AllowlistConfig where
  binaries : List BinaryEntry
  deriving DecidableEq, Repr

inductive ExecutorAllowlistError
  | read (path : String) (source : IoError)
  | parse (message : String)
  deriving DecidableEq, Repr

def ExecutorAllowlistError.display : ExecutorAllowlistError → String
  | read path source => "failed to read allowlist file " ++ path ++ ": " ++ source.message
  | parse message => "failed to parse allowlist TOML: " ++ message

/-- The files and the `toml` crate that the allowlist is loaded through. The workspace root is
the third parent of the manifest directory the program was compiled in. -/
structure Host where
  present : String → Bool
  readToString : String → Except IoError String
  tomlFromStr : String → Except String AllowlistConfig
  wsRoot : Option String

structure ExecutorAllowlist where
  allowed : Finset String

namespace ExecutorAllowlist

variable (host : Host)

def loadConfig (path : String) : Except ExecutorAllowlistError AllowlistConfig :=
  match host.readToString path with
  | .error source => .error (.read path source)
  | .ok content =>
    match host.tomlFromStr content with
    | .error message => .error (.parse message)
    | .ok config => .ok config

def ofConfig (config : AllowlistConfig) : ExecutorAllowlist where
  allowed := ((config.binaries.filter BinaryEntry.allowed).map BinaryEntry.name).toFinset

def load (path : String) : Except ExecutorAllowlistError ExecutorAllowlist :=
  (loadConfig host path).map ofConfig

/-- `Path::join` of a relative path. -/
def join (root file : String) : String :=
  if root = "" ∨ root.toList.getLast? = some '/' then root ++ file else root ++ "/" ++ file

def candidates : List String :=
  ["config/executor_allowlist.toml", "../config/executor_allowlist.toml",
    "../../config/executor_allowlist.toml"]

def defaultPath : Option String :=
  match host.wsRoot with
  | some wsRoot =>
    (candidates ++ [join wsRoot "config/executor_allowlist.toml"]).find? host.present
  | none => candidates.find? host.present

def loadDefault : Except ExecutorAllowlistError ExecutorAllowlist :=
  match defaultPath host with
  | none =>
    .error (.read "config/executor_allowlist.toml"
      ⟨.notFound, "executor allowlist not found in any expected location"⟩)
  | some path => load host path

def isAllowed (self : ExecutorAllowlist) (binary : String) : Bool :=
  decide (binary ∈ self.allowed)

end ExecutorAllowlist

/-- `shlex::split`. Words are made of characters of the text, and without quotes and backslashes
no word is empty. -/
structure Shlex where
  split : String → Option (List String)
  mem_of_mem_word : ∀ {text words word c}, split text = some words → word ∈ words →
    c ∈ word.toList → c ∈ text.toList
  word_ne_empty : ∀ {text words word}, split text = some words → word ∈ words →
    (∀ c ∈ "'\"\\".toList, c ∉ text.toList) → word ≠ ""

/-- A tokenizer that cuts at blanks. On texts without quotes, backslashes, comments and other
whitespace it answers as `shlex::split` does. -/
def splitBlanks (s : String) : Option (List String) :=
  some (((s.toList.splitOn ' ').filter (· ≠ [])).map String.ofList)

def parseCommand (shlex : Shlex) (commandStr : String) :
    Except IoError { tokens : List String // tokens ≠ [] } :=
  let (symbol, remaining) := Symbol.extractFromCommand commandStr
  let working := if symbol = .critUnclassified then commandStr else remaining
  match shlex.split working with
  | none => .error ⟨.invalidInput, "command has unbalanced quotes"⟩
  | some [] => .error ⟨.invalidInput, "command is empty"⟩
  | some (binary :: args) => .ok ⟨binary :: args, List.cons_ne_nil binary args⟩

def safetyLock (guard : SafetyGuard) (commandStr : String) : Except IoError Unit :=
  match guard.evaluateForCommand commandStr with
  | .allow => .ok ()
  | .block =>
    .error ⟨.permissionDenied, "command '" ++ commandStr ++ "' is blocked by the safety lock"⟩
  | .requireHumanOverride =>
    .error ⟨.permissionDenied,
      "command '" ++ commandStr ++ "' requires explicit human override before execution"⟩

theorem SafetyGuard.evaluateForCommand_eq_block_iff {guard : SafetyGuard} {command : String} :
    guard.evaluateForCommand command = .block ↔
      guard.state.armed = true ∧ trim command ≠ "" ∧
        (Symbol.extractFromCommand command).1.classification = .critical := by
  simp only [evaluateForCommand, Symbol.extractFromCommand_trim_fst]
  by_cases hblank : trim command = ""
  · simp [hblank]
  · cases hclass : (Symbol.extractFromCommand command).1.classification with
    | delegable => simp [hblank]
    | critical => simp [hblank]

/-- The guard never asks for an override: what it does not block it allows. -/
theorem SafetyGuard.evaluateForCommand_eq_allow_iff {guard : SafetyGuard} {command : String} :
    guard.evaluateForCommand command = .allow ↔ guard.evaluateForCommand command ≠ .block := by
  simp only [evaluateForCommand]
  by_cases hblank : trim command = ""
  · simp [hblank]
  · cases hclass : (Symbol.extractFromCommand (trim command)).1.classification with
    | delegable => simp [hblank]
    | critical =>
      cases harmed : guard.state.armed with
      | true => simp [hblank]
      | false => simp [hblank]

theorem safetyLock_eq_ok_iff {guard : SafetyGuard} {command : String} :
    safetyLock guard command = .ok () ↔ guard.evaluateForCommand command = .allow := by
  unfold safetyLock
  cases guard.evaluateForCommand command with
  | allow => simp
  | block => simp
  | requireHumanOverride => simp

/-- The checks before the spawn, with the program and the arguments they let through. -/
def approveSpawn (shlex : Shlex) (host : Host) (commandStr : String) :
    Except IoError (String × List String) := do
  let ⟨tokens, nonempty⟩ ← parseCommand shlex commandStr
  let binary := tokens.head nonempty
  let guard := SafetyGuard.new
  safetyLock guard commandStr
  let allowlist ← (ExecutorAllowlist.loadDefault host).mapError fun e =>
    ⟨.other, "failed to load executor allowlist: " ++ e.display⟩
  if !allowlist.isAllowed binary then
    throw ⟨.permissionDenied, "binary '" ++ binary ++ "' not in executor allowlist"⟩
  pure (binary, tokens.tail)

/-- The process that was spawned, if any, and what is returned. -/
structure Execution (Output : Type) where
  spawned : Option (String × List String)
  result : Except IoError Output

/-- `run` is `Command::new(binary).args(args).output()`. -/
def executeApprovedTask {Output : Type} (shlex : Shlex) (host : Host)
    (run : String → List String → Except IoError Output) (commandStr : String) :
    Execution Output :=
  match approveSpawn shlex host commandStr with
  | .error e => ⟨none, .error e⟩
  | .ok (binary, args) => ⟨some (binary, args), run binary args⟩

end AiBridge
