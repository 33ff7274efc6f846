import AiBridge.Executor
import AiBridge.Runs
import AiBridge.TaskSlot
import AiBridge.Utf8Lossy

namespace AiBridge

open Text

/-- How a process ended. -/
inductive ExitStatus
  | exited (code : Int)
  | signaled (signal : Nat)
  deriving DecidableEq, Repr

namespace ExitStatus

def code : ExitStatus → Option Int
  | exited code => some code
  | signaled _ => none

def success (self : ExitStatus) : Bool := self.code = some 0

end ExitStatus

structure Output where
  status : ExitStatus
  stdout : List UInt8
  stderr : List UInt8
  deriving DecidableEq, Repr

/-- What a command gives: the output of its process, or an error in place of a process. -/
abbrev CommandResult := Except IoError Output

namespace CommandResult

/-- The command ran, and its process ended well. -/
def succeeded : CommandResult → Bool
  | .ok output => output.status.success
  | .error _ => false

def exitCode : CommandResult → Int
  | .ok output => output.status.code.getD (if output.status.success then 0 else 1)
  | .error _ => 1

def stdout : CommandResult → String
  | .ok output => fromUtf8Lossy output.stdout
  | .error _ => ""

theorem exitCode_eq_zero_iff {result : CommandResult} :
    result.exitCode = 0 ↔ result.succeeded = true := by
  cases result with
  | error e => simp [exitCode, succeeded]
  | ok output =>
    obtain ⟨status, stdout, stderr⟩ := output
    cases status with
    | exited code => simp [exitCode, succeeded, ExitStatus.code, ExitStatus.success]
    | signaled signal => simp [exitCode, succeeded, ExitStatus.code, ExitStatus.success]

end CommandResult

namespace ExecutionOutcome

/-- The accumulators before the first command. -/
def start : ExecutionOutcome := ⟨"", "", 0, true⟩

/-- The loop body, once the command has its result. -/
def add (self : ExecutionOutcome) : CommandResult → ExecutionOutcome
  | .ok output =>
    let code := output.status.code.getD (if output.status.success then 0 else 1)
    { stdout := self.stdout ++ fromUtf8Lossy output.stdout
      stderr := self.stderr ++ fromUtf8Lossy output.stderr
      exitCode := code
      success := if !output.status.success then false else self.success }
  | .error e =>
    { self with
      stderr := self.stderr ++ ("execution error: " ++ e.message)
      exitCode := 1
      success := false }

theorem success_add (self : ExecutionOutcome) (result : CommandResult) :
    (self.add result).success = (self.success && result.succeeded) := by
  cases result with
  | error e => rw [CommandResult.succeeded, Bool.and_false, add]
  | ok output => cases hs : output.status.success <;> simp [add, CommandResult.succeeded, hs]

theorem exitCode_add (self : ExecutionOutcome) (result : CommandResult) :
    (self.add result).exitCode = result.exitCode := by
  cases result with
  | error e => rfl
  | ok output => rfl

theorem stdout_add (self : ExecutionOutcome) (result : CommandResult) :
    (self.add result).stdout = self.stdout ++ result.stdout := by
  cases result with
  | error e => rw [CommandResult.stdout, String.append_empty, add]
  | ok output => rw [CommandResult.stdout, add]

end ExecutionOutcome

section Plan

variable {World : Type} (execute : String → World → CommandResult × World)

/-- `execute` is `execute_approved_task` in a world that every command finds and leaves behind. -/
def executeCommands : List String → ExecutionOutcome → World → ExecutionOutcome × World
  | [], acc, world => (acc, world)
  | cmd :: commands, acc, world =>
    let (result, world) := execute cmd world
    executeCommands commands (acc.add result) world

def executePlan (plan : ExecutionPlan) (world : World) : ExecutionOutcome × World :=
  executeCommands execute plan.commands .start world

/-- The results of the commands, in order. -/
def commandResults : List String → World → List CommandResult
  | [], _ => []
  | cmd :: commands, world =>
    (execute cmd world).1 :: commandResults commands (execute cmd world).2

theorem length_commandResults (commands : List String) (world : World) :
    (commandResults execute commands world).length = commands.length := by
  induction commands generalizing world with
  | nil => rfl
  | cons cmd commands ih => rw [commandResults, List.length_cons, List.length_cons, ih]

theorem executeCommands_fst (commands : List String) (acc : ExecutionOutcome) (world : World) :
    (executeCommands execute commands acc world).1 =
      Runs.run ExecutionOutcome.add acc (commandResults execute commands world) := by
  induction commands generalizing acc world with
  | nil => rfl
  | cons cmd commands ih =>
    rw [executeCommands, commandResults, Runs.run_cons, ← ih]

end Plan

/-- A world that has a result ready for each command. -/
def scripted (_cmd : String) (queue : List CommandResult) : CommandResult × List CommandResult :=
  (queue.head?.getD (.error ⟨.other, "no result"⟩), queue.tail)

/-- Any results can be those of a plan with as many commands. -/
theorem commandResults_scripted {commands : List String} {results : List CommandResult}
    (h : results.length = commands.length) : commandResults scripted commands results = results := by
  induction commands generalizing results with
  | nil => rw [commandResults, List.length_eq_zero_iff.mp h]
  | cons cmd commands ih =>
    cases results with
    | nil => simp at h
    | cons result results =>
      rw [commandResults, scripted, List.head?_cons, Option.getD_some, List.tail_cons,
        ih (Nat.succ.inj h)]

variable {results : List CommandResult}

theorem success_run : (Runs.run ExecutionOutcome.add .start results).success =
    results.all CommandResult.succeeded := by
  have hstep : ∀ (past : List CommandResult) (acc : ExecutionOutcome) (result : CommandResult),
      acc.success = past.all CommandResult.succeeded →
        (acc.add result).success = (past ++ [result]).all CommandResult.succeeded := by
    intro past acc result hacc
    rw [ExecutionOutcome.success_add, hacc, List.all_append]
    simp
  exact Runs.run_history
    (I := fun past (acc : ExecutionOutcome) => acc.success = past.all CommandResult.succeeded)
    hstep rfl

/-- Of the exit codes the last one stays. -/
theorem exitCode_run : (Runs.run ExecutionOutcome.add .start results).exitCode =
    (results.getLast?.map CommandResult.exitCode).getD 0 := by
  have hstep : ∀ (acc : ExecutionOutcome) (result : CommandResult),
      (acc.add result).exitCode = if true = true then result.exitCode else acc.exitCode := by
    intro acc result
    rw [ExecutionOutcome.exitCode_add, if_pos rfl]
  rw [Runs.run_last_write ExecutionOutcome.exitCode (fun _ => true) CommandResult.exitCode hstep,
    List.filter_true]
  rfl

theorem stdout_run : (Runs.run ExecutionOutcome.add .start results).stdout =
    String.join (results.map CommandResult.stdout) := by
  rw [String.join, List.foldl_map]
  exact Runs.run_proj (f := ExecutionOutcome.stdout) ExecutionOutcome.stdout_add

/-- What is recorded follows the success. -/
theorem recordExecution_tracked {pending : PendingPlans} {taskId : String} {task : TaskState}
    (h : pending.tasks.lookup taskId = some task) (outcome : ExecutionOutcome) :
    ∃ after task', pending.recordExecution taskId outcome = (.ok (), after) ∧
      after.tasks.lookup taskId = some task' ∧
      (task'.status = .executed ↔ outcome.success = true) := by
  refine ⟨⟨pending.tasks.insert taskId (task.recorded outcome)⟩, task.recorded outcome, ?_,
    Finmap.lookup_insert _, ?_⟩
  · rw [PendingPlans.recordExecution, h]
    rfl
  · cases hs : outcome.success <;> simp [TaskState.recorded, hs]

/-- Success is that of all commands, the exit code that of the last one, and the outputs come one
after the other; what is recorded follows the success. -/
theorem executePlan_outcome {World : Type} (execute : String → World → CommandResult × World)
    (plan : ExecutionPlan) (world : World) :
    let results := commandResults execute plan.commands world
    let outcome := (executePlan execute plan world).1
    (outcome.success = true ↔
        results.length = plan.commands.length ∧ ∀ result ∈ results, result.succeeded = true) ∧
      outcome.exitCode = (results.getLast?.map CommandResult.exitCode).getD 0 ∧
      (outcome.exitCode = 0 ↔ ∀ last ∈ results.getLast?, last.succeeded = true) ∧
      (outcome.success = true → outcome.exitCode = 0) ∧
      ((outcome.exitCode = 0 ↔ outcome.success = true) ↔
        ((∃ result ∈ results, result.succeeded = false) →
          ∃ last ∈ results.getLast?, last.succeeded = false)) ∧
      outcome.stdout = String.join (results.map CommandResult.stdout) ∧
      ∀ (pending : PendingPlans) taskId task, pending.tasks.lookup taskId = some task →
        ∃ after task', pending.recordExecution taskId outcome = (.ok (), after) ∧
          after.tasks.lookup taskId = some task' ∧
          (task'.status = .executed ↔ ∀ result ∈ results, result.succeeded = true) := by
  intro results outcome
  have hrun : outcome = Runs.run ExecutionOutcome.add .start results :=
    executeCommands_fst execute plan.commands .start world
  have hsuccess : outcome.success = true ↔ ∀ result ∈ results, result.succeeded = true := by
    rw [hrun, success_run, List.all_eq_true]
  have hcode : outcome.exitCode = (results.getLast?.map CommandResult.exitCode).getD 0 := by
    rw [hrun, exitCode_run]
  have hzero : outcome.exitCode = 0 ↔ ∀ last ∈ results.getLast?, last.succeeded = true := by
    rw [hcode]
    cases hlast : results.getLast? with
    | none => simp
    | some last => simp [CommandResult.exitCode_eq_zero_iff]
  have hboth : outcome.success = true → outcome.exitCode = 0 := by
    intro h
    apply hzero.mpr
    intro last hlast
    exact hsuccess.mp h last (List.mem_of_getLast? hlast)
  refine ⟨?_, hcode, hzero, hboth, ?_, ?_, ?_⟩
  · rw [hsuccess]
    exact ⟨fun h => ⟨length_commandResults execute plan.commands world, h⟩, fun h => h.2⟩
  · have hfails : outcome.success ≠ true ↔ ∃ result ∈ results, result.succeeded = false := by
      rw [Ne, hsuccess]
      simp
    have hlastFails : outcome.exitCode ≠ 0 ↔ ∃ last ∈ results.getLast?, last.succeeded = false := by
      rw [Ne, hzero]
      simp
    rw [← hfails, ← hlastFails, not_imp_not]
    exact ⟨Iff.mp, fun h => ⟨h, hboth⟩⟩
  · rw [hrun, stdout_run]
  · intro pending taskId task hlookup
    obtain ⟨after, task', hrecord, hafter, hstatus⟩ := recordExecution_tracked hlookup outcome
    exact ⟨after, task', hrecord, hafter, hstatus.trans hsuccess⟩

/-- The last command ends well, after one that did not. -/
theorem executePlan_recovered :
    let plan : ExecutionPlan := ⟨"task-1", "check, then clean up",
      ["[[AB:OPS.TERM.RUN.LOCAL]] cargo check", "[[AB:OPS.TERM.RUN.LOCAL]] cargo clean"]⟩
    let outcome := (executePlan scripted plan
      [.ok ⟨.exited 1, [], []⟩, .ok ⟨.exited 0, [], []⟩]).1
    outcome.exitCode = 0 ∧ outcome.success = false := by
  decide

end AiBridge
