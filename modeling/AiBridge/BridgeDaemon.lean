import AiBridge.HandlerEffects
import AiBridge.HandshakeGate
import AiBridge.PlanOutcome
import AiBridge.SubChat
import AiBridge.UiStream

namespace AiBridge

open PendingPlans

/-- `execute_plan` under way on a plan that was handed out under an id. The commands at the front of
the plan have their results. -/
structure PlanRun where
  taskId : String
  plan : ExecutionPlan
  results : List CommandResult
  within : results.length ≤ plan.commands.length
  deriving DecidableEq

namespace PlanRun

def start (out : String × ExecutionPlan) : PlanRun := ⟨out.1, out.2, [], Nat.zero_le _⟩

/-- The command that is executed next. -/
def command (self : PlanRun) : Option String := self.plan.commands[self.results.length]?

def next (self : PlanRun) (result : CommandResult) : PlanRun :=
  if h : self.results.length < self.plan.commands.length then
    ⟨self.taskId, self.plan, self.results ++ [result], by simpa [Nat.succ_le_iff] using h⟩
  else self

/-- What the loop of `execute_plan` has added up. -/
def outcome (self : PlanRun) : ExecutionOutcome := self.results.foldl ExecutionOutcome.add .start

end PlanRun

/-- What the daemon is built with, and the sockets it is bound to. -/
structure Deployment where
  rx : ShippedRegex
  serde : SerdeJson
  shlex : Shlex
  socket : ChannelName → BridgeSocket

/-- The states that the tasks of the daemon share, and the plans that are being executed. -/
structure BridgeDaemon where
  pending : PendingPlans
  guard : SafetyGuard
  registry : BranchRegistry
  running : Multiset PlanRun

inductive BridgeEvent
  /-- A connection is served on a channel. -/
  | turn (channel : ChannelName) (connection : Connection) (io : Surroundings)
  | poll (env : Env) (now : Instant)
  /-- The next command of a plan is executed. -/
  | command (run : PlanRun) (host : Host) (spawn : String → List String → Except IoError Output)
  /-- A plan whose commands are through is recorded. -/
  | finish (run : PlanRun)

def rootTaskId : String := "root-task"

namespace BridgeDaemon

def start : BridgeDaemon := ⟨.new, .new, .new rootTaskId, 0⟩

/-- An event needs the execution that it goes on with or ends. -/
def Enabled (self : BridgeDaemon) : BridgeEvent → Prop
  | .command run _ _ => run ∈ self.running ∧ run.command.isSome
  | .finish run => run ∈ self.running ∧ run.command = none
  | _ => True

instance (self : BridgeDaemon) (event : BridgeEvent) : Decidable (self.Enabled event) := by
  unfold Enabled
  split <;> infer_instance

/-- A plan that the handler returns is executed in a task of its own. -/
def handed (out : Handled) : Multiset PlanRun :=
  match out.result with
  | .ok (some exec) => {PlanRun.start exec}
  | _ => 0

end BridgeDaemon

namespace Deployment

variable (self : Deployment)

/-- One turn of the task of a private channel. -/
def branchTurn (channel : ChannelName) (registry : BranchRegistry) (write : Except String Unit)
    (connection : Connection) : Except ChannelError BranchHandled :=
  (self.socket channel).handleClientStream connection fun stream => do
    let buf ← readToString stream
    pure (handleBranchMessage self.serde.fromStr write registry channel buf)

def step (daemon : BridgeDaemon) : BridgeEvent → BridgeDaemon
  | .turn .publicMaestro connection io =>
    match channelTurn self.rx self.serde (self.socket .publicMaestro) io daemon.pending daemon.guard
        connection with
    | .error _ => daemon
    | .ok out =>
      { daemon with
        pending := out.pending
        guard := out.guard
        running := daemon.running + BridgeDaemon.handed out }
  | .turn channel connection io =>
    match self.branchTurn channel daemon.registry io.write connection with
    | .error _ => daemon
    | .ok out => { daemon with registry := out.registry }
  | .poll env now =>
    let (toExec, pending) := daemon.pending.checkTimeouts env now
    { daemon with pending, running := daemon.running + toExec.map PlanRun.start }
  | .command run host spawn =>
    match run.command with
    | none => daemon
    | some cmd =>
      let result := (executeApprovedTask self.shlex host spawn cmd).result
      { daemon with running := run.next result ::ₘ daemon.running.erase run }
  | .finish run =>
    { daemon with
      pending := (daemon.pending.recordExecution run.taskId run.outcome).2
      running := daemon.running.erase run }

/-- The program that an event starts, with its arguments. -/
def spawned : BridgeEvent → Option (String × List String)
  | .command run host spawn =>
    run.command.bind fun cmd => (executeApprovedTask self.shlex host spawn cmd).spawned
  | _ => none

def after (events : List BridgeEvent) : BridgeDaemon := Runs.run self.step .start events

/-- The request that a connection brings to the handler of the Maestro's channel. -/
def request (connection : Connection) : Option Request :=
  match (self.socket .publicMaestro).handleClientStream connection readToString with
  | .error _ => none
  | .ok buf => (Request.read self.serde.fromStr buf).toOption

end Deployment

/-- The call that a request makes on the registry. -/
def Request.call (io : Surroundings) : Request → Option Call
  | submit plan => some (.ingest io.env plan io.now)
  | resolve resolved => some (.handleOwnerDecision resolved.taskId resolved.approved)
  | ask q => some (.query q.taskId)
  | arm | disarm _ | logOverride _ | directMessage _ => none

namespace Deployment

variable (self : Deployment)

/-- The call that an event makes on the registry. -/
def call : BridgeEvent → Option Call
  | .turn .publicMaestro connection io => (self.request connection).bind (Request.call io)
  | .turn _ _ _ => none
  | .poll env now => some (.checkTimeouts env now)
  | .command _ _ _ => none
  | .finish run => some (.recordExecution run.taskId run.outcome)

def calls (events : List BridgeEvent) : List Call := events.filterMap self.call

end Deployment

end AiBridge
