import AiBridge.Errors
import AiBridge.FinmapWalk
import AiBridge.Policy
import AiBridge.Timers

namespace AiBridge

inductive GatekeeperVerdict
  | pendingTimeout
  | autoApproved
  | heldForManualApproval
  deriving DecidableEq, Repr

def applyGatekeeperPolicy (env : Env) (decision : PolicyDecision) (elapsed : Duration) :
    GatekeeperVerdict :=
  match decision with
  | .delegable =>
    match evaluateTimeout env true elapsed with
    | .autoApprove => .autoApproved
    | .awaitingHuman => .pendingTimeout
  | .nonDelegable => .heldForManualApproval

structure TaskState where
  taskId : String
  plan : ExecutionPlan
  decision : PolicyDecision
  status : TaskStatus
  createdAt : Instant
  executionResult : Option ExecutionOutcome
  deriving DecidableEq, Repr

/-- The `HashMap` of tracked tasks. Its iteration order is left open. -/
structure PendingPlans where
  tasks : Finmap fun _ : String => TaskState
  deriving DecidableEq

namespace PendingPlans

def new : PendingPlans := ⟨∅⟩

def ingest (rx : ShippedRegex) (env : Env) (self : PendingPlans) (plan : ExecutionPlan)
    (now : Instant) : (GatekeeperVerdict × TaskSubmitAck) × PendingPlans :=
  let decision := decidePolicy rx plan
  let taskId := plan.taskId
  match decision with
  | .delegable =>
    let fresh : TaskState :=
      { taskId, plan, decision, status := .pending, createdAt := now, executionResult := none }
    -- `entry(..).or_insert_with(..)`: an entry that is there keeps its plan and its clock
    let taskState := (self.tasks.lookup taskId).getD fresh
    let started := taskState.createdAt
    let v := applyGatekeeperPolicy env decision (now.saturatingDurationSince started)
    let status : TaskStatus :=
      match v with
      | .autoApproved => .delegableAutoApproved
      | .pendingTimeout => .pending
      | .heldForManualApproval => .heldForManualApproval
    ((v, ⟨taskId⟩), ⟨self.tasks.insert taskId { taskState with status }⟩)
  | .nonDelegable =>
    let held : TaskState :=
      { taskId, plan, decision, status := .heldForManualApproval, createdAt := now
        executionResult := none }
    ((.heldForManualApproval, ⟨taskId⟩), ⟨self.tasks.insert taskId held⟩)

end PendingPlans

/-- The test `check_timeouts` makes on each entry. -/
def TaskState.timedOut (env : Env) (now : Instant) (task : TaskState) : Bool :=
  decide (task.decision = .delegable) && decide (task.status = .pending) &&
    decide (applyGatekeeperPolicy env task.decision
      (now.saturatingDurationSince task.createdAt) = .autoApproved)

namespace PendingPlans

def checkTimeouts (env : Env) (self : PendingPlans) (now : Instant) :
    Multiset (String × ExecutionPlan) × PendingPlans :=
  (self.tasks.collect fun _ task => if task.timedOut env now then some task.plan else none,
    ⟨self.tasks.mapVal fun _ task =>
      if task.timedOut env now then { task with status := .delegableAutoApproved } else task⟩)

def recordExecution (self : PendingPlans) (taskId : String) (result : ExecutionOutcome) :
    Except LoopError Unit × PendingPlans :=
  match self.tasks.lookup taskId with
  | none => (.error (.taskNotFound taskId), self)
  | some task =>
    (.ok (), ⟨self.tasks.insert taskId
      { task with
        status := if result.success then .executed else .executionFailed
        executionResult := some result }⟩)

def handleOwnerDecision (self : PendingPlans) (taskId : String) (approved : Bool) :
    Except LoopError (Option ExecutionPlan) × PendingPlans :=
  match self.tasks.lookup taskId with
  | none => (.error (.taskNotFound taskId), self)
  | some task =>
    if task.status ≠ .heldForManualApproval then (.ok none, self)
    else if approved then
      (.ok (some task.plan), ⟨self.tasks.insert taskId { task with status := .pending }⟩)
    else (.ok none, ⟨self.tasks.insert taskId { task with status := .rejectedByOwner }⟩)

def query (self : PendingPlans) (taskId : String) : Except LoopError TaskQueryResult :=
  match self.tasks.lookup taskId with
  | none => .error (.taskNotFound taskId)
  | some task => .ok ⟨task.taskId, task.status, task.executionResult⟩

def criticalHeld (self : PendingPlans) : Finset String :=
  self.tasks.keys.filter fun id =>
    (self.tasks.lookup id).map TaskState.status = some .heldForManualApproval

def readyForExecution (self : PendingPlans) : Multiset (String × ExecutionPlan) :=
  self.tasks.collect fun _ task =>
    if task.status = .delegableAutoApproved ∨ task.status = .pending then some task.plan else none

end PendingPlans

end AiBridge
