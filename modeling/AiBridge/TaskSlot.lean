import AiBridge.PendingPlans
import AiBridge.Runs

namespace AiBridge

/-- A call on the registry, with everything it reads. -/
inductive Call
  | ingest (env : Env) (plan : ExecutionPlan) (now : Instant)
  | checkTimeouts (env : Env) (now : Instant)
  | handleOwnerDecision (taskId : String) (approved : Bool)
  | recordExecution (taskId : String) (result : ExecutionOutcome)
  | query (taskId : String)
  deriving DecidableEq, Repr

variable (rx : ShippedRegex)

namespace PendingPlans

def step (self : PendingPlans) : Call → PendingPlans
  | .ingest env plan now => (self.ingest rx env plan now).2
  | .checkTimeouts env now => (self.checkTimeouts env now).2
  | .handleOwnerDecision taskId approved => (self.handleOwnerDecision taskId approved).2
  | .recordExecution taskId result => (self.recordExecution taskId result).2
  | .query _ => self

/-- The plans a call hands out for execution, each with the id it goes under. -/
def released (self : PendingPlans) : Call → Multiset (String × ExecutionPlan)
  | .ingest env plan now =>
    if (self.ingest rx env plan now).1.1 = .autoApproved then {(plan.taskId, plan)} else 0
  | .checkTimeouts env now => (self.checkTimeouts env now).1
  | .handleOwnerDecision taskId approved =>
    match (self.handleOwnerDecision taskId approved).1 with
    | .ok (some plan) => {(taskId, plan)}
    | _ => 0
  | .recordExecution _ _ | .query _ => 0

/-- The registry after a run of calls on the empty one. -/
def after (calls : List Call) : PendingPlans := Runs.run (step rx) new calls

end PendingPlans

namespace TaskState

def windowElapsed (env : Env) (now : Instant) (task : TaskState) : Prop :=
  gatekeeperTimeout env ≤ now.saturatingDurationSince task.createdAt

instance (env : Env) (now : Instant) (task : TaskState) : Decidable (task.windowElapsed env now) :=
  inferInstanceAs (Decidable (_ ≤ _))

/-- The entry a delegable plan opens. -/
def fresh (plan : ExecutionPlan) (now : Instant) : TaskState :=
  ⟨plan.taskId, plan, .delegable, .pending, now, none⟩

/-- The entry a critical plan leaves, whatever stood there. -/
def held (plan : ExecutionPlan) (now : Instant) : TaskState :=
  ⟨plan.taskId, plan, .nonDelegable, .heldForManualApproval, now, none⟩

/-- What the submission of a delegable plan does to the entry of its id. -/
def resubmitted (env : Env) (now : Instant) (task : TaskState) : TaskState :=
  { task with
    status := if task.windowElapsed env now then .delegableAutoApproved else .pending }

def polled (env : Env) (now : Instant) (task : TaskState) : TaskState :=
  if task.timedOut env now then { task with status := .delegableAutoApproved } else task

def decided (approved : Bool) (task : TaskState) : TaskState :=
  if task.status = .heldForManualApproval then
    { task with status := if approved then .pending else .rejectedByOwner }
  else task

def recorded (result : ExecutionOutcome) (task : TaskState) : TaskState :=
  { task with
    status := if result.success then .executed else .executionFailed
    executionResult := some result }

theorem timedOut_iff {env : Env} {now : Instant} {task : TaskState} :
    task.timedOut env now = true ↔
      task.decision = .delegable ∧ task.status = .pending ∧ task.windowElapsed env now := by
  simp only [timedOut, Bool.and_eq_true, decide_eq_true_eq, windowElapsed, and_assoc]
  refine and_congr_right fun hd => and_congr_right fun _ => ?_
  simp only [applyGatekeeperPolicy, hd, evaluateTimeout]
  split <;> simp_all

end TaskState

/-- One task id seen alone: what each call does to the entry of that id. -/
def slotStep (id : String) (slot : Option TaskState) : Call → Option TaskState
  | .ingest env plan now =>
    if plan.taskId = id then
      match decidePolicy rx plan with
      | .delegable => some ((slot.getD (.fresh plan now)).resubmitted env now)
      | .nonDelegable => some (.held plan now)
    else slot
  | .checkTimeouts env now => slot.map (TaskState.polled env now)
  | .handleOwnerDecision taskId approved =>
    if taskId = id then slot.map (TaskState.decided approved) else slot
  | .recordExecution taskId result =>
    if taskId = id then slot.map (TaskState.recorded result) else slot
  | .query _ => slot

/-- One task id seen alone: the plan a call hands out under that id. -/
def slotRelease (id : String) (slot : Option TaskState) : Call → Option ExecutionPlan
  | .ingest env plan now =>
    if plan.taskId = id ∧ decidePolicy rx plan = .delegable ∧
      (slot.getD (.fresh plan now)).windowElapsed env now then some plan else none
  | .checkTimeouts env now =>
    slot.bind fun task => if task.timedOut env now then some task.plan else none
  | .handleOwnerDecision taskId approved =>
    if taskId = id ∧ approved = true then
      slot.bind fun task =>
        if task.status = .heldForManualApproval then some task.plan else none
    else none
  | .recordExecution _ _ | .query _ => none

end AiBridge
