import AiBridge.PendingPlans
import AiBridge.SafetyGuard
import AiBridge.Wire

namespace AiBridge

open Text

/-- What one call of the handler reads besides the message and the two shared states: the
environment, the clocks, and what becomes of the one write to the stream. -/
structure Surroundings where
  env : Env
  now : Instant
  toggledAt : SystemTime
  recordedAt : SystemTime
  write : Except String Unit

/-- What one call leaves behind. `sent` is the acknowledgement that went out. -/
structure Handled where
  result : Except ChannelError (Option (String × ExecutionPlan))
  pending : PendingPlans
  guard : SafetyGuard
  sent : Option Json

section Handler

variable (rx : ShippedRegex) (fromStr : String → Option Json) (io : Surroundings)
  (pending : PendingPlans) (guard : SafetyGuard)

def failWith (error : ChannelError) : Handled := ⟨.error error, pending, guard, none⟩

/-- `stream.write_all(ack)?` and then the return value. -/
def writeAck (ack : Json) (returned : Option (String × ExecutionPlan)) : Handled :=
  match io.write with
  | .error message => failWith pending guard (.io message)
  | .ok () => ⟨.ok returned, pending, guard, some ack⟩

def resolvedAck (resolved : TaskResolved) : Json :=
  .obj [("task_id", .str resolved.taskId), ("approved", .bool resolved.approved),
    ("status", .str (if resolved.approved then "approved" else "rejected"))]

def resolveTask (resolved : TaskResolved) : Handled :=
  let taskId := resolved.taskId
  let approved := resolved.approved
  match pending.handleOwnerDecision taskId approved with
  | (.error e, pending) => failWith pending guard (.io e.display)
  | (.ok planOpt, pending) =>
    writeAck io pending guard (resolvedAck resolved)
      (if approved then planOpt.map fun plan => (taskId, plan) else none)

def submitPlan (plan : ExecutionPlan) : Handled :=
  let taskId := plan.taskId
  let ((verdict, ack), pending) := pending.ingest rx io.env plan io.now
  writeAck io pending guard ack.toJson
    (match verdict with
    | .pendingTimeout => none
    | .autoApproved => some (taskId, plan)
    | .heldForManualApproval => none)

def answerQuery (q : TaskQuery) : Handled :=
  match pending.query q.taskId with
  | .error e => failWith pending guard (.io e.display)
  | .ok result => writeAck io pending guard result.toJson none

def handleMessage : MaestroMessage → Handled
  | .executionPlan plan => submitPlan rx io pending guard plan
  | .taskQuery q => answerQuery io pending guard q

/-- 1. `TaskResolved` has an `approved` member. -/
def taskResolvedBranch (v : Json) : Option Handled :=
  if (v.get? "approved").isSome then
    match TaskResolved.fromValue v with
    | none => some (failWith pending guard .json)
    | some resolved => some (resolveTask io pending guard resolved)
  else none

/-- 2. A message with a `type` member. -/
def typedMessageBranch (v : Json) : Option Handled :=
  match (v.get? "type").bind Json.asStr with
  | some t =>
    if t = "execution_plan" ∨ t = "task_query" then
      (MaestroMessage.fromDocument v).map (handleMessage rx io pending guard)
    else none
  | none => none

/-- 3. A plain plan has `commands`. -/
def plainPlanBranch (v : Json) : Option Handled :=
  if (v.get? "commands").isSome then
    match ExecutionPlan.fromValue v with
    | none => some (failWith pending guard .json)
    | some plan => some (submitPlan rx io pending guard plan)
  else none

/-- 4. A plain query has nothing but `task_id`. -/
def plainQueryBranch (v : Json) : Option Handled :=
  if (v.get? "task_id").isSome then
    match TaskQuery.fromValue v with
    | none => none
    | some q => if v.size = some 1 then some (answerQuery io pending guard q) else none
  else none

/-- Any message that reads as a `MaestroMessage` after all. -/
def fallbackBranch (v : Json) : Option Handled :=
  (MaestroMessage.fromDocument v).map (handleMessage rx io pending guard)

def textOr (v : Json) (key default : String) : String :=
  ((v.get? key).bind Json.asStr).getD default

/-- 5. The control events of the safety lock. -/
def safetyControlBranch (v : Json) : Option Handled :=
  match (v.get? "type").bind Json.asStr with
  | some t =>
    if t = "safety_arm" then
      let guard := guard.arm "ui_user" io.toggledAt io.recordedAt
      some (writeAck io pending guard (.obj [("status", .str "armed")]) none)
    else if t = "safety_disarm" then
      let reason := textOr v "reason" "no reason provided"
      let guard := guard.disarm "ui_user" reason io.toggledAt io.recordedAt
      some (writeAck io pending guard (.obj [("status", .str "disarmed")]) none)
    else if t = "safety_override" then
      let taskId := textOr v "task_id" "unknown"
      some (writeAck io pending guard
        (.obj [("status", .str "override_logged"), ("task_id", .str taskId)]) none)
    else if t = "direct_message" then
      let text := textOr v "text" ""
      some (writeAck io pending guard
        (.obj [("status", .str "message_received"), ("text", .str text)]) none)
    else none
  | none => none

def handleMaestroMessage (raw : String) : Handled :=
  let trimmed := trim raw
  if trimmed = "" then failWith pending guard .json
  else
    match fromStr trimmed with
    | none => failWith pending guard .json
    | some v =>
      ((taskResolvedBranch io pending guard v).or <|
        (typedMessageBranch rx io pending guard v).or <|
        (plainPlanBranch rx io pending guard v).or <|
        (plainQueryBranch io pending guard v).or <|
        (fallbackBranch rx io pending guard v).or <|
        safetyControlBranch io pending guard v).getD (failWith pending guard .json)

end Handler

end AiBridge
