import AiBridge.Json
import AiBridge.Protocol

namespace AiBridge

namespace ExecutionPlan

def fieldNames : List String := ["task_id", "description", "commands"]

def ofFields : List Json → Option ExecutionPlan
  | [.str taskId, .str description, .arr commands] =>
    (commands.mapM Json.asStr).map fun commands => ⟨taskId, description, commands⟩
  | _ => none

/-- `serde_json::from_value::<ExecutionPlan>`. -/
def fromValue (v : Json) : Option ExecutionPlan := (v.fields fieldNames).bind ofFields

end ExecutionPlan

namespace TaskQuery

def fieldNames : List String := ["task_id"]

def ofFields : List Json → Option TaskQuery
  | [.str taskId] => some ⟨taskId⟩
  | _ => none

def fromValue (v : Json) : Option TaskQuery := (v.fields fieldNames).bind ofFields

end TaskQuery

namespace TaskResolved

def fieldNames : List String := ["task_id", "approved"]

def ofFields : List Json → Option TaskResolved
  | [.str taskId, .bool approved] => some ⟨taskId, approved⟩
  | _ => none

def fromValue (v : Json) : Option TaskResolved := (v.fields fieldNames).bind ofFields

/-- `serde_json::from_str::<TaskResolved>` on a text that parses to the document. -/
def fromDocument (document : Json) : Option TaskResolved :=
  (document.strictFields fieldNames).bind ofFields

def toJson (resolved : TaskResolved) : Json :=
  .obj [("task_id", .str resolved.taskId), ("approved", .bool resolved.approved)]

theorem fromValue_toJson (resolved : TaskResolved) :
    fromValue resolved.toJson = some resolved := by
  rfl

theorem fromDocument_toJson (resolved : TaskResolved) :
    fromDocument resolved.toJson = some resolved := by
  rfl

end TaskResolved

/-- `serde_json::from_str::<MaestroMessage>` on a text that parses to the document. -/
def MaestroMessage.fromDocument (document : Json) : Option MaestroMessage :=
  (document.tagged "type").bind fun (tag, content) =>
    if tag = "execution_plan" then
      ((content.strictFields ExecutionPlan.fieldNames).bind ExecutionPlan.ofFields).map executionPlan
    else if tag = "task_query" then
      ((content.strictFields TaskQuery.fieldNames).bind TaskQuery.ofFields).map taskQuery
    else none

def TaskSubmitAck.toJson (ack : TaskSubmitAck) : Json := .obj [("task_id", .str ack.taskId)]

/-- The name of a status on the wire. -/
def TaskStatus.wireName : TaskStatus → String
  | pending => "pending"
  | delegableAutoApproved => "delegable_auto_approved"
  | heldForManualApproval => "held_for_manual_approval"
  | executed => "executed"
  | rejectedByOwner => "rejected_by_owner"
  | executionFailed => "execution_failed"

def ExecutionOutcome.toJson (outcome : ExecutionOutcome) : Json :=
  .obj [("stdout", .str outcome.stdout), ("stderr", .str outcome.stderr),
    ("exit_code", .num (toString outcome.exitCode)), ("success", .bool outcome.success)]

def TaskQueryResult.toJson (result : TaskQueryResult) : Json :=
  .obj [("task_id", .str result.taskId), ("status", .str result.status.wireName),
    ("result", (result.result.map ExecutionOutcome.toJson).getD .null)]

/-- What the UI sends; the `type` of a control event is a member like any other. -/
inductive OutboundEvent
  | taskResolved (taskId : String) (approved : Bool)
  | executionPlan (taskId description : String) (commands : List String)
  | safetyArm (ty : String)
  | safetyDisarm (ty reason : String)
  | safetyOverride (ty taskId reason : String)
  | directMessage (ty text : String)
  deriving DecidableEq, Repr

def OutboundEvent.toJson : OutboundEvent → Json
  | taskResolved taskId approved => .obj [("task_id", .str taskId), ("approved", .bool approved)]
  | executionPlan taskId description commands =>
    .obj [("task_id", .str taskId), ("description", .str description),
      ("commands", .arr (commands.map Json.str))]
  | safetyArm ty => .obj [("type", .str ty)]
  | safetyDisarm ty reason => .obj [("type", .str ty), ("reason", .str reason)]
  | safetyOverride ty taskId reason =>
    .obj [("type", .str ty), ("task_id", .str taskId), ("reason", .str reason)]
  | directMessage ty text => .obj [("type", .str ty), ("text", .str text)]

end AiBridge
