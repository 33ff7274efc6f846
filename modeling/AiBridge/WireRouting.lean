import AiBridge.HandlerEffects
import AiBridge.SerdeJson

namespace AiBridge

open Text

/-- A message on the wire: an event of the dashboard, with the `type` it fills in for the controls,
or a message of the protocol. -/
inductive WireForm
  | uiTaskResolved (taskId : String) (approved : Bool)
  | uiExecutionPlan (taskId description : String) (commands : List String)
  | safetyArm
  | safetyDisarm (reason : String)
  | safetyOverride (taskId reason : String)
  | directMessage (text : String)
  | maestroMessage (message : MaestroMessage)
  | executionPlan (plan : ExecutionPlan)
  | taskQuery (q : TaskQuery)
  | taskResolved (resolved : TaskResolved)
  deriving DecidableEq, Repr

def ExecutionPlan.members (plan : ExecutionPlan) : List (String × Json) :=
  [("task_id", .str plan.taskId), ("description", .str plan.description),
    ("commands", .arr (plan.commands.map Json.str))]

def TaskQuery.members (q : TaskQuery) : List (String × Json) := [("task_id", .str q.taskId)]

/-- The tag comes first and the fields of the record follow. -/
def MaestroMessage.toJson : MaestroMessage → Json
  | executionPlan plan => .obj (("type", .str "execution_plan") :: plan.members)
  | taskQuery q => .obj (("type", .str "task_query") :: q.members)

namespace WireForm

def document : WireForm → Json
  | uiTaskResolved taskId approved => (OutboundEvent.taskResolved taskId approved).toJson
  | uiExecutionPlan taskId description commands =>
    (OutboundEvent.executionPlan taskId description commands).toJson
  | safetyArm => (OutboundEvent.safetyArm "safety_arm").toJson
  | safetyDisarm reason => (OutboundEvent.safetyDisarm "safety_disarm" reason).toJson
  | safetyOverride taskId reason =>
    (OutboundEvent.safetyOverride "safety_override" taskId reason).toJson
  | directMessage text => (OutboundEvent.directMessage "direct_message" text).toJson
  | maestroMessage message => message.toJson
  | executionPlan plan => .obj plan.members
  | taskQuery q => .obj q.members
  | taskResolved resolved => resolved.toJson

/-- What the message is meant to ask for. -/
def request : WireForm → Request
  | uiTaskResolved taskId approved => .resolve ⟨taskId, approved⟩
  | uiExecutionPlan taskId description commands => .submit ⟨taskId, description, commands⟩
  | safetyArm => .arm
  | safetyDisarm reason => .disarm reason
  | safetyOverride taskId _ => .logOverride taskId
  | directMessage text => .directMessage text
  | maestroMessage (.executionPlan plan) => .submit plan
  | maestroMessage (.taskQuery q) => .ask q
  | executionPlan plan => .submit plan
  | taskQuery q => .ask q
  | taskResolved resolved => .resolve resolved

/-- The place of its branch in the order of the tests. -/
def branch : WireForm → Nat
  | uiTaskResolved _ _ | taskResolved _ => 0
  | maestroMessage _ => 1
  | uiExecutionPlan _ _ _ | executionPlan _ => 2
  | taskQuery _ => 3
  | safetyArm | safetyDisarm _ | safetyOverride _ _ | directMessage _ => 5

end WireForm

namespace Request

/-- The same tests, before anything is done about the message. -/
def readingOrder (v : Json) : List (Option (Except ChannelError Request)) :=
  [resolvedBranch v, typedBranch v, planBranch v, queryBranch v, messageBranch v, controlBranch v]

variable {rx : ShippedRegex} {io : Surroundings} {pending : PendingPlans} {guard : SafetyGuard}
  {v : Json} {request : Request}

theorem ofDocument_eq (v : Json) :
    ofDocument v = ((readingOrder v).findSome? id).getD (.error .json) := by
  have hcons : ∀ (first : Option (Except ChannelError Request)) rest,
      (first :: rest).findSome? id = first.or (rest.findSome? id) := by
    intro first rest
    cases first with
    | none => rfl
    | some found => rfl
  rw [readingOrder, hcons, hcons, hcons, hcons, hcons, hcons, List.findSome?_nil, Option.or_none]
  rfl

/-- The first test that answers decides. -/
theorem ofDocument_of_first {n : Nat} {rest : List (Option (Except ChannelError Request))}
    (h : readingOrder v = List.replicate n none ++ some (.ok request) :: rest) :
    ofDocument v = .ok request := by
  have hfirst : ∀ m, (List.replicate m none ++ some (Except.ok request) :: rest).findSome? id =
      some (.ok request) := by
    intro m
    induction m with
    | zero => rfl
    | succ m ih =>
      rw [List.replicate_succ, List.cons_append, List.findSome?_cons_of_isNone rfl]
      exact ih
  rw [ofDocument_eq, h, hfirst n, Option.getD_some]

end Request

namespace ExecutionPlan

theorem ofFields_members (plan : ExecutionPlan) :
    ofFields (plan.members.map Prod.snd) = some plan := by
  show ((plan.commands.map Json.str).mapM Json.asStr).map _ = _
  rw [Json.mapM_asStr]
  rfl

theorem fromValue_members (plan : ExecutionPlan) : fromValue (.obj plan.members) = some plan :=
  plan.ofFields_members

end ExecutionPlan

namespace MaestroMessage

theorem fromDocument_toJson (message : MaestroMessage) :
    fromDocument message.toJson = some message := by
  cases message with
  | taskQuery q => rfl
  | executionPlan plan =>
    show (ExecutionPlan.ofFields (plan.members.map Prod.snd)).map executionPlan = _
    rw [plan.ofFields_members]
    rfl

end MaestroMessage

open Request

theorem planBranch_members (plan : ExecutionPlan) :
    planBranch (.obj plan.members) = some (.ok (.submit plan)) := by
  have hcommands : ((Json.obj plan.members).get? "commands").isSome = true := rfl
  rw [planBranch, if_pos hcommands, plan.fromValue_members]

theorem readingOrder_members (plan : ExecutionPlan) :
    ∃ rest, readingOrder (.obj plan.members) =
      List.replicate 2 none ++ some (.ok (.submit plan)) :: rest := by
  have hplan := planBranch_members plan
  refine ⟨[queryBranch (.obj plan.members), messageBranch (.obj plan.members),
    controlBranch (.obj plan.members)], ?_⟩
  rw [readingOrder, hplan]
  rfl

/-- Every message is read by the test that is meant for it, and by none before. -/
theorem readingOrder_document (form : WireForm) :
    ∃ rest, readingOrder form.document =
      List.replicate form.branch none ++ some (.ok form.request) :: rest := by
  cases form with
  | uiTaskResolved taskId approved => exact ⟨_, rfl⟩
  | taskResolved resolved => exact ⟨_, rfl⟩
  | taskQuery q => exact ⟨_, rfl⟩
  | safetyArm => exact ⟨_, rfl⟩
  | safetyDisarm reason => exact ⟨_, rfl⟩
  -- a query has one member, and an override has three
  | safetyOverride taskId reason => exact ⟨_, rfl⟩
  | directMessage text => exact ⟨_, rfl⟩
  | executionPlan plan => exact readingOrder_members plan
  | uiExecutionPlan taskId description commands =>
    exact readingOrder_members ⟨taskId, description, commands⟩
  | maestroMessage message =>
    have hread := message.fromDocument_toJson
    have hmessage : messageBranch message.toJson = some (.ok (ofMessage message)) := by
      rw [messageBranch, hread]
      rfl
    cases message with
    | taskQuery q => exact ⟨_, rfl⟩
    | executionPlan plan =>
      have htyped : typedBranch (MaestroMessage.executionPlan plan).toJson =
          messageBranch (MaestroMessage.executionPlan plan).toJson := rfl
      refine ⟨[planBranch (MaestroMessage.executionPlan plan).toJson,
        queryBranch (MaestroMessage.executionPlan plan).toJson,
        messageBranch (MaestroMessage.executionPlan plan).toJson,
        controlBranch (MaestroMessage.executionPlan plan).toJson], ?_⟩
      show readingOrder (MaestroMessage.executionPlan plan).toJson = _
      rw [readingOrder, htyped, hmessage]
      rfl

end AiBridge
