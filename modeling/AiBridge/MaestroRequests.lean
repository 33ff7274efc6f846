import AiBridge.MaestroHandler

namespace AiBridge

open Text

/-- What a message asks for once it is read. -/
inductive Request
  | resolve (resolved : TaskResolved)
  | submit (plan : ExecutionPlan)
  | ask (q : TaskQuery)
  | arm
  | disarm (reason : String)
  | logOverride (taskId : String)
  | directMessage (text : String)
  deriving DecidableEq, Repr

namespace Request

def ofMessage : MaestroMessage → Request
  | .executionPlan plan => submit plan
  | .taskQuery q => ask q

def resolvedBranch (v : Json) : Option (Except ChannelError Request) :=
  if (v.get? "approved").isSome then
    some (match TaskResolved.fromValue v with
      | none => .error .json
      | some resolved => .ok (resolve resolved))
  else none

def messageBranch (v : Json) : Option (Except ChannelError Request) :=
  (MaestroMessage.fromDocument v).map fun message => .ok (ofMessage message)

def typedBranch (v : Json) : Option (Except ChannelError Request) :=
  match (v.get? "type").bind Json.asStr with
  | some t => if t = "execution_plan" ∨ t = "task_query" then messageBranch v else none
  | none => none

def planBranch (v : Json) : Option (Except ChannelError Request) :=
  if (v.get? "commands").isSome then
    some (match ExecutionPlan.fromValue v with
      | none => .error .json
      | some plan => .ok (submit plan))
  else none

def queryBranch (v : Json) : Option (Except ChannelError Request) :=
  if (v.get? "task_id").isSome then
    match TaskQuery.fromValue v with
    | none => none
    | some q => if v.size = some 1 then some (.ok (ask q)) else none
  else none

def controlBranch (v : Json) : Option (Except ChannelError Request) :=
  match (v.get? "type").bind Json.asStr with
  | some t =>
    if t = "safety_arm" then some (.ok arm)
    else if t = "safety_disarm" then
      some (.ok (disarm (textOr v "reason" "no reason provided")))
    else if t = "safety_override" then some (.ok (logOverride (textOr v "task_id" "unknown")))
    else if t = "direct_message" then some (.ok (directMessage (textOr v "text" "")))
    else none
  | none => none

def ofDocument (v : Json) : Except ChannelError Request :=
  ((resolvedBranch v).or <| (typedBranch v).or <| (planBranch v).or <| (queryBranch v).or <|
    (messageBranch v).or <| controlBranch v).getD (.error .json)

/-- The request a text carries. It depends on the text alone. -/
def read (fromStr : String → Option Json) (raw : String) : Except ChannelError Request :=
  if trim raw = "" then .error .json
  else
    match fromStr (trim raw) with
    | none => .error .json
    | some v => ofDocument v

theorem read_resolved {fromStr : String → Option Json} {raw : String} {resolved : TaskResolved}
    (hraw : trim raw ≠ "") (hparse : fromStr (trim raw) = some resolved.toJson) :
    read fromStr raw = .ok (resolve resolved) := by
  have happroved : (resolved.toJson.get? "approved").isSome := rfl
  simp only [read, hraw, if_false, hparse, ofDocument, resolvedBranch, happroved, if_true,
    TaskResolved.fromValue_toJson, Option.some_or, Option.getD_some]

section Perform

variable (rx : ShippedRegex) (io : Surroundings) (pending : PendingPlans) (guard : SafetyGuard)

def perform : Request → Handled
  | resolve resolved => resolveTask io pending guard resolved
  | submit plan => submitPlan rx io pending guard plan
  | ask q => answerQuery io pending guard q
  | arm =>
    writeAck io pending (guard.arm "ui_user" io.toggledAt io.recordedAt)
      (.obj [("status", .str "armed")]) none
  | disarm reason =>
    writeAck io pending (guard.disarm "ui_user" reason io.toggledAt io.recordedAt)
      (.obj [("status", .str "disarmed")]) none
  | logOverride taskId =>
    writeAck io pending guard
      (.obj [("status", .str "override_logged"), ("task_id", .str taskId)]) none
  | directMessage text =>
    writeAck io pending guard
      (.obj [("status", .str "message_received"), ("text", .str text)]) none

def performOrFail : Except ChannelError Request → Handled
  | .error error => failWith pending guard error
  | .ok request => perform rx io pending guard request

variable {rx} {io} {pending} {guard}

theorem handleMessage_eq (message : MaestroMessage) :
    handleMessage rx io pending guard message = perform rx io pending guard (ofMessage message) := by
  cases message with
  | executionPlan plan => rfl
  | taskQuery q => rfl

theorem taskResolvedBranch_eq (rx : ShippedRegex) (v : Json) : taskResolvedBranch io pending guard v =
    (resolvedBranch v).map (performOrFail rx io pending guard) := by
  unfold taskResolvedBranch resolvedBranch
  split
  · cases TaskResolved.fromValue v with
    | none => rfl
    | some resolved => rfl
  · rfl

theorem fallbackBranch_eq (v : Json) : fallbackBranch rx io pending guard v =
    (messageBranch v).map (performOrFail rx io pending guard) := by
  unfold fallbackBranch messageBranch
  cases MaestroMessage.fromDocument v with
  | none => rfl
  | some message =>
    simp only [Option.map_some, handleMessage_eq message, performOrFail]

theorem typedMessageBranch_eq (v : Json) : typedMessageBranch rx io pending guard v =
    (typedBranch v).map (performOrFail rx io pending guard) := by
  unfold typedMessageBranch typedBranch
  cases (v.get? "type").bind Json.asStr with
  | none => rfl
  | some t =>
    by_cases ht : t = "execution_plan" ∨ t = "task_query"
    · simp only [ht, if_true]
      exact fallbackBranch_eq v
    · simp only [ht, if_false, Option.map_none]

theorem plainPlanBranch_eq (v : Json) : plainPlanBranch rx io pending guard v =
    (planBranch v).map (performOrFail rx io pending guard) := by
  unfold plainPlanBranch planBranch
  split
  · cases ExecutionPlan.fromValue v with
    | none => rfl
    | some plan => rfl
  · rfl

theorem plainQueryBranch_eq (rx : ShippedRegex) (v : Json) : plainQueryBranch io pending guard v =
    (queryBranch v).map (performOrFail rx io pending guard) := by
  unfold plainQueryBranch queryBranch
  split
  · cases TaskQuery.fromValue v with
    | none => rfl
    | some q =>
      by_cases hsize : v.size = some 1
      · simp only [hsize, if_true]
        rfl
      · simp only [hsize, if_false, Option.map_none]
  · rfl

theorem safetyControlBranch_eq (rx : ShippedRegex) (v : Json) : safetyControlBranch io pending guard v =
    (controlBranch v).map (performOrFail rx io pending guard) := by
  unfold safetyControlBranch controlBranch
  cases (v.get? "type").bind Json.asStr with
  | none => rfl
  | some t =>
    simp only [apply_ite (Option.map (performOrFail rx io pending guard)), Option.map_some,
      Option.map_none, performOrFail, perform]

/-- The dispatcher first reads the request off the text and then performs it. -/
theorem handleMaestroMessage_eq (fromStr : String → Option Json) (raw : String) :
    handleMaestroMessage rx fromStr io pending guard raw =
      performOrFail rx io pending guard (read fromStr raw) := by
  unfold handleMaestroMessage read
  by_cases hempty : trim raw = ""
  · simp only [hempty, if_true, performOrFail]
  · simp only [hempty, if_false]
    cases fromStr (trim raw) with
    | none => rfl
    | some v =>
      simp only [taskResolvedBranch_eq rx, typedMessageBranch_eq, plainPlanBranch_eq,
        plainQueryBranch_eq rx, fallbackBranch_eq, safetyControlBranch_eq rx, ofDocument,
        ← Option.map_or]
      exact Option.getD_map (performOrFail rx io pending guard) (.error .json) _

theorem handleMaestroMessage_of_read {fromStr : String → Option Json} {raw : String}
    {request : Request} (h : read fromStr raw = .ok request) :
    handleMaestroMessage rx fromStr io pending guard raw = request.perform rx io pending guard := by
  rw [handleMaestroMessage_eq, h, performOrFail]

end Perform

end Request

end AiBridge
