import AiBridge.Ledger
import AiBridge.LockState

namespace AiBridge

open Text

/-- One message to the handler, with the plans as they are by then. -/
structure GuardCall where
  io : Surroundings
  pending : PendingPlans
  raw : String

/-- A control message of the safety lock, with what it brings. -/
inductive SafetyMessage
  | arm (reason : Option String)
  | disarm (reason : String)
  | override (taskId reason : String)
  deriving DecidableEq, Repr

namespace SafetyMessage

def ofDocument (v : Json) : Option SafetyMessage :=
  match (v.get? "type").bind Json.asStr with
  | some t =>
    if t = "safety_arm" then some (arm ((v.get? "reason").bind Json.asStr))
    else if t = "safety_disarm" then some (disarm (textOr v "reason" "no reason provided"))
    else if t = "safety_override" then
      some (override (textOr v "task_id" "unknown") (textOr v "reason" "no reason provided"))
    else none
  | none => none

/-- The status in the acknowledgement of the message. -/
def ackStatus : SafetyMessage → String
  | arm _ => "armed"
  | disarm _ => "disarmed"
  | override _ _ => "override_logged"

/-- The record is one of this message. -/
def RecordedBy : SafetyMessage → AuditRecord → Prop
  | arm reason, record =>
    record.action = "arm" ∧ ∀ text, reason = some text → record.reason = text
  | disarm reason, record => record.action = "disarm" ∧ record.reason = reason
  | override taskId reason, record => record.taskId = taskId ∧ record.reason = reason

def Arms : SafetyMessage → Prop
  | arm _ => True
  | _ => False

def Disarms : SafetyMessage → Prop
  | disarm _ => True
  | _ => False

end SafetyMessage

def Handled.status (out : Handled) : Option String :=
  (out.sent.bind (Json.get? "status")).bind Json.asStr

section Audit

variable (rx : ShippedRegex) (fromStr : String → Option Json)

def GuardCall.handle (call : GuardCall) (guard : SafetyGuard) : Handled :=
  handleMaestroMessage rx fromStr call.io call.pending guard call.raw

def guardStep (guard : SafetyGuard) (call : GuardCall) : SafetyGuard :=
  (call.handle rx fromStr guard).guard

/-- The guard after the messages, from a fresh one. -/
def guardAfter (calls : List GuardCall) : SafetyGuard := Runs.run (guardStep rx fromStr) .new calls

/-- The control message that the call acknowledges, if it acknowledges one. -/
def acknowledged (guard : SafetyGuard) (call : GuardCall) : Option SafetyMessage :=
  ((fromStr (trim call.raw)).bind SafetyMessage.ofDocument).filter fun message =>
    (call.handle rx fromStr guard).status = some message.ackStatus

/-- The control messages that a run from a fresh guard acknowledges, in order. -/
def acknowledgements (calls : List GuardCall) : List SafetyMessage :=
  Runs.outputs (guardStep rx fromStr) (acknowledged rx fromStr) .new calls

/-- What the owner may rely on after the messages. -/
structure Audited (calls : List GuardCall) : Prop where
  recorded : List.Forall₂ SafetyMessage.RecordedBy (acknowledgements rx fromStr calls)
    (guardAfter rx fromStr calls).auditLog
  kept : ∀ earlier later rest, calls = earlier ++ later ++ rest →
    (guardAfter rx fromStr earlier).auditLog <+: (guardAfter rx fromStr (earlier ++ later)).auditLog
  armed : (guardAfter rx fromStr calls).state.armed = true ↔
    Ledger.Answered SafetyMessage.Disarms SafetyMessage.Arms (acknowledgements rx fromStr calls)

/-- The text is no override, and no arm that brings a reason of its own. -/
def Recordable (raw : String) : Prop :=
  match Request.read fromStr raw with
  | .ok (.logOverride _) => False
  | .ok .arm => ∀ v reason, fromStr (trim raw) = some v →
      (v.get? "reason").bind Json.asStr = some reason → reason = "user armed the safety lock"
  | _ => True

end Audit

namespace Request

/-- The control message that a request is, with what its document brings. -/
def safetyMessage (v : Json) : Request → Option SafetyMessage
  | arm => some (.arm ((v.get? "reason").bind Json.asStr))
  | disarm reason => some (.disarm reason)
  | logOverride taskId => some (.override taskId (textOr v "reason" "no reason provided"))
  | _ => none

variable {v : Json} {request : Request}

theorem safetyMessage_of_resolvedBranch (h : resolvedBranch v = some (.ok request)) :
    request.safetyMessage v = none := by
  unfold resolvedBranch at h
  split at h
  · cases hread : TaskResolved.fromValue v with
    | none => simp [hread] at h
    | some resolved =>
      simp only [hread, Option.some.injEq, Except.ok.injEq] at h
      rw [← h]
      rfl
  · simp at h

theorem safetyMessage_of_messageBranch (h : messageBranch v = some (.ok request)) :
    request.safetyMessage v = none := by
  unfold messageBranch at h
  obtain ⟨message, _, hrequest⟩ := Option.map_eq_some_iff.mp h
  rw [Except.ok.injEq] at hrequest
  rw [← hrequest]
  cases message with
  | executionPlan plan => rfl
  | taskQuery q => rfl

theorem safetyMessage_of_typedBranch (h : typedBranch v = some (.ok request)) :
    request.safetyMessage v = none := by
  unfold typedBranch at h
  split at h
  · split at h
    · exact safetyMessage_of_messageBranch h
    · simp at h
  · simp at h

theorem safetyMessage_of_planBranch (h : planBranch v = some (.ok request)) :
    request.safetyMessage v = none := by
  unfold planBranch at h
  split at h
  · cases hread : ExecutionPlan.fromValue v with
    | none => simp [hread] at h
    | some plan =>
      simp only [hread, Option.some.injEq, Except.ok.injEq] at h
      rw [← h]
      rfl
  · simp at h

theorem safetyMessage_of_queryBranch (h : queryBranch v = some (.ok request)) :
    request.safetyMessage v = none := by
  unfold queryBranch at h
  split at h
  · cases hread : TaskQuery.fromValue v with
    | none => simp [hread] at h
    | some q =>
      simp only [hread, Option.ite_none_right_eq_some, Option.some.injEq, Except.ok.injEq] at h
      rw [← h.2]
      rfl
  · simp at h

theorem controlBranch_of_ofDocument (h : ofDocument v = .ok request)
    (hcontrol : request.safetyMessage v ≠ none) : controlBranch v = some (.ok request) := by
  unfold ofDocument at h
  generalize hread : (resolvedBranch v).or _ = found at h
  cases found with
  | none => simp at h
  | some found =>
    rw [Option.getD_some] at h
    rw [h] at hread
    rcases Option.or_eq_some_iff.mp hread with hr | ⟨_, hread⟩
    · exact absurd (safetyMessage_of_resolvedBranch hr) hcontrol
    rcases Option.or_eq_some_iff.mp hread with ht | ⟨_, hread⟩
    · exact absurd (safetyMessage_of_typedBranch ht) hcontrol
    rcases Option.or_eq_some_iff.mp hread with hp | ⟨_, hread⟩
    · exact absurd (safetyMessage_of_planBranch hp) hcontrol
    rcases Option.or_eq_some_iff.mp hread with hq | ⟨_, hread⟩
    · exact absurd (safetyMessage_of_queryBranch hq) hcontrol
    rcases Option.or_eq_some_iff.mp hread with hm | ⟨_, hread⟩
    · exact absurd (safetyMessage_of_messageBranch hm) hcontrol
    · exact hread

/-- The document of a request that is a control message says so in its `type`. -/
theorem safetyMessage_ofDocument (h : ofDocument v = .ok request) {message : SafetyMessage}
    (hmessage : request.safetyMessage v = some message) :
    SafetyMessage.ofDocument v = some message := by
  have hcontrol := controlBranch_of_ofDocument h (by simp [hmessage])
  unfold controlBranch at hcontrol
  unfold SafetyMessage.ofDocument
  cases htype : (v.get? "type").bind Json.asStr with
  | none => simp [htype] at hcontrol
  | some t =>
    simp only [htype] at hcontrol ⊢
    rw [← hmessage]
    split_ifs at hcontrol ⊢ with harm hdisarm hoverride hdirect
    all_goals
      rw [Option.some.injEq, Except.ok.injEq] at hcontrol
      rw [← hcontrol]
      rfl

end Request

section Runs

variable {rx : ShippedRegex} {fromStr : String → Option Json} {io : Surroundings}
  {pending : PendingPlans} {guard : SafetyGuard} {call : GuardCall} {calls : List GuardCall}

/-- The control message that a text is read as. -/
def controlMessage (fromStr : String → Option Json) (raw : String) : Option SafetyMessage :=
  match Request.read fromStr raw with
  | .ok request => (fromStr (trim raw)).bind fun v => request.safetyMessage v
  | .error _ => none

/-- The record that a message adds. -/
def GuardCall.entry (fromStr : String → Option Json) (call : GuardCall) : Option AuditRecord :=
  match Request.read fromStr call.raw with
  | .ok .arm => some ⟨call.io.recordedAt, "system", "safety_lock:arm", "ui_user", "arm", "granted",
      "user armed the safety lock"⟩
  | .ok (.disarm reason) => some ⟨call.io.recordedAt, "system", "safety_lock:disarm", "ui_user",
      "disarm", "granted", reason⟩
  | _ => none

theorem Request.ofDocument_of_read {raw : String} {request : Request}
    (h : Request.read fromStr raw = .ok request) :
    ∃ v, fromStr (trim raw) = some v ∧ Request.ofDocument v = .ok request := by
  unfold Request.read at h
  by_cases hempty : trim raw = ""
  · simp [hempty] at h
  · rw [if_neg hempty] at h
    cases hparse : fromStr (trim raw) with
    | none => simp [hparse] at h
    | some v =>
      simp only [hparse] at h
      exact ⟨v, rfl, h⟩

theorem handle_guard : (call.handle rx fromStr guard).guard =
    match Request.read fromStr call.raw with
    | .ok .arm => guard.arm "ui_user" call.io.toggledAt call.io.recordedAt
    | .ok (.disarm reason) =>
      guard.disarm "ui_user" reason call.io.toggledAt call.io.recordedAt
    | _ => guard := by
  rw [GuardCall.handle]
  exact handled_guard call.raw

theorem auditLog_guardStep : (guardStep rx fromStr guard call).auditLog =
    guard.auditLog ++ (call.entry fromStr).toList := by
  rw [guardStep, handle_guard, GuardCall.entry]
  cases Request.read fromStr call.raw with
  | error e => simp
  | ok request =>
    cases request with
    | arm => rfl
    | disarm reason => rfl
    | _ => simp

theorem status_perform_of_control {v : Json} {request : Request} {message : SafetyMessage}
    (hw : io.write = .ok ()) (h : request.safetyMessage v = some message) :
    (request.perform rx io pending guard).status = some message.ackStatus := by
  cases request with
  | arm =>
    cases Option.some.inj h
    rw [Request.perform, writeAck_ok hw]
    rfl
  | disarm reason =>
    cases Option.some.inj h
    rw [Request.perform, writeAck_ok hw]
    rfl
  | logOverride taskId =>
    cases Option.some.inj h
    rw [Request.perform, writeAck_ok hw]
    rfl
  | _ => simp [Request.safetyMessage] at h

theorem SafetyMessage.ackStatus_mem (message : SafetyMessage) :
    message.ackStatus ∈ ["armed", "disarmed", "override_logged"] := by
  cases message with
  | arm reason => simp [ackStatus]
  | disarm reason => simp [ackStatus]
  | override taskId reason => simp [ackStatus]

theorem SafetyMessage.ackStatus_ne {message : SafetyMessage} {name : String}
    (h : name ∉ ["armed", "disarmed", "override_logged"]) : some name ≠ some message.ackStatus := by
  intro heq
  rw [Option.some.injEq] at heq
  rw [heq] at h
  exact h message.ackStatus_mem

theorem status_resolveTask_ne (hw : io.write = .ok ()) (resolved : TaskResolved)
    (message : SafetyMessage) :
    (resolveTask io pending guard resolved).status ≠ some message.ackStatus := by
  cases hl : pending.tasks.lookup resolved.taskId with
  | none =>
    rw [resolveTask_unknown resolved hl]
    simp [failWith, Handled.status]
  | some task =>
    rw [resolveTask_known resolved hl, writeAck_ok hw, Handled.status, Option.bind_some,
      resolvedAck_status, Option.bind_some, Json.asStr]
    apply SafetyMessage.ackStatus_ne
    cases resolved.approved with
    | true => decide
    | false => decide

theorem status_submitPlan (hw : io.write = .ok ()) (plan : ExecutionPlan) :
    (submitPlan rx io pending guard plan).status = none := by
  rw [submitPlan_eq, writeAck_ok hw]
  rfl

theorem status_answerQuery_ne (hw : io.write = .ok ()) (q : TaskQuery) (message : SafetyMessage) :
    (answerQuery io pending guard q).status ≠ some message.ackStatus := by
  unfold answerQuery
  cases pending.query q.taskId with
  | error e => simp [failWith, Handled.status]
  | ok result =>
    have hname : (writeAck io pending guard result.toJson none).status =
        some result.status.wireName := by
      rw [writeAck_ok hw]
      rfl
    simp only [hname]
    apply SafetyMessage.ackStatus_ne
    cases result.status with
    | _ => decide

/-- No other acknowledgement has the status of one of a control message. -/
theorem status_perform_of_other {v : Json} {request : Request} (hw : io.write = .ok ())
    (h : request.safetyMessage v = none) (message : SafetyMessage) :
    (request.perform rx io pending guard).status ≠ some message.ackStatus := by
  cases request with
  | resolve resolved => exact status_resolveTask_ne hw resolved message
  | submit plan =>
    rw [Request.perform, status_submitPlan hw]
    simp
  | ask q => exact status_answerQuery_ne hw q message
  | directMessage text =>
    rw [Request.perform, writeAck_ok hw]
    show some "message_received" ≠ some message.ackStatus
    exact SafetyMessage.ackStatus_ne (by decide)
  | _ => simp [Request.safetyMessage] at h

/-- Where the acknowledgements go through, each control message that is read is acknowledged. -/
theorem acknowledged_eq (hw : call.io.write = .ok ()) :
    acknowledged rx fromStr guard call = controlMessage fromStr call.raw := by
  rw [acknowledged, controlMessage, GuardCall.handle, Request.handleMaestroMessage_eq]
  cases hread : Request.read fromStr call.raw with
  | error e =>
    simp only [Request.performOrFail, failWith, Handled.status, Option.bind_none]
    exact Option.filter_eq_none_iff.mpr (by simp)
  | ok request =>
    obtain ⟨v, hparse, hv⟩ := Request.ofDocument_of_read hread
    rw [hparse, Option.bind_some, Request.performOrFail]
    simp only [Option.bind_some]
    cases hmessage : request.safetyMessage v with
    | none =>
      apply Option.filter_eq_none_iff.mpr
      intro message _
      simpa using status_perform_of_other hw hmessage message
    | some message =>
      rw [Request.safetyMessage_ofDocument hv hmessage]
      have hstatus : (request.perform rx call.io call.pending guard).status = _ :=
        status_perform_of_control hw hmessage
      simp [hstatus]

theorem acknowledgements_eq (hwrites : ∀ call ∈ calls, call.io.write = .ok ()) :
    acknowledgements rx fromStr calls =
      calls.filterMap fun call => controlMessage fromStr call.raw :=
  Ledger.outputs_eq_filterMap fun _ call hmem => acknowledged_eq (hwrites call hmem)

theorem auditLog_guardAfter :
    (guardAfter rx fromStr calls).auditLog = calls.filterMap fun call => call.entry fromStr :=
  Ledger.log_run fun _ _ => auditLog_guardStep

theorem entry_of_not_control (h : controlMessage fromStr call.raw = none) :
    call.entry fromStr = none := by
  unfold controlMessage at h
  unfold GuardCall.entry
  cases hread : Request.read fromStr call.raw with
  | error e => rfl
  | ok request =>
    obtain ⟨v, hparse, _⟩ := Request.ofDocument_of_read hread
    simp only [hread, hparse, Option.bind_some] at h
    cases request with
    | arm => simp [Request.safetyMessage] at h
    | disarm reason => simp [Request.safetyMessage] at h
    | _ => rfl

/-- A message and what it adds to the log fit together exactly if it is recordable. -/
theorem rel_entry_iff : Option.Rel SafetyMessage.RecordedBy (controlMessage fromStr call.raw)
    (call.entry fromStr) ↔ Recordable fromStr call.raw := by
  unfold controlMessage GuardCall.entry Recordable
  cases hread : Request.read fromStr call.raw with
  | error e => simp only [Option.Rel.none]
  | ok request =>
    obtain ⟨v, hparse, _⟩ := Request.ofDocument_of_read hread
    simp only [hparse, Option.bind_some]
    cases request with
    | arm =>
      constructor
      · intro h v' reason hv' hreason
        cases h with
        | some hrecorded =>
          cases hv'
          exact (hrecorded.2 reason hreason).symm
      · intro h
        refine .some ⟨rfl, ?_⟩
        intro text htext
        exact (h v text rfl htext).symm
    | disarm reason =>
      simp only [iff_true]
      exact .some ⟨rfl, rfl⟩
    | logOverride taskId =>
      simp only [iff_false]
      intro h
      cases h
    | _ => simp only [Request.safetyMessage, Option.Rel.none]

theorem armed_guardStep : (guardStep rx fromStr guard call).state.armed =
    match controlMessage fromStr call.raw with
    | some (.arm _) => true
    | some (.disarm _) => false
    | _ => guard.state.armed := by
  rw [guardStep, handle_guard, controlMessage]
  cases hread : Request.read fromStr call.raw with
  | error e => rfl
  | ok request =>
    obtain ⟨v, hparse, _⟩ := Request.ofDocument_of_read hread
    simp only [hparse, Option.bind_some]
    cases request with
    | _ => rfl

theorem armed_guardAfter : (guardAfter rx fromStr calls).state.armed = true ↔
    Ledger.Answered SafetyMessage.Disarms SafetyMessage.Arms
      (calls.filterMap fun call => controlMessage fromStr call.raw) := by
  induction calls using List.reverseRecOn with
  | nil =>
    rw [List.filterMap_nil]
    exact iff_of_true rfl Ledger.answered_nil
  | append_singleton calls call ih =>
    rw [guardAfter, Runs.run_concat, ← guardAfter, armed_guardStep, List.filterMap_append,
      List.filterMap_cons, List.filterMap_nil]
    cases controlMessage fromStr call.raw with
    | none => rwa [List.append_nil]
    | some message =>
      rw [Ledger.answered_concat]
      cases message with
      | arm reason => simp [SafetyMessage.Disarms, SafetyMessage.Arms]
      | disarm reason => simp [SafetyMessage.Disarms]
      | override taskId reason => simpa [SafetyMessage.Disarms, SafetyMessage.Arms] using ih

/-- With the acknowledgements going through, every control message is on record as it was sent
exactly if none of them is an override, or an arm with a reason of its own. -/
theorem safety_audited_iff (rx : ShippedRegex) (fromStr : String → Option Json)
    (calls : List GuardCall) (hwrites : ∀ call ∈ calls, call.io.write = .ok ()) :
    Audited rx fromStr calls ↔ ∀ call ∈ calls, Recordable fromStr call.raw := by
  have hrecorded : List.Forall₂ SafetyMessage.RecordedBy (acknowledgements rx fromStr calls)
      (guardAfter rx fromStr calls).auditLog ↔ ∀ call ∈ calls, Recordable fromStr call.raw := by
    rw [acknowledgements_eq hwrites, auditLog_guardAfter,
      Ledger.forall₂_filterMap_iff fun _ => entry_of_not_control]
    exact forall₂_congr fun _ _ => rel_entry_iff
  constructor
  · intro h
    exact hrecorded.mp h.recorded
  · intro h
    refine ⟨hrecorded.mpr h, ?_, ?_⟩
    · intro earlier later rest _
      have hlog : ∀ guard call, SafetyGuard.auditLog (guardStep rx fromStr guard call) =
          SafetyGuard.auditLog guard ++ (GuardCall.entry fromStr call).toList :=
        fun _ _ => auditLog_guardStep
      exact Ledger.log_prefix hlog later
    · rw [acknowledgements_eq hwrites]
      exact armed_guardAfter

end Runs

def armText : String := "\x7b\"type\":\"safety_arm\"\x7d"

def overrideText : String :=
  "\x7b\"type\":\"safety_override\",\"task_id\":\"override-7\",\"reason\":\"emergency\"\x7d"

def lockTexts : String → Option Json :=
  knowsAll
    [(disarmText, .obj [("type", .str "safety_disarm"), ("reason", .str "maintenance")]),
      (armText, .obj [("type", .str "safety_arm")]),
      (overrideText, .obj [("type", .str "safety_override"), ("task_id", .str "override-7"),
        ("reason", .str "emergency")])]

def calmCall (raw : String) : GuardCall := ⟨⟨⟨none⟩, 0, 5, 5, .ok ()⟩, .new, raw⟩

theorem read_lockTexts : Request.read lockTexts disarmText = .ok (.disarm "maintenance") ∧
    Request.read lockTexts armText = .ok .arm ∧
    Request.read lockTexts overrideText = .ok (.logOverride "override-7") := by
  decide +kernel

theorem lockTexts_armText : lockTexts (trim armText) = some (.obj [("type", .str "safety_arm")]) := by
  rfl

theorem safety_audited_toggles :
    Audited plainRegex lockTexts [calmCall disarmText, calmCall armText] := by
  obtain ⟨hdisarm, harm, _⟩ := read_lockTexts
  refine (safety_audited_iff plainRegex lockTexts _ ?_).mpr ?_
  · intro call hmem
    rcases List.mem_pair.mp hmem with heq | heq
    · rw [heq]
      rfl
    · rw [heq]
      rfl
  · intro call hmem
    rcases List.mem_pair.mp hmem with heq | heq
    · simp only [heq, calmCall, Recordable, hdisarm]
    · simp only [heq, calmCall, Recordable, harm]
      intro v reason hv hreason
      have hnone : Json.get? "reason" (.obj [("type", .str "safety_arm")]) = none := rfl
      rw [lockTexts_armText, Option.some.injEq] at hv
      rw [← hv, hnone] at hreason
      simp at hreason

/-- An override is acknowledged as logged, and the log is empty. -/
theorem override_unrecorded :
    acknowledgements plainRegex lockTexts [calmCall overrideText] =
        [.override "override-7" "emergency"] ∧
      (guardAfter plainRegex lockTexts [calmCall overrideText]).auditLog = [] ∧
      ¬Audited plainRegex lockTexts [calmCall overrideText] := by
  have hacked : acknowledgements plainRegex lockTexts [calmCall overrideText] =
      [.override "override-7" "emergency"] := by
    rw [acknowledgements_eq (by simp [calmCall])]
    decide +kernel
  have hlog : (guardAfter plainRegex lockTexts [calmCall overrideText]).auditLog = [] := by
    rw [auditLog_guardAfter]
    decide +kernel
  refine ⟨hacked, hlog, ?_⟩
  intro h
  have hrecorded := h.recorded
  rw [hacked, hlog] at hrecorded
  cases hrecorded

end AiBridge
