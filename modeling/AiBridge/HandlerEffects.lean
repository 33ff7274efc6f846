import AiBridge.MaestroRequests
import AiBridge.SpentTasks

namespace AiBridge

open PendingPlans

variable {rx : ShippedRegex} {io : Surroundings} {pending : PendingPlans} {guard : SafetyGuard}
  {ack : Json} {returned : Option (String × ExecutionPlan)}

theorem writeAck_ok (hw : io.write = .ok ()) :
    writeAck io pending guard ack returned = ⟨.ok returned, pending, guard, some ack⟩ := by
  simp only [writeAck, hw]

theorem writeAck_error {message : String} (hw : io.write = .error message) :
    writeAck io pending guard ack returned = failWith pending guard (.io message) := by
  simp only [writeAck, hw]

theorem writeAck_result_error {message : String} (hw : io.write = .error message) :
    (writeAck io pending guard ack returned).result = .error (.io message) := by
  rw [writeAck_error hw, failWith]

theorem writeAck_pending : (writeAck io pending guard ack returned).pending = pending := by
  cases hw : io.write with
  | ok u => rw [writeAck_ok hw]
  | error message => rw [writeAck_error hw, failWith]

theorem writeAck_guard : (writeAck io pending guard ack returned).guard = guard := by
  cases hw : io.write with
  | ok u => rw [writeAck_ok hw]
  | error message => rw [writeAck_error hw, failWith]

theorem resolveTask_unknown (resolved : TaskResolved)
    (hl : pending.tasks.lookup resolved.taskId = none) :
    resolveTask io pending guard resolved =
      failWith pending guard (.io (LoopError.taskNotFound resolved.taskId).display) := by
  simp only [resolveTask, handleOwnerDecision, hl]

theorem resolveTask_known (resolved : TaskResolved) {task : TaskState}
    (hl : pending.tasks.lookup resolved.taskId = some task) :
    resolveTask io pending guard resolved =
      writeAck io (pending.handleOwnerDecision resolved.taskId resolved.approved).2 guard
        (resolvedAck resolved)
        (if resolved.approved = true ∧ task.status = .heldForManualApproval
          then some (resolved.taskId, task.plan) else none) := by
  by_cases hs : task.status = .heldForManualApproval
  · cases ha : resolved.approved with
    | true => simp [resolveTask, handleOwnerDecision, hl, hs, ha]
    | false => simp [resolveTask, handleOwnerDecision, hl, hs, ha]
  · simp [resolveTask, handleOwnerDecision, hl, hs]

/-- The requests that change a shared state before they write. -/
def Request.Mutates (rx : ShippedRegex) (io : Surroundings) (pending : PendingPlans) :
    Request → Prop
  | resolve resolved => ∃ task, pending.tasks.lookup resolved.taskId = some task ∧
      task.status = .heldForManualApproval
  | submit plan =>
    match decidePolicy rx plan with
    | .delegable => ∀ task, pending.tasks.lookup plan.taskId = some task →
        task.status ≠
          if task.windowElapsed io.env io.now then .delegableAutoApproved else .pending
    | .nonDelegable => pending.tasks.lookup plan.taskId ≠ some (.held plan io.now)
  | arm | disarm _ => True
  | ask _ | logOverride _ | directMessage _ => False

theorem PendingPlans.insert_eq_self_iff {id : String} {task : TaskState} :
    (⟨pending.tasks.insert id task⟩ : PendingPlans) = pending ↔
      pending.tasks.lookup id = some task := by
  rw [← Finmap.insert_eq_self_iff]
  constructor
  · exact fun h => congrArg PendingPlans.tasks h
  · exact fun h => by rw [h]

theorem handleOwnerDecision_eq_self_iff {id : String} {approved : Bool} :
    (pending.handleOwnerDecision id approved).2 = pending ↔
      ¬∃ task, pending.tasks.lookup id = some task ∧ task.status = .heldForManualApproval := by
  cases hl : pending.tasks.lookup id with
  | none => simp [handleOwnerDecision, hl]
  | some task =>
    by_cases hs : task.status = .heldForManualApproval
    · have hne : ∀ status, status ≠ TaskStatus.heldForManualApproval →
          (⟨pending.tasks.insert id { task with status }⟩ : PendingPlans) ≠ pending := by
        intro status hstatus heq
        have htask := Option.some.inj (hl.symm.trans (insert_eq_self_iff.mp heq))
        have hfield := congrArg TaskState.status htask
        exact hstatus (hfield.symm.trans hs)
      cases approved with
      | true => simpa [handleOwnerDecision, hl, hs] using hne .pending (by simp)
      | false => simpa [handleOwnerDecision, hl, hs] using hne .rejectedByOwner (by simp)
    · simp [handleOwnerDecision, hl, hs]

theorem ingest_eq_self_iff {env : Env} {plan : ExecutionPlan} {now : Instant}
    (hd : decidePolicy rx plan = .delegable) :
    (pending.ingest rx env plan now).2 = pending ↔
      ∃ task, pending.tasks.lookup plan.taskId = some task ∧
        task.status = if task.windowElapsed env now then .delegableAutoApproved else .pending := by
  rw [ingest_delegable hd, insert_eq_self_iff]
  cases hl : pending.tasks.lookup plan.taskId with
  | none => simp
  | some task =>
    constructor
    · intro h
      have hfield := congrArg TaskState.status (Option.some.inj h)
      exact ⟨task, rfl, hfield⟩
    · rintro ⟨task', ht, hs⟩
      cases Option.some.inj ht
      simp only [Option.getD_some, TaskState.resubmitted, ← hs]

theorem submitPlan_eq (plan : ExecutionPlan) :
    submitPlan rx io pending guard plan =
      writeAck io (pending.ingest rx io.env plan io.now).2 guard
        (pending.ingest rx io.env plan io.now).1.2.toJson
        (match (pending.ingest rx io.env plan io.now).1.1 with
        | .pendingTimeout => none
        | .autoApproved => some (plan.taskId, plan)
        | .heldForManualApproval => none) := by
  rfl

theorem answerQuery_pending (q : TaskQuery) :
    (answerQuery io pending guard q).pending = pending ∧
      (answerQuery io pending guard q).guard = guard := by
  unfold answerQuery
  cases pending.query q.taskId with
  | error e => exact ⟨rfl, rfl⟩
  | ok result => exact ⟨writeAck_pending, writeAck_guard⟩

/-- Whether the write goes through or not, a request leaves both states alone exactly when it does
not mutate one of them. -/
theorem perform_unchanged_iff (request : Request) :
    ((request.perform rx io pending guard).pending = pending ∧
      (request.perform rx io pending guard).guard = guard) ↔
        ¬request.Mutates rx io pending := by
  cases request with
  | resolve resolved =>
    simp only [Request.perform, Request.Mutates]
    cases hl : pending.tasks.lookup resolved.taskId with
    | none => simp [resolveTask_unknown resolved hl, failWith]
    | some task =>
      have heq : (pending.handleOwnerDecision resolved.taskId resolved.approved).2 = pending ↔ _ :=
        handleOwnerDecision_eq_self_iff
      simp only [resolveTask_known resolved hl, writeAck_pending, writeAck_guard, and_true, heq, hl]
  | submit plan =>
    simp only [Request.perform, Request.Mutates, submitPlan_eq, writeAck_pending, writeAck_guard,
      and_true]
    cases hd : decidePolicy rx plan with
    | delegable =>
      rw [ingest_eq_self_iff hd]
      simp
    | nonDelegable => simp [ingest_critical hd, insert_eq_self_iff]
  | ask q => simp [Request.perform, Request.Mutates, answerQuery_pending]
  | arm =>
    have hguard := guard.arm_ne "ui_user" io.toggledAt io.recordedAt
    simp [Request.perform, Request.Mutates, writeAck_guard, hguard]
  | disarm reason =>
    have hguard := guard.disarm_ne "ui_user" reason io.toggledAt io.recordedAt
    simp [Request.perform, Request.Mutates, writeAck_guard, hguard]
  | logOverride taskId =>
    simp [Request.perform, Request.Mutates, writeAck_pending, writeAck_guard]
  | directMessage text =>
    simp [Request.perform, Request.Mutates, writeAck_pending, writeAck_guard]

theorem perform_error {request : Request} {message : String} (hw : io.write = .error message) :
    ∃ e, (request.perform rx io pending guard).result = .error e := by
  cases request with
  | resolve resolved =>
    cases hl : pending.tasks.lookup resolved.taskId with
    | none => exact ⟨_, by rw [Request.perform, resolveTask_unknown resolved hl, failWith]⟩
    | some task =>
      exact ⟨_, by rw [Request.perform, resolveTask_known resolved hl, writeAck_result_error hw]⟩
  | submit plan => exact ⟨_, by rw [Request.perform, submitPlan_eq, writeAck_result_error hw]⟩
  | ask q =>
    simp only [Request.perform, answerQuery]
    cases pending.query q.taskId with
    | error e => exact ⟨_, rfl⟩
    | ok result => exact ⟨_, writeAck_result_error hw⟩
  | arm => exact ⟨_, writeAck_result_error hw⟩
  | disarm reason => exact ⟨_, writeAck_result_error hw⟩
  | logOverride taskId => exact ⟨_, writeAck_result_error hw⟩
  | directMessage text => exact ⟨_, writeAck_result_error hw⟩

/-- A request that mutates only fails in its write. -/
theorem perform_ok_of_mutates {request : Request} (hw : io.write = .ok ())
    (hm : request.Mutates rx io pending) :
    ∃ returned, (request.perform rx io pending guard).result = .ok returned := by
  cases request with
  | resolve resolved =>
    obtain ⟨task, hl, _⟩ := hm
    exact ⟨_, by rw [Request.perform, resolveTask_known resolved hl, writeAck_ok hw]⟩
  | submit plan => exact ⟨_, by rw [Request.perform, submitPlan_eq, writeAck_ok hw]⟩
  | arm => exact ⟨_, by rw [Request.perform, writeAck_ok hw]⟩
  | disarm reason => exact ⟨_, by rw [Request.perform, writeAck_ok hw]⟩
  | ask q => exact hm.elim
  | logOverride taskId => exact hm.elim
  | directMessage text => exact hm.elim

end AiBridge
