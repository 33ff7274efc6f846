import AiBridge.HandlerEffects

namespace AiBridge

open PendingPlans

variable {rx : ShippedRegex} {fromStr : String → Option Json} {io : Surroundings}
  {pending : PendingPlans} {guard : SafetyGuard} {raw : String} {resolved : TaskResolved}

/-- What the acknowledgement of a decision says is what becomes of the task: an approval hands out
the plan of the id, and after a rejection nothing is released there until the next submission. -/
def Handled.DecisionKept (rx : ShippedRegex) (out : Handled) (pending : PendingPlans)
    (id : String) : Prop :=
  ∀ ack, out.sent = some ack →
    (ack.get? "status" = some (.str "approved") →
      ∃ task, pending.tasks.lookup id = some task ∧ out.result = .ok (some (id, task.plan))) ∧
    (ack.get? "status" = some (.str "rejected") → out.pending.ReleasesOnly rx id fun _ => False)

theorem resolvedAck_status (resolved : TaskResolved) : (resolvedAck resolved).get? "status" =
    some (.str (if resolved.approved then "approved" else "rejected")) := by
  rfl

theorem resolveTask_acked (h : (resolveTask io pending guard resolved).sent.isSome) :
    io.write = .ok () ∧ ∃ task, pending.tasks.lookup resolved.taskId = some task := by
  cases hl : pending.tasks.lookup resolved.taskId with
  | none => simp [resolveTask_unknown resolved hl, failWith] at h
  | some task =>
    refine ⟨?_, task, rfl⟩
    cases hw : io.write with
    | ok u => rfl
    | error message => simp [resolveTask_known resolved hl, writeAck_error hw, failWith] at h

theorem lookup_handleOwnerDecision {id : String} {task : TaskState} {approved : Bool}
    (hl : pending.tasks.lookup id = some task) :
    (pending.handleOwnerDecision id approved).2.tasks.lookup id = some (task.decided approved) := by
  have hstep : (pending.step plainRegex (.handleOwnerDecision id approved)).tasks.lookup id =
      slotStep plainRegex id (pending.tasks.lookup id) (.handleOwnerDecision id approved) :=
    lookup_step _ id
  simpa [slotStep, hl, step] using hstep

theorem TaskState.spent_decided_false {task : TaskState} : (task.decided false).Spent ↔
    ¬(task.status = .pending ∧ task.decision = .delegable) := by
  by_cases hs : task.status = .heldForManualApproval
  · simp [TaskState.Spent, TaskState.decided, hs]
  · simp [TaskState.Spent, TaskState.decided, hs]

/-- The status a task must have for the decision to mean what its acknowledgement says. -/
def TaskState.DecisionApplies (task : TaskState) (approved : Bool) : Prop :=
  if approved = true then task.status = .heldForManualApproval
  else ¬(task.status = .pending ∧ task.decision = .delegable)

theorem decisionKept_iff (resolved : TaskResolved) {task : TaskState} (hw : io.write = .ok ())
    (hl : pending.tasks.lookup resolved.taskId = some task) :
    (resolveTask io pending guard resolved).DecisionKept rx pending resolved.taskId ↔
      task.DecisionApplies resolved.approved := by
  have hout : resolveTask io pending guard resolved = _ := resolveTask_known resolved hl
  rw [writeAck_ok hw] at hout
  have hack := resolvedAck_status resolved
  cases ha : resolved.approved with
  | true =>
    rw [ha] at hout hack
    constructor
    · intro h
      obtain ⟨task', _, hresult⟩ := (h (resolvedAck resolved) (by rw [hout])).1 hack
      by_contra hs
      have hs' : task.status ≠ .heldForManualApproval := hs
      simp [hout, hs'] at hresult
    · intro hs ack hsent
      have hs' : task.status = .heldForManualApproval := hs
      simp only [hout, Option.some.injEq] at hsent
      subst hsent
      refine ⟨fun _ => ⟨task, hl, by simp [hout, hs']⟩, ?_⟩
      intro hrejected
      simp [hack] at hrejected
  | false =>
    rw [ha] at hout hack
    have hslot : (resolveTask io pending guard resolved).pending.ReleasesOnly rx resolved.taskId
        (fun _ => False) ↔ (task.decided false).Spent := by
      rw [releasesOnly_iff_slot, hout, lookup_handleOwnerDecision hl]
      constructor
      · intro h
        exact (h _ rfl).resolve_left id
      · intro h task' ht
        cases Option.some.inj ht
        exact Or.inr h
    rw [TaskState.spent_decided_false] at hslot
    constructor
    · intro h
      exact hslot.mp ((h (resolvedAck resolved) (by rw [hout])).2 hack)
    · intro hs ack hsent
      simp only [hout, Option.some.injEq] at hsent
      subst hsent
      refine ⟨?_, fun _ => hslot.mpr hs⟩
      intro happroved
      simp [hack] at happroved

/-- An acknowledged decision of the owner is kept exactly when an approval finds the task held, and
a rejection does not find it delegable and pending. -/
theorem owner_decision_kept_iff (hread : Request.read fromStr raw = .ok (.resolve resolved))
    (hack : (handleMaestroMessage rx fromStr io pending guard raw).sent.isSome) :
    (handleMaestroMessage rx fromStr io pending guard raw).DecisionKept rx pending resolved.taskId ↔
      ∀ task, pending.tasks.lookup resolved.taskId = some task →
        task.DecisionApplies resolved.approved := by
  have hout : handleMaestroMessage rx fromStr io pending guard raw =
      resolveTask io pending guard resolved := Request.handleMaestroMessage_of_read hread
  rw [hout] at hack ⊢
  obtain ⟨hw, task, hl⟩ := resolveTask_acked hack
  rw [decisionKept_iff resolved hw hl]
  constructor
  · intro h task' hl'
    cases Option.some.inj (hl.symm.trans hl')
    exact h
  · exact fun h => h task hl

/-- A reader of texts that knows one document. -/
def knowsOnly (text : String) (document : Json) (s : String) : Option Json :=
  if s = text then some document else none

def rejectionText : String := "\x7b\"task_id\":\"task-1\",\"approved\":false\x7d"

def approvalText : String := "\x7b\"task_id\":\"task-1\",\"approved\":true\x7d"

theorem read_rejectionText :
    Request.read (knowsOnly rejectionText (TaskResolved.toJson ⟨"task-1", false⟩)) rejectionText =
      .ok (.resolve ⟨"task-1", false⟩) := by
  have htrim : Text.trim rejectionText = rejectionText := by decide
  exact Request.read_resolved (by rw [htrim]; decide) (by simp [htrim, knowsOnly])

theorem read_approvalText :
    Request.read (knowsOnly approvalText (TaskResolved.toJson ⟨"task-1", true⟩)) approvalText =
      .ok (.resolve ⟨"task-1", true⟩) := by
  have htrim : Text.trim approvalText = approvalText := by decide
  exact Request.read_resolved (by rw [htrim]; decide) (by simp [htrim, knowsOnly])

/-- The owner's rejection of a delegable plan inside its window is acknowledged and without
effect. -/
theorem resolveTask_rejects_nothing {plan : ExecutionPlan}
    (hd : decidePolicy rx plan = .delegable) (hw : io.write = .ok ()) :
    let out := resolveTask io (after rx [.ingest ⟨none⟩ plan 0]) guard ⟨plan.taskId, false⟩
    out.sent = some (resolvedAck ⟨plan.taskId, false⟩) ∧
      ¬out.DecisionKept rx (after rx [.ingest ⟨none⟩ plan 0]) plan.taskId := by
  intro out
  have hpending : ((TaskState.fresh plan 0).resubmitted ⟨none⟩ 0).status = .pending := by
    simp [TaskState.resubmitted, TaskState.windowElapsed, TaskState.fresh,
      Instant.saturatingDurationSince, defaultGatekeeperTimeout_ne_zero]
  have hl := lookup_after_delegable hd ⟨none⟩ 0
  have hout : out = _ := resolveTask_known ⟨plan.taskId, false⟩ hl
  rw [writeAck_ok hw] at hout
  refine ⟨by rw [hout], ?_⟩
  intro h
  have happlies := (decisionKept_iff ⟨plan.taskId, false⟩ hw hl).mp h
  exact happlies ⟨hpending, rfl⟩

theorem owner_rejection_ignored :
    let pending := after plainRegex [.ingest ⟨none⟩ (delegablePlan "task-1") 0]
    let out := handleMaestroMessage plainRegex
      (knowsOnly rejectionText (TaskResolved.toJson ⟨"task-1", false⟩)) ⟨⟨none⟩, 5, 0, 0, .ok ()⟩
      pending .new rejectionText
    out.sent = some (resolvedAck ⟨"task-1", false⟩) ∧
      ¬out.DecisionKept plainRegex pending "task-1" := by
  intro pending out
  have hout : out = resolveTask ⟨⟨none⟩, 5, 0, 0, .ok ()⟩ pending .new ⟨"task-1", false⟩ :=
    Request.handleMaestroMessage_of_read read_rejectionText
  rw [hout]
  exact resolveTask_rejects_nothing (decidePolicy_delegablePlan "task-1") rfl

theorem resolveTask_approves_held (io : Surroundings) (guard : SafetyGuard) {plan : ExecutionPlan}
    (hc : decidePolicy rx plan = .nonDelegable) (hw : io.write = .ok ()) :
    (resolveTask io (after rx [.ingest ⟨none⟩ plan 0]) guard ⟨plan.taskId, true⟩).sent.isSome ∧
      ∀ task, (after rx [.ingest ⟨none⟩ plan 0]).tasks.lookup plan.taskId = some task →
        task.DecisionApplies true := by
  have hl := lookup_after_critical hc ⟨none⟩ 0
  refine ⟨by rw [resolveTask_known ⟨plan.taskId, true⟩ hl, writeAck_ok hw]; rfl, ?_⟩
  intro task ht
  cases Option.some.inj (hl.symm.trans ht)
  exact rfl

theorem owner_approval_kept :
    (handleMaestroMessage plainRegex
      (knowsOnly approvalText (TaskResolved.toJson ⟨"task-1", true⟩)) ⟨⟨none⟩, 5, 0, 0, .ok ()⟩
      (after plainRegex [.ingest ⟨none⟩ (criticalPlan "task-1") 0]) .new approvalText).DecisionKept
        plainRegex (after plainRegex [.ingest ⟨none⟩ (criticalPlan "task-1") 0]) "task-1" := by
  obtain ⟨hsent, happlies⟩ := resolveTask_approves_held ⟨⟨none⟩, 5, 0, 0, .ok ()⟩ .new
    (decidePolicy_criticalPlan "task-1") rfl
  refine (owner_decision_kept_iff read_approvalText ?_).mpr happlies
  rw [Request.handleMaestroMessage_of_read read_approvalText]
  exact hsent

end AiBridge
