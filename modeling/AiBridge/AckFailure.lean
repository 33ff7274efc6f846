import AiBridge.OwnerDecision

namespace AiBridge

open PendingPlans

variable {rx : ShippedRegex} {fromStr : String → Option Json} {io : Surroundings}
  {pending : PendingPlans} {guard : SafetyGuard} {raw : String}

/-- A failing call leaves both states as they were. -/
def Handled.ErrorLeavesState (out : Handled) (pending : PendingPlans) (guard : SafetyGuard) : Prop :=
  (∃ e, out.result = .error e) → out.pending = pending ∧ out.guard = guard

/-- An error leaves the states alone exactly when the write goes through, or the message carries
no request that mutates one of them. -/
theorem error_leaves_state_iff :
    (handleMaestroMessage rx fromStr io pending guard raw).ErrorLeavesState pending guard ↔
      io.write = .ok () ∨
        ∀ request, Request.read fromStr raw = .ok request → ¬request.Mutates rx io pending := by
  rw [Request.handleMaestroMessage_eq]
  cases hread : Request.read fromStr raw with
  | error e =>
    constructor
    · intro _
      exact Or.inr fun request h => by simp at h
    · intro _ _
      exact ⟨rfl, rfl⟩
  | ok request =>
    have hunchanged : ((request.perform rx io pending guard).pending = pending ∧
        (request.perform rx io pending guard).guard = guard) ↔ _ := perform_unchanged_iff request
    constructor
    · intro h
      cases hw : io.write with
      | ok u => exact Or.inl rfl
      | error message =>
        refine Or.inr fun request' heq => ?_
        cases heq
        exact hunchanged.mp (h (perform_error hw))
    · rintro (hw | hkeeps) ⟨e, he⟩
      · refine hunchanged.mpr fun hm => ?_
        obtain ⟨returned, hok⟩ : ∃ returned, (request.perform rx io pending guard).result =
            .ok returned := perform_ok_of_mutates hw hm
        simp [Request.performOrFail, hok] at he
      · exact hunchanged.mpr (hkeeps request rfl)

/-- An approval whose acknowledgement cannot be written is used up: the call fails, the plan is no
longer held, and nothing releases it until it is submitted again. -/
theorem approval_lost (guard : SafetyGuard) {plan : ExecutionPlan} {task : TaskState} {message : String}
    (hw : io.write = .error message) (hl : pending.tasks.lookup plan.taskId = some task)
    (hheld : task.status = .heldForManualApproval) (hc : task.decision = .nonDelegable) :
    let out := resolveTask io pending guard ⟨plan.taskId, true⟩
    (∃ e, out.result = .error e) ∧ out.pending ≠ pending ∧
      out.pending.ReleasesOnly rx plan.taskId fun _ => False := by
  intro out
  have hout : out = _ := resolveTask_known ⟨plan.taskId, true⟩ hl
  rw [writeAck_error hw, failWith] at hout
  refine ⟨⟨_, by rw [hout]⟩, ?_, ?_⟩
  · rw [hout]
    exact fun heq => handleOwnerDecision_eq_self_iff.mp heq ⟨task, hl, hheld⟩
  · rw [hout]
    refine releasesOnly_of_slot ?_
    intro task' ht
    cases Option.some.inj ((lookup_handleOwnerDecision hl).symm.trans ht)
    exact Or.inr (by simp [TaskState.Spent, TaskState.decided, hheld, hc])

theorem approval_lost_of_submitted {plan : ExecutionPlan} {message : String}
    (hd : decidePolicy rx plan = .nonDelegable) (hw : io.write = .error message) :
    let pending := after rx [.ingest ⟨none⟩ plan 0]
    let out := resolveTask io pending guard ⟨plan.taskId, true⟩
    ¬out.ErrorLeavesState pending guard ∧ out.pending.ReleasesOnly rx plan.taskId fun _ => False := by
  intro pending out
  have hl : pending.tasks.lookup plan.taskId = some (.held plan 0) :=
    lookup_after_critical hd ⟨none⟩ 0
  obtain ⟨herror, hne, hnever⟩ := approval_lost guard hw hl rfl rfl
  exact ⟨fun h => hne (h herror).1, hnever⟩

theorem approval_lost_on_write_error :
    let pending := after plainRegex [.ingest ⟨none⟩ (criticalPlan "task-1") 0]
    let out := handleMaestroMessage plainRegex
      (knowsOnly approvalText (TaskResolved.toJson ⟨"task-1", true⟩))
      ⟨⟨none⟩, 5, 0, 0, .error "Broken pipe (os error 32)"⟩ pending .new approvalText
    ¬out.ErrorLeavesState pending .new ∧
      out.pending.ReleasesOnly plainRegex "task-1" fun _ => False := by
  intro pending out
  have hout : out = resolveTask ⟨⟨none⟩, 5, 0, 0, .error "Broken pipe (os error 32)"⟩ pending .new
      ⟨"task-1", true⟩ := Request.handleMaestroMessage_of_read read_approvalText
  rw [hout]
  exact approval_lost_of_submitted (decidePolicy_criticalPlan "task-1") rfl

end AiBridge
