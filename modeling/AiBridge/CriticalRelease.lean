import AiBridge.EntrySound

namespace AiBridge

variable {rx : ShippedRegex}

def Call.submits (plan : ExecutionPlan) : Call → Bool
  | .ingest _ submitted _ => decide (submitted = plan)
  | _ => false

/-- One approval is still to come for a plan that is held. -/
def approvalsLeft (plan : ExecutionPlan) (slot : Option TaskState) : Nat :=
  slot.elim 0 fun task =>
    if task.plan = plan ∧ task.status = .heldForManualApproval then 1 else 0

theorem slotRelease_critical {id : String} {slot : Option TaskState} {call : Call}
    {plan : ExecutionPlan} (hs : SlotSound rx id slot)
    (hc : decidePolicy rx plan = .nonDelegable)
    (h : slotRelease rx id slot call = some plan) :
    call = .handleOwnerDecision id true ∧
      ∃ task, slot = some task ∧ task.plan = plan ∧ task.status = .heldForManualApproval := by
  rcases slotRelease_cases h with
    ⟨env, now, _, _, hd, _⟩ | ⟨env, now, task, _, ht, htimed, rfl⟩ | ⟨task, hcall, ht, hheld, rfl⟩
  · simp [hc] at hd
  · have hd := (TaskState.timedOut_iff.mp htimed).1
    simp [(hs task ht).decision, hc] at hd
  · exact ⟨hcall, task, ht, rfl, hheld⟩

/-- A critical submission buys the one approval that may release its plan. -/
theorem approvalsLeft_step {slot : Option TaskState} {call : Call} {plan : ExecutionPlan}
    (hs : SlotSound rx plan.taskId slot) (hc : decidePolicy rx plan = .nonDelegable) :
    (if slotRelease rx plan.taskId slot call = some plan then 1 else 0) +
        approvalsLeft plan (slotStep rx plan.taskId slot call) ≤
      approvalsLeft plan slot + if call.submits plan then 1 else 0 := by
  by_cases hr : slotRelease rx plan.taskId slot call = some plan
  · obtain ⟨rfl, task, rfl, hp, hheld⟩ := slotRelease_critical hs hc hr
    simp [hr, approvalsLeft, slotStep, TaskState.decided, hp, hheld]
  · rw [if_neg hr, Nat.zero_add]
    cases hafter : slotStep rx plan.taskId slot call with
    | none => simp [approvalsLeft]
    | some task' =>
      by_cases hleft : task'.plan = plan ∧ task'.status = .heldForManualApproval
      · obtain ⟨hp, hheld⟩ := hleft
        rcases slotStep_becomes_held hafter hheld with
          ⟨env, submitted, now, rfl, hsub⟩ | ⟨task, rfl, hbefore, hsame⟩
        · simp [approvalsLeft, Call.submits, hp, hheld, hsub.symm]
        · simp [approvalsLeft, hp, hheld, hbefore, hsame]
      · simp [approvalsLeft, hleft]

theorem releases_critical_le {plan : ExecutionPlan} (hc : decidePolicy rx plan = .nonDelegable)
    (calls : List Call) :
    PendingPlans.releases rx plan calls ≤ calls.countP (Call.submits plan) := by
  rw [PendingPlans.releases_eq]
  have h : Runs.tally (slotStep rx plan.taskId)
      (fun slot call => if slotRelease rx plan.taskId slot call = some plan then 1 else 0)
      none calls + approvalsLeft plan (Runs.run (slotStep rx plan.taskId) none calls) ≤
        approvalsLeft plan none + calls.countP (Call.submits plan) :=
    Runs.tally_le_granted (I := SlotSound rx plan.taskId) (fun _ _ hs _ => slotStep_sound hs)
      (fun _ _ hs _ => approvalsLeft_step hs hc) (by intro task ht; simp at ht)
      (Runs.along_of_forall (p := fun _ => True) fun _ _ => trivial)
  simp only [approvalsLeft, Option.elim_none] at h
  omega

/-- A critical plan is handed out only by the owner's approval of the entry that holds it, and
in any run no more often than it was submitted. -/
theorem critical_plan_released_by_owner (calls : List Call) (plan : ExecutionPlan)
    (hc : decidePolicy rx plan = .nonDelegable) :
    Runs.Along (PendingPlans.step rx)
      (fun self call => ∀ id, (id, plan) ∈ self.released rx call →
        call = .handleOwnerDecision id true ∧
          ∃ task, self.tasks.lookup id = some task ∧ task.plan = plan ∧
            task.status = .heldForManualApproval) .new calls ∧
      PendingPlans.releases rx plan calls ≤ calls.countP (Call.submits plan) := by
  refine ⟨?_, releases_critical_le hc calls⟩
  intro before call after _ id hmem
  exact slotRelease_critical (PendingPlans.after_sound before id) hc
    (PendingPlans.mem_released.mp hmem)

theorem releases_approved_twice {plan : ExecutionPlan}
    (hc : decidePolicy rx plan = .nonDelegable) (env : Env) (now : Instant) :
    PendingPlans.releases rx plan [.ingest env plan now, .handleOwnerDecision plan.taskId true,
      .handleOwnerDecision plan.taskId true] = 1 := by
  simp [PendingPlans.releases_eq, Runs.tally, slotRelease, slotStep, hc, TaskState.held,
    TaskState.decided]

theorem critical_plan_released_once :
    let calls : List Call := [.ingest ⟨none⟩ (criticalPlan "task-3") 0,
      .handleOwnerDecision "task-3" true, .handleOwnerDecision "task-3" true]
    PendingPlans.releases plainRegex (criticalPlan "task-3") calls = 1 ∧
      PendingPlans.releases plainRegex (criticalPlan "task-3") calls ≤
        calls.countP (Call.submits (criticalPlan "task-3")) := by
  have hc := decidePolicy_criticalPlan "task-3"
  exact ⟨releases_approved_twice hc ⟨none⟩ 0, (critical_plan_released_by_owner _ _ hc).2⟩

end AiBridge
