import AiBridge.SlotAgreement

namespace AiBridge

variable {rx : ShippedRegex}

/-- The two ways a call writes the entry of an id, or that it leaves the plan that is there. -/
theorem slotStep_cases {id : String} {slot : Option TaskState} {call : Call} {task' : TaskState}
    (h : slotStep rx id slot call = some task') :
    (∃ env plan now, call = .ingest env plan now ∧ plan.taskId = id ∧
      decidePolicy rx plan = .nonDelegable ∧ task' = .held plan now) ∨
    (∃ env plan now, call = .ingest env plan now ∧ plan.taskId = id ∧
      decidePolicy rx plan = .delegable ∧
      task' = (slot.getD (.fresh plan now)).resubmitted env now) ∨
    (∃ task, slot = some task ∧
      ((∃ env now, call = .checkTimeouts env now ∧ task' = task.polled env now) ∨
        (∃ approved, call = .handleOwnerDecision id approved ∧ task' = task.decided approved) ∨
        (∃ result, call = .recordExecution id result ∧ task' = task.recorded result) ∨
        task' = task)) := by
  cases call with
  | ingest env plan now =>
    by_cases hid : plan.taskId = id
    · cases hd : decidePolicy rx plan with
      | delegable =>
        simp only [slotStep, hid, hd, if_true] at h
        exact Or.inr (Or.inl ⟨env, plan, now, rfl, hid, hd, (Option.some.inj h).symm⟩)
      | nonDelegable =>
        simp only [slotStep, hid, hd, if_true] at h
        exact Or.inl ⟨env, plan, now, rfl, hid, hd, (Option.some.inj h).symm⟩
    · simp only [slotStep, hid, if_false] at h
      exact Or.inr (Or.inr ⟨task', h, Or.inr (Or.inr (Or.inr rfl))⟩)
  | checkTimeouts env now =>
    obtain ⟨task, hs, ht⟩ := Option.map_eq_some_iff.mp h
    exact Or.inr (Or.inr ⟨task, hs, Or.inl ⟨env, now, rfl, ht.symm⟩⟩)
  | handleOwnerDecision taskId approved =>
    by_cases hid : taskId = id
    · simp only [slotStep, hid, if_true] at h
      obtain ⟨task, hs, ht⟩ := Option.map_eq_some_iff.mp h
      exact Or.inr (Or.inr ⟨task, hs, Or.inr (Or.inl ⟨approved, by rw [hid], ht.symm⟩)⟩)
    · simp only [slotStep, hid, if_false] at h
      exact Or.inr (Or.inr ⟨task', h, Or.inr (Or.inr (Or.inr rfl))⟩)
  | recordExecution taskId result =>
    by_cases hid : taskId = id
    · simp only [slotStep, hid, if_true] at h
      obtain ⟨task, hs, ht⟩ := Option.map_eq_some_iff.mp h
      exact Or.inr (Or.inr ⟨task, hs, Or.inr (Or.inr (Or.inl ⟨result, by rw [hid], ht.symm⟩))⟩)
    · simp only [slotStep, hid, if_false] at h
      exact Or.inr (Or.inr ⟨task', h, Or.inr (Or.inr (Or.inr rfl))⟩)
  | query taskId => exact Or.inr (Or.inr ⟨task', h, Or.inr (Or.inr (Or.inr rfl))⟩)

/-- The three ways a plan is handed out under an id. -/
theorem slotRelease_cases {id : String} {slot : Option TaskState} {call : Call}
    {plan : ExecutionPlan} (h : slotRelease rx id slot call = some plan) :
    (∃ env now, call = .ingest env plan now ∧ plan.taskId = id ∧
      decidePolicy rx plan = .delegable ∧
      (slot.getD (.fresh plan now)).windowElapsed env now) ∨
    (∃ env now task, call = .checkTimeouts env now ∧ slot = some task ∧
      task.timedOut env now = true ∧ task.plan = plan) ∨
    (∃ task, call = .handleOwnerDecision id true ∧ slot = some task ∧
      task.status = .heldForManualApproval ∧ task.plan = plan) := by
  cases call with
  | ingest env submitted now =>
    simp only [slotRelease] at h
    split at h
    next hc =>
      cases Option.some.inj h
      exact Or.inl ⟨env, now, rfl, hc.1, hc.2.1, hc.2.2⟩
    next => simp at h
  | checkTimeouts env now =>
    obtain ⟨task, hs, h⟩ := Option.bind_eq_some_iff.mp h
    split at h
    next ht => exact Or.inr (Or.inl ⟨env, now, task, rfl, hs, ht, Option.some.inj h⟩)
    next => simp at h
  | handleOwnerDecision taskId approved =>
    simp only [slotRelease] at h
    split at h
    next hc =>
      obtain ⟨rfl, rfl⟩ := hc
      obtain ⟨task, hs, h⟩ := Option.bind_eq_some_iff.mp h
      split at h
      next hh => exact Or.inr (Or.inr ⟨task, rfl, hs, hh, Option.some.inj h⟩)
      next => simp at h
    next => simp at h
  | recordExecution taskId result => simp [slotRelease] at h
  | query taskId => simp [slotRelease] at h

namespace TaskState

variable {env : Env} {now : Instant} {approved : Bool} {result : ExecutionOutcome}
  {task : TaskState}

@[simp] theorem resubmitted_plan : (task.resubmitted env now).plan = task.plan := rfl
@[simp] theorem resubmitted_decision : (task.resubmitted env now).decision = task.decision := rfl
@[simp] theorem resubmitted_createdAt : (task.resubmitted env now).createdAt = task.createdAt := rfl

theorem resubmitted_status_ne {status : TaskStatus} (ha : status ≠ .delegableAutoApproved)
    (hp : status ≠ .pending) : (task.resubmitted env now).status ≠ status := by
  unfold resubmitted
  split
  · exact ha.symm
  · exact hp.symm

theorem polled_eq (h : ¬(task.status = .pending ∧ task.decision = .delegable)) :
    task.polled env now = task := by
  rw [polled, if_neg]
  intro ht
  obtain ⟨hd, hs, _⟩ := timedOut_iff.mp ht
  exact h ⟨hs, hd⟩

@[simp] theorem polled_plan : (task.polled env now).plan = task.plan := by
  unfold polled; split <;> rfl

@[simp] theorem polled_decision : (task.polled env now).decision = task.decision := by
  unfold polled; split <;> rfl

@[simp] theorem polled_createdAt : (task.polled env now).createdAt = task.createdAt := by
  unfold polled; split <;> rfl

@[simp] theorem decided_plan : (task.decided approved).plan = task.plan := by
  unfold decided; split <;> rfl

@[simp] theorem decided_decision : (task.decided approved).decision = task.decision := by
  unfold decided; split <;> rfl

@[simp] theorem decided_createdAt : (task.decided approved).createdAt = task.createdAt := by
  unfold decided; split <;> rfl

theorem recorded_status_ne {status : TaskStatus} (he : status ≠ .executed)
    (hf : status ≠ .executionFailed) : (task.recorded result).status ≠ status := by
  unfold recorded
  split
  · exact he.symm
  · exact hf.symm

@[simp] theorem recorded_plan : (task.recorded result).plan = task.plan := rfl
@[simp] theorem recorded_decision : (task.recorded result).decision = task.decision := rfl
@[simp] theorem recorded_createdAt : (task.recorded result).createdAt = task.createdAt := rfl

end TaskState

/-- Only a critical submission makes an entry held; every other call at most keeps it so. -/
theorem slotStep_becomes_held {id : String} {slot : Option TaskState} {call : Call}
    {task' : TaskState} (h : slotStep rx id slot call = some task')
    (hheld : task'.status = .heldForManualApproval) :
    (∃ env plan now, call = .ingest env plan now ∧ task'.plan = plan) ∨
      ∃ task, slot = some task ∧ task.status = .heldForManualApproval ∧ task.plan = task'.plan := by
  rcases slotStep_cases h with
    ⟨env, plan, now, hcall, _, _, rfl⟩ | ⟨env, plan, now, _, _, _, rfl⟩ | ⟨task, hslot, hwrite⟩
  · exact Or.inl ⟨env, plan, now, hcall, rfl⟩
  · exact absurd hheld (TaskState.resubmitted_status_ne (by simp) (by simp))
  · refine Or.inr ⟨task, hslot, ?_⟩
    rcases hwrite with ⟨env, now, _, rfl⟩ | ⟨approved, _, rfl⟩ | ⟨result, _, rfl⟩ | rfl
    · refine ⟨?_, TaskState.polled_plan.symm⟩
      unfold TaskState.polled at hheld
      split at hheld
      · simp at hheld
      · exact hheld
    · refine ⟨?_, TaskState.decided_plan.symm⟩
      unfold TaskState.decided at hheld
      split at hheld
      next hs => exact hs
      next => exact hheld
    · exact absurd hheld (TaskState.recorded_status_ne (by simp) (by simp))
    · exact ⟨hheld, rfl⟩

end AiBridge
