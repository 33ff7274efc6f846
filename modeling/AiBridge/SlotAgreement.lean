import AiBridge.TaskSlot

namespace AiBridge

variable {rx : ShippedRegex}

theorem applyGatekeeperPolicy_delegable {env : Env} {elapsed : Duration} :
    applyGatekeeperPolicy env .delegable elapsed =
      if gatekeeperTimeout env ≤ elapsed then .autoApproved else .pendingTimeout := by
  by_cases h : gatekeeperTimeout env ≤ elapsed
  · simp [applyGatekeeperPolicy, evaluateTimeout, h]
  · simp [applyGatekeeperPolicy, evaluateTimeout, h]

namespace PendingPlans

variable {self : PendingPlans}

theorem ingest_delegable {env : Env} {plan : ExecutionPlan} {now : Instant}
    (hd : decidePolicy rx plan = .delegable) :
    self.ingest rx env plan now =
      let task := (self.tasks.lookup plan.taskId).getD (.fresh plan now)
      ((if task.windowElapsed env now then .autoApproved else .pendingTimeout, ⟨plan.taskId⟩),
        ⟨self.tasks.insert plan.taskId (task.resubmitted env now)⟩) := by
  by_cases h : ((self.tasks.lookup plan.taskId).getD (.fresh plan now)).windowElapsed env now
  · simp only [TaskState.windowElapsed, TaskState.fresh] at h
    simp [ingest, hd, applyGatekeeperPolicy_delegable, TaskState.fresh, TaskState.resubmitted,
      TaskState.windowElapsed, h]
  · simp only [TaskState.windowElapsed, TaskState.fresh] at h
    simp [ingest, hd, applyGatekeeperPolicy_delegable, TaskState.fresh, TaskState.resubmitted,
      TaskState.windowElapsed, h]

theorem ingest_critical {env : Env} {plan : ExecutionPlan} {now : Instant}
    (hd : decidePolicy rx plan = .nonDelegable) :
    self.ingest rx env plan now = ((.heldForManualApproval, ⟨plan.taskId⟩),
      ⟨self.tasks.insert plan.taskId (.held plan now)⟩) := by
  simp only [ingest, hd, TaskState.held]

/-- Seen at one id, the registry is the automaton of that id alone. -/
theorem lookup_step (call : Call) (id : String) :
    (self.step rx call).tasks.lookup id = slotStep rx id (self.tasks.lookup id) call := by
  cases call with
  | ingest env plan now =>
    by_cases hid : plan.taskId = id
    · subst hid
      cases hd : decidePolicy rx plan with
      | delegable => simp [step, slotStep, ingest_delegable hd, hd, Finmap.lookup_insert]
      | nonDelegable => simp [step, slotStep, ingest_critical hd, hd, Finmap.lookup_insert]
    · cases hd : decidePolicy rx plan with
      | delegable =>
        simp [step, slotStep, ingest_delegable hd, hid, Finmap.lookup_insert_of_ne _ (Ne.symm hid)]
      | nonDelegable =>
        simp [step, slotStep, ingest_critical hd, hid, Finmap.lookup_insert_of_ne _ (Ne.symm hid)]
  | checkTimeouts env now =>
    rw [step, checkTimeouts, Finmap.lookup_mapVal]
    rfl
  | handleOwnerDecision taskId approved =>
    by_cases hid : taskId = id
    · subst hid
      cases hl : self.tasks.lookup taskId with
      | none => simp [step, handleOwnerDecision, slotStep, hl]
      | some task =>
        by_cases hs : task.status = .heldForManualApproval
        · cases approved <;>
            simp [step, handleOwnerDecision, slotStep, hl, hs, TaskState.decided,
              Finmap.lookup_insert]
        · simp [step, handleOwnerDecision, slotStep, hl, hs, TaskState.decided]
    · cases hl : self.tasks.lookup taskId with
      | none => simp [step, handleOwnerDecision, slotStep, hl, hid]
      | some task =>
        by_cases hs : task.status = .heldForManualApproval
        · cases approved <;>
            simp [step, handleOwnerDecision, slotStep, hl, hs, hid,
              Finmap.lookup_insert_of_ne _ (Ne.symm hid)]
        · simp [step, handleOwnerDecision, slotStep, hl, hs, hid]
  | recordExecution taskId result =>
    by_cases hid : taskId = id
    · subst hid
      cases hl : self.tasks.lookup taskId with
      | none => simp [step, recordExecution, slotStep, hl]
      | some task =>
        simp [step, recordExecution, slotStep, hl, TaskState.recorded, Finmap.lookup_insert]
    · cases hl : self.tasks.lookup taskId with
      | none => simp [step, recordExecution, slotStep, hl, hid]
      | some task =>
        simp [step, recordExecution, slotStep, hl, hid, Finmap.lookup_insert_of_ne _ (Ne.symm hid)]
  | query taskId => rfl

/-- Seen at one id, a call hands out what the automaton of that id hands out. -/
theorem filter_released (call : Call) (id : String) :
    (self.released rx call).filter (fun out => out.1 = id) =
      (slotRelease rx id (self.tasks.lookup id) call).elim 0 fun plan => {(id, plan)} := by
  cases call with
  | ingest env plan now =>
    by_cases hid : plan.taskId = id
    · subst hid
      cases hd : decidePolicy rx plan with
      | delegable =>
        simp only [released, slotRelease, ingest_delegable hd, hd, true_and]
        by_cases hw : ((self.tasks.lookup plan.taskId).getD (.fresh plan now)).windowElapsed env now
        · simp [hw]
        · simp [hw]
      | nonDelegable => simp [released, slotRelease, ingest_critical hd, hd]
    · simp only [released, slotRelease, hid, false_and, if_false, Option.elim_none]
      split
      · exact Multiset.filter_eq_nil.mpr (by simpa using hid)
      · rfl
  | checkTimeouts env now =>
    exact Finmap.filter_collect
      (fun _ task => if task.timedOut env now then some task.plan else none) self.tasks id
  | handleOwnerDecision taskId approved =>
    by_cases hid : taskId = id
    · subst hid
      cases hl : self.tasks.lookup taskId with
      | none => simp [released, handleOwnerDecision, slotRelease, hl]
      | some task =>
        by_cases hs : task.status = .heldForManualApproval
        · cases approved <;> simp [released, handleOwnerDecision, slotRelease, hl, hs]
        · simp [released, handleOwnerDecision, slotRelease, hl, hs]
    · simp only [released, slotRelease, hid, false_and, if_false, Option.elim_none]
      split
      · exact Multiset.filter_eq_nil.mpr (by simpa using hid)
      · rfl
  | recordExecution taskId result => rfl
  | query taskId => rfl

theorem mem_released {call : Call} {id : String} {plan : ExecutionPlan} :
    (id, plan) ∈ self.released rx call ↔
      slotRelease rx id (self.tasks.lookup id) call = some plan := by
  have hmem : (id, plan) ∈ self.released rx call ↔
      (id, plan) ∈ (self.released rx call).filter (fun out => out.1 = id) := by simp
  rw [hmem, filter_released]
  cases slotRelease rx id (self.tasks.lookup id) call <;> simp [eq_comm]

theorem lookup_run (calls : List Call) (id : String) :
    (Runs.run (step rx) self calls).tasks.lookup id =
      Runs.run (slotStep rx id) (self.tasks.lookup id) calls :=
  Runs.run_proj (f := fun s : PendingPlans => s.tasks.lookup id)
    fun _ call => lookup_step call id

theorem lookup_after (calls : List Call) (id : String) :
    (after rx calls).tasks.lookup id = Runs.run (slotStep rx id) none calls :=
  lookup_run calls id

theorem lookup_after_concat (calls : List Call) (call : Call) (id : String) :
    (after rx (calls ++ [call])).tasks.lookup id =
      slotStep rx id ((after rx calls).tasks.lookup id) call := by
  rw [after, Runs.run_concat, ← after, lookup_step]

end PendingPlans

end AiBridge
