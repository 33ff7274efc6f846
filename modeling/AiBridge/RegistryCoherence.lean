import AiBridge.EntrySound

namespace AiBridge

open PendingPlans

variable {rx : ShippedRegex} {id : String} {slot : Option TaskState} {call : Call}

/-- How the five fields of an entry and its key belong together. -/
structure TaskState.Coherent (rx : ShippedRegex) (id : String) (task : TaskState) : Prop
    extends task.Sound rx id where
  autoApproved : task.status = .delegableAutoApproved → task.decision = .delegable
  result : task.executionResult.isSome ↔
    task.status = .executed ∨ task.status = .executionFailed
  success : task.status = .executed ↔
    ∃ outcome, task.executionResult = some outcome ∧ outcome.success = true

namespace TaskState

variable {task : TaskState} {env : Env} {now : Instant}

theorem Coherent.no_result (h : task.Coherent rx id) (he : task.status ≠ .executed)
    (hf : task.status ≠ .executionFailed) : task.executionResult = none := by
  by_contra hsome
  rcases h.result.mp (Option.isSome_iff_ne_none.mpr hsome) with hx | hx
  · exact he hx
  · exact hf hx

theorem coherent_of_no_result (h : task.Sound rx id) (hn : task.executionResult = none)
    (he : task.status ≠ .executed) (hf : task.status ≠ .executionFailed)
    (ha : task.status = .delegableAutoApproved → task.decision = .delegable) :
    task.Coherent rx id :=
  ⟨h, ha, by simp [hn, he, hf], by simp [hn, he]⟩

theorem Coherent.polled (h : task.Coherent rx id) : (task.polled env now).Coherent rx id := by
  by_cases ht : task.timedOut env now = true
  · obtain ⟨hd, hs, _⟩ := timedOut_iff.mp ht
    have hn := h.no_result (by simp [hs]) (by simp [hs])
    have hpolled : task.polled env now = { task with status := .delegableAutoApproved } := by
      simp [TaskState.polled, ht]
    have hsound : (task.polled env now).Sound rx id := h.toSound.polled
    rw [hpolled] at hsound ⊢
    exact coherent_of_no_result hsound hn (by simp) (by simp) fun _ => hd
  · simpa [TaskState.polled, ht] using h

theorem Coherent.decided {approved : Bool} (h : task.Coherent rx id) :
    (task.decided approved).Coherent rx id := by
  by_cases hh : task.status = .heldForManualApproval
  · have hn := h.no_result (by simp [hh]) (by simp [hh])
    have hsound : (task.decided approved).Sound rx id := h.toSound.decided
    have hdecided : task.decided approved =
        { task with status := if approved then .pending else .rejectedByOwner } := by
      simp [TaskState.decided, hh]
    rw [hdecided] at hsound ⊢
    cases approved with
    | true => exact coherent_of_no_result hsound hn (by simp) (by simp) (by simp)
    | false => exact coherent_of_no_result hsound hn (by simp) (by simp) (by simp)
  · simpa [TaskState.decided, hh] using h

theorem Sound.coherent_recorded {result : ExecutionOutcome} (h : task.Sound rx id) :
    (task.recorded result).Coherent rx id := by
  refine ⟨h.recorded, ?_, ?_, ?_⟩
  · simp only [TaskState.recorded]
    split <;> simp
  · simp only [TaskState.recorded]
    split <;> simp
  · simp only [TaskState.recorded]
    split <;> simp_all

theorem coherent_held {plan : ExecutionPlan} (hid : plan.taskId = id)
    (hd : decidePolicy rx plan = .nonDelegable) : (held plan now).Coherent rx id :=
  coherent_of_no_result (sound_held hid hd) rfl (by simp [held]) (by simp [held]) (by simp [held])

/-- A resubmission rewrites the status alone: the entry stays coherent only if there is no result
to lose its status and no critical plan to be called auto-approved. -/
theorem Sound.coherent_resubmitted_iff (h : task.Sound rx id) :
    (task.resubmitted env now).Coherent rx id ↔
      task.executionResult = none ∧ (task.windowElapsed env now → task.decision = .delegable) := by
  by_cases hw : task.windowElapsed env now
  · have hstatus : (task.resubmitted env now).status = .delegableAutoApproved := by
      simp [TaskState.resubmitted, hw]
    constructor
    · intro hc
      exact ⟨hc.no_result (by simp [hstatus]) (by simp [hstatus]), fun _ => hc.autoApproved hstatus⟩
    · rintro ⟨hn, hd⟩
      exact coherent_of_no_result h.resubmitted hn (by simp [hstatus]) (by simp [hstatus])
        fun _ => hd hw
  · have hstatus : (task.resubmitted env now).status = .pending := by
      simp [TaskState.resubmitted, hw]
    constructor
    · intro hc
      exact ⟨hc.no_result (by simp [hstatus]) (by simp [hstatus]), fun h => absurd h hw⟩
    · rintro ⟨hn, _⟩
      exact coherent_of_no_result h.resubmitted hn (by simp [hstatus]) (by simp [hstatus])
        (by simp [hstatus])

end TaskState

namespace PendingPlans

variable {self : PendingPlans}

def Coherent (rx : ShippedRegex) (self : PendingPlans) : Prop :=
  ∀ id task, self.tasks.lookup id = some task → task.Coherent rx id

/-- No delegable submission finds under its id a task that has its result, or a critical task
whose window has elapsed. -/
def ResubmitsFresh (rx : ShippedRegex) (self : PendingPlans) (call : Call) : Prop :=
  ∀ env plan now, call = .ingest env plan now → decidePolicy rx plan = .delegable →
    ∀ task, self.tasks.lookup plan.taskId = some task →
      task.executionResult = none ∧ (task.windowElapsed env now → task.decision = .delegable)

theorem new_coherent : new.Coherent rx := by
  intro id task h
  simp [new] at h

theorem step_coherent (h : self.Coherent rx) (hfresh : self.ResubmitsFresh rx call) :
    (self.step rx call).Coherent rx := by
  intro id task' hl
  rw [lookup_step] at hl
  rcases slotStep_cases hl with
    ⟨env, plan, now, _, hid, hd, rfl⟩ | ⟨env, plan, now, rfl, rfl, hd, rfl⟩ | ⟨task, hslot, hwrite⟩
  · exact TaskState.coherent_held hid hd
  · cases hs : self.tasks.lookup plan.taskId with
    | none => exact (TaskState.sound_fresh rfl hd).coherent_resubmitted_iff.mpr ⟨rfl, fun _ => rfl⟩
    | some task =>
      exact (h _ task hs).toSound.coherent_resubmitted_iff.mpr (hfresh env plan now rfl hd task hs)
  · have ht := h id task hslot
    rcases hwrite with ⟨env, now, _, rfl⟩ | ⟨approved, _, rfl⟩ | ⟨result, _, rfl⟩ | rfl
    · exact ht.polled
    · exact ht.decided
    · exact ht.toSound.coherent_recorded
    · exact ht

theorem step_coherent_iff (h : self.Coherent rx) :
    (self.step rx call).Coherent rx ↔ self.ResubmitsFresh rx call := by
  constructor
  · rintro hnext env plan now rfl hd task hs
    refine (h _ task hs).toSound.coherent_resubmitted_iff.mp (hnext plan.taskId _ ?_)
    simp [lookup_step, slotStep, hd, hs]
  · exact step_coherent h

end PendingPlans

/-- A run keeps the registry coherent exactly as long as no delegable submission reopens a task
that was executed or held. -/
theorem registry_coherent_iff (calls : List Call) :
    (∀ before rest, calls = before ++ rest → (after rx before).Coherent rx) ↔
      Runs.Along (step rx) (ResubmitsFresh rx) new calls :=
  Runs.forall_prefix_iff_along (fun _ _ => step_coherent_iff) new_coherent

theorem not_coherent_of_reopened {plan : ExecutionPlan} (hd : decidePolicy rx plan = .delegable)
    (outcome : ExecutionOutcome) :
    ¬(after rx [.ingest ⟨none⟩ plan 0, .recordExecution plan.taskId outcome,
      .ingest ⟨none⟩ plan 5]).Coherent rx := by
  intro h
  have hresult : (after rx [.ingest ⟨none⟩ plan 0, .recordExecution plan.taskId outcome,
      .ingest ⟨none⟩ plan 5]).tasks.lookup plan.taskId =
        some (((TaskState.fresh plan 0).resubmitted ⟨none⟩ 0).recorded outcome |>.resubmitted
          ⟨none⟩ 5) := by
    simp [lookup_after, slotStep, hd]
  have hn := (h _ _ hresult).no_result (TaskState.resubmitted_status_ne (by simp) (by simp))
    (TaskState.resubmitted_status_ne (by simp) (by simp))
  cases hn

theorem registry_reopened_not_coherent :
    ¬(after plainRegex [.ingest ⟨none⟩ (delegablePlan "task-exec-1") 0,
      .recordExecution "task-exec-1" ⟨"hello", "", 0, true⟩,
      .ingest ⟨none⟩ (delegablePlan "task-exec-1") 5]).Coherent plainRegex :=
  not_coherent_of_reopened (decidePolicy_delegablePlan _) _

end AiBridge
