import AiBridge.DelegationWindow

namespace AiBridge

open PendingPlans

variable {rx : ShippedRegex}

/-- Under this id the run submits this plan and no other. -/
def OnlySubmits (plan : ExecutionPlan) (calls : List Call) : Prop :=
  ∀ call ∈ calls, ∀ env submitted now, call = .ingest env submitted now →
    submitted.taskId = plan.taskId → submitted = plan

/-- A submission under the id finds no entry there, or one that is still pending. -/
def PendingPlans.RetriesPending (id : String) (self : PendingPlans) (call : Call) : Prop :=
  ∀ env plan now, call = .ingest env plan now → plan.taskId = id →
    ∀ task, self.tasks.lookup id = some task → task.status = .pending

/-- One release is still to come for an id that is unused or pending. -/
def releasesLeft (slot : Option TaskState) : Nat :=
  slot.elim 1 fun task => if task.status = .pending then 1 else 0

theorem releasesLeft_resubmitted (slot : Option TaskState) (plan : ExecutionPlan) (env : Env)
    (now : Instant) :
    (if (slot.getD (.fresh plan now)).windowElapsed env now then 1 else 0) +
      releasesLeft (some ((slot.getD (.fresh plan now)).resubmitted env now)) = 1 := by
  by_cases hw : (slot.getD (.fresh plan now)).windowElapsed env now
  · simp [releasesLeft, TaskState.resubmitted, hw]
  · simp [releasesLeft, TaskState.resubmitted, hw]

theorem releasesLeft_polled (task : TaskState) (env : Env) (now : Instant) :
    (if task.timedOut env now then 1 else 0) + releasesLeft (some (task.polled env now)) ≤
      releasesLeft (some task) := by
  by_cases ht : task.timedOut env now = true
  · simp [releasesLeft, TaskState.polled, ht, (TaskState.timedOut_iff.mp ht).2.1]
  · simp [TaskState.polled, ht]

/-- The entry of an id that only ever sees delegable plans. -/
def SlotDelegable (slot : Option TaskState) : Prop :=
  ∀ task, slot = some task → task.decision = .delegable

/-- What the call submits under the id is delegable, and it finds the id unused or pending. -/
def SlotRetries (rx : ShippedRegex) (id : String) (slot : Option TaskState) (call : Call) : Prop :=
  ∀ env plan now, call = .ingest env plan now → plan.taskId = id →
    decidePolicy rx plan = .delegable ∧ ∀ task, slot = some task → task.status = .pending

theorem releasesLeft_step {id : String} {slot : Option TaskState} {call : Call}
    (hs : SlotSound rx id slot) (hdel : SlotDelegable slot) (hcall : SlotRetries rx id slot call) :
    (slotRelease rx id slot call).elim 0 (fun _ => 1) + releasesLeft (slotStep rx id slot call) ≤
      releasesLeft slot := by
  cases call with
  | ingest env plan now =>
    by_cases hid : plan.taskId = id
    · obtain ⟨hd, hpending⟩ := hcall env plan now rfl hid
      have hleft : releasesLeft slot = 1 := by
        cases slot with
        | none => rfl
        | some task => simp [releasesLeft, hpending task rfl]
      have hpaid := releasesLeft_resubmitted slot plan env now
      by_cases hw : (slot.getD (.fresh plan now)).windowElapsed env now
      · simp only [slotRelease, slotStep, hid, hd, hw, and_self, if_true, Option.elim_some] at hpaid ⊢
        omega
      · simp only [slotRelease, slotStep, hid, hd, hw, and_false, if_true, if_false,
          Option.elim_none] at hpaid ⊢
        omega
    · simp [slotRelease, slotStep, hid]
  | checkTimeouts env now =>
    cases slot with
    | none => simp [slotRelease, slotStep]
    | some task =>
      have hpaid := releasesLeft_polled task env now
      by_cases ht : task.timedOut env now = true
      · simpa [slotRelease, slotStep, ht] using hpaid
      · simpa [slotRelease, slotStep, ht] using hpaid
  | handleOwnerDecision taskId approved =>
    by_cases hid : taskId = id
    · cases slot with
      | none => simp [slotRelease, slotStep]
      | some task =>
        have hheld : task.status ≠ .heldForManualApproval := by
          intro hheld
          have hc := (hs task rfl).critical (Or.inl hheld)
          simp [hdel task rfl] at hc
        simp [slotRelease, slotStep, TaskState.decided, hid, hheld]
    · simp [slotRelease, slotStep, hid]
  | recordExecution taskId result =>
    by_cases hid : taskId = id
    · cases slot with
      | none => simp [slotRelease, slotStep, hid]
      | some task =>
        have hstatus : (task.recorded result).status ≠ .pending :=
          TaskState.recorded_status_ne (by simp) (by simp)
        simp [slotRelease, slotStep, hid, releasesLeft, hstatus]
    · simp [slotRelease, slotStep, hid]
  | query taskId => simp [slotRelease, slotStep]

theorem slotStep_delegable {id : String} {slot : Option TaskState} {call : Call}
    (hdel : SlotDelegable slot) (hcall : SlotRetries rx id slot call) :
    SlotDelegable (slotStep rx id slot call) := by
  intro task' h
  rcases slotStep_cases h with
    ⟨env, plan, now, rfl, hid, hd, _⟩ | ⟨env, plan, now, _, _, _, rfl⟩ | ⟨task, hslot, hwrite⟩
  · simp [(hcall env plan now rfl hid).1] at hd
  · cases slot with
    | none => rfl
    | some task => exact hdel task rfl
  · have hd := hdel task hslot
    rcases hwrite with ⟨env, now, _, rfl⟩ | ⟨approved, _, rfl⟩ | ⟨result, _, rfl⟩ | rfl
    · simpa using hd
    · simpa using hd
    · simpa using hd
    · exact hd

/-- Retries of one delegable plan release it at most once, as long as every retry comes while the
task is still pending. -/
theorem retries_release_once {plan : ExecutionPlan} {calls : List Call}
    (hd : decidePolicy rx plan = .delegable) (honly : OnlySubmits plan calls)
    (hretry : Runs.Along (step rx) (RetriesPending plan.taskId) new calls) :
    releases rx plan calls ≤ 1 := by
  have hcalls : Runs.Along (slotStep rx plan.taskId) (SlotRetries rx plan.taskId) none calls := by
    intro before call after heq env submitted now hcall hid
    have hsame := honly call (by simp [heq]) env submitted now hcall hid
    refine ⟨hsame ▸ hd, ?_⟩
    rw [← lookup_after]
    exact hretry before call after heq env submitted now hcall hid
  have hpaid : Runs.tally (slotStep rx plan.taskId)
      (fun slot call => if slotRelease rx plan.taskId slot call = some plan then 1 else 0)
      none calls + releasesLeft (Runs.run (slotStep rx plan.taskId) none calls) ≤
        releasesLeft none + calls.countP fun _ => false := by
    refine Runs.tally_le_granted (I := fun slot => SlotSound rx plan.taskId slot ∧ SlotDelegable slot)
      (fun slot call hi hc => ⟨slotStep_sound hi.1, slotStep_delegable hi.2 hc⟩)
      ?_ ⟨by intro task h; simp at h, by intro task h; simp at h⟩ hcalls
    intro slot call hi hc
    have hstep := releasesLeft_step hi.1 hi.2 hc
    cases hr : slotRelease rx plan.taskId slot call with
    | none => simpa [hr] using hstep
    | some out =>
      rw [hr, Option.elim_some] at hstep
      split <;> simp <;> omega
  have hnone : releasesLeft none = 1 := rfl
  have hgrants : calls.countP (fun _ => false) = 0 := by simp
  rw [releases_eq]
  omega

theorem releases_retried_late {plan : ExecutionPlan} (hd : decidePolicy rx plan = .delegable) :
    releases rx plan [.ingest ⟨none⟩ plan 0, .checkTimeouts ⟨none⟩ defaultGatekeeperTimeout,
      .ingest ⟨none⟩ plan defaultGatekeeperTimeout] = 2 := by
  simp [releases_eq, Runs.tally, slotRelease, slotStep, hd, TaskState.timedOut_iff,
    TaskState.polled, TaskState.resubmitted, TaskState.windowElapsed, TaskState.fresh,
    Instant.saturatingDurationSince, defaultGatekeeperTimeout_ne_zero]

/-- A retry that arrives while the poller's execution is under way starts a second one. -/
theorem retry_released_again :
    let calls : List Call := [.ingest ⟨none⟩ (delegablePlan "task-1") 0,
      .checkTimeouts ⟨none⟩ defaultGatekeeperTimeout,
      .ingest ⟨none⟩ (delegablePlan "task-1") defaultGatekeeperTimeout]
    decidePolicy plainRegex (delegablePlan "task-1") = .delegable ∧
      OnlySubmits (delegablePlan "task-1") calls ∧ Clocked defaultGatekeeperTimeout calls ∧
      ¬releases plainRegex (delegablePlan "task-1") calls ≤ 1 := by
  intro calls
  have hd := decidePolicy_delegablePlan "task-1"
  refine ⟨hd, ?_, ⟨by simp [calls, Call.env], by simp [calls, Call.clock]⟩, ?_⟩
  · intro call hmem env submitted now hcall _
    simp only [calls, List.mem_cons, List.not_mem_nil, or_false] at hmem
    rcases hmem with rfl | rfl | rfl <;> simp_all
  · rw [show releases plainRegex (delegablePlan "task-1") calls = 2 from releases_retried_late hd]
    decide

theorem retriesPending_early {plan : ExecutionPlan} (hd : decidePolicy rx plan = .delegable) :
    Runs.Along (step rx) (RetriesPending plan.taskId) new [.ingest ⟨none⟩ plan 0,
      .ingest ⟨none⟩ plan 5, .checkTimeouts ⟨none⟩ defaultGatekeeperTimeout] := by
  simp [Runs.along_cons, Runs.along_nil, RetriesPending, lookup_step, slotStep, hd, new,
    TaskState.resubmitted, TaskState.windowElapsed, TaskState.fresh,
    Instant.saturatingDurationSince, defaultGatekeeperTimeout_ne_zero]

theorem retries_release_once_early :
    releases plainRegex (delegablePlan "task-1") [.ingest ⟨none⟩ (delegablePlan "task-1") 0,
      .ingest ⟨none⟩ (delegablePlan "task-1") 5,
      .checkTimeouts ⟨none⟩ defaultGatekeeperTimeout] ≤ 1 := by
  have hd := decidePolicy_delegablePlan "task-1"
  refine retries_release_once hd ?_ (retriesPending_early hd)
  intro call hmem env submitted now hcall _
  simp only [List.mem_cons, List.not_mem_nil, or_false] at hmem
  rcases hmem with rfl | rfl | rfl <;> simp_all

end AiBridge
