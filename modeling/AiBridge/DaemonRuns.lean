import AiBridge.EntrySound

namespace AiBridge

open PendingPlans

/-- The registry, the executions under way, and those that have ended with their outcomes. -/
structure Daemon where
  pending : PendingPlans
  running : Multiset (String × ExecutionPlan)
  finished : List ((String × ExecutionPlan) × ExecutionOutcome)

inductive DaemonEvent
  | ingest (env : Env) (plan : ExecutionPlan) (now : Instant)
  | poll (env : Env) (now : Instant)
  | ownerDecision (taskId : String) (approved : Bool)
  | complete (taskId : String) (plan : ExecutionPlan) (outcome : ExecutionOutcome)
  deriving DecidableEq, Repr

namespace DaemonEvent

/-- The call an event makes on the registry: a completion is matched back by its id alone. -/
def call : DaemonEvent → Call
  | ingest env plan now => .ingest env plan now
  | poll env now => .checkTimeouts env now
  | ownerDecision taskId approved => .handleOwnerDecision taskId approved
  | complete taskId _ outcome => .recordExecution taskId outcome

/-- A completion needs an execution of its plan under way. -/
def Enabled (running : Multiset (String × ExecutionPlan)) : DaemonEvent → Prop
  | complete taskId plan _ => (taskId, plan) ∈ running
  | _ => True

end DaemonEvent

namespace Daemon

variable (rx : ShippedRegex)

def start : Daemon := ⟨.new, 0, []⟩

def next (self : Daemon) (event : DaemonEvent) : Daemon where
  pending := self.pending.step rx event.call
  running :=
    match event with
    | .complete taskId plan _ => self.running.erase (taskId, plan)
    | _ => self.running + self.pending.released rx event.call
  finished :=
    match event with
    | .complete taskId plan outcome => ((taskId, plan), outcome) :: self.finished
    | _ => self.finished

/-- The states that runs of enabled events reach, each event meeting `P` where it happens. -/
inductive Reaches (P : Daemon → DaemonEvent → Prop) : Daemon → Prop
  | start : Reaches P start
  | next {self : Daemon} {event : DaemonEvent} : Reaches P self → event.Enabled self.running →
      P self event → Reaches P (self.next rx event)

/-- A result shown for an id is that of an execution of the plan that is stored there. -/
def Attributed (self : Daemon) : Prop :=
  ∀ id shown outcome, self.pending.query id = .ok shown → shown.result = some outcome →
    ∃ task, self.pending.tasks.lookup id = some task ∧
      ((id, task.plan), outcome) ∈ self.finished

/-- An execution ends while its id still stores its plan. -/
def EndsInPlace (self : Daemon) (event : DaemonEvent) : Prop :=
  ∀ taskId plan outcome, event = .complete taskId plan outcome →
    ∀ task, self.pending.tasks.lookup taskId = some task → task.plan = plan

variable {rx}

/-- The entry-wise form of `Attributed`. -/
def Sourced (self : Daemon) : Prop :=
  ∀ id task outcome, self.pending.tasks.lookup id = some task →
    task.executionResult = some outcome → ((id, task.plan), outcome) ∈ self.finished

theorem Sourced.attributed {self : Daemon} (h : self.Sourced) : self.Attributed := by
  intro id shown outcome hq hr
  cases hl : self.pending.tasks.lookup id with
  | none => simp [query, hl] at hq
  | some task =>
    simp only [query, hl, Except.ok.injEq] at hq
    subst hq
    exact ⟨task, rfl, h id task outcome hl hr⟩

theorem finished_subset_next {self : Daemon} {event : DaemonEvent} :
    self.finished ⊆ (self.next rx event).finished := by
  cases event with
  | complete taskId plan outcome => exact List.subset_cons_self _ _
  | ingest env plan now => exact List.Subset.refl _
  | poll env now => exact List.Subset.refl _
  | ownerDecision taskId approved => exact List.Subset.refl _

theorem Sourced.next {self : Daemon} {event : DaemonEvent} (h : self.Sourced)
    (hends : self.EndsInPlace event) : (self.next rx event).Sourced := by
  intro id task' outcome hl hr
  have old : ∀ task, self.pending.tasks.lookup id = some task → task.plan = task'.plan →
      task.executionResult = some outcome →
      ((id, task'.plan), outcome) ∈ (self.next rx event).finished := by
    intro task ht hp hres
    exact finished_subset_next (hp ▸ h id task outcome ht hres)
  have hstep : slotStep rx id (self.pending.tasks.lookup id) event.call = some task' := by
    rw [← lookup_step]
    exact hl
  rcases slotStep_cases hstep with
    ⟨env, plan, now, _, _, _, rfl⟩ | ⟨env, plan, now, _, _, _, rfl⟩ | ⟨task, hslot, hwrite⟩
  · simp [TaskState.held] at hr
  · cases hslot : self.pending.tasks.lookup id with
    | none => simp [hslot, TaskState.resubmitted, TaskState.fresh] at hr
    | some task =>
      rw [hslot] at hr old
      exact old task rfl (by simp) (by simpa [TaskState.resubmitted] using hr)
  · rcases hwrite with ⟨env, now, _, rfl⟩ | ⟨approved, _, rfl⟩ | ⟨result, hcall, rfl⟩ | rfl
    · refine old task hslot (by simp) ?_
      unfold TaskState.polled at hr
      split at hr <;> exact hr
    · refine old task hslot (by simp) ?_
      unfold TaskState.decided at hr
      split at hr <;> exact hr
    · cases event with
      | complete taskId plan ended =>
        obtain ⟨rfl, rfl⟩ : taskId = id ∧ ended = result := by
          simpa [DaemonEvent.call] using hcall
        have hp := hends taskId plan ended rfl task hslot
        have hout : ended = outcome := by simpa [TaskState.recorded] using hr
        simp [Daemon.next, hp, hout]
      | ingest env plan now => simp [DaemonEvent.call] at hcall
      | poll env now => simp [DaemonEvent.call] at hcall
      | ownerDecision taskId approved => simp [DaemonEvent.call] at hcall
    · exact old task' hslot rfl hr

/-- Outcomes go to the plans they belong to as long as every execution ends before another plan
takes over its id. -/
theorem outcomes_attributed {self : Daemon} (h : Reaches rx EndsInPlace self) :
    self.Attributed := by
  refine Sourced.attributed ?_
  induction h with
  | start =>
    intro id task outcome hl
    simp [Daemon.start, new] at hl
  | next _ _ hends ih => exact ih.next hends

theorem not_attributed_of_displaced {self : Daemon} {id : String} {task : TaskState}
    {plan : ExecutionPlan} {outcome : ExecutionOutcome}
    (hl : self.pending.tasks.lookup id = some task) (hne : task.plan ≠ plan)
    (hnew : ((id, task.plan), outcome) ∉ self.finished) :
    ¬(self.next rx (.complete id plan outcome)).Attributed := by
  intro h
  have hstored : (self.next rx (.complete id plan outcome)).pending.tasks.lookup id =
      some (task.recorded outcome) := by
    simp [Daemon.next, DaemonEvent.call, lookup_step, slotStep, hl]
  obtain ⟨task', ht, hmem⟩ := h id ⟨_, _, some outcome⟩ outcome
    (by rw [query, hstored]; rfl) rfl
  cases Option.some.inj (hstored.symm.trans ht)
  rcases List.mem_cons.mp hmem with heq | hold
  · simp [hne] at heq
  · exact hnew (by simpa using hold)

/-- A critical plan takes over the id of a delegable plan that is being executed. -/
def displacedRun (rx : ShippedRegex) (first second : ExecutionPlan) (outcome : ExecutionOutcome) :
    Daemon :=
  (((start.next rx (.ingest ⟨none⟩ first 0)).next rx
    (.poll ⟨none⟩ defaultGatekeeperTimeout)).next rx
    (.ingest ⟨none⟩ second defaultGatekeeperTimeout)).next rx
    (.complete first.taskId first outcome)

theorem reaches_displacedRun {first second : ExecutionPlan} (outcome : ExecutionOutcome)
    (h1 : decidePolicy rx first = .delegable) :
    Reaches rx (fun _ _ => True) (displacedRun rx first second outcome) := by
  refine .next (.next (.next (.next .start ?_ trivial) ?_ trivial) ?_ trivial) ?_ trivial
  · exact trivial
  · exact trivial
  · exact trivial
  · have hpoll : (first.taskId, first) ∈ (new.step rx (.ingest ⟨none⟩ first 0)).released rx
        (.checkTimeouts ⟨none⟩ defaultGatekeeperTimeout) := by
      simp [mem_released, lookup_step, slotRelease, slotStep, new, h1, TaskState.timedOut_iff,
        TaskState.resubmitted, TaskState.windowElapsed, TaskState.fresh,
        Instant.saturatingDurationSince, defaultGatekeeperTimeout_ne_zero]
    simp [DaemonEvent.Enabled, Daemon.next, DaemonEvent.call, start, hpoll]

theorem displacedRun_not_attributed {first second : ExecutionPlan} (outcome : ExecutionOutcome)
    (h1 : decidePolicy rx first = .delegable) (h2 : decidePolicy rx second = .nonDelegable)
    (hid : second.taskId = first.taskId) :
    ¬(displacedRun rx first second outcome).Attributed := by
  have hne : (TaskState.held second defaultGatekeeperTimeout).plan ≠ first := by
    intro heq
    simp only [TaskState.held] at heq
    simp [heq, h1] at h2
  refine not_attributed_of_displaced ?_ hne (by simp [Daemon.next, start])
  simp [Daemon.next, DaemonEvent.call, lookup_step, slotStep, start, new, h2, hid]

theorem outcome_of_displaced_plan :
    let daemon := displacedRun plainRegex (delegablePlan "task-1") (criticalPlan "task-1")
      ⟨"ok", "", 0, true⟩
    Reaches plainRegex (fun _ _ => True) daemon ∧ ¬daemon.Attributed :=
  ⟨reaches_displacedRun _ (decidePolicy_delegablePlan _),
    displacedRun_not_attributed _ (decidePolicy_delegablePlan _) (decidePolicy_criticalPlan _) rfl⟩

theorem reaches_approved {plan : ExecutionPlan} (hc : decidePolicy rx plan = .nonDelegable)
    (outcome : ExecutionOutcome) :
    Reaches rx EndsInPlace (((start.next rx (.ingest ⟨none⟩ plan 0)).next rx
      (.ownerDecision plan.taskId true)).next rx (.complete plan.taskId plan outcome)) := by
  refine .next (.next (.next .start trivial ?_) trivial ?_) ?_ ?_
  · intro taskId plan outcome h
    simp at h
  · intro taskId plan outcome h
    simp at h
  · simp [DaemonEvent.Enabled, Daemon.next, DaemonEvent.call, mem_released, lookup_step,
      slotRelease, slotStep, start, new, hc, TaskState.held]
  · intro taskId ended result h task ht
    cases h
    obtain rfl : _ = task := by
      simpa [Daemon.next, DaemonEvent.call, lookup_step, slotStep, start, new, hc] using ht
    simp [TaskState.held]

theorem outcomes_attributed_approved :
    (((start.next plainRegex (.ingest ⟨none⟩ (criticalPlan "task-3") 0)).next plainRegex
      (.ownerDecision "task-3" true)).next plainRegex
      (.complete "task-3" (criticalPlan "task-3") ⟨"", "", 0, true⟩)).Attributed :=
  outcomes_attributed (reaches_approved (decidePolicy_criticalPlan _) _)

end Daemon

end AiBridge
