import AiBridge.RecordedOutcomes

namespace AiBridge

open PendingPlans Runs

namespace Deployment

/-- Nothing is submitted under the id. -/
def SubmitsNone (self : Deployment) (id : String) (event : BridgeEvent) : Prop :=
  ∀ env plan now, self.call event = some (.ingest env plan now) → plan.taskId ≠ id

/-- A poll comes before the window since some instant has run out. -/
def Early (self : Deployment) (since : Instant) (event : BridgeEvent) : Prop :=
  ∀ env now, self.call event = some (.checkTimeouts env now) →
    ¬gatekeeperTimeout env ≤ now.saturatingDurationSince since

/-- Nothing is handed out under the id. -/
def HandsOutNone (self : Deployment) (id : String) (daemon : BridgeDaemon) (event : BridgeEvent) :
    Prop :=
  ∀ plan, ¬self.HandsOut (id, plan) daemon event

/-- The plan waits in its entry since some instant, and nothing is executed under its id. -/
structure Waits (plan : ExecutionPlan) (since : Instant) (daemon : BridgeDaemon) : Prop where
  entry : daemon.pending.tasks.lookup plan.taskId = some (.fresh plan since)
  idle : ∀ run ∈ daemon.running, run.taskId ≠ plan.taskId

/-- The entry of the id waits for nothing. -/
def Settled (id : String) (daemon : BridgeDaemon) : Prop :=
  ∃ task, daemon.pending.tasks.lookup id = some task ∧ task.status ≠ .pending ∧
    task.status ≠ .heldForManualApproval

variable {self : Deployment} {daemon : BridgeDaemon} {event : BridgeEvent} {plan : ExecutionPlan}
  {since : Instant} {id : String}

theorem idle_step (henabled : daemon.Enabled event) (hnone : self.HandsOutNone id daemon event)
    (hidle : ∀ run ∈ daemon.running, run.taskId ≠ id) :
    ∀ run ∈ (self.step daemon event).running, run.taskId ≠ id := by
  intro run hrun hid
  rcases running_step_cases henabled hrun with ⟨old, hold, hsame, _⟩ | hnew
  · exact hidle old hold (hsame.trans hid)
  · rw [hid] at hnew
    exact hnone run.plan hnew

/-- An end that is recorded is one of an execution. -/
theorem recorded_running {taskId : String} {result : ExecutionOutcome}
    (henabled : daemon.Enabled event)
    (hcall : self.call event = some (.recordExecution taskId result)) :
    ∃ run ∈ daemon.running, run.taskId = taskId := by
  rcases call_turn hcall with ⟨env, now, _, hother⟩ | ⟨run, hevent, hrecord⟩ | ⟨io, request, _, hother⟩
  · simp at hother
  · rw [hevent] at henabled
    have hid : taskId = run.taskId := by
      have hparts := Call.recordExecution.inj hrecord
      exact hparts.1
    exact ⟨run, henabled.1, hid.symm⟩
  · cases request with
    | _ => simp [Request.call] at hother

/-- A plan that waits goes on waiting until its window has run out. -/
theorem waits_step (henabled : daemon.Enabled event) (hwaits : Waits plan since daemon)
    (hquiet : self.SubmitsNone plan.taskId event) (hearly : self.Early since event) :
    self.HandsOutNone plan.taskId daemon event ∧ Waits plan since (self.step daemon event) := by
  have hnone : self.HandsOutNone plan.taskId daemon event := by
    intro other hout
    obtain ⟨call, hcall, hmem⟩ := hout
    have hreleased := mem_released.mp hmem
    rw [hwaits.entry] at hreleased
    rcases slotRelease_cases hreleased with
      ⟨env, now, rfl, hid, _, _⟩ | ⟨env, now, task, rfl, htask, htimed, _⟩ |
        ⟨task, rfl, htask, hheld, _⟩
    · exact hquiet env other now hcall hid
    · have hwindow := (TaskState.timedOut_iff.mp htimed).2.2
      rw [← Option.some.inj htask] at hwindow
      exact hearly env now hcall hwindow
    · rw [← Option.some.inj htask] at hheld
      simp [TaskState.fresh] at hheld
  refine ⟨hnone, ?_, idle_step henabled hnone hwaits.idle⟩
  rw [lookup_step_pending, hwaits.entry]
  cases hcall : self.call event with
  | none => rfl
  | some call =>
    rw [Option.elim_some]
    cases call with
    | ingest env other now =>
      simp only [slotStep, if_neg (hquiet env other now hcall)]
    | checkTimeouts env now =>
      have hpolled : (TaskState.fresh plan since).timedOut env now ≠ true := by
        intro htimed
        exact hearly env now hcall (TaskState.timedOut_iff.mp htimed).2.2
      simp only [slotStep, Option.map_some, TaskState.polled, if_neg hpolled]
    | handleOwnerDecision taskId approved =>
      have hdecided : (TaskState.fresh plan since).decided approved = .fresh plan since := by
        rw [TaskState.decided, if_neg (by simp [TaskState.fresh])]
      simp only [slotStep, Option.map_some, hdecided, ite_self]
    | recordExecution taskId result =>
      obtain ⟨run, hrun, hid⟩ := recorded_running henabled hcall
      have hother : taskId ≠ plan.taskId := by
        rw [← hid]
        exact hwaits.idle run hrun
      simp only [slotStep, if_neg hother]
    | query taskId => rfl

theorem waits_run {events : List BridgeEvent}
    (henabled : Along self.step BridgeDaemon.Enabled daemon events)
    (hwaits : Waits plan since daemon)
    (hquiet : ∀ event ∈ events, self.SubmitsNone plan.taskId event ∧ self.Early since event) :
    Along self.step (self.HandsOutNone plan.taskId) daemon events ∧
      Waits plan since (run self.step daemon events) := by
  induction events generalizing daemon with
  | nil => exact ⟨along_nil, hwaits⟩
  | cons event events ih =>
    obtain ⟨hhead, htail⟩ := along_cons.mp henabled
    obtain ⟨hfirst, hothers⟩ := List.forall_mem_cons.mp hquiet
    obtain ⟨hnone, hstill⟩ := waits_step hhead hwaits hfirst.1 hfirst.2
    obtain ⟨halong, hend⟩ := ih htail hstill hothers
    exact ⟨along_cons.mpr ⟨hnone, halong⟩, hend⟩

/-- An entry that waits for nothing stays so, and nothing is handed out. -/
theorem settled_step (hsettled : Settled id daemon) (hquiet : self.SubmitsNone id event) :
    self.HandsOutNone id daemon event ∧ Settled id (self.step daemon event) := by
  obtain ⟨task, htask, hpending, hheld⟩ := hsettled
  constructor
  · intro other hout
    obtain ⟨call, hcall, hmem⟩ := hout
    have hreleased := mem_released.mp hmem
    rw [htask] at hreleased
    rcases slotRelease_cases hreleased with
      ⟨env, now, rfl, hid, _, _⟩ | ⟨env, now, old, rfl, hold, htimed, _⟩ | ⟨old, rfl, hold, hstatus, _⟩
    · exact hquiet env other now hcall hid
    · rw [← Option.some.inj hold] at htimed
      exact hpending (TaskState.timedOut_iff.mp htimed).2.1
    · rw [← Option.some.inj hold] at hstatus
      exact hheld hstatus
  · rw [Settled, lookup_step_pending, htask]
    cases hcall : self.call event with
    | none => exact ⟨task, rfl, hpending, hheld⟩
    | some call =>
      rw [Option.elim_some]
      cases call with
      | ingest env other now =>
        simp only [slotStep, if_neg (hquiet env other now hcall)]
        exact ⟨task, rfl, hpending, hheld⟩
      | checkTimeouts env now =>
        have hpolled : task.polled env now = task :=
          TaskState.polled_eq fun h => hpending h.1
        simp only [slotStep, Option.map_some, hpolled]
        exact ⟨task, rfl, hpending, hheld⟩
      | handleOwnerDecision taskId approved =>
        have hdecided : task.decided approved = task := by rw [TaskState.decided, if_neg hheld]
        simp only [slotStep, Option.map_some, hdecided, ite_self]
        exact ⟨task, rfl, hpending, hheld⟩
      | recordExecution taskId result =>
        simp only [slotStep, Option.map_some]
        split
        · exact ⟨_, rfl, TaskState.recorded_status_ne (by simp) (by simp),
            TaskState.recorded_status_ne (by simp) (by simp)⟩
        · exact ⟨task, rfl, hpending, hheld⟩
      | query taskId => exact ⟨task, rfl, hpending, hheld⟩

theorem settled_run {events : List BridgeEvent} (hsettled : Settled id daemon)
    (hquiet : ∀ event ∈ events, self.SubmitsNone id event) :
    Along self.step (self.HandsOutNone id) daemon events := by
  induction events generalizing daemon with
  | nil => exact along_nil
  | cons event events ih =>
    obtain ⟨hfirst, hothers⟩ := List.forall_mem_cons.mp hquiet
    obtain ⟨hnone, hstill⟩ := settled_step hsettled hfirst
    exact along_cons.mpr ⟨hnone, ih hstill hothers⟩

/-- A delegable plan that is submitted under a new id waits for its window. -/
theorem waits_of_submitted {connection : Connection} {io : Surroundings}
    (hidle : ∀ run ∈ daemon.running, run.taskId ≠ plan.taskId)
    (hrequest : self.request connection = some (.submit plan))
    (hdelegable : decidePolicy self.rx plan = .delegable)
    (hfresh : daemon.pending.tasks.lookup plan.taskId = none)
    (hwindow : 0 < gatekeeperTimeout io.env) :
    self.HandsOutNone plan.taskId daemon (.turn .publicMaestro connection io) ∧
      Waits plan io.now (self.step daemon (.turn .publicMaestro connection io)) := by
  have hcall : self.call (.turn .publicMaestro connection io) =
      some (.ingest io.env plan io.now) := by
    rw [Deployment.call, hrequest]
    rfl
  have hopen : ¬(TaskState.fresh plan io.now).windowElapsed io.env io.now := by
    simp only [TaskState.windowElapsed, TaskState.fresh, Instant.saturatingDurationSince, Nat.sub_self]
    exact Nat.not_le.mpr hwindow
  have hnone : self.HandsOutNone plan.taskId daemon (.turn .publicMaestro connection io) := by
    intro other hout
    obtain ⟨call, hsome, hmem⟩ := hout
    rw [hcall, Option.some.injEq] at hsome
    have hreleased := mem_released.mp hmem
    rw [← hsome, hfresh] at hreleased
    simp only [slotRelease, Option.getD_none, hopen, and_false, if_false] at hreleased
    simp at hreleased
  refine ⟨hnone, ?_, idle_step trivial hnone hidle⟩
  rw [lookup_step_pending, hcall, Option.elim_some, hfresh]
  simp only [slotStep, if_true, hdelegable, Option.getD_none, TaskState.resubmitted, if_neg hopen]
  rfl

/-- The poll that finds the window run out hands out the plan. -/
theorem poll_waits {env : Env} {now : Instant} (hwaits : Waits plan since daemon)
    (helapsed : gatekeeperTimeout env ≤ now.saturatingDurationSince since) :
    (∀ other, self.HandsOut (plan.taskId, other) daemon (.poll env now) ↔ other = plan) ∧
      PlanRun.start (plan.taskId, plan) ∈ (self.step daemon (.poll env now)).running ∧
      Settled plan.taskId (self.step daemon (.poll env now)) := by
  have htimed : (TaskState.fresh plan since).timedOut env now = true :=
    TaskState.timedOut_iff.mpr ⟨rfl, rfl, helapsed⟩
  have hrelease : ∀ other, (plan.taskId, other) ∈ daemon.pending.released self.rx
      (.checkTimeouts env now) ↔ other = plan := by
    intro other
    rw [mem_released, hwaits.entry]
    simp only [slotRelease, Option.bind_some, htimed, if_true, Option.some.injEq]
    exact eq_comm
  refine ⟨?_, ?_, ?_⟩
  · intro other
    rw [← hrelease other]
    constructor
    · intro hout
      obtain ⟨call, hcall, hmem⟩ := hout
      rw [← Option.some.inj hcall] at hmem
      exact hmem
    · intro hmem
      exact ⟨_, rfl, hmem⟩
  · have hmem := (hrelease plan).mpr rfl
    have hstep : (self.step daemon (.poll env now)).running = daemon.running +
        (daemon.pending.released self.rx (.checkTimeouts env now)).map PlanRun.start := rfl
    rw [hstep]
    exact Multiset.mem_add.mpr (Or.inr (Multiset.mem_map_of_mem _ hmem))
  · have hcall : self.call (.poll env now) = some (.checkTimeouts env now) := rfl
    rw [Settled, lookup_step_pending, hcall, Option.elim_some, hwaits.entry]
    simp only [slotStep, Option.map_some, TaskState.polled, htimed, if_true]
    exact ⟨_, rfl, by simp, by simp⟩

end Deployment

open Deployment

/-- A delegable plan under a new id is handed out exactly once: by the first poll that finds its
window run out, not before and not again, as long as nothing else is submitted under its id. -/
theorem delegable_plan_executed_once (d : Deployment) {before middle later : List BridgeEvent}
    {connection : Connection} {io : Surroundings} {plan : ExecutionPlan} {env : Env} {now : Instant}
    (henabled : Along d.step BridgeDaemon.Enabled .start
      (before ++ (.turn .publicMaestro connection io :: middle)))
    (hrequest : d.request connection = some (.submit plan))
    (hdelegable : decidePolicy d.rx plan = .delegable)
    (hfresh : (d.after before).pending.tasks.lookup plan.taskId = none)
    (hwindow : 0 < gatekeeperTimeout io.env)
    (hmiddle : ∀ event ∈ middle, d.SubmitsNone plan.taskId event ∧ d.Early io.now event)
    (helapsed : gatekeeperTimeout env ≤ now.saturatingDurationSince io.now)
    (hlater : ∀ event ∈ later, d.SubmitsNone plan.taskId event) :
    let waiting := d.after (before ++ (.turn .publicMaestro connection io :: middle))
    Along d.step (d.HandsOutNone plan.taskId) (d.after before)
        (.turn .publicMaestro connection io :: middle) ∧
      (∀ other, d.HandsOut (plan.taskId, other) waiting (.poll env now) ↔ other = plan) ∧
      PlanRun.start (plan.taskId, plan) ∈ (d.step waiting (.poll env now)).running ∧
      Along d.step (d.HandsOutNone plan.taskId) (d.step waiting (.poll env now)) later := by
  intro waiting
  have hidle : ∀ run ∈ (d.after before).running, run.taskId ≠ plan.taskId := by
    intro run hrun hid
    have hentry := entry_of_running henabled.append_left hrun
    rw [hid, hfresh] at hentry
    simp at hentry
  obtain ⟨hnone, hwaits⟩ := waits_of_submitted hidle hrequest hdelegable hfresh hwindow
  have hrest : Along d.step BridgeDaemon.Enabled
      (d.step (d.after before) (.turn .publicMaestro connection io)) middle := by
    intro front event back hsplit
    have h := henabled (before ++ .turn .publicMaestro connection io :: front) event back
      (by simp [hsplit])
    rw [run_append] at h
    exact h
  obtain ⟨halong, hend⟩ := waits_run hrest hwaits hmiddle
  have hwaiting : waiting = run d.step
      (d.step (d.after before) (.turn .publicMaestro connection io)) middle := run_append _ _
  rw [hwaiting]
  obtain ⟨hout, hrunning, hsettled⟩ := poll_waits hend helapsed
  exact ⟨along_cons.mpr ⟨hnone, halong⟩, hout, hrunning, settled_run hsettled hlater⟩

theorem delegable_listing_executed_once :
    let waiting := listingDeployment.after (listingRun.take 1)
    PlanRun.start ("task-1", listingPlan "task-1") ∈ (listingDeployment.step waiting
        (.poll ⟨none⟩ defaultGatekeeperTimeout)).running ∧
      Along listingDeployment.step (listingDeployment.HandsOutNone "task-1")
        (listingDeployment.step waiting (.poll ⟨none⟩ defaultGatekeeperTimeout))
        [.finish listingEnd, .poll ⟨none⟩ (2 * defaultGatekeeperTimeout)] := by
  have henabled : Along listingDeployment.step BridgeDaemon.Enabled .start
      ([] ++ [.turn .publicMaestro listingConnection calmTurn]) :=
    along_cons.mpr ⟨trivial, along_nil⟩
  have hlater : ∀ event ∈ [BridgeEvent.finish listingEnd, .poll ⟨none⟩ (2 * defaultGatekeeperTimeout)],
      listingDeployment.SubmitsNone "task-1" event := by
    intro event hmem env plan now hcall
    rcases List.mem_pair.mp hmem with hevent | hevent
    · simp [hevent, Deployment.call] at hcall
    · simp [hevent, Deployment.call] at hcall
  have helapsed : gatekeeperTimeout ⟨none⟩ ≤
      Instant.saturatingDurationSince defaultGatekeeperTimeout calmTurn.now := le_refl _
  have honce := delegable_plan_executed_once listingDeployment henabled request_listing
    (decidePolicy_listingPlan "task-1") rfl (by decide) (by simp) helapsed hlater
  exact ⟨honce.2.2.1, honce.2.2.2⟩

end AiBridge
