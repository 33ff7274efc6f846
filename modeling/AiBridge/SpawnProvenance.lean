import AiBridge.BridgeRuns

namespace AiBridge

open PendingPlans Runs Text

namespace Deployment

/-- A peer of the registered user that presents the token of the Maestro's channel asks for this. -/
def Asks (self : Deployment) (io : Surroundings) (request : Request) : BridgeEvent → Prop
  | .turn .publicMaestro connection surroundings =>
    surroundings = io ∧ connection.uid = (self.socket .publicMaestro).registeredUid ∧
      connection.Presents (self.socket .publicMaestro).secureToken ∧
      ∃ raw, handedOver (self.socket .publicMaestro) connection = [raw] ∧
        Request.read self.serde.fromStr raw = .ok request
  | _ => False

/-- The registry hands the plan out in this event. -/
def HandsOut (self : Deployment) (exec : String × ExecutionPlan) (daemon : BridgeDaemon)
    (event : BridgeEvent) : Prop :=
  ∃ call, self.call event = some call ∧ exec ∈ daemon.pending.released self.rx call

/-- The window that is counted from a submission of the plan has run out. -/
def WindowOver (self : Deployment) (events : List BridgeEvent) (plan : ExecutionPlan) (env : Env)
    (now : Instant) : Prop :=
  ∃ event ∈ events, ∃ io, self.Asks io (.submit plan) event ∧
    gatekeeperTimeout env ≤ now.saturatingDurationSince io.now

/-- Why an event hands a plan out: the owner approves the plan while it is held, a poll finds the
window of the plan run out, or the plan is submitted where the window of the entry under its id has
run out. That entry may be there for another plan. -/
inductive Ground (self : Deployment) (before : List BridgeEvent) (taskId : String)
    (plan : ExecutionPlan) : BridgeEvent → Prop
  | approved {event : BridgeEvent} {io : Surroundings} {task : TaskState}
    (asks : self.Asks io (.resolve ⟨taskId, true⟩) event)
    (critical : decidePolicy self.rx plan = .nonDelegable)
    (entry : (self.after before).pending.tasks.lookup taskId = some task)
    (held : task.status = .heldForManualApproval) (same : task.plan = plan)
    (submitted : ∃ earlier ∈ before, ∃ io', self.Asks io' (.submit plan) earlier) :
    Ground self before taskId plan event
  | polled {env : Env} {now : Instant} (delegable : decidePolicy self.rx plan = .delegable)
    (elapsed : self.WindowOver before plan env now) : Ground self before taskId plan (.poll env now)
  | submitted {event : BridgeEvent} {io : Surroundings} {task : TaskState}
    (asks : self.Asks io (.submit plan) event)
    (delegable : decidePolicy self.rx plan = .delegable)
    (entry : (self.after (before ++ [event])).pending.tasks.lookup taskId = some task)
    (elapsed : self.WindowOver (before ++ [event]) task.plan io.env io.now) :
    Ground self before taskId plan event

/-- A plan was submitted under its id, and an event handed it out that had a ground for it. -/
structure Authorised (self : Deployment) (past : List BridgeEvent) (taskId : String)
    (plan : ExecutionPlan) : Prop where
  named : plan.taskId = taskId
  submitted : ∃ event ∈ past, ∃ io, self.Asks io (.submit plan) event
  handed : ∃ before event after, past = before ++ event :: after ∧
    self.HandsOut (taskId, plan) (self.after before) event ∧ self.Ground before taskId plan event

variable {self : Deployment} {daemon : BridgeDaemon} {event : BridgeEvent}
  {events past : List BridgeEvent}

theorem lookup_step_pending (self : Deployment) (daemon : BridgeDaemon) (event : BridgeEvent)
    (id : String) : (self.step daemon event).pending.tasks.lookup id =
      (self.call event).elim (daemon.pending.tasks.lookup id)
        (slotStep self.rx id (daemon.pending.tasks.lookup id)) := by
  rw [pending_step]
  cases self.call event with
  | none => rfl
  | some call => exact lookup_step call id

theorem next_same (run : PlanRun) (result : CommandResult) :
    (run.next result).taskId = run.taskId ∧ (run.next result).plan = run.plan := by
  unfold PlanRun.next
  split
  · exact ⟨rfl, rfl⟩
  · exact ⟨rfl, rfl⟩

/-- An event that executes nothing and ends nothing adds only plans that it hands out. -/
theorem running_quiet_cases (hcommand : ∀ old host spawn, event ≠ .command old host spawn)
    (hfinish : ∀ old, event ≠ .finish old) {run : PlanRun}
    (h : run ∈ (self.step daemon event).running) :
    run ∈ daemon.running ∨
      run.results = [] ∧ self.HandsOut (run.taskId, run.plan) daemon event := by
  have hle := running_step_le self daemon hcommand hfinish
  rcases Multiset.mem_add.mp (Multiset.mem_of_le hle h) with hold | hnew
  · exact Or.inl hold
  · obtain ⟨exec, hexec, hstart⟩ := Multiset.mem_map.mp hnew
    right
    cases hcall : self.call event with
    | none =>
      rw [hcall] at hexec
      exact absurd hexec (Multiset.notMem_zero exec)
    | some call =>
      rw [hcall] at hexec
      rw [← hstart]
      exact ⟨rfl, call, hcall, hexec⟩

/-- A plan that is executed after an event was executed before it, or is handed out in it. -/
theorem running_step_cases (henabled : daemon.Enabled event) {run : PlanRun}
    (h : run ∈ (self.step daemon event).running) :
    (∃ old ∈ daemon.running, old.taskId = run.taskId ∧ old.plan = run.plan) ∨
      self.HandsOut (run.taskId, run.plan) daemon event := by
  have quiet : (∀ old host spawn, event ≠ .command old host spawn) →
      (∀ old, event ≠ .finish old) →
      (∃ old ∈ daemon.running, old.taskId = run.taskId ∧ old.plan = run.plan) ∨
        self.HandsOut (run.taskId, run.plan) daemon event := by
    intro hcommand hfinish
    rcases running_quiet_cases hcommand hfinish h with hold | ⟨_, hhands⟩
    · exact Or.inl ⟨run, hold, rfl, rfl⟩
    · exact Or.inr hhands
  cases event with
  | turn channel connection io => exact quiet (by simp) (by simp)
  | poll env now => exact quiet (by simp) (by simp)
  | command old host spawn =>
    obtain ⟨hmem, hsome⟩ := henabled
    obtain ⟨cmd, hcmd⟩ := Option.isSome_iff_exists.mp hsome
    rw [running_step_command hcmd] at h
    rcases Multiset.mem_cons.mp h with hnext | hrest
    · left
      obtain ⟨hid, hplan⟩ := next_same old (executeApprovedTask self.shlex host spawn cmd).result
      exact ⟨old, hmem, by rw [hnext, hid], by rw [hnext, hplan]⟩
    · exact Or.inl ⟨run, Multiset.mem_of_mem_erase hrest, rfl, rfl⟩
  | finish old => exact Or.inl ⟨run, Multiset.mem_of_mem_erase h, rfl, rfl⟩

/-- A plan that is executed was handed out. -/
theorem running_handed (henabled : Along self.step BridgeDaemon.Enabled .start events)
    {run : PlanRun} (h : run ∈ (self.after events).running) :
    Sometime self.step (self.HandsOut (run.taskId, run.plan)) .start events := by
  induction events using List.reverseRecOn generalizing run with
  | nil => exact absurd h (Multiset.notMem_zero run)
  | append_singleton events event ih =>
    obtain ⟨hbefore, hlast⟩ := along_concat.mp henabled
    rw [after, run_concat] at h
    rw [sometime_concat]
    rcases running_step_cases hlast h with ⟨old, hold, hid, hplan⟩ | hnew
    · left
      rw [← hid, ← hplan]
      exact ih hbefore hold
    · exact Or.inr hnew

section Requests

variable {io : Surroundings} {request : Request} {plan : ExecutionPlan} {env : Env} {now : Instant}

/-- A request is brought only by a peer that gets through the handshake. -/
theorem asks_of_request {connection : Connection} (h : self.request connection = some request) :
    self.Asks io request (.turn .publicMaestro connection io) := by
  unfold Deployment.request at h
  cases hread : (self.socket .publicMaestro).handleClientStream connection readToString with
  | error e => simp [hread] at h
  | ok buf =>
    have hruns : (self.socket .publicMaestro).Runs connection := by
      rcases gate_verdict (self.socket .publicMaestro) connection with hgate | hgate
      · exact hgate.1
      · obtain ⟨e, haway⟩ := hgate.1
        rw [haway] at hread
        simp at hread
    obtain ⟨huid, hpresents⟩ := runs_iff.mp hruns
    refine ⟨rfl, huid, hpresents, buf, by rw [handedOver, hread], ?_⟩
    rw [hread] at h
    cases hrequest : Request.read self.serde.fromStr buf with
    | error e => simp [hrequest, Except.toOption] at h
    | ok found =>
      have hfound : found = request := by simpa [hrequest, Except.toOption] using h
      rw [hfound]

theorem call_turn {call : Call} (h : self.call event = some call) :
    (∃ env now, event = .poll env now ∧ call = .checkTimeouts env now) ∨
    (∃ run, event = .finish run ∧ call = .recordExecution run.taskId run.outcome) ∨
    ∃ io request, self.Asks io request event ∧ request.call io = some call := by
  cases event with
  | turn channel connection io =>
    cases channel with
    | publicMaestro =>
      obtain ⟨request, hrequest, hcall⟩ := Option.bind_eq_some_iff.mp h
      exact Or.inr (Or.inr ⟨io, request, asks_of_request hrequest, hcall⟩)
    | privateA => simp [Deployment.call] at h
    | privateB => simp [Deployment.call] at h
  | poll env now => exact Or.inl ⟨env, now, rfl, (Option.some.inj h).symm⟩
  | command run host spawn => simp [Deployment.call] at h
  | finish run => exact Or.inr (Or.inl ⟨run, rfl, (Option.some.inj h).symm⟩)

/-- Submissions reach the registry only from peers that ask for them. -/
theorem asks_of_ingest (h : self.call event = some (.ingest env plan now)) :
    ∃ io, self.Asks io (.submit plan) event ∧ io.env = env ∧ io.now = now := by
  rcases call_turn h with ⟨env', now', _, hcall⟩ | ⟨run, _, hcall⟩ | ⟨io, request, hasks, hcall⟩
  · simp at hcall
  · simp at hcall
  · cases request with
    | submit submitted =>
      obtain ⟨henv, hplan, hnow⟩ : io.env = env ∧ submitted = plan ∧ io.now = now := by
        simpa [Request.call] using hcall
      rw [hplan] at hasks
      exact ⟨io, hasks, henv, hnow⟩
    | _ => simp [Request.call] at hcall

theorem asks_of_decision {taskId : String} {approved : Bool}
    (h : self.call event = some (.handleOwnerDecision taskId approved)) :
    ∃ io, self.Asks io (.resolve ⟨taskId, approved⟩) event := by
  rcases call_turn h with ⟨env', now', _, hcall⟩ | ⟨run, _, hcall⟩ | ⟨io, request, hasks, hcall⟩
  · simp at hcall
  · simp at hcall
  · cases request with
    | resolve resolved =>
      obtain ⟨hid, happroved⟩ : resolved.taskId = taskId ∧ resolved.approved = approved := by
        simpa [Request.call] using hcall
      rw [← hid, ← happroved]
      exact ⟨io, hasks⟩
    | _ => simp [Request.call] at hcall

theorem poll_of_checkTimeouts (h : self.call event = some (.checkTimeouts env now)) :
    event = .poll env now := by
  rcases call_turn h with ⟨env', now', hevent, hcall⟩ | ⟨run, _, hcall⟩ | ⟨io, request, _, hcall⟩
  · obtain ⟨henv, hnow⟩ : env = env' ∧ now = now' := by simpa using hcall
    rw [hevent, henv, hnow]
  · simp at hcall
  · cases request with
    | _ => simp [Request.call] at hcall

/-- The entry of an id was made by a submission of the plan that it holds, and has its clock. -/
theorem asks_of_entry {taskId : String} {task : TaskState}
    (h : (self.after past).pending.tasks.lookup taskId = some task) :
    ∃ event ∈ past, ∃ io, self.Asks io (.submit task.plan) event ∧ io.now = task.createdAt := by
  rw [pending_after] at h
  have hsource : SlotSubmitted (self.calls past)
      ((PendingPlans.after self.rx (self.calls past)).tasks.lookup taskId) := after_submitted _ _
  obtain ⟨env, hsubmitted⟩ := hsource task h
  obtain ⟨event, hmem, hcall⟩ := List.mem_filterMap.mp hsubmitted
  obtain ⟨io, hasks, _, hnow⟩ := asks_of_ingest hcall
  exact ⟨event, hmem, io, hasks, hnow⟩

theorem windowOver_of_entry {taskId : String} {task : TaskState}
    (h : (self.after past).pending.tasks.lookup taskId = some task)
    (helapsed : task.windowElapsed env now) : self.WindowOver past task.plan env now := by
  obtain ⟨event, hmem, io, hasks, hnow⟩ := asks_of_entry h
  refine ⟨event, hmem, io, hasks, ?_⟩
  rw [hnow]
  exact helapsed

end Requests

/-- An event that hands a plan out has a ground for it. -/
theorem ground_of_handsOut {before : List BridgeEvent} {taskId : String} {plan : ExecutionPlan}
    (h : self.HandsOut (taskId, plan) (self.after before) event) :
    plan.taskId = taskId ∧ self.Ground before taskId plan event := by
  obtain ⟨call, hcall, hreleased⟩ := h
  rw [mem_released] at hreleased
  have hsound : SlotSound self.rx taskId ((self.after before).pending.tasks.lookup taskId) := by
    rw [pending_after]
    exact after_sound _ _
  refine ⟨slotRelease_taskId hsound hreleased, ?_⟩
  rcases slotRelease_cases hreleased with
    ⟨env, now, rfl, hid, hdelegable, helapsed⟩ | ⟨env, now, task, rfl, htask, htimed, hplan⟩ |
      ⟨task, rfl, htask, hheld, hplan⟩
  · -- the entry keeps the plan and the clock of the first submission under the id
    obtain ⟨io, hasks, henv, hnow⟩ := asks_of_ingest hcall
    let entry := ((self.after before).pending.tasks.lookup taskId).getD (.fresh plan now)
    have hentry : (self.after (before ++ [event])).pending.tasks.lookup taskId =
        some (entry.resubmitted env now) := by
      rw [Deployment.after, run_concat, ← Deployment.after, lookup_step_pending, hcall,
        Option.elim_some]
      simp only [slotStep, hid, if_true, hdelegable, entry]
    refine .submitted hasks hdelegable hentry ?_
    rw [henv, hnow]
    exact windowOver_of_entry hentry helapsed
  · rw [poll_of_checkTimeouts hcall]
    obtain ⟨hdecision, _, helapsed⟩ := TaskState.timedOut_iff.mp htimed
    refine .polled ?_ ?_
    · rw [← hplan, ← (hsound task htask).decision]
      exact hdecision
    · rw [← hplan]
      exact windowOver_of_entry htask helapsed
  · obtain ⟨io, happroval⟩ := asks_of_decision hcall
    obtain ⟨earlier, hearlier, io', hasks, _⟩ := asks_of_entry htask
    refine .approved happroval ?_ htask hheld hplan ⟨earlier, hearlier, io', ?_⟩
    · rw [← hplan, ← (hsound task htask).decision]
      exact (hsound task htask).critical (Or.inl hheld)
    · rw [← hplan]
      exact hasks

theorem Ground.asked {before : List BridgeEvent} {taskId : String} {plan : ExecutionPlan}
    (h : self.Ground before taskId plan event) :
    ∃ earlier ∈ before ++ [event], ∃ io, self.Asks io (.submit plan) earlier := by
  cases h with
  | approved _ _ _ _ _ hsubmitted =>
    obtain ⟨earlier, hmem, hasks⟩ := hsubmitted
    exact ⟨earlier, List.mem_append_left _ hmem, hasks⟩
  | polled _ helapsed =>
    obtain ⟨earlier, hmem, io, hasks, _⟩ := helapsed
    exact ⟨earlier, List.mem_append_left _ hmem, io, hasks⟩
  | submitted hasks _ _ _ => exact ⟨event, by simp, _, hasks⟩

/-- What the registry hands out is authorised. -/
theorem authorised_of_handed {taskId : String} {plan : ExecutionPlan}
    (h : Sometime self.step (self.HandsOut (taskId, plan)) .start past) :
    self.Authorised past taskId plan := by
  obtain ⟨before, event, after, hpast, hhands⟩ := h
  obtain ⟨hnamed, hground⟩ := ground_of_handsOut hhands
  obtain ⟨earlier, hearlier, hasks⟩ := hground.asked
  refine ⟨hnamed, ⟨earlier, ?_, hasks⟩, before, event, after, hpast, hhands, hground⟩
  rw [hpast]
  rcases List.mem_append.mp hearlier with hold | hnow
  · exact List.mem_append_left _ hold
  · rw [List.mem_singleton.mp hnow]
    exact List.mem_append_right _ List.mem_cons_self

end Deployment

open Deployment

/-- Every program that the daemon starts is that of a command of a plan whose execution is under
way. The command passes the gate with the allowlist of that moment, and the plan is authorised. -/
theorem spawned_authorised (d : Deployment) {events before rest : List BridgeEvent}
    {event : BridgeEvent} {binary : String} {args : List String}
    (henabled : Along d.step BridgeDaemon.Enabled .start events)
    (hsplit : events = before ++ event :: rest) (hspawn : d.spawned event = some (binary, args)) :
    ∃ run host command, (∃ spawn, event = .command run host spawn) ∧
      run ∈ (d.after before).running ∧ run.command = some command ∧
      d.shlex.split (workingText command) = some (binary :: args) ∧
      (trim command = "" ∨ (Symbol.extractFromCommand command).1.classification = .delegable) ∧
      (∃ config, Configured host config ∧
        ∃ entry ∈ config.binaries, entry.name = binary ∧ entry.allowed = true) ∧
      d.Authorised before run.taskId run.plan := by
  have hnow := henabled before event rest hsplit
  have hpast : Along d.step BridgeDaemon.Enabled .start before := by
    rw [hsplit] at henabled
    exact henabled.append_left
  cases event with
  | turn channel connection io => simp [spawned] at hspawn
  | poll env now => simp [spawned] at hspawn
  | finish run => simp [spawned] at hspawn
  | command run host spawn =>
    obtain ⟨command, hcommand, hprogram⟩ := Option.bind_eq_some_iff.mp hspawn
    have happroved : approveSpawn d.shlex host command = .ok (binary, args) := by
      unfold executeApprovedTask at hprogram
      cases hcheck : approveSpawn d.shlex host command with
      | error e => simp [hcheck] at hprogram
      | ok found =>
        have hfound : found = (binary, args) := by simpa [hcheck] using hprogram
        rw [hfound]
    obtain ⟨hwords, hallow, hlisted⟩ := approveSpawn_eq_ok_iff.mp happroved
    have hgate : trim command = "" ∨
        (Symbol.extractFromCommand command).1.classification = .delegable := by
      by_cases hblank : trim command = ""
      · exact Or.inl hblank
      · right
        cases hclass : (Symbol.extractFromCommand command).1.classification with
        | delegable => rfl
        | critical =>
          have hblock : SafetyGuard.new.evaluateForCommand command = .block :=
            SafetyGuard.evaluateForCommand_eq_block_iff.mpr ⟨rfl, hblank, hclass⟩
          exact absurd hblock (SafetyGuard.evaluateForCommand_eq_allow_iff.mp hallow)
    exact ⟨run, host, command, ⟨spawn, rfl⟩, hnow.1, hcommand, hwords, hgate, hlisted,
      authorised_of_handed (running_handed hpast hnow.1)⟩

def listingText : String :=
  "\x7b\"task_id\":\"task-1\",\"description\":\"list the sources\"," ++
    "\"commands\":[\"[[AB:OPS.TERM.RUN.LOCAL]] ls src\"]\x7d"

def listingDeployment : Deployment where
  rx := plainRegex
  serde := plainJson [(listingText, .obj [("task_id", .str "task-1"),
    ("description", .str "list the sources"),
    ("commands", .arr [.str "[[AB:OPS.TERM.RUN.LOCAL]] ls src"])])]
  shlex := blankShlex
  socket name := ⟨name, 1000, "c0ffee"⟩

def listingConnection : Connection := ⟨1000, [utf8 (handshakeLine "c0ffee"), utf8 listingText]⟩

theorem request_listing :
    listingDeployment.request listingConnection = some (.submit (listingPlan "task-1")) := by
  have hstream : (listingDeployment.socket .publicMaestro).handleClientStream listingConnection
      readToString = .ok listingText :=
    handleClientStream_of_pieces (by decide) (by decide) (by decide) .publicMaestro 1000
  have hread : Request.read listingDeployment.serde.fromStr listingText =
      .ok (.submit (listingPlan "task-1")) := by decide +kernel
  rw [Deployment.request, hstream]
  simp only [hread, Except.toOption]

def calmTurn : Surroundings := ⟨⟨none⟩, 0, 0, 0, .ok ()⟩

def listingStart : PlanRun := .start ("task-1", listingPlan "task-1")

def listed (_binary : String) (_args : List String) : Except IoError Output :=
  .ok ⟨.exited 0, [], []⟩

/-- The plan is submitted, its window runs out, and its command is executed. -/
def listingRun : List BridgeEvent :=
  [.turn .publicMaestro listingConnection calmTurn, .poll ⟨none⟩ defaultGatekeeperTimeout,
    .command listingStart listingHost listed]

theorem listing_running : listingStart ∈ (listingDeployment.after (listingRun.take 2)).running := by
  have hpending : (listingDeployment.after (listingRun.take 1)).pending =
      PendingPlans.after plainRegex [.ingest ⟨none⟩ (listingPlan "task-1") 0] := by
    rw [Deployment.pending_after]
    have hcall : listingDeployment.call (.turn .publicMaestro listingConnection calmTurn) =
        some (.ingest ⟨none⟩ (listingPlan "task-1") 0) := by
      rw [Deployment.call, request_listing]
      rfl
    rw [listingRun, List.take_succ_cons, List.take_zero, Deployment.calls,
      List.filterMap_cons_some hcall, List.filterMap_nil]
    rfl
  have hmem : ("task-1", listingPlan "task-1") ∈
      (listingDeployment.after (listingRun.take 1)).pending.released plainRegex
        (.checkTimeouts ⟨none⟩ defaultGatekeeperTimeout) := by
    rw [hpending, mem_released, lookup_after]
    simp [slotStep, slotRelease, TaskState.timedOut_iff, TaskState.windowElapsed, TaskState.fresh,
      TaskState.resubmitted, Instant.saturatingDurationSince, defaultGatekeeperTimeout_ne_zero]
  exact Multiset.mem_add.mpr (Or.inr (Multiset.mem_map_of_mem _ hmem))

theorem listing_enabled :
    Along listingDeployment.step BridgeDaemon.Enabled .start listingRun := by
  refine along_cons.mpr ⟨trivial, along_cons.mpr ⟨trivial, along_cons.mpr ⟨?_, along_nil⟩⟩⟩
  exact ⟨listing_running, by decide⟩

theorem spawned_listing :
    listingDeployment.spawned (.command listingStart listingHost listed) = some ("ls", ["src"]) := by
  have happroved : approveSpawn blankShlex listingHost "[[AB:OPS.TERM.RUN.LOCAL]] ls src" =
      .ok ("ls", ["src"]) := by decide +kernel
  have hcommand : listingStart.command = some "[[AB:OPS.TERM.RUN.LOCAL]] ls src" := rfl
  rw [Deployment.spawned, hcommand, Option.bind_some, executeApprovedTask]
  have hshlex : listingDeployment.shlex = blankShlex := rfl
  rw [hshlex, happroved]

theorem spawned_authorised_listing :
    listingDeployment.Authorised (listingRun.take 2) "task-1" (listingPlan "task-1") := by
  obtain ⟨run, host, command, ⟨spawn, hevent⟩, _, _, _, _, _, hauthorised⟩ :=
    spawned_authorised listingDeployment listing_enabled
      (show listingRun = listingRun.take 2 ++ .command listingStart listingHost listed :: [] from rfl)
      spawned_listing
  obtain ⟨hrun, _, _⟩ := BridgeEvent.command.inj hevent
  rw [← hrun] at hauthorised
  exact hauthorised

end AiBridge
