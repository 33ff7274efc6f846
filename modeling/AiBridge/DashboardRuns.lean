import AiBridge.DashboardSession
import AiBridge.Runs

namespace AiBridge

namespace Ui

open Runs Text

/-- What a click sends, and what it needs for that. -/
inductive Dashboard.Sends (self : Dashboard) : DashboardEvent → OutboundEvent → Prop
  | valve (index : Nat) (approved : Bool) (task : PendingTask)
    (shown : self.board.pendingTasks[index]? = some task) :
    Sends self (.valve index approved) (.taskResolved task.taskId approved)
  | send (maestro : self.roles.roleAssignments.currentMaestro.isSome) :
    Sends self .send (.directMessage "direct_message" self.sendMessage)
  | arm : Sends self .arm (.safetyArm "safety_arm")
  | disarm : Sends self .disarm (.safetyDisarm "safety_disarm" self.safetyState.overrideReason)
  | override (nanos : Nat) (reason : trim self.safetyState.overrideReason ≠ "") :
    Sends self (.override nanos)
      (.safetyOverride "safety_override" ("override-" ++ toString nanos)
        self.safetyState.overrideReason)
  | manualPlan (nanos : Nat) (description : trim self.manualTaskDescription ≠ "")
    (commands : selected self.manualCommands ≠ []) :
    Sends self (.manualPlan nanos)
      (.executionPlan ("manual-" ++ toString nanos) (trim self.manualTaskDescription)
        (self.manualCommands.filterMap ManualCommandRow.tagged))

namespace Dashboard

variable {rx : ShippedRegex} {self : Dashboard} {event : DashboardEvent}

/-- One event sends nothing or one thing. -/
theorem step_sent (rx : ShippedRegex) (self : Dashboard) (event : DashboardEvent) :
    (self.step rx event).sent = self.sent ∨
      ∃ out, self.Sends event out ∧ (self.step rx event).sent = self.sent ++ [out] := by
  cases event with
  | receive millis event => cases event <;> exact .inl rfl
  | valve index approved =>
    rw [step, clickValve]
    cases hshown : self.board.pendingTasks[index]? with
    | none => exact .inl rfl
    | some task => exact .inr ⟨_, .valve index approved task hshown, rfl⟩
  | send =>
    rw [step, clickSend]
    cases hmaestro : self.roles.roleAssignments.currentMaestro with
    | none => exact .inl rfl
    | some entry => exact .inr ⟨_, .send (by rw [hmaestro]; rfl), rfl⟩
  | arm => exact .inr ⟨_, .arm, rfl⟩
  | disarm => exact .inr ⟨_, .disarm, rfl⟩
  | override nanos =>
    rw [step, clickOverride]
    split
    · exact .inl rfl
    · next hreason => exact .inr ⟨_, .override nanos hreason, rfl⟩
  | manualPlan nanos =>
    simp only [step, queueManualPlan]
    split
    · exact .inl rfl
    · next hdescription =>
      cases hplan : buildManualPlan ("manual-" ++ toString nanos)
          (trim self.manualTaskDescription) self.manualCommands with
      | none => exact .inl rfl
      | some plan =>
        have hsome : selected self.manualCommands ≠ [] := by
          intro hnil
          rw [buildManualPlan_eq_none_iff.mpr (selected_eq_nil_iff.mp hnil)] at hplan
          exact nomatch hplan
        rw [buildManualPlan_eq_some hplan]
        exact .inr ⟨_, .manualPlan nanos hdescription hsome, rfl⟩
  | editMessage text => exact .inl rfl
  | editReason text => exact .inl rfl
  | editDescription text => exact .inl rfl
  | editCommand index row => exact .inl rfl
  | removeCommand index => exact .inl rfl
  | addCommand => exact .inl rfl
  | role call => exact .inl rfl

/-- Only the gatekeeper's events and the valves change the list of tasks. -/
theorem step_board (rx : ShippedRegex) (self : Dashboard) (event : DashboardEvent) :
    (self.step rx event).board = self.board ∨
      (∃ millis report, event = .receive millis (.gatekeeper report) ∧
        (self.step rx event).board = self.board.update report) ∨
      ∃ index approved task, event = .valve index approved ∧
        self.board.pendingTasks[index]? = some task ∧
        (self.step rx event).board = self.board.retainOthers task.taskId := by
  cases event with
  | receive millis event =>
    cases event with
    | socketStatusUpdate maestro subA subB => exact .inl rfl
    | gatekeeper report => exact .inr (.inl ⟨millis, report, rfl, rfl⟩)
  | valve index approved =>
    rw [step, clickValve]
    cases hshown : self.board.pendingTasks[index]? with
    | none => exact .inl rfl
    | some task => exact .inr (.inr ⟨index, approved, task, rfl, hshown, rfl⟩)
  | send =>
    rw [step, clickSend]
    cases self.roles.roleAssignments.currentMaestro <;> exact .inl rfl
  | arm => exact .inl rfl
  | disarm => exact .inl rfl
  | override nanos =>
    rw [step, clickOverride]
    split <;> exact .inl rfl
  | manualPlan nanos =>
    simp only [step, queueManualPlan]
    split
    · exact .inl rfl
    · split <;> exact .inl rfl
  | editMessage text => exact .inl rfl
  | editReason text => exact .inl rfl
  | editDescription text => exact .inl rfl
  | editCommand index row => exact .inl rfl
  | removeCommand index => exact .inl rfl
  | addCommand => exact .inl rfl
  | role call => exact .inl rfl

end Dashboard

/-- The message decides about the task. -/
def decides (taskId : String) : OutboundEvent → Bool
  | .taskResolved id _ => id == taskId
  | _ => false

section Decisions

variable {board : DashboardApp} {taskId : String}

end Decisions

section Grounds

variable {rx : ShippedRegex} {roles : RoleAssignmentSet} {events : List DashboardEvent}
  {out : OutboundEvent}

/-- Everything that was sent goes back to one click. -/
theorem sends_of_sent (h : out ∈ (run (Dashboard.step rx) (.new roles) events).sent) :
    ∃ before event after, events = before ++ event :: after ∧
      (run (Dashboard.step rx) (.new roles) before).Sends event out := by
  induction events using List.reverseRecOn with
  | nil => exact nomatch h
  | append_singleton events last ih =>
    rw [run_concat] at h
    have hpast : out ∈ (run (Dashboard.step rx) (.new roles) events).sent →
        ∃ before event after, events ++ [last] = before ++ event :: after ∧
          (run (Dashboard.step rx) (.new roles) before).Sends event out := by
      intro hmem
      obtain ⟨before, event, after, hsplit, hsends⟩ := ih hmem
      exact ⟨before, event, after ++ [last], by simp [hsplit], hsends⟩
    rcases Dashboard.step_sent rx (run (Dashboard.step rx) (.new roles) events) last with
      hnone | ⟨new, hsends, hnew⟩
    · rw [hnone] at h
      exact hpast h
    · rw [hnew] at h
      rcases List.mem_append.mp h with hold | hlast
      · exact hpast hold
      · rw [List.mem_singleton.mp hlast]
        exact ⟨events, last, [], rfl, hsends⟩

/-- A task on show is there as the gatekeeper advertised it. -/
theorem shown_advertised (rx : ShippedRegex) (roles : RoleAssignmentSet)
    (events : List DashboardEvent) :
    ∀ task ∈ (run (Dashboard.step rx) (.new roles) events).board.pendingTasks,
      ∃ millis, .receive millis (.gatekeeper (.taskPending task)) ∈ events := by
  apply run_history (I := fun (past : List DashboardEvent) (self : Dashboard) =>
    ∀ task ∈ self.board.pendingTasks,
      ∃ millis, DashboardEvent.receive millis (.gatekeeper (.taskPending task)) ∈ past)
  · intro past self event hpast task hmem
    have hold : task ∈ self.board.pendingTasks →
        ∃ millis, .receive millis (.gatekeeper (.taskPending task)) ∈ past ++ [event] := by
      intro hshown
      obtain ⟨millis, hadvertised⟩ := hpast task hshown
      exact ⟨millis, List.mem_append_left _ hadvertised⟩
    rcases self.step_board rx event with hsame | ⟨millis, report, rfl, hreport⟩ |
      ⟨index, approved, decided, rfl, _, hvalve⟩
    · rw [hsame] at hmem
      exact hold hmem
    · rw [hreport] at hmem
      rcases DashboardApp.mem_update hmem with hshown | rfl
      · exact hold hshown
      · exact ⟨millis, by simp⟩
    · rw [hvalve] at hmem
      exact hold (DashboardApp.mem_retainOthers hmem)
  · intro task hmem
    exact nomatch hmem

/-- What a message of the dashboard rests on, with the events before its click. -/
def Grounded (before : List DashboardEvent) (self : Dashboard) : OutboundEvent → Prop
  | .taskResolved taskId _ => ∃ task millis, task.taskId = taskId ∧
      task ∈ self.board.pendingTasks ∧ .receive millis (.gatekeeper (.taskPending task)) ∈ before
  | .executionPlan _ description commands => description ≠ "" ∧
      commands.map Symbol.extractFromCommand = selected self.manualCommands ∧
      selected self.manualCommands ≠ []
  | .safetyOverride _ _ reason => trim reason ≠ ""
  | .directMessage _ _ => ∃ maestro, self.roles.roleAssignments.currentMaestro = some maestro
  | .safetyArm _ | .safetyDisarm _ _ => True

/-- The form on the wire that a click gives its message. -/
def wireForm : OutboundEvent → WireForm
  | .taskResolved taskId approved => .uiTaskResolved taskId approved
  | .executionPlan taskId description commands => .uiExecutionPlan taskId description commands
  | .safetyArm _ => .safetyArm
  | .safetyDisarm _ reason => .safetyDisarm reason
  | .safetyOverride _ taskId reason => .safetyOverride taskId reason
  | .directMessage _ text => .directMessage text

theorem document_wireForm {self : Dashboard} {event : DashboardEvent} (h : self.Sends event out) :
    (wireForm out).document = out.toJson := by
  cases h <;> rfl

theorem ofDocument_wireForm (form : WireForm) :
    Request.ofDocument form.document = .ok form.request := by
  obtain ⟨rest, hreading⟩ := readingOrder_document form
  exact Request.ofDocument_of_first hreading

/-- Everything the dashboard sends is read by the daemon as what the button says, and has its ground:
a decision is about a task on show as it was advertised, a plan says what was selected, an override
has a reason, and a message has a Maestro to go to. -/
theorem sent_grounded (h : out ∈ (run (Dashboard.step rx) (.new roles) events).sent) :
    Request.ofDocument out.toJson = .ok (wireForm out).request ∧
      ∃ before event after, events = before ++ event :: after ∧
        (run (Dashboard.step rx) (.new roles) before).Sends event out ∧
        Grounded before (run (Dashboard.step rx) (.new roles) before) out := by
  obtain ⟨before, event, after, hsplit, hsends⟩ := sends_of_sent h
  refine ⟨by rw [← document_wireForm hsends, ofDocument_wireForm], before, event, after, hsplit,
    hsends, ?_⟩
  cases hsends with
  | valve index approved task hshown =>
    have hmem := List.mem_of_getElem? hshown
    obtain ⟨millis, hadvertised⟩ := shown_advertised rx roles before task hmem
    exact ⟨task, millis, rfl, hmem, hadvertised⟩
  | send hmaestro => exact Option.isSome_iff_exists.mp hmaestro
  | arm => trivial
  | disarm => trivial
  | override nanos hreason => exact hreason
  | manualPlan nanos hdescription hcommands => exact ⟨hdescription, extract_tagged _, hcommands⟩

end Grounds

/-- The mode that an event reports, and the line it leaves in the audit trail. -/
def reported : DashboardEvent → Option (SafetyModeUi × String)
  | .receive millis (.gatekeeper (.safetyStateUpdate armed)) =>
    some (if armed then .armed else .disarmed,
      chronoOrNow millis ++ " :: safety lock state updated from daemon: " ++
        if armed then "Armed" else "Disarmed")
  | _ => none

theorem step_safety (rx : ShippedRegex) (self : Dashboard) (event : DashboardEvent) :
    (self.step rx event).safetyState.mode =
        ((reported event).map Prod.fst).getD self.safetyState.mode ∧
      (self.step rx event).safetyState.auditEntries =
        self.safetyState.auditEntries ++ ((reported event).map Prod.snd).toList := by
  cases event with
  | receive millis event =>
    cases event with
    | socketStatusUpdate maestro subA subB => simp [Dashboard.step, Dashboard.receive, reported]
    | gatekeeper report =>
      cases report <;> simp [Dashboard.step, Dashboard.receive, SafetyUiState.update, reported]
  | valve index approved =>
    rw [Dashboard.step, Dashboard.clickValve]
    cases self.board.pendingTasks[index]? <;> simp [Dashboard.send, reported]
  | send =>
    rw [Dashboard.step, Dashboard.clickSend]
    cases self.roles.roleAssignments.currentMaestro <;>
      simp [Dashboard.send, Dashboard.say, reported]
  | override nanos =>
    rw [Dashboard.step, Dashboard.clickOverride]
    split
    · simp [Dashboard.say, reported]
    · simp [reported]
  | manualPlan nanos =>
    simp only [Dashboard.step, Dashboard.queueManualPlan]
    split
    · simp [Dashboard.say, reported]
    · split <;> simp [Dashboard.send, Dashboard.say, reported]
  | arm => simp [Dashboard.step, Dashboard.clickArm, Dashboard.send, Dashboard.say, reported]
  | disarm => simp [Dashboard.step, Dashboard.clickDisarm, Dashboard.send, Dashboard.say, reported]
  | editMessage text => simp [Dashboard.step, reported]
  | editReason text => simp [Dashboard.step, reported]
  | editDescription text => simp [Dashboard.step, reported]
  | editCommand index row => simp [Dashboard.step, reported]
  | removeCommand index => simp [Dashboard.step, reported]
  | addCommand => simp [Dashboard.step, reported]
  | role call => simp [Dashboard.step, reported]

/-- The safety panel shows what the daemon reported last, and its trail has one line for each report:
no button changes either. -/
theorem safety_shown (rx : ShippedRegex) (roles : RoleAssignmentSet)
    (events : List DashboardEvent) :
    let shown := (run (Dashboard.step rx) (.new roles) events).safetyState
    shown.mode = ((events.filterMap reported).getLast?.map Prod.fst).getD .armed ∧
      shown.auditEntries = "Safety lock defaulted to Armed at startup" ::
        (events.filterMap reported).map Prod.snd := by
  intro shown
  apply run_history (I := fun (past : List DashboardEvent) (self : Dashboard) =>
    self.safetyState.mode = ((past.filterMap reported).getLast?.map Prod.fst).getD .armed ∧
      self.safetyState.auditEntries = "Safety lock defaulted to Armed at startup" ::
        (past.filterMap reported).map Prod.snd)
  · intro past self event hpast
    obtain ⟨hmode, hentries⟩ := step_safety rx self event
    rw [hmode, hentries, hpast.1, hpast.2, List.filterMap_append]
    cases hreport : reported event with
    | none => simp [hreport]
    | some report => simp [hreport]
  · exact ⟨rfl, rfl⟩

def listedTask : PendingTask := ⟨"task-1", "org.gnome.Terminal", "ls", "LOW", false, []⟩

/-- A task is advertised twice and approved once, and a reason is typed for an override. -/
def operatorEvents : List DashboardEvent :=
  [.receive none (.gatekeeper (.taskPending listedTask)),
    .receive none (.gatekeeper (.taskPending listedTask)), .valve 0 true, .valve 0 false,
    .override 1, .editReason "urgent", .override 2]

theorem sent_grounded_operator :
    Request.ofDocument (OutboundEvent.taskResolved "task-1" true).toJson =
      .ok (.resolve ⟨"task-1", true⟩) ∧
    Request.ofDocument (OutboundEvent.safetyOverride "safety_override" "override-2" "urgent").toJson =
      .ok (.logOverride "override-2") := by
  have happroval : OutboundEvent.taskResolved "task-1" true ∈
      (run (Dashboard.step plainRegex) (.new ⟨[]⟩) operatorEvents).sent := by
    decide
  have hoverride : OutboundEvent.safetyOverride "safety_override" "override-2" "urgent" ∈
      (run (Dashboard.step plainRegex) (.new ⟨[]⟩) operatorEvents).sent := by
    decide
  exact ⟨(sent_grounded happroval).1, (sent_grounded hoverride).1⟩

end Ui

end AiBridge
