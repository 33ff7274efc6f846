import AiBridge.ActiveTasks

namespace AiBridge

/-- A task as the dashboard shows it. -/
structure Ui.PendingTask where
  taskId : String
  appName : String
  command : String
  riskLevel : String
  isCritical : Bool
  triggered : List String
  deriving DecidableEq, Repr

inductive GatekeeperEvent
  | taskPending (task : Ui.PendingTask)
  | taskResolved (taskId : String) (approved : Bool)
  | safetyStateUpdate (armed : Bool)
  deriving DecidableEq, Repr

namespace Ui.PendingTask

def fieldNames : List String :=
  ["task_id", "app_name", "command", "risk_level", "is_critical", "triggered"]

def ofFields : List Json → Option Ui.PendingTask
  | [.str taskId, .str appName, .str command, .str riskLevel, .bool isCritical, .arr triggered] =>
    (triggered.mapM Json.asStr).map fun triggered =>
      ⟨taskId, appName, command, riskLevel, isCritical, triggered⟩
  | _ => none

end Ui.PendingTask

namespace GatekeeperEvent

/-- `serde_json::from_str::<GatekeeperEvent>` on a text that parses to the document. -/
def fromDocument (document : Json) : Option GatekeeperEvent :=
  (document.tagged "type").bind fun (tag, content) =>
    if tag = "task_pending" then
      ((content.strictFields Ui.PendingTask.fieldNames).bind Ui.PendingTask.ofFields).map taskPending
    else if tag = "task_resolved" then
      ((content.strictFields TaskResolved.fieldNames).bind TaskResolved.ofFields).map fun resolved =>
        taskResolved resolved.taskId resolved.approved
    else if tag = "safety_state_update" then
      (content.strictFields ["armed"]).bind fun fields =>
        match fields with
        | [.bool armed] => some (safetyStateUpdate armed)
        | _ => none
    else none

end GatekeeperEvent

/-- What the dashboard makes of a task that the gatekeeper advertises. -/
def PendingTask.shown (task : PendingTask) : Ui.PendingTask :=
  ⟨task.taskId, task.appName, task.command, task.riskLevel, task.isCritical,
    task.triggered.map Criterion.label⟩

/-- The dashboard reads from a notification the task that the gatekeeper wrote. -/
theorem fromDocument_pendingNotification (task : PendingTask) :
    GatekeeperEvent.fromDocument (pendingNotification task) = some (.taskPending task.shown) := by
  have hfields : Ui.PendingTask.ofFields [.str task.taskId, .str task.appName, .str task.command,
      .str task.riskLevel, .bool task.isCritical,
      .arr (task.triggered.map fun c => .str c.label)] = some task.shown := by
    have hlabels : task.triggered.map (fun c => Json.str c.label) =
        (task.triggered.map Criterion.label).map Json.str := by
      rw [List.map_map]
      rfl
    rw [Ui.PendingTask.ofFields, hlabels, Json.mapM_asStr]
    rfl
  have hread : GatekeeperEvent.fromDocument (pendingNotification task) =
      (Ui.PendingTask.ofFields [.str task.taskId, .str task.appName, .str task.command,
        .str task.riskLevel, .bool task.isCritical,
        .arr (task.triggered.map fun c => .str c.label)]).map GatekeeperEvent.taskPending := rfl
  rw [hread, hfields]
  rfl

/-- The dashboard shows a task id once. -/
structure DashboardApp where
  pendingTasks : List Ui.PendingTask
  distinct : (pendingTasks.map Ui.PendingTask.taskId).Nodup

namespace DashboardApp

def new : DashboardApp := ⟨[], List.nodup_nil⟩

/-- `pending_tasks.retain(|t| t.task_id != task_id)`. -/
def retainOthers (self : DashboardApp) (taskId : String) : DashboardApp where
  pendingTasks := self.pendingTasks.filter fun t => t.taskId ≠ taskId
  distinct := self.distinct.sublist (List.filter_sublist.map _)

/-- One event of `update`. A task whose id is on show is ignored. -/
def update (self : DashboardApp) : GatekeeperEvent → DashboardApp
  | .taskPending task =>
    if h : self.pendingTasks.any (fun t => t.taskId = task.taskId) = true then self
    else
      { pendingTasks := self.pendingTasks ++ [task]
        distinct := by
          rw [List.map_append, List.nodup_append]
          refine ⟨self.distinct, by simp, ?_⟩
          intro id hid id' hid' heq
          obtain ⟨old, hold, rfl⟩ := List.mem_map.mp hid
          have hnew : id' = task.taskId := by simpa using hid'
          exact h (List.any_eq_true.mpr ⟨old, hold, by simp [heq, hnew]⟩) }
  | .taskResolved taskId _ => self.retainOthers taskId
  | .safetyStateUpdate _ => self

/-- A click on a valve of a task sends the decision and takes the task off the list. -/
def renderControlCenter (self : DashboardApp) (task : Ui.PendingTask) (approved : Bool) :
    OutboundEvent × DashboardApp :=
  (.taskResolved task.taskId approved, self.retainOthers task.taskId)

variable {self : DashboardApp} {event : GatekeeperEvent} {task : Ui.PendingTask}

theorem mem_retainOthers {taskId : String}
    (h : task ∈ (self.retainOthers taskId).pendingTasks) : task ∈ self.pendingTasks :=
  List.mem_of_mem_filter h

theorem ne_of_mem_retainOthers {taskId : String}
    (h : task ∈ (self.retainOthers taskId).pendingTasks) : task.taskId ≠ taskId := by
  simpa using (List.mem_filter.mp h).2

theorem mem_update_new (h : ∀ t ∈ self.pendingTasks, t.taskId ≠ task.taskId) :
    task ∈ (self.update (.taskPending task)).pendingTasks := by
  have hnone : ¬(self.pendingTasks.any (fun t => t.taskId = task.taskId) = true) := by
    simpa using h
  rw [update, dif_neg hnone]
  exact List.mem_append_right _ (List.mem_singleton.mpr rfl)

/-- A task on show is the one that is found under its id. -/
theorem find?_pendingTasks (h : task ∈ self.pendingTasks) :
    self.pendingTasks.find? (fun t => t.taskId = task.taskId) = some task := by
  have hsome : (self.pendingTasks.find? fun t => t.taskId = task.taskId).isSome = true := by
    rw [List.find?_isSome]
    exact ⟨task, h, by simp⟩
  obtain ⟨found, hfound⟩ := Option.isSome_iff_exists.mp hsome
  have hid : found.taskId = task.taskId := by simpa using List.find?_some hfound
  have hmem : found ∈ self.pendingTasks := List.mem_of_find?_eq_some hfound
  rw [hfound, List.inj_on_of_nodup_map self.distinct hmem h hid]

theorem mem_update (h : task ∈ (self.update event).pendingTasks) :
    task ∈ self.pendingTasks ∨ event = .taskPending task := by
  cases event with
  | taskPending new =>
    rw [update] at h
    split at h
    · exact Or.inl h
    · rcases List.mem_append.mp h with hold | hnew
      · exact Or.inl hold
      · right
        rw [List.mem_singleton.mp hnew]
  | taskResolved taskId approved => exact Or.inl (mem_retainOthers h)
  | safetyStateUpdate armed => exact Or.inl h

end DashboardApp

end AiBridge
