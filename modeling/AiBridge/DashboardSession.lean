import AiBridge.Dashboard
import AiBridge.ManualPlans
import AiBridge.RoleAssignments
import AiBridge.WireRouting

namespace AiBridge

open Text

inductive SafetyModeUi
  | armed
  | disarmed
  deriving DecidableEq, Repr

structure SafetyUiState where
  mode : SafetyModeUi
  overrideReason : String
  auditEntries : List String
  deriving DecidableEq, Repr

inductive UiEvent
  | socketStatusUpdate (maestroOnline subAOnline subBOnline : Bool)
  | gatekeeper (event : GatekeeperEvent)
  deriving DecidableEq, Repr

/-- `{:?}` of a decision. -/
def PolicyDecision.debug : PolicyDecision → String
  | delegable => "Delegable"
  | nonDelegable => "NonDelegable"

/-- `chrono_or_now`, with the milliseconds since the epoch. -/
def chronoOrNow (millis : Option Nat) : String := (millis.map toString).getD "now"

/-- What a report of the daemon does to the safety panel. -/
def SafetyUiState.update (self : SafetyUiState) (millis : Option Nat) :
    GatekeeperEvent → SafetyUiState
  | .safetyStateUpdate armed =>
    let status := if armed then "Armed" else "Disarmed"
    { self with
      mode := if armed then .armed else .disarmed
      auditEntries := self.auditEntries ++
        [chronoOrNow millis ++ " :: safety lock state updated from daemon: " ++ status] }
  | _ => self

namespace Ui

/-- The whole `DashboardApp` as far as its events and buttons go, with what it has put into
`tx_out`. The role board holds the message line that all panels share. -/
structure Dashboard where
  board : DashboardApp
  maestroOnline : Bool
  subAOnline : Bool
  subBOnline : Bool
  roles : RoleBoard
  sendMessage : String
  manualTaskDescription : String
  manualCommands : List ManualCommandRow
  safetyState : SafetyUiState
  sent : List OutboundEvent

namespace Dashboard

def new (roleAssignments : RoleAssignmentSet) : Dashboard where
  board := .new
  maestroOnline := false
  subAOnline := false
  subBOnline := false
  roles := ⟨roleAssignments, ""⟩
  sendMessage := ""
  manualTaskDescription := "Manual task from dashboard"
  manualCommands := [⟨"cargo test", .opsTermRunLocal⟩]
  safetyState := ⟨.armed, "", ["Safety lock defaulted to Armed at startup"]⟩
  sent := []

variable (self : Dashboard)

def say (message : String) : Dashboard :=
  { self with roles := { self.roles with uiMessage := message } }

def send (event : OutboundEvent) : Dashboard := { self with sent := self.sent ++ [event] }

/-- One event of the loop of `update`. -/
def receive (millis : Option Nat) : UiEvent → Dashboard
  | .socketStatusUpdate maestroOnline subAOnline subBOnline =>
    { self with maestroOnline, subAOnline, subBOnline }
  | .gatekeeper event =>
    { self with
      board := self.board.update event
      safetyState := self.safetyState.update millis event }

def queueManualPlan (rx : ShippedRegex) (nanos : Nat) : Dashboard :=
  let description := trim self.manualTaskDescription
  if description = "" then
    self.say "A description is required before submitting a manual plan."
  else
    let taskId := "manual-" ++ toString nanos
    match buildManualPlan taskId description self.manualCommands with
    | none => self.say "Add at least one non-empty command before sending the manual plan."
    | some plan =>
      (self.send (.executionPlan plan.taskId plan.description plan.commands)).say
        ("Manual plan " ++ taskId ++ " queued through the maestro socket path; policy result: " ++
          (decidePolicy rx plan).debug)

/-- A valve of a task on show: the decision goes out, and the task leaves the list. -/
def clickValve (index : Nat) (approved : Bool) : Dashboard :=
  match self.board.pendingTasks[index]? with
  | none => self
  | some task =>
    let (event, board) := self.board.renderControlCenter task approved
    { self.send event with board }

def clickSend : Dashboard :=
  match self.roles.roleAssignments.currentMaestro with
  | some _ =>
    { (self.send (.directMessage "direct_message" self.sendMessage)).say
        ("Message sent to Maestro: " ++ self.sendMessage) with sendMessage := "" }
  | none => self.say "No Maestro is currently assigned. Assign a Maestro before sending."

def clickArm : Dashboard :=
  (self.send (.safetyArm "safety_arm")).say "Safety Arm command sent to daemon"

def clickDisarm : Dashboard :=
  (self.send (.safetyDisarm "safety_disarm" self.safetyState.overrideReason)).say
    "Safety Disarm command sent to daemon"

def clickOverride (nanos : Nat) : Dashboard :=
  if trim self.safetyState.overrideReason = "" then
    self.say "Override requires a clear human reason"
  else
    let taskId := "override-" ++ toString nanos
    { (self.send (.safetyOverride "safety_override" taskId self.safetyState.overrideReason)).say
        "Human override request sent to daemon" with
      safetyState := { self.safetyState with overrideReason := "" } }

end Dashboard

/-- What happens to the dashboard: an event that it receives, a text that is edited or a button. The
clock is read where the source reads it. -/
inductive DashboardEvent
  | receive (millis : Option Nat) (event : UiEvent)
  | valve (index : Nat) (approved : Bool)
  | editMessage (text : String)
  | editReason (text : String)
  | editDescription (text : String)
  | editCommand (index : Nat) (row : ManualCommandRow)
  | removeCommand (index : Nat)
  | addCommand
  | send
  | arm
  | disarm
  | override (nanos : Nat)
  | manualPlan (nanos : Nat)
  | role (call : RoleCall)

def Dashboard.step (rx : ShippedRegex) (self : Dashboard) : DashboardEvent → Dashboard
  | .receive millis event => self.receive millis event
  | .valve index approved => self.clickValve index approved
  | .editMessage text => { self with sendMessage := text }
  | .editReason text =>
    { self with safetyState := { self.safetyState with overrideReason := text } }
  | .editDescription text => { self with manualTaskDescription := text }
  | .editCommand index row => { self with manualCommands := self.manualCommands.set index row }
  | .removeCommand index => { self with manualCommands := self.manualCommands.eraseIdx index }
  | .addCommand =>
    { self with manualCommands := self.manualCommands ++ [⟨"", .opsTermRunLocal⟩] }
  | .send => self.clickSend
  | .arm => self.clickArm
  | .disarm => self.clickDisarm
  | .override nanos => self.clickOverride nanos
  | .manualPlan nanos => self.queueManualPlan rx nanos
  | .role call => { self with roles := self.roles.step call }

end Ui

end AiBridge
