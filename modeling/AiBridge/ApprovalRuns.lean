import AiBridge.Dashboard
import AiBridge.SessionDelivery

namespace AiBridge

/-- The registry with the agents that wait on it: a channel is the place of its agent, and a pending
entry is the task that agent registered. -/
structure Gatekeeper where
  tasks : ActiveTasks
  agents : List PendingTask
  known : ∀ {id entry}, tasks.pending.lookup id = some entry →
    entry.info.taskId = id ∧ agents[entry.sender]? = some entry.info

def OutboundEvent.decides : OutboundEvent → Bool
  | taskResolved _ _ => true
  | _ => false

/-- A line of the dashboard: the decision of a valve, with the task it was clicked on, or an event
of another control. -/
inductive Outgoing
  | valve (task : Ui.PendingTask) (approved : Bool)
  | control (event : OutboundEvent) (h : event.decides = false)
  deriving DecidableEq

namespace Outgoing

def event : Outgoing → OutboundEvent
  | valve task approved => .taskResolved task.taskId approved
  | control event _ => event

def displayed : Outgoing → Option Ui.PendingTask
  | valve task _ => some task
  | control _ _ => none

def document (line : Outgoing) : Option Json := some line.event.toJson

theorem decisionOf_valve (task : Ui.PendingTask) (approved : Bool) :
    decisionOf document (valve task approved) = some ⟨task.taskId, approved⟩ :=
  TaskResolved.fromDocument_toJson ⟨task.taskId, approved⟩

/-- Nothing but a valve is read as a decision. -/
theorem decisionOf_control {event : OutboundEvent} (h : event.decides = false) :
    decisionOf document (control event h) = none := by
  cases event with
  | taskResolved taskId approved => simp [OutboundEvent.decides] at h
  | executionPlan taskId description commands => rfl
  | safetyArm ty => rfl
  | safetyDisarm ty reason => rfl
  | safetyOverride ty taskId reason => rfl
  | directMessage ty text => rfl

/-- What is read as a decision was written by a valve. -/
theorem valve_of_decision {line : Outgoing} {resolved : TaskResolved}
    (h : decisionOf document line = some resolved) :
    ∃ shown, line = valve shown resolved.approved ∧ resolved.taskId = shown.taskId := by
  cases line with
  | control event hevent =>
    rw [decisionOf_control hevent] at h
    simp at h
  | valve shown approved =>
    rw [decisionOf_valve, Option.some.injEq] at h
    subst h
    exact ⟨shown, rfl, rfl⟩

end Outgoing

namespace Gatekeeper

def new : Gatekeeper := ⟨.new, [], fun h => by simp [ActiveTasks.new] at h⟩

theorem fresh (self : Gatekeeper) : ¬self.tasks.Holds self.agents.length := by
  rintro ⟨id, entry, hl, hs⟩
  have hagent := (self.known hl).2
  rw [hs, List.getElem?_eq_none le_rfl] at hagent
  simp at hagent

/-- An agent opens a channel, registers its task with the sender and keeps the receiver. -/
def register (self : Gatekeeper) (task : PendingTask) : Gatekeeper where
  tasks := (self.tasks.register task self.agents.length self.fresh).1
  agents := self.agents ++ [task]
  known := by
    intro id entry hl
    by_cases hid : id = task.taskId
    · subst hid
      have hnew : (⟨task, self.agents.length⟩ : TaskEntry) = entry := by
        simpa [ActiveTasks.register, Finmap.lookup_insert] using hl
      rw [← hnew]
      exact ⟨rfl, by simp⟩
    · rw [ActiveTasks.register, Finmap.lookup_insert_of_ne _ hid] at hl
      obtain ⟨hkey, hagent⟩ := self.known hl
      have hplace : entry.sender < self.agents.length := (List.getElem?_eq_some_iff.mp hagent).1
      rw [List.getElem?_append_left hplace]
      exact ⟨hkey, hagent⟩

theorem lookup_register (self : Gatekeeper) (task : PendingTask) (id : String) :
    (self.register task).tasks.pending.lookup id =
      if id = task.taskId then some ⟨task, self.agents.length⟩
      else self.tasks.pending.lookup id := by
  by_cases hid : id = task.taskId
  · rw [if_pos hid, hid]
    exact Finmap.lookup_insert _
  · rw [if_neg hid]
    exact Finmap.lookup_insert_of_ne _ hid

def inbound (self : Gatekeeper) (line : Outgoing) : Gatekeeper where
  tasks := (handleInbound Outgoing.document line self.tasks).2.1
  agents := self.agents
  known h := self.known (lookup_of_lookup_handleInbound h)

end Gatekeeper

/-- A session: the connection it reads from and the tasks it has still to advertise. -/
structure Serving where
  link : Nat
  todo : List PendingTask
  deriving DecidableEq

/-- A value sent or a sender dropped, with the task that the dashboard displayed at the click. -/
structure Delivered where
  event : ChannelEvent
  displayed : Option Ui.PendingTask
  deriving DecidableEq

/-- The daemon, the dashboard and what is on its way between them. `toUi` are the lines on the
current connection of the dashboard, `links` the lines it wrote on each of its connections. -/
structure System where
  gatekeeper : Gatekeeper
  serving : Option Serving
  accepted : Nat
  app : DashboardApp
  rx : List GatekeeperEvent
  rxOutbound : List Outgoing
  linked : Option Nat
  toUi : List Json
  links : List (List Outgoing)
  log : List Delivered

inductive Action
  | register (task : PendingTask)
  | connect
  | accept (order : List String)
  | advertise
  | read
  | finish
  | receive
  | update
  | click (taskId : String) (approved : Bool)
  | control (event : OutboundEvent)
  | send
  | lose
  | hangUp
  deriving DecidableEq

namespace System

def new : System where
  gatekeeper := .new
  serving := none
  accepted := 0
  app := .new
  rx := []
  rxOutbound := []
  linked := none
  toUi := []
  links := []
  log := []

/-- The walk over the pending tasks, in the order the map happens to have. -/
def pendingTasks (s : System) (order : List String) : List PendingTask :=
  order.filterMap fun id => (s.gatekeeper.tasks.pending.lookup id).map TaskEntry.info

/-- The daemon still reads the connection, or has not come to it. -/
def isOpen (s : System) (link : Nat) : Bool :=
  decide (s.accepted ≤ link) || s.serving.any fun serving => serving.link = link

/-- A session has the registry borrowed, so no task is registered while it lasts. -/
def register (s : System) (task : PendingTask) : System :=
  match s.serving with
  | some _ => s
  | none =>
    { s with
      gatekeeper := s.gatekeeper.register task
      log := s.log ++
        (s.gatekeeper.tasks.register task s.gatekeeper.agents.length s.gatekeeper.fresh).2.map
          fun event => ⟨event, none⟩ }

def connect (s : System) : System :=
  match s.linked with
  | some _ => s
  | none => { s with linked := some s.links.length, toUi := [], links := s.links ++ [[]] }

def accept (s : System) (order : List String) : System :=
  if s.serving = none ∧ s.accepted < s.links.length ∧ order.Nodup ∧
      order.toFinset = s.gatekeeper.tasks.pending.keys then
    { s with serving := some ⟨s.accepted, s.pendingTasks order⟩, accepted := s.accepted + 1 }
  else s

/-- What the daemon writes to a connection that the dashboard has left is lost. -/
def advertise (s : System) : System :=
  match s.serving with
  | some ⟨link, task :: todo⟩ =>
    { s with
      serving := some ⟨link, todo⟩
      toUi := if s.linked = some link then s.toUi ++ [pendingNotification task] else s.toUi }
  | _ => s

def read (s : System) : System :=
  match s.serving with
  | some ⟨link, []⟩ =>
    match s.links[link]? with
    | some (line :: lines) =>
      { s with
        gatekeeper := s.gatekeeper.inbound line
        links := s.links.set link lines
        log := s.log ++ (handleInbound Outgoing.document line s.gatekeeper.tasks).2.2.map
          fun event => ⟨event, line.displayed⟩ }
    | _ => s
  | _ => s

/-- The session ends, at the end of the stream or with an error. Lines not read are lost. -/
def finish (s : System) : System :=
  match s.serving with
  | some ⟨link, _⟩ => { s with serving := none, links := s.links.set link [] }
  | none => s

def receive (s : System) : System :=
  match s.toUi with
  | line :: lines =>
    { s with toUi := lines, rx := s.rx ++ (GatekeeperEvent.fromDocument line).toList }
  | [] => s

def update (s : System) : System :=
  match s.rx with
  | event :: rest => { s with rx := rest, app := s.app.update event }
  | [] => s

def click (s : System) (taskId : String) (approved : Bool) : System :=
  match s.app.pendingTasks.find? fun t => t.taskId = taskId with
  | some task =>
    { s with
      app := (s.app.renderControlCenter task approved).2
      rxOutbound := s.rxOutbound ++ [.valve task approved] }
  | none => s

def control (s : System) (event : OutboundEvent) : System :=
  if h : event.decides = false then { s with rxOutbound := s.rxOutbound ++ [.control event h] }
  else s

def send (s : System) : System :=
  match s.linked, s.rxOutbound with
  | some link, line :: rest =>
    match s.links[link]? with
    | some lines =>
      if s.isOpen link then
        { s with rxOutbound := rest, links := s.links.set link (lines ++ [line]) }
      else s
    | none => s
  | _, _ => s

def hangUp (s : System) : System := { s with linked := none, toUi := [] }

/-- A failed write takes the line with it and breaks the connection. -/
def lose (s : System) : System :=
  match s.linked, s.rxOutbound with
  | some _, _ :: rest => { s.hangUp with rxOutbound := rest }
  | _, _ => s

def step (s : System) : Action → System
  | .register task => s.register task
  | .connect => s.connect
  | .accept order => s.accept order
  | .advertise => s.advertise
  | .read => s.read
  | .finish => s.finish
  | .receive => s.receive
  | .update => s.update
  | .click taskId approved => s.click taskId approved
  | .control event => s.control event
  | .send => s.send
  | .lose => s.lose
  | .hangUp => s.hangUp

/-- Every approval that got to an agent was clicked on the command of its own task. -/
def ApprovedAsShown (s : System) : Prop :=
  ∀ delivery ∈ s.log, ∀ tx, delivery.event = .sent tx true →
    ∃ shown task, delivery.displayed = some shown ∧ s.gatekeeper.agents[tx]? = some task ∧
      shown.taskId = task.taskId ∧ shown.command = task.command

end System

end AiBridge
