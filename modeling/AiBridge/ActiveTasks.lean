import AiBridge.Criteria
import AiBridge.Errors
import AiBridge.FinmapWalk
import AiBridge.Timers
import AiBridge.Wire

namespace AiBridge

/-- The sending half of a oneshot channel, by the channel it belongs to. -/
abbrev Sender := Nat

/-- What becomes of a sender once it is used up. -/
inductive ChannelEvent
  | sent (tx : Sender) (approved : Bool)
  | dropped (tx : Sender)
  deriving DecidableEq, Repr

def ChannelEvent.sender : ChannelEvent → Sender
  | sent tx _ => tx
  | dropped tx => tx

structure PendingTask where
  taskId : String
  appName : String
  command : String
  riskLevel : String
  isCritical : Bool
  triggered : List Criterion
  deriving DecidableEq, Repr

structure TaskEntry where
  info : PendingTask
  sender : Sender
  deriving DecidableEq, Repr

/-- The registry owns each of its senders once. -/
structure ActiveTasks where
  pending : Finmap fun _ : String => TaskEntry
  owned : ∀ {id id' entry entry'}, pending.lookup id = some entry →
    pending.lookup id' = some entry' → entry.sender = entry'.sender → id = id'

namespace ActiveTasks

def new : ActiveTasks where
  pending := ∅
  owned h := by simp at h

def Holds (self : ActiveTasks) (tx : Sender) : Prop :=
  ∃ id entry, self.pending.lookup id = some entry ∧ entry.sender = tx

/-- The sender is moved in, so the registry does not hold it yet. A replaced entry is dropped with
its sender. -/
def register (self : ActiveTasks) (task : PendingTask) (tx : Sender) (hfresh : ¬self.Holds tx) :
    ActiveTasks × List ChannelEvent where
  fst :=
    { pending := self.pending.insert task.taskId ⟨task, tx⟩
      owned := by
        intro id id' entry entry' h h' hsame
        by_cases hid : id = task.taskId
        · by_cases hid' : id' = task.taskId
          · rw [hid, hid']
          · rw [hid, Finmap.lookup_insert, Option.some.injEq] at h
            rw [Finmap.lookup_insert_of_ne _ hid'] at h'
            rw [← h] at hsame
            exact absurd ⟨id', entry', h', hsame.symm⟩ hfresh
        · rw [Finmap.lookup_insert_of_ne _ hid] at h
          by_cases hid' : id' = task.taskId
          · rw [hid', Finmap.lookup_insert, Option.some.injEq] at h'
            rw [← h'] at hsame
            exact absurd ⟨id, entry, h, hsame⟩ hfresh
          · rw [Finmap.lookup_insert_of_ne _ hid'] at h'
            exact self.owned h h' hsame }
  snd :=
    match self.pending.lookup task.taskId with
    | some replaced => [.dropped replaced.sender]
    | none => []

def remove (self : ActiveTasks) (taskId : String) : ActiveTasks where
  pending := self.pending.erase taskId
  owned := by
    intro id id' entry entry' h h' hsame
    have hkeeps : ∀ {k e}, (self.pending.erase taskId).lookup k = some e →
        self.pending.lookup k = some e := by
      intro k e hk
      by_cases hne : k = taskId
      · rw [hne, Finmap.lookup_erase] at hk
        simp at hk
      · rwa [Finmap.lookup_erase_ne hne] at hk
    exact self.owned (hkeeps h) (hkeeps h') hsame

def resolve (self : ActiveTasks) (taskId : String) (approved : Bool) :
    Option Unit × ActiveTasks × List ChannelEvent :=
  match self.pending.lookup taskId with
  | none => (none, self, [])
  | some entry => (some (), self.remove taskId, [.sent entry.sender approved])

end ActiveTasks

/-- The members of a `json!` map, which is sorted by key. -/
def pendingNotification (task : PendingTask) : Json :=
  .obj [("app_name", .str task.appName), ("command", .str task.command),
    ("is_critical", .bool task.isCritical), ("risk_level", .str task.riskLevel),
    ("task_id", .str task.taskId),
    ("triggered", .arr (task.triggered.map fun c => .str c.label)),
    ("type", .str "task_pending")]

section Session

-- a line is a text, or the document it spells
variable {Line : Type} (fromStr : Line → Option Json)

def decisionOf (line : Line) : Option TaskResolved :=
  (fromStr line).bind TaskResolved.fromDocument

/-- The error is the one of `serde_json`. -/
def handleInbound (line : Line) (tasks : ActiveTasks) :
    Except Unit (Option String) × ActiveTasks × List ChannelEvent :=
  match decisionOf fromStr line with
  | none => (.error (), tasks, [])
  | some resolved =>
    let (_, tasks, events) := tasks.resolve resolved.taskId resolved.approved
    (.ok (some resolved.taskId), tasks, events)

/-- The loop over the lines, with the ids it collects. -/
def inboundLoop : List Line → ActiveTasks → List String × ActiveTasks × List ChannelEvent
  | [], active => ([], active, [])
  | line :: lines, active =>
    let (result, active, events) := handleInbound fromStr line active
    let (resolved, active, later) := inboundLoop lines active
    match result with
    | .ok (some taskId) => (taskId :: resolved, active, events ++ later)
    | .ok none => (resolved, active, events ++ later)
    | .error () => (resolved, active, events ++ later)

/-- A connection of the UI: what becomes of the notifications written to it, the lines that
arrive, and how they end. -/
structure UiConnection (Line : Type) where
  advertised : Except IoError Unit
  lines : List Line
  ended : Except IoError Unit

/-- What one session leaves behind. -/
structure Session where
  result : Except IoError (List String)
  tasks : ActiveTasks
  events : List ChannelEvent

def serveUiSession (connection : UiConnection Line) (active : ActiveTasks) : Session :=
  match connection.advertised with
  | .error e => ⟨.error e, active, []⟩
  | .ok () =>
    let (resolved, active, events) := inboundLoop fromStr connection.lines active
    ⟨connection.ended.map fun _ => resolved, active, events⟩

/-- The lines that the session receives. -/
def UiConnection.received (connection : UiConnection Line) : List Line :=
  match connection.advertised with
  | .error _ => []
  | .ok () => connection.lines

end Session

/-- What an agent finds on its channel: a value or a dropped sender, some time after it began to
wait, or nothing. -/
inductive Reply
  | value (approved : Bool) (elapsed : Duration)
  | dropped (elapsed : Duration)
  | silent
  deriving DecidableEq, Repr

inductive Awaited
  | returns (approved : Bool)
  | waits
  | panics
  deriving DecidableEq, Repr

def awaitDecision (env : Env) (reply : Reply) (isDelegable : Bool) : Awaited :=
  if isDelegable = false then
    match evaluateTimeout env false (gatekeeperTimeout env) with
    | .awaitingHuman =>
      match reply with
      | .value approved _ => .returns approved
      | .dropped _ => .returns false
      | .silent => .waits
    | .autoApprove => .panics
  else
    let elapsedOut : Awaited :=
      match evaluateTimeout env true (gatekeeperTimeout env) with
      | .autoApprove => .returns true
      | .awaitingHuman => .returns false
    match reply with
    | .value approved elapsed =>
      if elapsed ≤ gatekeeperTimeout env then .returns approved else elapsedOut
    | .dropped elapsed =>
      if elapsed ≤ gatekeeperTimeout env then .returns false else elapsedOut
    | .silent => elapsedOut

end AiBridge
