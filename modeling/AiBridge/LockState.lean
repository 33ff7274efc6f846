import AiBridge.OwnerDecision
import AiBridge.PolicyLock
import AiBridge.Runs

namespace AiBridge

open Text PendingPlans

/-- One message to the handler, with what the call reads besides it. -/
structure Delivery where
  io : Surroundings
  raw : String

/-- The two states that the messages share. -/
structure Shared where
  pending : PendingPlans
  guard : SafetyGuard

namespace Shared

variable (rx : ShippedRegex) (fromStr : String → Option Json)

def step (self : Shared) (call : Delivery) : Shared :=
  let out := handleMaestroMessage rx fromStr call.io self.pending self.guard call.raw
  ⟨out.pending, out.guard⟩

/-- The states after a list of messages to a daemon that has just started. -/
def session (calls : List Delivery) : Shared := Runs.run (step rx fromStr) ⟨new, .new⟩ calls

end Shared

/-- What a message does to the lock that the owner sees. -/
def toggled (fromStr : String → Option Json) (armed : Bool) (call : Delivery) : Bool :=
  match Request.read fromStr call.raw with
  | .ok .arm => true
  | .ok (.disarm _) => false
  | _ => armed

/-- Whether the last of the messages that arm or disarm, if there is one, arms. -/
def armedAfter (fromStr : String → Option Json) (calls : List Delivery) : Bool :=
  Runs.run (toggled fromStr) true calls

def CriticalCommand (command : String) : Prop :=
  trim command ≠ "" ∧ (Symbol.extractFromCommand command).1.classification = .critical

/-- The safety-lock step of the executor refuses the command. -/
def LockRefuses (command : String) : Prop :=
  ∃ e, safetyLock SafetyGuard.new command = .error e

variable {rx : ShippedRegex} {fromStr : String → Option Json}

theorem perform_guard {io : Surroundings} {pending : PendingPlans} {guard : SafetyGuard}
    (request : Request) :
    (request.perform rx io pending guard).guard =
      match request with
      | .arm => guard.arm "ui_user" io.toggledAt io.recordedAt
      | .disarm reason => guard.disarm "ui_user" reason io.toggledAt io.recordedAt
      | _ => guard := by
  cases request with
  | resolve resolved =>
    simp only [Request.perform]
    cases hl : pending.tasks.lookup resolved.taskId with
    | none => rw [resolveTask_unknown resolved hl, failWith]
    | some task => rw [resolveTask_known resolved hl, writeAck_guard]
  | submit plan => rw [Request.perform, submitPlan_eq, writeAck_guard]
  | ask q => rw [Request.perform, (answerQuery_pending q).2]
  | arm => rw [Request.perform, writeAck_guard]
  | disarm reason => rw [Request.perform, writeAck_guard]
  | logOverride taskId => rw [Request.perform, writeAck_guard]
  | directMessage text => rw [Request.perform, writeAck_guard]

/-- A message changes the guard only where it asks to arm or disarm. -/
theorem handled_guard {io : Surroundings} {pending : PendingPlans} {guard : SafetyGuard}
    (raw : String) :
    (handleMaestroMessage rx fromStr io pending guard raw).guard =
      match Request.read fromStr raw with
      | .ok .arm => guard.arm "ui_user" io.toggledAt io.recordedAt
      | .ok (.disarm reason) => guard.disarm "ui_user" reason io.toggledAt io.recordedAt
      | _ => guard := by
  rw [Request.handleMaestroMessage_eq]
  cases Request.read fromStr raw with
  | error e => rfl
  | ok request =>
    rw [Request.performOrFail, perform_guard]
    cases request with
    | arm => rfl
    | disarm reason => rfl
    | _ => rfl

theorem step_armed (shared : Shared) (call : Delivery) :
    (shared.step rx fromStr call).guard.state.armed =
      toggled fromStr shared.guard.state.armed call := by
  simp only [Shared.step, handled_guard, toggled]
  split
  · rfl
  · rfl
  · rfl

theorem session_armed (calls : List Delivery) :
    (Shared.session rx fromStr calls).guard.state.armed = armedAfter fromStr calls :=
  Runs.run_proj (f := fun shared : Shared => shared.guard.state.armed) step_armed

theorem lockRefuses_iff {command : String} : LockRefuses command ↔ CriticalCommand command := by
  have hblock : SafetyGuard.new.evaluateForCommand command = .block ↔ CriticalCommand command := by
    rw [SafetyGuard.evaluateForCommand_eq_block_iff]
    exact and_iff_right rfl
  rw [← hblock]
  constructor
  · intro h
    obtain ⟨e, he⟩ := h
    by_contra hne
    have hok := safetyLock_eq_ok_iff.mpr (SafetyGuard.evaluateForCommand_eq_allow_iff.mpr hne)
    rw [hok] at he
    simp at he
  · intro h
    exact ⟨_, by rw [safetyLock, h]⟩

theorem session_blocks_iff (calls : List Delivery) (command : String) :
    (Shared.session rx fromStr calls).guard.evaluateForCommand command = .block ↔
      armedAfter fromStr calls = true ∧ CriticalCommand command := by
  rw [SafetyGuard.evaluateForCommand_eq_block_iff, session_armed]
  rfl

/-- After any messages, the lock step of the executor and the shared guard agree on a command
exactly if the last message to arm or disarm arms, or the command is not critical. -/
theorem executor_lock_agrees_iff (rx : ShippedRegex) (fromStr : String → Option Json)
    (calls : List Delivery) (command : String) :
    (LockRefuses command ↔
        (Shared.session rx fromStr calls).guard.evaluateForCommand command = .block) ↔
      armedAfter fromStr calls = true ∨ ¬CriticalCommand command := by
  rw [lockRefuses_iff, session_blocks_iff]
  by_cases hcritical : CriticalCommand command
  · simp [hcritical]
  · simp [hcritical]

def secretPlan (taskId : String) : ExecutionPlan :=
  ⟨taskId, "read the token", ["[[AB:CRIT.SECRET]] echo token"]⟩

theorem criticalCommand_secret : CriticalCommand "[[AB:CRIT.SECRET]] echo token" := by
  constructor
  · decide
  · decide

theorem decidePolicy_secretPlan (taskId : String) :
    decidePolicy plainRegex (secretPlan taskId) = .nonDelegable := by
  have hbad : (Symbol.extractFromCommand "[[AB:CRIT.SECRET]] echo token").1.classification ≠
      .delegable := by decide
  have hmem : "[[AB:CRIT.SECRET]] echo token" ∈ (secretPlan taskId).commands := List.mem_cons_self
  have hplan := decidePolicyWithConfig_of_bad plainRegex.compiles hmem hbad
  rw [decidePolicyWithConfig_defaultPatterns] at hplan
  exact Option.some.inj hplan

/-- A reader of texts that knows some documents. -/
def knowsAll (documents : List (String × Json)) (s : String) : Option Json :=
  documents.lookup s

def disarmText : String := "\x7b\"type\":\"safety_disarm\",\"reason\":\"maintenance\"\x7d"

def planText : String :=
  "\x7b\"task_id\":\"task-1\",\"description\":\"read the token\"," ++
    "\"commands\":[\"[[AB:CRIT.SECRET]] echo token\"]\x7d"

def maintenance : String → Option Json :=
  knowsAll
    [(disarmText, .obj [("type", .str "safety_disarm"), ("reason", .str "maintenance")]),
      (planText, .obj [("task_id", .str "task-1"), ("description", .str "read the token"),
        ("commands", .arr [.str "[[AB:CRIT.SECRET]] echo token"])]),
      (approvalText, TaskResolved.toJson ⟨"task-1", true⟩)]

theorem read_maintenance :
    Request.read maintenance disarmText = .ok (.disarm "maintenance") ∧
      Request.read maintenance planText = .ok (.submit (secretPlan "task-1")) ∧
      Request.read maintenance approvalText = .ok (.resolve ⟨"task-1", true⟩) := by
  decide +kernel

/-- The owner disarms the lock, a critical plan comes in, and the owner approves it. -/
def maintenanceCalls : List Delivery :=
  [⟨⟨⟨none⟩, 0, 0, 0, .ok ()⟩, disarmText⟩, ⟨⟨⟨none⟩, 0, 0, 0, .ok ()⟩, planText⟩,
    ⟨⟨⟨none⟩, 5, 5, 5, .ok ()⟩, approvalText⟩]

/-- A plan that is submitted after a disarm is the only one. -/
theorem session_disarm_submit {io io' : Surroundings} {raw raw' reason : String}
    {plan : ExecutionPlan} (hdisarm : Request.read fromStr raw = .ok (.disarm reason))
    (hplan : Request.read fromStr raw' = .ok (.submit plan)) :
    (Shared.session rx fromStr [⟨io, raw⟩, ⟨io', raw'⟩]).pending =
      after rx [.ingest io'.env plan io'.now] := by
  simp only [Shared.session, Runs.run_cons, Runs.run_nil, Shared.step,
    Request.handleMaestroMessage_of_read hdisarm, Request.handleMaestroMessage_of_read hplan,
    Request.perform, submitPlan_eq, writeAck_pending]
  rfl

theorem armedAfter_disarm_submit_resolve {io io' io'' : Surroundings} {raw raw' raw'' reason : String}
    {plan : ExecutionPlan} {resolved : TaskResolved}
    (hdisarm : Request.read fromStr raw = .ok (.disarm reason))
    (hplan : Request.read fromStr raw' = .ok (.submit plan))
    (hresolve : Request.read fromStr raw'' = .ok (.resolve resolved)) :
    armedAfter fromStr [⟨io, raw⟩, ⟨io', raw'⟩, ⟨io'', raw''⟩] = false := by
  simp only [armedAfter, Runs.run_cons, Runs.run_nil, toggled, hdisarm, hplan, hresolve]

theorem executor_refuses_after_disarm :
    let held := Shared.session plainRegex maintenance (maintenanceCalls.take 2)
    let out := handleMaestroMessage plainRegex maintenance ⟨⟨none⟩, 5, 5, 5, .ok ()⟩ held.pending
      held.guard approvalText
    out.result = .ok (some ("task-1", secretPlan "task-1")) ∧
      "[[AB:CRIT.SECRET]] echo token" ∈ (secretPlan "task-1").commands ∧
      ¬(LockRefuses "[[AB:CRIT.SECRET]] echo token" ↔
        (Shared.session plainRegex maintenance maintenanceCalls).guard.evaluateForCommand
          "[[AB:CRIT.SECRET]] echo token" = .block) := by
  intro held out
  obtain ⟨hdisarm, hplan, happroval⟩ := read_maintenance
  have hheld : held.pending = after plainRegex [.ingest ⟨none⟩ (secretPlan "task-1") 0] :=
    session_disarm_submit hdisarm hplan
  have hlookup := lookup_after_critical (decidePolicy_secretPlan "task-1") ⟨none⟩ 0
  rw [← hheld] at hlookup
  refine ⟨?_, List.mem_cons_self, ?_⟩
  · have hout : out = resolveTask ⟨⟨none⟩, 5, 5, 5, .ok ()⟩ held.pending held.guard
        ⟨"task-1", true⟩ := Request.handleMaestroMessage_of_read happroval
    rw [hout, resolveTask_known ⟨"task-1", true⟩ hlookup, writeAck_ok rfl]
    rfl
  · have hdisarmed : armedAfter maintenance maintenanceCalls = false :=
      armedAfter_disarm_submit_resolve hdisarm hplan happroval
    rw [lockRefuses_iff, session_blocks_iff, hdisarmed]
    simp [criticalCommand_secret]

end AiBridge
