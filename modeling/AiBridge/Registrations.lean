import AiBridge.ApprovalRuns
import AiBridge.Runs

namespace AiBridge

open Runs

/-- What an agent hears on its channel of the events there. -/
def Hears (events : List ChannelEvent) (tx : Sender) : Reply → Prop
  | .value approved _ => .sent tx approved ∈ events
  | .dropped _ => .dropped tx ∈ events
  | .silent => onChannel tx events = []

/-- A denial is a value on the channel, or the end of the channel. -/
theorem awaitDecision_denied {env : Env} {reply : Reply} {isDelegable : Bool}
    (h : awaitDecision env reply isDelegable = .returns false) :
    (∃ elapsed, reply = .value false elapsed) ∨ ∃ elapsed, reply = .dropped elapsed := by
  have hwaits : evaluateTimeout env false (gatekeeperTimeout env) = .awaitingHuman := by
    simp [evaluateTimeout]
  have happroves : evaluateTimeout env true (gatekeeperTimeout env) = .autoApprove := by
    simp [evaluateTimeout]
  cases reply with
  | dropped elapsed => exact Or.inr ⟨elapsed, rfl⟩
  | silent => cases isDelegable <;> simp [awaitDecision, hwaits, happroves] at h
  | value approved elapsed =>
    cases approved with
    | false => exact Or.inl ⟨elapsed, rfl⟩
    | true =>
      cases isDelegable <;> simp [awaitDecision, hwaits, happroves] at h

section Register

variable {active : ActiveTasks} {task : PendingTask} {tx : Sender} {hfresh : ¬active.Holds tx}

theorem register_events_of_free (h : active.pending.lookup task.taskId = none) :
    (active.register task tx hfresh).2 = [] := by
  simp [ActiveTasks.register, h]

theorem register_events_of_taken {replaced : TaskEntry}
    (h : active.pending.lookup task.taskId = some replaced) :
    (active.register task tx hfresh).2 = [.dropped replaced.sender] := by
  simp [ActiveTasks.register, h]

end Register

/-- A registration leaves the agents alone that wait already: their senders are not used up, their
tasks can be resolved as before, and none of them is denied. -/
structure RegisterKeeps (active : ActiveTasks) (task : PendingTask) (tx : Sender)
    (hfresh : ¬active.Holds tx) : Prop where
  untouched : ∀ event ∈ (active.register task tx hfresh).2, ¬active.Holds event.sender
  resolvable : ∀ id entry, active.pending.lookup id = some entry → ∀ approved,
    ((active.register task tx hfresh).1.resolve id approved).1 = some () ∧
      ((active.register task tx hfresh).1.resolve id approved).2.2 = [.sent entry.sender approved]
  undenied : ∀ id entry, active.pending.lookup id = some entry → ∀ env isDelegable reply,
    Hears (active.register task tx hfresh).2 entry.sender reply →
      awaitDecision env reply isDelegable ≠ .returns false

theorem registerKeeps_iff {active : ActiveTasks} {task : PendingTask} {tx : Sender}
    {hfresh : ¬active.Holds tx} :
    RegisterKeeps active task tx hfresh ↔ active.pending.lookup task.taskId = none := by
  constructor
  · intro h
    cases hl : active.pending.lookup task.taskId with
    | none => rfl
    | some replaced =>
      have hdropped : .dropped replaced.sender ∈ (active.register task tx hfresh).2 := by
        rw [register_events_of_taken hl]
        exact List.mem_singleton_self _
      exact absurd ⟨task.taskId, replaced, hl, rfl⟩ (h.untouched _ hdropped)
  · intro hl
    have hevents : (active.register task tx hfresh).2 = [] := register_events_of_free hl
    refine ⟨?_, ?_, ?_⟩
    · rw [hevents]
      intro event hmem
      exact absurd hmem List.not_mem_nil
    · intro id entry hid approved
      have hne : id ≠ task.taskId := by
        rintro rfl
        rw [hl] at hid
        simp at hid
      have hkept : (active.register task tx hfresh).1.pending.lookup id = some entry := by
        rw [ActiveTasks.register, Finmap.lookup_insert_of_ne _ hne, hid]
      simp [ActiveTasks.resolve, hkept]
    · rw [hevents]
      intro id entry _ env isDelegable reply hhears hdenied
      rcases awaitDecision_denied hdenied with ⟨elapsed, rfl⟩ | ⟨elapsed, rfl⟩
      · exact absurd hhears List.not_mem_nil
      · exact absurd hhears List.not_mem_nil

inductive RegistryCall (Line : Type)
  | register (task : PendingTask)
  | inbound (line : Line)

namespace Gatekeeper

section Calls

variable {Line : Type} (fromStr : Line → Option Json)

def call (self : Gatekeeper) : RegistryCall Line → Gatekeeper
  | .register task => self.register task
  | .inbound line =>
    { tasks := (handleInbound fromStr line self.tasks).2.1
      agents := self.agents
      known := fun h => self.known (lookup_of_lookup_handleInbound h) }

def callEvents (self : Gatekeeper) : RegistryCall Line → List ChannelEvent
  | .register task => (self.tasks.register task self.agents.length self.fresh).2
  | .inbound line => (handleInbound fromStr line self.tasks).2.2

/-- What becomes of the senders in a run. -/
def eventsOf (self : Gatekeeper) : List (RegistryCall Line) → List ChannelEvent
  | [] => []
  | call :: calls => self.callEvents fromStr call ++ (self.call fromStr call).eventsOf calls

/-- Only ids that are not pending are registered. -/
def RegistersFree (self : Gatekeeper) : RegistryCall Line → Prop
  | .register task => self.tasks.pending.lookup task.taskId = none
  | .inbound _ => True

variable {fromStr} {self : Gatekeeper} {calls : List (RegistryCall Line)} {tx : Sender}

theorem callEvents_of_not_holds (h : ¬self.tasks.Holds tx) (call : RegistryCall Line) :
    onChannel tx (self.callEvents fromStr call) = [] := by
  apply onChannel_eq_nil
  intro event hmem hsame
  apply h
  rw [← hsame]
  cases call with
  | register task =>
    rw [callEvents] at hmem
    cases hl : self.tasks.pending.lookup task.taskId with
    | none =>
      rw [register_events_of_free hl] at hmem
      exact absurd hmem List.not_mem_nil
    | some replaced =>
      rw [register_events_of_taken hl] at hmem
      rw [List.mem_singleton.mp hmem]
      exact ⟨task.taskId, replaced, hl, rfl⟩
  | inbound line =>
    rw [callEvents] at hmem
    rcases handleInbound_cases line self.tasks with hstep | ⟨resolved, entry, _, hl, hstep⟩
    · rw [hstep] at hmem
      exact absurd hmem List.not_mem_nil
    · rw [hstep] at hmem
      rw [List.mem_singleton.mp hmem]
      exact ⟨resolved.taskId, entry, hl, rfl⟩

theorem not_holds_call (h : ¬self.tasks.Holds tx) (hopened : tx < self.agents.length)
    (call : RegistryCall Line) :
    ¬(self.call fromStr call).tasks.Holds tx ∧ tx < (self.call fromStr call).agents.length := by
  cases call with
  | register task =>
    refine ⟨?_, ?_⟩
    · rintro ⟨id, entry, hl, hs⟩
      rw [call, lookup_register] at hl
      split at hl
      next =>
        obtain rfl := Option.some.inj hl
        exact absurd hs (Nat.ne_of_gt hopened)
      next => exact h ⟨id, entry, hl, hs⟩
    · rw [call, register, List.length_append, List.length_singleton]
      exact Nat.lt_succ_of_lt hopened
  | inbound line =>
    refine ⟨?_, hopened⟩
    rintro ⟨id, entry, hl, hs⟩
    exact h ⟨id, entry, lookup_of_lookup_handleInbound hl, hs⟩

/-- A channel that the registry has let go of stays quiet. -/
theorem eventsOf_of_not_holds (h : ¬self.tasks.Holds tx) (hopened : tx < self.agents.length) :
    onChannel tx (self.eventsOf fromStr calls) = [] := by
  induction calls generalizing self with
  | nil => rfl
  | cons call calls ih =>
    obtain ⟨hnext, hstill⟩ := not_holds_call h hopened call
    rw [eventsOf, onChannel_append, callEvents_of_not_holds h, ih hnext hstill]
    rfl

/-- The line that decides a task sends the decision, and nothing comes after it. -/
theorem eventsOf_of_decided {id : String} {entry : TaskEntry} {line : Line} {approved : Bool}
    (hl : self.tasks.pending.lookup id = some entry)
    (hd : decisionOf fromStr line = some ⟨id, approved⟩) :
    onChannel entry.sender (self.eventsOf fromStr (.inbound line :: calls)) =
      [.sent entry.sender approved] := by
  have hknown := handleInbound_known hd hl
  have hopened : entry.sender < self.agents.length :=
    (List.getElem?_eq_some_iff.mp (self.known hl).2).1
  have htasks : (self.call fromStr (.inbound line)).tasks = self.tasks.remove id :=
    congrArg (fun result => result.2.1) hknown
  have hgone : ¬(self.call fromStr (.inbound line)).tasks.Holds entry.sender := by
    rw [htasks]
    exact ActiveTasks.not_holds_remove hl
  rw [eventsOf, onChannel_append, eventsOf_of_not_holds hgone hopened, callEvents, hknown]
  simp [onChannel, ChannelEvent.sender]

/-- Another id that is free is registered past the entry and its channel. -/
theorem register_elsewhere {id : String} {entry : TaskEntry} {task : PendingTask}
    (hl : self.tasks.pending.lookup id = some entry)
    (hnone : self.tasks.pending.lookup task.taskId = none) :
    (self.call fromStr (.register task)).tasks.pending.lookup id = some entry ∧
      onChannel entry.sender (self.callEvents fromStr (.register task)) = [] := by
  have hne : id ≠ task.taskId := by
    rintro rfl
    rw [hnone] at hl
    simp at hl
  constructor
  · rw [call, lookup_register, if_neg hne, hl]
  · rw [callEvents, register_events_of_free hnone]
    rfl

/-- Where only free ids are registered, an agent waits on until a line decides its task, and hears
that decision and nothing else. -/
theorem waiting_run {id : String} {entry : TaskEntry}
    (hl : self.tasks.pending.lookup id = some entry)
    (hfree : Along (call fromStr) RegistersFree self calls) :
    ((run (call fromStr) self calls).tasks.pending.lookup id = some entry ∧
        onChannel entry.sender (self.eventsOf fromStr calls) = []) ∨
      ∃ approved line, .inbound line ∈ calls ∧ decisionOf fromStr line = some ⟨id, approved⟩ ∧
        onChannel entry.sender (self.eventsOf fromStr calls) = [.sent entry.sender approved] := by
  induction calls generalizing self with
  | nil => exact Or.inl ⟨hl, rfl⟩
  | cons first calls ih =>
    obtain ⟨hfirst, hrest⟩ := along_cons.mp hfree
    -- a call that leaves the entry and the channel alone
    have hpassed : (self.call fromStr first).tasks.pending.lookup id = some entry →
        onChannel entry.sender (self.callEvents fromStr first) = [] →
        ((run (call fromStr) self (first :: calls)).tasks.pending.lookup id = some entry ∧
            onChannel entry.sender (self.eventsOf fromStr (first :: calls)) = []) ∨
          ∃ approved line, .inbound line ∈ first :: calls ∧
            decisionOf fromStr line = some ⟨id, approved⟩ ∧
            onChannel entry.sender (self.eventsOf fromStr (first :: calls)) =
              [.sent entry.sender approved] := by
      intro hkept hquiet
      rw [run_cons, eventsOf, onChannel_append, hquiet, List.nil_append]
      rcases ih hkept hrest with hwaits | ⟨approved, line, hmem, hdecides, hsent⟩
      · exact Or.inl hwaits
      · exact Or.inr ⟨approved, line, List.mem_cons_of_mem _ hmem, hdecides, hsent⟩
    cases first with
    | register task =>
      obtain ⟨hkept, hquiet⟩ := register_elsewhere hl hfirst
      exact hpassed hkept hquiet
    | inbound line =>
      by_cases hd : ∃ approved, decisionOf fromStr line = some ⟨id, approved⟩
      · obtain ⟨approved, hd⟩ := hd
        exact Or.inr ⟨approved, line, List.mem_cons_self, hd, eventsOf_of_decided hl hd⟩
      · obtain ⟨hkept, hquiet⟩ := handleInbound_elsewhere hl (not_exists.mp hd)
        exact hpassed hkept hquiet

end Calls

end Gatekeeper

open Gatekeeper

/-- A registration leaves those that wait alone exactly if its id is free. In a run of such
registrations, with lines in between, no agent loses its channel, and none is denied except by a line
on its own task. -/
theorem register_keeps_iff {Line : Type} (fromStr : Line → Option Json) (active : ActiveTasks)
    (task : PendingTask) (tx : Sender) (hfresh : ¬active.Holds tx) :
    (RegisterKeeps active task tx hfresh ↔ active.pending.lookup task.taskId = none) ∧
      ∀ (gatekeeper : Gatekeeper) (calls : List (RegistryCall Line)),
        Along (call fromStr) RegistersFree gatekeeper calls →
        ∀ id entry, gatekeeper.tasks.pending.lookup id = some entry →
          .dropped entry.sender ∉ gatekeeper.eventsOf fromStr calls ∧
          ((∀ line approved, .inbound line ∈ calls →
              decisionOf fromStr line ≠ some ⟨id, approved⟩) →
            (run (call fromStr) gatekeeper calls).tasks.pending.lookup id = some entry ∧
              onChannel entry.sender (gatekeeper.eventsOf fromStr calls) = []) ∧
          ∀ env isDelegable reply,
            Hears (gatekeeper.eventsOf fromStr calls) entry.sender reply →
            awaitDecision env reply isDelegable = .returns false →
              ∃ line, .inbound line ∈ calls ∧ decisionOf fromStr line = some ⟨id, false⟩ := by
  refine ⟨registerKeeps_iff, ?_⟩
  intro gatekeeper calls hfree id entry hl
  have hkept : .dropped entry.sender ∉ gatekeeper.eventsOf fromStr calls := by
    intro hdropped
    have hmem : .dropped entry.sender ∈
        onChannel entry.sender (gatekeeper.eventsOf fromStr calls) :=
      List.mem_filter.mpr ⟨hdropped, by simp [ChannelEvent.sender]⟩
    rcases waiting_run hl hfree with ⟨_, hquiet⟩ | ⟨approved, _, _, _, hsent⟩
    · rw [hquiet] at hmem
      exact absurd hmem List.not_mem_nil
    · rw [hsent] at hmem
      simp at hmem
  refine ⟨hkept, ?_, ?_⟩
  · intro hno
    rcases waiting_run hl hfree with hwaits | ⟨approved, line, hmem, hdecides, _⟩
    · exact hwaits
    · exact absurd hdecides (hno line approved hmem)
  · intro env isDelegable reply hhears hdenied
    rcases awaitDecision_denied hdenied with ⟨elapsed, rfl⟩ | ⟨elapsed, rfl⟩
    · have hmem := sent_mem_iff_onChannel.mp hhears
      rcases waiting_run hl hfree with ⟨_, hquiet⟩ | ⟨approved, line, hline, hdecides, hsent⟩
      · rw [hquiet] at hmem
        exact absurd hmem List.not_mem_nil
      · have heq : false = approved := by simpa [hsent] using hmem
        exact ⟨line, hline, heq ▸ hdecides⟩
    · exact absurd hhears hkept

def shellTask (taskId command : String) : PendingTask :=
  ⟨taskId, "org.gnome.Terminal", command, "HIGH", false, []⟩

/-- The agent of one task keeps its channel while another task is registered and denied. -/
theorem register_keeps_other :
    (.dropped 0 : ChannelEvent) ∉ (Gatekeeper.new.register (shellTask "task-1" "ls")).eventsOf some
      [.register (shellTask "task-2" "rm build"),
        .inbound (TaskResolved.toJson ⟨"task-2", false⟩)] := by
  have hlookup : (Gatekeeper.new.register (shellTask "task-1" "ls")).tasks.pending.lookup "task-1" =
      some ⟨shellTask "task-1" "ls", 0⟩ := by
    rw [lookup_register]
    rfl
  have hfree : Along (call some) RegistersFree (Gatekeeper.new.register (shellTask "task-1" "ls"))
      [.register (shellTask "task-2" "rm build"),
        .inbound (TaskResolved.toJson ⟨"task-2", false⟩)] := by
    refine along_cons.mpr ⟨?_, along_cons.mpr ⟨trivial, along_nil⟩⟩
    show (Gatekeeper.new.register (shellTask "task-1" "ls")).tasks.pending.lookup "task-2" = none
    rw [lookup_register, if_neg (by decide)]
    rfl
  exact ((register_keeps_iff some .new (shellTask "task-1" "ls") 0 Gatekeeper.new.fresh).2 _ _ hfree
    "task-1" _ hlookup).1

/-- A second task of the same id drops the channel of the first, whose agent takes that for a
denial. -/
theorem reused_id_denies :
    let gatekeeper := Gatekeeper.new.register (shellTask "task-1" "ls")
    let again : PendingTask := shellTask "task-1" "rm build"
    gatekeeper.tasks.pending.lookup "task-1" = some ⟨shellTask "task-1" "ls", 0⟩ ∧
      (gatekeeper.tasks.register again gatekeeper.agents.length gatekeeper.fresh).2 =
        [.dropped 0] ∧
      (∀ elapsed, awaitDecision ⟨none⟩ (.dropped elapsed) false = .returns false) ∧
      ¬RegisterKeeps gatekeeper.tasks again gatekeeper.agents.length gatekeeper.fresh := by
  intro gatekeeper again
  have hlookup : gatekeeper.tasks.pending.lookup "task-1" =
      some ⟨shellTask "task-1" "ls", 0⟩ := by
    rw [lookup_register]
    rfl
  have hdropped : (gatekeeper.tasks.register again gatekeeper.agents.length gatekeeper.fresh).2 =
      [.dropped (⟨shellTask "task-1" "ls", 0⟩ : TaskEntry).sender] :=
    register_events_of_taken hlookup
  refine ⟨hlookup, hdropped, fun _ => rfl, ?_⟩
  rw [registerKeeps_iff]
  intro hnone
  have hsome : gatekeeper.tasks.pending.lookup "task-1" = none := hnone
  rw [hlookup] at hsome
  simp at hsome

end AiBridge
