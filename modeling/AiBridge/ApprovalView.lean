import AiBridge.ApprovalRuns
import AiBridge.Runs

namespace AiBridge

/-- The task id and the command of a task that an event puts on show. -/
def GatekeeperEvent.view : GatekeeperEvent → Option (String × String)
  | taskPending task => some (task.taskId, task.command)
  | taskResolved _ _ => none
  | safetyStateUpdate _ => none

def lineView (line : Json) : Option (String × String) :=
  (GatekeeperEvent.fromDocument line).bind GatekeeperEvent.view

/-- The task id that a line approves and the command it was clicked on. -/
def Outgoing.approval : Outgoing → Option (String × String)
  | valve task approved => if approved then some (task.taskId, task.command) else none
  | control _ _ => none

/-- The line is read as a decision on the task id. -/
def Outgoing.decides (id : String) : Outgoing → Bool
  | valve task _ => task.taskId = id
  | control _ _ => false

/-- The approvals on a connection that come before any other decision on their task id. -/
def openApprovals : List Outgoing → List (String × String)
  | [] => []
  | line :: lines =>
    line.approval.toList ++ (openApprovals lines).filter fun v => line.decides v.1 = false

section OpenApprovals

variable {line : Outgoing} {lines : List Outgoing} {v : String × String}

theorem mem_openApprovals_head (h : line.approval = some v) : v ∈ openApprovals (line :: lines) :=
  List.mem_append_left _ (Option.mem_toList.mpr h)

theorem openApprovals_of_tail (hd : line.decides v.1 = false) (h : v ∈ openApprovals lines) :
    v ∈ openApprovals (line :: lines) :=
  List.mem_append_right _ (List.mem_filter.mpr ⟨h, by simpa using hd⟩)

theorem openApprovals_concat (h : v ∈ openApprovals (lines ++ [line])) :
    v ∈ openApprovals lines ∨ line.approval = some v := by
  induction lines with
  | nil => exact Or.inr (by simpa [openApprovals] using h)
  | cons first lines ih =>
    rcases List.mem_append.mp h with hfirst | hlater
    · exact Or.inl (List.mem_append_left _ hfirst)
    · obtain ⟨hmem, hd⟩ := List.mem_filter.mp hlater
      rcases ih hmem with hold | hnew
      · exact Or.inl (openApprovals_of_tail (by simpa using hd) hold)
      · exact Or.inr hnew

theorem lookup_inbound_of_decides {gatekeeper : Gatekeeper} {id : String}
    (h : line.decides id = true) : (gatekeeper.inbound line).tasks.pending.lookup id = none := by
  cases line with
  | control event hevent => simp [Outgoing.decides] at h
  | valve task approved =>
    have hid : task.taskId = id := by simpa [Outgoing.decides] using h
    subst hid
    have hd := Outgoing.decisionOf_valve task approved
    show (handleInbound Outgoing.document _ gatekeeper.tasks).2.1.pending.lookup task.taskId = none
    cases hl : gatekeeper.tasks.pending.lookup task.taskId with
    | none => rw [handleInbound_unknown hd hl, hl]
    | some entry => rw [handleInbound_known hd hl, ActiveTasks.lookup_remove_self]

end OpenApprovals

def Action.registers : Action → Option PendingTask
  | register task => some task
  | _ => none

namespace System

def todo (s : System) : List PendingTask :=
  match s.serving with
  | some serving => serving.todo
  | none => []

/-- What the dashboard shows, what is on its way to it, and what was approved there and is still to
be read by the daemon. -/
def inView (s : System) : List (String × String) :=
  s.app.pendingTasks.map (fun task => (task.taskId, task.command)) ++
    s.rx.filterMap GatekeeperEvent.view ++ s.toUi.filterMap lineView ++
    s.todo.map (fun task => (task.taskId, task.command)) ++
    s.rxOutbound.filterMap Outgoing.approval ++
    s.links.flatMap openApprovals

/-- A task is registered under an id only while no other command is in view for that id. -/
def Settled (s : System) (action : Action) : Prop :=
  ∀ task ∈ action.registers, s.serving = none →
    ∀ v ∈ s.inView, v.1 = task.taskId → v.2 = task.command

instance (s : System) (action : Action) : Decidable (s.Settled action) :=
  inferInstanceAs (Decidable (∀ task ∈ action.registers, s.serving = none →
    ∀ v ∈ s.inView, v.1 = task.taskId → v.2 = task.command))

variable {s : System} {v : String × String}

theorem mem_inView :
    v ∈ s.inView ↔
      (∃ task ∈ s.app.pendingTasks, (task.taskId, task.command) = v) ∨
      (∃ event ∈ s.rx, event.view = some v) ∨ (∃ line ∈ s.toUi, lineView line = some v) ∨
      (∃ task ∈ s.todo, (task.taskId, task.command) = v) ∨
      (∃ line ∈ s.rxOutbound, line.approval = some v) ∨
      ∃ lines ∈ s.links, v ∈ openApprovals lines := by
  simp only [inView, List.mem_append, List.mem_map, List.mem_filterMap, List.mem_flatMap, or_assoc]

theorem inView_shown (h : ∃ task ∈ s.app.pendingTasks, (task.taskId, task.command) = v) :
    v ∈ s.inView :=
  mem_inView.mpr (Or.inl h)

theorem inView_passed (h : ∃ event ∈ s.rx, event.view = some v) : v ∈ s.inView :=
  mem_inView.mpr (Or.inr (Or.inl h))

theorem inView_sent (h : ∃ line ∈ s.toUi, lineView line = some v) : v ∈ s.inView :=
  mem_inView.mpr (Or.inr (Or.inr (Or.inl h)))

theorem inView_todo (h : ∃ task ∈ s.todo, (task.taskId, task.command) = v) : v ∈ s.inView :=
  mem_inView.mpr (Or.inr (Or.inr (Or.inr (Or.inl h))))

theorem inView_clicked (h : ∃ line ∈ s.rxOutbound, line.approval = some v) : v ∈ s.inView :=
  mem_inView.mpr (Or.inr (Or.inr (Or.inr (Or.inr (Or.inl h)))))

theorem inView_written (h : ∃ lines ∈ s.links, v ∈ openApprovals lines) : v ∈ s.inView :=
  mem_inView.mpr (Or.inr (Or.inr (Or.inr (Or.inr (Or.inr h)))))

theorem lineView_pendingNotification (task : PendingTask) :
    lineView (pendingNotification task) = some (task.taskId, task.command) := by
  rw [lineView, fromDocument_pendingNotification]
  rfl

theorem written_set {link : Nat} {lines : List Outgoing}
    (h : ∃ lines' ∈ s.links.set link lines, v ∈ openApprovals lines') :
    v ∈ s.inView ∨ v ∈ openApprovals lines := by
  obtain ⟨lines', hmem, hopen⟩ := h
  rcases List.mem_or_eq_of_mem_set hmem with hold | hnew
  · exact Or.inl (inView_written ⟨lines', hold, hopen⟩)
  · rw [hnew] at hopen
    exact Or.inr hopen

theorem inView_register {task : PendingTask} (h : v ∈ (s.register task).inView) : v ∈ s.inView := by
  unfold register at h
  split at h
  · exact h
  · exact h

theorem inView_connect (h : v ∈ s.connect.inView) : v ∈ s.inView := by
  unfold connect at h
  split at h
  · exact h
  · rcases mem_inView.mp h with hs | hp | ⟨line, hmem, _⟩ | ht | hc | ⟨lines, hmem, hopen⟩
    · exact inView_shown hs
    · exact inView_passed hp
    · simp at hmem
    · exact inView_todo ht
    · exact inView_clicked hc
    · rcases List.mem_append.mp hmem with hold | hnew
      · exact inView_written ⟨lines, hold, hopen⟩
      · rw [List.mem_singleton.mp hnew] at hopen
        simp [openApprovals] at hopen

/-- What a session is to advertise is in the registry. -/
theorem inView_accept {order : List String} (h : v ∈ (s.accept order).inView) :
    v ∈ s.inView ∨
      ∃ entry, s.gatekeeper.tasks.pending.lookup v.1 = some entry ∧ entry.info.command = v.2 := by
  unfold accept at h
  split at h
  · rcases mem_inView.mp h with hs | hp | hn | ⟨task, hmem, hv⟩ | hc | hw
    · exact Or.inl (inView_shown hs)
    · exact Or.inl (inView_passed hp)
    · exact Or.inl (inView_sent hn)
    · obtain ⟨id, _, hinfo⟩ := List.mem_filterMap.mp hmem
      obtain ⟨entry, hl, rfl⟩ := Option.map_eq_some_iff.mp hinfo
      obtain ⟨hkey, _⟩ := s.gatekeeper.known hl
      subst hv
      exact Or.inr ⟨entry, by rw [hkey, hl], rfl⟩
    · exact Or.inl (inView_clicked hc)
    · exact Or.inl (inView_written hw)
  · exact Or.inl h

theorem inView_advertise (h : v ∈ s.advertise.inView) : v ∈ s.inView := by
  unfold advertise at h
  split at h
  · rename_i link task todo hserving
    have htodo : s.todo = task :: todo := by simp only [System.todo, hserving]
    rcases mem_inView.mp h with hs | hp | ⟨line, hmem, hv⟩ | ⟨other, hmem, hv⟩ | hc | hw
    · exact inView_shown hs
    · exact inView_passed hp
    · have hline : line ∈ s.toUi ∨ line = pendingNotification task := by
        simp only at hmem
        split at hmem
        · simpa using hmem
        · exact Or.inl hmem
      rcases hline with hold | rfl
      · exact inView_sent ⟨line, hold, hv⟩
      · rw [lineView_pendingNotification, Option.some.injEq] at hv
        exact inView_todo ⟨task, by simp [htodo], hv⟩
    · exact inView_todo ⟨other, by rw [htodo]; exact List.mem_cons_of_mem _ hmem, hv⟩
    · exact inView_clicked hc
    · exact inView_written hw
  · exact h

/-- What a line that is read has stood before is in view again, but its task is gone. -/
theorem inView_read (h : v ∈ s.read.inView) :
    v ∈ s.inView ∨ s.read.gatekeeper.tasks.pending.lookup v.1 = none := by
  unfold read at h ⊢
  split at h
  · split at h
    · rename_i link _ line lines hlink
      rcases mem_inView.mp h with hs | hp | hn | ht | hc | hw
      · exact Or.inl (inView_shown hs)
      · exact Or.inl (inView_passed hp)
      · exact Or.inl (inView_sent hn)
      · exact Or.inl (inView_todo ht)
      · exact Or.inl (inView_clicked hc)
      · rcases written_set hw with hold | hopen
        · exact Or.inl hold
        · have hwritten : line :: lines ∈ s.links := List.mem_of_getElem? hlink
          by_cases hd : line.decides v.1 = true
          · exact Or.inr (lookup_inbound_of_decides hd)
          · have hstill : v ∈ openApprovals (line :: lines) :=
              openApprovals_of_tail (by simpa using hd) hopen
            exact Or.inl (inView_written ⟨_, hwritten, hstill⟩)
    · exact Or.inl h
  · exact Or.inl h

theorem inView_finish (h : v ∈ s.finish.inView) : v ∈ s.inView := by
  unfold finish at h
  split at h
  · rcases mem_inView.mp h with hs | hp | hn | ⟨task, hmem, _⟩ | hc | hw
    · exact inView_shown hs
    · exact inView_passed hp
    · exact inView_sent hn
    · simp [System.todo] at hmem
    · exact inView_clicked hc
    · rcases written_set hw with hold | hopen
      · exact hold
      · simp [openApprovals] at hopen
  · exact h

theorem inView_receive (h : v ∈ s.receive.inView) : v ∈ s.inView := by
  unfold receive at h
  split at h
  · rename_i line lines htoUi
    rcases mem_inView.mp h with hs | ⟨event, hmem, hv⟩ | ⟨line', hmem, hv⟩ | ht | hc | hw
    · exact inView_shown hs
    · rcases List.mem_append.mp hmem with hold | hnew
      · exact inView_passed ⟨event, hold, hv⟩
      · have hread : GatekeeperEvent.fromDocument line = some event := Option.mem_toList.mp hnew
        refine inView_sent ⟨line, by simp [htoUi], ?_⟩
        rw [lineView, hread]
        exact hv
    · exact inView_sent ⟨line', by rw [htoUi]; exact List.mem_cons_of_mem _ hmem, hv⟩
    · exact inView_todo ht
    · exact inView_clicked hc
    · exact inView_written hw
  · exact h

theorem inView_update (h : v ∈ s.update.inView) : v ∈ s.inView := by
  unfold update at h
  split at h
  · rename_i event rest hrx
    rcases mem_inView.mp h with ⟨task, hmem, hv⟩ | ⟨event', hmem, hv⟩ | hn | ht | hc | hw
    · rcases DashboardApp.mem_update hmem with hold | hnew
      · exact inView_shown ⟨task, hold, hv⟩
      · refine inView_passed ⟨event, by simp [hrx], ?_⟩
        rw [hnew, GatekeeperEvent.view, hv]
    · exact inView_passed ⟨event', by rw [hrx]; exact List.mem_cons_of_mem _ hmem, hv⟩
    · exact inView_sent hn
    · exact inView_todo ht
    · exact inView_clicked hc
    · exact inView_written hw
  · exact h

/-- An approval is clicked on a task that is on show. -/
theorem inView_click {taskId : String} {approved : Bool} (h : v ∈ (s.click taskId approved).inView) :
    v ∈ s.inView := by
  unfold click at h
  split at h
  · rename_i task hfind
    rcases mem_inView.mp h with ⟨other, hmem, hv⟩ | hp | hn | ht | ⟨line, hmem, hv⟩ | hw
    · exact inView_shown ⟨other, DashboardApp.mem_retainOthers hmem, hv⟩
    · exact inView_passed hp
    · exact inView_sent hn
    · exact inView_todo ht
    · rcases List.mem_append.mp hmem with hold | hnew
      · exact inView_clicked ⟨line, hold, hv⟩
      · rw [List.mem_singleton.mp hnew, Outgoing.approval] at hv
        split at hv
        · exact inView_shown ⟨task, List.mem_of_find?_eq_some hfind, Option.some.inj hv⟩
        · simp at hv
    · exact inView_written hw
  · exact h

theorem inView_control {event : OutboundEvent} (h : v ∈ (s.control event).inView) :
    v ∈ s.inView := by
  unfold control at h
  split at h
  · rcases mem_inView.mp h with hs | hp | hn | ht | ⟨line, hmem, hv⟩ | hw
    · exact inView_shown hs
    · exact inView_passed hp
    · exact inView_sent hn
    · exact inView_todo ht
    · rcases List.mem_append.mp hmem with hold | hnew
      · exact inView_clicked ⟨line, hold, hv⟩
      · rw [List.mem_singleton.mp hnew] at hv
        simp [Outgoing.approval] at hv
    · exact inView_written hw
  · exact h

theorem inView_send (h : v ∈ s.send.inView) : v ∈ s.inView := by
  unfold send at h
  split at h
  · rename_i link line rest hlinked hrx
    split at h
    · rename_i lines hlink
      split at h
      · rcases mem_inView.mp h with hs | hp | hn | ht | ⟨line', hmem, hv⟩ | hw
        · exact inView_shown hs
        · exact inView_passed hp
        · exact inView_sent hn
        · exact inView_todo ht
        · exact inView_clicked ⟨line', by rw [hrx]; exact List.mem_cons_of_mem _ hmem, hv⟩
        · rcases written_set hw with hold | hopen
          · exact hold
          · rcases openApprovals_concat hopen with hold | hv
            · exact inView_written ⟨lines, List.mem_of_getElem? hlink, hold⟩
            · exact inView_clicked ⟨line, by simp [hrx], hv⟩
      · exact h
    · exact h
  · exact h

theorem inView_hangUp (h : v ∈ s.hangUp.inView) : v ∈ s.inView := by
  rcases mem_inView.mp h with hs | hp | ⟨line, hmem, _⟩ | ht | hc | hw
  · exact inView_shown hs
  · exact inView_passed hp
  · simp [hangUp] at hmem
  · exact inView_todo ht
  · exact inView_clicked hc
  · exact inView_written hw

theorem inView_lose (h : v ∈ s.lose.inView) : v ∈ s.inView := by
  unfold lose at h
  split at h
  · rename_i link line rest hlinked hrx
    apply inView_hangUp
    rcases mem_inView.mp h with hs | hp | hn | ht | ⟨line', hmem, hv⟩ | hw
    · exact inView_shown hs
    · exact inView_passed hp
    · exact inView_sent hn
    · exact inView_todo ht
    · have hold : line' ∈ s.rxOutbound := by
        rw [hrx]
        exact List.mem_cons_of_mem _ hmem
      exact inView_clicked ⟨line', hold, hv⟩
    · exact inView_written hw
  · exact h

/-- What comes into view is what a session finds in the registry, or is about a task that is gone. -/
theorem inView_step {action : Action} (h : v ∈ (s.step action).inView) :
    v ∈ s.inView ∨
      (∃ entry, s.gatekeeper.tasks.pending.lookup v.1 = some entry ∧ entry.info.command = v.2) ∨
      (s.step action).gatekeeper.tasks.pending.lookup v.1 = none := by
  cases action with
  | register task => exact Or.inl (inView_register h)
  | connect => exact Or.inl (inView_connect h)
  | accept order =>
    rcases inView_accept h with hold | hlisted
    · exact Or.inl hold
    · exact Or.inr (Or.inl hlisted)
  | advertise => exact Or.inl (inView_advertise h)
  | read =>
    rcases inView_read h with hold | hgone
    · exact Or.inl hold
    · exact Or.inr (Or.inr hgone)
  | finish => exact Or.inl (inView_finish h)
  | receive => exact Or.inl (inView_receive h)
  | update => exact Or.inl (inView_update h)
  | click taskId approved => exact Or.inl (inView_click h)
  | control event => exact Or.inl (inView_control h)
  | send => exact Or.inl (inView_send h)
  | lose => exact Or.inl (inView_lose h)
  | hangUp => exact Or.inl (inView_hangUp h)

/-- Registering a task sends nothing; the sender of an entry that it replaces is dropped. -/
theorem register_cases (task : PendingTask) :
    ((s.register task).gatekeeper = s.gatekeeper ∧ (s.register task).log = s.log) ∨
      (s.serving = none ∧ (s.register task).gatekeeper = s.gatekeeper.register task ∧
        ∀ delivery ∈ (s.register task).log,
          delivery ∈ s.log ∨ ∃ tx, delivery.event = .dropped tx) := by
  unfold register
  split
  · exact Or.inl ⟨rfl, rfl⟩
  · rename_i hserving
    refine Or.inr ⟨hserving, rfl, ?_⟩
    intro delivery hmem
    rcases List.mem_append.mp hmem with hold | hnew
    · exact Or.inl hold
    · obtain ⟨event, hevent, rfl⟩ := List.mem_map.mp hnew
      simp only [ActiveTasks.register] at hevent
      split at hevent
      · exact Or.inr ⟨_, List.mem_singleton.mp hevent⟩
      · simp at hevent

/-- Reading takes one line of the connection that is served. -/
theorem read_cases : (s.read.gatekeeper = s.gatekeeper ∧ s.read.log = s.log) ∨
    ∃ line lines, line :: lines ∈ s.links ∧
      s.read.gatekeeper = s.gatekeeper.inbound line ∧
      s.read.log = s.log ++
        (handleInbound Outgoing.document line s.gatekeeper.tasks).2.2.map
          fun event => ⟨event, line.displayed⟩ := by
  unfold read
  split
  · split
    · rename_i link _ line lines hlink
      have hwritten : line :: lines ∈ s.links := List.mem_of_getElem? hlink
      exact Or.inr ⟨line, lines, hwritten, rfl, rfl⟩
    · exact Or.inl ⟨rfl, rfl⟩
  · exact Or.inl ⟨rfl, rfl⟩

/-- A step leaves the registry and the channels alone, registers a task, or reads one line that the
dashboard wrote. -/
theorem step_cases (action : Action) :
    ((s.step action).gatekeeper = s.gatekeeper ∧ (s.step action).log = s.log) ∨
      (∃ task, action = .register task ∧ s.serving = none ∧
        (s.step action).gatekeeper = s.gatekeeper.register task ∧
        ∀ delivery ∈ (s.step action).log,
          delivery ∈ s.log ∨ ∃ tx, delivery.event = .dropped tx) ∨
      ∃ line lines, line :: lines ∈ s.links ∧
        (s.step action).gatekeeper = s.gatekeeper.inbound line ∧
        (s.step action).log = s.log ++
          (handleInbound Outgoing.document line s.gatekeeper.tasks).2.2.map
            fun event => ⟨event, line.displayed⟩ := by
  cases action with
  | register task =>
    rcases register_cases (s := s) task with hsame | hregister
    · exact Or.inl hsame
    · exact Or.inr (Or.inl ⟨task, rfl, hregister⟩)
  | read =>
    rcases read_cases (s := s) with hsame | hread
    · exact Or.inl hsame
    · exact Or.inr (Or.inr hread)
  | connect =>
    left
    simp only [step, connect]
    split <;> exact ⟨rfl, rfl⟩
  | accept order =>
    left
    simp only [step, accept]
    split <;> exact ⟨rfl, rfl⟩
  | advertise =>
    left
    simp only [step, advertise]
    split <;> exact ⟨rfl, rfl⟩
  | finish =>
    left
    simp only [step, finish]
    split <;> exact ⟨rfl, rfl⟩
  | receive =>
    left
    simp only [step, receive]
    split <;> exact ⟨rfl, rfl⟩
  | update =>
    left
    simp only [step, update]
    split <;> exact ⟨rfl, rfl⟩
  | click taskId approved =>
    left
    simp only [step, click]
    split <;> exact ⟨rfl, rfl⟩
  | control event =>
    left
    simp only [step, control]
    split <;> exact ⟨rfl, rfl⟩
  | send =>
    left
    simp only [step, send]
    split
    · split
      · split <;> exact ⟨rfl, rfl⟩
      · exact ⟨rfl, rfl⟩
    · exact ⟨rfl, rfl⟩
  | lose =>
    left
    simp only [step, lose]
    split <;> exact ⟨rfl, rfl⟩
  | hangUp => exact Or.inl ⟨rfl, rfl⟩

/-- A pending task has the command that is in view for its id. -/
structure Sound (s : System) : Prop where
  settled : ∀ {v entry}, v ∈ s.inView → s.gatekeeper.tasks.pending.lookup v.1 = some entry →
    entry.info.command = v.2
  delivered : s.ApprovedAsShown

/-- A line that is read delivers an approval only to an agent whose command was on show. -/
theorem Sound.delivers {line : Outgoing} {lines : List Outgoing} {tx : Sender} (h : s.Sound)
    (hlines : line :: lines ∈ s.links)
    (hsent : .sent tx true ∈ (handleInbound Outgoing.document line s.gatekeeper.tasks).2.2) :
    ∃ shown task, line.displayed = some shown ∧ s.gatekeeper.agents[tx]? = some task ∧
      shown.taskId = task.taskId ∧ shown.command = task.command := by
  rcases handleInbound_cases line s.gatekeeper.tasks with hstep | ⟨resolved, entry, hd, hl, hstep⟩
  · rw [hstep] at hsent
    simp at hsent
  · rw [hstep, List.mem_singleton, ChannelEvent.sent.injEq] at hsent
    obtain ⟨rfl, happroved⟩ := hsent
    obtain ⟨shown, rfl, hid⟩ := Outgoing.valve_of_decision hd
    have happroval : (Outgoing.valve shown resolved.approved).approval =
        some (shown.taskId, shown.command) := by
      rw [Outgoing.approval, if_pos happroved.symm]
    have hopen : _ ∈ openApprovals (Outgoing.valve shown resolved.approved :: lines) :=
      mem_openApprovals_head happroval
    rw [hid] at hl
    have hcommand := h.settled (inView_written ⟨_, hlines, hopen⟩) hl
    obtain ⟨hkey, hagent⟩ := s.gatekeeper.known hl
    exact ⟨shown, entry.info, rfl, hagent, hkey.symm, hcommand.symm⟩

theorem Sound.step {action : Action} (h : s.Sound) (hsettled : s.Settled action) :
    (s.step action).Sound := by
  rcases step_cases (s := s) action with ⟨hgate, hlog⟩ | ⟨task, rfl, hserving, hgate, hlog⟩ |
    ⟨line, lines, hlines, hgate, hlog⟩
  · constructor
    · intro v entry hv hl
      rw [hgate] at hl
      rcases inView_step hv with hold | ⟨entry', hl', hcommand⟩ | hgone
      · exact h.settled hold hl
      · rw [hl, Option.some.injEq] at hl'
        rw [hl', hcommand]
      · rw [hgate, hl] at hgone
        simp at hgone
    · intro delivery hmem tx hsent
      rw [hgate]
      exact h.delivered delivery (hlog ▸ hmem) tx hsent
  · constructor
    · intro v entry hv hl
      have hold := inView_register hv
      rw [hgate, Gatekeeper.lookup_register] at hl
      split at hl
      · rename_i hid
        rw [← Option.some.inj hl]
        exact (hsettled task rfl hserving v hold hid).symm
      · exact h.settled hold hl
    · intro delivery hmem tx hsent
      rcases hlog delivery hmem with hold | ⟨tx', hdropped⟩
      · obtain ⟨shown, agent, hshown, hagent, hsame⟩ := h.delivered delivery hold tx hsent
        have hplace : tx < s.gatekeeper.agents.length := (List.getElem?_eq_some_iff.mp hagent).1
        refine ⟨shown, agent, hshown, ?_, hsame⟩
        rw [hgate, Gatekeeper.register, List.getElem?_append_left hplace, hagent]
      · rw [hdropped] at hsent
        simp at hsent
  · constructor
    · intro v entry hv hl
      rw [hgate] at hl
      have hkept := lookup_of_lookup_handleInbound hl
      rcases inView_step hv with hold | ⟨entry', hl', hcommand⟩ | hgone
      · exact h.settled hold hkept
      · rw [hkept, Option.some.injEq] at hl'
        rw [hl', hcommand]
      · rw [hgate, hl] at hgone
        simp at hgone
    · intro delivery hmem tx hsent
      rw [hgate]
      rw [hlog] at hmem
      rcases List.mem_append.mp hmem with hold | hnew
      · exact h.delivered delivery hold tx hsent
      · obtain ⟨event, hevent, rfl⟩ := List.mem_map.mp hnew
        have heq : event = .sent tx true := hsent
        rw [heq] at hevent
        exact h.delivers hlines hevent

theorem sound_new : new.Sound := by
  constructor
  · intro v entry hv hl
    simp [new, Gatekeeper.new, ActiveTasks.new] at hl
  · intro delivery hmem
    simp [new] at hmem

theorem sound_run {actions : List Action} (h : Runs.Along step Settled new actions) :
    (Runs.run step new actions).Sound :=
  Runs.run_invariant (fun _ _ hsound hsettled => hsound.step hsettled) sound_new h

end System

end AiBridge
