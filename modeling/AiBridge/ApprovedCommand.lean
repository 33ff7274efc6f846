import AiBridge.ApprovalView

namespace AiBridge

namespace System

variable {s : System} {v : String × String} {link : Nat} {lines : List Outgoing}
  {todo : List PendingTask} {shown : Ui.PendingTask}

/-- Without another registration, steps from here can deliver an approval that was clicked on
another command. -/
def Misleads (s : System) : Prop :=
  ∃ later, (∀ action ∈ later, action.registers = none) ∧ ¬(Runs.run step s later).ApprovedAsShown

/-- The pending task of the id has another command. -/
def Replaced (s : System) (v : String × String) : Prop :=
  ∃ entry, s.gatekeeper.tasks.pending.lookup v.1 = some entry ∧ entry.info.command ≠ v.2

theorem misleads_of_step (action : Action) (hnone : action.registers = none)
    (h : (s.step action).Misleads) : s.Misleads := by
  obtain ⟨later, hlater, hmisled⟩ := h
  refine ⟨action :: later, ?_, hmisled⟩
  intro other hmem
  rcases List.mem_cons.mp hmem with rfl | hrest
  · exact hnone
  · exact hlater other hrest

theorem approval_eq_some {line : Outgoing} (h : line.approval = some v) :
    ∃ shown, line = .valve shown true ∧ v = (shown.taskId, shown.command) := by
  cases line with
  | control event hevent => simp [Outgoing.approval] at h
  | valve shown approved =>
    rw [Outgoing.approval] at h
    split at h
    · rename_i happroved
      exact ⟨shown, by rw [happroved], (Option.some.inj h).symm⟩
    · simp at h

theorem view_eq_some {event : GatekeeperEvent} (h : event.view = some v) :
    ∃ shown, event = .taskPending shown ∧ v = (shown.taskId, shown.command) := by
  cases event with
  | taskPending shown => exact ⟨shown, rfl, (Option.some.inj h).symm⟩
  | taskResolved taskId approved => simp [GatekeeperEvent.view] at h
  | safetyStateUpdate armed => simp [GatekeeperEvent.view] at h

theorem lookup_inbound_of_not_decides {gatekeeper : Gatekeeper} {line : Outgoing} {id : String}
    (h : line.decides id = false) :
    (gatekeeper.inbound line).tasks.pending.lookup id = gatekeeper.tasks.pending.lookup id := by
  show (handleInbound Outgoing.document _ gatekeeper.tasks).2.1.pending.lookup id = _
  rcases handleInbound_cases line gatekeeper.tasks with hstep | ⟨resolved, entry, hd, hl, hstep⟩
  · rw [hstep]
  · rw [hstep]
    apply ActiveTasks.lookup_remove_of_ne
    obtain ⟨shown, hline, hid⟩ := Outgoing.valve_of_decision hd
    rw [hline] at h
    have hne : shown.taskId ≠ id := by simpa [Outgoing.decides] using h
    rw [hid]
    exact hne.symm

/-- An approval at the head of the connection that is read goes to the agent of the new task. -/
theorem misleads_of_head (hserving : s.serving = some ⟨link, []⟩)
    (hlink : s.links[link]? = some (.valve shown true :: lines))
    (hr : s.Replaced (shown.taskId, shown.command)) : s.Misleads := by
  obtain ⟨entry, hl, hother⟩ := hr
  have hnone : ∀ action ∈ [Action.read], action.registers = none := by
    simp [Action.registers]
  refine ⟨[.read], hnone, ?_⟩
  intro hall
  have hd := Outgoing.decisionOf_valve shown true
  have hread : s.read.log = s.log ++ [⟨.sent entry.sender true, some shown⟩] := by
    simp only [read, hserving, hlink, handleInbound_known hd hl]
    rfl
  have hagents : s.read.gatekeeper.agents = s.gatekeeper.agents := by
    simp only [read, hserving, hlink, Gatekeeper.inbound]
  have hmem : ⟨.sent entry.sender true, some shown⟩ ∈ s.read.log := by
    rw [hread]
    exact List.mem_append_right _ (List.mem_singleton.mpr rfl)
  obtain ⟨displayed, task, hdisplayed, htask, _, hcommand⟩ := hall _ hmem entry.sender rfl
  have hagent := (s.gatekeeper.known hl).2
  have hsame : s.read.gatekeeper.agents[entry.sender]? = some task := htask
  rw [hagents, hagent, Option.some.injEq] at hsame
  rw [← Option.some.inj hdisplayed, ← hsame] at hcommand
  exact hother hcommand.symm

/-- The lines before the approval decide other tasks. -/
theorem misleads_of_reading (hserving : s.serving = some ⟨link, []⟩)
    (hlink : s.links[link]? = some lines) (hopen : v ∈ openApprovals lines)
    (hr : s.Replaced v) : s.Misleads := by
  induction lines generalizing s with
  | nil => simp [openApprovals] at hopen
  | cons line lines ih =>
    rcases List.mem_append.mp hopen with hhead | hlater
    · obtain ⟨shown, rfl, rfl⟩ := approval_eq_some (Option.mem_toList.mp hhead)
      exact misleads_of_head hserving hlink hr
    · obtain ⟨hmem, hd⟩ := List.mem_filter.mp hlater
      have hplace : link < s.links.length := (List.getElem?_eq_some_iff.mp hlink).1
      have hnext : s.read.serving = some ⟨link, []⟩ ∧ s.read.links[link]? = some lines ∧
          s.read.gatekeeper = s.gatekeeper.inbound line := by
        simp only [read, hserving, hlink]
        exact ⟨trivial, by simp [hplace], trivial⟩
      obtain ⟨hserving', hlink', hgate⟩ := hnext
      apply misleads_of_step .read rfl
      apply ih hserving' hlink' hmem
      obtain ⟨entry, hl, hother⟩ := hr
      refine ⟨entry, ?_, hother⟩
      show s.read.gatekeeper.tasks.pending.lookup v.1 = some entry
      rw [hgate, lookup_inbound_of_not_decides (by simpa using hd), hl]

theorem misleads_of_serving (hserving : s.serving = some ⟨link, todo⟩)
    (hlink : s.links[link]? = some lines) (hopen : v ∈ openApprovals lines)
    (hr : s.Replaced v) : s.Misleads := by
  induction todo generalizing s with
  | nil => exact misleads_of_reading hserving hlink hopen hr
  | cons task todo ih =>
    have hnext : s.advertise.serving = some ⟨link, todo⟩ ∧ s.advertise.links = s.links ∧
        s.advertise.gatekeeper = s.gatekeeper := by
      simp only [advertise, hserving]
      exact ⟨trivial, trivial, trivial⟩
    obtain ⟨hserving', hlinks, hgate⟩ := hnext
    apply misleads_of_step .advertise rfl
    apply ih hserving'
    · show s.advertise.links[link]? = some lines
      rw [hlinks, hlink]
    · show s.advertise.Replaced v
      rw [Replaced, hgate]
      exact hr

theorem exists_accept (hserving : s.serving = none) (hlt : s.accepted < s.links.length) :
    ∃ order todo, s.accept order =
      { s with serving := some ⟨s.accepted, todo⟩, accepted := s.accepted + 1 } := by
  let order := s.gatekeeper.tasks.pending.keys.toList
  refine ⟨order, s.pendingTasks order, ?_⟩
  rw [accept, if_pos ⟨hserving, hlt, Finset.nodup_toList _, Finset.toList_toFinset _⟩]

/-- The connections before the one with the approval are accepted and given up. -/
theorem misleads_of_written (hserving : s.serving = none) (hle : s.accepted ≤ link)
    (hlink : s.links[link]? = some lines) (hopen : v ∈ openApprovals lines)
    (hr : s.Replaced v) : s.Misleads := by
  have hplace : link < s.links.length := (List.getElem?_eq_some_iff.mp hlink).1
  obtain ⟨waiting, hwaiting⟩ := Nat.exists_eq_add_of_le hle
  induction waiting generalizing s with
  | zero =>
    obtain ⟨order, todo, haccept⟩ := exists_accept hserving (by omega)
    apply misleads_of_step (.accept order) rfl
    show (s.accept order).Misleads
    rw [haccept]
    have hhere : s.accepted = link := by omega
    exact misleads_of_serving (s := { s with serving := _, accepted := _ }) rfl (hhere ▸ hlink)
      hopen hr
  | succ waiting ih =>
    obtain ⟨order, todo, haccept⟩ := exists_accept hserving (by omega)
    apply misleads_of_step (.accept order) rfl
    show (s.accept order).Misleads
    rw [haccept]
    apply misleads_of_step .finish rfl
    have hne : s.accepted ≠ link := by omega
    have hkept : (s.links.set s.accepted [])[link]? = some lines := by
      rw [List.getElem?_set_ne hne, hlink]
    apply ih
    · rfl
    · show s.accepted + 1 ≤ link
      omega
    · exact hkept
    · exact hr
    · show link < (s.links.set s.accepted []).length
      rw [List.length_set]
      exact hplace
    · show link = s.accepted + 1 + waiting
      omega

/-- The lines before the approval are lost, each with its connection. -/
theorem misleads_of_linked_out (hserving : s.serving = none) (hlinked : s.linked = none)
    (hle : s.accepted ≤ s.links.length) (hout : ∃ line ∈ s.rxOutbound, line.approval = some v)
    (hr : s.Replaced v) : s.Misleads := by
  obtain ⟨line, hmem, hv⟩ := hout
  generalize hout : s.rxOutbound = out at hmem
  induction out generalizing s with
  | nil => simp at hmem
  | cons first out ih =>
    have hconnect : s.connect =
        { s with linked := some s.links.length, toUi := [], links := s.links ++ [[]] } := by
      simp only [connect, hlinked]
    apply misleads_of_step .connect rfl
    show s.connect.Misleads
    rw [hconnect]
    by_cases hfirst : first.approval = some v
    · apply misleads_of_step .send rfl
      have hsend : send
          { s with linked := some s.links.length, toUi := [], links := s.links ++ [[]] } =
          { s with
            linked := some s.links.length
            toUi := []
            rxOutbound := out
            links := (s.links ++ [[]]).set s.links.length [first] } := by
        simp [send, hout, isOpen, hle]
      show (send _).Misleads
      rw [hsend]
      have hfront : v ∈ openApprovals [first] := mem_openApprovals_head hfirst
      refine misleads_of_written hserving hle ?_ hfront hr
      simp
    · apply misleads_of_step .lose rfl
      have hlose : lose
          { s with linked := some s.links.length, toUi := [], links := s.links ++ [[]] } =
          { s with linked := none, toUi := [], rxOutbound := out, links := s.links ++ [[]] } := by
        simp [lose, hangUp, hout]
      show (lose _).Misleads
      rw [hlose]
      have hlater : line ∈ out := by
        rcases List.mem_cons.mp hmem with rfl | hlater
        · exact absurd hv hfirst
        · exact hlater
      have hgrown : s.accepted ≤ (s.links ++ [[]]).length := by
        rw [List.length_append]
        omega
      exact ih hserving rfl hgrown hr rfl hlater

theorem misleads_of_clicked (hserving : s.serving = none) (hle : s.accepted ≤ s.links.length)
    (hclicked : ∃ line ∈ s.rxOutbound, line.approval = some v) (hr : s.Replaced v) :
    s.Misleads := by
  apply misleads_of_step .hangUp rfl
  exact misleads_of_linked_out hserving rfl hle hclicked hr

theorem misleads_of_shown (hserving : s.serving = none) (hle : s.accepted ≤ s.links.length)
    (hshown : shown ∈ s.app.pendingTasks) (hr : s.Replaced (shown.taskId, shown.command)) :
    s.Misleads := by
  apply misleads_of_step (.click shown.taskId true) rfl
  have hclick : s.click shown.taskId true =
      { s with
        app := (s.app.renderControlCenter shown true).2
        rxOutbound := s.rxOutbound ++ [.valve shown true] } := by
    simp only [click, DashboardApp.find?_pendingTasks hshown]
  show (s.click shown.taskId true).Misleads
  rw [hclick]
  have hclicked : .valve shown true ∈ s.rxOutbound ++ [.valve shown true] :=
    List.mem_append_right _ (List.mem_singleton.mpr rfl)
  exact misleads_of_clicked hserving hle ⟨_, hclicked, rfl⟩ hr

theorem misleads_of_next (hserving : s.serving = none) (hle : s.accepted ≤ s.links.length)
    {rest : List GatekeeperEvent} (hrx : s.rx = .taskPending shown :: rest)
    (hnew : ∀ task ∈ s.app.pendingTasks, task.taskId ≠ shown.taskId)
    (hr : s.Replaced (shown.taskId, shown.command)) : s.Misleads := by
  apply misleads_of_step .update rfl
  have hupdate : s.update = { s with rx := rest, app := s.app.update (.taskPending shown) } := by
    simp only [update, hrx]
  show s.update.Misleads
  rw [hupdate]
  exact misleads_of_shown hserving hle (DashboardApp.mem_update_new hnew) hr

/-- A task of the id that is on show is another one, or is rejected to make room. -/
theorem misleads_of_passed (hserving : s.serving = none) (hle : s.accepted ≤ s.links.length)
    (hpassed : ∃ event ∈ s.rx, event.view = some v) (hr : s.Replaced v) : s.Misleads := by
  obtain ⟨event, hmem, hv⟩ := hpassed
  generalize hrx : s.rx = queue at hmem
  induction queue generalizing s with
  | nil => simp at hmem
  | cons first rest ih =>
    by_cases hfirst : first.view = some v
    · obtain ⟨shown, rfl, rfl⟩ := view_eq_some hfirst
      by_cases hold : ∃ task ∈ s.app.pendingTasks, task.taskId = shown.taskId
      · obtain ⟨task, htask, hid⟩ := hold
        obtain ⟨entry, hl, hother⟩ := hr
        by_cases hcommand : entry.info.command = task.command
        · apply misleads_of_step (.click task.taskId false) rfl
          have hclick : s.click task.taskId false =
              { s with
                app := s.app.retainOthers task.taskId
                rxOutbound := s.rxOutbound ++ [.valve task false] } := by
            simp only [click, DashboardApp.find?_pendingTasks htask]
            rfl
          show (s.click task.taskId false).Misleads
          rw [hclick]
          refine misleads_of_next hserving hle hrx ?_ ⟨entry, hl, hother⟩
          intro other hother'
          rw [← hid]
          exact DashboardApp.ne_of_mem_retainOthers hother'
        · have hl' : s.gatekeeper.tasks.pending.lookup task.taskId = some entry := by
            rw [hid]
            exact hl
          exact misleads_of_shown hserving hle htask ⟨entry, hl', hcommand⟩
      · exact misleads_of_next hserving hle hrx (fun task htask hid => hold ⟨task, htask, hid⟩) hr
    · apply misleads_of_step .update rfl
      have hupdate : s.update = { s with rx := rest, app := s.app.update first } := by
        simp only [update, hrx]
      show s.update.Misleads
      rw [hupdate]
      have hlater : event ∈ rest := by
        rcases List.mem_cons.mp hmem with rfl | hlater
        · exact absurd hv hfirst
        · exact hlater
      exact ih hserving hle hr rfl hlater

theorem misleads_of_sent (hserving : s.serving = none) (hle : s.accepted ≤ s.links.length)
    (hsent : ∃ line ∈ s.toUi, lineView line = some v) (hr : s.Replaced v) : s.Misleads := by
  obtain ⟨line, hmem, hv⟩ := hsent
  generalize hui : s.toUi = queue at hmem
  induction queue generalizing s with
  | nil => simp at hmem
  | cons first rest ih =>
    apply misleads_of_step .receive rfl
    have hreceive : s.receive =
        { s with toUi := rest, rx := s.rx ++ (GatekeeperEvent.fromDocument first).toList } := by
      simp only [receive, hui]
    show s.receive.Misleads
    rw [hreceive]
    rcases List.mem_cons.mp hmem with rfl | hlater
    · obtain ⟨event, hevent, hview⟩ := Option.bind_eq_some_iff.mp hv
      have hpassed : event ∈ s.rx ++ (GatekeeperEvent.fromDocument line).toList :=
        List.mem_append_right _ (Option.mem_toList.mpr hevent)
      exact misleads_of_passed hserving hle ⟨event, hpassed, hview⟩ hr
    · exact ih hserving hle hr rfl hlater

/-- A connection that the daemon is done with has no lines left. -/
structure Wired (s : System) : Prop where
  accepted_le : s.accepted ≤ s.links.length
  dead : ∀ {link lines}, s.isOpen link = false → s.links[link]? = some lines → lines = []

theorem isOpen_eq_false_iff :
    s.isOpen link = false ↔ link < s.accepted ∧ ∀ serving ∈ s.serving, serving.link ≠ link := by
  cases hserving : s.serving with
  | none => simp [isOpen, hserving]
  | some serving => simp [isOpen, hserving]

theorem Wired.of_same {s' : System} (h : s.Wired) (haccepted : s'.accepted = s.accepted)
    (hserving : s'.serving.map Serving.link = s.serving.map Serving.link)
    (hlinks : s'.links = s.links) : s'.Wired := by
  constructor
  · rw [haccepted, hlinks]
    exact h.accepted_le
  · intro link lines hclosed hlink
    obtain ⟨hlt, hother⟩ := isOpen_eq_false_iff.mp hclosed
    rw [haccepted] at hlt
    rw [hlinks] at hlink
    refine h.dead (isOpen_eq_false_iff.mpr ⟨hlt, ?_⟩) hlink
    intro serving hmem hhere
    have hmap : s'.serving.map Serving.link = some link := by
      rw [hserving, Option.mem_def.mp hmem, Option.map_some, hhere]
    obtain ⟨serving', hmem', hhere'⟩ := Option.map_eq_some_iff.mp hmap
    exact hother serving' hmem' hhere'

/-- Lines change on a connection that is open, or is emptied. -/
theorem Wired.of_set {s' : System} (h : s.Wired) (haccepted : s'.accepted = s.accepted)
    (hlinks : s'.links = s.links.set link lines) (hlines : s'.isOpen link = true ∨ lines = [])
    (hclosed : ∀ other, other ≠ link → s'.isOpen other = false → s.isOpen other = false) :
    s'.Wired := by
  constructor
  · rw [haccepted, hlinks, List.length_set]
    exact h.accepted_le
  · intro other lines' hother hlink
    rw [hlinks] at hlink
    by_cases hsame : other = link
    · subst hsame
      rcases hlines with hopen | hempty
      · rw [hopen] at hother
        simp at hother
      · have hplace : other < (s.links.set other lines).length :=
          (List.getElem?_eq_some_iff.mp hlink).1
        rw [List.length_set] at hplace
        rw [List.getElem?_set_self hplace, Option.some.injEq] at hlink
        rw [← hlink, hempty]
    · rw [List.getElem?_set_ne (Ne.symm hsame)] at hlink
      exact h.dead (hclosed other hsame hother) hlink

/-- A connection that is made is not accepted yet. -/
theorem wired_connect (h : s.Wired) : s.connect.Wired := by
  unfold connect
  split
  · exact h
  · have hle := h.accepted_le
    constructor
    · show s.accepted ≤ (s.links ++ [[]]).length
      rw [List.length_append]
      omega
    · intro link lines hclosed hlink
      have hlt : link < s.accepted := (isOpen_eq_false_iff.mp hclosed).1
      have hold : s.links[link]? = some lines := by
        rwa [List.getElem?_append_left (by omega)] at hlink
      exact h.dead hclosed hold

/-- What is closed once a connection is accepted was closed before. -/
theorem wired_accept {order : List String} (h : s.Wired) : (s.accept order).Wired := by
  unfold accept
  split
  · rename_i haccept
    obtain ⟨hserving, hlt, _⟩ := haccept
    constructor
    · exact hlt
    · intro link lines hclosed hlink
      obtain ⟨hbefore, hother⟩ := isOpen_eq_false_iff.mp hclosed
      have hne : s.accepted ≠ link := hother _ rfl
      have hbefore' : link < s.accepted + 1 := hbefore
      have hdead : s.isOpen link = false := by
        apply isOpen_eq_false_iff.mpr
        exact ⟨by omega, by simp [hserving]⟩
      exact h.dead hdead hlink
  · exact h

theorem wired_advertise (h : s.Wired) : s.advertise.Wired := by
  unfold advertise
  split
  · rename_i hserving
    refine h.of_same rfl ?_ rfl
    rw [hserving]
    rfl
  · exact h

theorem wired_read (h : s.Wired) : s.read.Wired := by
  unfold read
  split
  · rename_i link hserving
    split
    · refine h.of_set rfl rfl (Or.inl ?_) fun _ _ hclosed => hclosed
      simp [isOpen, hserving]
    · exact h
  · exact h

/-- The connection that is closed is emptied. -/
theorem wired_finish (h : s.Wired) : s.finish.Wired := by
  unfold finish
  split
  · rename_i link todo hserving
    refine h.of_set rfl rfl (Or.inr rfl) ?_
    intro other hne hclosed
    have hlt : other < s.accepted := (isOpen_eq_false_iff.mp hclosed).1
    apply isOpen_eq_false_iff.mpr
    exact ⟨hlt, by simp [hserving, Ne.symm hne]⟩
  · exact h

theorem wired_send (h : s.Wired) : s.send.Wired := by
  unfold send
  split
  · split
    · split
      · rename_i hopen
        exact h.of_set rfl rfl (Or.inl hopen) fun _ _ hclosed => hclosed
      · exact h
    · exact h
  · exact h

/-- The other steps leave the connections alone. -/
theorem Wired.step (h : s.Wired) (action : Action) : (s.step action).Wired := by
  cases action with
  | register task =>
    simp only [System.step, register]
    split
    · exact h
    · exact h.of_same rfl rfl rfl
  | connect => exact wired_connect h
  | accept order => exact wired_accept h
  | advertise => exact wired_advertise h
  | read => exact wired_read h
  | finish => exact wired_finish h
  | receive =>
    simp only [System.step, receive]
    split
    · exact h.of_same rfl rfl rfl
    · exact h
  | update =>
    simp only [System.step, update]
    split
    · exact h.of_same rfl rfl rfl
    · exact h
  | click taskId approved =>
    simp only [System.step, click]
    split
    · exact h.of_same rfl rfl rfl
    · exact h
  | control event =>
    simp only [System.step, control]
    split
    · exact h.of_same rfl rfl rfl
    · exact h
  | send => exact wired_send h
  | lose =>
    simp only [System.step, lose]
    split
    · exact h.of_same rfl rfl rfl
    · exact h
  | hangUp => exact h.of_same rfl rfl rfl

theorem wired_new : new.Wired := by
  constructor
  · exact le_rfl
  · intro link lines _ hlink
    simp [new] at hlink

/-- Whatever is in view with another command can be approved and delivered. -/
theorem misleads_of_inView (hw : s.Wired) (hserving : s.serving = none) (hv : v ∈ s.inView)
    (hr : s.Replaced v) : s.Misleads := by
  have hle := hw.accepted_le
  rcases mem_inView.mp hv with ⟨shown, hshown, rfl⟩ | hp | hn | ⟨task, htask, _⟩ | hc |
    ⟨lines, hlines, hopen⟩
  · exact misleads_of_shown hserving hle hshown hr
  · exact misleads_of_passed hserving hle hp hr
  · exact misleads_of_sent hserving hle hn hr
  · simp [System.todo, hserving] at htask
  · exact misleads_of_clicked hserving hle hc hr
  · obtain ⟨link, hlink⟩ := List.mem_iff_getElem?.mp hlines
    have halive : s.accepted ≤ link := by
      by_contra hlt
      have hclosed : s.isOpen link = false := by
        apply isOpen_eq_false_iff.mpr
        exact ⟨by omega, by simp [hserving]⟩
      rw [hw.dead hclosed hlink] at hopen
      simp [openApprovals] at hopen
    exact misleads_of_written hserving halive hlink hopen hr

/-- A task that is registered while another command is in view for its id can get the approval that
the owner gives to that command. -/
theorem misleads_of_not_settled {action : Action} (hw : s.Wired) (h : ¬s.Settled action) :
    (s.step action).Misleads := by
  simp only [Settled, not_forall] at h
  obtain ⟨task, hregisters, hserving, v, hv, hid, hother⟩ := h
  cases action with
  | register task' =>
    obtain rfl : task' = task := Option.some.inj hregisters
    have hstep : s.step (.register task') =
        { s with
          gatekeeper := s.gatekeeper.register task'
          log := (s.step (.register task')).log } := by
      simp only [System.step, register, hserving]
    have hw' := hw.step (.register task')
    rw [hstep] at hw' ⊢
    refine misleads_of_inView hw' hserving (v := v) ?_ ?_
    · exact hv
    · refine ⟨⟨task', s.gatekeeper.agents.length⟩, ?_, fun h => hother h.symm⟩
      show (s.gatekeeper.register task').tasks.pending.lookup v.1 = _
      rw [Gatekeeper.lookup_register, if_pos hid]
  | _ => simp [Action.registers] at hregisters

/-- In a run whose registrations are settled, what the owner approves is what the agent runs. After
one that is not, an approval can go to the agent of another command. -/
theorem approvedAsShown_settled_exact (actions : List Action) :
    (Runs.Along step Settled new actions → (Runs.run step new actions).ApprovedAsShown) ∧
      ∀ action, ¬(Runs.run step new actions).Settled action →
        ((Runs.run step new actions).step action).Misleads := by
  constructor
  · intro h
    exact (sound_run h).delivered
  · intro action h
    have hw : (Runs.run step new actions).Wired :=
      Runs.run_forall (fun _ action hw => hw.step action) wired_new actions
    exact misleads_of_not_settled hw h

end System

/-- A UI connects, is advertised the one pending task and shows it. -/
def showTask : List Action := [.connect, .accept ["task-1"], .advertise, .receive, .update]

def terminalTask (command : String) : PendingTask :=
  ⟨"task-1", "org.gnome.Terminal", command, "HIGH", true, []⟩

/-- An id that is used again, once with the command that is still on show, once with another after
its task was decided. -/
def reusedRun : List Action :=
  List.flatten
    [[.register (terminalTask "git status")], showTask,
      [.finish, .hangUp, .register (terminalTask "git status")], showTask,
      [.click "task-1" true, .send, .read, .finish, .hangUp],
      [.register (terminalTask "git push")], showTask, [.click "task-1" true, .send, .read]]

theorem System.approvedAsShown_settled_exact_reused :
    Runs.Along System.step System.Settled System.new reusedRun ∧
      (Runs.run System.step System.new reusedRun).ApprovedAsShown := by
  have hsettled : Runs.Along System.step System.Settled System.new reusedRun := by decide +kernel
  exact ⟨hsettled, (System.approvedAsShown_settled_exact reusedRun).1 hsettled⟩

/-- An id that is used again with another command while the dashboard shows the first. -/
def replacedRun : List Action :=
  List.flatten
    [[.register (terminalTask "git status")], showTask,
      [.finish, .hangUp, .register (terminalTask "rm -rf /home")], showTask,
      [.click "task-1" true, .send, .read]]

/-- The dashboard keeps the task it shows, and the agent of the other gets the approval. -/
theorem System.approved_other_command :
    ¬∀ actions, (Runs.run System.step System.new actions).ApprovedAsShown := by
  intro h
  have hmem : ⟨.sent 1 true, some (terminalTask "git status").shown⟩ ∈
      (Runs.run System.step System.new replacedRun).log := by decide +kernel
  have hagent : (Runs.run System.step System.new replacedRun).gatekeeper.agents[1]? =
      some (terminalTask "rm -rf /home") := by decide +kernel
  obtain ⟨shown, task, hdisplayed, htask, _, hcommand⟩ := h replacedRun _ hmem 1 rfl
  rw [hagent, Option.some.injEq] at htask
  rw [← Option.some.inj hdisplayed, ← htask] at hcommand
  exact absurd hcommand (by decide)

end AiBridge
