import AiBridge.ActiveTasks
import AiBridge.SerdeJson

namespace AiBridge

namespace ActiveTasks

variable {self : ActiveTasks} {taskId id : String} {entry : TaskEntry}

theorem lookup_remove_self : (self.remove taskId).pending.lookup taskId = none :=
  Finmap.lookup_erase taskId self.pending

theorem lookup_remove_of_ne (h : id ≠ taskId) :
    (self.remove taskId).pending.lookup id = self.pending.lookup id :=
  Finmap.lookup_erase_ne h

theorem lookup_of_lookup_remove (h : (self.remove taskId).pending.lookup id = some entry) :
    id ≠ taskId ∧ self.pending.lookup id = some entry := by
  have hne : id ≠ taskId := by
    rintro rfl
    rw [lookup_remove_self] at h
    simp at h
  rw [lookup_remove_of_ne hne] at h
  exact ⟨hne, h⟩

theorem Holds.of_remove {tx : Sender} (h : (self.remove taskId).Holds tx) : self.Holds tx := by
  obtain ⟨id, entry, hl, hs⟩ := h
  exact ⟨id, entry, (lookup_of_lookup_remove hl).2, hs⟩

/-- A sender leaves the registry with its entry. -/
theorem not_holds_remove (h : self.pending.lookup taskId = some entry) :
    ¬(self.remove taskId).Holds entry.sender := by
  rintro ⟨id, other, hl, hsame⟩
  obtain ⟨hne, hkept⟩ := lookup_of_lookup_remove hl
  exact hne (self.owned hkept h hsame)

end ActiveTasks

def onChannel (tx : Sender) (events : List ChannelEvent) : List ChannelEvent :=
  events.filter fun event => event.sender = tx

/-- What an agent can find on its channel after the events: a value that was sent to it, and a
sender dropped or still held only where no value was sent. -/
def Finds (events : List ChannelEvent) (tx : Sender) : Reply → Prop
  | .value approved _ => .sent tx approved ∈ events
  | .dropped _ => ∀ approved, .sent tx approved ∉ events
  | .silent => ∀ approved, .sent tx approved ∉ events

theorem onChannel_append (tx : Sender) (events later : List ChannelEvent) :
    onChannel tx (events ++ later) = onChannel tx events ++ onChannel tx later :=
  List.filter_append events later

theorem onChannel_eq_nil {tx : Sender} {events : List ChannelEvent}
    (h : ∀ event ∈ events, event.sender ≠ tx) : onChannel tx events = [] := by
  apply List.filter_eq_nil_iff.mpr
  intro event hmem
  simpa using h event hmem

theorem sent_mem_iff_onChannel {tx : Sender} {approved : Bool} {events : List ChannelEvent} :
    .sent tx approved ∈ events ↔ .sent tx approved ∈ onChannel tx events := by
  simp [onChannel, ChannelEvent.sender]

section Session

variable {Line : Type} {fromStr : Line → Option Json} {line : Line} {lines : List Line}
variable {active : ActiveTasks} {id : String} {entry : TaskEntry}

/-- The approval of the first line that decides the task. -/
def firstDecision (fromStr : Line → Option Json) (id : String) (lines : List Line) : Option Bool :=
  lines.findSome? fun line =>
    (decisionOf fromStr line).bind fun resolved =>
      if resolved.taskId = id then some resolved.approved else none

theorem firstDecision_named {approved : Bool} (h : decisionOf fromStr line = some ⟨id, approved⟩) :
    firstDecision fromStr id (line :: lines) = some approved := by
  simp [firstDecision, h]

theorem firstDecision_elsewhere (hno : ∀ approved, decisionOf fromStr line ≠ some ⟨id, approved⟩) :
    firstDecision fromStr id (line :: lines) = firstDecision fromStr id lines := by
  cases hd : decisionOf fromStr line with
  | none => simp [firstDecision, hd]
  | some resolved =>
    have hid : resolved.taskId ≠ id := by
      rintro rfl
      exact hno resolved.approved hd
    simp [firstDecision, hd, hid]

theorem handleInbound_malformed (h : decisionOf fromStr line = none) :
    handleInbound fromStr line active = (.error (), active, []) := by
  simp only [handleInbound, h]

theorem handleInbound_unknown {resolved : TaskResolved} (h : decisionOf fromStr line = some resolved)
    (hl : active.pending.lookup resolved.taskId = none) :
    handleInbound fromStr line active = (.ok (some resolved.taskId), active, []) := by
  simp only [handleInbound, h, ActiveTasks.resolve, hl]

theorem handleInbound_known {resolved : TaskResolved} (h : decisionOf fromStr line = some resolved)
    (hl : active.pending.lookup resolved.taskId = some entry) :
    handleInbound fromStr line active =
      (.ok (some resolved.taskId), active.remove resolved.taskId,
        [.sent entry.sender resolved.approved]) := by
  simp only [handleInbound, h, ActiveTasks.resolve, hl]

/-- A line leaves the registry alone, or takes out the task it names and sends to its agent. -/
theorem handleInbound_cases (line : Line) (active : ActiveTasks) :
    (handleInbound fromStr line active).2 = (active, []) ∨
      ∃ resolved entry, decisionOf fromStr line = some resolved ∧
        active.pending.lookup resolved.taskId = some entry ∧
        (handleInbound fromStr line active).2 =
          (active.remove resolved.taskId, [.sent entry.sender resolved.approved]) := by
  cases hd : decisionOf fromStr line with
  | none => exact Or.inl (by rw [handleInbound_malformed hd])
  | some resolved =>
    cases hl : active.pending.lookup resolved.taskId with
    | none => exact Or.inl (by rw [handleInbound_unknown hd hl])
    | some entry => exact Or.inr ⟨resolved, entry, rfl, hl, by rw [handleInbound_known hd hl]⟩

theorem lookup_of_lookup_handleInbound
    (h : (handleInbound fromStr line active).2.1.pending.lookup id = some entry) :
    active.pending.lookup id = some entry := by
  rcases handleInbound_cases line active with hstep | ⟨resolved, other, hd, ho, hstep⟩
  · rwa [hstep] at h
  · rw [hstep] at h
    exact (ActiveTasks.lookup_of_lookup_remove h).2

theorem inboundLoop_cons (line : Line) (lines : List Line) (active : ActiveTasks) :
    (inboundLoop fromStr (line :: lines) active).2 =
      ((inboundLoop fromStr lines (handleInbound fromStr line active).2.1).2.1,
        (handleInbound fromStr line active).2.2 ++
          (inboundLoop fromStr lines (handleInbound fromStr line active).2.1).2.2) := by
  rw [inboundLoop]
  rcases handleInbound fromStr line active with ⟨result, next, events⟩
  cases result with
  | error e => rfl
  | ok named =>
    cases named with
    | none => rfl
    | some taskId => rfl

/-- The loop writes only to channels of pending tasks, and only values. -/
theorem inboundLoop_events {event : ChannelEvent}
    (h : event ∈ (inboundLoop fromStr lines active).2.2) :
    ∃ tx approved, active.Holds tx ∧ event = .sent tx approved := by
  induction lines generalizing active with
  | nil => simp [inboundLoop] at h
  | cons line lines ih =>
    rw [inboundLoop_cons] at h
    rcases handleInbound_cases line active with hstep | ⟨resolved, entry, hd, hl, hstep⟩
    · rw [hstep] at h
      exact ih (by simpa using h)
    · rw [hstep] at h
      rcases List.mem_append.mp h with hhere | hlater
      · have heq : event = .sent entry.sender resolved.approved := by simpa using hhere
        exact ⟨entry.sender, resolved.approved, ⟨_, entry, hl, rfl⟩, heq⟩
      · obtain ⟨tx, approved, hheld, heq⟩ := ih hlater
        exact ⟨tx, approved, hheld.of_remove, heq⟩

theorem onChannel_inboundLoop_of_not_holds {tx : Sender} (h : ¬active.Holds tx) :
    onChannel tx (inboundLoop fromStr lines active).2.2 = [] := by
  apply onChannel_eq_nil
  intro event hmem hsame
  obtain ⟨tx', approved, hheld, rfl⟩ := inboundLoop_events hmem
  have heq : tx' = tx := hsame
  exact h (heq ▸ hheld)

theorem lookup_inboundLoop_of_none (h : active.pending.lookup id = none) :
    (inboundLoop fromStr lines active).2.1.pending.lookup id = none := by
  induction lines generalizing active with
  | nil => exact h
  | cons line lines ih =>
    rw [inboundLoop_cons]
    rcases handleInbound_cases line active with hstep | ⟨resolved, entry, hd, hl, hstep⟩
    · rw [hstep]
      exact ih h
    · rw [hstep]
      apply ih
      have hne : id ≠ resolved.taskId := by
        rintro rfl
        rw [h] at hl
        simp at hl
      rw [ActiveTasks.lookup_remove_of_ne hne, h]

/-- A line that does not decide a pending task leaves its entry and its channel alone. -/
theorem handleInbound_elsewhere (hl : active.pending.lookup id = some entry)
    (hno : ∀ approved, decisionOf fromStr line ≠ some ⟨id, approved⟩) :
    (handleInbound fromStr line active).2.1.pending.lookup id = some entry ∧
      onChannel entry.sender (handleInbound fromStr line active).2.2 = [] := by
  rcases handleInbound_cases line active with hstep | ⟨resolved, other, hd, ho, hstep⟩
  · rw [hstep]
    exact ⟨hl, rfl⟩
  · rw [hstep]
    have hid : resolved.taskId ≠ id := by
      rintro rfl
      exact hno resolved.approved hd
    have hkept : (active.remove resolved.taskId).pending.lookup id = some entry := by
      rw [ActiveTasks.lookup_remove_of_ne (Ne.symm hid), hl]
    have hother : other.sender ≠ entry.sender := fun h => hid (active.owned ho hl h)
    exact ⟨hkept, by simp [onChannel, ChannelEvent.sender, hother]⟩

/-- A pending task goes with the first line that decides it, and its agent is sent that decision
and nothing else. -/
theorem inboundLoop_decided {approved : Bool} (hl : active.pending.lookup id = some entry)
    (hf : firstDecision fromStr id lines = some approved) :
    (inboundLoop fromStr lines active).2.1.pending.lookup id = none ∧
      onChannel entry.sender (inboundLoop fromStr lines active).2.2 =
        [.sent entry.sender approved] := by
  induction lines generalizing active with
  | nil => simp [firstDecision] at hf
  | cons line lines ih =>
    rw [inboundLoop_cons]
    by_cases hd : ∃ approved, decisionOf fromStr line = some ⟨id, approved⟩
    · obtain ⟨first, hd⟩ := hd
      rw [firstDecision_named hd, Option.some.injEq] at hf
      have hquiet : onChannel entry.sender
          (inboundLoop fromStr lines (active.remove id)).2.2 = [] :=
        onChannel_inboundLoop_of_not_holds (ActiveTasks.not_holds_remove hl)
      rw [handleInbound_known hd hl, hf, onChannel_append, hquiet]
      refine ⟨lookup_inboundLoop_of_none ActiveTasks.lookup_remove_self, ?_⟩
      simp [onChannel, ChannelEvent.sender]
    · have hno : ∀ approved, decisionOf fromStr line ≠ some ⟨id, approved⟩ := not_exists.mp hd
      rw [firstDecision_elsewhere hno] at hf
      obtain ⟨hkept, hquiet⟩ := handleInbound_elsewhere hl hno
      obtain ⟨hgone, hchannel⟩ := ih hkept hf
      refine ⟨hgone, ?_⟩
      rw [onChannel_append, hquiet, hchannel]
      rfl

theorem inboundLoop_undecided (hl : active.pending.lookup id = some entry)
    (hf : firstDecision fromStr id lines = none) :
    (inboundLoop fromStr lines active).2.1.pending.lookup id = some entry ∧
      onChannel entry.sender (inboundLoop fromStr lines active).2.2 = [] := by
  induction lines generalizing active with
  | nil => exact ⟨hl, rfl⟩
  | cons line lines ih =>
    rw [inboundLoop_cons]
    have hno : ∀ approved, decisionOf fromStr line ≠ some ⟨id, approved⟩ := by
      intro approved hd
      rw [firstDecision_named hd] at hf
      simp at hf
    rw [firstDecision_elsewhere hno] at hf
    obtain ⟨hkept, hquiet⟩ := handleInbound_elsewhere hl hno
    obtain ⟨hstays, hchannel⟩ := ih hkept hf
    refine ⟨hstays, ?_⟩
    rw [onChannel_append, hquiet, hchannel]
    rfl

/-- The loop does not see the lines that are no decision. -/
theorem inboundLoop_filter (lines : List Line) (active : ActiveTasks) :
    inboundLoop fromStr (lines.filter fun line => (decisionOf fromStr line).isSome) active =
      inboundLoop fromStr lines active := by
  induction lines generalizing active with
  | nil => rfl
  | cons line lines ih =>
    cases hd : decisionOf fromStr line with
    | none =>
      have hskipped : inboundLoop fromStr (line :: lines) active =
          inboundLoop fromStr lines active := by
        rw [inboundLoop, handleInbound_malformed hd]
        rfl
      rw [List.filter_cons_of_neg (by simp [hd]), hskipped, ih]
    | some resolved =>
      rw [List.filter_cons_of_pos (by simp [hd])]
      simp only [inboundLoop, ih]

theorem serveUiSession_eq (fromStr : Line → Option Json) (connection : UiConnection Line)
    (active : ActiveTasks) :
    (serveUiSession fromStr connection active).tasks =
        (inboundLoop fromStr connection.received active).2.1 ∧
      (serveUiSession fromStr connection active).events =
        (inboundLoop fromStr connection.received active).2.2 := by
  cases h : connection.advertised with
  | error e => simp [serveUiSession, UiConnection.received, h, inboundLoop]
  | ok done => simp [serveUiSession, UiConnection.received, h]

end Session

/-- An agent of a critical task gets an approval only from a value on its channel. -/
theorem awaitDecision_critical_iff {env : Env} {reply : Reply} :
    awaitDecision env reply false = .returns true ↔ ∃ elapsed, reply = .value true elapsed := by
  have hwaits : evaluateTimeout env false (gatekeeperTimeout env) = .awaitingHuman := by
    simp [evaluateTimeout]
  cases reply with
  | value approved elapsed => simp [awaitDecision, hwaits]
  | dropped elapsed => simp [awaitDecision, hwaits]
  | silent => simp [awaitDecision, hwaits]

/-- A session delivers to the agent of each pending task the approval of the first line that
decides the task, and nothing where no line does. -/
theorem serveUiSession_delivers (serde : SerdeJson) (connection : UiConnection String)
    (active : ActiveTasks) :
    (∀ id entry, active.pending.lookup id = some entry →
      (∀ approved, firstDecision serde.fromStr id connection.received = some approved →
        (serveUiSession serde.fromStr connection active).tasks.pending.lookup id = none ∧
        onChannel entry.sender (serveUiSession serde.fromStr connection active).events =
          [.sent entry.sender approved]) ∧
      (firstDecision serde.fromStr id connection.received = none →
        (serveUiSession serde.fromStr connection active).tasks.pending.lookup id = some entry ∧
        onChannel entry.sender (serveUiSession serde.fromStr connection active).events = []) ∧
      ∀ env reply,
        Finds (serveUiSession serde.fromStr connection active).events entry.sender reply →
          (awaitDecision env reply false = .returns true →
            firstDecision serde.fromStr id connection.received = some true)) ∧
    (∀ id, active.pending.lookup id = none →
      (serveUiSession serde.fromStr connection active).tasks.pending.lookup id = none) ∧
    (∀ event ∈ (serveUiSession serde.fromStr connection active).events,
      ∃ tx approved, active.Holds tx ∧ event = .sent tx approved) ∧
    serveUiSession serde.fromStr
        { connection with
          lines := connection.lines.filter fun line => (decisionOf serde.fromStr line).isSome }
        active =
      serveUiSession serde.fromStr connection active := by
  obtain ⟨htasks, hevents⟩ := serveUiSession_eq serde.fromStr connection active
  refine ⟨?_, ?_, ?_, ?_⟩
  · intro id entry hl
    rw [htasks, hevents]
    refine ⟨fun approved hf => inboundLoop_decided hl hf, fun hf => inboundLoop_undecided hl hf, ?_⟩
    intro env reply hfinds hreturns
    obtain ⟨elapsed, rfl⟩ := awaitDecision_critical_iff.mp hreturns
    have hsent := sent_mem_iff_onChannel.mp hfinds
    cases hf : firstDecision serde.fromStr id connection.received with
    | none =>
      rw [(inboundLoop_undecided hl hf).2] at hsent
      simp at hsent
    | some approved =>
      rw [(inboundLoop_decided hl hf).2] at hsent
      have heq : true = approved := by simpa using hsent
      rw [heq]
  · intro id hl
    rw [htasks]
    exact lookup_inboundLoop_of_none hl
  · intro event hmem
    rw [hevents] at hmem
    exact inboundLoop_events hmem
  · simp only [serveUiSession, inboundLoop_filter]

end AiBridge
