import AiBridge.SessionDelivery

namespace AiBridge

section Reports

variable {Line : Type} (fromStr : Line → Option Json)

/-- The ids of the decisions among the lines, in order. -/
def namedIds (lines : List Line) : List String :=
  lines.filterMap fun line => (decisionOf fromStr line).map TaskResolved.taskId

/-- If the line is a decision at all, then on a task that is pending. -/
def NamesPending (active : ActiveTasks) (line : Line) : Prop :=
  ∀ resolved, decisionOf fromStr line = some resolved →
    (active.pending.lookup resolved.taskId).isSome = true

/-- A line is reported as resolved for the id of a pending task that it decides, and no decision on
another id is. -/
structure ReportsLine (active : ActiveTasks) (line : Line) : Prop where
  resolved : ∀ id, (handleInbound fromStr line active).1 = .ok (some id) ↔
    (∃ approved, decisionOf fromStr line = some ⟨id, approved⟩) ∧
      (active.pending.lookup id).isSome = true
  unknown : ∀ id approved, decisionOf fromStr line = some ⟨id, approved⟩ →
    active.pending.lookup id = none → (handleInbound fromStr line active).1 = .ok none

/-- The list has the ids that left the registry in the session, each once, in the order of their
first decisions. -/
structure ReportsSession (connection : UiConnection Line) (active : ActiveTasks)
    (ids : List String) : Prop where
  removed : ∀ id, id ∈ ids ↔ (active.pending.lookup id).isSome = true ∧
    (serveUiSession fromStr connection active).tasks.pending.lookup id = none
  once : ids.Nodup
  ordered : ids.Pairwise fun earlier later =>
    (namedIds fromStr connection.lines).idxOf earlier <
      (namedIds fromStr connection.lines).idxOf later

variable {fromStr} {lines : List Line} {active : ActiveTasks} {id : String}

/-- A line that is no decision is not reported. -/
theorem reportsLine_of_malformed {line : Line} (hd : decisionOf fromStr line = none) :
    ReportsLine fromStr active line := by
  constructor
  · intro id
    rw [handleInbound_malformed hd]
    simp [hd]
  · intro id approved habs
    rw [hd] at habs
    simp at habs

/-- A decision on an id that is not pending is reported for that id. -/
theorem not_reportsLine_of_missing {line : Line} {resolved : TaskResolved}
    (hd : decisionOf fromStr line = some resolved)
    (hl : active.pending.lookup resolved.taskId = none) : ¬ReportsLine fromStr active line := by
  intro h
  obtain ⟨taskId, approved⟩ := resolved
  have hresult := congrArg Prod.fst (handleInbound_unknown hd hl)
  have hreported := h.unknown taskId approved hd hl
  rw [hresult] at hreported
  simp at hreported

theorem reportsLine_of_pending {line : Line} {resolved : TaskResolved} {entry : TaskEntry}
    (hd : decisionOf fromStr line = some resolved)
    (hl : active.pending.lookup resolved.taskId = some entry) : ReportsLine fromStr active line := by
  obtain ⟨taskId, approved⟩ := resolved
  have hresult := congrArg Prod.fst (handleInbound_known hd hl)
  constructor
  · intro id
    simp only [hresult, Except.ok.injEq, Option.some.injEq, hd, TaskResolved.mk.injEq]
    constructor
    · intro heq
      rw [← heq, hl]
      exact ⟨⟨approved, rfl, rfl⟩, rfl⟩
    · intro h
      obtain ⟨⟨_, heq, _⟩, _⟩ := h
      exact heq
  · intro id other hother hnone
    rw [hd, Option.some.injEq, TaskResolved.mk.injEq] at hother
    rw [← hother.1, hl] at hnone
    simp at hnone

theorem reportsLine_iff {line : Line} :
    ReportsLine fromStr active line ↔ NamesPending fromStr active line := by
  constructor
  · intro h resolved hd
    cases hl : active.pending.lookup resolved.taskId with
    | none => exact absurd h (not_reportsLine_of_missing hd hl)
    | some entry => rfl
  · intro h
    cases hd : decisionOf fromStr line with
    | none => exact reportsLine_of_malformed hd
    | some resolved =>
      obtain ⟨entry, hl⟩ := Option.isSome_iff_exists.mp (h resolved hd)
      exact reportsLine_of_pending hd hl

/-- The loop collects the id of every decision, pending or not. -/
theorem inboundLoop_fst (lines : List Line) (active : ActiveTasks) :
    (inboundLoop fromStr lines active).1 = namedIds fromStr lines := by
  induction lines generalizing active with
  | nil => rfl
  | cons line lines ih =>
    cases hd : decisionOf fromStr line with
    | none =>
      have hnamed : namedIds fromStr (line :: lines) = namedIds fromStr lines := by
        simp [namedIds, hd]
      rw [hnamed, ← ih active, inboundLoop, handleInbound_malformed hd]
    | some resolved =>
      have hnamed : namedIds fromStr (line :: lines) =
          resolved.taskId :: namedIds fromStr lines := by
        simp [namedIds, hd]
      rw [hnamed, inboundLoop]
      cases hl : active.pending.lookup resolved.taskId with
      | none =>
        rw [handleInbound_unknown hd hl]
        exact congrArg _ (ih active)
      | some entry =>
        rw [handleInbound_known hd hl]
        exact congrArg _ (ih _)

theorem mem_namedIds_iff : id ∈ namedIds fromStr lines ↔
    ∃ approved, firstDecision fromStr id lines = some approved := by
  induction lines with
  | nil => simp [namedIds, firstDecision]
  | cons line lines ih =>
    by_cases hd : ∃ approved, decisionOf fromStr line = some ⟨id, approved⟩
    · obtain ⟨approved, hd⟩ := hd
      rw [firstDecision_named hd]
      simp [namedIds, hd]
    · have hno : ∀ approved, decisionOf fromStr line ≠ some ⟨id, approved⟩ := not_exists.mp hd
      rw [firstDecision_elsewhere hno, ← ih, namedIds, List.filterMap_cons]
      cases hl : decisionOf fromStr line with
      | none => rfl
      | some resolved =>
        have hne : id ≠ resolved.taskId := by
          rintro rfl
          exact hno resolved.approved hl
        simp [namedIds, hne]

/-- A pending task leaves the registry exactly if some line decides it. -/
theorem lookup_inboundLoop_eq_none_iff (h : (active.pending.lookup id).isSome = true) :
    (inboundLoop fromStr lines active).2.1.pending.lookup id = none ↔
      id ∈ namedIds fromStr lines := by
  obtain ⟨entry, hl⟩ := Option.isSome_iff_exists.mp h
  rw [mem_namedIds_iff]
  cases hf : firstDecision fromStr id lines with
  | none => simp [(inboundLoop_undecided hl hf).1]
  | some approved => simp [(inboundLoop_decided hl hf).1]

theorem pairwise_idxOf {ids : List String} (h : ids.Nodup) :
    ids.Pairwise fun earlier later => ids.idxOf earlier < ids.idxOf later := by
  rw [List.pairwise_iff_getElem]
  intro i j hi hj hij
  rwa [h.idxOf_getElem, h.idxOf_getElem]

/-- A session that ends well returns the ids of its decisions. -/
theorem serveUiSession_result_iff {connection : UiConnection Line} {ids : List String} :
    (serveUiSession fromStr connection active).result = .ok ids ↔
      connection.advertised = .ok () ∧ connection.ended = .ok () ∧
        namedIds fromStr connection.lines = ids := by
  rw [serveUiSession]
  cases connection.advertised with
  | error e => simp
  | ok done =>
    simp only [inboundLoop_fst]
    cases connection.ended with
    | error e => simp [Except.map]
    | ok done => simp [Except.map]

theorem serveUiSession_tasks {connection : UiConnection Line}
    (h : connection.advertised = .ok ()) :
    (serveUiSession fromStr connection active).tasks =
      (inboundLoop fromStr connection.lines active).2.1 := by
  rw [(serveUiSession_eq fromStr connection active).1, UiConnection.received, h]

end Reports

/-- A line is reported exactly if what it decides is pending, and the list of a session is exact if
its decisions are on different tasks that are all pending when it begins. -/
theorem resolution_reports_iff (serde : SerdeJson) (active : ActiveTasks) (line : String)
    (connection : UiConnection String) :
    (ReportsLine serde.fromStr active line ↔ NamesPending serde.fromStr active line) ∧
      ((∀ ids, (serveUiSession serde.fromStr connection active).result = .ok ids →
          ReportsSession serde.fromStr connection active ids) ↔
        (connection.advertised = .ok () → connection.ended = .ok () →
          (namedIds serde.fromStr connection.lines).Nodup ∧
            ∀ id ∈ namedIds serde.fromStr connection.lines,
              (active.pending.lookup id).isSome = true)) := by
  refine ⟨reportsLine_iff, ?_⟩
  constructor
  · intro h hadvertised hended
    have hsession := h _ (serveUiSession_result_iff.mpr ⟨hadvertised, hended, rfl⟩)
    exact ⟨hsession.once, fun id hid => ((hsession.removed id).mp hid).1⟩
  · intro h ids hresult
    obtain ⟨hadvertised, hended, hids⟩ := serveUiSession_result_iff.mp hresult
    obtain ⟨honce, hpending⟩ := h hadvertised hended
    rw [← hids]
    refine ⟨?_, honce, pairwise_idxOf honce⟩
    intro id
    rw [serveUiSession_tasks hadvertised]
    constructor
    · intro hid
      exact ⟨hpending id hid, (lookup_inboundLoop_eq_none_iff (hpending id hid)).mpr hid⟩
    · intro hid
      exact (lookup_inboundLoop_eq_none_iff hid.1).mp hid.2

/-- A decision on a task that is not there is reported as resolved. -/
theorem missing_task_reported :
    let document := TaskResolved.toJson ⟨"TASK-MISSING", true⟩
    let serde := plainJson [(plainText document, document)]
    (handleInbound serde.fromStr (plainText document) .new).1 = .ok (some "TASK-MISSING") ∧
      ActiveTasks.new.pending.lookup "TASK-MISSING" = none ∧
      ¬ReportsLine serde.fromStr .new (plainText document) := by
  intro document serde
  have hdecision : decisionOf serde.fromStr (plainText document) = some ⟨"TASK-MISSING", true⟩ := by
    decide +kernel
  have hnone : ActiveTasks.new.pending.lookup "TASK-MISSING" = none := by
    rw [ActiveTasks.new, Finmap.lookup_empty]
  have hreported := congrArg Prod.fst (handleInbound_unknown hdecision hnone)
  refine ⟨hreported, hnone, ?_⟩
  intro h
  have hsilent := h.unknown "TASK-MISSING" true hdecision hnone
  rw [hreported] at hsilent
  simp at hsilent

end AiBridge
