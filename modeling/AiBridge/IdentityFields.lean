import AiBridge.HandlerEffects
import AiBridge.SerdeJson
import AiBridge.SubChat

namespace AiBridge

open Text PendingPlans

/-- Some object of the document has a member that names an identity. -/
inductive CarriesIdentity : Json → Prop
  | key {members : List (String × Json)} {key : String} {value : Json}
      (hmem : (key, value) ∈ members) (hkey : key = "sender" ∨ key = "auth_token") :
      CarriesIdentity (.obj members)
  | member {members : List (String × Json)} {key : String} {value : Json}
      (hmem : (key, value) ∈ members) (hvalue : CarriesIdentity value) :
      CarriesIdentity (.obj members)
  | item {items : List Json} {value : Json} (hmem : value ∈ items)
      (hvalue : CarriesIdentity value) : CarriesIdentity (.arr items)

/-- The call fails and leaves both states as they were. -/
def Handled.Rejects (out : Handled) (pending : PendingPlans) (guard : SafetyGuard) : Prop :=
  (∃ e, out.result = .error e) ∧ out.pending = pending ∧ out.guard = guard

def BranchHandled.Rejects (out : BranchHandled) (registry : BranchRegistry) : Prop :=
  (∃ e, out.result = .error e) ∧ out.registry = registry

variable {rx : ShippedRegex} {fromStr : String → Option Json} {io : Surroundings}
  {pending : PendingPlans} {guard : SafetyGuard} {registry : BranchRegistry}
  {channel : ChannelName} {write : Except String Unit} {raw : String}

namespace Branch

variable {branch : Branch} {request : SubChatOpenRequest}

theorem openSubChat_turned_down
    (h : request.taskId ≠ branch.taskId ∨ subChatLimit ≤ branch.subChatCounter) :
    ∃ e, branch.openSubChat request = (.error e, branch) := by
  rcases openSubChat_cases branch request with ⟨hid, hlimit, _⟩ | ⟨_, e, he, _⟩
  · exact absurd (h.resolve_left (not_not.mpr hid)) (by omega)
  · exact ⟨e, he⟩

theorem openSubChat_opened
    (h : ¬(request.taskId ≠ branch.taskId ∨ subChatLimit ≤ branch.subChatCounter)) :
    ∃ result, branch.openSubChat request =
      (.ok result, { branch with subChatCounter := branch.subChatCounter + 1 }) := by
  rw [not_or, not_not, Nat.not_le] at h
  rcases openSubChat_cases branch request with ⟨_, _, hopened⟩ | ⟨hnot, _⟩
  · exact ⟨_, hopened⟩
  · exact absurd h hnot

end Branch

namespace BranchRegistry

variable {branch : Branch} {store : Branch → BranchRegistry}

theorem store_branch (h : registry.branchFor channel = .ok (branch, store)) :
    store branch = registry := by
  cases channel with
  | privateA =>
    obtain ⟨hbranch, hstore⟩ := Prod.mk.inj (Except.ok.inj h)
    rw [← hstore, ← hbranch]
  | privateB =>
    obtain ⟨hbranch, hstore⟩ := Prod.mk.inj (Except.ok.inj h)
    rw [← hstore, ← hbranch]
  | publicMaestro => simp [branchFor] at h

theorem store_injective (h : registry.branchFor channel = .ok (branch, store)) :
    Function.Injective store := by
  intro first second heq
  cases channel with
  | privateA =>
    obtain ⟨_, hstore⟩ := Prod.mk.inj (Except.ok.inj h)
    rw [← hstore] at heq
    exact congrArg branchA heq
  | privateB =>
    obtain ⟨_, hstore⟩ := Prod.mk.inj (Except.ok.inj h)
    rw [← hstore] at heq
    exact congrArg branchB heq
  | publicMaestro => simp [branchFor] at h

end BranchRegistry

theorem turnsDown_iff {branch : Branch} {store : Branch → BranchRegistry}
    {request : SubChatOpenRequest} (h : registry.branchFor channel = .ok (branch, store)) :
    registry.TurnsDown channel request ↔
      request.taskId ≠ branch.taskId ∨ Branch.subChatLimit ≤ branch.subChatCounter := by
  constructor
  · intro hdown
    exact hdown branch store h
  · intro hdown branch' store' h'
    obtain ⟨hbranch, _⟩ := Prod.mk.inj (Except.ok.inj (h.symm.trans h'))
    rw [← hbranch]
    exact hdown

theorem routeBranchRequest_turned_down {request : SubChatOpenRequest}
    (h : registry.TurnsDown channel request) :
    ∃ e, routeBranchRequest registry channel request = (.error e, registry) := by
  unfold routeBranchRequest
  cases hbranch : registry.branchFor channel with
  | error e => exact ⟨e, rfl⟩
  | ok found =>
    obtain ⟨branch, store⟩ := found
    obtain ⟨e, he⟩ := Branch.openSubChat_turned_down (h branch store hbranch)
    exact ⟨.subChat e, by simp only [he, BranchRegistry.store_branch hbranch]⟩

/-- An opened sub-chat counts, whatever becomes of the answer. -/
theorem routeBranchRequest_opened {request : SubChatOpenRequest}
    (h : ¬registry.TurnsDown channel request) :
    ∃ result registry', routeBranchRequest registry channel request = (.ok result, registry') ∧
      registry' ≠ registry := by
  unfold routeBranchRequest
  cases hbranch : registry.branchFor channel with
  | error e =>
    have hdown : registry.TurnsDown channel request := by
      intro branch store habs
      rw [hbranch] at habs
      simp at habs
    exact absurd hdown h
  | ok found =>
    obtain ⟨branch, store⟩ := found
    rw [turnsDown_iff hbranch] at h
    obtain ⟨result, hresult⟩ := Branch.openSubChat_opened h
    refine ⟨result, _, by simp only [hresult]; rfl, ?_⟩
    intro heq
    rw [← BranchRegistry.store_branch hbranch] at heq
    have hcounter := congrArg Branch.subChatCounter (BranchRegistry.store_injective hbranch heq)
    simp at hcounter

/-- A branch message is rejected exactly if it cannot be read or its branch turns it down. -/
theorem branch_rejects_iff :
    (handleBranchMessage fromStr write registry channel raw).Rejects registry ↔
      ∀ request, (fromStr raw).bind SubChatOpenRequest.fromDocument = some request →
        registry.TurnsDown channel request := by
  unfold handleBranchMessage
  cases hread : (fromStr raw).bind SubChatOpenRequest.fromDocument with
  | none =>
    refine iff_of_true ⟨⟨_, rfl⟩, rfl⟩ ?_
    intro request habs
    simp at habs
  | some request =>
    simp only [Option.some.injEq, forall_eq']
    by_cases hdown : registry.TurnsDown channel request
    · obtain ⟨e, hroute⟩ := routeBranchRequest_turned_down hdown
      rw [hroute]
      exact iff_of_true ⟨⟨_, rfl⟩, rfl⟩ hdown
    · obtain ⟨result, registry', hroute, hchanged⟩ := routeBranchRequest_opened hdown
      rw [hroute]
      refine iff_of_false ?_ hdown
      intro hrejects
      cases write with
      | error message => exact hchanged hrejects.2
      | ok => exact hchanged hrejects.2

/-- A decision or a query about a task that is not known. -/
def Request.Unknown (pending : PendingPlans) : Request → Prop
  | resolve resolved => pending.tasks.lookup resolved.taskId = none
  | ask q => pending.tasks.lookup q.taskId = none
  | submit _ | arm | disarm _ | logOverride _ | directMessage _ => False

theorem answerQuery_error_iff {q : TaskQuery} (hw : io.write = .ok ()) :
    (∃ e, (answerQuery io pending guard q).result = .error e) ↔
      pending.tasks.lookup q.taskId = none := by
  unfold answerQuery PendingPlans.query
  cases hl : pending.tasks.lookup q.taskId with
  | none => simp [failWith]
  | some task => simp [writeAck_ok hw]

theorem perform_error_iff {request : Request} (hw : io.write = .ok ()) :
    (∃ e, (request.perform rx io pending guard).result = .error e) ↔ request.Unknown pending := by
  cases request with
  | resolve resolved =>
    simp only [Request.perform, Request.Unknown]
    cases hl : pending.tasks.lookup resolved.taskId with
    | none => simp [resolveTask_unknown resolved hl, failWith]
    | some task => simp [resolveTask_known resolved hl, writeAck_ok hw]
  | ask q => exact answerQuery_error_iff hw
  | submit plan => simp [Request.perform, Request.Unknown, submitPlan_eq, writeAck_ok hw]
  | arm => simp [Request.perform, Request.Unknown, writeAck_ok hw]
  | disarm reason => simp [Request.perform, Request.Unknown, writeAck_ok hw]
  | logOverride taskId => simp [Request.perform, Request.Unknown, writeAck_ok hw]
  | directMessage text => simp [Request.perform, Request.Unknown, writeAck_ok hw]

/-- A message to the maestro handler is rejected exactly if it cannot be read, or asks for nothing
that changes a state and either its write fails or it is about a task that is not known. -/
theorem maestro_rejects_iff :
    (handleMaestroMessage rx fromStr io pending guard raw).Rejects pending guard ↔
      ∀ request, Request.read fromStr raw = .ok request →
        ¬request.Mutates rx io pending ∧ (io.write = .ok () → request.Unknown pending) := by
  rw [Request.handleMaestroMessage_eq]
  cases hread : Request.read fromStr raw with
  | error e =>
    refine iff_of_true ⟨⟨e, rfl⟩, rfl, rfl⟩ ?_
    intro request habs
    simp at habs
  | ok request =>
    simp only [Except.ok.injEq, forall_eq', Request.performOrFail, Handled.Rejects]
    rw [perform_unchanged_iff, and_comm]
    apply and_congr_right
    intro _
    cases hw : io.write with
    | ok u =>
      rw [perform_error_iff hw]
      simp
    | error message =>
      refine iff_of_true (perform_error hw) ?_
      intro habs
      simp at habs

variable {serde : SerdeJson} {document : Json}

theorem read_of_document (h : serde.fromStr raw = some document) :
    Request.read serde.fromStr raw = Request.ofDocument document := by
  have htrim := serde.fromStr_trim h
  have hne : trim raw ≠ "" := by
    intro hblank
    rw [serde.fromStr_blank hblank] at h
    simp at h
  rw [Request.read, if_neg hne, htrim]

/-- The two handlers reject a text whose document has an identity in it. -/
def RejectsIdentity (rx : ShippedRegex) (serde : SerdeJson) (io : Surroundings)
    (pending : PendingPlans) (guard : SafetyGuard) (registry : BranchRegistry)
    (channel : ChannelName) (raw : String) : Prop :=
  ∀ document, serde.fromStr raw = some document → CarriesIdentity document →
    (handleMaestroMessage rx serde.fromStr io pending guard raw).Rejects pending guard ∧
      (handleBranchMessage serde.fromStr io.write registry channel raw).Rejects registry

/-- The handlers do not look for identity fields: a document that carries one is rejected exactly
if to the maestro it is no request, or one that changes nothing and either cannot be answered or
is about an unknown task, and to the branch no request, or one that its branch turns down. -/
theorem identity_rejected_iff (rx : ShippedRegex) (serde : SerdeJson) (io : Surroundings)
    (pending : PendingPlans) (guard : SafetyGuard) (registry : BranchRegistry)
    (channel : ChannelName) (raw : String) :
    RejectsIdentity rx serde io pending guard registry channel raw ↔
      ∀ document, serde.fromStr raw = some document → CarriesIdentity document →
        (∀ request, Request.ofDocument document = .ok request →
          ¬request.Mutates rx io pending ∧ (io.write = .ok () → request.Unknown pending)) ∧
        ∀ request, SubChatOpenRequest.fromDocument document = some request →
          registry.TurnsDown channel request := by
  unfold RejectsIdentity
  apply forall_congr'
  intro document
  apply forall_congr'
  intro hdocument
  rw [maestro_rejects_iff, branch_rejects_iff, read_of_document hdocument, hdocument,
    Option.bind_some]

def signedPlanText : String :=
  "\x7b\"task_id\":\"task-1\",\"description\":\"run the test suite\"," ++
    "\"commands\":[\"[[AB:OPS.TERM.RUN.LOCAL]] cargo test\"],\"sender\":\"maestro\"\x7d"

/-- A plan with a sender in it. -/
def signedPlan : Json :=
  .obj [("task_id", .str "task-1"), ("description", .str "run the test suite"),
    ("commands", .arr [.str "[[AB:OPS.TERM.RUN.LOCAL]] cargo test"]), ("sender", .str "maestro")]

theorem read_signedPlan :
    Request.ofDocument signedPlan = .ok (.submit (delegablePlan "task-1")) := by
  rfl

/-- A plan that names its sender is taken in like any other. -/
theorem signedPlan_accepted :
    CarriesIdentity signedPlan ∧
      (handleMaestroMessage plainRegex (plainJson [(signedPlanText, signedPlan)]).fromStr
        ⟨⟨none⟩, 0, 0, 0, .ok ()⟩ .new .new signedPlanText).pending =
          after plainRegex [.ingest ⟨none⟩ (delegablePlan "task-1") 0] ∧
      ¬RejectsIdentity plainRegex (plainJson [(signedPlanText, signedPlan)])
        ⟨⟨none⟩, 0, 0, 0, .ok ()⟩ .new .new (.new "root-task") .privateA signedPlanText := by
  have hcarries : CarriesIdentity signedPlan := by
    apply CarriesIdentity.key _ (Or.inl rfl)
    · exact .str "maestro"
    · simp
  have htrim : trim signedPlanText = signedPlanText := by decide +kernel
  have htext : (plainJson [(signedPlanText, signedPlan)]).fromStr signedPlanText =
      some signedPlan := by
    have hne : signedPlanText ≠ "" := by decide +kernel
    simp only [plainJson, htrim, hne, if_false, List.lookup_cons_self]
  have hread : Request.read (plainJson [(signedPlanText, signedPlan)]).fromStr signedPlanText =
      .ok (.submit (delegablePlan "task-1")) := by
    rw [read_of_document htext, read_signedPlan]
  refine ⟨hcarries, ?_, ?_⟩
  · rw [Request.handleMaestroMessage_of_read hread, Request.perform, submitPlan_eq,
      writeAck_pending]
    rfl
  · intro hrejects
    have hrejected := (hrejects signedPlan htext hcarries).1
    have hkeeps := (maestro_rejects_iff.mp hrejected _ hread).1
    apply hkeeps
    rw [Request.Mutates, decidePolicy_delegablePlan]
    intro task hl
    have hnone : PendingPlans.new.tasks.lookup (delegablePlan "task-1").taskId = none := by
      simp [PendingPlans.new]
    rw [hnone] at hl
    simp at hl

end AiBridge
