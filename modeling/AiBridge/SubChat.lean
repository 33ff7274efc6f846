import AiBridge.Errors
import AiBridge.Wire

namespace AiBridge

inductive BranchName
  | a
  | b
  deriving DecidableEq, Repr

/-- The derived `Debug` text. -/
def BranchName.debug : BranchName → String
  | a => "A"
  | b => "B"

structure SubChatOpenRequest where
  taskId : String
  prompt : String
  branch : String
  deriving DecidableEq, Repr

structure SubChatResult where
  taskId : String
  result : String
  status : String
  callIndex : Nat
  deriving DecidableEq, Repr

namespace SubChatOpenRequest

def fieldNames : List String := ["task_id", "prompt", "branch"]

def ofFields : List Json → Option SubChatOpenRequest
  | [.str taskId, .str prompt, .str branch] => some ⟨taskId, prompt, branch⟩
  | _ => none

/-- `serde_json::from_str::<SubChatOpenRequest>` on a text that parses to the document. -/
def fromDocument (document : Json) : Option SubChatOpenRequest :=
  (document.strictFields fieldNames).bind ofFields

end SubChatOpenRequest

def SubChatResult.toJson (result : SubChatResult) : Json :=
  .obj [("task_id", .str result.taskId), ("result", .str result.result),
    ("status", .str result.status), ("call_index", .num (toString result.callIndex))]

structure ContextQuery where
  taskId : String
  deriving DecidableEq, Repr

structure ContextResponse where
  taskId : String
  includeMasterContext : Bool
  deriving DecidableEq, Repr

inductive OrphanError
  | subChatNotAllowed
  | run (message : String)
  deriving DecidableEq, Repr

structure OrphanWorker where
  context : String
  executed : Bool
  deriving DecidableEq, Repr

namespace OrphanWorker

def new (context : String) : OrphanWorker := ⟨context, false⟩

def run (self : OrphanWorker) : Except OrphanError SubChatResult × OrphanWorker :=
  if self.executed then
    (.error (.run "worker already executed once"), { self with executed := true })
  else
    (.ok ⟨"orphan-task", self.context, "success", 0⟩, { self with executed := true })

end OrphanWorker

structure Branch where
  name : BranchName
  taskId : String
  subChatCounter : Nat
  masterMessage : String
  deriving DecidableEq, Repr

namespace Branch

def new (name : BranchName) (taskId : String) : Branch := ⟨name, taskId, 0, ""⟩

def subChatLimit : Nat := 3

def awaitMaestro (self : Branch) (query : ContextQuery) : ContextResponse :=
  ⟨query.taskId, self.masterMessage ≠ ""⟩

def openSubChat (self : Branch) (request : SubChatOpenRequest) :
    Except SubChatError SubChatResult × Branch :=
  if request.taskId ≠ self.taskId then (.error (.invalidTaskId request.taskId), self)
  else if self.subChatCounter ≥ subChatLimit then
    (.error (.subChatLimitExceeded self.taskId), self)
  else
    let self := { self with subChatCounter := self.subChatCounter + 1 }
    let contextResponse := self.awaitMaestro ⟨self.taskId⟩
    let finalMessage :=
      if contextResponse.includeMasterContext then self.masterMessage ++ "\n" ++ request.prompt
      else request.prompt
    match (OrphanWorker.new finalMessage).run.1 with
    | .error (.run message) => (.error (.orphan message), self)
    | .error .subChatNotAllowed => (.error (.orphan "sub-chat not allowed"), self)
    | .ok orphanResult =>
      let callIndex := (self.subChatCounter - 1) % 256
      (.ok ⟨self.taskId,
        "branch " ++ self.name.debug ++ " completed sub-chat " ++ toString callIndex ++ ": " ++
          orphanResult.result,
        orphanResult.status, callIndex⟩, self)

/-- The answer to the next sub-chat. -/
def answer (branch : Branch) (prompt : String) : SubChatResult where
  taskId := branch.taskId
  result := "branch " ++ branch.name.debug ++ " completed sub-chat " ++
    toString (branch.subChatCounter % 256) ++ ": " ++
      if branch.masterMessage ≠ "" then branch.masterMessage ++ "\n" ++ prompt else prompt
  status := "success"
  callIndex := branch.subChatCounter % 256

/-- A request is opened or turned down, and only an opened one counts. The worker is new, so it
never fails. -/
theorem openSubChat_cases (branch : Branch) (request : SubChatOpenRequest) :
    (request.taskId = branch.taskId ∧ branch.subChatCounter < subChatLimit ∧
      branch.openSubChat request = (.ok (branch.answer request.prompt),
        { branch with subChatCounter := branch.subChatCounter + 1 })) ∨
    (¬(request.taskId = branch.taskId ∧ branch.subChatCounter < subChatLimit) ∧
      ∃ e, branch.openSubChat request = (.error e, branch) ∧ ∀ message, e ≠ .orphan message) := by
  unfold openSubChat
  by_cases hid : request.taskId = branch.taskId
  · by_cases hlimit : branch.subChatCounter < subChatLimit
    · left
      refine ⟨hid, hlimit, ?_⟩
      rw [if_neg (not_not.mpr hid), if_neg (by omega)]
      simp [OrphanWorker.run, OrphanWorker.new, awaitMaestro, answer]
    · right
      refine ⟨fun h => hlimit h.2, .subChatLimitExceeded branch.taskId, ?_, by simp⟩
      rw [if_neg (not_not.mpr hid), if_pos (by omega)]
  · right
    exact ⟨fun h => hid h.1, .invalidTaskId request.taskId, if_pos hid, by simp⟩

end Branch

structure BranchRegistry where
  branchA : Branch
  branchB : Branch
  deriving DecidableEq, Repr

namespace BranchRegistry

def new (taskId : String) : BranchRegistry := ⟨.new .a taskId, .new .b taskId⟩

/-- The branch of a channel, and the registry with another branch in its place. -/
def branchFor (self : BranchRegistry) :
    ChannelName → Except LoopError (Branch × (Branch → BranchRegistry))
  | .privateA => .ok (self.branchA, fun branch => { self with branchA := branch })
  | .privateB => .ok (self.branchB, fun branch => { self with branchB := branch })
  | .publicMaestro => .error (.noBranch .publicMaestro)

end BranchRegistry

def routeBranchRequest (registry : BranchRegistry) (channel : ChannelName)
    (request : SubChatOpenRequest) : Except LoopError SubChatResult × BranchRegistry :=
  match registry.branchFor channel with
  | .error e => (.error e, registry)
  | .ok (branch, store) =>
    match branch.openSubChat request with
    | (.error e, branch) => (.error (.subChat e), store branch)
    | (.ok result, branch) => (.ok result, store branch)

/-- What one call leaves behind. `sent` is the response that went out. -/
structure BranchHandled where
  result : Except ChannelError Unit
  registry : BranchRegistry
  sent : Option Json

/-- `write` is what becomes of the one write to the stream. -/
def handleBranchMessage (fromStr : String → Option Json) (write : Except String Unit)
    (registry : BranchRegistry) (channel : ChannelName) (raw : String) : BranchHandled :=
  match (fromStr raw).bind SubChatOpenRequest.fromDocument with
  | none => ⟨.error .json, registry, none⟩
  | some request =>
    match routeBranchRequest registry channel request with
    | (.error e, registry) => ⟨.error (.io e.display), registry, none⟩
    | (.ok result, registry) =>
      match write with
      | .error message => ⟨.error (.io message), registry, none⟩
      | .ok () => ⟨.ok (), registry, some result.toJson⟩

/-- The branch a request would be opened on turns it down. -/
def BranchRegistry.TurnsDown (registry : BranchRegistry) (channel : ChannelName)
    (request : SubChatOpenRequest) : Prop :=
  ∀ branch store, registry.branchFor channel = .ok (branch, store) →
    request.taskId ≠ branch.taskId ∨ Branch.subChatLimit ≤ branch.subChatCounter

end AiBridge
