import AiBridge.IdentityFields
import AiBridge.Runs

namespace AiBridge

open Runs

/-- A request and the channel it came in on. -/
abbrev Routing := ChannelName × SubChatOpenRequest

/-- What a branch reads of a request. -/
abbrev Asked := String × String

namespace Branch

theorem openSubChat_asked (branch : Branch) (request : SubChatOpenRequest) :
    branch.openSubChat ⟨request.taskId, request.prompt, ""⟩ = branch.openSubChat request := rfl

end Branch

namespace BranchRegistry

def branchOn (registry : BranchRegistry) : ChannelName → Option Branch
  | .privateA => some registry.branchA
  | .privateB => some registry.branchB
  | .publicMaestro => none

/-- The registry behind a request. -/
def route (registry : BranchRegistry) (call : Routing) : BranchRegistry :=
  (routeBranchRequest registry call.1 call.2).2

/-- What a request is answered, if it is one of the channel. -/
def resultOn (channel : ChannelName) (registry : BranchRegistry) (call : Routing) :
    Option (Except LoopError SubChatResult) :=
  if call.1 = channel then some (routeBranchRequest registry call.1 call.2).1 else none

def resultsOn (channel : ChannelName) (registry : BranchRegistry) (calls : List Routing) :
    List (Except LoopError SubChatResult) :=
  outputs route (resultOn channel) registry calls

/-- The successful results of a channel. -/
def openedOn (channel : ChannelName) (registry : BranchRegistry) (calls : List Routing) :
    List SubChatResult :=
  (resultsOn channel registry calls).filterMap Except.toOption

end BranchRegistry

/-- What the requests of a run ask on a channel, without the branch they name. -/
def askedOn (channel : ChannelName) (calls : List Routing) : List Asked :=
  calls.filterMap fun call =>
    if call.1 = channel then some (call.2.taskId, call.2.prompt) else none

/-- What a channel does with a request, by its branch alone. -/
def openOn (branch : Option Branch) (asked : Asked) :
    Except LoopError SubChatResult × Option Branch :=
  match branch with
  | none => (.error (.noBranch .publicMaestro), none)
  | some branch =>
    let opened := branch.openSubChat ⟨asked.1, asked.2, ""⟩
    (opened.1.mapError .subChat, some opened.2)

def openStep (branch : Option Branch) (asked : Asked) : Option Branch := (openOn branch asked).2

def openResult (branch : Option Branch) (asked : Asked) :
    Option (Except LoopError SubChatResult) := some (openOn branch asked).1

open BranchRegistry

variable {registry : BranchRegistry} {channel : ChannelName} {calls : List Routing}

theorem route_on (registry : BranchRegistry) (channel : ChannelName)
    (request : SubChatOpenRequest) :
    openOn (registry.branchOn channel) (request.taskId, request.prompt) =
      ((routeBranchRequest registry channel request).1,
        (registry.route (channel, request)).branchOn channel) := by
  cases channel with
  | publicMaestro => rfl
  | privateA =>
    simp only [openOn, branchOn, Branch.openSubChat_asked, route, routeBranchRequest, branchFor]
    split
    next e branch h => rw [h]; rfl
    next result branch h => rw [h]; rfl
  | privateB =>
    simp only [openOn, branchOn, Branch.openSubChat_asked, route, routeBranchRequest, branchFor]
    split
    next e branch h => rw [h]; rfl
    next result branch h => rw [h]; rfl

/-- A request changes nothing on the other channels. -/
theorem route_off {other : ChannelName} (request : SubChatOpenRequest) (h : other ≠ channel) :
    (registry.route (other, request)).branchOn channel = registry.branchOn channel := by
  cases other with
  | publicMaestro => rfl
  | privateA =>
    simp only [route, routeBranchRequest, branchFor]
    split
    all_goals cases channel with
      | privateA => exact absurd rfl h
      | privateB => rfl
      | publicMaestro => rfl
  | privateB =>
    simp only [route, routeBranchRequest, branchFor]
    split
    all_goals cases channel with
      | privateA => rfl
      | privateB => exact absurd rfl h
      | publicMaestro => rfl

/-- A run on a channel is the run of its branch on what was asked there. -/
theorem run_on (channel : ChannelName) (registry : BranchRegistry) (calls : List Routing) :
    resultsOn channel registry calls =
        outputs openStep openResult (registry.branchOn channel) (askedOn channel calls) ∧
      (run route registry calls).branchOn channel =
        run openStep (registry.branchOn channel) (askedOn channel calls) := by
  induction calls generalizing registry with
  | nil => exact ⟨rfl, rfl⟩
  | cons call calls ih =>
    obtain ⟨other, request⟩ := call
    obtain ⟨hresults, hbranch⟩ := ih (registry.route (other, request))
    by_cases hother : other = channel
    · have hon := route_on registry channel request
      have hasked : askedOn channel ((other, request) :: calls) =
          (request.taskId, request.prompt) :: askedOn channel calls := by
        simp [askedOn, hother]
      have hout : resultOn channel registry (other, request) =
          some (routeBranchRequest registry channel request).1 := by
        rw [resultOn, if_pos hother, hother]
      rw [hother] at hresults hbranch
      rw [resultsOn, outputs, hout, ← resultsOn, run_cons, hasked, outputs, run_cons, openStep,
        openResult, hon, hother, hresults, hbranch]
      exact ⟨rfl, rfl⟩
    · have hoff : (registry.route (other, request)).branchOn channel = registry.branchOn channel :=
        route_off request hother
      have hasked : askedOn channel ((other, request) :: calls) = askedOn channel calls := by
        simp [askedOn, hother]
      have hout : resultOn channel registry (other, request) = none := if_neg hother
      rw [resultsOn, outputs, hout, ← resultsOn, run_cons, hasked, hresults, hbranch, hoff]
      exact ⟨rfl, rfl⟩

theorem askedOn_filter (channel : ChannelName) (calls : List Routing) :
    askedOn channel (calls.filter fun call => call.1 = channel) = askedOn channel calls := by
  rw [askedOn, List.filterMap_filter, askedOn]
  apply List.filterMap_congr
  intro call _
  by_cases h : call.1 = channel
  · simp [h]
  · simp [h]

theorem resultsOn_congr {calls' : List Routing}
    (h : askedOn channel calls' = askedOn channel calls) :
    resultsOn channel registry calls' = resultsOn channel registry calls := by
  rw [(run_on channel registry calls').1, h, (run_on channel registry calls).1]

/-- A branch counts what it opens: the indexes go on from its counter, up to the limit. -/
theorem opened_counted (branch : Branch) (asked : List Asked)
    (hlimit : branch.subChatCounter ≤ Branch.subChatLimit) :
    ∃ n, branch.subChatCounter + n ≤ Branch.subChatLimit ∧
      run openStep (some branch) asked =
        some { branch with subChatCounter := branch.subChatCounter + n } ∧
      ((outputs openStep openResult (some branch) asked).filterMap Except.toOption).map
        (·.callIndex) = List.range' branch.subChatCounter n := by
  induction asked generalizing branch with
  | nil => exact ⟨0, hlimit, rfl, rfl⟩
  | cons first asked ih =>
    rcases branch.openSubChat_cases ⟨first.1, first.2, ""⟩ with
      ⟨_, hbelow, hopen⟩ | ⟨_, e, hopen, _⟩
    · have hopened : openOn (some branch) first = (.ok (branch.answer first.2),
          some { branch with subChatCounter := branch.subChatCounter + 1 }) := by
        rw [openOn, hopen]
        rfl
      obtain ⟨n, hn, hrun, hindexes⟩ :=
        ih { branch with subChatCounter := branch.subChatCounter + 1 } hbelow
      have hbound : branch.subChatCounter + 1 + n ≤ 3 := hn
      have hindex : (branch.answer first.2).callIndex = branch.subChatCounter := by
        show branch.subChatCounter % 256 = branch.subChatCounter
        omega
      have hsum : branch.subChatCounter + (n + 1) = branch.subChatCounter + 1 + n := by omega
      refine ⟨n + 1, ?_, ?_, ?_⟩
      · show branch.subChatCounter + (n + 1) ≤ 3
        omega
      · rw [run_cons, openStep, hopened, hrun, hsum]
      · rw [outputs, openStep, openResult, hopened, List.filterMap_append, List.map_append, hindexes,
          List.range'_succ, ← hindex]
        rfl
    · have hdown : openOn (some branch) first = (.error (.subChat e), some branch) := by
        rw [openOn, hopen]
        rfl
      obtain ⟨n, hn, hrun, hindexes⟩ := ih branch hlimit
      refine ⟨n, hn, ?_, ?_⟩
      · rw [run_cons, openStep, hdown, hrun]
      · rw [outputs, openStep, openResult, hdown, List.filterMap_append, List.map_append, hindexes]
        rfl

/-- Where there is no branch, nothing is opened. -/
theorem opened_nowhere (asked : List Asked) :
    run openStep none asked = none ∧
      (outputs openStep openResult none asked).filterMap Except.toOption = [] := by
  induction asked with
  | nil => exact ⟨rfl, rfl⟩
  | cons first asked ih =>
    obtain ⟨hrun, hnone⟩ := ih
    refine ⟨?_, ?_⟩
    · rw [run_cons]
      exact hrun
    · rw [outputs, List.filterMap_append]
      exact hnone

/-- Behind a run a channel has counted the sub-chats that were opened on it, and their indexes
come in order. -/
theorem branchOn_run (taskId : String) (channel : ChannelName) (calls : List Routing) :
    ∃ n, n ≤ Branch.subChatLimit ∧
      (openedOn channel (BranchRegistry.new taskId) calls).map (·.callIndex) = List.range n ∧
      (run route (BranchRegistry.new taskId) calls).branchOn channel =
        ((BranchRegistry.new taskId).branchOn channel).map fun branch =>
          { branch with subChatCounter := n } := by
  obtain ⟨hresults, hrun⟩ := run_on channel (BranchRegistry.new taskId) calls
  cases hbranch : (BranchRegistry.new taskId).branchOn channel with
  | none =>
    obtain ⟨hstays, hnone⟩ := opened_nowhere (askedOn channel calls)
    refine ⟨0, Nat.zero_le _, ?_, ?_⟩
    · rw [openedOn, hresults, hbranch, hnone]
      rfl
    · rw [hrun, hbranch, hstays]
      rfl
  | some branch =>
    have hzero : branch.subChatCounter = 0 := by
      cases channel with
      | publicMaestro => simp [branchOn] at hbranch
      | privateA => rw [← Option.some.inj hbranch]; rfl
      | privateB => rw [← Option.some.inj hbranch]; rfl
    obtain ⟨n, hn, hcounted, hindexes⟩ :=
      opened_counted branch (askedOn channel calls) (by omega)
    rw [hzero, Nat.zero_add] at hn hcounted
    refine ⟨n, hn, ?_, ?_⟩
    · rw [openedOn, hresults, hbranch, hindexes, hzero, List.range_eq_range']
    · rw [hrun, hbranch, hcounted]
      rfl

theorem routeBranchRequest_ok_iff {request : SubChatOpenRequest} :
    (∃ result, (routeBranchRequest registry channel request).1 = .ok result) ↔
      ∃ branch, registry.branchOn channel = some branch ∧ request.taskId = branch.taskId ∧
        branch.subChatCounter < Branch.subChatLimit := by
  have hon := congrArg Prod.fst (route_on registry channel request)
  cases hbranch : registry.branchOn channel with
  | none =>
    rw [hbranch] at hon
    rw [← hon]
    simp [openOn]
  | some branch =>
    rw [hbranch] at hon
    rw [← hon]
    rcases branch.openSubChat_cases request with ⟨hid, hbelow, hopen⟩ | ⟨hdown, e, hopen, _⟩
    · have hopened : (openOn (some branch) (request.taskId, request.prompt)).1 =
          .ok (branch.answer request.prompt) := by
        rw [openOn, Branch.openSubChat_asked, hopen]
        rfl
      rw [hopened]
      exact ⟨fun _ => ⟨branch, rfl, hid, hbelow⟩, fun _ => ⟨_, rfl⟩⟩
    · have hrefused : (openOn (some branch) (request.taskId, request.prompt)).1 =
          .error (.subChat e) := by
        rw [openOn, Branch.openSubChat_asked, hopen]
        rfl
      rw [hrefused]
      constructor
      · intro hok
        obtain ⟨result, hresult⟩ := hok
        simp at hresult
      · intro hok
        obtain ⟨branch', hsame, hopens⟩ := hok
        rw [Option.some.inj hsame] at hdown
        exact absurd hopens hdown

/-- An error says that the branch did not change, and never comes from the worker. -/
theorem routeBranchRequest_error {request : SubChatOpenRequest} {e : LoopError}
    (h : (routeBranchRequest registry channel request).1 = .error e) :
    (routeBranchRequest registry channel request).2 = registry ∧
      ∀ message, e ≠ .subChat (.orphan message) := by
  unfold routeBranchRequest at h ⊢
  cases hbranch : registry.branchFor channel with
  | error e' =>
    have hnone : e' = .noBranch .publicMaestro := by
      cases channel with
      | publicMaestro => exact (Except.error.inj hbranch).symm
      | privateA => simp [branchFor] at hbranch
      | privateB => simp [branchFor] at hbranch
    rw [hbranch] at h
    have he := Except.error.inj h
    refine ⟨rfl, ?_⟩
    intro message heq
    rw [← he, hnone] at heq
    simp at heq
  | ok found =>
    obtain ⟨branch, store⟩ := found
    rw [hbranch] at h
    rcases branch.openSubChat_cases request with ⟨_, _, hopen⟩ | ⟨_, e', hopen, hworker⟩
    · simp [hopen] at h
    · simp only [hopen, Except.error.injEq] at h ⊢
      refine ⟨store_branch hbranch, ?_⟩
      intro message heq
      rw [← h, LoopError.subChat.injEq] at heq
      exact hworker message heq

/-- Over every run of requests each private channel opens three sub-chats at most, numbered in
order, turns down what is not for its task or beyond the limit without a change, and does not
depend on the other channels or on the branch that a request names. -/
theorem branch_routing (taskId : String) (channel : ChannelName) (calls : List Routing) :
    (∃ n ≤ 3, (openedOn channel (BranchRegistry.new taskId) calls).map (·.callIndex) =
      List.range n) ∧
    (∀ request, (∃ result, (routeBranchRequest (run route (BranchRegistry.new taskId) calls)
        channel request).1 = .ok result) ↔
      channel ≠ .publicMaestro ∧ request.taskId = taskId ∧
        (openedOn channel (BranchRegistry.new taskId) calls).length < 3) ∧
    (∀ request e, (routeBranchRequest (run route (BranchRegistry.new taskId) calls)
        channel request).1 = .error e →
      (routeBranchRequest (run route (BranchRegistry.new taskId) calls) channel request).2 =
          run route (BranchRegistry.new taskId) calls ∧
        ∀ message, e ≠ .subChat (.orphan message)) ∧
    resultsOn channel (BranchRegistry.new taskId) calls =
      resultsOn channel (BranchRegistry.new taskId)
        (calls.filter fun call => call.1 = channel) ∧
    ∀ calls', askedOn channel calls' = askedOn channel calls →
      resultsOn channel (BranchRegistry.new taskId) calls' =
        resultsOn channel (BranchRegistry.new taskId) calls := by
  obtain ⟨n, hn, hindexes, hbranch⟩ := branchOn_run taskId channel calls
  have hlength : (openedOn channel (BranchRegistry.new taskId) calls).length = n := by
    have hcount := congrArg List.length hindexes
    rwa [List.length_map, List.length_range] at hcount
  refine ⟨⟨n, hn, hindexes⟩, ?_, fun request e h => routeBranchRequest_error h, ?_,
    fun calls' h => resultsOn_congr h⟩
  · intro request
    rw [routeBranchRequest_ok_iff, hbranch, hlength]
    cases channel with
    | publicMaestro => simp [branchOn]
    | privateA => simp [branchOn, BranchRegistry.new, Branch.new, Branch.subChatLimit]
    | privateB => simp [branchOn, BranchRegistry.new, Branch.new, Branch.subChatLimit]
  · exact resultsOn_congr (askedOn_filter channel calls).symm

/-- Two requests on different channels, in the other order. -/
theorem branch_routing_interleaved :
    let request : SubChatOpenRequest := ⟨"task-1", "list the files", "A"⟩
    resultsOn .privateA (BranchRegistry.new "task-1")
        [(.privateB, request), (.privateA, request)] =
      resultsOn .privateA (BranchRegistry.new "task-1")
        [(.privateA, request), (.privateB, request)] :=
  (branch_routing "task-1" .privateA
    [(.privateA, ⟨"task-1", "list the files", "A"⟩),
      (.privateB, ⟨"task-1", "list the files", "A"⟩)]).2.2.2.2 _ (by decide)

end AiBridge
