import AiBridge.BranchRuns
import AiBridge.BridgeRuns

namespace AiBridge

open BranchRegistry Runs

def BranchName.channel : BranchName → ChannelName
  | .a => .privateA
  | .b => .privateB

/-- An answer can be written to the connection. -/
def BridgeEvent.writes : BridgeEvent → Bool
  | .turn _ _ io => io.write.isOk
  | _ => false

/-- The branch of the daemon when it has opened so many sub-chats. -/
def Branch.counted (name : BranchName) (n : Nat) : Branch :=
  { Branch.new name rootTaskId with subChatCounter := n }

namespace Deployment

variable (self : Deployment) (name : BranchName)

/-- The request for a sub-chat that a connection brings to the handler of a channel. -/
def subChatRequest (channel : ChannelName) (connection : Connection) : Option SubChatOpenRequest :=
  match (self.socket channel).handleClientStream connection readToString with
  | .error _ => none
  | .ok buf => (self.serde.fromStr buf).bind SubChatOpenRequest.fromDocument

/-- The request that an event routes to a branch. -/
def routing : BridgeEvent → Option Routing
  | .turn .publicMaestro _ _ => none
  | .turn channel connection _ =>
    (self.subChatRequest channel connection).map fun request => (channel, request)
  | _ => none

/-- What an event asks of a branch for the task of the daemon, and whether its answer is written. -/
def subChatAsk (event : BridgeEvent) : Option (String × Bool) :=
  (self.routing event).bind fun call =>
    if call.1 = name.channel ∧ call.2.taskId = rootTaskId then some (call.2.prompt, event.writes)
    else none

def subChatAsks (events : List BridgeEvent) : List (String × Bool) :=
  events.filterMap (self.subChatAsk name)

/-- The answer that an event writes to a connection of a branch. -/
def subChatAnswer (daemon : BridgeDaemon) : BridgeEvent → Option Json
  | .turn channel connection io =>
    if channel = name.channel then
      match self.branchTurn channel daemon.registry io.write connection with
      | .error _ => none
      | .ok out => out.sent
    else none
  | _ => none

def subChatAnswers (events : List BridgeEvent) : List Json :=
  outputs self.step (self.subChatAnswer name) .start events

end Deployment

/-- The first asks up to the limit are answered, numbered in their order, if the answer can be
written. -/
def servedSubChats (name : BranchName) (asks : List (String × Bool)) : List Json :=
  (asks.take Branch.subChatLimit).zipIdx.filterMap fun ask =>
    if ask.1.2 then some ((Branch.counted name ask.2).answer ask.1.1).toJson else none

theorem servedSubChats_concat {name : BranchName} {asks : List (String × Bool)} {prompt : String}
    {writes : Bool} :
    servedSubChats name (asks ++ [(prompt, writes)]) = servedSubChats name asks ++
      if asks.length < Branch.subChatLimit ∧ writes then
        [((Branch.counted name asks.length).answer prompt).toJson]
      else [] := by
  by_cases hlimit : asks.length < Branch.subChatLimit
  · have htake : (asks ++ [(prompt, writes)]).take Branch.subChatLimit = asks ++ [(prompt, writes)] :=
      List.take_of_length_le (by simpa using Nat.succ_le_of_lt hlimit)
    have hall : asks.take Branch.subChatLimit = asks := List.take_of_length_le hlimit.le
    rw [servedSubChats, htake, servedSubChats, hall, List.zipIdx_append, List.filterMap_append]
    cases writes with
    | false => simp
    | true => simp [hlimit]
  · have htake : (asks ++ [(prompt, writes)]).take Branch.subChatLimit =
        asks.take Branch.subChatLimit := List.take_append_of_le_length (not_lt.mp hlimit)
    rw [servedSubChats, htake, ← servedSubChats, if_neg fun h => hlimit h.1, List.append_nil]

namespace Deployment

variable {self : Deployment} {name : BranchName} {daemon : BridgeDaemon} {event : BridgeEvent}

theorem branchTurn_eq (channel : ChannelName) (registry : BranchRegistry)
    (write : Except String Unit) (connection : Connection) :
    self.branchTurn channel registry write connection =
      ((self.socket channel).handleClientStream connection readToString).map
        (handleBranchMessage self.serde.fromStr write registry channel) :=
  BridgeSocket.handleClientStream_map _

/-- A turn of a private channel routes the request that it brings, and answers it if that succeeds
and the answer can be written. -/
theorem branchTurn_cases (self : Deployment) (channel : ChannelName) (registry : BranchRegistry)
    (write : Except String Unit) (connection : Connection) :
    (self.subChatRequest channel connection = none ∧
      ∀ out, self.branchTurn channel registry write connection = .ok out →
        out.registry = registry ∧ out.sent = none) ∨
    ∃ request out, self.subChatRequest channel connection = some request ∧
      self.branchTurn channel registry write connection = .ok out ∧
      out.registry = registry.route (channel, request) ∧
      out.sent = if write.isOk then
        (routeBranchRequest registry channel request).1.toOption.map SubChatResult.toJson
      else none := by
  rw [branchTurn_eq, subChatRequest]
  cases (self.socket channel).handleClientStream connection readToString with
  | error e => exact .inl ⟨rfl, fun out hout => by cases hout⟩
  | ok buf =>
    cases hrequest : (self.serde.fromStr buf).bind SubChatOpenRequest.fromDocument with
    | none =>
      left
      refine ⟨hrequest, fun out hout => ?_⟩
      have hout : handleBranchMessage self.serde.fromStr write registry channel buf = out :=
        Except.ok.inj hout
      rw [← hout, handleBranchMessage, hrequest]
      exact ⟨rfl, rfl⟩
    | some request =>
      right
      refine ⟨request, _, hrequest, rfl, ?_⟩
      rw [handleBranchMessage, hrequest]
      simp only [route]
      cases hroute : routeBranchRequest registry channel request with
      | mk result routed =>
        cases result with
        | error e =>
          cases write with
          | error message => exact ⟨rfl, rfl⟩
          | ok u => exact ⟨rfl, rfl⟩
        | ok result =>
          cases write with
          | error message => exact ⟨rfl, rfl⟩
          | ok u => exact ⟨rfl, rfl⟩

/-- What an event does to the branches is to route the request that it brings to one of them. -/
theorem registry_step (self : Deployment) (daemon : BridgeDaemon) (event : BridgeEvent) :
    (self.step daemon event).registry =
      (self.routing event).elim daemon.registry daemon.registry.route := by
  cases event with
  | poll env now => rfl
  | command run host spawn =>
    simp only [step]
    cases run.command with
    | none => rfl
    | some cmd => rfl
  | finish run => rfl
  | turn channel connection io =>
    have private_turn : channel ≠ .publicMaestro →
        (self.step daemon (.turn channel connection io)).registry =
          ((self.subChatRequest channel connection).map fun request => (channel, request)).elim
            daemon.registry daemon.registry.route := by
      intro hchannel
      rw [step]
      · rcases branchTurn_cases self channel daemon.registry io.write connection with
          ⟨hnone, hquiet⟩ | ⟨request, out, hrequest, hout, hregistry, _⟩
        · rw [hnone]
          cases hturn : self.branchTurn channel daemon.registry io.write connection with
          | error e => rfl
          | ok out => exact (hquiet out hturn).1
        · rw [hrequest, hout]
          exact hregistry
      · exact hchannel
    cases channel with
    | privateA => exact private_turn (by decide)
    | privateB => exact private_turn (by decide)
    | publicMaestro =>
      rcases turn_cases self daemon connection io with ⟨request, _, hstep⟩ | ⟨_, hstep⟩
      · rw [hstep]
        rfl
      · rw [hstep]
        rfl

theorem subChatAnswer_eq (self : Deployment) (name : BranchName) (daemon : BridgeDaemon)
    (event : BridgeEvent) :
    self.subChatAnswer name daemon event = (self.routing event).bind fun call =>
      if call.1 = name.channel ∧ event.writes then
        (routeBranchRequest daemon.registry call.1 call.2).1.toOption.map SubChatResult.toJson
      else none := by
  cases event with
  | poll env now => rfl
  | command run host spawn => rfl
  | finish run => rfl
  | turn channel connection io =>
    by_cases hchannel : channel = name.channel
    · have hroutes : self.routing (.turn channel connection io) =
          (self.subChatRequest channel connection).map fun request => (channel, request) := by
        rw [hchannel]
        cases name with
        | a => rfl
        | b => rfl
      rw [subChatAnswer, if_pos hchannel, hroutes]
      rcases branchTurn_cases self channel daemon.registry io.write connection with
        ⟨hnone, hquiet⟩ | ⟨request, out, hrequest, hout, _, hsent⟩
      · rw [hnone]
        cases hturn : self.branchTurn channel daemon.registry io.write connection with
        | error e => rfl
        | ok out => exact (hquiet out hturn).2
      · rw [hrequest, hout]
        simpa [hchannel, BridgeEvent.writes] using hsent
    · rw [subChatAnswer, if_neg hchannel]
      cases hrouted : self.routing (.turn channel connection io) with
      | none => rfl
      | some call =>
        have hsame : call.1 = channel := by
          cases channel with
          | publicMaestro => cases hrouted
          | privateA =>
            obtain ⟨request, _, rfl⟩ := Option.map_eq_some_iff.mp hrouted
            rfl
          | privateB =>
            obtain ⟨request, _, rfl⟩ := Option.map_eq_some_iff.mp hrouted
            rfl
        rw [Option.bind_some, if_neg fun h => hchannel (hsame ▸ h.1)]

/-- An ask opens the next sub-chat, up to the limit, and its answer goes out if it can be written. No
other event touches the branch. -/
theorem served_step (self : Deployment) (event : BridgeEvent) {n : Nat}
    (hbranch : daemon.registry.branchOn name.channel = some (.counted name n)) :
    (self.step daemon event).registry.branchOn name.channel =
        some (.counted name (if (self.subChatAsk name event).isSome ∧ n < Branch.subChatLimit then
          n + 1 else n)) ∧
      self.subChatAnswer name daemon event = (self.subChatAsk name event).bind fun ask =>
        if n < Branch.subChatLimit ∧ ask.2 then
          some ((Branch.counted name n).answer ask.1).toJson
        else none := by
  rw [registry_step, subChatAnswer_eq]
  cases hrouted : self.routing event with
  | none =>
    have hask : self.subChatAsk name event = none := by rw [subChatAsk, hrouted, Option.bind_none]
    rw [hask]
    exact ⟨hbranch, rfl⟩
  | some call =>
    obtain ⟨channel, request⟩ := call
    have hask : self.subChatAsk name event =
        if channel = name.channel ∧ request.taskId = rootTaskId then
          some (request.prompt, event.writes)
        else none := by
      rw [subChatAsk, hrouted, Option.bind_some]
    rw [Option.elim_some, Option.bind_some]
    by_cases hchannel : channel = name.channel
    · have hon := route_on daemon.registry channel request
      rw [hchannel, hbranch, openOn, Branch.openSubChat_asked] at hon
      obtain ⟨hresult, hafter⟩ := Prod.mk.inj hon
      rw [hchannel, ← hafter, ← hresult]
      rcases (Branch.counted name n).openSubChat_cases request with
        ⟨htask, hbelow, hopen⟩ | ⟨hdown, e, hopen, _⟩
      · have hbelow : n < Branch.subChatLimit := hbelow
        rw [if_pos ⟨hchannel, htask⟩] at hask
        rw [hask, hopen]
        refine ⟨?_, ?_⟩
        · rw [if_pos ⟨rfl, hbelow⟩]
          rfl
        · simp [hbelow, Except.mapError, Except.toOption]
      · have hdown : ¬(request.taskId = rootTaskId ∧ n < Branch.subChatLimit) := hdown
        rw [hopen]
        by_cases htask : request.taskId = rootTaskId
        · have hfull : ¬n < Branch.subChatLimit := fun hbelow => hdown ⟨htask, hbelow⟩
          rw [if_pos ⟨hchannel, htask⟩] at hask
          rw [hask]
          refine ⟨?_, ?_⟩
          · rw [if_neg fun h => hfull h.2]
          · simp [hfull, Except.mapError, Except.toOption]
        · rw [if_neg fun h => htask h.2] at hask
          rw [hask]
          refine ⟨rfl, ?_⟩
          simp [Except.mapError, Except.toOption]
    · rw [if_neg fun h => hchannel h.1] at hask
      rw [hask, route_off request hchannel]
      exact ⟨hbranch, if_neg fun h => hchannel h.1⟩

theorem served_run (self : Deployment) (name : BranchName) (events : List BridgeEvent) :
    self.subChatAnswers name events = servedSubChats name (self.subChatAsks name events) ∧
      (self.after events).registry.branchOn name.channel =
        some (.counted name (min (self.subChatAsks name events).length Branch.subChatLimit)) := by
  induction events using List.reverseRecOn with
  | nil => cases name <;> exact ⟨rfl, rfl⟩
  | append_singleton events event ih =>
    obtain ⟨hanswers, hbranch⟩ := ih
    obtain ⟨hafter, hanswer⟩ := served_step self event hbranch
    have hasks : self.subChatAsks name (events ++ [event]) =
        self.subChatAsks name events ++ (self.subChatAsk name event).toList := by
      rw [subChatAsks, List.filterMap_append, ← subChatAsks]
      cases hask : self.subChatAsk name event with
      | none => simp [hask]
      | some ask => simp [hask]
    have hlast : self.after (events ++ [event]) = self.step (self.after events) event :=
      run_concat event
    rw [hlast, hafter, subChatAnswers, outputs_concat, ← subChatAnswers, hanswers, hasks]
    show _ ++ (self.subChatAnswer name (self.after events) event).toList = _ ∧ _
    rw [hanswer]
    cases hask : self.subChatAsk name event with
    | none => simp
    | some ask =>
      obtain ⟨prompt, writes⟩ := ask
      rw [Option.toList_some, servedSubChats_concat, List.length_append, List.length_singleton]
      by_cases hlimit : (self.subChatAsks name events).length < Branch.subChatLimit
      · have hmin : min (self.subChatAsks name events).length Branch.subChatLimit =
            (self.subChatAsks name events).length := min_eq_left hlimit.le
        have hnext : min ((self.subChatAsks name events).length + 1) Branch.subChatLimit =
            (self.subChatAsks name events).length + 1 := min_eq_left hlimit
        rw [hmin, hnext]
        refine ⟨?_, ?_⟩
        · cases writes with
          | false => simp
          | true => simp [hlimit]
        · simp [hlimit]
      · have hmin : min (self.subChatAsks name events).length Branch.subChatLimit =
            Branch.subChatLimit := min_eq_right (not_lt.mp hlimit)
        have hnext : min ((self.subChatAsks name events).length + 1) Branch.subChatLimit =
            Branch.subChatLimit := min_eq_right (by omega)
        rw [hmin, hnext]
        simp [hlimit]

theorem admitted_of_subChatRequest {channel : ChannelName} {connection : Connection}
    {request : SubChatOpenRequest} (h : self.subChatRequest channel connection = some request) :
    connection.uid = (self.socket channel).registeredUid ∧
      connection.Presents (self.socket channel).secureToken := by
  rcases gate_verdict (self.socket channel) connection with ⟨_, hadmitted⟩ | ⟨haway, _⟩
  · exact hadmitted
  · obtain ⟨e, hrefused⟩ := haway
    rw [subChatRequest, hrefused] at h
    cases h

theorem subChatRequest_of_routing {channel : ChannelName} {request : SubChatOpenRequest}
    (h : self.routing event = some (channel, request)) : ∃ connection io,
      event = .turn channel connection io ∧
        self.subChatRequest channel connection = some request := by
  cases event with
  | poll env now => cases h
  | command run host spawn => cases h
  | finish run => cases h
  | turn other connection io =>
    have private_turn : (self.subChatRequest other connection).map (fun request => (other, request)) =
        some (channel, request) → other = channel ∧
          self.subChatRequest other connection = some request := by
      intro hmap
      obtain ⟨request', hrequest, hsame⟩ := Option.map_eq_some_iff.mp hmap
      obtain ⟨rfl, rfl⟩ := Prod.mk.inj hsame
      exact ⟨rfl, hrequest⟩
    cases other with
    | publicMaestro => cases h
    | privateA =>
      obtain ⟨rfl, hrequest⟩ := private_turn h
      exact ⟨connection, io, rfl, hrequest⟩
    | privateB =>
      obtain ⟨rfl, hrequest⟩ := private_turn h
      exact ⟨connection, io, rfl, hrequest⟩

end Deployment

open Deployment

/-- Whatever else the daemon does, the answers on a branch are those to the first three asks for its
task, numbered in their order, without the ones that could not be written. An ask is a request that
a peer with the user and the token of the socket brings on its channel. -/
theorem sub_chats_served (self : Deployment) (name : BranchName) (events : List BridgeEvent) :
    self.subChatAnswers name events = servedSubChats name (self.subChatAsks name events) ∧
      ∀ event ask, self.subChatAsk name event = some ask → ∃ connection io request,
        event = .turn name.channel connection io ∧
          connection.uid = (self.socket name.channel).registeredUid ∧
          connection.Presents (self.socket name.channel).secureToken ∧
          self.subChatRequest name.channel connection = some request ∧
          request.taskId = rootTaskId ∧ ask = (request.prompt, io.write.isOk) := by
  refine ⟨(served_run self name events).1, fun event ask hask => ?_⟩
  obtain ⟨⟨channel, request⟩, hrouted, hasked⟩ := Option.bind_eq_some_iff.mp hask
  obtain ⟨connection, io, rfl, hrequest⟩ := subChatRequest_of_routing hrouted
  by_cases hours : channel = name.channel ∧ request.taskId = rootTaskId
  · rw [if_pos hours] at hasked
    obtain ⟨rfl, htask⟩ := hours
    obtain ⟨huid, htoken⟩ := admitted_of_subChatRequest hrequest
    exact ⟨connection, io, request, rfl, huid, htoken, hrequest, htask,
      (Option.some.inj hasked).symm⟩
  · rw [if_neg hours] at hasked
    cases hasked

end AiBridge
