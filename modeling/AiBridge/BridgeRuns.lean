import AiBridge.BridgeDaemon
import AiBridge.DelegationWindow
import AiBridge.ExecutorGate

namespace AiBridge

open PendingPlans Text

variable {rx : ShippedRegex} {io : Surroundings} {pending : PendingPlans} {guard : SafetyGuard}

/-- What a call hands out, none for an event that makes no call. -/
def PendingPlans.releasedBy (rx : ShippedRegex) (pending : PendingPlans) (call : Option Call) :
    Multiset (String × ExecutionPlan) :=
  call.elim 0 (pending.released rx)

def PendingPlans.stepBy (rx : ShippedRegex) (pending : PendingPlans) (call : Option Call) :
    PendingPlans :=
  call.elim pending (pending.step rx)

section Requests

theorem pending_perform (request : Request) :
    (request.perform rx io pending guard).pending = pending.stepBy rx (request.call io) := by
  cases request with
  | resolve resolved =>
    cases hl : pending.tasks.lookup resolved.taskId with
    | none =>
      rw [Request.perform, resolveTask_unknown resolved hl, failWith]
      simp [stepBy, Request.call, step, handleOwnerDecision, hl]
    | some task =>
      rw [Request.perform, resolveTask_known resolved hl, writeAck_pending]
      rfl
  | submit plan =>
    rw [Request.perform, submitPlan_eq, writeAck_pending]
    rfl
  | ask q =>
    rw [Request.perform, (answerQuery_pending q).1]
    rfl
  | arm => exact writeAck_pending
  | disarm reason => exact writeAck_pending
  | logOverride taskId => exact writeAck_pending
  | directMessage text => exact writeAck_pending

theorem handed_writeAck_le {ack : Json} {returned : Option (String × ExecutionPlan)} :
    BridgeDaemon.handed (writeAck io pending guard ack returned) ≤
      returned.elim 0 fun exec => {PlanRun.start exec} := by
  cases hw : io.write with
  | error message =>
    rw [BridgeDaemon.handed, writeAck_result_error hw]
    exact Multiset.zero_le _
  | ok u =>
    rw [writeAck_ok hw]
    cases returned with
    | none => exact le_refl _
    | some exec => exact le_refl _

theorem elim_start (returned : Option (String × ExecutionPlan)) :
    (returned.elim 0 fun exec => {PlanRun.start exec} : Multiset PlanRun) =
      (returned.elim 0 fun exec => {exec} : Multiset (String × ExecutionPlan)).map PlanRun.start := by
  cases returned with
  | none => rfl
  | some exec => rfl

/-- What the handler returns for execution was handed out by the call on the registry. A failed
write returns nothing. -/
theorem handed_perform_le (request : Request) :
    BridgeDaemon.handed (request.perform rx io pending guard) ≤
      (pending.releasedBy rx (request.call io)).map PlanRun.start := by
  cases request with
  | resolve resolved =>
    cases hl : pending.tasks.lookup resolved.taskId with
    | none =>
      rw [Request.perform, resolveTask_unknown resolved hl]
      exact Multiset.zero_le _
    | some task =>
      rw [Request.perform, resolveTask_known resolved hl]
      refine le_trans handed_writeAck_le ?_
      rw [elim_start]
      apply Multiset.map_le_map
      by_cases hheld : task.status = .heldForManualApproval
      · cases happroved : resolved.approved with
        | true => simp [releasedBy, Request.call, released, handleOwnerDecision, hl, hheld, happroved]
        | false =>
          rw [if_neg (by simp)]
          exact Multiset.zero_le _
      · rw [if_neg (by simp [hheld])]
        exact Multiset.zero_le _
  | submit plan =>
    rw [Request.perform, submitPlan_eq]
    refine le_trans handed_writeAck_le ?_
    rw [elim_start]
    apply Multiset.map_le_map
    simp only [releasedBy, Request.call, Option.elim_some, released]
    cases (pending.ingest rx io.env plan io.now).1.1 with
    | pendingTimeout => simp
    | autoApproved => simp
    | heldForManualApproval => simp
  | ask q =>
    simp only [Request.perform, answerQuery]
    cases pending.query q.taskId with
    | error e => exact Multiset.zero_le _
    | ok result => exact le_trans handed_writeAck_le (Multiset.zero_le _)
  | arm => exact le_trans handed_writeAck_le (Multiset.zero_le _)
  | disarm reason => exact le_trans handed_writeAck_le (Multiset.zero_le _)
  | logOverride taskId => exact le_trans handed_writeAck_le (Multiset.zero_le _)
  | directMessage text => exact le_trans handed_writeAck_le (Multiset.zero_le _)

end Requests

namespace BridgeSocket

variable {socket : BridgeSocket} {connection : Connection}

/-- What a handler makes of the text of a stream, it makes of what reading it gives. -/
theorem handleClientStream_map {T : Type} (f : String → T) :
    (socket.handleClientStream connection fun stream => do
      let buf ← readToString stream
      pure (f buf)) = (socket.handleClientStream connection readToString).map f := by
  rcases gate_verdict socket connection with hgate | hgate
  · obtain ⟨rest, hrest⟩ := hgate.1
    rw [hrest, hrest]
    cases readToString rest with
    | error e => rfl
    | ok buf => rfl
  · obtain ⟨e, haway⟩ := hgate.1
    rw [haway, haway]
    rfl

end BridgeSocket

/-- A text that comes behind the handshake line, in a piece of its own, is what the handler reads. -/
theorem handleClientStream_of_pieces {token text : String} (hfresh : '\n' ∉ token.toList)
    (htrim : trimEnd token = token) (hfits : (utf8 (handshakeLine token)).length ≤ bufReaderCapacity)
    (name : ChannelName) (uid : Nat) :
    (BridgeSocket.handleClientStream ⟨name, uid, token⟩
      ⟨uid, [utf8 (handshakeLine token), utf8 text]⟩ readToString) = .ok text := by
  have hline : utf8 (handshakeLine token) = utf8 (handshakePrefix ++ token) ++ [10] :=
    utf8_handshakeLine token
  have hflatten : [utf8 (handshakeLine token), utf8 text].flatten =
      utf8 (handshakePrefix ++ token) ++ 10 :: utf8 text := by
    rw [hline]
    simp
  have hread : ByteStream.read bufReaderCapacity [utf8 (handshakeLine token), utf8 text] =
      (utf8 (handshakePrefix ++ token) ++ [10], [[], utf8 text]) := by
    rw [hline] at hfits ⊢
    exact ByteStream.read_of_fits (by simp) hfits
  have hfound := ByteStream.readUntil_of_found (congrArg Prod.fst hread)
    (newline_not_mem_presented hfresh)
  rw [handleClientStream_of_line hfresh hflatten, if_pos htrim, hfound, hread]
  simp [readToString, ByteStream.readToEnd, fromUtf8_utf8]

namespace Deployment

variable {self : Deployment} {daemon : BridgeDaemon} {event : BridgeEvent}

theorem channelTurn_eq (connection : Connection) :
    channelTurn self.rx self.serde (self.socket .publicMaestro) io pending guard connection =
      ((self.socket .publicMaestro).handleClientStream connection readToString).map
        (handleMaestroMessage self.rx self.serde.fromStr io pending guard) :=
  BridgeSocket.handleClientStream_map _

/-- A turn of the Maestro's channel brings a request to its handler, or leaves the registry alone
and executes nothing. -/
theorem turn_cases (self : Deployment) (daemon : BridgeDaemon) (connection : Connection)
    (io : Surroundings) :
    (∃ request, self.request connection = some request ∧
      let out := request.perform self.rx io daemon.pending daemon.guard
      self.step daemon (.turn .publicMaestro connection io) =
        { daemon with
          pending := out.pending
          guard := out.guard
          running := daemon.running + BridgeDaemon.handed out }) ∨
    (self.request connection = none ∧
      self.step daemon (.turn .publicMaestro connection io) = daemon) := by
  unfold step request
  simp only [channelTurn_eq]
  cases (self.socket .publicMaestro).handleClientStream connection readToString with
  | error e => exact Or.inr ⟨rfl, rfl⟩
  | ok buf =>
    simp only [Except.map, Request.handleMaestroMessage_eq]
    cases Request.read self.serde.fromStr buf with
    | error e =>
      right
      exact ⟨rfl, by simp [Request.performOrFail, failWith, BridgeDaemon.handed]⟩
    | ok request => exact Or.inl ⟨request, rfl, rfl⟩

theorem branch_step {channel : ChannelName} (hchannel : channel ≠ .publicMaestro)
    (connection : Connection) (io : Surroundings) :
    (self.step daemon (.turn channel connection io)).pending = daemon.pending ∧
      (self.step daemon (.turn channel connection io)).running = daemon.running := by
  cases channel with
  | publicMaestro => exact absurd rfl hchannel
  | privateA =>
    simp only [step]
    cases self.branchTurn .privateA daemon.registry io.write connection with
    | error e => exact ⟨rfl, rfl⟩
    | ok out => exact ⟨rfl, rfl⟩
  | privateB =>
    simp only [step]
    cases self.branchTurn .privateB daemon.registry io.write connection with
    | error e => exact ⟨rfl, rfl⟩
    | ok out => exact ⟨rfl, rfl⟩

/-- The registry of the daemon sees the calls of the events and nothing else. -/
theorem pending_step (self : Deployment) (daemon : BridgeDaemon) (event : BridgeEvent) :
    (self.step daemon event).pending = daemon.pending.stepBy self.rx (self.call event) := by
  cases event with
  | turn channel connection io =>
    by_cases hchannel : channel = .publicMaestro
    · subst hchannel
      rcases turn_cases self daemon connection io with ⟨request, hrequest, hstep⟩ | ⟨hnone, hstep⟩
      · rw [hstep, call, hrequest]
        exact pending_perform request
      · rw [hstep, call, hnone]
        rfl
    · rw [(branch_step hchannel connection io).1]
      cases channel with
      | publicMaestro => exact absurd rfl hchannel
      | privateA => rfl
      | privateB => rfl
  | poll env now => rfl
  | command run host spawn =>
    simp only [step]
    cases run.command with
    | none => rfl
    | some cmd => rfl
  | finish run => rfl

theorem calls_concat (self : Deployment) (events : List BridgeEvent) (event : BridgeEvent) :
    self.calls (events ++ [event]) = self.calls events ++ (self.call event).toList := by
  rw [calls, List.filterMap_append, ← calls]
  cases hcall : self.call event with
  | none => simp [hcall]
  | some call => simp [hcall]

theorem pending_after (self : Deployment) (events : List BridgeEvent) :
    (self.after events).pending = PendingPlans.after self.rx (self.calls events) := by
  induction events using List.reverseRecOn with
  | nil => rfl
  | append_singleton events event ih =>
    rw [after, Runs.run_concat, ← after, pending_step, ih, calls_concat]
    cases self.call event with
    | none => simp [stepBy]
    | some call =>
      rw [Option.toList_some, PendingPlans.after, PendingPlans.after, Runs.run_concat]
      rfl

/-- Every other event than a command or an end adds executions of what the registry hands out. -/
theorem running_step_le (self : Deployment) (daemon : BridgeDaemon)
    (hcommand : ∀ run host spawn, event ≠ .command run host spawn) (hfinish : ∀ run, event ≠ .finish run) :
    (self.step daemon event).running ≤ daemon.running +
      (daemon.pending.releasedBy self.rx (self.call event)).map PlanRun.start := by
  cases event with
  | turn channel connection io =>
    by_cases hchannel : channel = .publicMaestro
    · subst hchannel
      rcases turn_cases self daemon connection io with ⟨request, hrequest, hstep⟩ | ⟨hnone, hstep⟩
      · rw [hstep, call, hrequest]
        exact add_le_add le_rfl (handed_perform_le request)
      · rw [hstep]
        exact Multiset.le_add_right _ _
    · rw [(branch_step hchannel connection io).2]
      exact Multiset.le_add_right _ _
  | poll env now => exact le_refl _
  | command run host spawn => exact absurd rfl (hcommand run host spawn)
  | finish run => exact absurd rfl (hfinish run)

theorem running_step_command {run : PlanRun} {host : Host}
    {spawn : String → List String → Except IoError Output} {cmd : String}
    (hcmd : run.command = some cmd) :
    (self.step daemon (.command run host spawn)).running =
      run.next (executeApprovedTask self.shlex host spawn cmd).result ::ₘ
        daemon.running.erase run := by
  simp only [step, hcmd]

end Deployment

end AiBridge
