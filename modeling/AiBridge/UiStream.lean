import AiBridge.Handshake
import AiBridge.MaestroHandler
import AiBridge.SerdeJson

namespace AiBridge

open Text ByteStream

namespace SerdeJson

variable (serde : SerdeJson)

/-- The text of one event, without the newline it is sent with. -/
def eventText (event : OutboundEvent) : String := serde.toString event.toJson

/-- What the stream task writes over one connection. -/
def written : List OutboundEvent → String
  | [] => ""
  | event :: events => serde.eventText event ++ "\n" ++ written events

theorem eventText_head (event : OutboundEvent) : ∃ rest, serde.eventText event = "\x7b" ++ rest := by
  cases event with
  | taskResolved taskId approved => exact serde.toString_obj _
  | executionPlan taskId description commands => exact serde.toString_obj _
  | safetyArm ty => exact serde.toString_obj _
  | safetyDisarm ty reason => exact serde.toString_obj _
  | safetyOverride ty taskId reason => exact serde.toString_obj _
  | directMessage ty text => exact serde.toString_obj _

end SerdeJson

/-- `stream.read_to_string(&mut buf)`. -/
def readToString (chunks : List (List UInt8)) : Except ChannelError String :=
  match fromUtf8 (readToEnd chunks) with
  | none => .error (.io "stream did not contain valid UTF-8")
  | some buf => .ok buf

/-- The texts that one turn of the channel task hands to `handle_maestro_message`. -/
def handedOver (socket : BridgeSocket) (connection : Connection) : List String :=
  match socket.handleClientStream connection readToString with
  | .error _ => []
  | .ok buf => [buf]

/-- One turn of the channel task of `public_maestro.sock`. An error before the handler leaves the
shared states to the next turn. -/
def channelTurn (rx : ShippedRegex) (serde : SerdeJson) (socket : BridgeSocket) (io : Surroundings)
    (pending : PendingPlans) (guard : SafetyGuard) (connection : Connection) :
    Except ChannelError Handled :=
  socket.handleClientStream connection fun stream => do
    let buf ← readToString stream
    pure (handleMaestroMessage rx serde.fromStr io pending guard buf)

variable {rx : ShippedRegex} {serde : SerdeJson} {socket : BridgeSocket} {io : Surroundings}
  {pending : PendingPlans} {guard : SafetyGuard} {connection : Connection}

theorem head_of_prefix {p cs : List Char} (hne : p ≠ []) (h : p <+: cs) : cs.head? = p.head? := by
  obtain ⟨tail, htail⟩ := h
  rw [← htail, List.head?_append_of_ne_nil _ hne]

theorem stripPrefix_eq_none {s : String} {c : Char} (hhead : s.toList.head? = some c)
    (hc : handshakePrefix.toList.head? ≠ some c) : stripPrefix (trimEnd s) handshakePrefix = none := by
  cases hstrip : stripPrefix (trimEnd s) handshakePrefix with
  | none => rfl
  | some rest =>
    have hbegins := prefix_of_stripPrefix hstrip
    rw [trimEnd, String.toList_ofList] at hbegins
    have hstart := head_of_prefix (by decide)
      (hbegins.trans (List.rdropWhile_prefix isWhitespace s.toList))
    exact absurd (hstart.symm.trans hhead) hc

/-- A text that does not start as the prefix does is no handshake. -/
theorem readHandshakeToken_of_head {chunks : List (List UInt8)} {text : String} {c : Char}
    (hhead : text.toList.head? = some c) (hc : handshakePrefix.toList.head? ≠ some c)
    (hnewline : '\n' ∈ text.toList) (h : chunks.flatten = utf8 text) :
    (readHandshakeToken chunks).1 =
      .error (.handshakeRead "malformed handshake: missing token prefix") := by
  obtain ⟨before, after, hsplit, hfresh⟩ := List.eq_append_cons_of_mem hnewline
  have htext : text = String.ofList before ++ "\n" ++ String.ofList after := by
    rw [← String.toList_inj, hsplit]
    simp
  have hbytes : chunks.flatten = utf8 (String.ofList before) ++ 10 :: utf8 (String.ofList after) := by
    rw [h, htext, utf8_append, utf8_append, utf8_newline, List.append_assoc]
    rfl
  have hfresh' : (10 : UInt8) ∉ utf8 (String.ofList before) := by
    rwa [newline_mem_utf8_iff, String.toList_ofList]
  have hline : fromUtf8 (readUntil bufReaderCapacity 10 chunks).line =
      some (String.ofList before ++ "\n") := by
    rw [(readUntil_spec bufReaderCapacity_pos hbytes hfresh').1, ← utf8_newline, ← utf8_append,
      fromUtf8_utf8]
  have hstart : (String.ofList before ++ "\n").toList.head? = some c := by
    have hwhole : (String.ofList before ++ "\n").toList <+: text.toList := by
      rw [htext]
      exact ⟨after, by simp⟩
    rw [← head_of_prefix (by simp) hwhole]
    exact hhead
  simp only [readHandshakeToken, hline, stripPrefix_eq_none hstart hc]

/-- How a connection without a handshake is refused. -/
def refusal (socket : BridgeSocket) (connection : Connection) : ChannelError :=
  if connection.uid ≠ socket.registeredUid then
    .peerUidMismatch socket.registeredUid connection.uid
  else .handshakeRead "malformed handshake: missing token prefix"

theorem handleClientStream_refused {T : Type} {handler : List (List UInt8) → Except ChannelError T}
    (h : (readHandshakeToken connection.chunks).1 =
      .error (.handshakeRead "malformed handshake: missing token prefix")) :
    socket.handleClientStream connection handler = .error (refusal socket connection) := by
  unfold BridgeSocket.handleClientStream BridgeSocket.acceptStream refusal
  by_cases huid : connection.uid ≠ socket.registeredUid
  · simp [huid, bind, Except.bind]
  · simp [huid, bind, Except.bind, h]

theorem written_refused {events : List OutboundEvent} (hne : events ≠ [])
    (hwritten : connection.chunks.flatten = utf8 (serde.written events)) :
    (readHandshakeToken connection.chunks).1 =
      .error (.handshakeRead "malformed handshake: missing token prefix") := by
  obtain ⟨event, rest, hevents⟩ := List.exists_cons_of_ne_nil hne
  obtain ⟨tail, htail⟩ := serde.eventText_head event
  have hhead : (serde.written events).toList.head? = some '\x7b' := by
    rw [hevents, SerdeJson.written, htail]
    simp
  have hnewline : '\n' ∈ (serde.written events).toList := by
    rw [hevents, SerdeJson.written]
    simp
  exact readHandshakeToken_of_head hhead (by decide) hnewline hwritten

/-- Whatever the UI sends, the daemon takes its first line for a malformed handshake: the turn
fails, and no event gets to the handler. -/
theorem ui_events_not_delivered (rx : ShippedRegex) (serde : SerdeJson) (socket : BridgeSocket)
    (io : Surroundings) (pending : PendingPlans) (guard : SafetyGuard) (connection : Connection)
    (events : List OutboundEvent) (hne : events ≠ [])
    (hwritten : connection.chunks.flatten = utf8 (serde.written events)) :
    channelTurn rx serde socket io pending guard connection =
        .error (refusal socket connection) ∧
      ¬(handedOver socket connection).map trim =
        events.map fun event => trim (serde.eventText event) := by
  have hrefused : (readHandshakeToken connection.chunks).1 = _ := written_refused hne hwritten
  refine ⟨handleClientStream_refused hrefused, ?_⟩
  intro hdelivered
  have hnothing : handedOver socket connection = [] := by
    rw [handedOver, handleClientStream_refused hrefused]
  rw [hnothing, List.map_nil] at hdelivered
  exact hne (List.map_eq_nil_iff.mp hdelivered.symm)

example : (plainJson []).eventText (.safetyArm "safety_arm") =
    "\x7b\"type\":\"safety_arm\"\x7d" := by
  decide

/-- The documents behind the texts of an approval and of an arm event. -/
def uiJson : SerdeJson :=
  plainJson
    [("\x7b\"task_id\":\"task-1\",\"approved\":true\x7d", TaskResolved.toJson ⟨"task-1", true⟩),
      ("\x7b\"type\":\"safety_arm\"\x7d", .obj [("type", .str "safety_arm")])]

theorem ui_events_not_delivered_approval :
    channelTurn plainRegex uiJson ⟨.publicMaestro, 1000, "c0ffee"⟩ ⟨⟨none⟩, 0, 0, 0, .ok ()⟩
        .new .new
        ⟨1000, [utf8 (uiJson.written [.taskResolved "task-1" true, .safetyArm "safety_arm"])]⟩ =
      .error (.handshakeRead "malformed handshake: missing token prefix") := by
  have hnot := ui_events_not_delivered plainRegex uiJson ⟨.publicMaestro, 1000, "c0ffee"⟩
    ⟨⟨none⟩, 0, 0, 0, .ok ()⟩ .new .new
    ⟨1000, [utf8 (uiJson.written [.taskResolved "task-1" true, .safetyArm "safety_arm"])]⟩
    [.taskResolved "task-1" true, .safetyArm "safety_arm"] (by simp) List.flatten_singleton
  exact hnot.1

theorem ui_arm_event_lost :
    let socket : BridgeSocket := ⟨.publicMaestro, 1000, "c0ffee"⟩
    let connection : Connection := ⟨1000, [utf8 (uiJson.written [.safetyArm "safety_arm"])]⟩
    connection.chunks.flatten = utf8 (uiJson.written [.safetyArm "safety_arm"]) ∧
      handedOver socket connection = [] ∧
      ¬(handedOver socket connection).map trim =
        [.safetyArm "safety_arm"].map fun event => trim (uiJson.eventText event) := by
  intro socket connection
  have hwritten : connection.chunks.flatten = utf8 (uiJson.written [.safetyArm "safety_arm"]) :=
    List.flatten_singleton
  have hrefused : (readHandshakeToken connection.chunks).1 = _ := written_refused (by simp) hwritten
  have hnothing : handedOver socket connection = [] := by
    rw [handedOver, handleClientStream_refused hrefused]
  refine ⟨hwritten, hnothing, ?_⟩
  rw [hnothing]
  simp

end AiBridge
