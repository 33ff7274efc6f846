import AiBridge.ByteStream
import AiBridge.Errors
import AiBridge.Utf8

namespace AiBridge

open Text ByteStream

def handshakePrefix : String := "AI_BRIDGE_TOKEN:"

/-- The capacity of a `BufReader` that is made with `new`. -/
def bufReaderCapacity : Nat := 8 * 1024

/-- The line a client presents its token with. -/
def handshakeLine (token : String) : String := handshakePrefix ++ token ++ "\n"

structure BridgeSocket where
  name : ChannelName
  registeredUid : Nat
  secureToken : String
  deriving DecidableEq, Repr

/-- An incoming connection: the user of the peer, and the bytes it sends in the pieces they
arrive in. -/
structure Connection where
  uid : Nat
  chunks : List (List UInt8)

/-- The reader is dropped with what it has read ahead, and the stream goes on behind it. -/
def readHandshakeToken (chunks : List (List UInt8)) :
    Except ChannelError String × List (List UInt8) :=
  let read := readUntil bufReaderCapacity 10 chunks
  match fromUtf8 read.line with
  | none => (.error (.handshakeRead "stream did not contain valid UTF-8"), read.rest)
  | some line =>
    match stripPrefix (trimEnd line) handshakePrefix with
    | some token => (.ok token, read.rest)
    | none => (.error (.handshakeRead "malformed handshake: missing token prefix"), read.rest)

namespace BridgeSocket

variable (self : BridgeSocket)

def acceptStream (connection : Connection) : Except ChannelError (List (List UInt8)) :=
  if connection.uid ≠ self.registeredUid then
    .error (.peerUidMismatch self.registeredUid connection.uid)
  else .ok connection.chunks

def verifyHandshakeToken (received : String) : Except ChannelError Unit :=
  if received ≠ self.secureToken then .error .handshakeMismatch else .ok ()

def handleClientStream {T : Type} (connection : Connection)
    (handler : List (List UInt8) → Except ChannelError T) : Except ChannelError T := do
  let stream ← self.acceptStream connection
  let (received, stream) := readHandshakeToken stream
  self.verifyHandshakeToken (← received)
  handler stream

end BridgeSocket

variable {socket : BridgeSocket} {chunks : List (List UInt8)} {token : String}
  {payload : List UInt8}

theorem trimEnd_handshakeLine (token : String) :
    trimEnd (handshakeLine token) = handshakePrefix ++ trimEnd token := by
  have hcolon : handshakePrefix.toList.getLast? = some ':' := by decide
  have hlast : ∀ c, handshakePrefix.toList.getLast? = some c → isWhitespace c = false := by
    intro c hc
    rw [hcolon, Option.some.injEq] at hc
    rw [← hc]
    decide
  have hnewline : "\n".toList = ['\n'] := by decide
  rw [← String.toList_inj, trimEnd, handshakeLine, String.toList_ofList, String.toList_append,
    String.toList_append, hnewline, List.rdropWhile_concat_pos _ _ _ (by decide),
    rdropWhile_append hlast, String.toList_append, trimEnd, String.toList_ofList]

theorem bufReaderCapacity_pos : 0 < bufReaderCapacity := by decide

theorem newline_not_mem_presented (hfresh : '\n' ∉ token.toList) :
    (10 : UInt8) ∉ utf8 (handshakePrefix ++ token) := by
  have hstart : '\n' ∉ handshakePrefix.toList := by decide
  rw [newline_mem_utf8_iff, String.toList_append, List.mem_append, not_or]
  exact ⟨hstart, hfresh⟩

/-- The token that is read is what stands between the prefix and the first newline, without the
blanks at its end. -/
theorem readHandshakeToken_of_line (hfresh : '\n' ∉ token.toList)
    (h : chunks.flatten = utf8 (handshakePrefix ++ token) ++ 10 :: payload) :
    readHandshakeToken chunks =
      (.ok (trimEnd token), (readUntil bufReaderCapacity 10 chunks).rest) := by
  obtain ⟨hline, _⟩ := readUntil_spec bufReaderCapacity_pos h (newline_not_mem_presented hfresh)
  have hspelled : fromUtf8 (readUntil bufReaderCapacity 10 chunks).line =
      some (handshakeLine token) := by
    rw [hline, ← utf8_newline, ← utf8_append, fromUtf8_utf8]
    rfl
  have hstrip : stripPrefix (handshakePrefix ++ trimEnd token) handshakePrefix =
      some (trimEnd token) := stripPrefix_eq_some_iff.mpr rfl
  simp only [readHandshakeToken, hspelled, trimEnd_handshakeLine, hstrip]

theorem handleClientStream_of_line {T : Type} {handler : List (List UInt8) → Except ChannelError T}
    (hfresh : '\n' ∉ token.toList)
    (h : chunks.flatten = utf8 (handshakePrefix ++ token) ++ 10 :: payload) :
    socket.handleClientStream ⟨socket.registeredUid, chunks⟩ handler =
      if trimEnd token = socket.secureToken then
        handler (readUntil bufReaderCapacity 10 chunks).rest
      else .error .handshakeMismatch := by
  unfold BridgeSocket.handleClientStream
  simp only [BridgeSocket.acceptStream, ne_eq, not_true_eq_false, if_false, bind, Except.bind,
    readHandshakeToken_of_line hfresh h, BridgeSocket.verifyHandshakeToken]
  by_cases hmatch : trimEnd token = socket.secureToken
  · simp [hmatch]
  · simp [hmatch]

theorem utf8_handshakeLine (token : String) :
    utf8 (handshakeLine token) = utf8 (handshakePrefix ++ token) ++ [10] := by
  rw [handshakeLine, utf8_append, utf8_newline]

theorem utf8_handshakeLine_newline (before after : String) :
    utf8 (handshakeLine (before ++ "\n" ++ after)) =
      utf8 (handshakePrefix ++ before) ++ 10 :: utf8 (after ++ "\n") := by
  have hline : handshakeLine (before ++ "\n" ++ after) =
      handshakePrefix ++ before ++ "\n" ++ (after ++ "\n") := by
    simp only [handshakeLine, String.append_assoc]
  rw [hline, utf8_append, utf8_append, utf8_newline, List.append_assoc]
  rfl

/-- A token with a newline in it is cut short and does not match. -/
theorem trimEnd_ne_of_newline {before : String} (hfresh : '\n' ∉ before.toList)
    (hnewline : '\n' ∈ token.toList) : trimEnd before ≠ token := by
  intro heq
  rw [← heq, trimEnd, String.toList_ofList] at hnewline
  exact hfresh ((List.rdropWhile_prefix isWhitespace before.toList).mem hnewline)

/-- With a correct token the handler gets the payload exactly if the token has neither a newline
nor a blank at its end, and no payload comes in with the read that brings the newline. -/
theorem handshake_keeps_payload_iff (socket : BridgeSocket) (chunks : List (List UInt8))
    (payload : List UInt8)
    (h : chunks.flatten = utf8 (handshakeLine socket.secureToken) ++ payload) :
    socket.handleClientStream ⟨socket.registeredUid, chunks⟩
        (fun stream => .ok (readToEnd stream)) = .ok payload ↔
      '\n' ∉ socket.secureToken.toList ∧ trimEnd socket.secureToken = socket.secureToken ∧
        (payload = [] ∨
          StopsAt bufReaderCapacity chunks (utf8 (handshakeLine socket.secureToken)).length) := by
  by_cases hnewline : '\n' ∈ socket.secureToken.toList
  · obtain ⟨before, after, hsplit, hfresh⟩ := List.eq_append_cons_of_mem hnewline
    have htoken : socket.secureToken = String.ofList before ++ "\n" ++ String.ofList after := by
      rw [← String.toList_inj, hsplit]
      simp
    have hbytes : chunks.flatten = utf8 (handshakePrefix ++ String.ofList before) ++
        10 :: (utf8 (String.ofList after ++ "\n") ++ payload) := by
      rw [h, htoken, utf8_handshakeLine_newline, List.append_assoc]
      rfl
    have hfresh' : '\n' ∉ (String.ofList before).toList := by rwa [String.toList_ofList]
    rw [handleClientStream_of_line hfresh' hbytes, if_neg (trimEnd_ne_of_newline hfresh' hnewline)]
    constructor
    · intro habs
      simp at habs
    · intro habs
      exact absurd hnewline habs.1
  · have hbytes : chunks.flatten = utf8 (handshakePrefix ++ socket.secureToken) ++ 10 :: payload := by
      rw [h, utf8_handshakeLine, List.append_assoc]
      rfl
    have hfresh : (10 : UInt8) ∉ utf8 (handshakePrefix ++ socket.secureToken) :=
      newline_not_mem_presented hnewline
    have hlength : (utf8 (handshakeLine socket.secureToken)).length =
        (utf8 (handshakePrefix ++ socket.secureToken)).length + 1 := by
      rw [utf8_handshakeLine, List.length_append, List.length_singleton]
    rw [handleClientStream_of_line hnewline hbytes, hlength]
    by_cases htrim : trimEnd socket.secureToken = socket.secureToken
    · rw [if_pos htrim, Except.ok.injEq, readToEnd,
        ← readUntil_ahead_eq_nil_iff bufReaderCapacity_pos hbytes hfresh]
      have hleft := (readUntil_spec bufReaderCapacity_pos hbytes hfresh).2
      constructor
      · intro hpayload
        rw [hpayload] at hleft
        exact ⟨hnewline, htrim, List.append_left_eq_self.mp hleft⟩
      · intro hkept
        rw [hkept.2.2, List.nil_append] at hleft
        exact hleft
    · rw [if_neg htrim]
      constructor
      · intro habs
        simp at habs
      · intro habs
        exact absurd habs.2.1 htrim

theorem handshake_keeps_payload_in_two_reads :
    (BridgeSocket.handleClientStream ⟨.publicMaestro, 1000, "c0ffee"⟩
        ⟨1000, [utf8 (handshakeLine "c0ffee"), utf8 "\x7b\"task_id\":\"task-1\"\x7d\n"]⟩
        fun stream => .ok (readToEnd stream)) = .ok (utf8 "\x7b\"task_id\":\"task-1\"\x7d\n") := by
  have hkeeps := handshake_keeps_payload_iff ⟨.publicMaestro, 1000, "c0ffee"⟩
    [utf8 (handshakeLine "c0ffee"), utf8 "\x7b\"task_id\":\"task-1\"\x7d\n"]
    (utf8 "\x7b\"task_id\":\"task-1\"\x7d\n") (by simp)
  refine hkeeps.mpr ⟨by decide, by decide, Or.inr (Or.inr ⟨le_refl _, ?_⟩)⟩
  rw [Nat.sub_self]
  exact stopsAt_zero

/-- A payload that comes in with the handshake line, in one piece that fits into the buffer, is
dropped with the reader. -/
theorem payload_lost_with_line (hfresh : '\n' ∉ token.toList) (htrim : trimEnd token = token)
    (hfits : (utf8 (handshakeLine token) ++ payload).length ≤ bufReaderCapacity)
    (name : ChannelName) (uid : Nat) :
    (BridgeSocket.handleClientStream ⟨name, uid, token⟩
      ⟨uid, [utf8 (handshakeLine token) ++ payload]⟩ fun stream => .ok (readToEnd stream)) =
        .ok [] := by
  have hbytes : utf8 (handshakeLine token) ++ payload =
      utf8 (handshakePrefix ++ token) ++ 10 :: payload := by
    rw [utf8_handshakeLine, List.append_assoc]
    rfl
  have hflatten : [utf8 (handshakeLine token) ++ payload].flatten =
      utf8 (handshakePrefix ++ token) ++ 10 :: payload := by
    rw [List.flatten_singleton, hbytes]
  have hread : read bufReaderCapacity [utf8 (handshakeLine token) ++ payload] =
      (utf8 (handshakePrefix ++ token) ++ 10 :: payload, [[]]) := by
    rw [hbytes] at hfits ⊢
    exact read_of_fits (by simp) hfits
  have hfound := readUntil_of_found (congrArg Prod.fst hread) (newline_not_mem_presented hfresh)
  rw [handleClientStream_of_line hfresh hflatten, if_pos htrim, hfound, hread]
  rfl

theorem payload_lost_in_one_read :
    let payload := utf8 "\x7b\"task_id\":\"task-1\"\x7d\n"
    let chunks := [utf8 (handshakeLine "c0ffee") ++ payload]
    chunks.flatten = utf8 (handshakeLine "c0ffee") ++ payload ∧
      ¬(BridgeSocket.handleClientStream ⟨.publicMaestro, 1000, "c0ffee"⟩ ⟨1000, chunks⟩
        fun stream => .ok (readToEnd stream)) = .ok payload := by
  intro payload chunks
  have hlost : (BridgeSocket.handleClientStream ⟨.publicMaestro, 1000, "c0ffee"⟩ ⟨1000, chunks⟩
      fun stream => .ok (readToEnd stream)) = .ok [] :=
    payload_lost_with_line (by decide) (by decide) (by decide) .publicMaestro 1000
  refine ⟨List.flatten_singleton, ?_⟩
  intro hkept
  rw [hlost, Except.ok.injEq] at hkept
  have hnonempty : payload ≠ [] := by decide
  exact hnonempty hkept.symm

end AiBridge
