import AiBridge.Handshake

namespace AiBridge

open Text ByteStream

def hexDigits : String := "0123456789abcdef"

def hexDigit (n : Nat) : Char := hexDigits.toList.getD n '0'

/-- `hex::encode` -/
def hexEncode (bytes : List UInt8) : String :=
  String.ofList (bytes.flatMap fun b => [hexDigit (b.toNat / 16), hexDigit (b.toNat % 16)])

/-- The token of a socket: 64 hexadecimal digits. -/
structure SecureToken where
  asStr : String
  length_eq : asStr.length = 64
  digits : ∀ c ∈ asStr.toList, c ∈ hexDigits.toList

theorem hexDigit_mem (n : Nat) : hexDigit n ∈ hexDigits.toList := by
  rw [hexDigit, List.getD_eq_getElem?_getD]
  by_cases hn : n < hexDigits.toList.length
  · rw [List.getElem?_eq_getElem hn]
    exact List.getElem_mem hn
  · rw [List.getElem?_eq_none (by omega)]
    decide

theorem length_hexEncode (bytes : List UInt8) : (hexEncode bytes).length = 2 * bytes.length := by
  rw [hexEncode, String.length_ofList]
  induction bytes with
  | nil => rfl
  | cons b bytes ih =>
    rw [List.flatMap_cons, List.length_append, ih, List.length_cons]
    simp only [List.length_cons, List.length_nil]
    omega

theorem mem_hexEncode {bytes : List UInt8} {c : Char} (h : c ∈ (hexEncode bytes).toList) :
    c ∈ hexDigits.toList := by
  rw [hexEncode, String.toList_ofList, List.mem_flatMap] at h
  obtain ⟨b, _, hc⟩ := h
  rcases List.mem_cons.mp hc with hhigh | hlow
  · rw [hhigh]
    exact hexDigit_mem _
  · rw [List.mem_singleton.mp hlow]
    exact hexDigit_mem _

/-- `buf` is what `getrandom` fills in. -/
def SecureToken.generate (buf : List UInt8) (hbuf : buf.length = 32) : SecureToken where
  asStr := hexEncode buf
  length_eq := by rw [length_hexEncode, hbuf]
  digits _ hc := mem_hexEncode hc

namespace SecureToken

variable (token : SecureToken)

theorem digit_not_blank {c : Char} (h : c ∈ token.asStr.toList) : isWhitespace c = false := by
  have hall : hexDigits.toList.all (fun c => !isWhitespace c) = true := by decide
  have hc := List.all_eq_true.mp hall c (token.digits c h)
  simpa using hc

theorem newline_not_mem : '\n' ∉ token.asStr.toList := by
  intro h
  have hblank := token.digit_not_blank h
  exact absurd hblank (by decide)

theorem trimEnd_asStr : trimEnd token.asStr = token.asStr := by
  have hself : token.asStr.toList.rdropWhile isWhitespace = token.asStr.toList := by
    apply List.rdropWhile_eq_self_iff.mpr
    intro hne
    simp [token.digit_not_blank (List.getLast_mem hne)]
  rw [trimEnd, hself, String.ofList_toList]

end SecureToken

namespace Connection

variable (connection : Connection)

def bytes : List UInt8 := connection.chunks.flatten

/-- The first line is text that presents the token, up to blanks at its end. -/
def Presents (token : String) : Prop :=
  ∃ line, fromUtf8 (firstLine 10 connection.bytes) = some line ∧
    trimEnd line = handshakePrefix ++ token

end Connection

namespace BridgeSocket

def bind (name : ChannelName) (registeredUid : Nat) (token : SecureToken) : BridgeSocket :=
  ⟨name, registeredUid, token.asStr⟩

variable (self : BridgeSocket) (connection : Connection)

/-- Whatever the handler is, it is run, on what is left of the stream. -/
def Runs : Prop :=
  ∃ rest, ∀ (T : Type) (handler : List (List UInt8) → Except ChannelError T),
    self.handleClientStream connection handler = handler rest

/-- Whatever the handler is, the call fails with one and the same error. -/
def TurnsAway : Prop :=
  ∃ e, ∀ (T : Type) (handler : List (List UInt8) → Except ChannelError T),
    self.handleClientStream connection handler = .error e

end BridgeSocket

/-- What `write_handshake` sends. -/
def writeHandshake (token : String) : List UInt8 := utf8 (handshakeLine token)

variable {self : BridgeSocket} {connection : Connection}

theorem trimEnd_concat_newline (line : String) : trimEnd (line ++ "\n") = trimEnd line := by
  have hnewline : "\n".toList = ['\n'] := by decide
  rw [trimEnd, String.toList_append, hnewline, List.rdropWhile_concat_pos _ _ _ (by decide),
    ← trimEnd]

/-- The line is read as far as the first newline goes, with the newline or without it. -/
theorem line_spelled (chunks : List (List UInt8)) :
    (fromUtf8 (readUntil bufReaderCapacity 10 chunks).line).map trimEnd =
      (fromUtf8 (firstLine 10 chunks.flatten)).map trimEnd := by
  by_cases hmem : (10 : UInt8) ∈ chunks.flatten
  · obtain ⟨before, after, hsplit, hfresh⟩ := List.eq_append_cons_of_mem hmem
    have hline := (readUntil_spec bufReaderCapacity_pos hsplit hfresh).1
    rw [hline, hsplit, firstLine_of_found after hfresh, fromUtf8_concat_newline, Option.map_map]
    congr 1
    funext line
    exact trimEnd_concat_newline line
  · rw [readUntil_of_endless bufReaderCapacity_pos hmem, firstLine_of_endless hmem]

theorem readHandshakeToken_eq_ok_iff {chunks : List (List UInt8)} {token : String} :
    (readHandshakeToken chunks).1 = .ok token ↔
      ∃ line, fromUtf8 (firstLine 10 chunks.flatten) = some line ∧
        trimEnd line = handshakePrefix ++ token := by
  have hspelled := line_spelled chunks
  have hread : (readHandshakeToken chunks).1 = .ok token ↔
      (fromUtf8 (readUntil bufReaderCapacity 10 chunks).line).map trimEnd =
        some (handshakePrefix ++ token) := by
    cases hline : fromUtf8 (readUntil bufReaderCapacity 10 chunks).line with
    | none => simp [readHandshakeToken, hline]
    | some line =>
      rw [Option.map_some, Option.some.injEq, ← stripPrefix_eq_some_iff]
      cases hstrip : stripPrefix (trimEnd line) handshakePrefix with
      | none => simp [readHandshakeToken, hline, hstrip]
      | some found => simp [readHandshakeToken, hline, hstrip]
  rw [hread, hspelled, Option.map_eq_some_iff]

theorem not_runs_of_turnsAway (h : self.TurnsAway connection) : ¬self.Runs connection := by
  intro hruns
  obtain ⟨e, haway⟩ := h
  obtain ⟨rest, hrest⟩ := hruns
  have hhandled := (haway Unit fun _ => .ok ()).symm.trans (hrest Unit fun _ => .ok ())
  simp at hhandled

/-- The gate decides on the peer and on the first line, and on nothing else. -/
theorem gate_verdict (self : BridgeSocket) (connection : Connection) :
    (self.Runs connection ∧ connection.uid = self.registeredUid ∧
      connection.Presents self.secureToken) ∨
    (self.TurnsAway connection ∧ ¬(connection.uid = self.registeredUid ∧
      connection.Presents self.secureToken)) := by
  by_cases huid : connection.uid = self.registeredUid
  · have haccept : self.acceptStream connection = .ok connection.chunks := by
      rw [BridgeSocket.acceptStream, if_neg (not_not.mpr huid)]
    cases hread : (readHandshakeToken connection.chunks).1 with
    | error e =>
      right
      refine ⟨⟨e, ?_⟩, ?_⟩
      · intro T handler
        simp only [BridgeSocket.handleClientStream, haccept, bind, Except.bind, hread]
      · intro hpresents
        have hok := readHandshakeToken_eq_ok_iff.mpr hpresents.2
        rw [hread] at hok
        simp at hok
    | ok received =>
      by_cases hmatch : received = self.secureToken
      · left
        refine ⟨⟨(readHandshakeToken connection.chunks).2, ?_⟩, huid, ?_⟩
        · intro T handler
          simp only [BridgeSocket.handleClientStream, haccept, bind, Except.bind, hread,
            BridgeSocket.verifyHandshakeToken, hmatch, ne_eq, not_true_eq_false, if_false]
        · rw [hmatch] at hread
          exact readHandshakeToken_eq_ok_iff.mp hread
      · right
        refine ⟨⟨.handshakeMismatch, ?_⟩, ?_⟩
        · intro T handler
          simp only [BridgeSocket.handleClientStream, haccept, bind, Except.bind, hread,
            BridgeSocket.verifyHandshakeToken, ne_eq, hmatch, not_false_eq_true, if_true]
        · intro hpresents
          have hok := readHandshakeToken_eq_ok_iff.mpr hpresents.2
          rw [hread, Except.ok.injEq] at hok
          exact hmatch hok
  · right
    refine ⟨⟨.peerUidMismatch self.registeredUid connection.uid, ?_⟩, fun h => huid h.1⟩
    intro T handler
    simp only [BridgeSocket.handleClientStream, BridgeSocket.acceptStream, ne_eq, huid,
      not_false_eq_true, if_true, bind, Except.bind]

theorem runs_iff : self.Runs connection ↔
    connection.uid = self.registeredUid ∧ connection.Presents self.secureToken := by
  constructor
  · intro hruns
    rcases gate_verdict self connection with hgate | hgate
    · exact hgate.2
    · exact absurd hruns (not_runs_of_turnsAway hgate.1)
  · intro h
    rcases gate_verdict self connection with hgate | hgate
    · exact hgate.1
    · exact absurd h hgate.2

theorem turnsAway_of_not_runs (h : ¬self.Runs connection) : self.TurnsAway connection := by
  rcases gate_verdict self connection with hgate | hgate
  · exact absurd hgate.1 h
  · exact hgate.1

/-- The first line of a text, as a text. -/
def firstLineOf (s : String) : String := String.ofList (firstLine '\n' s.toList)

/-- A handshake that was written presents the first line of its token, without the blanks at its
end. -/
theorem presents_of_written {sent token : String} {payload : List UInt8}
    (h : connection.bytes = writeHandshake sent ++ payload) :
    connection.Presents token ↔ trimEnd (firstLineOf sent) = token := by
  have hfirst : firstLine 10 connection.bytes = utf8 (handshakePrefix ++ firstLineOf sent) := by
    by_cases hnewline : '\n' ∈ sent.toList
    · obtain ⟨before, after, hsplit, hfresh⟩ := List.eq_append_cons_of_mem hnewline
      have hsent : sent = String.ofList before ++ "\n" ++ String.ofList after := by
        rw [← String.toList_inj, hsplit]
        simp
      have hfresh' : '\n' ∉ (String.ofList before).toList := by rwa [String.toList_ofList]
      have hline : firstLineOf sent = String.ofList before := by
        rw [firstLineOf, hsplit, firstLine_of_found after hfresh]
      rw [h, writeHandshake, hsent, utf8_handshakeLine_newline, List.append_assoc, List.cons_append,
        firstLine_of_found _ (newline_not_mem_presented hfresh'), ← hsent, hline]
    · have hline : firstLineOf sent = sent := by
        rw [firstLineOf, firstLine_of_endless hnewline, String.ofList_toList]
      rw [h, writeHandshake, utf8_handshakeLine, List.append_assoc, List.singleton_append,
        firstLine_of_found _ (newline_not_mem_presented hnewline), hline]
  have htrim : trimEnd (handshakePrefix ++ firstLineOf sent) =
      handshakePrefix ++ trimEnd (firstLineOf sent) := by
    rw [← trimEnd_concat_newline]
    exact trimEnd_handshakeLine _
  rw [Connection.Presents, hfirst, fromUtf8_utf8]
  constructor
  · intro hpresents
    obtain ⟨line, hline, htoken⟩ := hpresents
    rw [← Option.some.inj hline, htrim, ← String.toList_inj, String.toList_append,
      String.toList_append] at htoken
    exact String.toList_inj.mp (List.append_cancel_left htoken)
  · intro htoken
    exact ⟨_, rfl, by rw [htrim, htoken]⟩

/-- The handler runs for the registered user with the token of the socket on the first line of the
stream, and in every other case the call fails without running it. -/
theorem handshake_gate (name : ChannelName) (uid : Nat) (token : SecureToken)
    (connection : Connection) :
    ((BridgeSocket.bind name uid token).Runs connection ↔
      connection.uid = uid ∧ connection.Presents token.asStr) ∧
    (¬(BridgeSocket.bind name uid token).Runs connection →
      (BridgeSocket.bind name uid token).TurnsAway connection) ∧
    (∀ payload, connection.bytes = writeHandshake token.asStr ++ payload → connection.uid = uid →
      (BridgeSocket.bind name uid token).Runs connection) ∧
    (∀ sent payload, connection.bytes = writeHandshake sent ++ payload →
      trimEnd (firstLineOf sent) ≠ token.asStr →
        (BridgeSocket.bind name uid token).TurnsAway connection) := by
  refine ⟨runs_iff, turnsAway_of_not_runs, ?_, ?_⟩
  · intro payload hbytes huid
    have hpresents : connection.Presents token.asStr := by
      rw [presents_of_written hbytes, firstLineOf, firstLine_of_endless token.newline_not_mem,
        String.ofList_toList, token.trimEnd_asStr]
    exact runs_iff.mpr ⟨huid, hpresents⟩
  · intro sent payload hbytes hforeign
    apply turnsAway_of_not_runs
    intro hruns
    have hpresents := (runs_iff.mp hruns).2
    exact hforeign ((presents_of_written hbytes).mp hpresents)

theorem handshake_gate_own_token :
    (BridgeSocket.bind .publicMaestro 1000 (.generate (List.replicate 32 7) rfl)).Runs
      ⟨1000, [writeHandshake (SecureToken.generate (List.replicate 32 7) rfl).asStr]⟩ := by
  have hgate := handshake_gate .publicMaestro 1000 (.generate (List.replicate 32 7) rfl)
    ⟨1000, [writeHandshake (SecureToken.generate (List.replicate 32 7) rfl).asStr]⟩
  exact hgate.2.2.1 [] (by simp [Connection.bytes]) rfl

end AiBridge
