import AiBridge.ByteStream
import AiBridge.Dashboard
import AiBridge.JsonText
import AiBridge.Utf8

namespace AiBridge

open ByteStream Text

/-- The line that `pending_notification` returns. -/
def notificationText (task : PendingTask) : String := (pendingNotification task).text

/-- A line without the newline at its end, and without the carriage return in front of that. -/
def stripBreak (text : String) : String :=
  if text.toList.getLast? = some '\n' then
    let cs := text.toList.dropLast
    String.ofList (if cs.getLast? = some '\r' then cs.dropLast else cs)
  else text

/-- `next_line` of a buffered reader, with the stream that is left: no line at the end of the
stream, and an error where the bytes are no text. -/
def nextLine (capacity : Nat) (chunks : List (List UInt8)) :
    Except Unit (Option String) × List (List UInt8) :=
  let read := readUntil capacity 10 chunks
  let left := read.ahead :: read.rest
  if read.line = [] then (.ok none, left)
  else
    match fromUtf8 read.line with
    | none => (.error (), left)
    | some text => (.ok (some (stripBreak text)), left)

section Codec

variable {capacity : Nat} {chunks : List (List UInt8)} {rest : List UInt8} {text : String}

theorem stripBreak_newline (h : '\r' ∉ text.toList) : stripBreak (text ++ "\n") = text := by
  have hlist : (text ++ "\n").toList = text.toList ++ ['\n'] := by
    rw [String.toList_append]
    rfl
  have hreturn : text.toList.getLast? ≠ some '\r' := by
    intro hlast
    exact h (List.mem_of_getLast? hlast)
  simp only [stripBreak, hlist, List.getLast?_concat, if_true, List.dropLast_concat,
    if_neg hreturn, String.ofList_toList]

/-- A text without line breaks is read back as one line, however its bytes arrive. -/
theorem nextLine_text (hcapacity : 0 < capacity) (hnewline : '\n' ∉ text.toList)
    (hreturn : '\r' ∉ text.toList) (h : chunks.flatten = utf8 (text ++ "\n") ++ rest) :
    ∃ left, nextLine capacity chunks = (.ok (some text), left) ∧ left.flatten = rest := by
  have hfresh : (10 : UInt8) ∉ utf8 text := fun hmem => hnewline (newline_mem_utf8_iff.mp hmem)
  rw [utf8_append, utf8_newline, List.append_assoc] at h
  obtain ⟨hline, hleft⟩ := readUntil_spec hcapacity h hfresh
  rw [← utf8_newline, ← utf8_append] at hline
  refine ⟨(readUntil capacity 10 chunks).ahead :: (readUntil capacity 10 chunks).rest, ?_, hleft⟩
  have hne : utf8 (text ++ "\n") ≠ [] := by
    rw [utf8_append, utf8_newline]
    simp
  simp only [nextLine, hline, if_neg hne, fromUtf8_utf8, stripBreak_newline hreturn]

theorem literals_pendingNotification (task : PendingTask) :
    (pendingNotification task).literals = [] := by
  have hlabels : ∀ criteria : List Criterion,
      Json.itemLiterals (criteria.map fun c => .str c.label) = [] := by
    intro criteria
    induction criteria with
    | nil => rfl
    | cons criterion criteria ih =>
      simp [Json.itemLiterals, Json.literals, ih]
  simp [pendingNotification, Json.literals, Json.memberLiterals, hlabels]

/-- Whatever the texts of a task are, its notification has no control character. -/
theorem printable_notificationText (task : PendingTask) :
    Json.Printable (notificationText task).toList := by
  rw [notificationText, Json.text, String.toList_ofList]
  apply Json.printable_textChars
  rw [literals_pendingNotification]
  intro literal hmem
  exact absurd hmem List.not_mem_nil

theorem notificationText_fresh (task : PendingTask) {c : Char} (hc : c.toNat < 32) :
    c ∉ (notificationText task).toList := by
  intro hmem
  have hprintable := printable_notificationText task c hmem
  omega

variable {fromStr : String → Option Json} {task : PendingTask}

theorem nextLine_notification (hcapacity : 0 < capacity)
    (h : chunks.flatten = utf8 (notificationText task ++ "\n") ++ rest) :
    ∃ left, nextLine capacity chunks = (.ok (some (notificationText task)), left) ∧
      left.flatten = rest :=
  nextLine_text hcapacity (notificationText_fresh task (by decide))
    (notificationText_fresh task (by decide)) h

end Codec

/-- A notification is one line without a newline, and the dashboard reads from it the task with all
of its fields and the labels of its criteria in order. -/
theorem notification_codec (fromStr : String → Option Json) (task : PendingTask)
    (hround : fromStr (notificationText task) = some (pendingNotification task))
    (capacity : Nat) (hcapacity : 0 < capacity) (chunks : List (List UInt8)) (rest : List UInt8)
    (harrives : chunks.flatten = utf8 (notificationText task ++ "\n") ++ rest) :
    '\n' ∉ (notificationText task).toList ∧
      (∃ left, nextLine capacity chunks = (.ok (some (notificationText task)), left) ∧
        left.flatten = rest) ∧
      (fromStr (notificationText task)).bind GatekeeperEvent.fromDocument =
        some (.taskPending ⟨task.taskId, task.appName, task.command, task.riskLevel,
          task.isCritical, task.triggered.map Criterion.label⟩) := by
  refine ⟨notificationText_fresh task (by decide), nextLine_notification hcapacity harrives, ?_⟩
  rw [hround, Option.bind_some]
  exact fromDocument_pendingNotification task

/-- A command of two lines with quotes, whose notification arrives in two pieces. -/
theorem notification_codec_quoted :
    let task : PendingTask := ⟨"task-1", "org.gnome.Terminal", "echo \"a\nb\"", "HIGH", true,
      [.irreversibility, .credentialsSecrets]⟩
    let fromStr := fun text : String =>
      if text = notificationText task then some (pendingNotification task) else none
    (fromStr (notificationText task)).bind GatekeeperEvent.fromDocument =
      some (.taskPending ⟨"task-1", "org.gnome.Terminal", "echo \"a\nb\"", "HIGH", true,
        ["Irreversibility", "CredentialsSecrets"]⟩) := by
  intro task fromStr
  let bytes := utf8 (notificationText task ++ "\n")
  have harrives : [bytes.take 7, bytes.drop 7].flatten = bytes ++ [] := by simp
  exact (notification_codec fromStr task (if_pos rfl) 8192 (by decide) _ [] harrives).2.2

end AiBridge
