import AiBridge.Checks
import AiBridge.Errors
import AiBridge.Json
import AiBridge.Text

namespace AiBridge

open Text

/-- The chat whose replies are read. -/
inductive ChatIdentity
  | maestro
  | a
  | b
  deriving DecidableEq, Repr

namespace ChatIdentity

def asStr : ChatIdentity → String
  | maestro => "maestro"
  | a => "A"
  | b => "B"

/-- The name of the variant, which `serde` writes and `{:?}` shows. -/
def variantName : ChatIdentity → String
  | maestro => "Maestro"
  | a => "A"
  | b => "B"

def ofVariantName (name : String) : Option ChatIdentity :=
  [maestro, a, b].find? fun identity => decide (identity.variantName = name)

/-- A variant is a text, or the one key of an object with nothing in it. -/
def fromValue : Json → Option ChatIdentity
  | .str name => ofVariantName name
  | .obj members =>
    if (Json.obj members).size = some 1 then
      match members.getLast? with
      | some (name, .null) => ofVariantName name
      | _ => none
    else none
  | _ => none

end ChatIdentity

structure ChatRecord where
  identity : ChatIdentity
  taskId : String
  content : String
  deriving DecidableEq, Repr

namespace ChatRecord

def toJson (record : ChatRecord) : Json :=
  .obj [("identity", .str record.identity.variantName), ("task_id", .str record.taskId),
    ("content", .str record.content)]

def ofFields : List Json → Option ChatRecord
  | [identity, .str taskId, .str content] =>
    (ChatIdentity.fromValue identity).map fun identity => ⟨identity, taskId, content⟩
  | _ => none

/-- `serde_json::from_value::<ChatRecord>`. -/
def fromValue (value : Json) : Option ChatRecord :=
  (value.fields ["identity", "task_id", "content"]).bind ofFields

end ChatRecord

inductive DesktopIoError
  | unconfinedPath (path : String)
  | io (error : IoError)
  | parse (message : String)
  | decode (message : String)
  deriving DecidableEq, Repr

/-- The `serde_json` crate with the texts of its errors: of a text that is no document, and of a
document that is no record. -/
structure ChatJson where
  fromStr : String → Except String Json
  recordError : Json → String

section JsonStore

variable (json : ChatJson)

def decodeJsonRecord (value : Json) (identity : ChatIdentity) : Except DesktopIoError ChatRecord :=
  match ChatRecord.fromValue value with
  | none => .error (.decode (json.recordError value))
  | some record =>
    if record.identity ≠ identity then
      .error (.decode ("record identity " ++ record.identity.variantName ++
        " does not match requested identity " ++ identity.variantName))
    else .ok record

/-- `raw` is what reading the file gives. -/
def readJsonRecords (raw : Except IoError String) (identity : ChatIdentity) :
    Except DesktopIoError (List ChatRecord) :=
  match raw with
  | .error err => .error (.io err)
  | .ok raw =>
    match json.fromStr raw with
    | .error e => .error (.parse e)
    | .ok (.arr items) => items.mapM fun item => decodeJsonRecord json item identity
    | .ok (.str text) =>
      (lines text).mapM fun line =>
        match json.fromStr line with
        | .error e => .error (.decode e)
        | .ok value => decodeJsonRecord json value identity
    | .ok other => (decodeJsonRecord json other identity).map fun record => [record]

end JsonStore

/-- An open database, as the `rusqlite` crate shows it: whether the search for the identity column
finds it, if it succeeds, and the rows that the statement with or without that column gives, each
with what reading a column as a text gives. -/
structure ChatDb where
  identityColumn : Option Bool
  select : Bool → Except String (List (Nat → Except String String))

def columnIdentity (column : String) : Option ChatIdentity :=
  if column = "maestro" then some .maestro
  else if column = "A" ∨ column = "a" then some .a
  else if column = "B" ∨ column = "b" then some .b
  else none

/-- The closure that reads a row. -/
def readRow (hasIdentity : Bool) (get : Nat → Except String String) :
    Except String (Option String × String × String) := do
  let taskId ← get (if hasIdentity then 1 else 0)
  let content ← get (if hasIdentity then 2 else 1)
  let identityCol ← if hasIdentity then (get 0).map some else .ok none
  .ok (identityCol, taskId, content)

/-- The loop over the rows. -/
def collectRows (identity : ChatIdentity) :
    List (Option String × String × String) → Except DesktopIoError (List ChatRecord)
  | [] => .ok []
  | (none, taskId, content) :: rows =>
    (collectRows identity rows).map fun records => ⟨identity, taskId, content⟩ :: records
  | (some identityCol, taskId, content) :: rows =>
    match columnIdentity identityCol with
    | none => .error (.decode ("unknown identity column value: " ++ identityCol))
    | some colIdentity =>
      if colIdentity ≠ identity then collectRows identity rows
      else (collectRows identity rows).map fun records => ⟨identity, taskId, content⟩ :: records

/-- `opened` is what opening the connection gives. -/
def readSqliteRecords (opened : Except String ChatDb) (identity : ChatIdentity) :
    Except DesktopIoError (List ChatRecord) :=
  match opened with
  | .error e => .error (.parse e)
  | .ok db =>
    let hasIdentity := db.identityColumn.getD false
    match (db.select hasIdentity).bind fun rows => rows.mapM (readRow hasIdentity) with
    | .error e => .error (.parse e)
    | .ok rows => collectRows identity rows

/-- A `chat_messages` table with an identity column that holds the records in their order. -/
def storedDb (spell : ChatIdentity → String) (records : List ChatRecord) : ChatDb where
  identityColumn := some true
  select hasIdentity := .ok (records.map fun record column =>
    match (if hasIdentity then [spell record.identity] else []) ++ [record.taskId, record.content]
      |>.drop column with
    | cell :: _ => .ok cell
    | [] => .error "Invalid column index")

theorem ofVariantName_variantName (identity : ChatIdentity) :
    ChatIdentity.ofVariantName identity.variantName = some identity := by
  cases identity <;> decide

theorem fromValue_toJson (record : ChatRecord) : ChatRecord.fromValue record.toJson = some record := by
  have hidentity : ChatIdentity.fromValue (.str record.identity.variantName) =
      some record.identity := ofVariantName_variantName record.identity
  have hfields : record.toJson.fields ["identity", "task_id", "content"] =
      some [.str record.identity.variantName, .str record.taskId, .str record.content] := rfl
  rw [ChatRecord.fromValue, hfields, Option.bind_some, ChatRecord.ofFields, hidentity]
  rfl

section Stored

variable {json : ChatJson} {records : List ChatRecord} {identity : ChatIdentity} {raw : String}
  {spell : ChatIdentity → String}

theorem decodeJsonRecord_toJson (record : ChatRecord) :
    decodeJsonRecord json record.toJson identity =
      if record.identity ≠ identity then
        .error (.decode ("record identity " ++ record.identity.variantName ++
          " does not match requested identity " ++ identity.variantName))
      else .ok record := by
  rw [decodeJsonRecord, fromValue_toJson]

theorem readJsonRecords_array (hraw : json.fromStr raw = .ok (.arr (records.map ChatRecord.toJson))) :
    readJsonRecords json (.ok raw) identity =
      (records.map ChatRecord.toJson).mapM fun item => decodeJsonRecord json item identity := by
  simp only [readJsonRecords, hraw]

theorem readJsonRecords_of_own (hraw : json.fromStr raw = .ok (.arr (records.map ChatRecord.toJson)))
    (hown : ∀ record ∈ records, record.identity = identity) :
    readJsonRecords json (.ok raw) identity = .ok records := by
  rw [readJsonRecords_array hraw]
  apply Checks.mapM_eq_ok_of_decodes
  intro record hmem
  rw [decodeJsonRecord_toJson, if_neg (by simp [hown record hmem])]

/-- A record of another chat makes the JSON store unreadable. -/
theorem readJsonRecords_of_foreign
    (hraw : json.fromStr raw = .ok (.arr (records.map ChatRecord.toJson)))
    (hforeign : ∃ record ∈ records, record.identity ≠ identity) :
    ∃ message, readJsonRecords json (.ok raw) identity = .error (.decode message) := by
  have hdecode : ∀ item ∈ records.map ChatRecord.toJson, ∀ e,
      decodeJsonRecord json item identity = .error e → ∃ message, e = .decode message := by
    intro item hmem e he
    obtain ⟨record, _, hrecord⟩ := List.mem_map.mp hmem
    rw [← hrecord, decodeJsonRecord_toJson] at he
    by_cases hne : record.identity ≠ identity
    · rw [if_pos hne] at he
      exact ⟨_, (Except.error.inj he).symm⟩
    · rw [if_neg hne] at he
      simp at he
  have hfails : ∃ item ∈ records.map ChatRecord.toJson, ∃ e,
      decodeJsonRecord json item identity = .error e := by
    obtain ⟨record, hmem, hne⟩ := hforeign
    refine ⟨record.toJson, List.mem_map_of_mem hmem, ?_⟩
    rw [decodeJsonRecord_toJson, if_pos hne]
    exact ⟨_, rfl⟩
  obtain ⟨e, herror, message, hmessage⟩ := Checks.mapM_fails hdecode hfails
  rw [readJsonRecords_array hraw, herror, hmessage]
  exact ⟨message, rfl⟩

theorem collectRows_stored (hspell : ∀ identity, columnIdentity (spell identity) = some identity) :
    collectRows identity
        (records.map fun record => (some (spell record.identity), record.taskId, record.content)) =
      .ok (records.filter fun record => decide (record.identity = identity)) := by
  induction records with
  | nil => rfl
  | cons record records ih =>
    rw [List.map_cons, collectRows]
    simp only [hspell]
    by_cases hown : record.identity = identity
    · rw [if_neg (by simp [hown]), ih, List.filter_cons_of_pos (by simp [hown]), ← hown]
      rfl
    · rw [if_pos hown, ih, List.filter_cons_of_neg (by simp [hown])]

/-- The SQLite store gives the records of the requested chat and leaves the others out. -/
theorem readSqliteRecords_stored (hspell : ∀ identity, columnIdentity (spell identity) = some identity) :
    readSqliteRecords (.ok (storedDb spell records)) identity =
      .ok (records.filter fun record => decide (record.identity = identity)) := by
  have hrows : ((storedDb spell records).select true).bind (fun rows => rows.mapM (readRow true)) =
      .ok (records.map fun record =>
        (some (spell record.identity), record.taskId, record.content)) := by
    rw [storedDb]
    simp only [Except.bind]
    induction records with
    | nil => rfl
    | cons record records ih =>
      rw [List.map_cons, List.mapM_cons, ih]
      rfl
  have hcolumn : (storedDb spell records).identityColumn.getD false = true := rfl
  simp only [readSqliteRecords, hcolumn, hrows]
  exact collectRows_stored hspell

end Stored

/-- The two stores of one list of records give one answer exactly if every record belongs to the
requested chat: a record of another chat is an error in the JSON store and left out in the other. -/
theorem chat_stores_agree_iff (json : ChatJson) (spell : ChatIdentity → String)
    (hspell : ∀ identity, columnIdentity (spell identity) = some identity)
    (records : List ChatRecord) (raw : String)
    (hraw : json.fromStr raw = .ok (.arr (records.map ChatRecord.toJson)))
    (identity : ChatIdentity) :
    (((∀ record ∈ records, record.identity = identity) →
        readJsonRecords json (.ok raw) identity = .ok records ∧
          readSqliteRecords (.ok (storedDb spell records)) identity = .ok records) ∧
      ((∃ record ∈ records, record.identity ≠ identity) →
        (∃ message, readJsonRecords json (.ok raw) identity = .error (.decode message)) ∧
          ∃ message, readSqliteRecords (.ok (storedDb spell records)) identity =
            .error (.decode message))) ↔
    ∀ record ∈ records, record.identity = identity := by
  have hsqlite : readSqliteRecords (.ok (storedDb spell records)) identity =
      .ok (records.filter fun record => decide (record.identity = identity)) :=
    readSqliteRecords_stored hspell
  constructor
  · intro h
    by_contra hforeign
    have hsome : ∃ record ∈ records, record.identity ≠ identity := by
      simpa only [not_forall, exists_prop] using hforeign
    obtain ⟨_, message, hrejected⟩ := h.2 hsome
    rw [hsqlite] at hrejected
    simp at hrejected
  · intro hown
    constructor
    · intro _
      have hall : records.filter (fun record => decide (record.identity = identity)) = records :=
        List.filter_eq_self.mpr fun record hmem => decide_eq_true (hown record hmem)
      rw [hsqlite, hall]
      exact ⟨readJsonRecords_of_own hraw hown, rfl⟩
    · intro hforeign
      obtain ⟨record, hmem, hne⟩ := hforeign
      exact absurd (hown record hmem) hne

/-- A reader that knows one document. -/
def knowsOne (raw : String) (document : Json) : ChatJson where
  fromStr text := if text = raw then .ok document else .error "expected value at line 1 column 1"
  recordError _ := "invalid type"

theorem knowsOne_fromStr (raw : String) (document : Json) :
    (knowsOne raw document).fromStr raw = .ok document := by
  simp [knowsOne]

theorem columnIdentity_asStr (identity : ChatIdentity) :
    columnIdentity identity.asStr = some identity := by
  cases identity <;> decide

def repliesText : String :=
  "[\x7b\"identity\":\"A\",\"task_id\":\"task-1\",\"content\":\"ready\"\x7d," ++
    "\x7b\"identity\":\"A\",\"task_id\":\"task-2\",\"content\":\"done\"\x7d]"

def replies : List ChatRecord := [⟨.a, "task-1", "ready"⟩, ⟨.a, "task-2", "done"⟩]

theorem chat_stores_agree_replies :
    readJsonRecords (knowsOne repliesText (.arr (replies.map ChatRecord.toJson))) (.ok repliesText)
        .a = .ok replies ∧
      readSqliteRecords (.ok (storedDb ChatIdentity.asStr replies)) .a = .ok replies := by
  have hown : ∀ record ∈ replies, record.identity = .a := by decide
  exact ((chat_stores_agree_iff (knowsOne repliesText (.arr (replies.map ChatRecord.toJson)))
    ChatIdentity.asStr columnIdentity_asStr replies repliesText (knowsOne_fromStr _ _) .a).mpr
    hown).1 hown

def mixedText : String :=
  "[\x7b\"identity\":\"Maestro\",\"task_id\":\"task-9\",\"content\":\"wrong identity\"\x7d," ++
    "\x7b\"identity\":\"A\",\"task_id\":\"task-2\",\"content\":\"done\"\x7d]"

def mixedReplies : List ChatRecord :=
  [⟨.maestro, "task-9", "wrong identity"⟩, ⟨.a, "task-2", "done"⟩]

/-- The same two records are an error in one store and a reply in the other. -/
theorem chat_stores_disagree :
    (knowsOne mixedText (.arr (mixedReplies.map ChatRecord.toJson))).fromStr mixedText =
        .ok (.arr (mixedReplies.map ChatRecord.toJson)) ∧
      readJsonRecords (knowsOne mixedText (.arr (mixedReplies.map ChatRecord.toJson)))
          (.ok mixedText) .a =
        .error (.decode "record identity Maestro does not match requested identity A") ∧
      readSqliteRecords (.ok (storedDb ChatIdentity.asStr mixedReplies)) .a =
        .ok [⟨.a, "task-2", "done"⟩] := by
  have hknown : (knowsOne mixedText (.arr (mixedReplies.map ChatRecord.toJson))).fromStr mixedText =
      .ok (.arr (mixedReplies.map ChatRecord.toJson)) := knowsOne_fromStr _ _
  refine ⟨hknown, ?_, ?_⟩
  · rw [readJsonRecords_array hknown]
    rfl
  · rw [readSqliteRecords_stored columnIdentity_asStr]
    rfl

end AiBridge
