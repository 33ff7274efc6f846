import AiBridge.ChatStores
import AiBridge.JsonScan

namespace AiBridge

open Text

/-- The text of the records as one array. -/
def arrayText (records : List ChatRecord) : String :=
  (Json.arr (records.map ChatRecord.toJson)).text

/-- The text of the records with one of them on each line. -/
def newlineText (records : List ChatRecord) : String :=
  String.ofList (List.intercalate ['\n'] (records.map fun record => record.toJson.textChars))

section Formats

variable {json : ChatJson} {records : List ChatRecord} {identity : ChatIdentity}

theorem ChatRecord.numbers_toJson (record : ChatRecord) :
    JsonScan.Numbers record.toJson.literals := by
  have hnone : record.toJson.literals = [] := by
    simp [ChatRecord.toJson, Json.literals, Json.memberLiterals]
  rw [hnone]
  exact JsonScan.numbers_nil

theorem numbers_records (records : List ChatRecord) :
    JsonScan.Numbers (Json.itemLiterals (records.map ChatRecord.toJson)) := by
  induction records with
  | nil => exact JsonScan.numbers_nil
  | cons record records ih =>
    rw [List.map_cons, Json.itemLiterals, JsonScan.Numbers, List.forall_mem_append]
    exact ⟨record.numbers_toJson, ih⟩

theorem run_record (record : ChatRecord) :
    JsonScan.run .before record.toJson.textChars = some .done := by
  have hnumbers := record.numbers_toJson
  rw [ChatRecord.toJson, Json.literals] at hnumbers
  exact JsonScan.run_before_obj hnumbers

/-- Lines are one document only if there is one. -/
theorem not_accepts_newlineText (hcount : records.length ≠ 1) {ending : String}
    (hending : ending ∈ ["", "\n"]) :
    JsonScan.accepts (newlineText records ++ ending).toList = false := by
  rw [newlineText, String.toList_append, String.toList_ofList]
  cases records with
  | nil =>
    rcases List.mem_pair.mp hending with heq | heq
    · rw [heq]
      decide
    · rw [heq]
      decide
  | cons first records =>
    cases records with
    | nil => exact absurd rfl hcount
    | cons second records =>
      have hlater : ∃ more, List.intercalate ['\n']
          ((second :: records).map fun record => record.toJson.textChars) =
            second.toJson.textChars ++ more := by
        cases records with
        | nil => exact ⟨[], by simp⟩
        | cons third records =>
          rw [List.map_cons, List.map_cons, List.intercalate_cons_cons, List.append_assoc]
          exact ⟨_, rfl⟩
      obtain ⟨more, hmore⟩ := hlater
      have hnumbers := first.numbers_toJson
      rw [ChatRecord.toJson, Json.literals] at hnumbers
      rw [List.map_cons] at hmore
      rw [List.map_cons, List.map_cons, List.intercalate_cons_cons, hmore, List.append_assoc,
        List.append_assoc, List.append_assoc]
      exact JsonScan.not_accepts_two_objects hnumbers

theorem readJsonRecords_of_error {raw e : String} (h : json.fromStr raw = .error e) :
    readJsonRecords json (.ok raw) identity = .error (.parse e) := by
  simp only [readJsonRecords, h]

theorem readJsonRecords_unread {raw : String}
    (hscan : ∀ text document, json.fromStr text = .ok document → JsonScan.accepts text.toList)
    (identity : ChatIdentity) (h : JsonScan.accepts raw.toList = false) :
    ∃ message, readJsonRecords json (.ok raw) identity = .error (.parse message) := by
  cases hread : json.fromStr raw with
  | error e => exact ⟨e, readJsonRecords_of_error hread⟩
  | ok document =>
    have haccepts := hscan raw document hread
    rw [h] at haccepts
    exact absurd haccepts (by decide)

/-- A record on its own is read as a document that is no array. -/
theorem readJsonRecords_single {raw : String} {record : ChatRecord}
    (hread : json.fromStr raw = .ok record.toJson) :
    readJsonRecords json (.ok raw) identity =
      (decodeJsonRecord json record.toJson identity).map fun record => [record] := by
  have hobject : ∃ members, record.toJson = .obj members := ⟨_, rfl⟩
  obtain ⟨members, hmembers⟩ := hobject
  rw [hmembers] at hread ⊢
  simp only [readJsonRecords, hread]

theorem newlineText_singleton (record : ChatRecord) : newlineText [record] = record.toJson.text := by
  rw [newlineText, List.map_singleton, List.intercalate_singleton, Json.text]

end Formats

/-- The store gives back what was written in both formats, and nothing where a record of another
chat is among it, exactly if the records are not all of the requested chat or there is one of them.
No lines of one record each are one document. -/
theorem json_formats_iff (json : ChatJson)
    (hscan : ∀ text document, json.fromStr text = .ok document → JsonScan.accepts text.toList)
    (records : List ChatRecord)
    (harray : json.fromStr (arrayText records) = .ok (.arr (records.map ChatRecord.toJson)))
    (hlines : ∀ record ∈ records, ∀ ending ∈ ["", "\n"],
      json.fromStr (record.toJson.text ++ ending) = .ok record.toJson)
    (identity : ChatIdentity) :
    (((∀ record ∈ records, record.identity = identity) →
        readJsonRecords json (.ok (arrayText records)) identity = .ok records ∧
          ∀ ending ∈ ["", "\n"],
            readJsonRecords json (.ok (newlineText records ++ ending)) identity = .ok records) ∧
      ((∃ record ∈ records, record.identity ≠ identity) →
        (∃ e, readJsonRecords json (.ok (arrayText records)) identity = .error e) ∧
          ∀ ending ∈ ["", "\n"],
            ∃ e, readJsonRecords json (.ok (newlineText records ++ ending)) identity = .error e)) ↔
    ((∀ record ∈ records, record.identity = identity) → records.length = 1) := by
  constructor
  · intro h hown
    by_contra hcount
    obtain ⟨message, hfails⟩ := readJsonRecords_unread hscan identity
      (not_accepts_newlineText hcount List.mem_cons_self)
    rw [(h.1 hown).2 "" List.mem_cons_self] at hfails
    simp at hfails
  · intro h
    constructor
    · intro hown
      refine ⟨readJsonRecords_of_own harray hown, ?_⟩
      intro ending hending
      obtain ⟨record, hrecord⟩ := List.length_eq_one_iff.mp (h hown)
      subst hrecord
      rw [newlineText_singleton, readJsonRecords_single (hlines record (by simp) ending hending),
        decodeJsonRecord_toJson, if_neg (by simp [hown record (by simp)])]
      rfl
    · intro hforeign
      obtain ⟨message, hrejected⟩ := readJsonRecords_of_foreign harray hforeign
      refine ⟨⟨_, hrejected⟩, ?_⟩
      intro ending hending
      by_cases hcount : records.length = 1
      · obtain ⟨record, hrecord⟩ := List.length_eq_one_iff.mp hcount
        subst hrecord
        obtain ⟨other, hmem, hne⟩ := hforeign
        rw [List.mem_singleton.mp hmem] at hne
        rw [newlineText_singleton, readJsonRecords_single (hlines record (by simp) ending hending),
          decodeJsonRecord_toJson, if_pos hne]
        exact ⟨_, rfl⟩
      · obtain ⟨message, hunread⟩ := readJsonRecords_unread hscan identity
          (not_accepts_newlineText hcount hending)
        exact ⟨_, hunread⟩

/-- A reader that knows the documents of some texts and finds other texts too long. -/
def scannedChat (documents : List (String × Json)) : ChatJson where
  fromStr text :=
    match JsonScan.readScanned documents text with
    | some document => .ok document
    | none => .error "trailing characters at line 2 column 1"
  recordError _ := "invalid type"

theorem scannedChat_eq_ok_iff {documents : List (String × Json)} {text : String} {document : Json} :
    (scannedChat documents).fromStr text = .ok document ↔
      JsonScan.readScanned documents text = some document := by
  simp only [scannedChat]
  split
  next known hread => simp [hread]
  next hread => simp [hread]

theorem scannedChat_accepts {documents : List (String × Json)} (text : String) (document : Json)
    (h : (scannedChat documents).fromStr text = .ok document) :
    JsonScan.accepts text.toList = true := by
  have hread := scannedChat_eq_ok_iff.mp h
  exact (JsonScan.isScanned_iff.mp (JsonScan.isScanned_of_read hread)).1.2

theorem readScanned_record {documents : List (String × Json)} (record : ChatRecord) {ending : String}
    (hending : ending ∈ ["", "\n"]) :
    JsonScan.readScanned documents (record.toJson.text ++ ending) =
      documents.lookup record.toJson.text := by
  have hdone : JsonScan.run .before record.toJson.text.toList = some .done := by
    rw [Json.text, String.toList_ofList]
    exact run_record record
  exact JsonScan.readScanned_of_done (Json.text_obj_ne_empty _) (Json.trim_text_obj _) hdone hending

theorem readScanned_array {documents : List (String × Json)} (records : List ChatRecord) :
    JsonScan.readScanned documents (arrayText records) = documents.lookup (arrayText records) := by
  have hdone : JsonScan.run .before (arrayText records).toList = some .done := by
    rw [arrayText, Json.text, String.toList_ofList]
    exact JsonScan.run_before_arr (numbers_records records)
  have hread : JsonScan.readScanned documents (arrayText records ++ "") =
      documents.lookup (arrayText records) :=
    JsonScan.readScanned_of_done (Json.text_arr_ne_empty _) (Json.trim_text_arr _) hdone
      List.mem_cons_self
  rwa [String.append_empty] at hread

theorem scannedChat_refused {documents : List (String × Json)} {text : String}
    (h : JsonScan.accepts text.toList = false) :
    (scannedChat documents).fromStr text = .error "trailing characters at line 2 column 1" := by
  simp only [scannedChat, JsonScan.readScanned_of_refused h]

def reply : ChatRecord := ⟨.a, "task-1", "ready"⟩

/-- The documents of one reply and of its array. -/
def replyJson : ChatJson :=
  scannedChat [(reply.toJson.text, reply.toJson),
    (arrayText [reply], .arr ([reply].map ChatRecord.toJson))]

theorem arrayText_ne_text (records : List ChatRecord) (record : ChatRecord) :
    (arrayText records == record.toJson.text) = false := by
  rw [beq_eq_false_iff_ne]
  intro h
  have hlist := congrArg String.toList h
  rw [arrayText, Json.text, Json.text, String.toList_ofList, String.toList_ofList, ChatRecord.toJson,
    Json.textChars, Json.textChars] at hlist
  simp at hlist

theorem json_formats_reply :
    readJsonRecords replyJson (.ok (arrayText [reply])) .a = .ok [reply] ∧
      ∀ ending ∈ ["", "\n"],
        readJsonRecords replyJson (.ok (newlineText [reply] ++ ending)) .a = .ok [reply] := by
  have harray : replyJson.fromStr (arrayText [reply]) =
      .ok (.arr ([reply].map ChatRecord.toJson)) := by
    rw [replyJson, scannedChat_eq_ok_iff, readScanned_array, List.lookup_cons,
      arrayText_ne_text [reply] reply, List.lookup_cons_self]
  have hlines : ∀ record ∈ [reply], ∀ ending ∈ ["", "\n"],
      replyJson.fromStr (record.toJson.text ++ ending) = .ok record.toJson := by
    intro record hrecord ending hending
    rw [List.mem_singleton.mp hrecord, replyJson, scannedChat_eq_ok_iff,
      readScanned_record reply hending, List.lookup_cons_self]
  have hown : ∀ record ∈ [reply], record.identity = .a := by decide
  exact ((json_formats_iff replyJson scannedChat_accepts [reply] harray hlines .a).mpr
    fun _ => rfl).1 hown

/-- Two replies are read from an array and not from two lines. -/
theorem two_lines_unread :
    (∀ record ∈ replies, record.identity = .a) ∧
      readJsonRecords (scannedChat [(arrayText replies, .arr (replies.map ChatRecord.toJson))])
          (.ok (arrayText replies)) .a = .ok replies ∧
      readJsonRecords (scannedChat [(arrayText replies, .arr (replies.map ChatRecord.toJson))])
          (.ok (newlineText replies ++ "\n")) .a =
        .error (.parse "trailing characters at line 2 column 1") := by
  have hown : ∀ record ∈ replies, record.identity = .a := by decide
  have harray : (scannedChat [(arrayText replies, .arr (replies.map ChatRecord.toJson))]).fromStr
      (arrayText replies) = .ok (.arr (replies.map ChatRecord.toJson)) := by
    rw [scannedChat_eq_ok_iff, readScanned_array, List.lookup_cons_self]
  have hrefused : JsonScan.accepts (newlineText replies ++ "\n").toList = false :=
    not_accepts_newlineText (by decide) (List.mem_cons_of_mem _ List.mem_cons_self)
  exact ⟨hown, readJsonRecords_of_own harray hown,
    readJsonRecords_of_error (scannedChat_refused hrefused)⟩

end AiBridge
