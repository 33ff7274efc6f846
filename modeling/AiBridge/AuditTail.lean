import AiBridge.AuditMonths
import AiBridge.JsonScan

namespace AiBridge

open Text

namespace AuditLog

def readCurrentMonth (json : SerdeJson) (host : AuditHost) (circ : Circumstances) (dir : String)
    (disk : FileSystem) : Except IoError (List AuditEntry) :=
  readFile json host disk (ExecutorAllowlist.join dir (currentMonthFilename circ))

/-- What stands behind the last newline of a file. -/
def lastLine (raw : String) : String := String.ofList (raw.toList.rtakeWhile (· ≠ '\n'))

/-- What stands up to the last newline. -/
def wholeLines (raw : String) : String := String.ofList (raw.toList.rdropWhile (· ≠ '\n'))

structure SameMonth (first second : Circumstances) : Prop where
  year : first.year = second.year
  month : first.month = second.month

theorem SameMonth.currentMonthFilename_eq {first second : Circumstances}
    (h : SameMonth first second) : currentMonthFilename first = currentMonthFilename second := by
  rw [currentMonthFilename, currentMonthFilename, h.year, h.month]

section Reader

variable {json : SerdeJson} {raw : String} {entry : AuditEntry}

theorem wholeLines_append_lastLine (raw : String) : wholeLines raw ++ lastLine raw = raw := by
  rw [wholeLines, lastLine, ← String.ofList_append, List.rdropWhile_append_rtakeWhile,
    String.ofList_toList]

theorem readLines_wholeLines_append (more : String) :
    readLines json (wholeLines raw ++ more) = readLines json (wholeLines raw) ++ readLines json more := by
  rw [readLines_eq_pieces, readLines_eq_pieces, readLines_eq_pieces, wholeLines,
    String.toList_append, String.toList_ofList, trimmedPieces_complete, List.filterMap_append]

theorem newline_not_mem_lastLine : '\n' ∉ (lastLine raw).toList := by
  rw [lastLine, String.toList_ofList]
  intro hmem
  have hother := List.mem_rtakeWhile_imp hmem
  simp at hother

theorem literals_toJson (entry : AuditEntry) : entry.toJson.literals = [] := by
  simp [AuditEntry.toJson, Json.literals, Json.memberLiterals]

/-- The text of an entry is one line, and nothing is trimmed from it. -/
theorem isPiece_text (entry : AuditEntry) : IsPiece '\n' entry.toJson.text := by
  refine ⟨Json.text_obj_ne_empty _, Json.trim_text_obj _, ?_⟩
  intro hmem
  rw [Json.text, String.toList_ofList] at hmem
  have hprintable : Json.Printable entry.toJson.textChars := by
    apply Json.printable_textChars
    rw [literals_toJson]
    exact List.forall_mem_nil _
  have hcode := hprintable '\n' hmem
  exact absurd hcode (by decide)

theorem run_timestamp (depth : Nat) :
    JsonScan.run (JsonScan.closed depth) ("timestamp".toList.flatMap Json.escapeChar) = none := by
  cases depth with
  | zero => rfl
  | succ depth => rfl

/-- No document ends with an entry that has more than blanks before it. -/
theorem not_accepts_glued {before : List Char} {c : Char} (hblank : isWhitespace c = false) :
    JsonScan.accepts (c :: before ++ entry.toJson.textChars) = false := by
  have hnone := literals_toJson entry
  rw [AuditEntry.toJson, Json.literals] at hnone
  apply JsonScan.not_accepts_append_obj _ run_timestamp (hnone ▸ JsonScan.numbers_nil)
  rw [← Bool.not_eq_true]
  intro hjson
  simp only [JsonScan.isBlank, Bool.or_eq_true, beq_iff_eq] at hjson
  rcases hjson with ((heq | heq) | heq) | heq
  all_goals
    rw [heq] at hblank
    exact absurd hblank (by decide)

/-- What `append` writes behind the last newline is read back exactly if nothing but blanks stands
there. -/
theorem readLines_lastLine_text
    (hscan : ∀ text document, json.fromStr text = some document → JsonScan.accepts text.toList)
    (hround : json.fromStr entry.toJson.text = some entry.toJson) :
    readLines json (lastLine raw ++ (entry.toJson.text ++ "\n")) =
      if trim (lastLine raw) = "" then [entry] else [] := by
  have hpiece := isPiece_text entry
  have hlist : (lastLine raw ++ (entry.toJson.text ++ "\n")).toList =
      ((lastLine raw).toList ++ entry.toJson.text.toList) ++ '\n' :: [] := by simp
  rw [readLines_eq_pieces, hlist, trimmedPieces_append_sep, trimmedPieces_nil, List.append_nil]
  by_cases hblank : trim (lastLine raw) = ""
  · have hgap : ∀ c ∈ (lastLine raw).toList, isWhitespace c = true ∧ c ≠ '\n' := by
      intro c hc
      refine ⟨trim_eq_empty_iff.mp hblank c hc, ?_⟩
      intro heq
      rw [heq] at hc
      exact newline_not_mem_lastLine hc
    have hread : readPiece json entry.toJson.text = some entry := by
      rw [readPiece, hround, Option.bind_some, AuditEntry.fromDocument_toJson]
    rw [if_pos hblank, trimmedPieces_gap hgap, trimmedPieces_of_isPiece hpiece]
    exact List.filterMap_cons_some hread
  · have hfresh : '\n' ∉ (lastLine raw).toList ++ entry.toJson.text.toList := by
      rw [List.mem_append, not_or]
      exact ⟨newline_not_mem_lastLine, hpiece.fresh⟩
    have hsome : (lastLine raw).toList.dropWhile isWhitespace ≠ [] := by
      rw [ne_eq, List.dropWhile_eq_nil_iff]
      intro hall
      exact hblank (trim_eq_empty_iff.mpr hall)
    have htext : trimChars entry.toJson.textChars = entry.toJson.textChars := by
      have htrim := congrArg String.toList hpiece.trimmed
      rwa [trim, Json.text, String.toList_ofList, String.toList_ofList] at htrim
    have hne : entry.toJson.textChars ≠ [] := by
      intro hnil
      exact hpiece.nonempty (by rw [Json.text, hnil])
    obtain ⟨c, before, hdrop⟩ := List.exists_cons_of_ne_nil hsome
    have hc : isWhitespace c = false := by
      have hhead := List.head_dropWhile_not isWhitespace hsome
      simpa [hdrop] using hhead
    have hnone : json.fromStr
        (trim (String.ofList ((lastLine raw).toList ++ entry.toJson.text.toList))) = none := by
      rw [Option.eq_none_iff_forall_ne_some]
      intro document hread
      have haccepts := hscan _ document hread
      rw [trim, Json.text, String.toList_ofList, String.toList_ofList, String.toList_ofList,
        trimChars_append_trimmed hsome htext hne, hdrop, not_accepts_glued hc] at haccepts
      exact absurd haccepts (by decide)
    rw [if_neg hblank, trimmedPieces_fresh hfresh]
    apply List.filterMap_eq_nil_iff.mpr
    intro piece hpiece
    obtain rfl := List.mem_singleton.mp (List.mem_of_mem_filter hpiece)
    rw [readPiece, hnone]
    rfl

theorem readLines_eq_append (raw : String) :
    readLines json raw = readLines json (wholeLines raw) ++ readLines json (lastLine raw) := by
  rw [← readLines_wholeLines_append, wholeLines_append_lastLine]

theorem length_readLines_wholeLines_le :
    (readLines json (wholeLines raw)).length ≤ (readLines json raw).length := by
  rw [readLines_eq_append raw, List.length_append]
  omega

/-- A blank last line holds no entry. -/
theorem readLines_wholeLines_of_blank (h : trim (lastLine raw) = "") :
    readLines json (wholeLines raw) = readLines json raw := by
  have hlast : readLines json (lastLine raw) = [] := by
    rw [readLines_eq_pieces, trimmedPieces_fresh newline_not_mem_lastLine, String.ofList_toList, h]
    rfl
  rw [readLines_eq_append raw, hlast, List.append_nil]

end Reader

/-- After an append the current month gives the complete lines of before, and the entry if it has a
line of its own. -/
theorem readCurrentMonth_append {json : SerdeJson} {host : AuditHost} {circ after : Circumstances}
    {dir raw : String} {disk : FileSystem} {entry : AuditEntry}
    (hscan : ∀ text document, json.fromStr text = some document → JsonScan.accepts text.toList)
    (hafter : SameMonth after circ)
    (hfile : disk.files (ExecutorAllowlist.join dir (currentMonthFilename circ)) = some (utf8 raw))
    (hreadable : host.unreadable (ExecutorAllowlist.join dir (currentMonthFilename circ)) = none)
    (hwriter : json.toString entry.toJson = entry.toJson.text)
    (hround : json.fromStr entry.toJson.text = some entry.toJson)
    (hok : (append json circ dir entry disk).2 = .ok ()) :
    readCurrentMonth json host after dir (append json circ dir entry disk).1 =
      .ok (readLines json (wholeLines raw) ++ if trim (lastLine raw) = "" then [entry] else []) := by
  have happends : (⟨circ, entry⟩ : AppendCall).appends = true := by
    cases hdir : circ.auditDir with
    | some e => simp [append, hdir] at hok
    | none =>
      have hput : circ.append = none := by
        simpa [append, hdir, Disk.append, Disk.put_snd_eq_ok_iff] using hok
      simp [AppendCall.appends, hdir, hput]
  have hbytes : (append json circ dir entry disk).1.files
      (ExecutorAllowlist.join dir (currentMonthFilename circ)) =
      some (utf8 (wholeLines raw ++ (lastLine raw ++ (entry.toJson.text ++ "\n")))) := by
    have hstored : (append json circ dir entry disk).1 = disk.store
        (ExecutorAllowlist.join dir (currentMonthFilename circ))
        ((disk.files (ExecutorAllowlist.join dir (currentMonthFilename circ))).getD [] ++
          line json entry) := appendStep_of_appends happends
    have hwhole : (wholeLines raw ++ lastLine raw) ++ (entry.toJson.text ++ "\n") =
        wholeLines raw ++ (lastLine raw ++ (entry.toJson.text ++ "\n")) := String.append_assoc
    rw [wholeLines_append_lastLine] at hwhole
    rw [hstored, Disk.files_store_self, hfile, Option.getD_some, line, hwriter, ← utf8_append,
      hwhole]
  rw [readCurrentMonth, hafter.currentMonthFilename_eq]
  simp only [readFile, hbytes, hreadable, fromUtf8_utf8]
  rw [readLines_wholeLines_append, readLines_lastLine_text hscan hround]

theorem readCurrentMonth_of_file {json : SerdeJson} {host : AuditHost} {circ before : Circumstances}
    {dir raw : String} {disk : FileSystem} (hbefore : SameMonth before circ)
    (hfile : disk.files (ExecutorAllowlist.join dir (currentMonthFilename circ)) = some (utf8 raw))
    (hreadable : host.unreadable (ExecutorAllowlist.join dir (currentMonthFilename circ)) = none) :
    readCurrentMonth json host before dir disk = .ok (readLines json raw) := by
  rw [readCurrentMonth, hbefore.currentMonthFilename_eq]
  simp only [readFile, hfile, hreadable, fromUtf8_utf8]

/-- An appended entry is what the log gains exactly if nothing but blanks stands behind the last
newline of the file. Otherwise the entry is written behind an unfinished line and is lost with it,
while a malformed line that is complete costs no other. -/
theorem append_readable_iff (json : SerdeJson)
    (hscan : ∀ text document, json.fromStr text = some document → JsonScan.accepts text.toList)
    (host : AuditHost) (circ before after : Circumstances) (hbefore : SameMonth before circ)
    (hafter : SameMonth after circ) (dir raw : String) (disk : FileSystem)
    (hfile : disk.files (ExecutorAllowlist.join dir (currentMonthFilename circ)) = some (utf8 raw))
    (hreadable : host.unreadable (ExecutorAllowlist.join dir (currentMonthFilename circ)) = none)
    (entry : AuditEntry) (hwriter : json.toString entry.toJson = entry.toJson.text)
    (hround : json.fromStr entry.toJson.text = some entry.toJson)
    (hok : (append json circ dir entry disk).2 = .ok ()) :
    ((∃ entries, readCurrentMonth json host before dir disk = .ok entries ∧
        readCurrentMonth json host after dir (append json circ dir entry disk).1 =
          .ok (entries ++ [entry])) ↔
      trim (lastLine raw) = "") ∧
    ∀ first second, readLines json (first ++ "\n" ++ second) =
      readLines json first ++ readLines json second := by
  have hread : readCurrentMonth json host before dir disk = .ok (readLines json raw) :=
    readCurrentMonth_of_file hbefore hfile hreadable
  have hreread := readCurrentMonth_append hscan hafter hfile hreadable hwriter hround hok
  refine ⟨?_, readLines_append⟩
  rw [hread, hreread]
  constructor
  · rintro ⟨entries, hentries, hgained⟩
    by_contra htail
    rw [if_neg htail, List.append_nil, Except.ok.injEq] at hgained
    have hlength : (readLines json (wholeLines raw)).length ≤ (readLines json raw).length :=
      length_readLines_wholeLines_le
    rw [hgained, Except.ok.inj hentries, List.length_append, List.length_singleton] at hlength
    omega
  · intro htail
    refine ⟨readLines json raw, rfl, ?_⟩
    rw [if_pos htail, readLines_wholeLines_of_blank htail]

/-- A reader that knows the documents of some texts, with the writer of JSON. -/
def scannedJson (documents : List (String × Json)) : SerdeJson where
  fromStr := JsonScan.readScanned documents
  toString := Json.text
  fromStr_blank h := JsonScan.readScanned_of_not (by simp [JsonScan.isScanned, h])
  fromStr_trim h := by
    have hscanned := JsonScan.isScanned_iff.mp (JsonScan.isScanned_of_read h)
    have htrimmed : JsonScan.isScanned (trim _) = true :=
      JsonScan.isScanned_iff.mpr (by rw [trim_idem]; exact ⟨⟨hscanned.1.1, hscanned.2⟩, hscanned.2⟩)
    rw [JsonScan.readScanned, if_pos (JsonScan.isScanned_of_read h)] at h
    rw [JsonScan.readScanned, if_pos htrimmed, trim_idem, h]
  toString_obj members := by
    refine ⟨String.ofList (Json.memberChars members ++ ['\x7d']), ?_⟩
    apply String.toList_injective
    simp [Json.text, Json.textChars]

theorem scannedJson_fromStr (documents : List (String × Json)) :
    (scannedJson documents).fromStr = JsonScan.readScanned documents := by
  rw [scannedJson]

theorem scannedJson_accepts {documents : List (String × Json)} (text : String) (document : Json)
    (h : (scannedJson documents).fromStr text = some document) :
    JsonScan.accepts text.toList = true := by
  rw [scannedJson_fromStr] at h
  exact (JsonScan.isScanned_iff.mp (JsonScan.isScanned_of_read h)).1.2

theorem scannedJson_round (documents : List (String × Json)) (entry : AuditEntry) :
    (scannedJson ((entry.toJson.text, entry.toJson) :: documents)).fromStr entry.toJson.text =
      some entry.toJson := by
  have hpiece := isPiece_text entry
  have hdone : JsonScan.run .before entry.toJson.text.toList = some .done := by
    have hnone := literals_toJson entry
    rw [AuditEntry.toJson, Json.literals] at hnone
    rw [Json.text, String.toList_ofList]
    exact JsonScan.run_before_obj (hnone ▸ JsonScan.numbers_nil)
  have hread : JsonScan.readScanned ((entry.toJson.text, entry.toJson) :: documents)
      (entry.toJson.text ++ "") = some entry.toJson := by
    rw [JsonScan.readScanned_of_done hpiece.nonempty hpiece.trimmed hdone List.mem_cons_self,
      List.lookup_cons_self]
  rw [String.append_empty] at hread
  rw [scannedJson_fromStr, hread]

def december : Circumstances := { Circumstances.calm with year := 2026, month := 12 }

def decemberPath : String :=
  ExecutorAllowlist.join "/home/op/.config/ai-bridge/audit" (currentMonthFilename december)

/-- A disk with nothing but the log of the month on it. -/
def decemberDisk (raw : String) : FileSystem :=
  Disk.store ⟨fun _ => none, []⟩ decemberPath (utf8 raw)

def decemberHost : AuditHost :=
  ⟨true, .ok [], fun _ => none, ⟨.other, "stream did not contain valid UTF-8"⟩⟩

def saved : AuditEntry := changed "criteria.save"

def decemberJson : SerdeJson :=
  scannedJson [((changed "sockets.save").toJson.text, (changed "sockets.save").toJson),
    (saved.toJson.text, saved.toJson)]

theorem decemberJson_round : decemberJson.fromStr (changed "sockets.save").toJson.text =
    some (changed "sockets.save").toJson :=
  scannedJson_round [(saved.toJson.text, saved.toJson)] (changed "sockets.save")

theorem lastLine_newline (text : String) : lastLine (text ++ "\n") = "" := by
  have hlist : (text ++ "\n").toList = text.toList ++ ['\n'] := by simp
  rw [lastLine, hlist, List.rtakeWhile_concat_neg _ _ _ (by decide)]

theorem append_readable_december :
    ∃ entries,
      readCurrentMonth decemberJson decemberHost december "/home/op/.config/ai-bridge/audit"
          (decemberDisk (saved.toJson.text ++ "\n")) = .ok entries ∧
      readCurrentMonth decemberJson decemberHost december "/home/op/.config/ai-bridge/audit"
          (append decemberJson december "/home/op/.config/ai-bridge/audit" (changed "sockets.save")
            (decemberDisk (saved.toJson.text ++ "\n"))).1 =
        .ok (entries ++ [changed "sockets.save"]) := by
  have hblank : trim (lastLine (saved.toJson.text ++ "\n")) = "" := by
    rw [lastLine_newline]
    decide
  exact ((append_readable_iff decemberJson scannedJson_accepts decemberHost december december
    december ⟨rfl, rfl⟩ ⟨rfl, rfl⟩ "/home/op/.config/ai-bridge/audit" (saved.toJson.text ++ "\n")
    (decemberDisk (saved.toJson.text ++ "\n")) Disk.files_store_self rfl
    (changed "sockets.save") rfl decemberJson_round rfl).1).mpr hblank

/-- What a crash leaves of a line. -/
def tornText : String := "\x7b\"timestamp\":\"2026"

theorem toList_tornText : tornText.toList =
    ['\x7b', '"', 't', 'i', 'm', 'e', 's', 't', 'a', 'm', 'p', '"', ':', '"', '2', '0', '2', '6'] :=
  rfl

theorem trim_tornText : trim tornText = tornText := by
  have hends : trimChars tornText.toList = tornText.toList := by
    rw [toList_tornText]
    decide
  rw [trim, hends, String.ofList_toList]

theorem wholeLines_tornText : wholeLines tornText = "" := by
  have hnone : tornText.toList.rdropWhile (· ≠ '\n') = [] := by
    rw [toList_tornText]
    decide
  rw [wholeLines, hnone]

theorem lastLine_tornText : lastLine tornText = tornText := by
  have hall := wholeLines_append_lastLine tornText
  rwa [wholeLines_tornText, String.empty_append] at hall

theorem readLines_tornText {documents : List (String × Json)} :
    readLines (scannedJson documents) tornText = [] := by
  have hrefused : JsonScan.accepts tornText.toList = false := by
    rw [toList_tornText]
    decide
  have hnone : (scannedJson documents).fromStr tornText = none := by
    rw [scannedJson_fromStr, JsonScan.readScanned_of_refused hrefused]
  have hfresh : '\n' ∉ tornText.toList := by
    rw [toList_tornText]
    decide
  rw [readLines_eq_pieces, trimmedPieces_fresh hfresh, String.ofList_toList, trim_tornText]
  apply List.filterMap_eq_nil_iff.mpr
  intro piece hpiece
  obtain rfl := List.mem_singleton.mp (List.mem_of_mem_filter hpiece)
  rw [readPiece, hnone]
  rfl

/-- An entry that is appended behind an unfinished line is never read. -/
theorem appended_entry_lost :
    (append decemberJson december "/home/op/.config/ai-bridge/audit" (changed "sockets.save")
        (decemberDisk tornText)).2 = .ok () ∧
      readCurrentMonth decemberJson decemberHost december "/home/op/.config/ai-bridge/audit"
          (decemberDisk tornText) = .ok [] ∧
      readCurrentMonth decemberJson decemberHost december "/home/op/.config/ai-bridge/audit"
          (append decemberJson december "/home/op/.config/ai-bridge/audit" (changed "sockets.save")
            (decemberDisk tornText)).1 = .ok [] := by
  have htail : trim (lastLine tornText) ≠ "" := by
    rw [lastLine_tornText, trim_tornText]
    decide
  have hread : readCurrentMonth decemberJson decemberHost december
      "/home/op/.config/ai-bridge/audit" (decemberDisk tornText) =
      .ok (readLines decemberJson tornText) :=
    readCurrentMonth_of_file ⟨rfl, rfl⟩ Disk.files_store_self rfl
  have hreread : readCurrentMonth decemberJson decemberHost december
      "/home/op/.config/ai-bridge/audit"
      (append decemberJson december "/home/op/.config/ai-bridge/audit" (changed "sockets.save")
        (decemberDisk tornText)).1 =
      .ok (readLines decemberJson (wholeLines tornText) ++
        if trim (lastLine tornText) = "" then [changed "sockets.save"] else []) :=
    readCurrentMonth_append scannedJson_accepts ⟨rfl, rfl⟩ Disk.files_store_self rfl rfl
      decemberJson_round rfl
  refine ⟨rfl, ?_, ?_⟩
  · rw [hread, decemberJson, readLines_tornText]
  · rw [hreread, if_neg htail, wholeLines_tornText]
    rfl

end AuditLog

end AiBridge
