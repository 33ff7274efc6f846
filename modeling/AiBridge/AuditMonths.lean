import AiBridge.AuditTruth
import AiBridge.Decimal
import AiBridge.KeyedList
import AiBridge.Pieces
import AiBridge.Runs
import Mathlib.Data.List.Sort
import Mathlib.Data.String.Basic

namespace AiBridge

open Text

namespace AuditEntry

def fieldNames : List String :=
  ["timestamp", "operator", "changed_file", "action", "old_value", "new_value",
    "security_lowering"]

def ofFields : List Json → Option AuditEntry
  | [.str timestamp, .str operator, .str changedFile, .str action, .str oldValue, .str newValue,
      .bool securityLowering] =>
    some ⟨timestamp, operator, changedFile, action, oldValue, newValue, securityLowering⟩
  | _ => none

/-- `serde_json::from_str::<AuditEntry>` on a text that parses to the document. -/
def fromDocument (document : Json) : Option AuditEntry :=
  (document.strictFields fieldNames).bind ofFields

theorem fromDocument_toJson (entry : AuditEntry) : fromDocument entry.toJson = some entry := rfl

end AuditEntry

/-- What a look at the log directory meets: whether it is there, the names that `read_dir` gives, in
any order, and what goes wrong where a file is read. `notUtf8` is the error of bytes that spell no
text. -/
structure AuditHost where
  dirExists : Bool
  names : Except IoError (List (Except IoError String))
  unreadable : String → Option IoError
  notUtf8 : IoError

namespace AuditLog

section Reading

variable (json : SerdeJson) (host : AuditHost) (dir : String) (disk : FileSystem)

/-- The loop over the lines. Lines that are no entry get a warning and are left out. -/
def readLines (raw : String) : List AuditEntry :=
  (lines raw).filterMap fun line =>
    let trimmed := trim line
    if trimmed = "" then none else (json.fromStr trimmed).bind AuditEntry.fromDocument

def readFile (path : String) : Except IoError (List AuditEntry) :=
  match disk.files path with
  | none => .ok []
  | some bytes =>
    match host.unreadable path with
    | some e => .error e
    | none =>
      match fromUtf8 bytes with
      | none => .error host.notUtf8
      | some raw => .ok (readLines json raw)

/-- The extension of the file is `jsonl`. -/
def isLogName (name : String) : Bool :=
  decide (".jsonl".toList <:+ name.toList) && decide (name ≠ ".jsonl")

/-- Paths of one directory are sorted by their names, and names, bytes of UTF-8, as their
characters. -/
def readAll : Except IoError (List AuditEntry) :=
  if !host.dirExists then .ok []
  else
    match host.names with
    | .error e => .error e
    | .ok names =>
      let files := ((names.filterMap Except.toOption).filter isLogName).mergeSort
        fun a b => decide (a ≤ b)
      (files.mapM fun name => readFile json host disk (ExecutorAllowlist.join dir name)).map
        List.flatten

end Reading

/-- The month of a clock is not after that of another. -/
def NotAfter (first second : Circumstances) : Prop :=
  first.year < second.year ∨ first.year = second.year ∧ first.month ≤ second.month

/-- A date of the calendar that is written with four and two digits. -/
structure Dated (circ : Circumstances) : Prop where
  year : circ.year ≤ 9999
  month : circ.month ≤ 12

theorem toList_zeroPadded {width n : Nat} (hwidth : 0 < width) (h : n < 10 ^ width) :
    (zeroPadded width n).toList = Decimal.lastDigits width n := by
  have hlength : (toString n).length = (Nat.toDigits 10 n).length := by
    rw [← String.length_toList, Decimal.toList_toString]
  rw [zeroPadded, String.toList_append, String.toList_ofList, hlength, Decimal.toList_toString]
  exact Decimal.replicate_append_toDigits hwidth h

theorem toList_currentMonthFilename {circ : Circumstances} (h : Dated circ) :
    (currentMonthFilename circ).toList = "audit-".toList ++ (Decimal.lastDigits 4 circ.year ++
      ("-".toList ++ (Decimal.lastDigits 2 circ.month ++ ".jsonl".toList))) := by
  have hyear := h.year
  have hmonth := h.month
  rw [← toList_zeroPadded (by omega) (by omega), ← toList_zeroPadded (by omega) (by omega)]
  simp only [currentMonthFilename, String.toList_append]

/-- The names of the files are ordered as the months. -/
theorem currentMonthFilename_le {first second : Circumstances} (hfirst : Dated first)
    (hsecond : Dated second) (h : NotAfter first second) :
    currentMonthFilename first ≤ currentMonthFilename second := by
  have hyear := hsecond.year
  have hmonth := hsecond.month
  have hlt : first.year < second.year ∨ first.year = second.year ∧ first.month < second.month →
      currentMonthFilename first < currentMonthFilename second := by
    intro hbefore
    rw [String.lt_iff_toList_lt, toList_currentMonthFilename hfirst,
      toList_currentMonthFilename hsecond]
    rcases hbefore with hyears | ⟨hsame, hmonths⟩
    · have hdigits := Decimal.lastDigits_lt hyears (by omega : second.year < 10 ^ 4)
      have hlength : (Decimal.lastDigits 4 first.year).length =
          (Decimal.lastDigits 4 second.year).length := by
        rw [Decimal.length_lastDigits, Decimal.length_lastDigits]
      exact List.Lex.append_left _ (Decimal.lex_append hlength hdigits _ _) _
    · have hdigits := Decimal.lastDigits_lt hmonths (by omega : second.month < 10 ^ 2)
      have hlength : (Decimal.lastDigits 2 first.month).length =
          (Decimal.lastDigits 2 second.month).length := by
        rw [Decimal.length_lastDigits, Decimal.length_lastDigits]
      rw [hsame]
      apply List.Lex.append_left
      apply List.Lex.append_left
      apply List.Lex.append_left
      exact Decimal.lex_append hlength hdigits _ _
  by_cases hbefore : first.year < second.year ∨ first.year = second.year ∧ first.month < second.month
  · exact le_of_lt (hlt hbefore)
  · have hsame : first.year = second.year ∧ first.month = second.month := by
      rcases h with hyears | ⟨hyears, hmonths⟩
      · exact absurd (Or.inl hyears) hbefore
      · constructor
        · exact hyears
        · by_contra hne
          exact hbefore (Or.inr ⟨hyears, by omega⟩)
    rw [currentMonthFilename, currentMonthFilename, hsame.1, hsame.2]

theorem isLogName_currentMonthFilename (circ : Circumstances) :
    isLogName (currentMonthFilename circ) = true := by
  have hne : currentMonthFilename circ ≠ ".jsonl" := by
    intro heq
    have hhead := congrArg (fun name => name.toList.head?) heq
    simp [currentMonthFilename] at hhead
  rw [isLogName, decide_eq_true (extension_currentMonthFilename circ), decide_eq_true hne]
  rfl

section Months

variable {json : SerdeJson} {dir : String}

/-- `serde_json` on an entry: what is written is read back, and no control character is left in it. -/
structure Faithful (json : SerdeJson) (entry : AuditEntry) : Prop where
  round : json.fromStr (json.toString entry.toJson) = some entry.toJson
  escapes : ∀ c ∈ (json.toString entry.toJson).toList, 32 ≤ c.toNat

/-- The text of a file that holds the entries. -/
def logText (json : SerdeJson) : List AuditEntry → String
  | [] => ""
  | entry :: entries => json.toString entry.toJson ++ "\n" ++ logText json entries

theorem utf8_logText (entries : List AuditEntry) :
    utf8 (logText json entries) = entries.flatMap (line json) := by
  induction entries with
  | nil => rfl
  | cons entry entries ih => rw [logText, utf8_append, ih, List.flatMap_cons, line]

/-- An entry is read from one piece between newlines. -/
def readPiece (json : SerdeJson) (piece : String) : Option AuditEntry :=
  (json.fromStr piece).bind AuditEntry.fromDocument

theorem readLines_eq_pieces (raw : String) :
    readLines json raw = (trimmedPieces '\n' raw.toList).filterMap (readPiece json) := by
  rw [← trimmed_lineChars, List.filterMap_filter, List.filterMap_map, readLines, lines,
    List.filterMap_map]
  apply List.filterMap_congr
  intro line _
  by_cases hempty : trim (String.ofList line) = ""
  · simp [hempty]
  · simp [hempty, readPiece]

/-- Complete lines are read on their own, whatever stands in the others. -/
theorem readLines_append (first second : String) :
    readLines json (first ++ "\n" ++ second) = readLines json first ++ readLines json second := by
  have hlist : (first ++ "\n" ++ second).toList = first.toList ++ '\n' :: second.toList := by simp
  rw [readLines_eq_pieces, readLines_eq_pieces, readLines_eq_pieces, hlist,
    trimmedPieces_append_sep, List.filterMap_append]

/-- One entry is one line, whatever its texts are, and is read back from it. -/
theorem readLines_logText {entries : List AuditEntry} (h : ∀ entry ∈ entries, Faithful json entry) :
    readLines json (logText json entries) = entries := by
  induction entries with
  | nil => rfl
  | cons entry entries ih =>
    obtain ⟨hentry, hentries⟩ := List.forall_mem_cons.mp h
    have hfresh : '\n' ∉ (json.toString entry.toJson).toList := by
      intro hmem
      have hcode := hentry.escapes '\n' hmem
      exact absurd hcode (by decide)
    have hblank : trim (json.toString entry.toJson) ≠ "" := by
      intro hnone
      have hround := hentry.round
      rw [json.fromStr_blank hnone] at hround
      simp at hround
    have hread : readPiece json (trim (json.toString entry.toJson)) = some entry := by
      rw [readPiece, json.fromStr_trim hentry.round, Option.bind_some,
        AuditEntry.fromDocument_toJson]
    have hline : readLines json (json.toString entry.toJson) = [entry] := by
      rw [readLines_eq_pieces, trimmedPieces_fresh hfresh, String.ofList_toList,
        List.filter_cons_of_pos (by simpa using hblank), List.filter_nil]
      exact List.filterMap_cons_some hread
    rw [logText, readLines_append, hline, ih hentries]
    rfl

/-- A call of `append`, with the clock and what happens where it writes. -/
structure AppendCall where
  circ : Circumstances
  entry : AuditEntry

/-- The call writes its line. -/
def AppendCall.appends (call : AppendCall) : Bool :=
  call.circ.auditDir.isNone && call.circ.append.isNone

/-- The call writes its line or nothing at all. -/
def AppendCall.Whole (call : AppendCall) : Prop :=
  ∀ error taken, call.circ.append ≠ some (.cut error taken)

def appendStep (json : SerdeJson) (dir : String) (disk : FileSystem) (call : AppendCall) :
    FileSystem :=
  (append json call.circ dir call.entry disk).1

def AppendCall.name (call : AppendCall) : String := currentMonthFilename call.circ

theorem whole_of_appends {call : AppendCall} (h : call.appends = true) : call.Whole := by
  intro error taken hcut
  rw [AppendCall.appends, hcut] at h
  simp at h

theorem appendStep_of_appends {disk : FileSystem} {call : AppendCall} (h : call.appends = true) :
    appendStep json dir disk call =
      disk.store (ExecutorAllowlist.join dir call.name)
        ((disk.files (ExecutorAllowlist.join dir call.name)).getD [] ++ line json call.entry) := by
  rw [AppendCall.appends, Bool.and_eq_true, Option.isNone_iff_eq_none, Option.isNone_iff_eq_none] at h
  rw [appendStep, append, h.1]
  simp only [Disk.append, h.2, Disk.put_none]
  rfl

theorem appendStep_of_refused {disk : FileSystem} {call : AppendCall} (hwhole : call.Whole)
    (h : call.appends = false) : appendStep json dir disk call = disk := by
  rw [appendStep, append]
  cases hdir : call.circ.auditDir with
  | some e => rfl
  | none =>
    cases happend : call.circ.append with
    | none =>
      rw [AppendCall.appends, hdir, happend] at h
      simp at h
    | some fault =>
      cases fault with
      | refused error => rfl
      | cut error taken => exact absurd happend (hwhole error taken)

/-- The calls that wrote into the file of a month. -/
def written (calls : List AppendCall) (name : String) : List AppendCall :=
  (calls.filter AppendCall.appends).filter fun call => decide (call.name = name)

variable {calls : List AppendCall} {disk : FileSystem}

theorem written_concat (call : AppendCall) (name : String) :
    written (calls ++ [call]) name = written calls name ++
      if call.appends = true ∧ call.name = name then [call] else [] := by
  rw [written, written, List.filter_append, List.filter_append]
  cases happends : call.appends with
  | false => simp [happends]
  | true =>
    by_cases hname : call.name = name
    · simp [happends, hname]
    · simp [happends, hname]

/-- After any appends into an empty directory the file of a month holds the lines that were written
into it, in their order. -/
theorem files_run (hempty : ∀ name, disk.files (ExecutorAllowlist.join dir name) = none)
    (hwhole : ∀ call ∈ calls, call.Whole) (name : String) :
    (Runs.run (appendStep json dir) disk calls).files (ExecutorAllowlist.join dir name) =
      if written calls name = [] then none
      else some ((written calls name).flatMap fun call => line json call.entry) := by
  induction calls using List.reverseRecOn with
  | nil => simpa [written] using hempty name
  | append_singleton calls call ih =>
    have hbefore := ih fun other hmem => hwhole other (List.mem_append_left _ hmem)
    rw [Runs.run_concat, written_concat]
    cases happends : call.appends with
    | false =>
      rw [appendStep_of_refused (hwhole call (by simp)) happends, hbefore]
      simp
    | true =>
      rw [appendStep_of_appends happends]
      by_cases hname : call.name = name
      · rw [hname, Disk.files_store_self, hbefore]
        by_cases hnone : written calls name = []
        · simp [hnone]
        · simp [hnone]
      · have hother : ExecutorAllowlist.join dir name ≠ ExecutorAllowlist.join dir call.name :=
          fun heq => hname (join_inj.mp heq).symm
        rw [Disk.touches_store.files _ (by simpa using hother), hbefore]
        simp [hname]

theorem files_run_ne_none_iff (hempty : ∀ name, disk.files (ExecutorAllowlist.join dir name) = none)
    (hwhole : ∀ call ∈ calls, call.Whole) (name : String) :
    (Runs.run (appendStep json dir) disk calls).files (ExecutorAllowlist.join dir name) ≠ none ↔
      ∃ call ∈ calls.filter AppendCall.appends, call.name = name := by
  have hwritten : written calls name ≠ [] ↔
      ∃ call ∈ calls.filter AppendCall.appends, call.name = name := by
    rw [written, ne_eq, List.filter_eq_nil_iff]
    simp only [decide_eq_true_eq, not_forall, not_not, exists_prop]
  rw [← hwritten, files_run hempty hwhole]
  by_cases hnone : written calls name = []
  · simp [hnone]
  · simp [hnone]

/-- What the reader sees: every file of the directory once, and none that cannot be read. -/
structure Sees (host : AuditHost) (dir : String) (disk : FileSystem) (names : List String) : Prop where
  listed : host.names = .ok (names.map .ok)
  once : names.Nodup
  complete : ∀ name, name ∈ names ↔ disk.files (ExecutorAllowlist.join dir name) ≠ none
  created : names ≠ [] → host.dirExists = true
  readable : ∀ path, host.unreadable path = none

theorem readFile_run (hjson : ∀ call ∈ calls, Faithful json call.entry) {host : AuditHost}
    (hreadable : ∀ path, host.unreadable path = none)
    (hempty : ∀ name, disk.files (ExecutorAllowlist.join dir name) = none)
    (hwhole : ∀ call ∈ calls, call.Whole) (name : String) :
    readFile json host (Runs.run (appendStep json dir) disk calls)
        (ExecutorAllowlist.join dir name) =
      .ok ((written calls name).map AppendCall.entry) := by
  have hfile : (Runs.run (appendStep json dir) disk calls).files (ExecutorAllowlist.join dir name) =
      if written calls name = [] then none
      else some ((written calls name).flatMap fun call => line json call.entry) :=
    files_run hempty hwhole name
  by_cases hnone : written calls name = []
  · rw [if_pos hnone] at hfile
    rw [readFile, hfile, hnone]
    rfl
  · have hbytes : ((written calls name).flatMap fun call => line json call.entry) =
        utf8 (logText json ((written calls name).map AppendCall.entry)) := by
      rw [utf8_logText, List.flatMap_map]
    rw [if_neg hnone, hbytes] at hfile
    have hentries : ∀ entry ∈ (written calls name).map AppendCall.entry, Faithful json entry := by
      intro entry hentry
      obtain ⟨call, hmem, hcall⟩ := List.mem_map.mp hentry
      rw [← hcall]
      exact hjson call (List.mem_of_mem_filter (List.mem_of_mem_filter hmem))
    simp only [readFile, hfile, hreadable, fromUtf8_utf8, readLines_logText hentries]

theorem readFiles_run (hjson : ∀ call ∈ calls, Faithful json call.entry) {host : AuditHost}
    (hreadable : ∀ path, host.unreadable path = none)
    (hempty : ∀ name, disk.files (ExecutorAllowlist.join dir name) = none)
    (hwhole : ∀ call ∈ calls, call.Whole) (files : List String) :
    files.mapM (fun name =>
        readFile json host (Runs.run (appendStep json dir) disk calls)
          (ExecutorAllowlist.join dir name)) =
      .ok (files.map fun name => (written calls name).map AppendCall.entry) := by
  simp only [readFile_run hjson hreadable hempty hwhole]
  exact Checks.mapM_ok_map files

/-- The order of the names is that of the calls. -/
theorem flatMap_written (hdated : ∀ call ∈ calls, Dated call.circ)
    (hclock : calls.Pairwise fun first second => NotAfter first.circ second.circ)
    {files : List String} (hordered : files.Pairwise (· < ·))
    (hfiles : ∀ call ∈ calls.filter AppendCall.appends, call.name ∈ files) :
    files.flatMap (fun name => written calls name) = calls.filter AppendCall.appends := by
  have hsorted : (calls.filter AppendCall.appends).Pairwise
      fun first second => first.name ≤ second.name := by
    apply (hclock.filter AppendCall.appends).imp_of_mem
    intro first second hfirst hsecond hnotAfter
    exact currentMonthFilename_le (hdated first (List.mem_of_mem_filter hfirst))
      (hdated second (List.mem_of_mem_filter hsecond)) hnotAfter
  exact KeyedList.flatMap_filter_eq hordered hsorted hfiles

end Months

theorem pairwise_mergeSort_lt {names : List String} (hnodup : names.Nodup) :
    (names.mergeSort fun a b => decide (a ≤ b)).Pairwise (· < ·) := by
  have hle : (names.mergeSort fun a b => decide (a ≤ b)).Pairwise (· ≤ ·) :=
    List.pairwise_mergeSort' (· ≤ ·) names
  have honce : (names.mergeSort fun a b => decide (a ≤ b)).Nodup :=
    (List.mergeSort_perm names _).nodup_iff.mpr hnodup
  exact (hle.and honce).imp fun h => lt_of_le_of_ne h.1 h.2

/-- The entries of all files, in the order of the names, are those that were appended, in the order
in which they were. -/
theorem readAll_of_appends (json : SerdeJson) (dir : String) (disk : FileSystem)
    (hempty : ∀ name, disk.files (ExecutorAllowlist.join dir name) = none)
    (calls : List AppendCall) (hjson : ∀ call ∈ calls, Faithful json call.entry)
    (hdated : ∀ call ∈ calls, Dated call.circ)
    (hclock : calls.Pairwise fun first second => NotAfter first.circ second.circ)
    (hwhole : ∀ call ∈ calls, call.Whole) (host : AuditHost) (names : List String)
    (hsees : Sees host dir (Runs.run (appendStep json dir) disk calls) names) :
    readAll json host dir (Runs.run (appendStep json dir) disk calls) =
      .ok ((calls.filter AppendCall.appends).map AppendCall.entry) := by
  have hnames : ∀ name, name ∈ names ↔
      ∃ call ∈ calls.filter AppendCall.appends, call.name = name := by
    intro name
    rw [hsees.complete, files_run_ne_none_iff hempty hwhole]
  have hall : names.filter isLogName = names := by
    apply List.filter_eq_self.mpr
    intro name hmem
    obtain ⟨call, _, hname⟩ := (hnames name).mp hmem
    rw [← hname]
    exact isLogName_currentMonthFilename call.circ
  let files := names.mergeSort fun a b => decide (a ≤ b)
  have hperm : files.Perm names := List.mergeSort_perm names _
  have hgroups : files.flatMap (fun name => written calls name) =
      calls.filter AppendCall.appends := by
    apply flatMap_written hdated hclock (pairwise_mergeSort_lt hsees.once)
    intro call hmem
    exact hperm.mem_iff.mpr ((hnames call.name).mpr ⟨call, hmem, rfl⟩)
  have hread : files.mapM (fun name =>
      readFile json host (Runs.run (appendStep json dir) disk calls)
        (ExecutorAllowlist.join dir name)) =
      .ok (files.map fun name => (written calls name).map AppendCall.entry) :=
    readFiles_run hjson hsees.readable hempty hwhole files
  have hentries : (files.map fun name => (written calls name).map AppendCall.entry).flatten =
      (calls.filter AppendCall.appends).map AppendCall.entry := by
    rw [← hgroups, List.map_flatMap, List.flatMap]
  have hlisted : (names.map (Except.ok : String → Except IoError String)).filterMap
      Except.toOption = names := by
    rw [List.filterMap_map]
    exact List.filterMap_some
  cases hexists : host.dirExists with
  | false =>
    have hnone : names = [] := by
      by_contra hne
      rw [hsees.created hne] at hexists
      simp at hexists
    have hempty_names : (calls.filter AppendCall.appends).map AppendCall.entry = [] := by
      rw [← hentries]
      simp [files, hnone]
    rw [readAll, hexists, hempty_names]
    rfl
  | true =>
    rw [readAll, hexists]
    simp only [Bool.not_true, Bool.false_eq_true, if_false, hsees.listed, hlisted, hall]
    have hflat := congrArg (Except.map List.flatten) hread
    exact hflat.trans (congrArg Except.ok hentries)

def changed (action : String) : AuditEntry :=
  ⟨"2026-12-31T23:59:59Z", "op", "criteria.toml", action, "", "", false⟩

def changedJson : SerdeJson :=
  plainJson [(plainText (changed "criteria.save").toJson, (changed "criteria.save").toJson),
    (plainText (changed "sockets.save").toJson, (changed "sockets.save").toJson)]

/-- One entry on the last day of a year, and one on the next. -/
def newYearCalls : List AppendCall :=
  [⟨{ Circumstances.calm with year := 2026, month := 12 }, changed "criteria.save"⟩,
    ⟨{ Circumstances.calm with year := 2027, month := 1 }, changed "sockets.save"⟩]

def newYearNames : List String := ["audit-2027-01.jsonl", "audit-2026-12.jsonl"]

/-- The directory gives the names in the wrong order. -/
def newYearHost : AuditHost :=
  ⟨true, .ok (newYearNames.map .ok), fun _ => none, ⟨.other, "stream did not contain valid UTF-8"⟩⟩

theorem escapes_changed {action : String}
    (haction : action.toList.all (fun c => decide (32 ≤ c.toNat)) = true) :
    ∀ c ∈ (plainText (changed action).toJson).toList, 32 ≤ c.toNat := by
  have hall : (plainText (changed action).toJson).toList.all (fun c => decide (32 ≤ c.toNat)) =
      true := by
    simp only [changed, AuditEntry.toJson, plainText, plainMembers, String.toList_append,
      List.all_append, haction]
    rfl
  simpa using hall

theorem plainText_changed_inj {a b : String}
    (h : plainText (changed a).toJson = plainText (changed b).toJson) : a = b := by
  have hlist := congrArg String.toList h
  simp only [changed, AuditEntry.toJson, plainText, plainMembers, String.toList_append,
    List.append_assoc, List.append_cancel_left_eq, List.append_cancel_right_eq] at hlist
  exact String.toList_injective hlist

theorem faithful_changed : ∀ call ∈ newYearCalls, Faithful changedJson call.entry := by
  have hne : (plainText (changed "sockets.save").toJson ==
      plainText (changed "criteria.save").toJson) = false := by
    rw [beq_eq_false_iff_ne]
    intro h
    exact absurd (plainText_changed_inj h) (by decide)
  intro call hmem
  rcases List.mem_pair.mp hmem with heq | heq
  · rw [heq]
    refine ⟨plainJson_fromStr ?_, escapes_changed (by decide)⟩
    exact List.lookup_cons_self
  · rw [heq]
    refine ⟨plainJson_fromStr ?_, escapes_changed (by decide)⟩
    show List.lookup (plainText (changed "sockets.save").toJson) _ = _
    rw [List.lookup_cons, hne]
    exact List.lookup_cons_self

theorem sees_newYear : Sees newYearHost "/home/op/.config/ai-bridge/audit"
    (Runs.run (appendStep changedJson "/home/op/.config/ai-bridge/audit") ⟨fun _ => none, []⟩
      newYearCalls) newYearNames := by
  refine ⟨rfl, by decide, ?_, fun _ => rfl, fun _ => rfl⟩
  intro name
  have happends : newYearCalls.filter AppendCall.appends = newYearCalls := rfl
  have hnames : newYearCalls.map AppendCall.name = ["audit-2026-12.jsonl", "audit-2027-01.jsonl"] := by
    decide
  have hwhole : ∀ call ∈ newYearCalls, call.Whole := by
    intro call hmem
    rw [← happends] at hmem
    exact whole_of_appends (List.of_mem_filter hmem)
  have hwritten : (∃ call ∈ newYearCalls, call.name = name) ↔
      name ∈ newYearCalls.map AppendCall.name := List.mem_map.symm
  rw [files_run_ne_none_iff (fun _ => rfl) hwhole, happends, hwritten, hnames]
  simp [newYearNames, or_comm]

theorem readAll_newYear :
    readAll changedJson newYearHost "/home/op/.config/ai-bridge/audit"
        (Runs.run (appendStep changedJson "/home/op/.config/ai-bridge/audit") ⟨fun _ => none, []⟩
          newYearCalls) =
      .ok [changed "criteria.save", changed "sockets.save"] := by
  have hdated : ∀ call ∈ newYearCalls, Dated call.circ := by
    intro call hmem
    rcases List.mem_pair.mp hmem with heq | heq
    · rw [heq]
      exact ⟨by decide, by decide⟩
    · rw [heq]
      exact ⟨by decide, by decide⟩
  have hclock : newYearCalls.Pairwise fun first second => NotAfter first.circ second.circ := by
    simp [newYearCalls, NotAfter]
  have hwhole : ∀ call ∈ newYearCalls, call.Whole := by
    intro call hmem
    have happends : ∀ call ∈ newYearCalls, call.appends = true := by decide
    exact whole_of_appends (happends call hmem)
  exact readAll_of_appends changedJson "/home/op/.config/ai-bridge/audit" ⟨fun _ => none, []⟩
    (fun _ => rfl) newYearCalls faithful_changed hdated hclock hwhole newYearHost newYearNames
    sees_newYear

end AuditLog

end AiBridge
