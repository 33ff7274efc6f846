import AiBridge.ChatStores
import AiBridge.FileTree

namespace AiBridge

open UnixPath

/-- A file system and the directory of the process, if it is still there. -/
structure StoreHost where
  entries : List (Name × FileTree)
  workDir : Option (List Name)
  workDir_isPlace : ∀ here, workDir = some here → FileTree.IsPlace (.dir entries) here

namespace StoreHost

variable (host : StoreHost)

def realPath (path : String) : Except FileTree.Failure (List Name) :=
  FileTree.realPath (.dir host.entries) host.workDir path

end StoreHost

/-- The error of the system, as `std::io::Error` shows it. -/
def ofFailure : FileTree.Failure → IoError
  | .missing => ⟨.notFound, "No such file or directory (os error 2)"⟩
  | .notDirectory => ⟨.other, "Not a directory (os error 20)"⟩
  | .tooManyLinks => ⟨.other, "Too many levels of symbolic links (os error 40)"⟩

section Store

variable (host : StoreHost)

def canonicalize (path : String) : Except IoError String :=
  match host.realPath path with
  | .ok names => .ok (render names)
  | .error failure => .error (ofFailure failure)

/-- `Path::exists`, which follows links. -/
def pathExists (path : String) : Bool := (host.realPath path).isOk

/-- `std::env::current_dir().unwrap_or_default()`. -/
def currentDir : String :=
  match host.workDir with
  | some here => render here
  | none => ""

/-- The candidate as it stands, behind the current directory unless it is absolute. -/
def spelledOut (candidate : String) : String :=
  if isAbsolute candidate then candidate else join (currentDir host) candidate

def confine (base candidate : String) : Except DesktopIoError String :=
  match canonicalize host base with
  | .error e => .error (.io e)
  | .ok baseAbs =>
    let candidateAbs :=
      match canonicalize host candidate with
      | .ok path => path
      | .error _ => spelledOut host candidate
    if startsWith candidateAbs baseAbs then .ok candidateAbs
    else .error (.unconfinedPath candidate)

def jsonRecords (root : String) (identity : ChatIdentity) : String :=
  join (join root identity.asStr) "messages.json"

def sqliteRecords (root : String) (identity : ChatIdentity) : String :=
  join (join root identity.asStr) "chat.db"

/-- `readToString` and `openDb` are what the paths give to the two readers. -/
def readLiveRecords (json : ChatJson) (readToString : String → Except IoError String)
    (openDb : String → Except String ChatDb) (root : String) (identity : ChatIdentity) :
    Except DesktopIoError (List ChatRecord) :=
  if pathExists host (jsonRecords root identity) then
    match confine host root (jsonRecords root identity) with
    | .error e => .error e
    | .ok confined => readJsonRecords json (readToString confined) identity
  else if pathExists host (sqliteRecords root identity) then
    match confine host root (sqliteRecords root identity) with
    | .error e => .error e
    | .ok confined => readSqliteRecords (openDb confined) identity
  else .ok []

/-- The path leads along names alone, no link and no `..`, to something in the store. -/
def InStore (root path : String) : Prop :=
  ∃ store names, host.realPath root = .ok store ∧ store <+: names ∧
    host.realPath path = .ok names ∧ path = render names

end Store

section Confined

variable {host : StoreHost} {base candidate path root : String} {store names : List Name}

theorem canonicalize_of_realPath (h : host.realPath path = .ok names) :
    canonicalize host path = .ok (render names) := by
  rw [canonicalize, h]

/-- A candidate that is there is accepted as its canonical path, if that lies in the store. -/
theorem confine_of_exists (hbase : host.realPath base = .ok store)
    (h : host.realPath candidate = .ok names) :
    confine host base candidate =
      if store <+: names then .ok (render names) else .error (.unconfinedPath candidate) := by
  simp only [confine, canonicalize_of_realPath hbase, canonicalize_of_realPath h,
    startsWith_render_iff]

/-- A candidate that is not there is compared as it is spelled. -/
theorem confine_of_missing (hbase : host.realPath base = .ok store) {failure : FileTree.Failure}
    (h : host.realPath candidate = .error failure) :
    confine host base candidate =
      if startsWith (spelledOut host candidate) (render store) then .ok (spelledOut host candidate)
      else .error (.unconfinedPath candidate) := by
  have hmissing : canonicalize host candidate = .error (ofFailure failure) := by
    rw [canonicalize, h]
  simp only [confine, canonicalize_of_realPath hbase, hmissing]

theorem realPath_render (h : host.realPath path = .ok names) :
    host.realPath (render names) = .ok names :=
  FileTree.realPath_render rfl host.workDir_isPlace h

/-- What is accepted of a candidate that is there is a canonical path in the store. -/
theorem confined_of_exists (hexists : pathExists host candidate = true)
    (h : confine host base candidate = .ok path) : InStore host base path := by
  cases hcandidate : host.realPath candidate with
  | error failure =>
    rw [pathExists, hcandidate] at hexists
    exact absurd hexists Bool.false_ne_true
  | ok names =>
    cases hbase : host.realPath base with
    | error failure =>
      have hmissing : canonicalize host base = .error (ofFailure failure) := by
        rw [canonicalize, hbase]
      simp [confine, hmissing] at h
    | ok store =>
      rw [confine_of_exists hbase hcandidate] at h
      split at h
      next hinside =>
        have hpath := Except.ok.inj h
        refine ⟨store, names, hbase, hinside, ?_, hpath.symm⟩
        rw [← hpath]
        exact realPath_render hcandidate
      next => exact absurd h (by simp)

end Confined

/-- What is accepted lies in the store exactly if the candidate is there, or is not spelled as a path
that starts with the store, or comes back from where it climbs out of it. -/
theorem confine_inside_iff (host : StoreHost) (base candidate : String) (store : List Name)
    (hbase : host.realPath base = .ok store) :
    (∀ path, confine host base candidate = .ok path → store <+: normalize path) ↔
      ((∃ names, host.realPath candidate = .ok names) ∨
        startsWith (spelledOut host candidate) (render store) = false ∨
        ComesBack store ((components (spelledOut host candidate)).drop (store.length + 1))) := by
  cases hcandidate : host.realPath candidate with
  | ok names =>
    rw [confine_of_exists hbase hcandidate]
    constructor
    · intro _
      exact Or.inl ⟨names, rfl⟩
    · intro _ path hpath
      split at hpath
      next hinside =>
        rw [← Except.ok.inj hpath, normalize_render]
        exact hinside
      next => exact absurd hpath (by simp)
  | error failure =>
    rw [confine_of_missing hbase hcandidate]
    cases hstarts : startsWith (spelledOut host candidate) (render store) with
    | false => simp
    | true =>
      rw [if_pos rfl, ← inside_iff hstarts]
      simp

def srv : Name := ⟨"srv", by decide⟩

def store : Name := ⟨"store", by decide⟩

def outside : Name := ⟨"outside", by decide⟩

def chatDb : Name := ⟨"chat.db", by decide⟩

/-- A store and a directory beside it. -/
def twoDirs : List (Name × FileTree) := [(srv, .dir [(store, .dir []), (outside, .dir [])])]

def storeHost : StoreHost where
  entries := twoDirs
  workDir := some [srv, store]
  workDir_isPlace here h := by
    rw [← Option.some.inj h]
    exact FileTree.isPlace_dir rfl

theorem confine_inside_sibling :
    confine storeHost "/srv/store" "A/../B/chat.db" = .ok "/srv/store/A/../B/chat.db" ∧
      [srv, store] <+: normalize "/srv/store/A/../B/chat.db" := by
  have hbase : storeHost.realPath "/srv/store" = .ok [srv, store] := by rfl
  have haccepted : confine storeHost "/srv/store" "A/../B/chat.db" =
      .ok "/srv/store/A/../B/chat.db" := by rfl
  have hback : ComesBack [srv, store]
      ((components (spelledOut storeHost "A/../B/chat.db")).drop [srv, store].length.succ) := by
    decide +kernel
  exact ⟨haccepted, (confine_inside_iff storeHost "/srv/store" "A/../B/chat.db" [srv, store]
    hbase).mpr (Or.inr (Or.inr hback)) _ haccepted⟩

/-- A path that climbs out of the store to a file that is not there yet is accepted. -/
theorem outside_accepted :
    storeHost.realPath "/srv/store" = .ok [srv, store] ∧
      confine storeHost "/srv/store" "/srv/store/../outside/chat.db" =
        .ok "/srv/store/../outside/chat.db" ∧
      normalize "/srv/store/../outside/chat.db" = [srv, outside, chatDb] ∧
      ¬[srv, store] <+: normalize "/srv/store/../outside/chat.db" := by
  refine ⟨rfl, rfl, by decide +kernel, by decide +kernel⟩

/-- Two disks that agree on the paths in the store have the same records: of an identity nothing is
read but what is there, under its own name, in the store. -/
theorem live_records_confined (host : StoreHost) (json : ChatJson) (root : String)
    (identity : ChatIdentity) {readToString readToString' : String → Except IoError String}
    {openDb openDb' : String → Except String ChatDb}
    (hread : ∀ path, InStore host root path → readToString path = readToString' path)
    (hopen : ∀ path, InStore host root path → openDb path = openDb' path) :
    readLiveRecords host json readToString openDb root identity =
      readLiveRecords host json readToString' openDb' root identity := by
  unfold readLiveRecords
  by_cases hjson : pathExists host (jsonRecords root identity) = true
  · rw [if_pos hjson, if_pos hjson]
    cases hconfined : confine host root (jsonRecords root identity) with
    | error e => rfl
    | ok path => simp only [hread path (confined_of_exists hjson hconfined)]
  rw [if_neg hjson, if_neg hjson]
  by_cases hsqlite : pathExists host (sqliteRecords root identity) = true
  · rw [if_pos hsqlite, if_pos hsqlite]
    cases hconfined : confine host root (sqliteRecords root identity) with
    | error e => rfl
    | ok path => simp only [hopen path (confined_of_exists hsqlite hconfined)]
  · rw [if_neg hsqlite, if_neg hsqlite]

def chatA : Name := ⟨"A", by decide⟩

def messagesJson : Name := ⟨"messages.json", by decide⟩

/-- The messages of one chat are a link that leads out of the store. -/
def linkedDirs : List (Name × FileTree) :=
  [(srv, .dir [(store, .dir [(chatA, .dir [(messagesJson, .link "/srv/outside/messages.json")])]),
    (outside, .dir [(messagesJson, .file)])])]

def linkedHost : StoreHost where
  entries := linkedDirs
  workDir := none
  workDir_isPlace _ h := nomatch h

/-- What there is behind the link. -/
def behindLink (raw : Except IoError String) (path : String) : Except IoError String :=
  if path = "/srv/outside/messages.json" then raw else .error (ofFailure .missing)

theorem live_records_confined_linked :
    let json := knowsOne repliesText (.arr (replies.map ChatRecord.toJson))
    let read raw := readLiveRecords linkedHost json (behindLink raw)
      (fun _ => .error "unable to open database file") "/srv/store" .a
    read (.ok repliesText) = read (.error (ofFailure .missing)) ∧
      read (.ok repliesText) = .error (.unconfinedPath "/srv/store/A/messages.json") := by
  intro json read
  have hstore : linkedHost.realPath "/srv/store" = .ok [srv, store] := by decide +kernel
  have hlink : linkedHost.realPath (jsonRecords "/srv/store" .a) =
      .ok [srv, outside, messagesJson] := by decide +kernel
  constructor
  · apply live_records_confined linkedHost json "/srv/store" .a
    · intro path hpath
      -- what the link leads to is below `outside`
      have hinside : path ≠ "/srv/outside/messages.json" := by
        rintro rfl
        obtain ⟨root, names, hroot, hprefix, hnames, _⟩ := hpath
        have hfile : linkedHost.realPath "/srv/outside/messages.json" =
            .ok [srv, outside, messagesJson] := by decide +kernel
        rw [← Except.ok.inj (hstore.symm.trans hroot),
          ← Except.ok.inj (hfile.symm.trans hnames)] at hprefix
        exact absurd hprefix (by decide)
      rw [behindLink, behindLink, if_neg hinside, if_neg hinside]
    · intro path _
      rfl
  · have hexists : pathExists linkedHost (jsonRecords "/srv/store" .a) = true := by
      rw [pathExists, hlink]
      rfl
    show readLiveRecords _ _ _ _ _ _ = _
    rw [readLiveRecords, if_pos hexists, confine_of_exists hstore hlink, if_neg (by decide)]
    rfl

end AiBridge
