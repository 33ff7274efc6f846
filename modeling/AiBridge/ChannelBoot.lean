import AiBridge.Disk
import AiBridge.Executor
import AiBridge.HandshakeGate
import AiBridge.Runs

namespace AiBridge

open ByteStream Runs Text

def ChannelName.asStr : ChannelName → String
  | privateA => "private_a.sock"
  | privateB => "private_b.sock"
  | publicMaestro => "public_maestro.sock"

def ChannelName.all : List ChannelName := [.privateA, .privateB, .publicMaestro]

/-- `TOKEN_FILE_SUFFIX` behind the name of the socket. -/
def ChannelName.tokenName (name : ChannelName) : String := name.asStr ++ ".token"

/-- What a name in the directory of the sockets stands for. A socket belongs to the daemon that bound
it, if that is known. -/
inductive RuntimeEntry
  | file (bytes : List UInt8) (mode : Nat)
  | socket (owner : Option Nat) (mode : Nat)
  deriving DecidableEq, Repr

structure RuntimeDir where
  path : String
  mode : Nat
  entries : String → Option RuntimeEntry

namespace RuntimeDir

variable (self : RuntimeDir)

def put (name : String) (entry : RuntimeEntry) : RuntimeDir :=
  { self with entries := Function.update self.entries name (some entry) }

/-- `if path.exists()`, then `remove_file`, which may fail. -/
def cleared (removes : Bool) (name : String) : RuntimeDir :=
  if (self.entries name).isSome && removes then
    { self with entries := Function.update self.entries name none }
  else self

def restricted (restricts : Bool) : RuntimeDir :=
  if restricts then { self with mode := 0o700 } else self

/-- The mode that a file has once it is opened for writing. A socket cannot be opened. -/
def writtenMode (created : Nat) (name : String) : Option Nat :=
  match self.entries name with
  | none => some created
  | some (.file _ mode) => some mode
  | some (.socket _ _) => none

end RuntimeDir

/-- What `bind` meets: the directory that cannot be made, permissions that cannot be set, a file that
cannot be removed, the error of `bind` itself, the mode of what is created and the random bytes. -/
structure BindIo where
  createDir : Option String
  restrictsDir : Bool
  removes : Bool
  bind : Option String
  created : Nat
  restricts : Bool
  entropy : Except String { buf : List UInt8 // buf.length = 32 }

/-- What a boot meets. -/
structure BootIo where
  uid : Nat
  bind : ChannelName → BindIo
  write : Option (Disk.Fault String)
  created : Nat
  restrict : Option String

def BindIo.token (io : BindIo) : Except ChannelError SecureToken :=
  match io.entropy with
  | .error message => .error (.tokenGeneration message)
  | .ok buf => .ok (.generate buf.1 buf.2)

namespace BridgeSocket

/-- `bind`, by the daemon of a number. A socket that was bound stays where no token can be made. -/
def bindIn (io : BindIo) (owner uid : Nat) (name : ChannelName) (dir : RuntimeDir) :
    RuntimeDir × Except ChannelError BridgeSocket :=
  match io.createDir with
  | some message => (dir, .error (.pathAccess message))
  | none =>
    let dir := (dir.restricted io.restrictsDir).cleared io.removes name.asStr
    let taken := (dir.entries name.asStr).map fun _ => "Address already in use (os error 98)"
    match taken <|> io.bind with
    | some source =>
      (dir, .error (.socketBind (ExecutorAllowlist.join dir.path name.asStr) source))
    | none =>
      let mode := if io.restricts then 0o600 else io.created
      let dir := dir.put name.asStr (.socket (some owner) mode)
      match io.token with
      | .error e => (dir, .error e)
      | .ok token => (dir, .ok (.bind name uid token))

/-- A file that is there keeps its mode until that is set. -/
def writeTokenFile (io : BootIo) (self : BridgeSocket) (dir : RuntimeDir) :
    RuntimeDir × Except ChannelError Unit :=
  let place := self.name.tokenName
  let token := utf8 self.secureToken
  match dir.writtenMode io.created place with
  | none => (dir, .error (.pathAccess "No such device or address (os error 6)"))
  | some mode =>
    match io.write with
    | some (.refused message) => (dir, .error (.pathAccess message))
    | some (.cut message taken) =>
      (dir.put place (.file (token.dropLast.take taken) mode), .error (.pathAccess message))
    | none =>
      match io.restrict with
      | some message =>
        (dir.put place (.file token mode),
          .error (.pathAccess ("failed to set token file permissions: " ++ message)))
      | none => (dir.put place (.file token 0o600), .ok ())

end BridgeSocket

/-- The sockets in the order of their names. -/
structure ChannelManager where
  sockets : List BridgeSocket
  deriving DecidableEq, Repr

namespace ChannelManager

/-- The loop of `initialize`. -/
def initializeFrom (io : BootIo) (owner : Nat) :
    List ChannelName → RuntimeDir → RuntimeDir × Except ChannelError (List BridgeSocket)
  | [], dir => (dir, .ok [])
  | channel :: channels, dir =>
    match BridgeSocket.bindIn (io.bind channel) owner io.uid channel dir with
    | (dir, .error e) => (dir, .error e)
    | (dir, .ok socket) =>
      let written :=
        if channel = .publicMaestro then socket.writeTokenFile io dir else (dir, .ok ())
      match written with
      | (dir, .error e) => (dir, .error e)
      | (dir, .ok ()) =>
        match initializeFrom io owner channels dir with
        | (dir, .error e) => (dir, .error e)
        | (dir, .ok sockets) => (dir, .ok (socket :: sockets))

/-- `initialize`, by the daemon of a number. -/
def initializeIn (io : BootIo) (owner : Nat) (dir : RuntimeDir) :
    RuntimeDir × Except ChannelError ChannelManager :=
  match initializeFrom io owner ChannelName.all dir with
  | (dir, .error e) => (dir, .error e)
  | (dir, .ok sockets) => (dir, .ok ⟨sockets⟩)

def get (self : ChannelManager) (channel : ChannelName) : Option BridgeSocket :=
  self.sockets.find? fun socket => socket.name = channel

end ChannelManager

/-- What the end of `run_event_loop` meets: the files that can be removed. -/
structure ShutdownIo where
  removesSocket : ChannelName → Bool
  removesToken : ChannelName → Bool

/-- The end of `run_event_loop`: the paths of the sockets and of the token files are cleared, whoever
bound or wrote them. -/
def ChannelManager.shutdown (io : ShutdownIo) (self : ChannelManager) (dir : RuntimeDir) :
    RuntimeDir :=
  let dir := self.sockets.foldl
    (fun dir socket => dir.cleared (io.removesSocket socket.name) socket.name.asStr) dir
  ChannelName.all.foldl
    (fun dir channel => dir.cleared (io.removesToken channel) channel.tokenName) dir

/-- A machine with one directory for the sockets, and the daemons that were started on it. -/
structure BridgeMachine where
  dir : RuntimeDir
  booted : Nat
  running : Nat → Option ChannelManager

inductive MachineEvent
  | boot (io : BootIo)
  /-- A daemon ends outside its loop. Its sockets stay in the directory. -/
  | exit (owner : Nat)
  /-- A daemon is told to end, and its loop does. -/
  | shutdown (owner : Nat) (io : ShutdownIo)

/-- A shutdown that removes the token file removes the public socket as well. -/
def MachineEvent.Orderly : MachineEvent → Prop
  | .shutdown _ io => io.removesToken .publicMaestro → io.removesSocket .publicMaestro
  | _ => True

namespace BridgeMachine

/-- No daemon runs. Anything may lie in the directory. -/
def start (dir : RuntimeDir) : BridgeMachine := ⟨dir, 0, fun _ => none⟩

variable (self : BridgeMachine)

/-- A daemon runs on if all its channels are there. -/
def step : MachineEvent → BridgeMachine
  | .boot io =>
    let out := ChannelManager.initializeIn io self.booted self.dir
    { dir := out.1
      booted := self.booted + 1
      running := Function.update self.running self.booted out.2.toOption }
  | .exit owner => { self with running := Function.update self.running owner none }
  | .shutdown owner io =>
    match self.running owner with
    | none => self
    | some manager =>
      { self with
        dir := manager.shutdown io self.dir
        running := Function.update self.running owner none }

/-- The socket that a connection to the path of a channel reaches. -/
def reached (channel : ChannelName) : Option BridgeSocket :=
  match self.dir.entries channel.asStr with
  | some (.socket (some owner) _) => (self.running owner).bind fun manager => manager.get channel
  | _ => none

/-- What stands at the place of the file with the token of the public channel. -/
def tokenFile : Option RuntimeEntry := self.dir.entries ChannelName.publicMaestro.tokenName

end BridgeMachine

section Boot

variable {io : BindIo} {boot : BootIo} {owner uid : Nat} {name channel : ChannelName}
  {channels : List ChannelName} {dir dir' : RuntimeDir} {socket : BridgeSocket} {place : String}

theorem entries_put_of_ne {entry : RuntimeEntry} {other : String} (h : other ≠ place) :
    (dir.put place entry).entries other = dir.entries other :=
  Function.update_of_ne h _ _

theorem entries_put_self {entry : RuntimeEntry} : (dir.put place entry).entries place = some entry :=
  Function.update_self _ _ _

theorem asStr_inj (h : name.asStr = channel.asStr) : name = channel := by
  revert h
  cases name <;> cases channel <;> decide

theorem asStr_ne_tokenName : name.asStr ≠ channel.tokenName := by
  cases name <;> cases channel <;> decide

theorem entries_cleared (dir : RuntimeDir) (removes : Bool) (place other : String) :
    (dir.cleared removes place).entries other =
      if other = place ∧ removes then none else dir.entries other := by
  unfold RuntimeDir.cleared
  by_cases hplace : other = place
  · rw [hplace]
    cases hentry : dir.entries place with
    | none => simp [hentry]
    | some entry =>
      cases removes with
      | false => simp [hentry]
      | true => simp
  · have hstays : ¬(other = place ∧ removes = true) := fun h => hplace h.1
    rw [if_neg hstays]
    split
    next => exact Function.update_of_ne hplace _ _
    next => rfl

/-- Of the places that are cleared one after the other, those stay that cannot be removed. -/
theorem entries_foldl_cleared {α : Type*} (removes : α → Bool) (place : α → String) (xs : List α)
    (dir : RuntimeDir) (other : String) :
    (xs.foldl (fun dir x => dir.cleared (removes x) (place x)) dir).entries other =
      if ∃ x ∈ xs, other = place x ∧ removes x then none else dir.entries other := by
  induction xs generalizing dir with
  | nil => simp
  | cons x xs ih =>
    rw [List.foldl_cons, ih, entries_cleared]
    by_cases hrest : ∃ x ∈ xs, other = place x ∧ removes x
    · obtain ⟨later, hlater, hgone⟩ := hrest
      rw [if_pos ⟨later, hlater, hgone⟩, if_pos ⟨later, List.mem_cons_of_mem _ hlater, hgone⟩]
    · rw [if_neg hrest]
      congr 1
      rw [List.exists_mem_cons_iff, or_iff_left hrest]

namespace BridgeSocket

theorem entries_restricted (restricts : Bool) :
    (dir.restricted restricts).entries = dir.entries := by
  unfold RuntimeDir.restricted
  split <;> rfl

/-- A bind gives a socket with a new token and owns its name then, or it fails. Where it fails, the
name stands for what it stood for, for nothing, or for a socket of the same daemon. -/
theorem bindIn_spec (io : BindIo) (owner uid : Nat) (name : ChannelName) (dir : RuntimeDir) :
    (∀ other, other ≠ name.asStr →
      (bindIn io owner uid name dir).1.entries other = dir.entries other) ∧
    (∀ socket, (bindIn io owner uid name dir).2 = .ok socket →
      (∃ token, socket = .bind name uid token) ∧
        ∃ mode, (bindIn io owner uid name dir).1.entries name.asStr =
          some (.socket (some owner) mode)) ∧
    ∀ e, (bindIn io owner uid name dir).2 = .error e →
      (bindIn io owner uid name dir).1.entries name.asStr = dir.entries name.asStr ∨
        ∀ other mode, (bindIn io owner uid name dir).1.entries name.asStr =
          some (.socket (some other) mode) → other = owner := by
  unfold bindIn
  cases io.createDir with
  | some message => exact ⟨fun _ _ => rfl, (fun _ h => by cases h), fun _ _ => .inl rfl⟩
  | none =>
    have hcleared := entries_cleared (dir.restricted io.restrictsDir) io.removes name.asStr
    rw [entries_restricted] at hcleared
    simp only
    generalize (dir.restricted io.restrictsDir).cleared io.removes name.asStr = cleared at hcleared
    have hfirst : ∀ other, other ≠ name.asStr → cleared.entries other = dir.entries other :=
      fun other hother => by rw [hcleared, if_neg fun h => hother h.1]
    have hname : cleared.entries name.asStr = dir.entries name.asStr ∨
        cleared.entries name.asStr = none := by
      rw [hcleared]
      split
      next => exact .inr rfl
      next => exact .inl rfl
    cases ((cleared.entries name.asStr).map fun _ => "Address already in use (os error 98)")
        <|> io.bind with
    | some source =>
      refine ⟨hfirst, (fun _ h => by cases h), fun _ _ => ?_⟩
      rcases hname with hsame | hnone
      · exact .inl hsame
      · exact .inr fun other mode h => by rw [hnone] at h; cases h
    | none =>
      have hothers : ∀ entry other, other ≠ name.asStr →
          (cleared.put name.asStr entry).entries other = dir.entries other := by
        intro entry other hother
        rw [entries_put_of_ne hother, hfirst other hother]
      cases io.token with
      | error e =>
        refine ⟨hothers _, (fun _ h => by cases h), fun _ _ => .inr fun other mode h => ?_⟩
        rw [entries_put_self] at h
        cases h
        rfl
      | ok token =>
        refine ⟨hothers _, fun socket hsocket => ?_, (fun _ h => by cases h)⟩
        cases hsocket
        exact ⟨⟨token, rfl⟩, _, entries_put_self⟩

/-- A token file that was written holds the token, and nobody else may read it. -/
theorem writeTokenFile_spec (io : BootIo) (self : BridgeSocket) (dir : RuntimeDir) :
    (∀ other, other ≠ self.name.tokenName →
      (self.writeTokenFile io dir).1.entries other = dir.entries other) ∧
    ((self.writeTokenFile io dir).2 = .ok () →
      (self.writeTokenFile io dir).1.entries self.name.tokenName =
        some (.file (utf8 self.secureToken) 0o600)) := by
  have hput : ∀ entry other, other ≠ self.name.tokenName →
      (dir.put self.name.tokenName entry).entries other = dir.entries other :=
    fun _ _ h => entries_put_of_ne h
  simp only [writeTokenFile]
  cases dir.writtenMode io.created self.name.tokenName with
  | none => exact ⟨fun _ _ => rfl, (fun h => by cases h)⟩
  | some mode =>
    cases io.write with
    | some fault =>
      cases fault with
      | refused message => exact ⟨fun _ _ => rfl, (fun h => by cases h)⟩
      | cut message taken => exact ⟨hput _, (fun h => by cases h)⟩
    | none =>
      cases io.restrict with
      | some message => exact ⟨hput _, (fun h => by cases h)⟩
      | none => exact ⟨hput _, fun _ => entries_put_self⟩

end BridgeSocket

namespace ChannelManager

theorem tokenName_inj (h : name.tokenName = channel.tokenName) : name = channel := by
  revert h
  cases name <;> cases channel <;> decide

/-- One round of the loop: the socket is bound, the token of the public channel is written, and the
other channels follow. -/
theorem initializeFrom_cons (io : BootIo) (owner : Nat) (channel : ChannelName)
    (channels : List ChannelName) (dir : RuntimeDir) :
    (∃ dir' e, BridgeSocket.bindIn (io.bind channel) owner io.uid channel dir = (dir', .error e) ∧
      initializeFrom io owner (channel :: channels) dir = (dir', .error e)) ∨
    ∃ bound socket, BridgeSocket.bindIn (io.bind channel) owner io.uid channel dir =
        (bound, .ok socket) ∧
      ((∃ dir' e, channel = .publicMaestro ∧ socket.writeTokenFile io bound = (dir', .error e) ∧
        initializeFrom io owner (channel :: channels) dir = (dir', .error e)) ∨
      ∃ written, (if channel = .publicMaestro then socket.writeTokenFile io bound
          else (bound, .ok ())) = (written, .ok ()) ∧
        initializeFrom io owner (channel :: channels) dir =
          ((initializeFrom io owner channels written).1,
            (initializeFrom io owner channels written).2.map fun sockets => socket :: sockets)) := by
  rw [initializeFrom]
  rcases BridgeSocket.bindIn (io.bind channel) owner io.uid channel dir with ⟨bound, result⟩
  cases result with
  | error e => exact .inl ⟨bound, e, rfl, rfl⟩
  | ok socket =>
    refine .inr ⟨bound, socket, rfl, ?_⟩
    simp only
    by_cases hpublic : channel = .publicMaestro
    · rw [if_pos hpublic]
      rcases socket.writeTokenFile io bound with ⟨written, result⟩
      cases result with
      | error e => exact .inl ⟨written, e, hpublic, rfl, rfl⟩
      | ok u =>
        refine .inr ⟨written, rfl, ?_⟩
        simp only
        rcases initializeFrom io owner channels written with ⟨last, result⟩
        cases result <;> rfl
    · rw [if_neg hpublic]
      refine .inr ⟨bound, rfl, ?_⟩
      simp only
      rcases initializeFrom io owner channels bound with ⟨last, result⟩
      cases result <;> rfl

/-- What a round does to the directory where it comes to its end. -/
theorem round_spec {bound written : RuntimeDir}
    (hbind : BridgeSocket.bindIn (boot.bind channel) owner boot.uid channel dir =
      (bound, .ok socket))
    (hwrite : (if channel = .publicMaestro then socket.writeTokenFile boot bound
      else (bound, .ok ())) = (written, .ok ())) :
    (∀ other, other ≠ channel.asStr → other ≠ channel.tokenName →
      written.entries other = dir.entries other) ∧
    (∃ token, socket = .bind channel boot.uid token) ∧
    (∃ mode, written.entries channel.asStr = some (.socket (some owner) mode)) ∧
    (channel = .publicMaestro → written.entries channel.tokenName =
      some (.file (utf8 socket.secureToken) 0o600)) := by
  obtain ⟨hframe, hbound, -⟩ := BridgeSocket.bindIn_spec (boot.bind channel) owner boot.uid channel dir
  rw [hbind] at hframe hbound
  obtain ⟨⟨token, htoken⟩, mode, hmode⟩ := hbound socket rfl
  have hname : socket.name = channel := by
    rw [htoken]
    rfl
  by_cases hpublic : channel = .publicMaestro
  · rw [if_pos hpublic] at hwrite
    obtain ⟨hkept, hfile⟩ := BridgeSocket.writeTokenFile_spec boot socket bound
    rw [hwrite, hname] at hkept hfile
    refine ⟨?_, ⟨token, htoken⟩, ⟨mode, ?_⟩, fun _ => hfile rfl⟩
    · intro other hasStr htokenName
      rw [hkept other htokenName, hframe other hasStr]
    · rw [hkept _ asStr_ne_tokenName, hmode]
  · rw [if_neg hpublic] at hwrite
    obtain ⟨rfl, _⟩ := Prod.mk.inj hwrite
    exact ⟨fun other hasStr _ => hframe other hasStr, ⟨token, htoken⟩, ⟨mode, hmode⟩,
      fun h => absurd h hpublic⟩

theorem initializeFrom_frame (io : BootIo) (owner : Nat) (channels : List ChannelName)
    (dir : RuntimeDir) (h : ∀ channel ∈ channels, place ≠ channel.asStr ∧ place ≠ channel.tokenName) :
    (initializeFrom io owner channels dir).1.entries place = dir.entries place := by
  induction channels generalizing dir with
  | nil => rfl
  | cons channel channels ih =>
    obtain ⟨⟨hasStr, htokenName⟩, hrest⟩ := List.forall_mem_cons.mp h
    have hframe := (BridgeSocket.bindIn_spec (io.bind channel) owner io.uid channel dir).1 place hasStr
    rcases initializeFrom_cons io owner channel channels dir with
      ⟨dir', e, hbind, hout⟩ | ⟨bound, socket, hbind, ⟨dir', e, _, hwrite, hout⟩ |
        ⟨written, hwrite, hout⟩⟩
    · rw [hbind] at hframe
      rw [hout]
      exact hframe
    · obtain ⟨⟨token, htoken⟩, _⟩ :=
        (BridgeSocket.bindIn_spec (io.bind channel) owner io.uid channel dir).2.1 socket
          (by rw [hbind])
      have hname : socket.name = channel := by
        rw [htoken]
        rfl
      have hkept := (BridgeSocket.writeTokenFile_spec io socket bound).1 place
        (by rw [hname]; exact htokenName)
      rw [hwrite] at hkept
      rw [hbind] at hframe
      rw [hout]
      exact hkept.trans hframe
    · rw [hout, ih written hrest, (round_spec hbind hwrite).1 place hasStr htokenName]

/-- A boot that goes through has a socket for every channel, each in its place, and the token of the
public one in its file. -/
theorem initializeFrom_ok {io : BootIo} {sockets : List BridgeSocket} (hnodup : channels.Nodup)
    (h : (initializeFrom io owner channels dir).2 = .ok sockets) :
    sockets.map BridgeSocket.name = channels ∧
      ∀ socket ∈ sockets, (∃ token, socket = .bind socket.name io.uid token) ∧
        (∃ mode, (initializeFrom io owner channels dir).1.entries socket.name.asStr =
          some (.socket (some owner) mode)) ∧
        (socket.name = .publicMaestro →
          (initializeFrom io owner channels dir).1.entries socket.name.tokenName =
            some (.file (utf8 socket.secureToken) 0o600)) := by
  induction channels generalizing dir sockets with
  | nil =>
    cases h
    exact ⟨rfl, (fun _ hmem => nomatch hmem)⟩
  | cons channel channels ih =>
    obtain ⟨hfresh, hrest⟩ := List.nodup_cons.mp hnodup
    rcases initializeFrom_cons io owner channel channels dir with
      ⟨dir', e, _, hout⟩ | ⟨bound, socket, hbind, ⟨dir', e, _, _, hout⟩ |
        ⟨written, hwrite, hout⟩⟩
    · rw [hout] at h
      exact nomatch h
    · rw [hout] at h
      exact nomatch h
    · rw [hout] at h ⊢
      cases hlater : (initializeFrom io owner channels written).2 with
      | error e =>
        rw [hlater] at h
        exact nomatch h
      | ok later =>
        rw [hlater] at h
        cases h
        obtain ⟨hnames, hsockets⟩ := ih hrest hlater
        obtain ⟨-, ⟨token, htoken⟩, ⟨mode, hmode⟩, hfile⟩ := round_spec hbind hwrite
        have hname : socket.name = channel := by
          rw [htoken]
          rfl
        have hkept : ∀ place, place = channel.asStr ∨ place = channel.tokenName →
            (initializeFrom io owner channels written).1.entries place =
              written.entries place := by
          intro place hplace
          apply initializeFrom_frame
          intro other hother
          have hne : channel ≠ other := fun heq => hfresh (heq ▸ hother)
          rcases hplace with heq | heq
          · rw [heq]
            exact ⟨fun hsame => hne (asStr_inj hsame), asStr_ne_tokenName⟩
          · rw [heq]
            exact ⟨asStr_ne_tokenName.symm, fun hsame => hne (tokenName_inj hsame)⟩
        refine ⟨by rw [List.map_cons, hname, hnames], ?_⟩
        intro other hother
        rcases List.mem_cons.mp hother with heq | hmem
        · rw [heq, hname]
          refine ⟨⟨token, htoken⟩, ⟨mode, ?_⟩, fun hpublic => ?_⟩
          · rw [hkept _ (.inl rfl), hmode]
          · rw [hkept _ (.inr rfl), hfile hpublic]
        · exact hsockets other hmem

/-- A boot that fails leaves the public channel and its token file as they were, or leaves at the
place of the channel nothing that another daemon listens at. -/
theorem initializeFrom_error {io : BootIo} {e : ChannelError} (hnodup : channels.Nodup)
    (h : (initializeFrom io owner channels dir).2 = .error e) :
    ((initializeFrom io owner channels dir).1.entries ChannelName.publicMaestro.asStr =
        dir.entries ChannelName.publicMaestro.asStr ∧
      (initializeFrom io owner channels dir).1.entries ChannelName.publicMaestro.tokenName =
        dir.entries ChannelName.publicMaestro.tokenName) ∨
    ∀ other mode, (initializeFrom io owner channels dir).1.entries
      ChannelName.publicMaestro.asStr = some (.socket (some other) mode) → other = owner := by
  induction channels generalizing dir with
  | nil => exact nomatch h
  | cons channel channels ih =>
    obtain ⟨hfresh, hrest⟩ := List.nodup_cons.mp hnodup
    obtain ⟨hframe, hbound, hfailed⟩ :=
      BridgeSocket.bindIn_spec (io.bind channel) owner io.uid channel dir
    have hother : channel ≠ .publicMaestro → ChannelName.publicMaestro.asStr ≠ channel.asStr :=
      fun hne heq => hne (asStr_inj heq).symm
    have hothertoken : channel ≠ .publicMaestro →
        ChannelName.publicMaestro.tokenName ≠ channel.tokenName :=
      fun hne heq => hne (tokenName_inj heq).symm
    rcases initializeFrom_cons io owner channel channels dir with
      ⟨dir', e', hbind, hout⟩ | ⟨bound, socket, hbind, ⟨dir', e', hpublic, hwrite, hout⟩ |
        ⟨written, hwrite, hout⟩⟩
    · rw [hbind] at hframe hfailed
      rw [hout]
      by_cases hpublic : channel = .publicMaestro
      · rw [hpublic] at hframe hfailed
        rcases hfailed e' rfl with hsame | howned
        · exact .inl ⟨hsame, hframe _ asStr_ne_tokenName.symm⟩
        · exact .inr howned
      · exact .inl ⟨hframe _ (hother hpublic), hframe _ asStr_ne_tokenName.symm⟩
    · rw [hbind] at hbound
      obtain ⟨⟨token, htoken⟩, mode, hmode⟩ := hbound socket rfl
      have hname : socket.name = channel := by
        rw [htoken]
        rfl
      have hkept := (BridgeSocket.writeTokenFile_spec io socket bound).1 channel.asStr
        asStr_ne_tokenName
      rw [hwrite] at hkept
      have hplace : dir'.entries channel.asStr = some (.socket (some owner) mode) :=
        hkept.trans hmode
      rw [hout, ← hpublic]
      right
      intro other mode' hentry
      have hsame := hplace.symm.trans hentry
      cases hsame
      rfl
    · obtain ⟨hround, -, ⟨mode, hmode⟩, -⟩ := round_spec hbind hwrite
      rw [hout] at h ⊢
      have hlater : (initializeFrom io owner channels written).2 = .error e := by
        cases hresult : (initializeFrom io owner channels written).2 with
        | error e' =>
          rw [hresult] at h
          exact h
        | ok sockets =>
          rw [hresult] at h
          exact nomatch h
      rcases ih hrest hlater with ⟨hsame, hfile⟩ | howned
      · by_cases hpublic : channel = .publicMaestro
        · right
          intro other mode' hentry
          rw [hpublic] at hmode
          have hplace := (hsame.trans hmode).symm.trans hentry
          cases hplace
          rfl
        · left
          exact ⟨hsame.trans (hround _ (hother hpublic) asStr_ne_tokenName),
            hfile.trans (hround _ asStr_ne_tokenName.symm (hothertoken hpublic))⟩
      · exact .inr howned

end ChannelManager

namespace BridgeMachine

open ChannelManager

/-- A daemon that runs has a socket with a token of its own for every channel, and where it listens
at the place of the public one, the token of that is in the file, or no token is. -/
structure Sound (orderly : Prop) (machine : BridgeMachine) : Prop where
  fresh : ∀ owner, machine.booted ≤ owner → machine.running owner = none
  manager : ∀ owner manager, machine.running owner = some manager → ∃ uid, ∀ channel, ∃ token,
    manager.get channel = some (.bind channel uid token)
  file : ∀ owner mode manager,
    machine.dir.entries ChannelName.publicMaestro.asStr = some (.socket (some owner) mode) →
      machine.running owner = some manager → ∃ uid token,
        manager.get .publicMaestro = some (.bind .publicMaestro uid token) ∧
          (machine.dir.entries ChannelName.publicMaestro.tokenName =
              some (.file (utf8 token.asStr) 0o600) ∨
            ¬orderly ∧ machine.dir.entries ChannelName.publicMaestro.tokenName = none)

theorem get_of_initialized {io : BootIo} {sockets : List BridgeSocket}
    (h : (initializeFrom io owner ChannelName.all dir).2 = .ok sockets) (channel : ChannelName) :
    ∃ token, ChannelManager.get ⟨sockets⟩ channel = some (.bind channel io.uid token) ∧
      (channel = .publicMaestro → (initializeFrom io owner ChannelName.all dir).1.entries
        channel.tokenName = some (.file (utf8 token.asStr) 0o600)) := by
  obtain ⟨hnames, hsockets⟩ := initializeFrom_ok (by decide) h
  have hmem : channel ∈ sockets.map BridgeSocket.name := by
    rw [hnames]
    cases channel <;> decide
  obtain ⟨named, hnamed, hname⟩ := List.mem_map.mp hmem
  have hsome : (sockets.find? fun socket => socket.name = channel).isSome := by
    rw [List.find?_isSome]
    exact ⟨named, hnamed, by simpa using hname⟩
  obtain ⟨socket, hsocket⟩ := Option.isSome_iff_exists.mp hsome
  have hsame : socket.name = channel := by simpa using List.find?_some hsocket
  obtain ⟨⟨token, htoken⟩, _, hfile⟩ := hsockets socket (List.mem_of_find?_eq_some hsocket)
  rw [hsame] at htoken hfile
  refine ⟨token, ?_, fun hpublic => ?_⟩
  · rw [ChannelManager.get, hsocket, htoken]
  · rw [hfile hpublic, htoken]
    rfl

theorem initializeIn_eq (io : BootIo) (owner : Nat) (dir : RuntimeDir) :
    initializeIn io owner dir = ((initializeFrom io owner ChannelName.all dir).1,
      (initializeFrom io owner ChannelName.all dir).2.map ChannelManager.mk) := by
  rw [initializeIn]
  rcases initializeFrom io owner ChannelName.all dir with ⟨dir, result⟩
  cases result <;> rfl

theorem running_exit (machine : BridgeMachine) (owner other : Nat) :
    (machine.step (.exit owner)).running other =
      if other = owner then none else machine.running other :=
  Function.update_apply _ _ _ _

theorem entries_shutdown (io : ShutdownIo) (manager : ChannelManager) (dir : RuntimeDir)
    (place : String) :
    (manager.shutdown io dir).entries place =
      if (∃ channel ∈ ChannelName.all, place = channel.tokenName ∧ io.removesToken channel) ∨
          ∃ socket ∈ manager.sockets, place = socket.name.asStr ∧ io.removesSocket socket.name then
        none
      else dir.entries place := by
  rw [ChannelManager.shutdown, entries_foldl_cleared, entries_foldl_cleared]
  by_cases htoken : ∃ channel ∈ ChannelName.all, place = channel.tokenName ∧ io.removesToken channel
  · rw [if_pos htoken, if_pos (.inl htoken)]
  · by_cases hsocket :
        ∃ socket ∈ manager.sockets, place = socket.name.asStr ∧ io.removesSocket socket.name
    · rw [if_neg htoken, if_pos hsocket, if_pos (.inr hsocket)]
    · rw [if_neg htoken, if_neg hsocket, if_neg (not_or.mpr ⟨htoken, hsocket⟩)]

/-- What a shutdown leaves at a place is what was there. -/
theorem entries_of_shutdown {io : ShutdownIo} {manager : ChannelManager} {entry : RuntimeEntry}
    (h : (manager.shutdown io dir).entries place = some entry) : dir.entries place = some entry := by
  rw [entries_shutdown] at h
  split at h
  next => cases h
  next => exact h

theorem sound_start {orderly : Prop} (dir : RuntimeDir) : (start dir).Sound orderly :=
  ⟨fun _ _ => rfl, (fun _ _ h => nomatch h), (fun _ _ _ _ h => nomatch h)⟩

section Steps

variable {machine : BridgeMachine} {orderly : Prop}

/-- What adds no daemon keeps the machine sound, if the place of the public channel and its file are
left to those that run. -/
theorem Sound.kept (h : machine.Sound orderly) {next : BridgeMachine}
    (hbooted : machine.booted ≤ next.booted)
    (hrunning : ∀ other manager, next.running other = some manager →
      machine.running other = some manager)
    (hplace : ∀ other mode manager, next.running other = some manager →
      next.dir.entries ChannelName.publicMaestro.asStr = some (.socket (some other) mode) →
      machine.dir.entries ChannelName.publicMaestro.asStr = some (.socket (some other) mode) ∧
        (next.dir.entries ChannelName.publicMaestro.tokenName =
            machine.dir.entries ChannelName.publicMaestro.tokenName ∨
          ¬orderly ∧ next.dir.entries ChannelName.publicMaestro.tokenName = none)) :
    next.Sound orderly := by
  refine ⟨?_, ?_, ?_⟩
  · intro other hother
    cases hmanager : next.running other with
    | none => rfl
    | some manager =>
      have hbefore := h.fresh other (hbooted.trans hother)
      rw [hrunning other manager hmanager] at hbefore
      cases hbefore
  · intro other manager hother
    exact h.manager other manager (hrunning other manager hother)
  · intro other mode manager hentry hother
    obtain ⟨hbefore, hfile⟩ := hplace other mode manager hother hentry
    obtain ⟨uid, token, hget, htoken⟩ :=
      h.file other mode manager hbefore (hrunning other manager hother)
    refine ⟨uid, token, hget, ?_⟩
    rcases hfile with hsame | hgone
    · rwa [hsame]
    · exact .inr hgone

theorem sound_shutdown (h : machine.Sound orderly) {owner : Nat} {io : ShutdownIo}
    (horderly : orderly → (MachineEvent.shutdown owner io).Orderly) :
    (machine.step (.shutdown owner io)).Sound orderly := by
  cases hrunning : machine.running owner with
  | none =>
    have hsame : machine.step (.shutdown owner io) = machine := by simp only [step, hrunning]
    rwa [hsame]
  | some manager =>
    have hnext : machine.step (.shutdown owner io) =
        { machine with
          dir := manager.shutdown io machine.dir
          running := Function.update machine.running owner none } := by
      simp only [step, hrunning]
    rw [hnext]
    refine h.kept le_rfl ?_ ?_
    · intro other manager' hother
      simp only [Function.update_apply] at hother
      split at hother
      next => cases hother
      next => exact hother
    · intro other mode manager' _ hentry
      refine ⟨entries_of_shutdown hentry, ?_⟩
      by_cases hremoved : io.removesToken .publicMaestro = true
      · right
        refine ⟨fun hkeeps => ?_, ?_⟩
        · obtain ⟨uid, hget⟩ := h.manager owner manager hrunning
          obtain ⟨token, hsocket⟩ := hget .publicMaestro
          have hmem := List.mem_of_find?_eq_some hsocket
          rw [entries_shutdown, if_pos (.inr ⟨_, hmem, rfl, horderly hkeeps hremoved⟩)] at hentry
          cases hentry
        · exact (entries_shutdown ..).trans
            (if_pos (.inl ⟨.publicMaestro, by decide, rfl, hremoved⟩))
      · left
        refine (entries_shutdown ..).trans (if_neg ?_)
        rintro (⟨channel, -, hname, htoken⟩ | ⟨socket, -, hname, -⟩)
        · rw [← tokenName_inj hname] at htoken
          exact hremoved htoken
        · exact asStr_ne_tokenName hname.symm

theorem booted_step (machine : BridgeMachine) (io : BootIo) :
    machine.step (.boot io) =
      { dir := (initializeFrom io machine.booted ChannelName.all machine.dir).1
        booted := machine.booted + 1
        running := Function.update machine.running machine.booted
          ((initializeFrom io machine.booted ChannelName.all machine.dir).2.map
            ChannelManager.mk).toOption } := by
  rw [step, initializeIn_eq]

/-- A boot that fails leaves the public channel to another daemon as it was, or takes it. -/
theorem sound_boot_error (h : machine.Sound orderly) {io : BootIo} {e : ChannelError}
    (hresult : (initializeFrom io machine.booted ChannelName.all machine.dir).2 = .error e) :
    (machine.step (.boot io)).Sound orderly := by
  have hothers : ∀ other manager, (machine.step (.boot io)).running other = some manager →
      other ≠ machine.booted ∧ machine.running other = some manager := by
    intro other manager hother
    rw [booted_step, hresult] at hother
    simp only [Function.update_apply] at hother
    split at hother
    next => cases hother
    next hne => exact ⟨hne, hother⟩
  refine h.kept (Nat.le_succ _) (fun other manager hother => (hothers other manager hother).2) ?_
  intro other mode manager hother hentry
  rw [booted_step] at hentry ⊢
  rcases initializeFrom_error (by decide) hresult with ⟨hplace, hfile⟩ | howned
  · exact ⟨hplace ▸ hentry, .inl hfile⟩
  · exact absurd (howned other mode hentry) (hothers other manager hother).1

/-- A boot that goes through brings a daemon with all its sockets, and takes the public channel. -/
theorem sound_boot_ok (h : machine.Sound orderly) {io : BootIo} {sockets : List BridgeSocket}
    (hresult : (initializeFrom io machine.booted ChannelName.all machine.dir).2 = .ok sockets) :
    (machine.step (.boot io)).Sound orderly := by
  have hself : (machine.step (.boot io)).running machine.booted = some ⟨sockets⟩ := by
    rw [booted_step, hresult]
    exact Function.update_self _ _ _
  have hothers : ∀ other, other ≠ machine.booted →
      (machine.step (.boot io)).running other = machine.running other :=
    fun _ hne => Function.update_of_ne hne _ _
  obtain ⟨hnames, hsockets⟩ := initializeFrom_ok (by decide) hresult
  refine ⟨?_, ?_, ?_⟩
  · intro other hbooted
    have hnew : machine.booted + 1 ≤ other := hbooted
    rw [hothers other (by omega)]
    exact h.fresh other (by omega)
  · intro other manager hother
    by_cases heq : other = machine.booted
    · rw [heq, hself, Option.some.injEq] at hother
      refine ⟨io.uid, fun channel => ?_⟩
      obtain ⟨token, hget, _⟩ := get_of_initialized hresult channel
      exact ⟨token, by rw [← hother, hget]⟩
    · rw [hothers other heq] at hother
      exact h.manager other manager hother
  · intro other mode manager hentry hother
    obtain ⟨token, hget, hfile⟩ := get_of_initialized hresult .publicMaestro
    have hmem : BridgeSocket.bind .publicMaestro io.uid token ∈ sockets :=
      List.mem_of_find?_eq_some hget
    obtain ⟨_, ⟨mode', hplace⟩, _⟩ := hsockets _ hmem
    have howner : other = machine.booted := by
      rw [booted_step] at hentry
      have hsame := hplace.symm.trans hentry
      cases hsame
      rfl
    rw [howner, hself, Option.some.injEq] at hother
    refine ⟨io.uid, token, by rw [← hother, hget], ?_⟩
    rw [booted_step]
    exact .inl (hfile rfl)

theorem sound_step (h : machine.Sound orderly) (event : MachineEvent)
    (horderly : orderly → event.Orderly) : (machine.step event).Sound orderly := by
  cases event with
  | exit owner =>
    refine h.kept le_rfl ?_ fun other mode manager _ hentry => ⟨hentry, .inl rfl⟩
    intro other manager hother
    rw [running_exit] at hother
    split at hother
    next => cases hother
    next => exact hother
  | shutdown owner io => exact sound_shutdown h horderly
  | boot io =>
    cases hresult : (initializeFrom io machine.booted ChannelName.all machine.dir).2 with
    | error e => exact sound_boot_error h hresult
    | ok sockets => exact sound_boot_ok h hresult

end Steps

theorem sound_run (dir : RuntimeDir) (events : List MachineEvent) :
    (run step (start dir) events).Sound (∀ event ∈ events, event.Orderly) :=
  run_invariant (P := fun _ event => (∀ event ∈ events, event.Orderly) → event.Orderly)
    (fun _ event h horderly => sound_step h event horderly) (sound_start dir)
    (along_of_forall fun event hevent horderly => horderly event hevent)

theorem reached_eq_some_iff {machine : BridgeMachine} :
    machine.reached channel = some socket ↔ ∃ owner mode manager,
      machine.dir.entries channel.asStr = some (.socket (some owner) mode) ∧
        machine.running owner = some manager ∧ manager.get channel = some socket := by
  unfold reached
  split
  next owner mode hentry =>
    rw [Option.bind_eq_some_iff]
    constructor
    · rintro ⟨manager, hmanager, hget⟩
      exact ⟨owner, mode, manager, hentry, hmanager, hget⟩
    · rintro ⟨owner', mode', manager, hentry', hmanager, hget⟩
      rw [hentry] at hentry'
      cases hentry'
      exact ⟨manager, hmanager, hget⟩
  next hnone =>
    constructor
    · exact fun h => nomatch h
    · rintro ⟨owner, mode, manager, hentry, -, -⟩
      exact absurd hentry (hnone owner mode)

theorem runs_of_token {token : SecureToken} {connection : Connection} {payload : List UInt8}
    (huid : connection.uid = uid) (hbytes : connection.bytes = writeHandshake token.asStr ++ payload) :
    (BridgeSocket.bind channel uid token).Runs connection := by
  have hpresents : connection.Presents token.asStr := by
    rw [presents_of_written hbytes, firstLineOf, firstLine_of_endless token.newline_not_mem,
      String.ofList_toList, token.trimEnd_asStr]
  exact runs_iff.mpr ⟨huid, hpresents⟩

end BridgeMachine

end Boot

open BridgeMachine

/-- Whatever daemons were started, told to end or killed, and wherever their boots failed: a connection
that reaches a daemon reaches its socket for that channel, and is let in with the token of that socket
only. For the public channel the file holds this token and nothing else, and nobody but its owner may
read it. There is no file only if a shutdown removed it and not the socket. -/
theorem reached_daemon_admits {dir : RuntimeDir} {events : List MachineEvent} {channel : ChannelName}
    {socket : BridgeSocket} (h : (run step (start dir) events).reached channel = some socket) :
    socket.name = channel ∧
      (∀ connection, socket.Runs connection →
        connection.uid = socket.registeredUid ∧ connection.Presents socket.secureToken) ∧
      (channel = .publicMaestro →
        ((run step (start dir) events).tokenFile = some (.file (utf8 socket.secureToken) 0o600) ∨
          (run step (start dir) events).tokenFile = none ∧ ¬∀ event ∈ events, event.Orderly) ∧
        ∀ connection payload, connection.uid = socket.registeredUid →
          connection.bytes = writeHandshake socket.secureToken ++ payload →
            socket.Runs connection) := by
  have hsound := sound_run dir events
  obtain ⟨owner, mode, manager, hentry, hrunning, hget⟩ := reached_eq_some_iff.mp h
  obtain ⟨uid, hmanager⟩ := hsound.manager owner manager hrunning
  obtain ⟨token, htoken⟩ := hmanager channel
  have hsocket : socket = .bind channel uid token := Option.some.inj (hget.symm.trans htoken)
  refine ⟨by rw [hsocket]; rfl, fun connection hruns => runs_iff.mp hruns, fun hpublic => ?_⟩
  rw [hpublic] at hentry hget
  obtain ⟨uid', token', hpublicGet, hfile⟩ := hsound.file owner mode manager hentry hrunning
  have hbound : socket = .bind .publicMaestro uid' token' :=
    Option.some.inj (hget.symm.trans hpublicGet)
  rw [hbound]
  refine ⟨?_, ?_⟩
  · rcases hfile with hthere | ⟨hloose, hnone⟩
    · exact .inl hthere
    · exact .inr ⟨hnone, hloose⟩
  · intro connection payload huid hbytes
    exact runs_of_token huid hbytes

/-- Nothing goes wrong, and the random bytes are all this one. -/
def BindIo.calm (byte : UInt8) : BindIo :=
  ⟨none, true, true, none, 0o644, true, .ok ⟨List.replicate 32 byte, rfl⟩⟩

def BootIo.calm (byte : UInt8) : BootIo := ⟨1000, fun _ => .calm byte, none, 0o644, none⟩

/-- A daemon is restarted, and another one ends at the directory. -/
def restarted : List MachineEvent :=
  [.boot (.calm 7), .shutdown 0 ⟨fun _ => true, fun _ => true⟩, .boot (.calm 9),
    .boot { BootIo.calm 11 with
      bind := fun _ => { BindIo.calm 11 with createDir := some "Permission denied (os error 13)" } }]

theorem reached_daemon_admits_restarted :
    (run step (start ⟨"/tmp/ai_bridge_runtime_sockets", 0o755, fun _ => none⟩) restarted).tokenFile =
      some (.file (utf8 (SecureToken.generate (List.replicate 32 9) rfl).asStr) 0o600) := by
  have hreached : (run step (start ⟨"/tmp/ai_bridge_runtime_sockets", 0o755, fun _ => none⟩)
      restarted).reached .publicMaestro =
        some (.bind .publicMaestro 1000 (.generate (List.replicate 32 9) rfl)) := by
    decide +kernel
  have horderly : ∀ event ∈ restarted, event.Orderly := by
    simp [restarted, MachineEvent.Orderly]
  rcases ((reached_daemon_admits hreached).2.2 rfl).1 with hfile | ⟨_, hloose⟩
  · exact hfile
  · exact absurd horderly hloose

end AiBridge
