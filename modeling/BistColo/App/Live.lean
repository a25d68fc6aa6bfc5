import BistColo.Observability.SequenceStore
import BistColo.Ouch.Session
import BistColo.StreamKit.Runs
/-!
# The live client

`LiveTransportControl` and the parts of `run_live` around it
(`apps/bist_colo.cpp`), and the two steps of the scenario runner that log in
again (`runner/replay.hpp`). A live client keeps a log of all its sessions.
Nothing reads the sequence store after the start, so the store is a function
of the log: `storeAt` folds the calls of the store over it, the audit handler
of `run_live` among them.
-/

open StreamKit

namespace BistColo.App

open Ouch Observability

/-! ## The log -/

inductive LiveEvent
  /-- `rebuild` puts a new session in the slot -/
  | started (lp : LoginParams)
  /-- the session in the slot does something -/
  | session (e : Event)
  /-- `rebuild` saves the cursor after a login -/
  | save (session : Bytes) (seq : UInt64)
  /-- `run_live` flushes the cursor -/
  | flush (session : Bytes) (seq : UInt64)
deriving DecidableEq

/-- An event, and what a call of the store meets if the event makes one. -/
structure Moment where
  what : LiveEvent
  disk : Disk
deriving DecidableEq

/-- The effect of an event on the store. `on_audit_recv` calls `save_if_due`
with what the session returns before the packet is dispatched. -/
def storeStep (store : SequenceStore) (m : Moment) : SequenceStore :=
  match m.what with
  | .session (.auditRecv _ session seq) => (store.saveIfDue m.disk session seq).2
  | .save session seq => (store.save m.disk session seq).2
  | .flush session seq => (store.flush m.disk session seq).2
  | .started _ | .session _ => store

/-- The store after the moments of `log`. -/
def storeAt (store : SequenceStore) (log : List Moment) : SequenceStore := run storeStep store log

/-! ## The client -/

structure LiveClient where
  hostPrimary : Bytes
  hostSecondary : Bytes
  onSecondary : Bool
  baseLp : LoginParams
  hbSendNs : UInt32
  /-- the store when the client started -/
  store : SequenceStore
  /-- what the store's calls meet -/
  disk : Nat → Disk
  session : Option OuchSession := none
  log : List Moment := []

namespace LiveClient

def record (c : LiveClient) (e : LiveEvent) : LiveClient := { c with log := c.log ++ [⟨e, c.disk c.log.length⟩] }

def recordAll (c : LiveClient) (es : List LiveEvent) : LiveClient := es.foldl record c

/-- Puts a session in the slot and moves its log to the client's. -/
def settle (c : LiveClient) (s : OuchSession) : LiveClient :=
  { c.recordAll (s.log.map .session) with session := some { s with log := [] } }

/-- What a rebuild meets: the socket that `connect_with_retry` comes back with,
the clock, and how often `drive_login` polls before its deadline has passed. -/
structure Dial where
  socket : Result TcpSocket
  clock : Clock
  patience : Nat

/-- The loop of `drive_login`. -/
def awaitLogin : Nat → OuchSession → Result Unit × OuchSession
  | patience, s =>
    if s.state ≠ .loggingIn then
      if s.state ≠ .active then (.error (makeError .reject "login rejected"), s) else (.ok (), s)
    else
      match s.pollIo with
      | (.error e, s) => (.error e, s)
      | (.ok (), s) =>
        match patience with
        | 0 => (.error (makeError .timeout "login timeout"), s)
        | patience + 1 => awaitLogin patience s

def driveLogin (patience : Nat) (s : OuchSession) : Result Unit × OuchSession :=
  match s.beginLogin with
  | (.error e, s) => (.error e, s)
  | (.ok (), s) => awaitLogin patience s

/-- The base parameters with the overrides that are given. -/
def loginParams (base : LoginParams) (password session : Bytes) (sequence : UInt64) : LoginParams where
  username := base.username
  password := if password ≠ [] then password else base.password
  requestedSession := if session ≠ [] then session else base.requestedSession
  requestedSequence := if sequence ≠ 0 then sequence else base.requestedSequence

/-- Whether the save succeeds is not looked at. -/
def rebuild (c : LiveClient) (password session : Bytes) (sequence : UInt64) (dial : Dial) :
    Result Unit × LiveClient :=
  let c := { c with session := none }
  match dial.socket with
  | .error e => (.error e, c)
  | .ok socket =>
    let lp := loginParams c.baseLp password session sequence
    let c := c.record (.started lp)
    match driveLogin dial.patience (.create socket dial.clock lp c.hbSendNs) with
    | (.error e, s) => (.error e, c.settle s)
    | (.ok (), s) => (.ok (), (c.settle s).record (.save s.assignedSession s.nextInboundSeq))

def reconnectAndLogin (c : LiveClient) (password session : Bytes) (sequence : UInt64) (dial : Dial) :
    Result Unit × LiveClient :=
  c.rebuild password session sequence dial

def hardDisconnect (c : LiveClient) : LiveClient := { c with session := none }

def activeHost (c : LiveClient) : Bytes := if c.onSecondary then c.hostSecondary else c.hostPrimary

def switchToSecondary (c : LiveClient) (secondary : Bool) (session : Bytes) (sequence : UInt64) (dial : Dial) :
    Result Unit × LiveClient :=
  let c := { c with onSecondary := secondary }
  if c.activeHost = [] then
    (.error (makeError .validation ("switch_to_secondary: " ++
      (if secondary then "host_secondary" else "host_primary") ++ " is empty in [ouch] config")), c)
  else c.rebuild [] session sequence dial

/-! ## The scenario runner -/

/-- What the runner reads through its session reference while the slot is
empty: the destroyed session's state, id and number, whatever is left of them. -/
structure Stale where
  active : Bool
  session : Bytes
  seq : UInt64
deriving DecidableEq

def readActive (c : LiveClient) (stale : Stale) : Bool :=
  match c.session with
  | some s => decide (s.state = .active)
  | none => stale.active

def readSession (c : LiveClient) (stale : Stale) : Bytes :=
  match c.session with
  | some s => s.assignedSession
  | none => stale.session

def readSeq (c : LiveClient) (stale : Stale) : UInt64 :=
  match c.session with
  | some s => s.nextInboundSeq
  | none => stale.seq

/-- A login step does nothing while the session is Active, unless it brings a
password of its own. -/
def runLogin (c : LiveClient) (password session : Bytes) (sequence : UInt64) (stale : Stale) (dial : Dial) :
    LiveClient :=
  if c.readActive stale = true ∧ password = [] then c
  else (c.reconnectAndLogin password session sequence dial).2

/-- A switch step passes on the id and the number of the session it finds. -/
def runSwitchGateway (c : LiveClient) (tag : Bytes) (stale : Stale) (dial : Dial) : LiveClient :=
  (c.switchToSecondary (decide (tag = ascii "secondary" ∨ tag = ascii "yedek" ∨ tag = []))
    (c.readSession stale) (c.readSeq stale) dial).2

/-! ## Runs -/

/-- What happens in a live run. -/
inductive Op
  | reconnect (password session : Bytes) (sequence : UInt64) (dial : Dial)
  | login (password session : Bytes) (sequence : UInt64) (stale : Stale) (dial : Dial)
  | switchGateway (tag : Bytes) (stale : Stale) (dial : Dial)
  | hardDisconnect
  | session (op : OuchSession.Op)
  | flush

def step (c : LiveClient) : Op → LiveClient
  | .reconnect password session sequence dial => (c.reconnectAndLogin password session sequence dial).2
  | .login password session sequence stale dial => c.runLogin password session sequence stale dial
  | .switchGateway tag stale dial => c.runSwitchGateway tag stale dial
  | .hardDisconnect => c.hardDisconnect
  | .session op =>
    match c.session with
    | some s => c.settle (s.step op)
    | none => c
  | .flush =>
    match c.session with
    | some s => c.record (.flush s.assignedSession s.nextInboundSeq)
    | none => c

/-- The `[ouch]` section of the configuration, and the `--secondary` flag. -/
structure Config where
  username : Bytes
  password : Bytes
  session : Bytes := []
  sequence : UInt64 := 0
  hostPrimary : Bytes
  hostSecondary : Bytes := []
  startSecondary : Bool := false
  heartbeatMs : UInt32 := 800

/-- `run_live` up to the first login. A cursor that cannot be loaded is a cold start. -/
def boot (cfg : Config) (store : SequenceStore) (refused : Option String) (disk : Nat → Disk) : LiveClient :=
  let loaded := store.load refused
  let saved := match loaded.result with
    | .ok () => (loaded.session, loaded.seq)
    | .error _ => ([], 0)
  { hostPrimary := cfg.hostPrimary
    hostSecondary := cfg.hostSecondary
    onSecondary := cfg.startSecondary
    baseLp := {
      username := cfg.username
      password := cfg.password
      requestedSession := if cfg.session ≠ [] then cfg.session else saved.1
      requestedSequence := if cfg.sequence ≠ 0 then cfg.sequence else saved.2 }
    hbSendNs := cfg.heartbeatMs * 1000000
    store
    disk }

end LiveClient

end BistColo.App
