import BistColo.App.Live
/-!
# The session reference of the runner

The scenario runner holds a reference into the slot where a transport control
keeps its session, and the interface (`runner/transport.hpp`) promises that the
reference is valid after every call. Both controls of `apps/bist_colo.cpp`
empty the slot before they connect and turn to the other target before they
know that it answers. `reference_valid_iff` says which sequences of calls leave
a session in the slot and, when they fail, the target alone;
`refused_switch_dangles` is a connection that is refused.
-/

open StreamKit

namespace BistColo.App

open Ouch

/-- `MockTransportControl`. -/
structure MockTransport where
  portPrimary : UInt16
  portSecondary : UInt16
  onSecondary : Bool := false
  baseLp : LoginParams
  session : Option OuchSession := none

namespace MockTransport

open LiveClient (Dial loginParams driveLogin)

def activePort (t : MockTransport) : UInt16 := if t.onSecondary then t.portSecondary else t.portPrimary

def rebuild (t : MockTransport) (password session : Bytes) (sequence : UInt64) (dial : Dial) :
    Result Unit × MockTransport :=
  let t := { t with session := none }
  match dial.socket with
  | .error e => (.error e, t)
  | .ok socket =>
    let lp := loginParams t.baseLp password session sequence
    let r := driveLogin dial.patience (.create socket dial.clock lp Soup.heartbeatSendNs)
    (r.1, { t with session := some r.2 })

def reconnectAndLogin (t : MockTransport) (password session : Bytes) (sequence : UInt64) (dial : Dial) :
    Result Unit × MockTransport :=
  t.rebuild password session sequence dial

def switchToSecondary (t : MockTransport) (secondary : Bool) (session : Bytes) (sequence : UInt64) (dial : Dial) :
    Result Unit × MockTransport :=
  let t := { t with onSecondary := secondary }
  if t.activePort = 0 then (.error (makeError .validation "mock transport: no secondary port configured"), t)
  else t.rebuild [] session sequence dial

end MockTransport

/-! ## Logging in -/

/-- The session becomes Active, and before that is polled at most `n` times without an error. -/
inductive Welcome : Nat → OuchSession → Prop
  | active {n : Nat} {s : OuchSession} (h : s.state = .active) : Welcome n s
  | polled {n : Nat} {s s' : OuchSession} (h : s.state = .loggingIn) (hpoll : s.pollIo = (.ok (), s'))
      (hrest : Welcome n s') : Welcome (n + 1) s

theorem welcome_out {n : Nat} {s : OuchSession} (h : s.state ≠ .loggingIn) : Welcome n s ↔ s.state = .active := by
  constructor
  · rintro (hactive | ⟨hin, -, -⟩)
    · exact hactive
    · exact absurd hin h
  · exact .active

theorem not_welcome_zero {s : OuchSession} (h : s.state = .loggingIn) : ¬ Welcome 0 s := by
  rintro (hactive | _)
  rw [h] at hactive
  cases hactive

theorem welcome_succ {n : Nat} {s : OuchSession} (h : s.state = .loggingIn) :
    Welcome (n + 1) s ↔ ∃ s', s.pollIo = (.ok (), s') ∧ Welcome n s' := by
  constructor
  · rintro (hactive | ⟨-, hpoll, hrest⟩)
    · rw [h] at hactive
      cases hactive
    · exact ⟨_, hpoll, hrest⟩
  · rintro ⟨s', hpoll, hrest⟩
    exact .polled h hpoll hrest

namespace LiveClient

/-- A session that is not logging in (any more) is judged without a poll. -/
theorem awaitLogin_out (n : Nat) {s : OuchSession} (h : s.state ≠ .loggingIn) :
    (awaitLogin n s).1 = .ok () ↔ s.state = .active := by
  unfold awaitLogin
  rw [if_pos h]
  split
  · rename_i hno
    exact iff_of_false nofun hno
  · rename_i hactive
    exact iff_of_true rfl (not_not.1 hactive)

theorem awaitLogin_ok (n : Nat) (s : OuchSession) : (awaitLogin n s).1 = .ok () ↔ Welcome n s := by
  induction n generalizing s with
  | zero =>
    by_cases hin : s.state = .loggingIn
    · refine iff_of_false ?_ (not_welcome_zero hin)
      unfold awaitLogin
      rw [if_neg (not_not_intro hin)]
      split <;> nofun
    · rw [awaitLogin_out 0 hin, welcome_out hin]
  | succ n ih =>
    by_cases hin : s.state = .loggingIn
    · rw [welcome_succ hin]
      unfold awaitLogin
      rw [if_neg (not_not_intro hin)]
      split
      · rename_i e s' hpoll
        simp [hpoll]
      · rename_i s' hpoll
        simp [hpoll, ih s']
    · rw [awaitLogin_out (n + 1) hin, welcome_out hin]

theorem driveLogin_ok (n : Nat) (s : OuchSession) :
    (driveLogin n s).1 = .ok () ↔ ∃ s', s.beginLogin = (.ok (), s') ∧ Welcome n s' := by
  unfold driveLogin
  split
  · rename_i e s' hbegin
    simp [hbegin]
  · rename_i s' hbegin
    simp [hbegin, awaitLogin_ok]

end LiveClient

/-! ## The interface -/

/-- `ITransportControl`: one of the two controls. -/
inductive TransportControl
  | mock (t : MockTransport)
  | live (c : LiveClient)

namespace TransportControl

open LiveClient (Dial loginParams driveLogin driveLogin_ok)

inductive Call
  | reconnectAndLogin (password session : Bytes) (sequence : UInt64) (dial : Dial)
  | switchToSecondary (secondary : Bool) (session : Bytes) (sequence : UInt64) (dial : Dial)

def call : TransportControl → Call → Result Unit × TransportControl
  | .mock t, .reconnectAndLogin password session sequence dial =>
    (t.reconnectAndLogin password session sequence dial).map id .mock
  | .mock t, .switchToSecondary secondary session sequence dial =>
    (t.switchToSecondary secondary session sequence dial).map id .mock
  | .live c, .reconnectAndLogin password session sequence dial =>
    (c.reconnectAndLogin password session sequence dial).map id .live
  | .live c, .switchToSecondary secondary session sequence dial =>
    (c.switchToSecondary secondary session sequence dial).map id .live

def step (t : TransportControl) (call : Call) : TransportControl := (t.call call).2

/-- The session slot. -/
def session : TransportControl → Option OuchSession
  | .mock t => t.session
  | .live c => c.session

def onSecondary : TransportControl → Bool
  | .mock t => t.onSecondary
  | .live c => c.onSecondary

/-- The control with the other target, before anything else is done. -/
def pointAt (secondary : Bool) : TransportControl → TransportControl
  | .mock t => .mock { t with onSecondary := secondary }
  | .live c => .live { c with onSecondary := secondary }

/-- The active target has no address. -/
def Unset : TransportControl → Prop
  | .mock t => t.activePort = 0
  | .live c => c.activeHost = []

instance : DecidablePred Unset
  | .mock t => inferInstanceAs (Decidable (t.activePort = 0))
  | .live c => inferInstanceAs (Decidable (c.activeHost = []))

/-- The session that a rebuild starts on `socket`. -/
def fresh (t : TransportControl) (password session : Bytes) (sequence : UInt64) (socket : TcpSocket) (clock : Clock) :
    OuchSession :=
  match t with
  | .mock t => .create socket clock (loginParams t.baseLp password session sequence) Soup.heartbeatSendNs
  | .live c => .create socket clock (loginParams c.baseLp password session sequence) c.hbSendNs

/-! ## The property -/

/-- After the call there is a session behind the reference, and a call that fails leaves the target alone. -/
structure Valid (t : TransportControl) (call : Call) : Prop where
  held : (t.step call).session.isSome
  target : ∀ e, (t.call call).1 = .error e → (t.step call).onSecondary = t.onSecondary

def Connects (dial : Dial) : Prop := ∃ socket, dial.socket = .ok socket

/-- The connection is made, and on it the gateway lets the session in. -/
def LogsIn (t : TransportControl) (password session : Bytes) (sequence : UInt64) (dial : Dial) : Prop :=
  ∃ socket s, dial.socket = .ok socket ∧
    (t.fresh password session sequence socket dial.clock).beginLogin = (.ok (), s) ∧ Welcome dial.patience s

/-- A reconnect must connect. A switch to the other target must be let in there;
a switch to the same target must connect, or find no address and a session in the slot. -/
def Safe (t : TransportControl) : Call → Prop
  | .reconnectAndLogin _ _ _ dial => Connects dial
  | .switchToSecondary secondary session sequence dial =>
    if (t.pointAt secondary).Unset then t.session.isSome ∧ secondary = t.onSecondary
    else Connects dial ∧ (secondary = t.onSecondary ∨ t.LogsIn [] session sequence dial)

/-! ## One call -/

/-- What a rebuild leaves behind. -/
structure Rebuilt (t : TransportControl) (password session : Bytes) (sequence : UInt64) (dial : Dial)
    (r : Result Unit × TransportControl) : Prop where
  held : r.2.session.isSome ↔ Connects dial
  target : r.2.onSecondary = t.onSecondary
  ok : r.1 = .ok () ↔ t.LogsIn password session sequence dial

theorem rebuilt_mock (t : MockTransport) (password session : Bytes) (sequence : UInt64) (dial : Dial) :
    Rebuilt (.mock t) password session sequence dial ((t.rebuild password session sequence dial).map id .mock) := by
  unfold MockTransport.rebuild
  cases hsocket : dial.socket with
  | error e =>
    constructor
    · simp [TransportControl.session, Connects, hsocket]
    · rfl
    · simp [LogsIn, hsocket]
  | ok socket =>
    constructor
    · simp [TransportControl.session, Connects, hsocket]
    · rfl
    · simp [LogsIn, hsocket, driveLogin_ok, fresh]

theorem recordAll_onSecondary (c : LiveClient) (es : List LiveEvent) :
    (c.recordAll es).onSecondary = c.onSecondary := by
  induction es generalizing c with
  | nil => rfl
  | cons e es ih => exact ih (c.record e)

theorem settle_onSecondary (c : LiveClient) (s : OuchSession) : (c.settle s).onSecondary = c.onSecondary :=
  recordAll_onSecondary c _

theorem rebuilt_live (c : LiveClient) (password session : Bytes) (sequence : UInt64) (dial : Dial) :
    Rebuilt (.live c) password session sequence dial ((c.rebuild password session sequence dial).map id .live) := by
  unfold LiveClient.rebuild
  cases hsocket : dial.socket with
  | error e =>
    constructor
    · simp [TransportControl.session, Connects, hsocket]
    · rfl
    · simp [LogsIn, hsocket]
  | ok socket =>
    have hlogin : ∀ result s,
        driveLogin dial.patience ((live c).fresh password session sequence socket dial.clock) = (result, s) →
        (result = .ok () ↔ (live c).LogsIn password session sequence dial) := by
      intro result s hdrive
      have hok : (driveLogin dial.patience ((live c).fresh password session sequence socket dial.clock)).1 = .ok () ↔
          (live c).LogsIn password session sequence dial := by
        simp [LogsIn, hsocket, driveLogin_ok]
      rwa [hdrive] at hok
    have hconnects : Connects dial := ⟨socket, hsocket⟩
    dsimp only
    split
    · rename_i s hdrive
      exact ⟨iff_of_true rfl hconnects, settle_onSecondary _ s, hlogin _ s hdrive⟩
    · rename_i s hdrive
      exact ⟨iff_of_true rfl hconnects, settle_onSecondary _ s, hlogin _ s hdrive⟩

theorem call_reconnect (t : TransportControl) (password session : Bytes) (sequence : UInt64) (dial : Dial) :
    Rebuilt t password session sequence dial (t.call (.reconnectAndLogin password session sequence dial)) := by
  cases t with
  | mock t => exact rebuilt_mock t password session sequence dial
  | live c => exact rebuilt_live c password session sequence dial

/-- A switch to a target without an address only turns to it. -/
theorem call_switch_unset {t : TransportControl} {secondary : Bool} (h : (t.pointAt secondary).Unset)
    (session : Bytes) (sequence : UInt64) (dial : Dial) :
    ∃ e, t.call (.switchToSecondary secondary session sequence dial) = (.error e, t.pointAt secondary) := by
  cases t with
  | mock t =>
    change ({ t with onSecondary := secondary } : MockTransport).activePort = 0 at h
    rw [call, MockTransport.switchToSecondary, if_pos h]
    exact ⟨_, rfl⟩
  | live c =>
    change ({ c with onSecondary := secondary } : LiveClient).activeHost = [] at h
    rw [call, LiveClient.switchToSecondary, if_pos h]
    exact ⟨_, rfl⟩

theorem call_switch {t : TransportControl} {secondary : Bool} (h : ¬ (t.pointAt secondary).Unset)
    (session : Bytes) (sequence : UInt64) (dial : Dial) :
    Rebuilt (t.pointAt secondary) [] session sequence dial
      (t.call (.switchToSecondary secondary session sequence dial)) := by
  cases t with
  | mock t =>
    change ¬ ({ t with onSecondary := secondary } : MockTransport).activePort = 0 at h
    rw [call, MockTransport.switchToSecondary, if_neg h]
    exact rebuilt_mock _ [] session sequence dial
  | live c =>
    change ¬ ({ c with onSecondary := secondary } : LiveClient).activeHost = [] at h
    rw [call, LiveClient.switchToSecondary, if_neg h]
    exact rebuilt_live _ [] session sequence dial

@[simp] theorem pointAt_session (t : TransportControl) (secondary : Bool) : (t.pointAt secondary).session = t.session := by
  cases t <;> rfl

@[simp] theorem pointAt_onSecondary (t : TransportControl) (secondary : Bool) :
    (t.pointAt secondary).onSecondary = secondary := by
  cases t <;> rfl

/-- Which target a control is turned to makes no difference to what it sends. -/
theorem logsIn_pointAt (t : TransportControl) (secondary : Bool) (password session : Bytes) (sequence : UInt64)
    (dial : Dial) :
    (t.pointAt secondary).LogsIn password session sequence dial ↔ t.LogsIn password session sequence dial := by
  cases t <;> exact Iff.rfl

theorem valid_iff (t : TransportControl) (call : Call) : t.Valid call ↔ t.Safe call := by
  have hvalid : t.Valid call ↔ (t.step call).session.isSome ∧
      ∀ e, (t.call call).1 = .error e → (t.step call).onSecondary = t.onSecondary :=
    ⟨fun h => ⟨h.held, h.target⟩, fun h => ⟨h.1, h.2⟩⟩
  rw [hvalid, step]
  cases call with
  | reconnectAndLogin password session sequence dial =>
    have hr := t.call_reconnect password session sequence dial
    rw [hr.held, hr.target]
    exact and_iff_left fun _ _ => rfl
  | switchToSecondary secondary session sequence dial =>
    rw [Safe]
    by_cases hunset : (t.pointAt secondary).Unset
    · rw [if_pos hunset]
      obtain ⟨e, he⟩ := call_switch_unset hunset session sequence dial
      rw [he, pointAt_session, pointAt_onSecondary]
      refine and_congr Iff.rfl ?_
      constructor
      · intro h
        exact h e rfl
      · intro h _ _
        exact h
    · rw [if_neg hunset]
      have hr := call_switch hunset session sequence dial
      have hok := hr.ok.trans (t.logsIn_pointAt secondary [] session sequence dial)
      rw [hr.held, hr.target, pointAt_onSecondary, ← hok]
      refine and_congr Iff.rfl ?_
      -- a call that fails is one that is not let in
      cases (t.call (.switchToSecondary secondary session sequence dial)).1 with
      | ok u => simp
      | error e => simp

/-! ## Sequences of calls -/

/-- In every sequence of calls, the reference is valid after each of them, and
the target kept by those that fail, if and only if each call is safe. -/
theorem reference_valid_iff (t : TransportControl) (calls : List Call) :
    AllAlong step Valid t calls ↔ AllAlong step Safe t calls := by
  have heq : Valid = Safe := by
    funext t call
    exact propext (t.valid_iff call)
  rw [heq]

/-- The gateway does not take the connection. -/
def refused : Dial :=
  ⟨.error (makeError .io "connect failed: Connection refused"), { reading := fun _ => 0 }, 0⟩

def testParams : LoginParams := { username := ascii "TEST01", password := ascii "123456" }

/-- A control on the primary port, with a session in its slot. -/
def connected : TransportControl :=
  .mock {
    portPrimary := 1
    portSecondary := 2
    baseLp := testParams
    session := some (.create {} { reading := fun _ => 0 } testParams Soup.heartbeatSendNs) }

/-- A switch whose connection is refused leaves no session, and the other target. -/
theorem refused_switch_dangles :
    ¬ ∀ (t : TransportControl) (calls : List Call), t.session.isSome → AllAlong step Valid t calls := by
  intro h
  have hheld := (h connected [.switchToSecondary true [] 0 refused] rfl).1.held
  cases hheld

end TransportControl

end BistColo.App
