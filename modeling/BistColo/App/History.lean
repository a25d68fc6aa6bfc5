import BistColo.App.Live
import BistColo.Ouch.Cursor
/-!
# The history of a live run

The cursor of a live run, read off its log: the cursor of the session in the
slot, and the last one that belonged to a session that was Active. `Tracks`
says that the client follows its log; every operation keeps it
(`tracks_step`, `tracks_run`).
-/

open StreamKit

namespace BistColo.App

open Ouch

/-- A processed LoginAccepted. -/
def LiveEvent.isLogin : LiveEvent → Bool
  | .session (.login _ _) => true
  | .session _ | .started _ | .save _ _ | .flush _ _ => false

def LiveEvent.isStart : LiveEvent → Bool
  | .started _ => true
  | .session _ | .save _ _ | .flush _ _ => false

structure LiveCursor where
  cursor : Cursor := {}
  /-- id and number of the last session that was Active -/
  last : Option (Bytes × UInt64) := none
  /-- what the session in the slot asks for -/
  asked : Option (Bytes × UInt64) := none
deriving DecidableEq

namespace LiveCursor

def advance (l : LiveCursor) : LiveEvent → LiveCursor
  | .started lp => { l with cursor := {}, asked := some (lp.requestedSession, lp.requestedSequence) }
  | .session e =>
    let cursor := l.cursor.advance e
    { l with cursor, last := if cursor.loggedIn then some (cursor.session, cursor.seq) else l.last }
  | .save _ _ | .flush _ _ => l

/-- An entry is made with the cursor `l`. -/
def Agrees (l : LiveCursor) : LiveEvent → Prop
  | .session e => l.cursor.Agrees e
  | .save session seq | .flush session seq => session = l.cursor.session ∧ seq = l.cursor.seq
  | .started _ => True

/-- A session has an id once it logged in, and is then the last that was Active. -/
structure Sound (l : LiveCursor) : Prop where
  id : l.cursor.loggedIn = true ↔ l.cursor.session ≠ []
  last : l.cursor.loggedIn = true → l.last = some (l.cursor.session, l.cursor.seq)

theorem sound_advance {l : LiveCursor} (h : l.Sound) {e : LiveEvent} (he : l.Agrees e) : (l.advance e).Sound := by
  cases e with
  | started lp => exact ⟨by simp [advance], nofun⟩
  | save session seq => exact h
  | flush session seq => exact h
  | session e =>
    have hlast : ∀ c : Cursor, c.loggedIn = true →
        (if c.loggedIn then some (c.session, c.seq) else l.last) = some (c.session, c.seq) := fun c hc => if_pos hc
    cases e with
    | login session seq => exact ⟨⟨fun _ => he, fun _ => rfl⟩, hlast _⟩
    | ouch session seq => exact ⟨h.id, hlast _⟩
    | stateChange st detail => exact ⟨h.id, hlast _⟩
    | auditSent bytes => exact ⟨h.id, hlast _⟩
    | auditRecv bytes session seq => exact ⟨h.id, hlast _⟩
    | message m bytes => exact ⟨h.id, hlast _⟩
    | request packet => exact ⟨h.id, hlast _⟩
    | dispatch f payloadLen reads => exact ⟨h.id, hlast _⟩

/-- An entry that leaves the session's cursor alone leaves all alone. -/
theorem advance_same {l : LiveCursor} (h : l.Sound) {e : Event} (he : l.cursor.advance e = l.cursor) :
    l.advance (.session e) = l := by
  have hlast : (if l.cursor.loggedIn then some (l.cursor.session, l.cursor.seq) else l.last) = l.last := by
    split
    · exact (h.last ‹_›).symm
    · rfl
  simp only [advance, he, hlast]

theorem sound_run {l : LiveCursor} (h : l.Sound) {es : List LiveEvent} (hes : AllAlong advance Agrees l es) :
    (run advance l es).Sound :=
  run_inv Sound (fun _ _ h he => sound_advance h he) h hes

/-- The events of a session move the cursor as they move the session's. -/
theorem run_session (l : LiveCursor) (es : List Event) :
    (run advance l (es.map .session)).cursor = run Cursor.advance l.cursor es := by
  induction es generalizing l with
  | nil => rfl
  | cons e es ih => exact ih (l.advance (.session e))

theorem agrees_session {l : LiveCursor} {es : List Event} (h : AllAlong Cursor.advance Cursor.Agrees l.cursor es) :
    AllAlong advance Agrees l (es.map .session) := by
  induction es generalizing l with
  | nil => trivial
  | cons e es ih => exact ⟨h.1, ih (l := l.advance (.session e)) h.2⟩

end LiveCursor

namespace LiveClient

open LiveCursor (advance Agrees)

/-! ## Recording -/

def events (c : LiveClient) : List LiveEvent := c.log.map Moment.what

def cursor (c : LiveClient) : LiveCursor := run advance {} c.events

@[simp] theorem events_record (c : LiveClient) (e : LiveEvent) : (c.record e).events = c.events ++ [e] := by
  simp [events, record]

theorem events_recordAll (c : LiveClient) (es : List LiveEvent) : (c.recordAll es).events = c.events ++ es := by
  induction es generalizing c with
  | nil => simp [recordAll]
  | cons e es ih =>
    have hcons : c.recordAll (e :: es) = (c.record e).recordAll es := rfl
    rw [hcons, ih, events_record, List.append_assoc, List.singleton_append]

/-- What stays as it was set up: all but the slot, the side and the log, which
only grows. -/
structure Grows (c c' : LiveClient) : Prop where
  baseLp : c'.baseLp = c.baseLp
  store : c'.store = c.store
  log : c.log <+: c'.log

theorem Grows.refl (c : LiveClient) : Grows c c := ⟨rfl, rfl, List.prefix_rfl⟩

theorem Grows.trans {c c' c'' : LiveClient} (h : Grows c c') (h' : Grows c' c'') : Grows c c'' :=
  ⟨h'.baseLp.trans h.baseLp, h'.store.trans h.store, h.log.trans h'.log⟩

theorem grows_record (c : LiveClient) (e : LiveEvent) : Grows c (c.record e) := ⟨rfl, rfl, List.prefix_append ..⟩

theorem grows_recordAll (c : LiveClient) (es : List LiveEvent) : Grows c (c.recordAll es) := by
  induction es generalizing c with
  | nil => exact .refl c
  | cons e es ih => exact (grows_record c e).trans (ih (c.record e))

theorem grows_settle (c : LiveClient) (s : OuchSession) : Grows c (c.settle s) :=
  ⟨(grows_recordAll c _).baseLp, (grows_recordAll c _).store, (grows_recordAll c _).log⟩

theorem events_settle (c : LiveClient) (s : OuchSession) : (c.settle s).events = c.events ++ s.log.map .session :=
  events_recordAll ..

/-! ## Logging in -/

/-- A login attempt is a run of the session. -/
theorem awaitLogin_run (patience : Nat) (s : OuchSession) :
    ∃ ops, (awaitLogin patience s).2 = run OuchSession.step s ops := by
  induction patience generalizing s with
  | zero =>
    unfold awaitLogin
    split
    · split
      · exact ⟨[], rfl⟩
      · exact ⟨[], rfl⟩
    · refine ⟨[.pollIo], ?_⟩
      rw [run_cons, run_nil, OuchSession.step, OuchSession.exec]
      split
      · rename_i he
        rw [he]
      · rename_i he
        rw [he]
  | succ patience ih =>
    unfold awaitLogin
    split
    · split
      · exact ⟨[], rfl⟩
      · exact ⟨[], rfl⟩
    · have hpoll : run OuchSession.step s [.pollIo] = s.pollIo.2 := rfl
      split
      · rename_i he
        exact ⟨[.pollIo], by rw [hpoll, he]⟩
      -- the first poll is one operation, and the rest of the loop the others
      · rename_i s1 he
        obtain ⟨ops, hops⟩ := ih s1
        refine ⟨.pollIo :: ops, ?_⟩
        have hstep : s.step .pollIo = s1 := congrArg Prod.snd he
        rw [run_cons, hstep]
        exact hops

theorem driveLogin_run (patience : Nat) (s : OuchSession) :
    ∃ ops, (driveLogin patience s).2 = run OuchSession.step s ops := by
  unfold driveLogin
  split
  · rename_i he
    refine ⟨[.beginLogin], ?_⟩
    exact (congrArg Prod.snd he).symm
  · rename_i s1 he
    obtain ⟨ops, hops⟩ := awaitLogin_run patience s1
    have hstep : s.step .beginLogin = s1 := congrArg Prod.snd he
    refine ⟨.beginLogin :: ops, ?_⟩
    rw [run_cons, hstep]
    exact hops

/-- What a rebuild does: nothing but empty the slot, or start a session, let it
run, and save its cursor if it logged in. -/
theorem rebuild_cases (c : LiveClient) (password session : Bytes) (sequence : UInt64) (dial : Dial) :
    (∃ e, dial.socket = .error e ∧ (c.rebuild password session sequence dial).2 = { c with session := none }) ∨
      ∃ socket ops, dial.socket = .ok socket ∧
        let lp := loginParams c.baseLp password session sequence
        let s := run OuchSession.step (.create socket dial.clock lp c.hbSendNs) ops
        let started := ({ c with session := none } : LiveClient).record (.started lp)
        (c.rebuild password session sequence dial).2 = started.settle s ∨
          (c.rebuild password session sequence dial).2 =
            (started.settle s).record (.save s.assignedSession s.nextInboundSeq) := by
  unfold rebuild
  dsimp only
  split
  · exact .inl ⟨_, ‹_›, rfl⟩
  · rename_i socket hsocket
    obtain ⟨ops, hops⟩ := driveLogin_run dial.patience
      (.create socket dial.clock (loginParams c.baseLp password session sequence) c.hbSendNs)
    refine .inr ⟨socket, ops, hsocket, ?_⟩
    split
    · rename_i s he
      obtain rfl := (congrArg Prod.snd he).symm.trans hops
      exact .inl rfl
    · rename_i s he
      obtain rfl := (congrArg Prod.snd he).symm.trans hops
      exact .inr rfl

/-- The arguments of a rebuild. -/
structure Rebuild where
  password : Bytes
  session : Bytes
  sequence : UInt64
  dial : Dial

/-- The rebuild that an operation comes to, if it comes to one. -/
def rebuildOf (c : LiveClient) : Op → Option Rebuild
  | .reconnect password session sequence dial => some ⟨password, session, sequence, dial⟩
  | .login password session sequence stale dial =>
    if c.readActive stale = true ∧ password = [] then none else some ⟨password, session, sequence, dial⟩
  | .switchGateway tag stale dial =>
    let toSecondary := tag = ascii "secondary" ∨ tag = ascii "yedek" ∨ tag = []
    if (if toSecondary then c.hostSecondary else c.hostPrimary) = [] then none
    else some ⟨[], c.readSession stale, c.readSeq stale, dial⟩
  | .hardDisconnect | .session _ | .flush => none

/-- The three operations that log in. -/
def Op.logsIn : Op → Bool
  | .reconnect .. | .login .. | .switchGateway .. => true
  | .hardDisconnect | .session _ | .flush => false

/-- Without a rebuild they do nothing, up to the side the client is on. -/
theorem step_logsIn (c : LiveClient) {op : Op} (h : op.logsIn = true) :
    ∃ side, c.step op = match c.rebuildOf op with
      | none => { c with onSecondary := side }
      | some r => (({ c with onSecondary := side } : LiveClient).rebuild r.password r.session r.sequence r.dial).2 := by
  cases op with
  | reconnect password session sequence dial => exact ⟨c.onSecondary, rfl⟩
  | login password session sequence stale dial =>
    refine ⟨c.onSecondary, ?_⟩
    rw [step, runLogin, rebuildOf]
    split
    · rfl
    · rfl
  | switchGateway tag stale dial =>
    refine ⟨decide (tag = ascii "secondary" ∨ tag = ascii "yedek" ∨ tag = []), ?_⟩
    rw [step, runSwitchGateway, rebuildOf, switchToSecondary, activeHost]
    simp only [decide_eq_true_eq]
    split
    · split
      · rfl
      · rfl
    · split
      · rfl
      · rfl
  | hardDisconnect => cases h
  | session op => cases h
  | flush => cases h

/-! ## The invariant -/

/-- The client's log agrees with itself, and the session in the slot has the
cursor of the log. -/
structure Tracks (c : LiveClient) : Prop where
  agrees : AllAlong advance Agrees {} c.events
  slot : ∀ s, c.session = some s → s.log = [] ∧ c.cursor.cursor.Of s

theorem sound_cursor {c : LiveClient} (h : AllAlong advance Agrees {} c.events) : c.cursor.Sound := by
  refine LiveCursor.sound_run ⟨by decide, ?_⟩ h
  intro h
  cases h

theorem tracks_settle {c : LiveClient} (h : AllAlong advance Agrees {} c.events) {s : OuchSession}
    (hs : Cursor.Follows c.cursor.cursor s) : (c.settle s).Tracks := by
  constructor
  · rw [events_settle, allAlong_append]
    exact ⟨h, LiveCursor.agrees_session hs.agrees⟩
  · intro s' hs'
    cases hs'
    refine ⟨rfl, ?_⟩
    rw [cursor, events_settle, run_append, LiveCursor.run_session]
    exact ⟨hs.now.session, hs.now.seq, hs.now.active⟩

theorem tracks_record {c : LiveClient} (h : c.Tracks) {e : LiveEvent} (he : c.cursor.Agrees e)
    (hsame : c.cursor.advance e = c.cursor) : (c.record e).Tracks := by
  constructor
  · rw [events_record, allAlong_append]
    exact ⟨h.agrees, he, trivial⟩
  · intro s hs
    rw [cursor, events_record, run_append]
    obtain ⟨hlog, hof⟩ := h.slot s hs
    exact ⟨hlog, by rw [run_cons, run_nil, ← cursor, hsame]; exact hof⟩

/-- A session that just started, and ran. -/
theorem follows_create (socket : TcpSocket) (clock : Clock) (lp : LoginParams) (hbSendNs : UInt32)
    (ops : List OuchSession.Op) : Cursor.Follows {} (run OuchSession.step (.create socket clock lp hbSendNs) ops) := by
  refine Cursor.Follows.run ⟨allAlong_nil .., rfl, rfl, ?_⟩ ops
  intro h
  cases h

theorem tracks_rebuild {c : LiveClient} (h : AllAlong advance Agrees {} c.events) (password session : Bytes)
    (sequence : UInt64) (dial : Dial) : (c.rebuild password session sequence dial).2.Tracks := by
  rcases c.rebuild_cases password session sequence dial with ⟨e, -, he⟩ | ⟨socket, ops, -, he⟩
  · rw [he]
    exact ⟨h, nofun⟩
  · dsimp only at he
    generalize loginParams c.baseLp password session sequence = lp at he
    have hstarted : AllAlong advance Agrees {} (({ c with session := none } : LiveClient).record (.started lp)).events := by
      rw [events_record, allAlong_append]
      exact ⟨h, trivial, trivial⟩
    have hcursor : (({ c with session := none } : LiveClient).record (.started lp)).cursor.cursor = {} := by
      rw [cursor, events_record, run_append]
      rfl
    have hsettle := tracks_settle hstarted (hcursor ▸ follows_create socket dial.clock lp c.hbSendNs ops)
    rcases he with he | he
    · rw [he]
      exact hsettle
    · rw [he]
      refine tracks_record hsettle ?_ rfl
      obtain ⟨-, hof⟩ := hsettle.slot _ rfl
      exact ⟨hof.session, hof.seq⟩

theorem tracks_step {c : LiveClient} (h : c.Tracks) (op : Op) : (c.step op).Tracks := by
  by_cases hlogin : op.logsIn = true
  · obtain ⟨side, hstep⟩ := c.step_logsIn hlogin
    rw [hstep]
    split
    · exact ⟨h.agrees, h.slot⟩
    · exact tracks_rebuild (c := { c with onSecondary := side }) h.agrees ..
  cases op with
  | reconnect password session sequence dial => exact absurd rfl hlogin
  | login password session sequence stale dial => exact absurd rfl hlogin
  | switchGateway tag stale dial => exact absurd rfl hlogin
  | hardDisconnect => exact ⟨h.agrees, nofun⟩
  | session op =>
    rw [step]
    split
    · rename_i s hs
      obtain ⟨hlog, hof⟩ := h.slot s hs
      have hfollows : Cursor.Follows c.cursor.cursor s := ⟨by rw [hlog]; trivial, by rw [hlog]; exact hof⟩
      exact tracks_settle h.agrees (hfollows.run [op])
    · exact h
  | flush =>
    rw [step]
    split
    · rename_i s hs
      obtain ⟨-, hof⟩ := h.slot s hs
      exact tracks_record h ⟨hof.session, hof.seq⟩ rfl
    · exact h

theorem grows_rebuild (c : LiveClient) (password session : Bytes) (sequence : UInt64) (dial : Dial) :
    Grows c (c.rebuild password session sequence dial).2 := by
  rcases c.rebuild_cases password session sequence dial with ⟨e, -, he⟩ | ⟨socket, ops, -, he⟩
  · rw [he]
    exact ⟨rfl, rfl, List.prefix_rfl⟩
  · dsimp only at he
    have hstarted : Grows c (({ c with session := none } : LiveClient).record
        (.started (loginParams c.baseLp password session sequence))) := ⟨rfl, rfl, List.prefix_append ..⟩
    have hsettle := hstarted.trans (grows_settle _ (run OuchSession.step
      (.create socket dial.clock (loginParams c.baseLp password session sequence) c.hbSendNs) ops))
    rcases he with he | he
    · rw [he]
      exact hsettle
    · rw [he]
      exact hsettle.trans (grows_record ..)

theorem grows_step (c : LiveClient) (op : Op) : Grows c (c.step op) := by
  by_cases hlogin : op.logsIn = true
  · obtain ⟨side, hstep⟩ := c.step_logsIn hlogin
    have hside : Grows c { c with onSecondary := side } := ⟨rfl, rfl, List.prefix_rfl⟩
    rw [hstep]
    split
    · exact hside
    · exact hside.trans (grows_rebuild ..)
  cases op with
  | reconnect password session sequence dial => exact absurd rfl hlogin
  | login password session sequence stale dial => exact absurd rfl hlogin
  | switchGateway tag stale dial => exact absurd rfl hlogin
  | hardDisconnect => exact ⟨rfl, rfl, List.prefix_rfl⟩
  | session op =>
    rw [step]
    split
    · exact grows_settle ..
    · exact .refl c
  | flush =>
    rw [step]
    split
    · exact grows_record ..
    · exact .refl c

theorem grows_run (c : LiveClient) (ops : List Op) : Grows c (run step c ops) :=
  run_inv_all (Grows c) (fun c' op h => h.trans (grows_step c' op)) (.refl c)

theorem tracks_boot (cfg : Config) (store : Observability.SequenceStore) (refused : Option String)
    (disk : Nat → Observability.Disk) : (boot cfg store refused disk).Tracks := ⟨trivial, nofun⟩

theorem tracks_run {c : LiveClient} (h : c.Tracks) (ops : List Op) : (run step c ops).Tracks :=
  run_inv_all Tracks (fun _ op h => tracks_step h op) h

/-! ## Where sessions start -/

/-- No session starts in `es`. -/
def NoStart (es : List LiveEvent) : Prop := ∀ e ∈ es, e.isStart = false

theorem noStart_nil : NoStart [] := nofun

theorem noStart_session (es : List Event) : NoStart (es.map .session) := by
  intro e h
  obtain ⟨e, -, rfl⟩ := List.mem_map.1 h
  rfl

theorem NoStart.snoc {es : List LiveEvent} (h : NoStart es) {e : LiveEvent} (he : e.isStart = false) :
    NoStart (es ++ [e]) := by
  intro e' hm
  rcases List.mem_append.1 hm with hm | hm
  · exact h e' hm
  · rw [List.mem_singleton.1 hm]
    exact he

theorem events_rebuild (c : LiveClient) (password session : Bytes) (sequence : UInt64) (dial : Dial) :
    ((∀ socket, dial.socket ≠ .ok socket) ∧ (c.rebuild password session sequence dial).2.events = c.events) ∨
      ((∃ socket, dial.socket = .ok socket) ∧ ∃ es, NoStart es ∧
        (c.rebuild password session sequence dial).2.events =
          c.events ++ .started (loginParams c.baseLp password session sequence) :: es) := by
  rcases c.rebuild_cases password session sequence dial with ⟨e, hno, he⟩ | ⟨socket, ops, hyes, he⟩
  · rw [he, hno]
    exact .inl ⟨nofun, rfl⟩
  · dsimp only at he
    refine .inr ⟨⟨socket, hyes⟩, ?_⟩
    rcases he with he | he
    · rw [he, events_settle, events_record, List.append_assoc]
      exact ⟨_, noStart_session _, rfl⟩
    · rw [he, events_record, events_settle, events_record, List.append_assoc, List.append_assoc]
      exact ⟨_, (noStart_session _).snoc rfl, rfl⟩

/-- An operation that is no login starts no session. -/
theorem events_step (c : LiveClient) {op : Op} (h : op.logsIn = false) :
    ∃ es, NoStart es ∧ (c.step op).events = c.events ++ es := by
  cases op with
  | reconnect password session sequence dial => cases h
  | login password session sequence stale dial => cases h
  | switchGateway tag stale dial => cases h
  | hardDisconnect => exact ⟨[], noStart_nil, (List.append_nil _).symm⟩
  | session op =>
    rw [step]
    split
    · exact ⟨_, noStart_session _, events_settle ..⟩
    · exact ⟨[], noStart_nil, (List.append_nil _).symm⟩
  | flush =>
    rw [step]
    split
    · exact ⟨_, noStart_nil.snoc rfl, events_record ..⟩
    · exact ⟨[], noStart_nil, (List.append_nil _).symm⟩

/-! ## What an operation logs -/

def logged (c : LiveClient) (op : Op) : List Moment := (c.step op).log.drop c.log.length

theorem log_step (c : LiveClient) (op : Op) : (c.step op).log = c.log ++ c.logged op := by
  obtain ⟨tail, htail⟩ := (grows_step c op).log
  rw [logged, ← htail, List.drop_left]

/-- A login attempt logs nothing, or starts a session first. -/
theorem logged_logsIn (c : LiveClient) {op : Op} (h : op.logsIn = true) :
    c.logged op = [] ∨ ∃ lp es, (c.logged op).map Moment.what = .started lp :: es := by
  have hevents : (c.step op).events = c.events ++ (c.logged op).map Moment.what := by
    rw [events, log_step, List.map_append]
    rfl
  obtain ⟨side, hstep⟩ := c.step_logsIn h
  rw [hstep] at hevents
  split at hevents
  · left
    have hnil := List.append_cancel_left ((List.append_nil _).trans hevents)
    exact List.map_eq_nil_iff.1 hnil.symm
  · rename_i r _
    rcases events_rebuild { c with onSecondary := side } r.password r.session r.sequence r.dial with
      ⟨-, he⟩ | ⟨-, es, -, he⟩
    · left
      have hnil := List.append_cancel_left ((List.append_nil _).trans (he.symm.trans hevents))
      exact List.map_eq_nil_iff.1 hnil.symm
    · right
      exact ⟨_, _, (List.append_cancel_left (he.symm.trans hevents)).symm⟩

/-- The store now. -/
def stored (c : LiveClient) : Observability.SequenceStore := storeAt c.store c.log

/-! ## A run on the mock exchange -/

/-- One packet as one chunk. -/
def chunk (p : Soup.Packet) (h : p.encode.length ≤ 8192) : RecvAnswer :=
  .data ⟨p.encode, List.append_ne_nil_of_left_ne_nil (List.cons_ne_nil _ _) _, h⟩

/-- A connection that answers the login with `answer`, and then with `after`. -/
def dialing (answer : RecvAnswer) (after : List RecvAnswer) : Dial where
  socket := .ok { sends := [.accept 49], recvs := answer :: after }
  clock := { reading := fun i => UInt64.ofNat (1000000 * i) }
  patience := 10

/-- LoginAccepted for the session of the mock exchange. -/
def accepts (seq : UInt64) : Soup.Packet :=
  Soup.loginAccepted (Field.pad 32 10 (ascii "MOCKSESS01")) (Field.pad 48 20 (padded 20 seq))

theorem accepts_fits (seq : UInt64) : (accepts seq).encode.length ≤ 8192 := by
  simp [accepts, Soup.loginAccepted]

def accepted (seq : UInt64) : RecvAnswer := chunk (accepts seq) (accepts_fits seq)

/-- A sequenced OrderCanceled. -/
def canceledMessage : Soup.Packet := ⟨Soup.Pkt.sequencedData, 67 :: List.replicate 36 48, by decide⟩

theorem canceledMessage_fits : canceledMessage.encode.length ≤ 8192 := by decide

def coldStart : LiveClient :=
  boot { username := ascii "OUCH01", password := ascii "secret", hostPrimary := ascii "10.0.0.1" }
    { path := "state/preprod_oe_p1.seq" } none
    fun i => ⟨.ok, UInt64.ofNat (1000000 * i), UInt64.ofNat (1000000 * i + 1)⟩

end LiveClient

end BistColo.App
