import BistColo.Ouch.Inbound
/-!
# The cursor of a session

The cursor is the session id and the next number. `advance` reads it off the
log of a session: a login sets it, a packet handed to `dispatch_ouch` moves it
on. `Follows` says that the session holds the cursor of its log at the end,
and that every entry of the log that carries an id and a number carries the
cursor of its moment. `tally` counts the sequenced packets of the input after
the last login.
-/

open StreamKit

namespace BistColo.Ouch

open Soup

structure Cursor where
  session : Bytes := []
  seq : UInt64 := 0
  loggedIn : Bool := false
deriving DecidableEq

namespace Cursor

def advance (c : Cursor) : Event → Cursor
  | .login session seq => ⟨session, seq, true⟩
  | .ouch _ _ => { c with seq := c.seq + 1 }
  | .stateChange .. | .auditSent _ | .auditRecv .. | .message .. | .request _ | .dispatch .. => c

/-- An entry is made with the cursor `c`. A login assigns an id that is not empty. -/
def Agrees (c : Cursor) : Event → Prop
  | .auditRecv _ session seq | .ouch session seq => session = c.session ∧ seq = c.seq
  | .login session _ => session ≠ []
  | .stateChange .. | .auditSent _ | .message .. | .request _ | .dispatch .. => True

/-- `c` is the cursor of the session, and only a session that logged in is Active. -/
structure Of (c : Cursor) (s : OuchSession) : Prop where
  session : s.assignedSession = c.session
  seq : s.nextInboundSeq = c.seq
  active : s.state = .active → c.loggedIn = true

/-- An entry of the other side neither moves the cursor nor carries one. -/
theorem advance_outbound (c : Cursor) {e : Event} (h : e.isInbound = false) : c.advance e = c ∧ c.Agrees e := by
  cases e with
  | stateChange st detail => exact ⟨rfl, trivial⟩
  | auditSent bytes => exact ⟨rfl, trivial⟩
  | request packet => exact ⟨rfl, trivial⟩
  | auditRecv bytes session seq => cases h
  | message m bytes => cases h
  | dispatch f payloadLen reads => cases h
  | login session seq => cases h
  | ouch session seq => cases h

theorem outbound {es : List Event} (h : inbound es = []) (c : Cursor) :
    run advance c es = c ∧ AllAlong advance Agrees c es := by
  have hes := fun e he => advance_outbound c (isInbound_of_mem h e he)
  exact ⟨run_same fun e he => (hes e he).1, allAlong_same (fun e he => (hes e he).1) fun e he => (hes e he).2⟩

/-- The session and its log tell the same, if the log starts at `c`. -/
structure Follows (c : Cursor) (s : OuchSession) : Prop where
  agrees : AllAlong advance Agrees c s.log
  now : (run advance c s.log).Of s

variable {c : Cursor} {s s' : OuchSession}

theorem Follows.read {bytes : Bytes} (h : Follows c s) (hr : OuchSession.Read s s' bytes) : Follows c s' := by
  obtain ⟨es, hlog, hin⟩ := hr.log
  obtain ⟨hrun, hall⟩ := outbound hin (run advance c s.log)
  constructor
  · rw [hlog, allAlong_append]
    exact ⟨h.agrees, hall⟩
  · rw [hlog, run_append, hrun]
    exact ⟨hr.assignedSession.trans h.now.session, hr.nextInboundSeq.trans h.now.seq,
      fun ha => h.now.active (hr.active ha)⟩

theorem Follows.emit (h : Follows c s) {e : Event} (he : Agrees (run advance c s.log) e)
    (hsame : advance (run advance c s.log) e = run advance c s.log) : Follows c (s.emit e) := by
  have hlog : (s.emit e).log = s.log ++ [e] := rfl
  constructor
  · rw [hlog, allAlong_append]
    exact ⟨h.agrees, he, trivial⟩
  · rw [hlog, run_append, run_cons, run_nil, hsame]
    exact ⟨h.now.session, h.now.seq, h.now.active⟩

theorem Follows.announce (h : Follows c s) (hdr : Header) : Follows c (s.announce hdr) := by
  have haudit : Follows c (s.emit (.auditRecv (s.inBuffer.take hdr.packetSize) s.assignedSession s.nextInboundSeq)) := by
    apply h.emit
    · exact ⟨h.now.session, h.now.seq⟩
    · rfl
  exact haudit.emit trivial rfl

theorem Follows.acceptLogin (h : Follows c s) {session : Bytes} (hne : session ≠ []) (seq : UInt64) :
    Follows c (s.acceptLogin session seq) := by
  have hlog : (s.acceptLogin session seq).log =
      s.log ++ [.login session seq, .stateChange .active "LoginAccepted"] := List.append_assoc ..
  constructor
  · rw [hlog, allAlong_append]
    exact ⟨h.agrees, hne, trivial, trivial⟩
  · rw [hlog, run_append]
    exact ⟨rfl, rfl, fun _ => rfl⟩

theorem Follows.countSequenced (h : Follows c s) : Follows c s.countSequenced := by
  have hlog : s.countSequenced.log = s.log ++ [.ouch s.assignedSession s.nextInboundSeq] := rfl
  constructor
  · rw [hlog, allAlong_append]
    exact ⟨h.agrees, ⟨h.now.session, h.now.seq⟩, trivial⟩
  · rw [hlog, run_append]
    exact ⟨h.now.session, congrArg (· + 1) h.now.seq, h.now.active⟩

theorem Follows.dispatchPacket (h : Follows c s) (type : UInt8) (mem : Bytes) (payloadLen : UInt64) :
    Follows c (s.dispatchPacket type mem payloadLen).2 := by
  have hcount : Follows c s.countRecv := ⟨h.agrees, h.now.session, h.now.seq, h.now.active⟩
  rcases OuchSession.dispatchPacket_cases s type mem payloadLen with ⟨-, -, he⟩ | ⟨-, he⟩ | ⟨-, -, he⟩
  · rw [he]
    refine hcount.acceptLogin ?_ _
    exact List.ne_nil_of_length_eq_add_one (length_peek ..)
  · rw [he]
    rcases OuchSession.dispatchOuch_cases s.countRecv.countSequenced mem payloadLen with ⟨detail, ho⟩ | ⟨m, ho⟩
    · rw [ho]
      exact hcount.countSequenced
    · rw [ho]
      exact hcount.countSequenced.emit trivial rfl
  · obtain ⟨es, hlog, hin, -⟩ := he.log
    obtain ⟨hrun, hall⟩ := outbound hin (run advance c s.log)
    constructor
    · rw [hlog, allAlong_append]
      exact ⟨h.agrees, hall⟩
    · rw [hlog, run_append, hrun]
      exact ⟨he.assignedSession.trans h.now.session, he.nextInboundSeq.trans h.now.seq,
        fun ha => h.now.active (he.active ha)⟩

theorem Follows.takePacket (h : Follows c s) (hdr : Header) : Follows c (s.takePacket hdr).2 := by
  have hd := (h.announce hdr).dispatchPacket hdr.packetType (s.inBuffer.drop headerLen) hdr.payloadLen
  exact ⟨hd.agrees, hd.now.session, hd.now.seq, hd.now.active⟩

theorem Follows.run (h : Follows c s) (ops : List OuchSession.Op) : Follows c (StreamKit.run OuchSession.step s ops) :=
  OuchSession.inbound_run (fun _ _ _ hr h => h.read hr) (fun _ _ _ _ h => h.takePacket _) ops h

end Cursor

/-! ## Sequenced packets since the last login -/

structure Tally where
  session : Bytes
  first : UInt64
  count : Nat
deriving DecidableEq

namespace Tally

def advance (t : Option Tally) : Event → Option Tally
  | .login session seq => some ⟨session, seq, 0⟩
  | .dispatch f _ _ => if f.packetType = Pkt.sequencedData then t.map fun t => { t with count := t.count + 1 } else t
  | .stateChange .. | .auditSent _ | .auditRecv .. | .message .. | .request _ | .ouch .. => t

def tally (log : List Event) : Option Tally := run advance none log

theorem advance_outbound (t : Option Tally) {e : Event} (h : e.isInbound = false) : advance t e = t := by
  cases e with
  | stateChange st detail => rfl
  | auditSent bytes => rfl
  | request packet => rfl
  | auditRecv bytes session seq => cases h
  | message m bytes => cases h
  | dispatch f payloadLen reads => cases h
  | login session seq => cases h
  | ouch session seq => cases h

theorem outbound {es : List Event} (h : inbound es = []) (t : Option Tally) : run advance t es = t :=
  run_same fun e he => advance_outbound t (isInbound_of_mem h e he)

/-- The session's number is the first number of its last login and one more
for each sequenced packet since. -/
def Counts (s : OuchSession) : Prop :=
  ∀ t, tally s.log = some t → s.assignedSession = t.session ∧ s.nextInboundSeq = t.first + UInt64.ofNat t.count

theorem counts_read {s s' : OuchSession} {bytes : Bytes} (h : Counts s) (hr : OuchSession.Read s s' bytes) :
    Counts s' := by
  obtain ⟨es, hlog, hin⟩ := hr.log
  intro t ht
  rw [tally, hlog, run_append, outbound hin] at ht
  rw [hr.assignedSession, hr.nextInboundSeq]
  exact h t ht

/-- Announcing a packet counts it if it is sequenced. -/
theorem tally_announce (s : OuchSession) (hdr : Header) :
    tally (s.announce hdr).log =
      if hdr.packetType = Pkt.sequencedData then (tally s.log).map fun t => { t with count := t.count + 1 }
      else tally s.log := by
  simp only [OuchSession.announce, OuchSession.emit, tally, run_append, run_cons, run_nil]
  rfl

/-- Decoding a sequenced packet neither counts it again nor moves the cursor:
`countSequenced` did before. -/
theorem counted_dispatchOuch (s : OuchSession) (mem : Bytes) (payloadLen : UInt64) :
    let s' := (s.countRecv.countSequenced.dispatchOuch mem payloadLen).2
    tally s'.log = tally s.log ∧ s'.assignedSession = s.assignedSession ∧
      s'.nextInboundSeq = s.nextInboundSeq + 1 := by
  intro s'
  have hcount : tally s.countRecv.countSequenced.log = tally s.log := by
    simp only [OuchSession.countSequenced, OuchSession.emit, tally, run_append, run_cons, run_nil, advance]
    rfl
  rcases OuchSession.dispatchOuch_cases s.countRecv.countSequenced mem payloadLen with ⟨detail, h⟩ | ⟨m, h⟩
  · simp only [s', h]
    exact ⟨hcount, rfl, rfl⟩
  · simp only [s', h]
    refine ⟨?_, rfl, rfl⟩
    rw [OuchSession.emit, tally, run_append]
    exact hcount

theorem counts_takePacket {s : OuchSession} (h : Counts s) (hdr : Header) : Counts (s.takePacket hdr).2 := by
  intro t ht
  have hann := tally_announce s hdr
  unfold OuchSession.takePacket at ht ⊢
  dsimp only [OuchSession.erase] at ht ⊢
  rcases OuchSession.dispatchPacket_cases (s.announce hdr) hdr.packetType (s.inBuffer.drop headerLen) hdr.payloadLen with
    ⟨-, -, he⟩ | ⟨htype, he⟩ | ⟨htype, -, he⟩
  · -- a login starts a new tally
    rw [he] at ht ⊢
    simp only [tally, OuchSession.acceptLogin, OuchSession.setState, OuchSession.emit, run_append, run_cons, run_nil,
      advance, Option.some.injEq] at ht ⊢
    subst ht
    exact ⟨rfl, (UInt64.add_zero _).symm⟩
  · -- the tally and the number both go up by one
    obtain ⟨hlog, hsession, hseq⟩ := counted_dispatchOuch (s.announce hdr) (s.inBuffer.drop headerLen) hdr.payloadLen
    rw [he] at ht ⊢
    rw [hlog, hann, if_pos htype, Option.map_eq_some_iff] at ht
    obtain ⟨t, ht, rfl⟩ := ht
    obtain ⟨h1, h2⟩ := h t ht
    refine ⟨hsession.trans h1, ?_⟩
    calc _ = s.nextInboundSeq + 1 := hseq
      _ = t.first + (UInt64.ofNat t.count + 1) := by rw [h2, UInt64.add_assoc]
      _ = t.first + UInt64.ofNat (t.count + 1) := congrArg _ (UInt64.ofNat_add _ _).symm
  · rw [if_neg htype] at hann
    obtain ⟨es, hlog, hin, -⟩ := he.log
    rw [tally, hlog, run_append, outbound hin, ← tally, hann] at ht
    rw [he.assignedSession, he.nextInboundSeq]
    exact h t ht

theorem counts_run {s : OuchSession} (h : Counts s) (ops : List OuchSession.Op) :
    Counts (run OuchSession.step s ops) :=
  OuchSession.inbound_run (fun _ _ _ hr h => counts_read h hr) (fun _ _ _ _ h => counts_takePacket h _) ops h

/-- The sequenced packets among those given to `dispatch_packet`. -/
def sequenced (log : List Event) : Nat :=
  (dispatched log).countP fun p => p.1.packetType = Pkt.sequencedData

theorem sequenced_cons (e : Event) (es : List Event) : sequenced (e :: es) = sequenced [e] + sequenced es := by
  rw [← List.singleton_append, sequenced, dispatched_append, List.countP_append]
  rfl

/-- An entry other than a login adds what it hands to `dispatch_packet`. -/
theorem advance_sequenced (t : Tally) {e : Event} (h : ∀ session seq, e ≠ .login session seq) :
    advance (some t) e = some { t with count := t.count + sequenced [e] } := by
  cases e with
  | login session seq => exact absurd rfl (h session seq)
  | dispatch f payloadLen reads =>
    by_cases hf : f.packetType = Pkt.sequencedData
    · simp [advance, sequenced, dispatched, dispatchCalls, hf]
    · simp [advance, sequenced, dispatched, dispatchCalls, hf]
  | stateChange st detail => rfl
  | auditSent bytes => rfl
  | auditRecv bytes session seq => rfl
  | message m bytes => rfl
  | request packet => rfl
  | ouch session seq => rfl

theorem run_sequenced (t : Tally) {es : List Event} (h : ∀ session seq, Event.login session seq ∉ es) :
    run advance (some t) es = some { t with count := t.count + sequenced es } := by
  induction es generalizing t with
  | nil => rfl
  | cons e es ih =>
    have he : ∀ session seq, e ≠ .login session seq := fun session seq hc => h session seq (hc ▸ List.mem_cons_self)
    have hes : ∀ session seq, Event.login session seq ∉ es :=
      fun session seq hm => h session seq (List.mem_cons_of_mem e hm)
    rw [run_cons, advance_sequenced t he, ih _ hes, sequenced_cons e es, ← Nat.add_assoc]

/-- What the tally is after a login without another one behind it. -/
theorem tally_after {pre post : List Event} {session : Bytes} {seq : UInt64}
    (h : ∀ session' seq', Event.login session' seq' ∉ post) :
    tally (pre ++ .login session seq :: post) = some ⟨session, seq, sequenced post⟩ := by
  rw [tally, run_append, run_cons]
  exact (run_sequenced ⟨session, seq, 0⟩ h).trans (by rw [Nat.zero_add])

end Tally

/-- The cursor counts exactly: after a login with number `n0`, whatever else
comes in, the next number is `n0` and one more for each sequenced packet. -/
theorem OuchSession.next_number {s : OuchSession} (hlog : s.log = []) (ops : List OuchSession.Op)
    {pre post : List Event} {session : Bytes} {n0 : UInt64}
    (h : (run OuchSession.step s ops).log = pre ++ .login session n0 :: post)
    (hlast : ∀ session' seq', Event.login session' seq' ∉ post) :
    (run OuchSession.step s ops).assignedSession = session ∧
      (run OuchSession.step s ops).nextInboundSeq = n0 + UInt64.ofNat (Tally.sequenced post) := by
  have h0 : Tally.Counts s := by
    intro t ht
    rw [hlog] at ht
    cases ht
  exact Tally.counts_run h0 ops _ (h ▸ Tally.tally_after hlast)

end BistColo.Ouch
