import BistColo.Ouch.Inbound
/-!
# The states of a session

`Monitor` reads the state of a session off its log, and the state in which the
LoginAccepted arrived that is being processed. A session may become Active only
while it processes one that arrived in LoggingIn (`Own`). `active_by_own_login_iff`
says when that is so and a session that was closed stays closed until
`begin_login`: exactly when every complete LoginAccepted arrives in LoggingIn or
Active. The dispatcher does not look, so `late_acceptance_revives` reopens a
session that has logged out.
-/

open StreamKit

namespace BistColo.Ouch

open Soup

/-- The state so far, and the one in which the LoginAccepted being processed arrived. -/
structure Monitor where
  state : SessionState := .disconnected
  arrived : Option SessionState := none
deriving DecidableEq

namespace Monitor

/-- Before the first entry. -/
def start : Monitor := {}

def advance (m : Monitor) : Event → Monitor
  | .stateChange st _ => ⟨st, none⟩
  | .dispatch f _ _ => { m with arrived := if f.packetType = Pkt.loginAccepted then some m.state else none }
  | .auditSent _ | .auditRecv .. | .message .. | .request _ | .login .. | .ouch .. => m

/-- Becoming Active is the answer to a login of the session itself. -/
def Own (m : Monitor) : Event → Prop
  | .stateChange .active _ => m.state ≠ .active → m.arrived = some .loggingIn
  | _ => True

/-- A complete LoginAccepted arrives in LoggingIn or Active. -/
def InTime (m : Monitor) : Event → Prop
  | .dispatch f payloadLen _ => f.packetType = Pkt.loginAccepted → UInt64.ofNat (sessionLen + sequenceLen) ≤ payloadLen →
      m.state = .loggingIn ∨ m.state = .active
  | _ => True

instance (m : Monitor) (e : Event) : Decidable (Own m e) := by
  unfold Own
  split <;> infer_instance

instance (m : Monitor) (e : Event) : Decidable (InTime m e) := by
  unfold InTime
  split <;> infer_instance

/-- Entries that take the state from `st` to `st'`, and for which being in time
and becoming Active by its own login are the same. -/
structure Takes (st : SessionState) (es : List Event) (st' : SessionState) : Prop where
  state : ∀ m : Monitor, m.state = st → (run advance m es).state = st'
  own_iff : ∀ m : Monitor, m.state = st → (AllAlong advance Own m es ↔ AllAlong advance InTime m es)

theorem Takes.nil (st : SessionState) : Takes st [] st := ⟨fun _ h => h, fun _ _ => Iff.rfl⟩

theorem Takes.append {st st' st'' : SessionState} {es es' : List Event} (h : Takes st es st') (h' : Takes st' es' st'') :
    Takes st (es ++ es') st'' := by
  constructor
  · intro m hm
    rw [run_append]
    exact h'.state _ (h.state m hm)
  · intro m hm
    rw [allAlong_append, allAlong_append]
    exact and_congr (h.own_iff m hm) (h'.own_iff _ (h.state m hm))

/-- Neither a change of state nor a dispatch. -/
def silent : Event → Bool
  | .stateChange .. | .dispatch .. => false
  | .auditSent _ | .auditRecv .. | .message .. | .request _ | .login .. | .ouch .. => true

theorem Takes.silent (st : SessionState) {e : Event} (h : silent e = true) : Takes st [e] st := by
  have hadvance : ∀ m, advance m e = m := by
    intro m
    cases e with
    | stateChange st' detail => cases h
    | dispatch f payloadLen reads => cases h
    | _ => rfl
  have hown : ∀ m, Own m e ∧ InTime m e := by
    intro m
    cases e with
    | stateChange st' detail => cases h
    | dispatch f payloadLen reads => cases h
    | _ => exact ⟨trivial, trivial⟩
  constructor
  · intro m hm
    rw [run_cons, run_nil, hadvance]
    exact hm
  · intro m _
    simp [hown m]

theorem Takes.stateChange (st : SessionState) {st' : SessionState} (detail : String) (h : st' ≠ .active) :
    Takes st [.stateChange st' detail] st' := by
  constructor
  · intro m _
    rfl
  · intro m _
    cases st' with
    | active => exact absurd rfl h
    | _ => exact Iff.rfl

/-- A packet that does not log in. -/
theorem Takes.dispatch (st : SessionState) {f : Frame} {payloadLen : UInt64} (reads : List (Nat × Nat))
    (h : f.packetType = Pkt.loginAccepted → payloadLen < UInt64.ofNat (sessionLen + sequenceLen)) :
    Takes st [.dispatch f payloadLen reads] st := by
  constructor
  · intro m hm
    exact hm
  · intro m _
    refine iff_of_true ⟨trivial, trivial⟩ ⟨?_, trivial⟩
    intro hf hlen
    exact absurd (h hf) (UInt64.not_lt.2 hlen)

/-- A packet that logs in makes the session Active; that is its own login
exactly when the packet is in time. -/
theorem Takes.accept (st : SessionState) {f : Frame} {payloadLen : UInt64} (reads : List (Nat × Nat)) (session : Bytes)
    (seq : UInt64) (hf : f.packetType = Pkt.loginAccepted)
    (hlen : UInt64.ofNat (sessionLen + sequenceLen) ≤ payloadLen) :
    Takes st [.dispatch f payloadLen reads, .login session seq, .stateChange .active "LoginAccepted"] .active := by
  constructor
  · intro m _
    rfl
  · intro m hm
    simp only [allAlong_cons, allAlong_nil, Own, InTime, advance, hf, hlen, if_true, true_and, and_true, true_imp_iff]
    cases m.state <;> simp

end Monitor

namespace OuchSession

open Monitor

/-! ## What each function adds to the log -/

/-- `s'` comes from `s` without a `begin_login`, and its log tells how its state changed. -/
structure Evolves (s s' : OuchSession) : Prop where
  log : ∃ es, s'.log = s.log ++ es ∧ Takes s.state es s'.state ∧ ∀ detail, .stateChange .loggingIn detail ∉ es

theorem Evolves.same {s s' : OuchSession} (hlog : s'.log = s.log) (hst : s'.state = s.state) : Evolves s s' :=
  ⟨[], by rw [hlog, List.append_nil], hst ▸ .nil s.state, fun _ => List.not_mem_nil⟩

theorem Evolves.refl (s : OuchSession) : Evolves s s := .same rfl rfl

theorem Evolves.trans {s s' s'' : OuchSession} (h : Evolves s s') (h' : Evolves s' s'') : Evolves s s'' := by
  obtain ⟨es, hlog, ht, hn⟩ := h.log
  obtain ⟨es', hlog', ht', hn'⟩ := h'.log
  refine ⟨es ++ es', ?_, ht.append ht', ?_⟩
  · rw [hlog', hlog, List.append_assoc]
  · intro detail hmem
    rcases List.mem_append.1 hmem with hmem | hmem
    · exact hn detail hmem
    · exact hn' detail hmem

theorem evolves_emit (s : OuchSession) {e : Event} (h : silent e = true) : Evolves s (s.emit e) := by
  refine ⟨[e], rfl, .silent s.state h, ?_⟩
  intro detail hmem
  rw [← List.mem_singleton.1 hmem] at h
  cases h

theorem evolves_withSocket (s : OuchSession) (k : TcpSocket) : Evolves s (s.withSocket k) := .same rfl rfl

theorem evolves_tick (s : OuchSession) : Evolves s s.tick := .same rfl rfl

theorem evolves_countRecv (s : OuchSession) : Evolves s s.countRecv := .same rfl rfl

theorem evolves_setState (s : OuchSession) {st : SessionState} (detail : String) (ha : st ≠ .active)
    (hl : st ≠ .loggingIn) : Evolves s (s.setState st detail) := by
  refine ⟨[.stateChange st detail], rfl, .stateChange s.state detail ha, ?_⟩
  intro detail' hmem
  rw [List.mem_singleton, Event.stateChange.injEq] at hmem
  exact hl hmem.1.symm

theorem evolves_writeBytes (s : OuchSession) (buf : Bytes) : Evolves s (s.writeBytes buf).2 := by
  unfold writeBytes
  dsimp only
  split
  · exact evolves_withSocket ..
  · split
    · exact .same rfl rfl
    · exact ⟨[.auditSent buf], rfl, .silent s.state rfl, fun _ hmem => by simp at hmem⟩

theorem evolves_request (s : OuchSession) (packet buf : Bytes) :
    Evolves s ((s.emit (.request packet)).writeBytes buf).2 :=
  (evolves_emit s rfl).trans (evolves_writeBytes _ buf)

theorem evolves_send (s : OuchSession) (m : Outgoing) : Evolves s (s.send m).2 := by
  rw [send_eq]
  unfold sendUnsequenced
  split
  · exact .refl s
  · dsimp only
    have h := evolves_request s ((makeHeader Pkt.unsequencedData (UInt16.ofNat m.bytes.length)).bytes ++ m.bytes)
      (makeHeader Pkt.unsequencedData (UInt16.ofNat m.bytes.length)).bytes
    split
    · rename_i hw
      rwa [hw] at h
    · rename_i hw
      rw [hw] at h
      exact h.trans (evolves_writeBytes _ m.bytes)

theorem evolves_requestLogout (s : OuchSession) : Evolves s s.requestLogout.2 :=
  (evolves_setState s "sending LogoutRequest" (by decide) (by decide)).trans (evolves_request _ _ _)

theorem evolves_readLoop (fuel : Nat) (s : OuchSession) : Evolves s (s.readLoop fuel).2 := by
  refine readLoop_inv ?_ ?_ ?_ fuel (.refl s)
  · intro s' h
    exact h.trans (evolves_withSocket s' _)
  · intro s' h
    exact h.trans (evolves_setState s' "peer closed" (by decide) (by decide))
  · intro s' bytes h
    exact h.trans (.same rfl rfl)

theorem evolves_readSome (s : OuchSession) : Evolves s s.readSome.2 := by
  unfold readSome
  split
  · exact .refl s
  · exact evolves_readLoop _ s

theorem evolves_tickTimers (s : OuchSession) : Evolves s s.tickTimers.2 := by
  have hf : Evolves s s.flushPending := .same rfl rfl
  have ht : Evolves s s.flushPending.tick := hf.trans (evolves_tick _)
  unfold tickTimers
  dsimp only
  split
  · exact hf
  · have hh : Evolves s (s.flushPending.tick.sendHeartbeat s.flushPending.now).2 := by
      unfold sendHeartbeat
      split
      · exact ht.trans (evolves_request _ _ _)
      · exact ht
    split
    · rename_i h
      rwa [h] at hh
    · rename_i h
      rw [h] at hh
      refine hh.trans ?_
      unfold watchdog
      split
      · exact evolves_setState _ _ (by decide) (by decide)
      · exact .refl _

/-! ## What a packet adds -/

/-- A packet that does not log in leaves a session that evolved from the one
that announced it. -/
theorem evolves_dispatchPacket (s : OuchSession) {type : UInt8} (mem : Bytes) {payloadLen : UInt64}
    (h : type = Pkt.loginAccepted → payloadLen < UInt64.ofNat (sessionLen + sequenceLen)) :
    Evolves s (s.dispatchPacket type mem payloadLen).2 := by
  have hcount := evolves_countRecv s
  have hreject : ∀ reason detail, Evolves s (s.countRecv.rejectLogin reason detail) := by
    intro reason detail
    have hreason : Evolves s { s.countRecv with lastLoginRejectReason := reason } := .same rfl rfl
    exact hreason.trans (evolves_setState _ detail (by decide) (by decide))
  unfold dispatchPacket
  dsimp only
  split
  · rw [if_pos (h ‹_›)]
    exact hcount
  · split
    · split
      · exact hreject _ _
      · exact hreject _ _
    · split
      · exact hcount
      · split
        · exact hcount.trans (evolves_setState _ _ (by decide) (by decide))
        · split
          -- a sequenced packet is counted, and its message handed over
          · have hseq : Evolves s s.countRecv.countSequenced := by
              refine ⟨[.ouch s.assignedSession s.nextInboundSeq], rfl, .silent s.state rfl, ?_⟩
              intro detail hmem
              simp at hmem
            rcases dispatchOuch_cases s.countRecv.countSequenced mem payloadLen with ⟨detail, ho⟩ | ⟨m, ho⟩
            · rw [ho]
              exact hseq
            · rw [ho]
              exact hseq.trans (evolves_emit _ rfl)
          · split <;> exact hcount

/-- A complete LoginAccepted makes the session Active. -/
theorem evolves_acceptLogin (s : OuchSession) {f : Frame} {payloadLen : UInt64} (reads : List (Nat × Nat))
    (session : Bytes) (seq : UInt64) (hf : f.packetType = Pkt.loginAccepted)
    (hlen : UInt64.ofNat (sessionLen + sequenceLen) ≤ payloadLen) :
    Evolves s ((s.emit (.dispatch f payloadLen reads)).countRecv.acceptLogin session seq) := by
  refine ⟨[.dispatch f payloadLen reads, .login session seq, .stateChange .active "LoginAccepted"], ?_,
    .accept s.state reads session seq hf hlen, ?_⟩
  · simp [acceptLogin, setState, emit, countRecv]
  · intro detail hmem
    simp at hmem

theorem evolves_takePacket (s : OuchSession) (hdr : Header) : Evolves s (s.takePacket hdr).2 := by
  have haudit : Evolves s (s.emit (.auditRecv (s.inBuffer.take hdr.packetSize) s.assignedSession s.nextInboundSeq)) :=
    evolves_emit s rfl
  by_cases hlogin : hdr.packetType = Pkt.loginAccepted ∧ UInt64.ofNat (sessionLen + sequenceLen) ≤ hdr.payloadLen
  · obtain ⟨htype, hlen⟩ := hlogin
    have hd : (s.announce hdr).dispatchPacket hdr.packetType (s.inBuffer.drop headerLen) hdr.payloadLen =
        (.ok (), (s.announce hdr).countRecv.acceptLogin (peek (s.inBuffer.drop headerLen) 0 sessionLen)
          (strtoull (peek (s.inBuffer.drop headerLen) sessionLen sequenceLen ++ [0]))) := by
      rw [dispatchPacket, if_pos htype, if_neg (UInt64.not_lt.2 hlen)]
    rw [takePacket, hd]
    have hactive : ∀ session seq, Evolves s ((s.announce hdr).countRecv.acceptLogin session seq) :=
      fun session seq => haudit.trans (evolves_acceptLogin _ _ session seq htype hlen)
    exact (hactive _ _).trans (.same rfl rfl)
  · have hshort : hdr.packetType = Pkt.loginAccepted → hdr.payloadLen < UInt64.ofNat (sessionLen + sequenceLen) := by
      intro htype
      exact UInt64.not_le.1 fun hlen => hlogin ⟨htype, hlen⟩
    have hann : Evolves s (s.announce hdr) := by
      refine haudit.trans ⟨_, rfl, .dispatch _ _ hshort, ?_⟩
      intro detail hmem
      simp at hmem
    exact (hann.trans (evolves_dispatchPacket _ (s.inBuffer.drop headerLen) hshort)).trans (.same rfl rfl)

theorem evolves_parseLoop (fuel : Nat) (s : OuchSession) : Evolves s (s.parseLoop fuel).2 :=
  inbound_parseLoop (fun s' _ _ _ h => h.trans (evolves_takePacket s' _)) fuel (.refl s)

theorem evolves_pollIo (s : OuchSession) : Evolves s s.pollIo.2 := by
  have h1 := evolves_readSome s
  unfold pollIo
  split
  · rename_i he
    rwa [he] at h1
  · rename_i s1 he
    rw [he] at h1
    have h2 := h1.trans (evolves_parseLoop s1.inBuffer.length s1)
    split
    · rename_i he2
      rw [parsePending] at he2
      rwa [he2] at h2
    · rename_i s2 he2
      rw [parsePending] at he2
      rw [he2] at h2
      exact h2.trans (evolves_tickTimers s2)

/-! ## Runs -/

theorem step_takes (s : OuchSession) (op : Op) : ∃ es, (s.step op).log = s.log ++ es ∧
    Takes s.state es (s.step op).state ∧ (op ≠ .beginLogin → ∀ detail, .stateChange .loggingIn detail ∉ es) := by
  have hevolves : ∀ s', Evolves s s' → ∃ es, s'.log = s.log ++ es ∧ Takes s.state es s'.state ∧
      (op ≠ .beginLogin → ∀ detail, .stateChange .loggingIn detail ∉ es) := by
    rintro s' ⟨es, hlog, ht, hn⟩
    exact ⟨es, hlog, ht, fun _ => hn⟩
  cases op with
  | send m => exact hevolves _ (evolves_send s m)
  | requestLogout => exact hevolves _ (evolves_requestLogout s)
  | pollIo => exact hevolves _ (evolves_pollIo s)
  | beginLogin =>
    unfold step exec beginLogin
    dsimp only
    split
    · exact hevolves _ (.refl s)
    · obtain ⟨es, hlog, ht, -⟩ := (evolves_request (s.setState .loggingIn "sending LoginRequest")
        (loginRequest s.login).bytes (loginRequest s.login).bytes).log
      refine ⟨.stateChange .loggingIn "sending LoginRequest" :: es, ?_, ?_, fun h => absurd rfl h⟩
      · exact hlog.trans (List.append_assoc ..)
      · exact (Takes.stateChange s.state "sending LoginRequest" (by decide)).append ht

theorem run_takes (s : OuchSession) (ops : List Op) : ∃ es, (run step s ops).log = s.log ++ es ∧
    Takes s.state es (run step s ops).state ∧ (.beginLogin ∉ ops → ∀ detail, .stateChange .loggingIn detail ∉ es) := by
  induction ops generalizing s with
  | nil => exact ⟨[], (List.append_nil _).symm, .nil s.state, fun _ _ => List.not_mem_nil⟩
  | cons op ops ih =>
    obtain ⟨es, hlog, ht, hn⟩ := s.step_takes op
    obtain ⟨es', hlog', ht', hn'⟩ := ih (s.step op)
    refine ⟨es ++ es', ?_, ht.append ht', ?_⟩
    · rw [run_cons, hlog', hlog, List.append_assoc]
    · intro hops detail hmem
      rw [List.mem_cons, not_or] at hops
      rcases List.mem_append.1 hmem with hmem | hmem
      · exact hn (Ne.symm hops.1) detail hmem
      · exact hn' hops.2 detail hmem

/-! ## Shut sessions -/

end OuchSession

/-- Disconnecting, Disconnected or Failed, as no session is ever Connecting. -/
def SessionState.Shut (st : SessionState) : Prop := st ≠ .loggingIn ∧ st ≠ .active

namespace Monitor

/-- A LoginAccepted that is being processed arrived in the state that still holds. -/
def Settled (m : Monitor) : Prop := m.arrived = none ∨ m.arrived = some m.state

theorem Settled.advance {m : Monitor} (h : Settled m) (e : Event) : Settled (m.advance e) := by
  cases e with
  | stateChange st detail => exact .inl rfl
  | dispatch f payloadLen reads =>
    simp only [Monitor.advance, Settled]
    split
    · exact .inr rfl
    · exact .inl rfl
  | _ => exact h

theorem settled_run {m : Monitor} (h : Settled m) (es : List Event) : Settled (run Monitor.advance m es) :=
  run_inv_all Settled (fun _ e hm => hm.advance e) h

/-- Without a new login, becoming Active is not its own. -/
theorem shut_advance {m : Monitor} {e : Event} (hset : Settled m) (hshut : m.state.Shut) (hown : Own m e)
    (hn : ∀ detail, e ≠ .stateChange .loggingIn detail) : (m.advance e).state.Shut := by
  cases e with
  | stateChange st detail =>
    refine ⟨fun h => hn detail (by rw [← h]; rfl), ?_⟩
    rintro rfl
    have harrived := hown hshut.2
    rcases hset with hnone | hsome
    · rw [hnone] at harrived
      cases harrived
    · rw [hsome, Option.some.injEq] at harrived
      exact hshut.1 harrived
  | _ => exact hshut

theorem shut_run {m : Monitor} {es : List Event} (hset : Settled m) (hshut : m.state.Shut)
    (hown : AllAlong advance Own m es) (hn : ∀ detail, .stateChange .loggingIn detail ∉ es) :
    (run advance m es).state.Shut := by
  induction es generalizing m with
  | nil => exact hshut
  | cons e es ih =>
    have he : ∀ detail, e ≠ .stateChange .loggingIn detail := by
      rintro detail rfl
      exact hn detail List.mem_cons_self
    exact ih (hset.advance e) (shut_advance hset hshut hown.1 he) hown.2
      fun detail hmem => hn detail (List.mem_cons_of_mem e hmem)

end Monitor

namespace OuchSession

open Monitor

/-- Once shut, a session stays shut and refuses to send until `begin_login` is called. -/
def StaysShut (s : OuchSession) (ops : List Op) : Prop :=
  ∀ pre mid post, ops = pre ++ mid ++ post → (run step s pre).state.Shut → .beginLogin ∉ mid →
    (run step s (pre ++ mid)).state.Shut ∧
      ∀ m, ((run step s (pre ++ mid)).send m).1 = .error (makeError .stateMismatch "session not Active")

theorem send_shut {s : OuchSession} (h : s.state.Shut) (m : Outgoing) :
    (s.send m).1 = .error (makeError .stateMismatch "session not Active") := by
  rw [send_eq, sendUnsequenced, if_pos h.2]

/-- What the session does is what its log tells. -/
theorem monitor_state {s : OuchSession} (hs : s.Fresh) (ops : List Op) :
    (run advance start (run step s ops).log).state = (run step s ops).state := by
  obtain ⟨es, hlog, ht, -⟩ := s.run_takes ops
  rw [hlog, hs.log]
  exact ht.state start hs.state.symm

theorem staysShut_of_own {s : OuchSession} (hs : s.Fresh) {ops : List Op}
    (h : AllAlong advance Own start (run step s ops).log) : StaysShut s ops := by
  rintro pre mid post rfl hshut hmid
  have hsettled := settled_run (m := start) (.inl rfl) (run step s pre).log
  have hstate := monitor_state hs pre
  obtain ⟨es, hlog, ht, hn⟩ := (run step s pre).run_takes mid
  obtain ⟨es', hlog', -, -⟩ := (run step s (pre ++ mid)).run_takes post
  rw [run_append, hlog', run_append, hlog, allAlong_append, allAlong_append] at h
  have hmonitor := shut_run hsettled (hstate.symm ▸ hshut) h.1.2 (hn hmid)
  have hend : (run step s (pre ++ mid)).state.Shut := by
    rw [ht.state _ hstate] at hmonitor
    rwa [run_append]
  exact ⟨hend, send_shut hend⟩

/-- In every run, the session becomes Active only by its own login, and stays
shut once it is, if and only if every complete LoginAccepted arrives while the
session is LoggingIn or Active. -/
theorem active_by_own_login_iff {s : OuchSession} (hs : s.Fresh) (ops : List Op) :
    (run advance start (run step s ops).log).state = (run step s ops).state ∧
    (AllAlong advance Own start (run step s ops).log ∧ StaysShut s ops ↔
      AllAlong advance InTime start (run step s ops).log) := by
  refine ⟨monitor_state hs ops, ?_⟩
  obtain ⟨es, hlog, ht, -⟩ := s.run_takes ops
  have hiff := ht.own_iff start hs.state.symm
  rw [hs.log, List.nil_append] at hlog
  rw [← hlog] at hiff
  constructor
  · intro h
    exact hiff.1 h.1
  · intro h
    have hown := hiff.2 h
    exact ⟨hown, staysShut_of_own hs hown⟩

/-- A LoginAccepted of session `SESS000001`, next number 1. -/
def acceptChunk : Chunk :=
  ⟨(loginAccepted (Field.pad 32 10 (ascii "SESS000001")) (Field.pad 48 20 (ascii "00000000000000000001"))).encode,
    by decide, by decide⟩

/-- A session whose socket takes the first two packets and delivers a LoginAccepted. -/
def welcomed : OuchSession :=
  create { sends := [.accept 49, .accept 3], recvs := [.data acceptChunk] } { reading := fun _ => 0 }
    { username := ascii "OUCH01", password := ascii "secret" } Soup.heartbeatSendNs

theorem welcomed_fresh : welcomed.Fresh := ⟨rfl, rfl, rfl, rfl, rfl, rfl, rfl, rfl⟩

theorem active_by_own_login_iff_welcomed :
    (run advance start (run step welcomed [.beginLogin, .pollIo]).log).state =
      (run step welcomed [.beginLogin, .pollIo]).state ∧
    (AllAlong advance Own start (run step welcomed [.beginLogin, .pollIo]).log ∧
        StaysShut welcomed [.beginLogin, .pollIo] ↔
      AllAlong advance InTime start (run step welcomed [.beginLogin, .pollIo]).log) :=
  active_by_own_login_iff welcomed_fresh [.beginLogin, .pollIo]

/-- The session logs in and out again before the answer to its login comes in:
that answer makes it Active. -/
theorem late_acceptance_revives :
    ¬ ∀ (s : OuchSession) (ops : List Op), s.Fresh →
      AllAlong advance Own start (run step s ops).log ∧ StaysShut s ops := by
  intro h
  have hactive : (run step welcomed [.beginLogin, .requestLogout, .pollIo]).state = .active := by decide
  have hshut : (run step welcomed [.beginLogin, .requestLogout]).state.Shut := ⟨by decide, by decide⟩
  obtain ⟨-, hstays⟩ := h welcomed [.beginLogin, .requestLogout, .pollIo] welcomed_fresh
  exact (hstays [.beginLogin, .requestLogout] [.pollIo] [] rfl hshut (by decide)).1.2 hactive

end OuchSession

end BistColo.Ouch
