import BistColo.Ouch.States
/-!
# What a session was sent

`Cause` says which packet or timeout stands behind a change of state in the
log, and every change has one (`accounted_step`). So the state of a session
tells what it was sent (`Explained.cause`): an Active session a LoginAccepted, a
Failed one a LoginRejected unless its peer fell silent, a Disconnected one an
EndOfSession unless it lost its peer or never began.
-/

open StreamKit

namespace BistColo.Ouch

open Soup

/-- A packet of the type was dispatched. -/
def Heard (log : List Event) (type : UInt8) : Prop :=
  ∃ f payloadLen reads, .dispatch f payloadLen reads ∈ log ∧ f.packetType = type

/-- What stands behind a change of state. The session itself makes the others. -/
def Cause (log : List Event) (st : SessionState) (detail : String) : Prop :=
  match st with
  | .active => Heard log Pkt.loginAccepted
  | .failed => Heard log Pkt.loginRejected ∨ detail = "peer heartbeat timeout"
  | .disconnected => Heard log Pkt.endOfSession ∨ detail = "peer closed"
  | .connecting | .loggingIn | .disconnecting => True

def Accounted (log : List Event) : Prop := ∀ st detail, .stateChange st detail ∈ log → Cause log st detail

/-! ## Longer logs -/

theorem Heard.append {log : List Event} {type : UInt8} (h : Heard log type) (es : List Event) :
    Heard (log ++ es) type := by
  obtain ⟨f, len, reads, hmem, htype⟩ := h
  exact ⟨f, len, reads, List.mem_append_left es hmem, htype⟩

theorem Cause.append {log : List Event} {st : SessionState} {detail : String} (h : Cause log st detail)
    (es : List Event) : Cause (log ++ es) st detail := by
  cases st with
  | active => exact Heard.append h es
  | failed => exact h.imp_left fun heard => heard.append es
  | disconnected => exact h.imp_left fun heard => heard.append es
  | _ => trivial

/-- An entry that is no change of state needs no cause. -/
theorem Accounted.snoc {log : List Event} (h : Accounted log) {e : Event} (he : ∀ st detail, e ≠ .stateChange st detail) :
    Accounted (log ++ [e]) := by
  intro st detail hmem
  rw [List.mem_append, List.mem_singleton] at hmem
  rcases hmem with hmem | heq
  · exact (h st detail hmem).append [e]
  · exact absurd heq.symm (he st detail)

theorem Accounted.change {log : List Event} (h : Accounted log) {st : SessionState} {detail : String}
    (hc : Cause log st detail) : Accounted (log ++ [.stateChange st detail]) := by
  intro st' detail' hmem
  rw [List.mem_append, List.mem_singleton] at hmem
  rcases hmem with hmem | heq
  · exact (h st' detail' hmem).append _
  · cases heq
    exact hc.append _

namespace OuchSession

/-! ## What each function keeps -/

theorem accounted_writeBytes (s : OuchSession) (buf : Bytes) (h : Accounted s.log) :
    Accounted (s.writeBytes buf).2.log := by
  unfold writeBytes
  dsimp only
  split
  · exact h
  · split
    · exact h
    · exact h.snoc nofun

theorem accounted_request (s : OuchSession) (packet buf : Bytes) (h : Accounted s.log) :
    Accounted ((s.emit (.request packet)).writeBytes buf).2.log :=
  accounted_writeBytes _ _ (h.snoc nofun)

theorem accounted_send (s : OuchSession) (m : Outgoing) (h : Accounted s.log) : Accounted (s.send m).2.log := by
  rw [send_eq]
  unfold sendUnsequenced
  split
  · exact h
  · dsimp only
    have hhead := accounted_request s ((makeHeader Pkt.unsequencedData (UInt16.ofNat m.bytes.length)).bytes ++ m.bytes)
      (makeHeader Pkt.unsequencedData (UInt16.ofNat m.bytes.length)).bytes h
    split
    · rename_i hw
      rwa [hw] at hhead
    · rename_i hw
      rw [hw] at hhead
      exact accounted_writeBytes _ _ hhead

theorem accounted_readLoop (fuel : Nat) (s : OuchSession) (h : Accounted s.log) : Accounted (s.readLoop fuel).2.log := by
  refine readLoop_inv (I := fun s => Accounted s.log) ?_ ?_ ?_ fuel h
  · exact fun _ h => h
  · exact fun _ h => h.change (.inr rfl)
  · exact fun _ _ h => h

theorem accounted_tickTimers (s : OuchSession) (h : Accounted s.log) : Accounted s.tickTimers.2.log := by
  unfold tickTimers
  dsimp only
  split
  · exact h
  · have hsent : Accounted (s.flushPending.tick.sendHeartbeat s.flushPending.now).2.log := by
      unfold sendHeartbeat
      split
      · exact accounted_request _ _ _ h
      · exact h
    split
    · rename_i he
      rwa [he] at hsent
    · rename_i he
      rw [he] at hsent
      unfold watchdog
      split
      · exact hsent.change (.inr rfl)
      · exact hsent

/-- Once its packet is in the log, a dispatch accounts for the state it leaves. -/
theorem accounted_dispatchPacket (s : OuchSession) {type : UInt8} (mem : Bytes) (payloadLen : UInt64)
    (h : Accounted s.log) (hheard : Heard s.log type) : Accounted (s.dispatchPacket type mem payloadLen).2.log := by
  unfold dispatchPacket
  dsimp only
  split
  · rename_i htype
    split
    · exact h
    -- the login is logged before the state changes
    · have hlogin : Accounted (s.log ++ [.login (peek mem 0 sessionLen)
          (strtoull (peek mem sessionLen sequenceLen ++ [0]))]) := h.snoc nofun
      exact hlogin.change ((htype ▸ hheard).append _)
  · split
    · rename_i htype
      have hreject : ∀ detail, Accounted (s.log ++ [.stateChange .failed detail]) :=
        fun detail => h.change (.inl (htype ▸ hheard))
      split
      · exact hreject _
      · exact hreject _
    · split
      · exact h
      · split
        · rename_i htype
          exact h.change (.inl (htype ▸ hheard))
        · split
          -- a sequenced packet is counted, and its message handed over
          · have hcount : Accounted s.countRecv.countSequenced.log := h.snoc nofun
            rcases dispatchOuch_cases s.countRecv.countSequenced mem payloadLen with ⟨detail, ho⟩ | ⟨m, ho⟩
            · rwa [ho]
            · rw [ho]
              exact hcount.snoc nofun
          · split <;> exact h

theorem accounted_takePacket (s : OuchSession) (hdr : Header) (h : Accounted s.log) :
    Accounted (s.takePacket hdr).2.log := by
  have haudit : Accounted (s.emit (.auditRecv (s.inBuffer.take hdr.packetSize) s.assignedSession s.nextInboundSeq)).log :=
    h.snoc nofun
  have hann : Accounted (s.announce hdr).log := haudit.snoc nofun
  have hheard : Heard (s.announce hdr).log hdr.packetType :=
    ⟨_, _, _, List.mem_append_right _ (List.mem_singleton_self _), rfl⟩
  exact accounted_dispatchPacket _ _ _ hann hheard

theorem accounted_pollIo (s : OuchSession) (h : Accounted s.log) : Accounted s.pollIo.2.log := by
  have hread : Accounted s.readSome.2.log := by
    unfold readSome
    split
    · exact h
    · exact accounted_readLoop _ s h
  unfold pollIo
  split
  · rename_i he
    rwa [he] at hread
  · rename_i s1 he
    rw [he] at hread
    have hparse : Accounted s1.parsePending.2.log :=
      inbound_parseLoop (fun s' _ _ _ h' => accounted_takePacket s' _ h') s1.inBuffer.length hread
    split
    · rename_i he2
      rwa [he2] at hparse
    · rename_i he2
      rw [he2] at hparse
      exact accounted_tickTimers _ hparse

theorem accounted_step (s : OuchSession) (op : Op) (h : Accounted s.log) : Accounted (s.step op).log := by
  cases op with
  | send m => exact accounted_send s m h
  | pollIo => exact accounted_pollIo s h
  | requestLogout => exact accounted_request _ _ _ (h.change trivial)
  | beginLogin =>
    unfold step exec beginLogin
    dsimp only
    split
    · exact h
    · exact accounted_request _ _ _ (h.change trivial)

/-! ## The state and its cause -/

/-- The log tells the state, and what stands behind each change to it. -/
structure Explained (s : OuchSession) : Prop where
  takes : Monitor.Takes .disconnected s.log s.state
  accounted : Accounted s.log

theorem Fresh.explained {s : OuchSession} (h : s.Fresh) : s.Explained := by
  constructor
  · rw [h.log, h.state]
    exact .nil .disconnected
  · rw [h.log]
    nofun

theorem explained_step (s : OuchSession) (op : Op) (h : s.Explained) : (s.step op).Explained := by
  obtain ⟨es, hlog, ht, -⟩ := s.step_takes op
  refine ⟨?_, accounted_step s op h.accounted⟩
  rw [hlog]
  exact h.takes.append ht

/-- A session in use: some operations after the constructor. -/
def Reached (s : OuchSession) : Prop := ∃ (built : OuchSession) (ops : List Op), built.Fresh ∧ s = run step built ops

theorem Reached.explained {s : OuchSession} (h : s.Reached) : s.Explained := by
  obtain ⟨built, ops, hfresh, rfl⟩ := h
  exact run_inv_all Explained explained_step hfresh.explained

/-- A log without a change of state leaves it; else the last change made it what it is. -/
theorem state_run (m : Monitor) (es : List Event) :
    ((run Monitor.advance m es).state = m.state ∧ ∀ st detail, .stateChange st detail ∉ es) ∨
      ∃ detail, .stateChange (run Monitor.advance m es).state detail ∈ es := by
  induction es generalizing m with
  | nil => exact .inl ⟨rfl, nofun⟩
  | cons e es ih =>
    rw [run_cons]
    rcases ih (m.advance e) with ⟨hsame, hnone⟩ | ⟨detail, hmem⟩
    · rw [hsame]
      cases e with
      | stateChange st detail => exact .inr ⟨detail, List.mem_cons_self⟩
      | _ => exact .inl ⟨rfl, fun st detail => by simp [hnone]⟩
    · exact .inr ⟨detail, List.mem_cons_of_mem e hmem⟩

/-- A session is in a state because its log changed to it, with a cause, or as it was built. -/
theorem Explained.cause {s : OuchSession} (h : s.Explained) :
    (∃ detail, .stateChange s.state detail ∈ s.log ∧ Cause s.log s.state detail) ∨
      s.state = .disconnected ∧ ∀ st detail, .stateChange st detail ∉ s.log := by
  have hstate := h.takes.state Monitor.start rfl
  rcases state_run Monitor.start s.log with ⟨hsame, hnone⟩ | ⟨detail, hmem⟩
  · exact .inr ⟨hstate.symm.trans hsame, hnone⟩
  · rw [hstate] at hmem
    exact .inl ⟨detail, hmem, h.accounted _ _ hmem⟩

/-- An Active session was sent a LoginAccepted. -/
theorem Explained.active {s : OuchSession} (h : s.Explained) (hs : s.state = .active) :
    Heard s.log Pkt.loginAccepted := by
  rcases h.cause with ⟨detail, -, hc⟩ | ⟨hno, -⟩
  · rw [hs] at hc
    exact hc
  · rw [hs] at hno
    cases hno

/-- A Failed session was sent a LoginRejected, or its peer fell silent. -/
theorem Explained.failed {s : OuchSession} (h : s.Explained) (hs : s.state = .failed) :
    Heard s.log Pkt.loginRejected ∨ .stateChange .failed "peer heartbeat timeout" ∈ s.log := by
  rcases h.cause with ⟨detail, hmem, hc⟩ | ⟨hno, -⟩
  · rw [hs] at hmem hc
    rcases hc with heard | rfl
    · exact .inl heard
    · exact .inr hmem
  · rw [hs] at hno
    cases hno

/-- A Disconnected session was sent an EndOfSession, lost its peer or never began. -/
theorem Explained.disconnected {s : OuchSession} (h : s.Explained) (hs : s.state = .disconnected) :
    Heard s.log Pkt.endOfSession ∨ .stateChange .disconnected "peer closed" ∈ s.log ∨
      ∀ st detail, .stateChange st detail ∉ s.log := by
  rcases h.cause with ⟨detail, hmem, hc⟩ | ⟨-, hnone⟩
  · rw [hs] at hmem hc
    rcases hc with heard | rfl
    · exact .inl heard
    · exact .inr (.inl hmem)
  · exact .inr (.inr hnone)

end OuchSession

end BistColo.Ouch
