import BistColo.Ouch.Outbound
/-!
# What an operation writes

`Unsent` says that nothing was sent between two states. `Path` strings together
what an operation does to the sending side: its `write_bytes` calls, the flush
of the stash, and quiet stretches. `path_step` gives every operation its path,
with the calls that `writes` lists, so what one write does is known of runs.
-/

open StreamKit

namespace BistColo.Ouch

open Soup

/-- The spans given to `on_audit_sent`. -/
def audited (log : List Event) : List Bytes :=
  log.filterMap fun | .auditSent bytes => some bytes | _ => none

@[simp] theorem audited_append (l l' : List Event) : audited (l ++ l') = audited l ++ audited l' := by
  simp [audited]

namespace OuchSession

/-- The sending side of `s'` is that of `s`, at the same time or later. -/
structure Unsent (s s' : OuchSession) : Prop where
  isOpen : s'.socket.isOpen = s.socket.isOpen
  sends : s'.socket.sends = s.socket.sends
  wire : s'.socket.wire = s.socket.wire
  outPending : s'.outPending = s.outPending
  heartbeatSendNs : s'.heartbeatSendNs = s.heartbeatSendNs
  lastSendNs : s'.lastSendNs = s.lastSendNs
  reading : s'.clock.reading = s.clock.reading
  ticks : s.clock.ticks ≤ s'.clock.ticks
  log : ∃ es, s'.log = s.log ++ es ∧ audited es = []

theorem Unsent.refl (s : OuchSession) : Unsent s s :=
  ⟨rfl, rfl, rfl, rfl, rfl, rfl, rfl, le_rfl, [], (List.append_nil _).symm, rfl⟩

theorem Unsent.trans {s s' s'' : OuchSession} (h : Unsent s s') (h' : Unsent s' s'') : Unsent s s'' := by
  obtain ⟨es, hes, hnone⟩ := h.log
  obtain ⟨es', hes', hnone'⟩ := h'.log
  exact ⟨h'.isOpen.trans h.isOpen, h'.sends.trans h.sends, h'.wire.trans h.wire, h'.outPending.trans h.outPending,
    h'.heartbeatSendNs.trans h.heartbeatSendNs, h'.lastSendNs.trans h.lastSendNs, h'.reading.trans h.reading,
    h.ticks.trans h'.ticks, es ++ es', by rw [hes', hes, List.append_assoc],
    by rw [audited_append, hnone, hnone', List.append_nil]⟩

theorem Unsent.audited_eq {s s' : OuchSession} (h : Unsent s s') : audited s'.log = audited s.log := by
  obtain ⟨es, hes, hnone⟩ := h.log
  rw [hes, audited_append, hnone, List.append_nil]

/-! ## Reading is quiet -/

theorem unsent_emit (s : OuchSession) {e : Event} (h : audited [e] = []) : Unsent s (s.emit e) :=
  ⟨rfl, rfl, rfl, rfl, rfl, rfl, rfl, le_rfl, [e], rfl, h⟩

theorem unsent_setState (s : OuchSession) (st : SessionState) (detail : String) : Unsent s (s.setState st detail) :=
  ⟨rfl, rfl, rfl, rfl, rfl, rfl, rfl, le_rfl, [.stateChange st detail], rfl, rfl⟩

theorem unsent_tick (s : OuchSession) : Unsent s s.tick :=
  ⟨rfl, rfl, rfl, rfl, rfl, rfl, rfl, Nat.le_succ _, [], (List.append_nil _).symm, rfl⟩

theorem unsent_append (s : OuchSession) (bytes : Bytes) : Unsent s (s.append bytes) :=
  ⟨rfl, rfl, rfl, rfl, rfl, rfl, rfl, Nat.le_succ _, [], (List.append_nil _).symm, rfl⟩

theorem unsent_withRecv (s : OuchSession) : Unsent s (s.withSocket s.socket.recv.2) := by
  have h := sameOutput_withRecv s
  exact ⟨h.isOpen, h.sends, h.wire, rfl, rfl, rfl, rfl, le_rfl, [], (List.append_nil _).symm, rfl⟩

theorem unsent_readLoop (fuel : Nat) (s : OuchSession) : Unsent s (s.readLoop fuel).2 := by
  refine readLoop_inv ?_ ?_ ?_ fuel (.refl s)
  · intro s' h
    exact h.trans (unsent_withRecv s')
  · intro s' h
    exact h.trans (unsent_setState s' _ _)
  · intro s' bytes h
    exact h.trans (unsent_append s' bytes)

theorem unsent_readSome (s : OuchSession) : Unsent s s.readSome.2 := by
  unfold readSome
  split
  · exact .refl s
  · exact unsent_readLoop _ s

theorem unsent_dispatchPacket (s : OuchSession) (type : UInt8) (mem : Bytes) (payloadLen : UInt64) :
    Unsent s (s.dispatchPacket type mem payloadLen).2 := by
  have h := dispatches_dispatchPacket s type mem payloadLen
  obtain ⟨es, hlog, hes⟩ := h.log
  refine ⟨by rw [h.socket], by rw [h.socket], by rw [h.socket], h.outPending, h.heartbeatSendNs, h.lastSendNs,
    by rw [h.clock], by rw [h.clock], es, hlog, ?_⟩
  rw [audited, List.filterMap_eq_nil_iff]
  intro e he
  have hkind := hes e he
  cases e <;> first | rfl | cases hkind

theorem unsent_takePacket (s : OuchSession) (h : Header) : Unsent s (s.takePacket h).2 := by
  have herase : ∀ s' n, Unsent s s' → Unsent s (s'.erase n) := by
    intro s' n h'
    exact ⟨h'.isOpen, h'.sends, h'.wire, h'.outPending, h'.heartbeatSendNs, h'.lastSendNs, h'.reading, h'.ticks, h'.log⟩
  exact herase _ _ (((unsent_emit s rfl).trans (unsent_emit _ rfl)).trans (unsent_dispatchPacket ..))

theorem unsent_parseLoop (fuel : Nat) (s : OuchSession) : Unsent s (s.parseLoop fuel).2 := by
  refine parseLoop_inv ?_ fuel (.refl s)
  intro s' hdr h
  exact h.trans (unsent_takePacket s' hdr)

theorem unsent_parsePending (s : OuchSession) : Unsent s s.parsePending.2 := unsent_parseLoop _ s

theorem unsent_watchdog (s : OuchSession) (now : UInt64) : Unsent s (s.watchdog now).2 := by
  unfold watchdog
  split
  · exact unsent_setState _ _ _
  · exact .refl s

/-! ## One write -/

/-- The socket takes the whole buffer of a `write_bytes` call. -/
def Whole (c : OuchSession × Bytes) : Prop := TcpSocket.takes c.1.socket.sends c.2.length = true

instance (c : OuchSession × Bytes) : Decidable (Whole c) := inferInstanceAs (Decidable (_ = true))

/-- A write that the socket takes whole does the bookkeeping, and only it. -/
theorem writeBytes_whole {s : OuchSession} (hk : s.socket.NoSendErrors) {buf : Bytes} (h : Whole (s, buf)) :
    (s.writeBytes buf).2 = (s.withSocket (s.socket.drain buf).socket).wrote buf := by
  have hleft := (TcpSocket.drain_left hk.1 buf).2 h
  unfold writeBytes
  dsimp only
  rw [(hk.drain buf).1]
  dsimp only
  rw [if_neg (not_not_intro hleft)]

/-- Otherwise the rest is stashed and nothing else happens. -/
theorem writeBytes_stash {s : OuchSession} (hk : s.socket.NoSendErrors) {buf : Bytes} (h : ¬ Whole (s, buf)) :
    (s.writeBytes buf).2 = (s.withSocket (s.socket.drain buf).socket).stash (s.socket.drain buf).left := by
  have hleft := mt (TcpSocket.drain_left hk.1 buf).1 h
  unfold writeBytes
  dsimp only
  rw [(hk.drain buf).1]
  dsimp only
  rw [if_pos hleft]

/-! ## The path of an operation -/

/-- From the first state to the last, by the listed `write_bytes` calls. -/
inductive Path : OuchSession → List (OuchSession × Bytes) → OuchSession → Prop
  | nil (s) : Path s [] s
  | unsent {s s' s'' calls} (h : Unsent s s') (rest : Path s' calls s'') : Path s calls s''
  | flush {s s' calls} (rest : Path s.flushPending calls s') : Path s calls s'
  | write {s s' calls} (buf) (rest : Path (s.writeBytes buf).2 calls s') : Path s ((s, buf) :: calls) s'

theorem Path.andThen {s s' s'' : OuchSession} {calls : List (OuchSession × Bytes)} (h : Path s calls s')
    (hq : Unsent s' s'') : Path s calls s'' := by
  induction h with
  | nil s => exact .unsent hq (.nil _)
  | unsent hs _ ih => exact .unsent hs (ih hq)
  | flush _ ih => exact .flush (ih hq)
  | write buf _ ih => exact .write buf (ih hq)

/-- A packet that is asked for and written in one call. -/
theorem path_request (s : OuchSession) (packet : Bytes) :
    Path s [(s.emit (.request packet), packet)] ((s.emit (.request packet)).writeBytes packet).2 :=
  .unsent (unsent_emit s rfl) (.write packet (.nil _))

theorem path_beginLogin (s : OuchSession) : Path s (s.writes .beginLogin) s.beginLogin.2 := by
  unfold beginLogin writes
  dsimp only
  by_cases hopen : s.socket.isOpen = false
  · rw [if_pos hopen, if_pos hopen]
    exact .nil s
  · rw [if_neg hopen, if_neg hopen]
    exact .unsent (unsent_setState s _ _) (path_request _ _)

theorem path_requestLogout (s : OuchSession) : Path s (s.writes .requestLogout) s.requestLogout.2 :=
  .unsent (unsent_setState s _ _) (path_request _ _)

theorem path_send {s : OuchSession} (hk : s.socket.NoSendErrors) (m : Outgoing) :
    Path s (s.writes (.send m)) (s.send m).2 := by
  rw [send_eq, writes]
  unfold sendUnsequenced
  split
  · exact .nil s
  · dsimp only
    generalize (makeHeader Pkt.unsequencedData (UInt16.ofNat m.bytes.length)).bytes = hdr
    have hreq : (s.emit (.request (hdr ++ m.bytes))).socket.NoSendErrors := hk
    rw [(writeBytes_noErrors hreq hdr).1]
    exact .unsent (unsent_emit s rfl) (.write hdr (.write m.bytes (.nil _)))

/-- The write of a tick that finds the timer run out. -/
def heartbeatWrites (s : OuchSession) (now : UInt64) : List (OuchSession × Bytes) :=
  if s.heartbeatSendNs.toUInt64 ≤ now - s.lastSendNs then
    [(s.emit (.request (makeHeader Pkt.clientHeartbeat 0).bytes), (makeHeader Pkt.clientHeartbeat 0).bytes)]
  else []

theorem path_sendHeartbeat (s : OuchSession) (now : UInt64) :
    Path s (s.heartbeatWrites now) (s.sendHeartbeat now).2 := by
  unfold sendHeartbeat heartbeatWrites
  split
  · exact path_request s _
  · exact .nil s

theorem path_tickTimers (s : OuchSession) : Path s (if s.flushPending.state = .active then
    s.flushPending.tick.heartbeatWrites s.flushPending.now else []) s.tickTimers.2 := by
  refine .flush ?_
  unfold tickTimers
  dsimp only
  by_cases hactive : s.flushPending.state = .active
  · rw [if_pos hactive, if_neg (not_not_intro hactive)]
    refine .unsent (unsent_tick _) ?_
    have hh := path_sendHeartbeat s.flushPending.tick s.flushPending.now
    split
    · rename_i he
      rwa [he] at hh
    · rename_i he
      rw [he] at hh
      exact hh.andThen (unsent_watchdog _ _)
  · rw [if_neg hactive, if_pos hactive]
    exact .nil _

theorem path_pollIo (s : OuchSession) : Path s (s.writes .pollIo) s.pollIo.2 := by
  have hr := unsent_readSome s
  unfold pollIo writes
  rcases he : s.readSome with ⟨e | ⟨⟩, s1⟩
  · rw [he] at hr
    exact .unsent hr (.nil _)
  · rw [he] at hr
    refine .unsent hr ?_
    have hp := unsent_parsePending s1
    dsimp only
    rcases hpe : s1.parsePending with ⟨e | ⟨⟩, s2⟩
    · rw [hpe] at hp
      exact .unsent hp (.nil _)
    · rw [hpe] at hp
      refine .unsent hp ?_
      have ht := path_tickTimers s2
      by_cases hactive : s2.flushPending.state = .active
      · rw [if_pos hactive, heartbeatWrites] at ht
        simp only [hactive, true_and]
        exact ht
      · rw [if_neg hactive] at ht
        simpa [hactive] using ht

/-- Every operation on a socket without send errors. -/
theorem path_step {s : OuchSession} (hk : s.socket.NoSendErrors) (op : Op) : Path s (s.writes op) (s.step op) := by
  cases op with
  | beginLogin => exact path_beginLogin s
  | send m => exact path_send hk m
  | requestLogout => exact path_requestLogout s
  | pollIo => exact path_pollIo s

theorem Path.noErrors {s s' : OuchSession} {calls : List (OuchSession × Bytes)} (h : Path s calls s')
    (hk : s.socket.NoSendErrors) : s'.socket.NoSendErrors := by
  induction h with
  | nil s => exact hk
  | unsent hs _ ih => exact ih ⟨hs.isOpen.trans hk.1, by rw [hs.sends]; exact hk.2⟩
  | @flush s _ _ _ ih => exact ih (hk.drain s.outPending).2
  | write buf _ ih => exact ih (writeBytes_noErrors hk buf).2

theorem noErrors_step {s : OuchSession} (hk : s.socket.NoSendErrors) (op : Op) : (s.step op).socket.NoSendErrors :=
  (path_step hk op).noErrors hk

theorem noErrors_run {s : OuchSession} (hk : s.socket.NoSendErrors) (ops : List Op) :
    (run step s ops).socket.NoSendErrors :=
  run_inv_all (fun s : OuchSession => s.socket.NoSendErrors) (fun _ op hk => noErrors_step hk op) hk

end OuchSession

end BistColo.Ouch
