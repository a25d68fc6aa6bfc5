import BistColo.Ouch.Writing
/-!
# What the audit is told of the bytes sent

`write_bytes` calls `on_audit_sent` only when the socket took its whole buffer.
What is stashed goes out later without a call. So the audited spans are the
bytes on the wire exactly when every write is taken whole
(`audit_exact_iff`), and `stashed_login_unaudited` is a login that is not.
-/

open StreamKit

namespace BistColo.Ouch

namespace OuchSession

/-- The bytes of the calls that are not taken whole. -/
def unaudited (calls : List (OuchSession × Bytes)) : Nat :=
  ((calls.filter fun c => ¬ Whole c).map fun c => c.2.length).sum

theorem unaudited_cons (c : OuchSession × Bytes) (calls : List (OuchSession × Bytes)) :
    unaudited (c :: calls) = (if Whole c then 0 else c.2.length) + unaudited calls := by
  by_cases h : Whole c <;> simp [unaudited, h]

/-- There are none exactly when every call is taken whole. -/
theorem unaudited_eq_zero {calls : List (OuchSession × Bytes)} : unaudited calls = 0 ↔ ∀ c ∈ calls, Whole c := by
  induction calls with
  | nil => simp [unaudited]
  | cons c calls ih =>
    rw [unaudited_cons, Nat.add_eq_zero_iff, ih, List.forall_mem_cons]
    refine and_congr_left fun _ => ?_
    by_cases h : Whole c
    · simp [h]
    · -- a buffer without bytes is taken whole
      have hpos : c.2 ≠ [] := by
        intro hnil
        rw [Whole, hnil] at h
        exact h (by rw [List.length_nil, TcpSocket.takes])
      simp [h, hpos]

/-! ## The account of a write -/

/-- Bytes sent or waiting. -/
def outbound (s : OuchSession) : Nat := s.socket.wire.length + s.outPending.length

theorem outbound_drain (s : OuchSession) (buf : Bytes) :
    (s.socket.drain buf).socket.wire.length + (s.socket.drain buf).left.length = s.socket.wire.length + buf.length := by
  obtain ⟨n, hn, hwire, hleft, -, -⟩ := s.socket.drain_spec buf
  rw [hwire, hleft, List.length_append, List.length_take, List.length_drop]
  omega

theorem audited_wrote (s : OuchSession) (buf : Bytes) : audited (s.wrote buf).log = audited s.log ++ [buf] := by
  rw [wrote, emit, audited_append]
  rfl

/-- The bytes sent and waiting grow by those audited and those that are not. -/
theorem Path.account {s s' : OuchSession} {calls : List (OuchSession × Bytes)} (h : Path s calls s')
    (hk : s.socket.NoSendErrors) : s'.outbound + (audited s.log).flatten.length =
      s.outbound + (audited s'.log).flatten.length + unaudited calls := by
  induction h with
  | nil s => rfl
  | unsent hs _ ih =>
    have hrest := ih ⟨hs.isOpen.trans hk.1, by rw [hs.sends]; exact hk.2⟩
    rw [hs.audited_eq, outbound, outbound, hs.wire, hs.outPending] at hrest
    exact hrest
  | @flush s s' calls _ ih =>
    have hflush : s.flushPending.outbound = s.outbound := outbound_drain s s.outPending
    have hrest := ih (hk.drain s.outPending).2
    rw [hflush] at hrest
    exact hrest
  | @write s s' calls buf _ ih =>
    have hrest := ih (writeBytes_noErrors hk buf).2
    have hdrain := outbound_drain s buf
    rw [unaudited_cons]
    by_cases hw : Whole (s, buf)
    · have hleft := (TcpSocket.drain_left hk.1 buf).2 hw
      rw [hleft, List.length_nil] at hdrain
      rw [writeBytes_whole hk hw, audited_wrote, List.flatten_append, List.length_append, List.flatten_singleton] at hrest
      rw [if_pos hw]
      simp only [outbound, wrote, emit, tick, withSocket] at hrest ⊢
      omega
    · rw [writeBytes_stash hk hw] at hrest
      rw [if_neg hw]
      simp only [outbound, stash, withSocket, List.length_append] at hrest ⊢
      omega

/-! ## Runs -/

/-- Every `write_bytes` call of the operation is taken whole. -/
def WritesWhole (s : OuchSession) (op : Op) : Prop := ∀ c ∈ s.writes op, Whole c

instance (s : OuchSession) (op : Op) : Decidable (s.WritesWhole op) := List.decidableBAll _ _

/-- Nothing waits, and what was sent was audited. -/
structure AuditExact (s : OuchSession) : Prop where
  noErrors : s.socket.NoSendErrors
  outPending : s.outPending = []
  sent : (audited s.log).flatten = s.socket.wire

theorem AuditExact.path {s s' : OuchSession} {calls : List (OuchSession × Bytes)} (h : s.AuditExact)
    (hp : Path s calls s') (hw : ∀ c ∈ calls, Whole c) : s'.AuditExact := by
  induction hp with
  | nil s => exact h
  | unsent hs _ ih =>
    refine ih ⟨⟨hs.isOpen.trans h.noErrors.1, ?_⟩, hs.outPending.trans h.outPending, ?_⟩ hw
    · rw [hs.sends]
      exact h.noErrors.2
    · rw [hs.audited_eq, hs.wire]
      exact h.sent
  | @flush s s' calls _ ih =>
    -- nothing is stashed, so there is nothing to send
    have hnil : s.socket.drain s.outPending = ⟨none, [], s.socket⟩ := by
      rw [h.outPending]
      rfl
    refine ih ⟨(h.noErrors.drain s.outPending).2, ?_, ?_⟩ hw
    · rw [flushPending, hnil]
    · rw [flushPending, hnil]
      exact h.sent
  | @write s s' calls buf _ ih =>
    rw [List.forall_mem_cons] at hw
    obtain ⟨hwhole, hw⟩ := hw
    refine ih ⟨(writeBytes_noErrors h.noErrors buf).2, ?_, ?_⟩ hw
    · rw [writeBytes_whole h.noErrors hwhole]
      exact h.outPending
    · obtain ⟨n, hn, hwire, hleft, -, -⟩ := s.socket.drain_spec buf
      have hall : buf.take n = buf := by
        rw [(TcpSocket.drain_left h.noErrors.1 buf).2 hwhole] at hleft
        exact List.take_of_length_le (List.drop_eq_nil_iff.1 hleft.symm)
      rw [writeBytes_whole h.noErrors hwhole, audited_wrote, List.flatten_append, List.flatten_singleton]
      have hsent : (audited s.log).flatten = s.socket.wire := h.sent
      simp only [wrote, emit, tick, withSocket, hwire, hall, hsent]

/-- Along a run without send errors, the audit has every byte sent and waiting
exactly when every write is taken whole. -/
theorem audited_all_iff {s : OuchSession} {ops : List Op} (h : s.AuditExact) :
    (run step s ops).outbound ≤ (audited (run step s ops).log).flatten.length ↔ AllAlong step WritesWhole s ops := by
  have hiff : ((run step s ops).socket.NoSendErrors →
      (run step s ops).outbound ≤ (audited (run step s ops).log).flatten.length) ↔ AllAlong step WritesWhole s ops := by
    refine run_iff_allAlong AuditExact
      (fun s : OuchSession => s.socket.NoSendErrors → s.outbound ≤ (audited s.log).flatten.length) ?_ ?_ ?_ ?_ h
    · intro s op h hw
      exact h.path (path_step h.noErrors op) hw
    · intro s op h hnot hlast
      have hp := path_step h.noErrors op
      have hacc := hp.account h.noErrors
      have hle := hlast (hp.noErrors h.noErrors)
      have hlost : unaudited (s.writes op) ≠ 0 := mt unaudited_eq_zero.1 hnot
      have hstart : s.outbound = (audited s.log).flatten.length := by
        rw [outbound, h.sent, h.outPending]
        rfl
      omega
    · -- a shortfall is never made up for
      intro s op hlast hk
      have hp := path_step hk op
      have hacc := hp.account hk
      have hle := hlast (hp.noErrors hk)
      omega
    · intro s h _
      rw [outbound, h.sent, h.outPending]
      exact le_rfl
  rw [← hiff]
  exact ⟨fun h _ => h, fun hr => hr (noErrors_run h.noErrors ops)⟩

theorem Fresh.auditExact {s : OuchSession} (h : s.Fresh) (hk : s.socket.NoSendErrors) : s.AuditExact :=
  ⟨hk, h.outPending, by rw [h.log, h.wire]; rfl⟩

/-- Once nothing is stashed, the audited spans are the bytes on the wire
exactly when the socket took every write of the run whole. -/
theorem audit_exact_iff {s : OuchSession} {ops : List Op} (hfresh : s.Fresh) (hk : s.socket.NoSendErrors)
    (hflushed : (run step s ops).outPending = []) :
    (audited (run step s ops).log).flatten = (run step s ops).socket.wire ↔ AllAlong step WritesWhole s ops := by
  have hstart := hfresh.auditExact hk
  constructor
  · intro h
    refine (audited_all_iff hstart).1 ?_
    rw [outbound, hflushed, h]
    exact le_rfl
  · intro h
    exact (run_inv AuditExact (fun s op h hw => h.path (path_step h.noErrors op) hw) hstart h).sent

theorem audit_exact_iff_login :
    (audited (run step inPieces loginAndCancel).log).flatten = (run step inPieces loginAndCancel).socket.wire ↔
      AllAlong step WritesWhole inPieces loginAndCancel :=
  audit_exact_iff inPieces_fresh inPieces_noErrors (by decide)

/-- A session whose socket takes twenty bytes of the login and the rest later. -/
def hesitant : OuchSession :=
  create { sends := [.accept 20, .accept 0, .accept 29] } { reading := fun _ => 0 }
    { username := ascii "OUCH01", password := ascii "secret" } Soup.heartbeatSendNs

/-- The poll sends the rest of the login, and the audit has heard of none of it. -/
theorem stashed_login_unaudited :
    hesitant.Fresh ∧ hesitant.socket.NoSendErrors ∧
      let s := run step hesitant [.beginLogin, .pollIo]
      s.outPending = [] ∧ s.socket.wire = (loginRequest s.login).bytes ∧ audited s.log = [] := by
  refine ⟨⟨rfl, rfl, rfl, rfl, rfl, rfl, rfl, rfl⟩, ⟨rfl, ?_⟩, by decide⟩
  intro a ha
  simp only [hesitant, create, List.mem_cons, List.not_mem_nil, or_false] at ha
  rcases ha with rfl | rfl | rfl <;> exact ⟨_, rfl⟩

end OuchSession

end BistColo.Ouch
