import BistColo.Ouch.Writing
/-!
# The heartbeat cadence

`tick_timers` sends a heartbeat when the last send is `heartbeat_send_ns` ago.
Only a write that goes out whole counts as a send, so the cadence holds along
runs whose packets all do (`cadence_kept`). A packet that is stashed does not
restart the timer: `stashed_heartbeats_repeat` is a session that issues two
heartbeats at one reading of the clock.
-/

open StreamKit

namespace BistColo.Ouch

open Soup

namespace OuchSession

/-! ## The packets of a run -/

/-- The `write_bytes` call that ends a packet, if the operation issues one. -/
def lastWrite (s : OuchSession) (op : Op) : Option (OuchSession × Bytes) := (s.writes op).getLast?

/-- When the operation issues its packet, if it does: the reading of the clock
at the call that ends it. -/
def issuedAt (s : OuchSession) (op : Op) : List UInt64 := ((s.lastWrite op).map fun c => c.1.now).toList

/-- When the packets of a run are issued. -/
def issued : OuchSession → List Op → List UInt64
  | _, [] => []
  | s, op :: ops => s.issuedAt op ++ (s.step op).issued ops

/-- The session of a poll when `tick_timers` reads the clock, if it is Active then. -/
def ticking (s : OuchSession) : Option OuchSession :=
  match s.readSome with
  | (.error _, _) => none
  | (.ok (), s) =>
    match s.parsePending with
    | (.error _, _) => none
    | (.ok (), s) => if s.flushPending.state = .active then some s.flushPending else none

/-- At a poll, a heartbeat is at least the interval later than every packet
issued before; and if the poll succeeds on an Active session, some packet was
issued less than the interval before the reading of its tick. -/
structure PollPaced (s : OuchSession) (past : List UInt64) : Prop where
  apart : ∀ j ∈ s.issuedAt .pollIo, ∀ i ∈ past, i.toNat + s.heartbeatSendNs.toNat ≤ j.toNat
  recent : s.pollIo.1 = .ok () → ∀ f, s.ticking = some f →
    ∃ i ∈ past ++ s.issuedAt .pollIo, f.now.toNat < i.toNat + s.heartbeatSendNs.toNat

/-- Every poll of the run is. -/
def Cadence (s : OuchSession) (ops : List Op) : Prop :=
  ∀ pre post, ops = pre ++ .pollIo :: post → PollPaced (run step s pre) (s.issued pre)

/-- The call that ends the operation's packet goes out whole. -/
def EndsWhole (s : OuchSession) (op : Op) : Prop := ∀ c ∈ (s.lastWrite op).toList, Whole c

instance (s : OuchSession) (op : Op) : Decidable (s.EndsWhole op) := List.decidableBAll _ _

/-! ## The timer along a path -/

/-- The clock does not go back, and the last send is not in the future. -/
structure Timed (s : OuchSession) : Prop where
  forward : ∀ n m, n ≤ m → s.clock.reading n ≤ s.clock.reading m
  lastSend : s.lastSendNs ≤ s.now

theorem Timed.unsent {s s' : OuchSession} (h : s.Timed) (hq : Unsent s s') : s'.Timed ∧ s.now ≤ s'.now := by
  have hlater : s.now ≤ s'.now := by
    rw [now, now, Clock.monotonicNs, Clock.monotonicNs, hq.reading]
    exact h.forward _ _ hq.ticks
  refine ⟨⟨?_, ?_⟩, hlater⟩
  · rw [hq.reading]
    exact h.forward
  · rw [hq.lastSendNs]
    exact UInt64.le_trans h.lastSend hlater

/-- A write restarts the timer if it goes out whole, and else leaves it alone. -/
theorem lastSendNs_writeBytes {s : OuchSession} (hk : s.socket.NoSendErrors) (buf : Bytes) :
    (s.writeBytes buf).2.lastSendNs = if Whole (s, buf) then s.now else s.lastSendNs := by
  by_cases h : Whole (s, buf)
  · rw [writeBytes_whole hk h, if_pos h]
    rfl
  · rw [writeBytes_stash hk h, if_neg h]
    rfl

theorem Timed.writeBytes {s : OuchSession} (h : s.Timed) (hk : s.socket.NoSendErrors) (buf : Bytes) :
    (s.writeBytes buf).2.Timed ∧ s.lastSendNs ≤ (s.writeBytes buf).2.lastSendNs := by
  by_cases hw : Whole (s, buf)
  · rw [writeBytes_whole hk hw]
    exact ⟨⟨h.forward, h.forward _ _ (Nat.le_succ _)⟩, h.lastSend⟩
  · rw [writeBytes_stash hk hw]
    exact ⟨⟨h.forward, h.lastSend⟩, UInt64.le_refl _⟩

theorem Path.timed {s s' : OuchSession} {calls : List (OuchSession × Bytes)} (hp : Path s calls s')
    (hk : s.socket.NoSendErrors) (h : s.Timed) :
    s'.Timed ∧ s.lastSendNs ≤ s'.lastSendNs := by
  induction hp with
  | nil s => exact ⟨h, UInt64.le_refl _⟩
  | unsent hs _ ih =>
    have hrest := ih ⟨hs.isOpen.trans hk.1, by rw [hs.sends]; exact hk.2⟩ (h.unsent hs).1
    rw [hs.lastSendNs] at hrest
    exact hrest
  | @flush s _ _ _ ih => exact ih (hk.drain s.outPending).2 ⟨h.forward, h.lastSend⟩
  | @write s _ _ buf _ ih =>
    obtain ⟨hwrite, hle⟩ := h.writeBytes hk buf
    obtain ⟨ht, hle'⟩ := ih (writeBytes_noErrors hk buf).2 hwrite
    exact ⟨ht, UInt64.le_trans hle hle'⟩

theorem Path.heartbeatSendNs {s s' : OuchSession} {calls : List (OuchSession × Bytes)} (hp : Path s calls s') :
    s'.heartbeatSendNs = s.heartbeatSendNs := by
  induction hp with
  | nil s => rfl
  | unsent hs _ ih => exact ih.trans hs.heartbeatSendNs
  | flush _ ih => exact ih
  | @write s _ _ buf _ ih =>
    refine ih.trans ?_
    unfold writeBytes
    dsimp only
    split
    · rfl
    · split
      · rfl
      · rfl

/-- After a path the timer stands at its last call, if that went out whole. -/
theorem Path.lastSend {s s' : OuchSession} {calls : List (OuchSession × Bytes)} (hp : Path s calls s')
    (hk : s.socket.NoSendErrors) (hw : ∀ c ∈ calls.getLast?.toList, Whole c) :
    s'.lastSendNs = (calls.getLast?.map fun c => c.1.now).getD s.lastSendNs := by
  induction hp with
  | nil s => rfl
  | unsent hs _ ih =>
    rw [ih ⟨hs.isOpen.trans hk.1, by rw [hs.sends]; exact hk.2⟩ hw, hs.lastSendNs]
  | @flush s _ _ _ ih => exact ih (hk.drain s.outPending).2 hw
  | @write s s' calls buf _ ih =>
    cases calls with
    | nil =>
      have hwhole : Whole (s, buf) := hw _ List.mem_cons_self
      rw [ih (writeBytes_noErrors hk buf).2 (fun c hc => absurd hc List.not_mem_nil), lastSendNs_writeBytes hk,
        if_pos hwhole]
      rfl
    | cons c calls =>
      rw [List.getLast?_cons_cons] at hw ⊢
      rw [ih (writeBytes_noErrors hk buf).2 hw, List.getLast?_cons]
      rfl

/-! ## One operation -/

/-- The tick of a poll comes after reading and flushing, which send nothing new. -/
theorem ticking_spec {s f : OuchSession} (h : s.Timed) (hf : s.ticking = some f) :
    f.Timed ∧ f.lastSendNs = s.lastSendNs ∧ f.heartbeatSendNs = s.heartbeatSendNs ∧
      s.writes .pollIo = f.tick.heartbeatWrites f.now := by
  have hr := unsent_readSome s
  unfold ticking at hf
  unfold writes
  rcases he : s.readSome with ⟨e | ⟨⟩, s1⟩
  · rw [he] at hf
    cases hf
  · rw [he] at hf hr
    have hp := unsent_parsePending s1
    dsimp only at hf ⊢
    rcases hpe : s1.parsePending with ⟨e | ⟨⟩, s2⟩
    · rw [hpe] at hf
      cases hf
    · rw [hpe] at hf hp
      dsimp only at hf ⊢
      by_cases hactive : s2.flushPending.state = .active
      · rw [if_pos hactive, Option.some.injEq] at hf
        subst hf
        have hq := hr.trans hp
        have ht := (h.unsent hq).1
        refine ⟨⟨ht.forward, ht.lastSend⟩, hq.lastSendNs, hq.heartbeatSendNs, ?_⟩
        simp only [hactive, true_and]
        rfl
      · rw [if_neg hactive] at hf
        cases hf

/-- A poll that has no tick writes nothing. -/
theorem writes_not_ticking {s : OuchSession} (h : s.ticking = none) : s.writes .pollIo = [] := by
  unfold ticking at h
  unfold writes
  rcases he : s.readSome with ⟨e | ⟨⟩, s1⟩
  · rfl
  · rw [he] at h
    dsimp only at h ⊢
    rcases hpe : s1.parsePending with ⟨e | ⟨⟩, s2⟩
    · rfl
    · rw [hpe] at h
      dsimp only at h ⊢
      by_cases hactive : s2.flushPending.state = .active
      · rw [if_pos hactive] at h
        cases h
      · exact if_neg fun hand => hactive hand.1

/-- The timer stands at the last packet, and no packet is later. -/
structure Timer (s : OuchSession) (past : List UInt64) : Prop where
  noErrors : s.socket.NoSendErrors
  timed : s.Timed
  none_later : ∀ i ∈ past, i ≤ s.lastSendNs
  last : past ≠ [] → s.lastSendNs ∈ past

theorem Timer.step {s : OuchSession} {past : List UInt64} (h : s.Timer past) {op : Op} (hw : s.EndsWhole op) :
    (s.step op).Timer (past ++ s.issuedAt op) := by
  have hp := path_step h.noErrors op
  obtain ⟨ht, hle⟩ := hp.timed h.noErrors h.timed
  have hlast := hp.lastSend h.noErrors hw
  refine ⟨noErrors_step h.noErrors op, ht, ?_, ?_⟩
  · intro i hi
    rcases List.mem_append.1 hi with hi | hi
    · exact UInt64.le_trans (h.none_later i hi) hle
    · -- a packet of this operation set the timer itself
      rw [issuedAt, lastWrite, Option.mem_toList] at hi
      rw [hlast, hi]
      exact UInt64.le_refl _
  · intro hne
    rw [List.mem_append, hlast, issuedAt, lastWrite]
    cases hc : (s.writes op).getLast? with
    | none =>
      rw [issuedAt, lastWrite, hc] at hne
      rw [Option.map_none, Option.toList_none, List.append_nil] at hne
      exact .inl (h.last hne)
    | some c => exact .inr (by simp)

theorem Timer.pollPaced {s : OuchSession} {past : List UInt64} (h : s.Timer past) (hpast : past ≠ [])
    (hpos : 0 < s.heartbeatSendNs.toNat) : PollPaced s past := by
  cases htick : s.ticking with
  | none =>
    have hnone : s.issuedAt .pollIo = [] := by
      rw [issuedAt, lastWrite, writes_not_ticking htick]
      rfl
    constructor
    · intro j hj
      rw [hnone] at hj
      cases hj
    · intro _ f hf
      rw [htick] at hf
      cases hf
  | some f =>
    obtain ⟨hft, hsend, hhb, hwrites⟩ := ticking_spec h.timed htick
    have hlater : f.now.toNat ≤ f.tick.now.toNat := UInt64.le_iff_toNat_le.1 (hft.forward _ _ (Nat.le_succ _))
    have hlast : f.lastSendNs.toNat ≤ f.now.toNat := UInt64.le_iff_toNat_le.1 hft.lastSend
    have hsince : (f.now - f.lastSendNs).toNat = f.now.toNat - f.lastSendNs.toNat :=
      UInt64.toNat_sub_of_le _ _ hft.lastSend
    have hinterval : f.heartbeatSendNs.toUInt64.toNat = s.heartbeatSendNs.toNat := by
      rw [hhb]
      exact UInt32.toNat_toUInt64 _
    by_cases hdue : f.tick.heartbeatSendNs.toUInt64 ≤ f.now - f.tick.lastSendNs
    · -- the timer has run out, so the last packet is at least the interval old
      have hissued : s.issuedAt .pollIo = [f.tick.now] := by
        rw [issuedAt, lastWrite, hwrites, heartbeatWrites, if_pos hdue]
        rfl
      have hold : f.lastSendNs.toNat + s.heartbeatSendNs.toNat ≤ f.now.toNat := by
        have hd : f.heartbeatSendNs.toUInt64.toNat ≤ (f.now - f.lastSendNs).toNat := UInt64.le_iff_toNat_le.1 hdue
        omega
      constructor
      · intro j hj i hi
        rw [hissued, List.mem_singleton] at hj
        have hi' : i.toNat ≤ f.lastSendNs.toNat := by
          rw [hsend]
          exact UInt64.le_iff_toNat_le.1 (h.none_later i hi)
        rw [hj]
        omega
      · intro _ g hg
        rw [htick, Option.some.injEq] at hg
        subst hg
        exact ⟨f.tick.now, by simp [hissued], by omega⟩
    · have hissued : s.issuedAt .pollIo = [] := by
        rw [issuedAt, lastWrite, hwrites, heartbeatWrites, if_neg hdue]
        rfl
      constructor
      · intro j hj
        rw [hissued] at hj
        cases hj
      · intro _ g hg
        rw [htick, Option.some.injEq] at hg
        subst hg
        refine ⟨s.lastSendNs, List.mem_append_left _ (h.last hpast), ?_⟩
        have hd : ¬ f.heartbeatSendNs.toUInt64.toNat ≤ (f.now - f.lastSendNs).toNat :=
          mt UInt64.le_iff_toNat_le.2 hdue
        rw [← hsend]
        omega

/-! ## Runs -/

theorem heartbeatSendNs_run {s : OuchSession} (hk : s.socket.NoSendErrors) (ops : List Op) :
    (run step s ops).heartbeatSendNs = s.heartbeatSendNs := by
  have h : (run step s ops).socket.NoSendErrors ∧ (run step s ops).heartbeatSendNs = s.heartbeatSendNs :=
    run_inv_all (fun s' : OuchSession => s'.socket.NoSendErrors ∧ s'.heartbeatSendNs = s.heartbeatSendNs)
      (fun s' op h => ⟨noErrors_step h.1 op, (path_step h.1 op).heartbeatSendNs.trans h.2⟩) ⟨hk, rfl⟩
  exact h.2

theorem Timer.run {s : OuchSession} {past : List UInt64} (h : s.Timer past) {ops : List Op}
    (hw : AllAlong OuchSession.step EndsWhole s ops) :
    (StreamKit.run OuchSession.step s ops).Timer (past ++ s.issued ops) := by
  induction ops generalizing s past with
  | nil =>
    rw [issued, List.append_nil]
    exact h
  | cons op ops ih =>
    have hrest := ih (h.step hw.1) hw.2
    rw [List.append_assoc] at hrest
    exact hrest

/-- A session that logs in first keeps the cadence along every run whose
packets all end with a whole write. -/
theorem cadence_kept {s : OuchSession} {ops : List Op} (hk : s.socket.NoSendErrors)
    (hclock : ∀ n m, n ≤ m → s.clock.reading n ≤ s.clock.reading m) (hlast : s.lastSendNs = 0)
    (hpos : 0 < s.heartbeatSendNs.toNat) (hw : AllAlong step EndsWhole s (.beginLogin :: ops)) :
    Cadence s (.beginLogin :: ops) := by
  have hstart : s.Timer [] := by
    refine ⟨hk, ⟨hclock, ?_⟩, fun i hi => absurd hi List.not_mem_nil, fun hne => absurd rfl hne⟩
    rw [hlast]
    exact UInt64.zero_le
  intro pre post hops
  cases pre with
  | nil => cases hops
  | cons op pre =>
    -- the run begins with the login, so a packet was issued before the poll
    obtain ⟨rfl, hops⟩ := List.cons.inj hops
    have hpre : AllAlong step EndsWhole s (.beginLogin :: pre) := by
      rw [hops, allAlong_append] at hw
      exact hw.1
    have htimer := hstart.run hpre
    have hfirst : s.issued (.beginLogin :: pre) ≠ [] := by
      have hlogin : s.issuedAt .beginLogin ≠ [] := by
        rw [issuedAt, lastWrite, writes, if_neg (by simp [hk.1])]
        exact List.cons_ne_nil _ _
      rw [issued]
      exact fun hnil => hlogin (List.append_eq_nil_iff.1 hnil).1
    rw [List.nil_append] at htimer
    refine htimer.pollPaced hfirst ?_
    rw [heartbeatSendNs_run hk]
    exact hpos

/-- A clock that jumps once does not go back. -/
theorem jump_forward (k : Nat) (c : UInt64) (n m : Nat) (hnm : n ≤ m) :
    (if n < k then 0 else c) ≤ if m < k then 0 else c := by
  split
  · exact UInt64.zero_le
  · rw [if_neg (by omega)]
    exact UInt64.le_refl _

theorem cadence_kept_login :
    inPieces.issued loginAndCancel = [0, 0, 1000000000] ∧ Cadence inPieces loginAndCancel :=
  ⟨by decide, cadence_kept inPieces_noErrors (jump_forward 5 1000000000) rfl (by decide) (by decide)⟩

/-- A session that logs in and is not polled for a second, by when its socket takes nothing. -/
def neglected : OuchSession :=
  { stalling with
    socket := { stalling.socket with sends := [.accept 49] }
    clock := { reading := fun n => if n < 2 then 0 else 1000000000 } }

/-- Both polls issue a heartbeat, at the same reading of the clock. -/
theorem stashed_heartbeats_repeat :
    neglected.Fresh ∧ neglected.socket.NoSendErrors ∧
      (∀ n m, n ≤ m → neglected.clock.reading n ≤ neglected.clock.reading m) ∧
      (run step neglected [.beginLogin, .pollIo]).state = .active ∧
      neglected.issued [.beginLogin, .pollIo, .pollIo] = [0, 1000000000, 1000000000] ∧
      ¬ Cadence neglected [.beginLogin, .pollIo, .pollIo] := by
  have hissued : neglected.issued [.beginLogin, .pollIo, .pollIo] = [0, 1000000000, 1000000000] := by decide
  refine ⟨⟨rfl, rfl, rfl, rfl, rfl, rfl, rfl, rfl⟩, ⟨rfl, ?_⟩, jump_forward 2 1000000000, by decide, hissued, ?_⟩
  · intro a ha
    exact ⟨49, List.mem_singleton.1 ha⟩
  · intro h
    have hpaced := (h [.beginLogin, .pollIo] [] rfl).apart
    exact absurd (hpaced 1000000000 (by decide) 1000000000 (by decide)) (by decide)

end OuchSession

end BistColo.Ouch
