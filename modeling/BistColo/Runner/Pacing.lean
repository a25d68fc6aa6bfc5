import BistColo.Domain.RollingSecond
import BistColo.Runner.Bursts
import BistColo.StreamKit.Served
/-!
# The pace of a burst

`run_burst_place` on a clock that nothing moves but its own sleeps: 200 µs after
each attempt that the throttler refuses, and up to the next order's time after
each order that is sent. `burst_sends_all_iff` says which bursts are sent in
full: the throttler has room for each order within 199.8 ms.
-/

open StreamKit

namespace BistColo.Runner

open Ouch OuchClient Domain Throttler

namespace ScenarioRunner

/-! ## The clock -/

/-- A request of the client at a time of the clock. -/
def requestAt (r : ScenarioRunner) (now : UInt64) (q : Request) : Result Unit × ScenarioRunner :=
  let p := r.client.call now q
  (p.1, r.withClient p.2)

/-- `burstSend`, and the time behind it. -/
def burstSendAt (args : Ouch.PlaceArgs) : Nat → UInt64 → ScenarioRunner → Except String Unit × UInt64 × ScenarioRunner
  | 0, now, r => (.error "", now, r)
  | attempts + 1, now, r =>
    match r.requestAt now (.place args) with
    | (.ok (), r) => (.ok (), now, r)
    | (.error e, r) =>
      if e.category ≠ .throttled then (.error e.detail, now, r)
      else burstSendAt args attempts (now + 200000) r.pollIo.2

def periodNs (a : BurstPlaceArgs) : UInt64 := 1000000000 / a.ratePerSec.toUInt64

/-- `burstLoop`, with the sleep behind each order. -/
def burstLoopAt (s : Step) (a : BurstPlaceArgs) (tStart : UInt64) :
    Nat → Nat → (Nat → UInt64) → UInt64 → ScenarioRunner → StepResult × ScenarioRunner
  | 0, i, _, _, r =>
    ({ s.passed with
      detail := "sent " ++ text (decText i) ++ " orders @ ~" ++ text (decText a.ratePerSec.toNat) ++ "/s" }, r)
  | left + 1, i, seq, now, r =>
    match a.pattern[i % a.pattern.length]? with
    | none => (s.result, r)
    | some pat =>
      match r.instruments.findBySymbol pat.symbol with
      | none => (s.failed ("unknown symbol in burst_place: " ++ text pat.symbol), r)
      | some inst =>
        let k := i % a.pattern.length
        match burstSendAt (burstArgs inst pat (seq k)) 1000 now r with
        | (.error why, _, r) =>
          (s.failed ("burst_place send #" ++ text (decText (i + 1)) ++ " failed: " ++
            if why = "" then "throttle retry exhausted" else why), r)
        | (.ok (), now, r) =>
          let target := tStart + UInt64.ofNat (i + 1) * periodNs a
          burstLoopAt s a tStart left (i + 1) (Function.update seq k (seq k + 1)) (if now < target then target else now) r

def runBurstPlaceAt (r : ScenarioRunner) (tStart : UInt64) (s : Step) (a : BurstPlaceArgs) : StepResult × ScenarioRunner :=
  if a.count = 0 ∨ a.pattern = [] then (s.failed "burst_place needs count > 0 and a non-empty pattern", r)
  else if a.ratePerSec = 0 then (s.failed "burst_place needs rate_per_sec > 0", r)
  else burstLoopAt s a tStart a.count.toNat 0 (fun _ => 0) tStart r

/-! ## The throttler's clock -/

def withThrottle (r : ScenarioRunner) (c : Clock) : ScenarioRunner := { r with around := { r.around with throttle := c } }

/-- The times of the attempts of `burstSendAt`. -/
def sendTimes (args : Ouch.PlaceArgs) : Nat → UInt64 → ScenarioRunner → List UInt64
  | 0, _, _ => []
  | attempts + 1, now, r =>
    now :: match r.requestAt now (.place args) with
      | (.ok (), _) => []
      | (.error e, r) => if e.category ≠ .throttled then [] else sendTimes args attempts (now + 200000) r.pollIo.2

/-- The times of all attempts of `burstLoopAt`. -/
def loopTimes (a : BurstPlaceArgs) (tStart : UInt64) : Nat → Nat → (Nat → UInt64) → UInt64 → ScenarioRunner → List UInt64
  | 0, _, _, _, _ => []
  | left + 1, i, seq, now, r =>
    match a.pattern[i % a.pattern.length]? with
    | none => []
    | some pat =>
      match r.instruments.findBySymbol pat.symbol with
      | none => []
      | some inst =>
        let k := i % a.pattern.length
        sendTimes (burstArgs inst pat (seq k)) 1000 now r ++
          match burstSendAt (burstArgs inst pat (seq k)) 1000 now r with
          | (.error _, _, _) => []
          | (.ok (), now, r) =>
            let target := tStart + UInt64.ofNat (i + 1) * periodNs a
            loopTimes a tStart left (i + 1) (Function.update seq k (seq k + 1)) (if now < target then target else now) r

/-- The clock reads these times from the next reading on. -/
def Tells (c : Clock) (times : List UInt64) : Prop := ∀ k (hk : k < times.length), c.reading (c.ticks + k) = times[k]

theorem request_at {r : ScenarioRunner} {c : Clock} {now : UInt64} (h : c.reading c.ticks = now) (q : Request) :
    (r.withThrottle c).request q = ((r.requestAt now q).1, (r.requestAt now q).2.withThrottle c.monotonicNs.2) := by
  subst h
  rfl

theorem pollIo_at (r : ScenarioRunner) (c : Clock) :
    (r.withThrottle c).pollIo = (r.pollIo.1, r.pollIo.2.withThrottle c) := rfl

theorem Tells.next {c : Clock} {now : UInt64} {times : List UInt64} (h : Tells c (now :: times)) :
    c.reading c.ticks = now ∧ Tells c.monotonicNs.2 times := by
  refine ⟨h 0 (Nat.succ_pos _), fun k hk => ?_⟩
  have hread := h (k + 1) (Nat.succ_lt_succ hk)
  rwa [← Nat.add_assoc, Nat.add_right_comm] at hread

theorem Tells.append {c : Clock} {times times' : List UInt64} (h : Tells c (times ++ times')) :
    Tells c times ∧ Tells { c with ticks := c.ticks + times.length } times' := by
  constructor
  · intro k hk
    rw [h k (by rw [List.length_append]; omega), List.getElem_append_left hk]
  · intro k hk
    have hread := h (times.length + k) (by rw [List.length_append]; omega)
    rw [List.getElem_append_right (Nat.le_add_right _ _)] at hread
    simpa [Nat.add_assoc] using hread

theorem burstSend_at {args : Ouch.PlaceArgs} {attempts : Nat} {now : UInt64} {r : ScenarioRunner} {c : Clock}
    (h : Tells c (sendTimes args attempts now r)) : burstSend args attempts (r.withThrottle c) =
      ((burstSendAt args attempts now r).1,
        (burstSendAt args attempts now r).2.2.withThrottle
          { c with ticks := c.ticks + (sendTimes args attempts now r).length }) := by
  induction attempts generalizing now r c with
  | zero => rfl
  | succ attempts ih =>
    rw [sendTimes] at h ⊢
    obtain ⟨hnow, hrest⟩ := h.next
    rw [burstSend, burstSendAt, request_at hnow]
    rcases hrequest : r.requestAt now (.place args) with ⟨_ | _, r'⟩
    · rename_i e
      rw [hrequest] at hrest
      dsimp only at hrest ⊢
      by_cases hcategory : e.category ≠ .throttled
      · rw [if_pos hcategory, if_pos hcategory, if_pos hcategory]
        rfl
      · rw [if_neg hcategory] at hrest ⊢
        rw [if_neg hcategory, if_neg hcategory, pollIo_at, ih hrest, List.length_cons, ← Nat.add_assoc, Nat.add_right_comm]
        rfl
    · rfl

theorem burstLoop_at {s : Step} {a : BurstPlaceArgs} {tStart : UInt64} {left i : Nat} {seq : Nat → UInt64} {now : UInt64}
    {r : ScenarioRunner} {c : Clock} (h : Tells c (loopTimes a tStart left i seq now r)) :
    burstLoop s a left i seq (r.withThrottle c) =
      ((burstLoopAt s a tStart left i seq now r).1, (burstLoopAt s a tStart left i seq now r).2.withThrottle
        { c with ticks := c.ticks + (loopTimes a tStart left i seq now r).length }) := by
  induction left generalizing i seq now r c with
  | zero => rfl
  | succ left ih =>
    rw [loopTimes] at h ⊢
    rw [burstLoop, burstLoopAt]
    cases hpat : a.pattern[i % a.pattern.length]? with
    | none => rfl
    | some pat =>
      simp only [hpat] at h ⊢
      cases hinst : r.instruments.findBySymbol pat.symbol with
      | none =>
        have hinst' : (r.withThrottle c).instruments.findBySymbol pat.symbol = none := hinst
        simp only [hinst']
        rfl
      | some inst =>
        have hinst' : (r.withThrottle c).instruments.findBySymbol pat.symbol = some inst := hinst
        simp only [hinst, hinst'] at h ⊢
        obtain ⟨hsend, hrest⟩ := h.append
        rw [burstSend_at hsend]
        rcases hsent : burstSendAt (burstArgs inst pat (seq (i % a.pattern.length))) 1000 now r with ⟨_ | _, now', r'⟩
        · simp
        · simp only [hsent] at hrest ⊢
          rw [ih hrest, List.length_append, ← Nat.add_assoc]
/-- With a clock that tells these times, the step is the burst of the replay. -/
theorem runBurstPlace_at (r : ScenarioRunner) (tStart : UInt64) (s : Step) (a : BurstPlaceArgs) {c : Clock}
    (h : Tells c (loopTimes a tStart a.count.toNat 0 (fun _ => 0) tStart r)) : ∃ c', (r.withThrottle c).runBurstPlace s a =
      ((r.runBurstPlaceAt tStart s a).1, (r.runBurstPlaceAt tStart s a).2.withThrottle c') := by
  unfold runBurstPlace runBurstPlaceAt
  split
  · exact ⟨c, rfl⟩
  · split
    · exact ⟨c, rfl⟩
    · exact ⟨_, burstLoop_at h⟩

end ScenarioRunner

/-! ## Sessions that send -/

/-- In these sessions every send succeeds, and neither sends nor polls lead out of them. -/
structure Willing (Q : OuchSession → Prop) : Prop where
  send : ∀ s m, Q s → (s.send m).1 = .ok () ∧ Q (s.send m).2
  poll : ∀ s, Q s → Q s.pollIo.2

/-- An active session whose socket takes bytes and delivers none. It has heard
nothing since the login, so there is nothing for its watchdog to wait for. -/
structure Quiet (s : OuchSession) : Prop where
  active : s.state = .active
  accepts : s.socket.NoSendErrors
  silent : s.socket.recvs = []
  inBuffer : s.inBuffer = []
  unheard : s.lastRecvNs = 0

theorem Quiet.writeBytes {s : OuchSession} (h : Quiet s) (buf : Bytes) :
    (s.writeBytes buf).1 = .ok () ∧ Quiet (s.writeBytes buf).2 := by
  obtain ⟨herror, haccepts⟩ := h.accepts.drain buf
  obtain ⟨-, -, -, -, -, hsame⟩ := TcpSocket.drain_spec s.socket buf
  have hsilent : (s.socket.drain buf).socket.recvs = [] := hsame.2.1.trans h.silent
  unfold OuchSession.writeBytes
  simp only [herror]
  split
  · exact ⟨rfl, h.active, haccepts, hsilent, h.inBuffer, h.unheard⟩
  · exact ⟨rfl, h.active, haccepts, hsilent, h.inBuffer, h.unheard⟩

theorem Quiet.sendUnsequenced {s : OuchSession} (h : Quiet s) (payload : Bytes) :
    (s.sendUnsequenced payload).1 = .ok () ∧ Quiet (s.sendUnsequenced payload).2 := by
  have hemit : ∀ e, Quiet (s.emit e) := fun e => ⟨h.active, h.accepts, h.silent, h.inBuffer, h.unheard⟩
  unfold OuchSession.sendUnsequenced
  rw [if_neg (not_not_intro h.active)]
  dsimp only
  generalize (Soup.makeHeader Soup.Pkt.unsequencedData (UInt16.ofNat payload.length)).bytes = header
  have hheader := (hemit (.request (header ++ payload))).writeBytes header
  split
  · rename_i hwrite
    rw [hwrite] at hheader
    cases hheader.1
  · rename_i s' hwrite
    rw [hwrite] at hheader
    exact hheader.2.writeBytes payload

theorem Quiet.tickTimers {s : OuchSession} (h : Quiet s) : Quiet s.tickTimers.2 := by
  have hflush : Quiet s.flushPending := by
    obtain ⟨-, -, -, -, -, hsame⟩ := TcpSocket.drain_spec s.socket s.outPending
    exact ⟨h.active, (h.accepts.drain s.outPending).2, hsame.2.1.trans h.silent, h.inBuffer, h.unheard⟩
  have hbeat : (s.flushPending.tick.sendHeartbeat s.flushPending.now).1 = .ok () ∧
      Quiet (s.flushPending.tick.sendHeartbeat s.flushPending.now).2 := by
    have hquiet : Quiet s.flushPending.tick :=
      ⟨hflush.active, hflush.accepts, hflush.silent, hflush.inBuffer, hflush.unheard⟩
    unfold OuchSession.sendHeartbeat
    dsimp only
    split
    · have hemit : Quiet (s.flushPending.tick.emit (.request (Soup.makeHeader Soup.Pkt.clientHeartbeat 0).bytes)) :=
        ⟨hquiet.active, hquiet.accepts, hquiet.silent, hquiet.inBuffer, hquiet.unheard⟩
      exact hemit.writeBytes _
    · exact ⟨rfl, hquiet⟩
  unfold OuchSession.tickTimers
  dsimp only
  rw [if_neg (not_not_intro hflush.active)]
  split
  · rename_i hsend
    rw [hsend] at hbeat
    exact hbeat.2
  · rename_i s' hsend
    rw [hsend] at hbeat
    unfold OuchSession.watchdog
    rw [if_neg fun hheard => hheard.1 hbeat.2.unheard]
    exact hbeat.2

theorem Quiet.pollIo {s : OuchSession} (h : Quiet s) : Quiet s.pollIo.2 := by
  have hread : s.readSome = (.ok (), s) := by
    simp [OuchSession.readSome, OuchSession.readLoop, TcpSocket.recv, OuchSession.withSocket, h.accepts.1, h.silent]
  have hparse : s.parsePending = (.ok (), s) := by
    simp [OuchSession.parsePending, OuchSession.parseLoop, h.inBuffer]
  unfold OuchSession.pollIo
  rw [hread]
  dsimp only
  rw [hparse]
  exact h.tickTimers

theorem Quiet.willing : Willing Quiet where
  send s m h := by
    rw [OuchSession.send_eq]
    exact h.sendUnsequenced m.bytes
  poll s h := h.pollIo
/-- A runner in the burst: what its throttler let through, up to which window,
the tokens it knows, and how many messages it handed over. -/
structure Standing (Q : OuchSession → Prop) (limit : UInt64) (table : InstrumentCache) (vs : List Nat) (w : UInt64)
    (seen : List Bytes) (handed : Nat) (r : ScenarioRunner) : Prop where
  stands : r.client.throttler.StandsFor vs w
  limit : r.client.throttler.limit = limit
  session : Q r.session
  seen : r.client.tokens.seen = seen
  handed : r.client.handed.length = handed
  table : r.instruments = table

section Burst

variable {Q : OuchSession → Prop} {limit : UInt64} {table : InstrumentCache} {vs : List Nat} {w now : UInt64}
  {seen : List Bytes} {handed : Nat} {r : ScenarioRunner}

/-- The throttler refuses while the ten windows are full, and only its slots change. -/
theorem Standing.refused (h : Standing Q limit table vs w seen handed r) (args : Ouch.PlaceArgs) (hw : w ≤ windowId now)
    (hfull : ¬ within 10 (windowId now).toNat vs < limit.toNat) :
    ∃ e r', r.requestAt now (.place args) = (.error e, r') ∧ e.category = .throttled ∧
      Standing Q limit table vs (windowId now) seen handed r' := by
  have hnow := h.stands.mono hw
  have hno : r.client.acquires now = false := by
    rw [acquires, Bool.eq_false_iff]
    intro hyes
    have hroom := hnow.tryAcquire_iff.1 hyes
    rw [h.limit] at hroom
    exact hfull hroom
  have hcall := call_throttled (r := .place args) rfl hno
  refine ⟨throttledError (.place args), r.withClient (r.client.tryAcquire now).2, ?_, rfl, ?_⟩
  · rw [ScenarioRunner.requestAt, hcall]
  · have hslots := hnow.tryAcquire
    rw [letIn, if_neg (by rw [h.limit]; exact hfull)] at hslots
    exact ⟨hslots, (limit_tryAcquire _ _).trans h.limit, h.session, h.seen, h.handed, h.table⟩

/-- A poll leaves everything but the session as it was. -/
theorem Standing.poll (hQ : Willing Q) (h : Standing Q limit table vs w seen handed r) :
    Standing Q limit table vs w seen handed r.pollIo.2 :=
  ⟨h.stands, h.limit, hQ.poll _ h.session, h.seen, h.handed, h.table⟩

/-- With room in the ten windows a new token is sent. -/
theorem Standing.sent (hQ : Willing Q) (h : Standing Q limit table vs w seen handed r) {args : Ouch.PlaceArgs}
    (hw : w ≤ windowId now) (hroom : within 10 (windowId now).toNat vs < limit.toNat) (htoken : args.explicitToken ≠ [])
    (hnew : args.explicitToken ∉ seen) :
    ∃ r', r.requestAt now (.place args) = (.ok (), r') ∧
      Standing Q limit table (vs ++ [(windowId now).toNat]) (windowId now) (seen ++ [args.explicitToken]) (handed + 1)
        r' := by
  have hnow := h.stands.mono hw
  have hyes : r.client.acquires now = true := hnow.tryAcquire_iff.2 (by rw [h.limit]; exact hroom)
  have hreaches : r.client.Reaches now (.place args) := ⟨rfl, hyes, rfl⟩
  have hadmits : r.client.Admits (.place args) := by
    rintro t ht hne
    cases ht
    rw [h.seen]
    exact hnew
  have hcall := call_submits hreaches hadmits
  have hsend := hQ.send (r.client.admitted now (.place args)).session
    ((Request.place args).message (r.client.claimed (.place args)).1) h.session
  refine ⟨r.withClient ((r.client.admitted now (.place args)).submit
    ((Request.place args).message (r.client.claimed (.place args)).1)).2, ?_, ?_⟩
  · rw [ScenarioRunner.requestAt, hcall]
    exact Prod.ext hsend.1 rfl
  · have hslots := hnow.tryAcquire
    rw [letIn, if_pos (by rw [h.limit]; exact hroom)] at hslots
    refine ⟨hslots, (limit_tryAcquire _ _).trans h.limit, hsend.2, ?_, ?_, h.table⟩
    · have hclaimed : (r.client.claimed (.place args)).2.seen = r.client.tokens.seen ++ [args.explicitToken] := by
        unfold claimed
        cases htext : args.explicitToken with
        | nil => exact absurd htext htoken
        | cons b t => simp [Request.claim, htext]
      exact hclaimed.trans (by rw [h.seen])
    · rw [← h.handed]
      exact List.length_append

/-- The throttler has room at this time. -/
def Room (limit : Nat) (vs : List Nat) (t : Nat) : Prop := within 10 (t / 100000000) vs < limit

theorem windowId_later {now later : UInt64} (h : now.toNat ≤ later.toNat) : windowId now ≤ windowId later :=
  windowId_mono (UInt64.le_iff_toNat_le.2 h)

theorem toNat_wait : (200000 : UInt64).toNat = 200000 := by simp only [UInt64.reduceToNat]

/-- The order is sent at the first attempt that finds room, if there is one. -/
theorem Standing.send (hQ : Willing Q) (h : Standing Q limit table vs w seen handed r) {args : Ouch.PlaceArgs}
    (hw : w ≤ windowId now) (htoken : args.explicitToken ≠ []) (hnew : args.explicitToken ∉ seen) {attempts : Nat}
    (hclock : ∀ k ≤ attempts, now.toNat + 200000 * k < 2 ^ 64) :
    (∃ k < attempts, (∀ j < k, ¬ Room limit.toNat vs (now.toNat + 200000 * j)) ∧
      Room limit.toNat vs (now.toNat + 200000 * k) ∧
      ∃ now' r', ScenarioRunner.burstSendAt args attempts now r = (.ok (), now', r') ∧
        now'.toNat = now.toNat + 200000 * k ∧
        Standing Q limit table (vs ++ [now'.toNat / 100000000]) (windowId now') (seen ++ [args.explicitToken])
          (handed + 1) r') ∨
    ((∀ k < attempts, ¬ Room limit.toNat vs (now.toNat + 200000 * k)) ∧
      ∃ why now' r', ScenarioRunner.burstSendAt args attempts now r = (.error why, now', r') ∧
        r'.client.handed.length = handed) := by
  induction attempts generalizing now w r with
  | zero => exact .inr ⟨fun k hk => absurd hk (Nat.not_lt_zero k), "", now, r, rfl, h.handed⟩
  | succ attempts ih =>
    have hwindow := windowId_toNat now
    by_cases hroom : within 10 (windowId now).toNat vs < limit.toNat
    · obtain ⟨r', hrequest, hsent⟩ := h.sent hQ hw hroom htoken hnew
      rw [hwindow] at hroom hsent
      refine .inl ⟨0, Nat.succ_pos attempts, fun j hj => absurd hj (Nat.not_lt_zero j), hroom, now, r', ?_, rfl, hsent⟩
      rw [ScenarioRunner.burstSendAt, hrequest]
    · obtain ⟨e, r', hrequest, hcategory, hrefused⟩ := h.refused args hw hroom
      have hstep : ScenarioRunner.burstSendAt args (attempts + 1) now r =
          ScenarioRunner.burstSendAt args attempts (now + 200000) r'.pollIo.2 := by
        rw [ScenarioRunner.burstSendAt, hrequest]
        dsimp only
        rw [if_neg (not_not_intro hcategory)]
      have hnext : (now + 200000).toNat = now.toNat + 200000 := by
        rw [UInt64.toNat_add, toNat_wait]
        exact Nat.mod_eq_of_lt (hclock 1 (by omega))
      have hlater : windowId now ≤ windowId (now + 200000) := windowId_later (by omega)
      rw [hwindow] at hroom
      have hshift : ∀ k, (now + 200000).toNat + 200000 * k = now.toNat + 200000 * (k + 1) := by omega
      rw [hstep]
      have hclock' : ∀ k ≤ attempts, (now + 200000).toNat + 200000 * k < 2 ^ 64 := by
        intro k hk
        rw [hshift]
        exact hclock (k + 1) (by omega)
      rcases ih (hrefused.poll hQ) hlater hclock' with ⟨k, hk, hfirst, hfound, hsent⟩ | ⟨hnone, hfailed⟩
      · refine .inl ⟨k + 1, by omega, ?_, by rwa [hshift] at hfound, ?_⟩
        · rintro (_ | j) hj
          · exact hroom
          · rw [← hshift]
            exact hfirst j (by omega)
        · simpa only [hshift] using hsent
      · refine .inr ⟨?_, hfailed⟩
        rintro (_ | k) hk
        · exact hroom
        · rw [← hshift]
          exact hnone k (by omega)

end Burst

/-! ## Times and windows -/

section Times

variable {limit : Nat} {vs : List Nat} {tStart period : Nat}

/-- The window of an order's own time. -/
def due (tStart period j : Nat) : Nat := (tStart + j * period) / 100000000

/-- The windows in which the requests before the burst and its orders get
through, if the limit is all that holds them back. -/
def throughAt (limit : Nat) (vs : List Nat) (tStart period : Nat) : Nat → Nat :=
  served limit 10 (following vs (due tStart period))

/-- If order number `i` has `limit` requests in front, the window in which the
first of these is over begins within 199.8 ms of the order's own time, or is the
one behind the window of the request just in front. -/
def InTime (limit : Nat) (vs : List Nat) (tStart period i : Nat) : Prop :=
  ∀ m, vs.length + i = m + limit → throughAt limit vs tStart period m + 10 ≤
    max ((tStart + i * period + 199800000) / 100000000) (throughAt limit vs tStart period (vs.length + i - 1) + 1)

/-- The throttler keeps up with the burst. -/
def KeepsUp (limit : Nat) (vs : List Nat) (tStart period count : Nat) : Prop := ∀ i < count, InTime limit vs tStart period i

/-- The time at which the attempts for order number `i` begin: its own, or a
later one right after a window began, because the order in front had to wait. -/
structure Timely (limit : Nat) (vs : List Nat) (tStart period i now : Nat) : Prop where
  own : tStart + i * period ≤ now
  front : ∀ m < vs.length + i, throughAt limit vs tStart period m ≤ now / 100000000
  phase : now = tStart + i * period ∨
    now % 100000000 < 200000 ∧ ∃ m, vs.length + i = m + 1 ∧ now / 100000000 = throughAt limit vs tStart period m

/-- What the throttler let through before order number `i`. -/
def past (limit : Nat) (vs : List Nat) (tStart period i : Nat) : List Nat :=
  (List.range (vs.length + i)).map (throughAt limit vs tStart period)

variable {i now : Nat}

theorem past_next (limit : Nat) (vs : List Nat) (tStart period i : Nat) :
    past limit vs tStart period i ++ [throughAt limit vs tStart period (vs.length + i)] =
      past limit vs tStart period (i + 1) := by
  rw [past, past, ← Nat.add_assoc, List.range_succ, List.map_append, List.map_singleton]

theorem throughAt_mono {m n : Nat} (h : m ≤ n) : throughAt limit vs tStart period m ≤ throughAt limit vs tStart period n :=
  served_mono h

theorem due_le_throughAt (i : Nat) : due tStart period i ≤ throughAt limit vs tStart period (vs.length + i) := by
  have hle := @ready_le_served limit 10 (following vs (due tStart period)) (vs.length + i)
  rwa [following_later] at hle

theorem Timely.room_iff (hlimit : 0 < limit) (h : Timely limit vs tStart period i now) {t : Nat} (ht : now ≤ t) :
    Room limit (past limit vs tStart period i) t ↔
      ∀ m, vs.length + i = m + limit → throughAt limit vs tStart period m + 10 ≤ t / 100000000 := by
  have hwindow : now / 100000000 ≤ t / 100000000 := Nat.div_le_div_right ht
  have hroom := @within_map_lt_iff limit 10 (throughAt limit vs tStart period) (fun _ _ hmn => throughAt_mono hmn) _ _
    fun m hm => (h.front m hm).trans hwindow
  exact hroom.trans (and_iff_right hlimit)

/-- No order comes before its own window. -/
theorem Timely.start (hlimit : 0 < limit) (hsorted : vs.Pairwise (· ≤ ·)) (hle : ∀ w, within 10 w vs ≤ limit)
    (hpast : ∀ v ∈ vs, v ≤ tStart / 100000000) : Timely limit vs tStart period 0 tStart where
  own := by rw [Nat.zero_mul, Nat.add_zero]
  front m hm := by
    rw [throughAt, served_past hlimit hsorted hle hm]
    exact hpast _ (List.getElem_mem hm)
  phase := .inl (by rw [Nat.zero_mul, Nat.add_zero])

/-- An order that had to wait is sent right after a window began. -/
theorem Timely.waited (hlimit : 0 < limit) (h : Timely limit vs tStart period i now) {k : Nat}
    (hfull : ¬ Room limit (past limit vs tStart period i) (now + 200000 * k))
    (hroom : Room limit (past limit vs tStart period i) (now + 200000 * (k + 1))) :
    (now + 200000 * (k + 1)) / 100000000 ≤ throughAt limit vs tStart period (vs.length + i) ∧
      (now + 200000 * (k + 1)) % 100000000 < 200000 := by
  rw [h.room_iff hlimit (Nat.le_add_right _ _)] at hfull hroom
  simp only [not_forall, Nat.not_le] at hfull
  obtain ⟨m, hm, hlt⟩ := hfull
  have hopen := hroom m hm
  have hspan := @served_add_limit limit 10 (following vs (due tStart period)) hlimit m
  rw [← hm] at hspan
  change throughAt limit vs tStart period m + 10 ≤ throughAt limit vs tStart period (vs.length + i) at hspan
  rw [Nat.mul_succ, ← Nat.add_assoc] at hopen ⊢
  generalize now + 200000 * k = before at *
  constructor
  all_goals omega

/-- An order is sent in the window that the limit leaves it. -/
theorem Timely.window (hlimit : 0 < limit) (h : Timely limit vs tStart period i now) {k : Nat}
    (hfirst : ∀ j < k, ¬ Room limit (past limit vs tStart period i) (now + 200000 * j))
    (hroom : Room limit (past limit vs tStart period i) (now + 200000 * k)) :
    (now + 200000 * k) / 100000000 = throughAt limit vs tStart period (vs.length + i) := by
  have hnow : now / 100000000 ≤ (now + 200000 * k) / 100000000 := Nat.div_le_div_right (Nat.le_add_right _ _)
  apply Nat.le_antisymm
  · cases k with
    | zero =>
      rw [Nat.mul_zero, Nat.add_zero]
      rcases h.phase with hown | ⟨-, m, hm, hwindow⟩
      · rw [hown]
        exact due_le_throughAt i
      · rw [hwindow]
        exact throughAt_mono (by omega)
    | succ k => exact (h.waited hlimit (hfirst k (Nat.lt_succ_self k)) hroom).1
  · refine served_le hlimit ?_ ?_ ?_
    · rw [following_later]
      exact (Nat.div_le_div_right h.own).trans hnow
    · intro m hm
      exact (h.front m (by omega)).trans hnow
    · exact (h.room_iff hlimit (Nat.le_add_right _ _)).1 hroom

/-- The attempts for the next order begin in time. -/
theorem Timely.next (hlimit : 0 < limit) (h : Timely limit vs tStart period i now) {k : Nat}
    (hfirst : ∀ j < k, ¬ Room limit (past limit vs tStart period i) (now + 200000 * j))
    (hroom : Room limit (past limit vs tStart period i) (now + 200000 * k)) :
    Timely limit vs tStart period (i + 1) (max (now + 200000 * k) (tStart + (i + 1) * period)) := by
  have hwindow := h.window hlimit hfirst hroom
  have hlater : (now + 200000 * k) / 100000000 ≤ max (now + 200000 * k) (tStart + (i + 1) * period) / 100000000 :=
    Nat.div_le_div_right (le_max_left _ _)
  refine ⟨le_max_right _ _, ?_, ?_⟩
  · intro m hm
    have hmono : throughAt limit vs tStart period m ≤ throughAt limit vs tStart period (vs.length + i) :=
      throughAt_mono (by omega)
    rw [← hwindow] at hmono
    exact hmono.trans hlater
  · rcases Nat.lt_or_ge (tStart + (i + 1) * period) (now + 200000 * k) with hlate | hearly
    · refine .inr ?_
      rw [max_eq_left (Nat.le_of_lt hlate)]
      refine ⟨?_, vs.length + i, rfl, hwindow⟩
      cases k with
      | zero =>
        rw [Nat.mul_zero, Nat.add_zero] at hlate ⊢
        rcases h.phase with hown | ⟨hphase, -⟩
        · -- the order was sent at its own time
          rw [Nat.succ_mul] at hlate
          omega
        · exact hphase
      | succ k => exact (h.waited hlimit (hfirst k (Nat.lt_succ_self k)) hroom).2
    · exact .inl (max_eq_right hearly)

/-- The last attempt decides. -/
theorem Timely.found_iff (hlimit : 0 < limit) (h : Timely limit vs tStart period i now) :
    (∃ k < 1000, Room limit (past limit vs tStart period i) (now + 200000 * k)) ↔
      ∀ m, vs.length + i = m + limit → throughAt limit vs tStart period m + 10 ≤ (now + 199800000) / 100000000 := by
  constructor
  · rintro ⟨k, hk, hroom⟩ m hm
    have hle := (h.room_iff hlimit (Nat.le_add_right _ _)).1 hroom m hm
    exact hle.trans (Nat.div_le_div_right (by omega))
  · intro hall
    exact ⟨999, by decide, (h.room_iff hlimit (Nat.le_add_right _ _)).2 hall⟩

/-- How far the attempts reach. -/
theorem Timely.reach (h : Timely limit vs tStart period i now) {m : Nat} (hm : vs.length + i = m + 1) :
    (now + 199800000) / 100000000 =
      max ((tStart + i * period + 199800000) / 100000000) (throughAt limit vs tStart period m + 1) := by
  have hfront := h.front m (by omega)
  have hown := h.own
  rcases h.phase with hnow | ⟨hphase, m', hm', hwindow⟩
  · rw [← hnow]
    omega
  · obtain rfl : m' = m := by omega
    rw [← hwindow]
    generalize tStart + i * period = own at *
    omega

/-- Which orders are sent. -/
theorem Timely.inTime_iff (hlimit : 0 < limit) (h : Timely limit vs tStart period i now) :
    InTime limit vs tStart period i ↔ ∃ k < 1000, Room limit (past limit vs tStart period i) (now + 200000 * k) := by
  rw [h.found_iff hlimit]
  refine forall_congr' fun m => imp_congr_right fun hm => ?_
  rw [h.reach (m := vs.length + i - 1) (by omega)]

end Times

/-! ## The loop -/

namespace ScenarioRunner

theorem periodNs_le (a : BurstPlaceArgs) : (periodNs a).toNat ≤ 1000000000 := by
  rw [periodNs, UInt64.toNat_div]
  have hle := Nat.div_le_self (1000000000 : UInt64).toNat a.ratePerSec.toUInt64.toNat
  exact hle

/-- The target time of an order does not wrap. -/
theorem target_toNat {a : BurstPlaceArgs} {tStart : UInt64} {i : Nat} (hclock : tStart.toNat < 2 ^ 63)
    (hi : i ≤ a.count.toNat) : (tStart + UInt64.ofNat i * periodNs a).toNat = tStart.toNat + i * (periodNs a).toNat := by
  have hcount := a.count.toNat_lt
  have hperiod := periodNs_le a
  have hi' : i < 2 ^ 64 := by omega
  have hmul : i * (periodNs a).toNat ≤ i * 1000000000 := Nat.mul_le_mul_left i hperiod
  have hmul' : i * (periodNs a).toNat < 2 ^ 64 := by omega
  rw [UInt64.toNat_add, UInt64.toNat_mul, UInt64.toNat_ofNat_of_lt' hi', Nat.mod_eq_of_lt hmul']
  exact Nat.mod_eq_of_lt (by omega)

section Loop

variable {Q : OuchSession → Prop} {limit : UInt64} {table : InstrumentCache} {vs : List Nat} {seen : List Bytes}
  {r : ScenarioRunner} {a : BurstPlaceArgs} {tStart : UInt64}

/-- The orders from number `i` on are all sent exactly if each of them is in time. -/
theorem burstLoopAt_handed (hQ : Willing Q) (s : Step) (hpattern : a.pattern ≠ []) (hlimit : 0 < limit.toNat)
    (hknown : ∀ pat ∈ a.pattern, (table.findBySymbol pat.symbol).isSome) (hclock : tStart.toNat < 2 ^ 63) {left i : Nat}
    (hcount : i + left = a.count.toNat) {seq : Nat → UInt64} (hseq : Counts a.pattern.length i seq) {now w : UInt64}
    {handed : Nat}
    (h : Standing Q limit table (past limit.toNat vs tStart.toNat (periodNs a).toNat i) w seen handed r)
    (hw : w ≤ windowId now) (htimely : Timely limit.toNat vs tStart.toNat (periodNs a).toNat i now.toNat)
    (hnow : now.toNat ≤ tStart.toNat + i * 1200000000) (hdistinct : ((List.range' i left).map (burstText a)).Nodup)
    (hfresh : ∀ t ∈ (List.range' i left).map (burstText a), t ∉ seen) :
    (burstLoopAt s a tStart left i seq now r).2.client.handed.length = handed + left ↔
      ∀ j, i ≤ j → j < i + left → InTime limit.toNat vs tStart.toNat (periodNs a).toNat j := by
  have hlen : 0 < a.pattern.length := List.length_pos_iff.2 hpattern
  have hcount' := a.count.toNat_lt
  have hperiod := periodNs_le a
  induction left generalizing i seq now w seen handed r with
  | zero => exact iff_of_true h.handed fun j hj hlt => absurd hlt (by omega)
  | succ left ih =>
    have hturn : i % a.pattern.length < a.pattern.length := Nat.mod_lt i hlen
    have hpat := List.getElem?_eq_getElem hturn
    obtain ⟨inst, hinst⟩ := Option.isSome_iff_exists.1 (hknown _ (List.getElem_mem hturn))
    rw [← h.table] at hinst
    rw [List.range'_succ, List.map_cons, List.nodup_cons] at hdistinct
    rw [List.range'_succ, List.map_cons, List.forall_mem_cons] at hfresh
    generalize hargs : burstArgs inst a.pattern[i % a.pattern.length] (seq (i % a.pattern.length)) = args
    have htoken : args.explicitToken = burstText a i := by
      rw [← hargs, burstArgs_token, burstText, hpat, hseq.here hlen]
    have hne : args.explicitToken ≠ [] := by
      rw [← hargs, burstArgs_token]
      simp [decText]
    have hnew : args.explicitToken ∉ seen := htoken ▸ hfresh.1
    have hclock' : ∀ k ≤ 1000, now.toNat + 200000 * k < 2 ^ 64 := by
      intro k hk
      omega
    rw [burstLoopAt]
    simp only [hpat, hinst, hargs]
    rcases h.send hQ hw hne hnew hclock' with ⟨k, hk, hfirst, hroom, now', r', hsent, hnow', hstanding⟩ |
      ⟨hnone, why, now', r', hfailed, hhanded⟩
    · -- the order is sent, and the others decide
      rw [hsent]
      dsimp only
      have hin := (htimely.inTime_iff hlimit).2 ⟨k, hk, hroom⟩
      have htarget := @target_toNat a tStart (i + 1) hclock (by omega)
      have hnext := htimely.next hlimit hfirst hroom
      rw [← hnow', ← htarget] at hnext
      generalize hbegin : (if now' < tStart + UInt64.ofNat (i + 1) * periodNs a
        then tStart + UInt64.ofNat (i + 1) * periodNs a else now') = begin
      have hmax : begin.toNat = max now'.toNat (tStart + UInt64.ofNat (i + 1) * periodNs a).toNat := by
        rw [← hbegin]
        split
        · rename_i hlt
          exact (max_eq_right (Nat.le_of_lt (UInt64.lt_iff_toNat_lt.1 hlt))).symm
        · rename_i hge
          exact (max_eq_left (UInt64.le_iff_toNat_le.1 (UInt64.not_lt.1 hge))).symm
      rw [← hmax] at hnext
      have hwindow := htimely.window hlimit hfirst hroom
      rw [← hnow'] at hwindow
      rw [hwindow, past_next, htoken] at hstanding
      have hseen : ∀ t ∈ (List.range' (i + 1) left).map (burstText a), t ∉ seen ++ [burstText a i] := by
        intro t ht hmem
        rcases List.mem_append.1 hmem with hold | hthis
        · exact hfresh.2 t ht hold
        · exact hdistinct.1 (List.mem_singleton.1 hthis ▸ ht)
      have hbegin' : begin.toNat ≤ tStart.toNat + (i + 1) * 1200000000 := by
        have hmul : (i + 1) * (periodNs a).toNat ≤ (i + 1) * 1200000000 := Nat.mul_le_mul_left _ (by omega)
        rw [hmax, htarget, hnow']
        apply max_le
        all_goals omega
      have hlater : windowId now' ≤ windowId begin := windowId_later (hmax ▸ le_max_left _ _)
      have hrest := ih (by omega) (hseq.next hlen) hstanding hlater hnext hbegin' hdistinct.2 hseen
      rw [Nat.add_right_comm, Nat.add_assoc handed] at hrest
      apply hrest.trans
      constructor
      · intro hall j hj hlt
        rcases Nat.eq_or_lt_of_le hj with rfl | hgt
        · exact hin
        · exact hall j hgt (by omega)
      · intro hall j hj hlt
        exact hall j (by omega) (by omega)
    · -- no attempt finds room, and the burst ends
      rw [hfailed]
      dsimp only
      refine iff_of_false (by rw [hhanded]; omega) fun hall => ?_
      obtain ⟨k, hk, hroom⟩ := (htimely.inTime_iff hlimit).1 (hall i (Nat.le_refl i) (by omega))
      exact hnone k hk hroom

end Loop

end ScenarioRunner

/-- A burst of known symbols and new tokens, on a session that sends. The clock
counts nanoseconds in 63 bits. -/
structure Prepared (Q : OuchSession → Prop) (r : ScenarioRunner) (tStart : UInt64) (a : BurstPlaceArgs) : Prop where
  willing : Willing Q
  session : Q r.session
  rate : a.ratePerSec ≠ 0
  pattern : a.pattern ≠ []
  known : ∀ pat ∈ a.pattern, (r.instruments.findBySymbol pat.symbol).isSome
  distinct : (ScenarioRunner.tokensOfBurst a).Nodup
  fresh : ∀ t ∈ ScenarioRunner.tokensOfBurst a, t ∉ r.client.tokens.seen
  clock : tStart.toNat < 2 ^ 63

/-- A burst behind a throttler that stands for `vs` is sent in full exactly if
every order is in time. -/
theorem Prepared.sends_all_iff {Q : OuchSession → Prop} {r : ScenarioRunner} {tStart : UInt64} {a : BurstPlaceArgs}
    (h : Prepared Q r tStart a) (s : Step) {vs : List Nat} (hlimit : 0 < r.client.throttler.limit.toNat)
    (hsorted : vs.Pairwise (· ≤ ·)) (hle : ∀ w, within 10 w vs ≤ r.client.throttler.limit.toNat)
    (hstands : r.client.throttler.StandsFor vs (windowId tStart)) :
    (r.runBurstPlaceAt tStart s a).2.client.handed.length = r.client.handed.length + a.count.toNat ↔
      KeepsUp r.client.throttler.limit.toNat vs tStart.toNat (ScenarioRunner.periodNs a).toNat a.count.toNat := by
  have hpast : ∀ v ∈ vs, v ≤ tStart.toNat / 100000000 := by
    intro v hv
    rw [← windowId_toNat]
    exact hstands.past v hv
  have htimely := @Timely.start _ vs tStart.toNat (ScenarioRunner.periodNs a).toNat hlimit hsorted hle hpast
  have hstanding : Standing Q r.client.throttler.limit r.instruments
      (past r.client.throttler.limit.toNat vs tStart.toNat (ScenarioRunner.periodNs a).toNat 0) (windowId tStart)
      r.client.tokens.seen r.client.handed.length r := by
    have hhistory : past r.client.throttler.limit.toNat vs tStart.toNat (ScenarioRunner.periodNs a).toNat 0 = vs :=
      served_history hlimit hsorted hle
    rw [hhistory]
    exact ⟨hstands, rfl, h.session, rfl, rfl, rfl⟩
  have hdistinct := h.distinct
  have hfresh := h.fresh
  rw [ScenarioRunner.tokensOfBurst_eq, burstTexts] at hdistinct hfresh
  unfold ScenarioRunner.runBurstPlaceAt
  split
  · rename_i hnone
    have hcount : a.count = 0 := hnone.resolve_right h.pattern
    rw [hcount]
    exact iff_of_true rfl fun i hi => absurd hi (Nat.not_lt_zero i)
  · rename_i hsome
    rw [if_neg hsome, if_neg h.rate, List.range_eq_range'] at hdistinct hfresh
    rw [if_neg h.rate]
    apply (ScenarioRunner.burstLoopAt_handed h.willing s h.pattern hlimit h.known h.clock (Nat.zero_add _) .start hstanding
      (UInt64.le_refl _) htimely (Nat.le_add_right _ _) hdistinct hfresh).trans
    constructor
    · intro hall i hi
      exact hall i (Nat.zero_le i) (by omega)
    · intro hall i _ hi
      exact hall i (by omega)

/-- With a throttler that was asked at `times`, a burst is sent in full exactly
if the throttler keeps up with it. -/
theorem burst_sends_all_iff {Q : OuchSession → Prop} {r : ScenarioRunner} {tStart : UInt64} {a : BurstPlaceArgs}
    (h : Prepared Q r tStart a) (s : Step) {capacity tokensPerSec : UInt64} {times : List UInt64}
    (hlimit : 0 < min capacity.toNat tokensPerSec.toNat) (hclock : (times ++ [tStart]).Pairwise (· ≤ ·))
    (hthrottler : r.client.throttler = (Throttler.create capacity tokensPerSec).asked times) :
    (r.runBurstPlaceAt tStart s a).2.client.handed.length = r.client.handed.length + a.count.toNat ↔
      KeepsUp (min capacity.toNat tokensPerSec.toNat) (windows ((Throttler.create capacity tokensPerSec).granted times))
        tStart.toNat (ScenarioRunner.periodNs a).toNat a.count.toNat := by
  rw [List.pairwise_append] at hclock
  obtain ⟨hsorted, -, hlast⟩ := hclock
  have hbefore : ∀ now ∈ times, windowId now ≤ windowId tStart :=
    fun now hmem => windowId_mono (hlast now hmem tStart List.mem_cons_self)
  have hzero : ∀ w : UInt64, 0 ≤ w := fun w => UInt64.le_iff_toNat_le.2 (Nat.zero_le w.toNat)
  have hstands := (standsFor_create capacity tokensPerSec 0).asked (fun _ _ => hzero _) hsorted (hzero _) hbefore
  rw [List.nil_append, ← hthrottler] at hstands
  have hlimit' : r.client.throttler.limit.toNat = min capacity.toNat tokensPerSec.toNat := by
    rw [hthrottler, limit_asked, limit_create]
  have hle := within_granted capacity tokensPerSec hsorted
  have hgranted := windows_sorted (hsorted.sublist (granted_sublist (Throttler.create capacity tokensPerSec) times))
  rw [← hlimit'] at hlimit hle ⊢
  exact h.sends_all_iff s hlimit hgranted hle hstands

/-- A runner that is logged in and may send `limit` orders a second. -/
def pacedRunner (limit : UInt64) : ScenarioRunner where
  client := { OuchClient.trading with throttler := Throttler.create limit limit }
  instruments := { findBySymbol := fun symbol => some { symbol } }
  around := { throttle := ⟨fun _ => 0, 0⟩, wall := ⟨fun _ => 0, 0⟩, patience := fun _ _ => 0 }

/-- Two orders, a millisecond apart. -/
def twoOrders : BurstPlaceArgs where
  count := 2
  ratePerSec := 1000
  pattern := [{ symbol := ascii "ACSEL.E", tokenPrefix := ascii "1000" }]

def twoOrdersStep : Step where
  action := "burst_place"
  args := .burstPlace twoOrders

theorem twoOrders_prepared (limit : UInt64) : Prepared Quiet (pacedRunner limit) 5000000000 twoOrders where
  willing := Quiet.willing
  session := ⟨rfl, ⟨rfl, by
    intro a ha
    have hsends : a ∈ [.accept 0, .accept 15] := ha
    rcases List.mem_pair.1 hsends with rfl | rfl <;> exact ⟨_, rfl⟩⟩, rfl, rfl, rfl⟩
  rate := by decide
  pattern := by decide
  known := fun _ _ => rfl
  distinct := by decide +kernel
  fresh _ _ := List.not_mem_nil
  clock := by decide

theorem burst_sends_all_iff_twoOrders :
    ((pacedRunner 2).runBurstPlaceAt 5000000000 twoOrdersStep twoOrders).2.client.handed.length = 0 + 2 ↔
      KeepsUp (min 2 2) (windows ((Throttler.create 2 2).granted [])) 5000000000 1000000 2 :=
  @burst_sends_all_iff _ _ _ _ (twoOrders_prepared 2) twoOrdersStep 2 2 [] (by decide) (by decide) rfl

/-- With one order a second, the second order is given up 199.8 ms after the first. -/
theorem burst_gives_up : ¬ ∀ (Q : OuchSession → Prop) (r : ScenarioRunner) (tStart : UInt64) (a : BurstPlaceArgs) (s : Step)
    (capacity tokensPerSec : UInt64) (times : List UInt64), Prepared Q r tStart a →
    0 < min capacity.toNat tokensPerSec.toNat → (times ++ [tStart]).Pairwise (· ≤ ·) →
    r.client.throttler = (Throttler.create capacity tokensPerSec).asked times →
    (r.runBurstPlaceAt tStart s a).2.client.handed.length = r.client.handed.length + a.count.toNat := by
  intro hall
  have hsent := hall Quiet (pacedRunner 1) 5000000000 twoOrders twoOrdersStep 1 1 [] (twoOrders_prepared 1) (by decide)
    (by decide) rfl
  have hkeeps : KeepsUp 1 [] 5000000000 1000000 2 :=
    ((twoOrders_prepared 1).sends_all_iff twoOrdersStep (by decide) List.Pairwise.nil (fun _ => Nat.zero_le _)
      (standsFor_create 1 1 _)).1 hsent
  have hin := hkeeps 1 (by decide) 0 (by decide)
  revert hin
  decide

end BistColo.Runner
