import BistColo.Runner.Verdict
/-!
# Expectations and timing

Message expectations are checked one after the other while events come in. What
they say should depend on the events and their order alone, however the events
are spread over the polls, as long as each comes before the deadline of the wait
that needs it. `verdicts_agree_iff` says which runs do agree: in each wait the
poll that brings the event has to succeed and to end before the deadline.
`last_poll_times_out` is an event that the last poll brings: it is in the queue,
and the wait returns without it.
-/

open StreamKit

namespace BistColo.Runner

open Ouch

/-! ## Arrivals -/

/-- The events that a poll of the session pushes. -/
def brought (s : OuchSession) : List SessionEvent :=
  (ScenarioRunner.pushes (s.pollIo.2.log.drop s.log.length)).map Pushed.event

/-- The events of the next `k` polls. -/
def arrived : Nat → OuchSession → List SessionEvent
  | 0, _ => []
  | k + 1, s => brought s ++ arrived k s.pollIo.2

/-- One of the next `polls` polls brings an event, and none fails up to then. -/
def Brings : Nat → OuchSession → Prop
  | 0, _ => False
  | polls + 1, s => s.pollIo.1 = .ok () ∧ (brought s ≠ [] ∨ Brings polls s.pollIo.2)

namespace ScenarioRunner

/-- `inbound` is what is queued and what is still to come. -/
def Schedule (r : ScenarioRunner) (inbound : List SessionEvent) : Prop :=
  ∀ k, r.events ++ arrived k r.session <+: inbound

/-- The effect of an event on the index. -/
def enter (index : Bytes → Option (UInt64 × UInt32 × UInt8)) : SessionEvent → Bytes → Option (UInt64 × UInt32 × UInt8)
  | .accepted m => Function.update index m.orderToken.view (some (m.orderId, m.orderBookId, m.side))
  | .replaced m => Function.update index m.replacementOrderToken.view (some (m.orderId, m.orderBookId, m.side))
  | _ => index

theorem tokenIndex_updateIndices (r : ScenarioRunner) (ev : SessionEvent) :
    (r.updateIndices ev).tokenIndex = enter r.tokenIndex ev := by
  cases ev <;> rfl

/-- A runner that has taken the events `taken`. -/
structure Took (r r' : ScenarioRunner) (taken left : List SessionEvent) : Prop where
  schedule : r'.Schedule left
  popped : r'.popped = r.popped ++ taken
  tokenIndex : r'.tokenIndex = taken.foldl enter r.tokenIndex

theorem Took.trans {r r' r'' : ScenarioRunner} {taken taken' left left' : List SessionEvent} (h : Took r r' taken left)
    (h' : Took r' r'' taken' left') : Took r r'' (taken ++ taken') left' where
  schedule := h'.schedule
  popped := by rw [h'.popped, h.popped, List.append_assoc]
  tokenIndex := by rw [h'.tokenIndex, h.tokenIndex, List.foldl_append]

theorem Took.nothing {r : ScenarioRunner} {inbound : List SessionEvent} (h : r.Schedule inbound) : Took r r [] inbound where
  schedule := h
  popped := (List.append_nil _).symm
  tokenIndex := rfl

/-! ## One wait -/

theorem events_pollIo (r : ScenarioRunner) : r.pollIo.2.events = r.events ++ brought r.session := rfl

theorem session_pollIo (r : ScenarioRunner) : r.pollIo.2.session = r.session.pollIo.2 := rfl

theorem Schedule.pollIo {r : ScenarioRunner} {inbound : List SessionEvent} (h : r.Schedule inbound) :
    Took r r.pollIo.2 [] inbound where
  schedule k := by
    rw [events_pollIo, session_pollIo, List.append_assoc]
    exact h (k + 1)
  popped := (List.append_nil _).symm
  tokenIndex := rfl

/-- The front of the queue is the next event of all. -/
theorem Schedule.pop {r : ScenarioRunner} {inbound rest : List SessionEvent} {ev : SessionEvent} (h : r.Schedule inbound)
    (hevents : r.events = ev :: rest) : ∃ left, inbound = ev :: left ∧
      Took r ({ r with events := rest, popped := r.popped ++ [ev] }.updateIndices ev) [ev] left := by
  have hfront := h 0
  rw [hevents, List.cons_append] at hfront
  obtain ⟨more, hmore⟩ := hfront
  refine ⟨_, hmore.symm, ⟨?_, ?_, tokenIndex_updateIndices _ ev⟩⟩
  · intro k
    have hk := h k
    rw [hevents, ← hmore, List.cons_append, List.cons_append, List.cons_prefix_cons] at hk
    cases ev <;> exact hk.2
  · cases ev <;> rfl

/-- What a wait takes: the next event if it returns one, and none otherwise. -/
theorem waitLoop_took (polls : Nat) {r : ScenarioRunner} {inbound : List SessionEvent} (h : r.Schedule inbound) :
    ∃ left, inbound = (waitLoop polls r).1.toList ++ left ∧
      Took r (waitLoop polls r).2 (waitLoop polls r).1.toList left := by
  induction polls generalizing r with
  | zero =>
    rw [waitLoop]
    split
    · rename_i hevents
      exact h.pop hevents
    · have hpolled := h.pollIo
      split
      · rename_i hpoll
        rw [hpoll] at hpolled
        exact ⟨inbound, rfl, hpolled⟩
      · rename_i hpoll
        rw [hpoll] at hpolled
        exact ⟨inbound, rfl, hpolled⟩
  | succ polls ih =>
    rw [waitLoop]
    split
    · rename_i hevents
      exact h.pop hevents
    · have hpolled := h.pollIo
      split
      · rename_i hpoll
        rw [hpoll] at hpolled
        exact ⟨inbound, rfl, hpolled⟩
      · rename_i hpoll
        rw [hpoll] at hpolled
        obtain ⟨left, hleft, htook⟩ := ih hpolled.schedule
        exact ⟨left, hleft, hpolled.trans htook⟩

/-- A wait returns an event exactly if one is queued or a good poll brings one. -/
theorem waitLoop_isSome (polls : Nat) (r : ScenarioRunner) :
    (waitLoop polls r).1.isSome ↔ r.events ≠ [] ∨ Brings polls r.session := by
  induction polls generalizing r with
  | zero =>
    rw [waitLoop]
    split
    · rename_i hevents
      exact iff_of_true rfl (.inl (by rw [hevents]; apply List.cons_ne_nil))
    · rename_i hevents
      have hno : ¬ (r.events ≠ [] ∨ Brings 0 r.session) := by
        rintro (hsome | hfalse)
        · exact hsome hevents
        · exact hfalse
      split
      · exact iff_of_false Bool.false_ne_true hno
      · exact iff_of_false Bool.false_ne_true hno
  | succ polls ih =>
    rw [waitLoop]
    split
    · rename_i hevents
      exact iff_of_true rfl (.inl (by rw [hevents]; apply List.cons_ne_nil))
    · rename_i hevents
      have hpoll : r.pollIo = (r.session.pollIo.1, r.pollIo.2) := rfl
      have hnext : r.pollIo.2.events = brought r.session := by rw [events_pollIo, hevents, List.nil_append]
      rw [Brings]
      split
      · rename_i e next he
        rw [hpoll] at he
        have hfailed : r.session.pollIo.1 = .error e := congrArg Prod.fst he
        rw [hfailed]
        apply iff_of_false Bool.false_ne_true
        rintro (hsome | ⟨hok, -⟩)
        · exact hsome hevents
        · cases hok
      · rename_i next he
        rw [hpoll] at he
        have hok : r.session.pollIo.1 = .ok () := congrArg Prod.fst he
        obtain rfl : r.pollIo.2 = next := congrArg Prod.snd he
        rw [ih, hnext, session_pollIo]
        constructor
        · intro hbrings
          exact .inr ⟨hok, hbrings⟩
        · rintro (hsome | ⟨-, hbrings⟩)
          · exact absurd hevents hsome
          · exact hbrings

/-! ## One expectation -/

/-- The number of polls of the next wait. -/
def polls (r : ScenarioRunner) (timeoutMs : Int) : Nat := r.around.patience r.waits timeoutMs

theorem waitForEvent_eq (r : ScenarioRunner) (timeoutMs : Int) :
    r.waitForEvent timeoutMs = waitLoop (r.polls timeoutMs) { r with waits := r.waits + 1 } := rfl

theorem waitForEvent_took {r : ScenarioRunner} {inbound : List SessionEvent} (h : r.Schedule inbound) (timeoutMs : Int) :
    ∃ left, inbound = (r.waitForEvent timeoutMs).1.toList ++ left ∧
      Took r (r.waitForEvent timeoutMs).2 (r.waitForEvent timeoutMs).1.toList left := by
  have hwaiting : Took r { r with waits := r.waits + 1 } [] inbound := ⟨h, (List.append_nil _).symm, rfl⟩
  obtain ⟨left, hleft, htook⟩ := waitLoop_took (r.polls timeoutMs) hwaiting.schedule
  exact ⟨left, hleft, hwaiting.trans htook⟩

/-- What the loop of `match_expectation` makes of the events that come: its
verdict and the events it takes. -/
def verdictOn (exp : Expect) : Nat → List SessionEvent → Except String Unit × List SessionEvent
  | 0, _ => (.ok (), [])
  | _ + 1, [] => (.error ("timeout waiting for " ++ exp.msg), [])
  | needed + 1, ev :: inbound =>
    match eventMatches exp ev with
    | .error why => (.error why, [ev])
    | .ok () => ((verdictOn exp needed inbound).1, ev :: (verdictOn exp needed inbound).2)

/-- `W` holds of every wait of the loop that finds the queue empty while an
event is still to come. -/
def EachWait (W : Nat → OuchSession → Prop) (exp : Expect) (timeoutMs : Int) :
    Nat → ScenarioRunner → List SessionEvent → Prop
  | 0, _, _ => True
  | needed + 1, r, inbound =>
    (r.events = [] → inbound ≠ [] → W (r.polls timeoutMs) r.session) ∧
      ∀ ev r', r.waitForEvent timeoutMs = (some ev, r') → eventMatches exp ev = .ok () →
        EachWait W exp timeoutMs needed r' inbound.tail

theorem waitForEvent_isSome (r : ScenarioRunner) (timeoutMs : Int) :
    (r.waitForEvent timeoutMs).1.isSome ↔ r.events ≠ [] ∨ Brings (r.polls timeoutMs) r.session :=
  waitLoop_isSome (r.polls timeoutMs) { r with waits := r.waits + 1 }

/-- An expectation says what the events say exactly if each of its waits is
brought the event it needs. -/
theorem matchEvents_took (exp : Expect) (timeoutMs : Int) (needed : Nat) {r : ScenarioRunner}
    {inbound : List SessionEvent} (h : r.Schedule inbound) :
    ∃ taken left, inbound = taken ++ left ∧ Took r (matchEvents exp timeoutMs needed r).2 taken left ∧
      (((matchEvents exp timeoutMs needed r).1, taken) = verdictOn exp needed inbound ↔
        EachWait Brings exp timeoutMs needed r inbound) := by
  induction needed generalizing r inbound with
  | zero => exact ⟨[], inbound, rfl, .nothing h, iff_of_true rfl trivial⟩
  | succ needed ih =>
    obtain ⟨left, hinbound, htook⟩ := waitForEvent_took h timeoutMs
    have hsome := r.waitForEvent_isSome timeoutMs
    rw [matchEvents]
    rcases hwait : r.waitForEvent timeoutMs with ⟨res, r'⟩
    rw [hwait] at hinbound htook hsome
    cases res with
    | none =>
      refine ⟨[], left, hinbound, htook, ?_⟩
      have hnone : r.events = [] ∧ ¬ Brings (r.polls timeoutMs) r.session := by
        have hno : ¬ (r.events ≠ [] ∨ Brings (r.polls timeoutMs) r.session) :=
          fun hyes => Bool.false_ne_true (hsome.2 hyes)
        rw [not_or, not_not] at hno
        exact hno
      cases inbound with
      | nil =>
        apply iff_of_true rfl
        refine ⟨fun _ hne => absurd rfl hne, ?_⟩
        intro ev r'' hev
        cases hwait.symm.trans hev
      | cons ev rest =>
        apply iff_of_false
        · -- the event is there to be taken
          intro heq
          rw [verdictOn] at heq
          cases hmatch : eventMatches exp ev with
          | error why =>
            rw [hmatch] at heq
            cases congrArg Prod.snd heq
          | ok u =>
            rw [hmatch] at heq
            cases congrArg Prod.snd heq
        · intro hwaits
          exact hnone.2 (hwaits.1 hnone.1 (List.cons_ne_nil _ _))
    | some ev =>
      have hbrings : r.events = [] → inbound ≠ [] → Brings (r.polls timeoutMs) r.session := by
        intro hempty _
        rcases hsome.1 rfl with hqueued | hpoll
        · exact absurd hempty hqueued
        · exact hpoll
      have hfirst : inbound = ev :: left := hinbound
      subst hfirst
      rw [verdictOn]
      dsimp only at htook ⊢
      cases hmatch : eventMatches exp ev with
      | error why =>
        refine ⟨[ev], left, rfl, htook, iff_of_true rfl ⟨hbrings, ?_⟩⟩
        intro ev' r'' hev hok
        cases hwait.symm.trans hev
        cases hmatch.symm.trans hok
      | ok u =>
        obtain ⟨taken, rest, hrest, htook', hiff⟩ := ih htook.schedule
        refine ⟨ev :: taken, rest, by rw [hrest]; rfl, htook.trans htook', ?_⟩
        dsimp only
        rw [Prod.mk.injEq, List.cons_inj_right, ← Prod.mk.injEq, Prod.mk.eta, hiff]
        constructor
        · intro hwaits
          refine ⟨hbrings, ?_⟩
          intro ev' r'' hev _
          cases hwait.symm.trans hev
          exact hwaits
        · intro hwaits
          exact hwaits.2 ev r' hwait hmatch

/-! ## Expectations one after the other -/

/-- An expectation that is not about the session itself. -/
def OfMessage (exp : Expect) : Prop := exp.msg ∉ ["login_accepted", "login_rejected", "socket_closed", "server_heartbeat"]

instance (exp : Expect) : Decidable (OfMessage exp) := inferInstanceAs (Decidable (¬ _))

theorem matchExpectation_message {exp : Expect} (h : OfMessage exp) (r : ScenarioRunner) (timeoutMs : Int) :
    r.matchExpectation exp timeoutMs = matchEvents exp timeoutMs exp.needed r := by
  have hnone : matchSession r.session exp = none := by
    unfold matchSession
    split
    all_goals first
      | rfl
      | rename_i hmsg
        exact absurd hmsg (fun hm => h (by simp [hm]))
  unfold matchExpectation
  rw [hnone]

/-- The verdicts on the expectations, each with the events that it took. -/
def checkAll (sc : Scenario) : List Expect → ScenarioRunner → List (Except String Unit × List SessionEvent) × ScenarioRunner
  | [], r => ([], r)
  | exp :: exps, r =>
    let p := r.matchExpectation exp (timeout sc exp)
    let q := checkAll sc exps p.2
    ((p.1, p.2.popped.drop r.popped.length) :: q.1, q.2)

/-- What the expectations say of the events that come. -/
def verdictsOn : List Expect → List SessionEvent → List (Except String Unit × List SessionEvent)
  | [], _ => []
  | exp :: exps, inbound =>
    let p := verdictOn exp exp.needed inbound
    p :: verdictsOn exps (inbound.drop p.2.length)

/-- `W` holds of every wait of a run that finds the queue empty while an event
is still to come. -/
def AllWaits (W : Nat → OuchSession → Prop) (sc : Scenario) : List Expect → ScenarioRunner → List SessionEvent → Prop
  | [], _, _ => True
  | exp :: exps, r, inbound =>
    EachWait W exp (timeout sc exp) exp.needed r inbound ∧
      AllWaits W sc exps (r.matchExpectation exp (timeout sc exp)).2
        (inbound.drop ((r.matchExpectation exp (timeout sc exp)).2.popped.length - r.popped.length))

/-- A run says what the events say exactly if each of its waits is brought the
event it needs. It takes the events in their order in any case. -/
theorem checkAll_took (sc : Scenario) {exps : List Expect} (hmsgs : ∀ exp ∈ exps, OfMessage exp) {r : ScenarioRunner}
    {inbound : List SessionEvent} (h : r.Schedule inbound) :
    ∃ left, inbound = ((checkAll sc exps r).1.map Prod.snd).flatten ++ left ∧
      Took r (checkAll sc exps r).2 ((checkAll sc exps r).1.map Prod.snd).flatten left ∧
      ((checkAll sc exps r).1 = verdictsOn exps inbound ↔ AllWaits Brings sc exps r inbound) := by
  induction exps generalizing r inbound with
  | nil => exact ⟨inbound, rfl, .nothing h, iff_of_true rfl trivial⟩
  | cons exp exps ih =>
    have hexp := matchExpectation_message (hmsgs exp List.mem_cons_self) r (timeout sc exp)
    obtain ⟨taken, rest, hrest, htook, hiff⟩ := matchEvents_took exp (timeout sc exp) exp.needed h
    rw [← hexp] at htook hiff
    obtain ⟨left, hleft, htook', hiff'⟩ := ih (fun e he => hmsgs e (List.mem_cons_of_mem exp he)) htook.schedule
    have htaken : (r.matchExpectation exp (timeout sc exp)).2.popped.drop r.popped.length = taken := by
      rw [htook.popped, List.drop_left]
    have hcount : (r.matchExpectation exp (timeout sc exp)).2.popped.length - r.popped.length = taken.length := by
      rw [htook.popped, List.length_append, Nat.add_sub_cancel_left]
    have hafter : inbound.drop taken.length = rest := by rw [hrest, List.drop_left]
    rw [checkAll, AllWaits, verdictsOn]
    dsimp only
    rw [htaken, hcount, hafter, List.map_cons, List.flatten_cons]
    refine ⟨left, ?_, htook.trans htook', ?_⟩
    · rw [List.append_assoc, ← hleft, hrest]
    · rw [List.cons.injEq, hiff]
      apply and_congr_right
      intro hwaits
      -- the expectation takes what it should, so the others see the same events
      rw [← hiff.2 hwaits, hafter, hiff']

/-! ## Pairs of runs -/

/-- Two runs give the same verdicts with the same details, each expectation
takes the same events, and the same orders are known at the end. -/
structure Agree (sc : Scenario) (exps : List Expect) (r r' : ScenarioRunner) : Prop where
  verdicts : (checkAll sc exps r).1 = (checkAll sc exps r').1
  tokenIndex : (checkAll sc exps r).2.tokenIndex = (checkAll sc exps r').2.tokenIndex

/-- One of the polls that the wait makes brings an event. The last of them
begins before the deadline and ends behind it. -/
def Comes (polls : Nat) (s : OuchSession) : Prop := arrived (polls + 1) s ≠ []

theorem EachWait.mono {W W' : Nat → OuchSession → Prop} (hW : ∀ polls s, W polls s → W' polls s) {exp : Expect}
    {timeoutMs : Int} {needed : Nat} {r : ScenarioRunner} {inbound : List SessionEvent}
    (h : EachWait W exp timeoutMs needed r inbound) : EachWait W' exp timeoutMs needed r inbound := by
  induction needed generalizing r inbound with
  | zero => trivial
  | succ needed ih => exact ⟨fun hempty hne => hW _ _ (h.1 hempty hne), fun ev r' hev hok => ih (h.2 ev r' hev hok)⟩

theorem AllWaits.mono {W W' : Nat → OuchSession → Prop} (hW : ∀ polls s, W polls s → W' polls s) {sc : Scenario}
    {exps : List Expect} {r : ScenarioRunner} {inbound : List SessionEvent} (h : AllWaits W sc exps r inbound) :
    AllWaits W' sc exps r inbound := by
  induction exps generalizing r inbound with
  | nil => trivial
  | cons exp exps ih => exact ⟨h.1.mono hW, ih h.2⟩

/-! ## The run that has everything queued -/

/-- A session that a poll leaves as it is brings nothing. -/
theorem arrived_still {s : OuchSession} (h : s.pollIo.2 = s) (k : Nat) : arrived k s = [] := by
  have hnothing : brought s = [] := by
    rw [brought, h, List.drop_length]
    rfl
  induction k with
  | zero => rfl
  | succ k ih => rw [arrived, hnothing, h, ih, List.append_nil]

theorem pollIo_closed {s : OuchSession} (h : s.socket.isOpen = false) :
    s.pollIo = (.error (makeError .io "read on closed socket"), s) := by
  have hread : s.readSome = (.error (makeError .io "read on closed socket"), s) := if_pos h
  unfold OuchSession.pollIo
  rw [hread]

/-- A session that is not logged in does nothing in a poll that brings nothing. -/
theorem pollIo_quiet {s : OuchSession} (hopen : s.socket.isOpen = true) (hrecvs : s.socket.recvs = [])
    (hin : s.inBuffer = []) (hout : s.outPending = []) (hstate : s.state ≠ .active) : s.pollIo = (.ok (), s) := by
  have hrecv : s.socket.recv = (.ok [], s.socket) := by
    rw [TcpSocket.recv, if_neg (by simp [hopen]), hrecvs]
  have hread : s.readSome = (.ok (), s) := by
    rw [OuchSession.readSome, if_neg (by simp [hopen]), OuchSession.readLoop, hrecv]
    rfl
  have hparse : s.parsePending = (.ok (), s) := by
    rw [OuchSession.parsePending, hin]
    rfl
  have hflush : s.flushPending = s := by
    unfold OuchSession.flushPending
    rw [hout]
    obtain ⟨⟩ := s
    cases hout
    rfl
  unfold OuchSession.pollIo
  rw [hread]
  dsimp only
  rw [hparse]
  dsimp only
  unfold OuchSession.tickTimers
  rw [hflush, if_pos hstate]

/-- A runner whose events have all come, and whose gateway has gone. -/
def early (r : ScenarioRunner) (inbound : List SessionEvent) : ScenarioRunner :=
  { r.withClient { r.client with
      session := { r.client.session with socket := { r.client.session.socket with isOpen := false } } } with
    events := inbound }

def Closed (r : ScenarioRunner) : Prop := r.session.socket.isOpen = false

theorem Closed.schedule {r : ScenarioRunner} (h : r.Closed) : r.Schedule r.events := by
  intro k
  rw [arrived_still (by rw [pollIo_closed h]) k, List.append_nil]

/-- What a closed runner takes comes from its queue. -/
structure Drew (r r' : ScenarioRunner) (taken : List SessionEvent) : Prop where
  events : r.events = taken ++ r'.events
  popped : r'.popped = r.popped ++ taken
  closed : r'.Closed

theorem Closed.waitLoop {r : ScenarioRunner} (h : r.Closed) (polls : Nat) :
    Drew r (waitLoop polls r).2 (waitLoop polls r).1.toList := by
  cases hevents : r.events with
  | nil =>
    have hpoll : r.pollIo = (.error (makeError .io "read on closed socket"), r.settle r.session) :=
      congrArg (fun p => (p.1, r.settle p.2)) (pollIo_closed h)
    have hwait : ScenarioRunner.waitLoop polls r = (none, r.settle r.session) := by
      rw [waitLoop.eq_def]
      dsimp only
      rw [hevents, hpoll]
    rw [hwait]
    refine ⟨?_, (List.append_nil _).symm, h⟩
    have hlog : r.session.log.drop r.session.log.length = [] := List.drop_length
    rw [settle, hlog]
    exact (List.append_nil r.events).symm
  | cons ev rest =>
    have hwait : ScenarioRunner.waitLoop polls r =
        (some ev, { r with events := rest, popped := r.popped ++ [ev] }.updateIndices ev) := by
      rw [waitLoop.eq_def]
      dsimp only
      rw [hevents]
    rw [hwait]
    cases ev <;> exact ⟨hevents, rfl, h⟩

theorem Closed.waitForEvent {r : ScenarioRunner} (h : r.Closed) (timeoutMs : Int) :
    Drew r (r.waitForEvent timeoutMs).2 (r.waitForEvent timeoutMs).1.toList := by
  have hwaiting : Closed { r with waits := r.waits + 1 } := h
  obtain ⟨hevents, hpopped, hclosed⟩ := hwaiting.waitLoop (r.polls timeoutMs)
  exact ⟨hevents, hpopped, hclosed⟩

theorem Closed.matchEvents {r : ScenarioRunner} (h : r.Closed) (exp : Expect) (timeoutMs : Int) (needed : Nat) :
    ∃ taken, Drew r (matchEvents exp timeoutMs needed r).2 taken := by
  induction needed generalizing r with
  | zero => exact ⟨[], rfl, (List.append_nil _).symm, h⟩
  | succ needed ih =>
    have hdrew := h.waitForEvent timeoutMs
    rw [ScenarioRunner.matchEvents]
    rcases hwait : r.waitForEvent timeoutMs with ⟨res, r'⟩
    rw [hwait] at hdrew
    cases res with
    | none => exact ⟨_, hdrew⟩
    | some ev =>
      dsimp only at hdrew ⊢
      split
      · exact ⟨_, hdrew⟩
      · obtain ⟨taken, hrest⟩ := ih hdrew.closed
        exact ⟨_ ++ taken, by rw [hdrew.events, hrest.events, List.append_assoc],
          by rw [hrest.popped, hdrew.popped, List.append_assoc], hrest.closed⟩

/-- Whenever the queue is empty, nothing is still to come. -/
theorem Closed.eachWait {r : ScenarioRunner} (h : r.Closed) (W : Nat → OuchSession → Prop) (exp : Expect) (timeoutMs : Int)
    (needed : Nat) : EachWait W exp timeoutMs needed r r.events := by
  induction needed generalizing r with
  | zero => trivial
  | succ needed ih =>
    refine ⟨fun hempty hne => absurd hempty hne, ?_⟩
    intro ev r' hwait _
    have hdrew := h.waitForEvent timeoutMs
    rw [hwait] at hdrew
    rw [hdrew.events]
    exact ih hdrew.closed

theorem Closed.allWaits {r : ScenarioRunner} (h : r.Closed) (W : Nat → OuchSession → Prop) (sc : Scenario)
    {exps : List Expect} (hmsgs : ∀ exp ∈ exps, OfMessage exp) : AllWaits W sc exps r r.events := by
  induction exps generalizing r with
  | nil => trivial
  | cons exp exps ih =>
    have hexp := matchExpectation_message (hmsgs exp List.mem_cons_self) r (timeout sc exp)
    obtain ⟨taken, hdrew⟩ := h.matchEvents exp (timeout sc exp) exp.needed
    rw [← hexp] at hdrew
    refine ⟨h.eachWait W exp (timeout sc exp) exp.needed, ?_⟩
    have hleft : r.events.drop ((r.matchExpectation exp (timeout sc exp)).2.popped.length - r.popped.length) =
        (r.matchExpectation exp (timeout sc exp)).2.events := by
      rw [hdrew.popped, List.length_append, Nat.add_sub_cancel_left]
      nth_rewrite 1 [hdrew.events]
      exact List.drop_left
    rw [hleft]
    exact ih hdrew.closed fun e he => hmsgs e (List.mem_cons_of_mem exp he)

/-! ## The property -/

/-- A run on message expectations agrees with every run on the same events whose
waits are brought what they need exactly if its own are: the poll that brings
the event succeeds, the polls of the wait before it do, and the clock that is
read behind it is not past the deadline. In any case the events are taken in
their order, each by one expectation. -/
theorem verdicts_agree_iff (sc : Scenario) {exps : List Expect} (hmsgs : ∀ exp ∈ exps, OfMessage exp) {r : ScenarioRunner}
    {inbound : List SessionEvent} (h : r.Schedule inbound) :
    (AllWaits Brings sc exps r inbound ↔ ∀ r' : ScenarioRunner, r'.Schedule inbound → r'.tokenIndex = r.tokenIndex →
        AllWaits Brings sc exps r' inbound → Agree sc exps r r') ∧
      ((checkAll sc exps r).1.map Prod.snd).flatten <+: inbound := by
  obtain ⟨left, hleft, htook, hiff⟩ := checkAll_took sc hmsgs h
  refine ⟨⟨?_, ?_⟩, ⟨left, hleft.symm⟩⟩
  · intro hwaits r' h' hindex hwaits'
    obtain ⟨left', -, htook', hiff'⟩ := checkAll_took sc hmsgs h'
    have hverdicts : (checkAll sc exps r).1 = (checkAll sc exps r').1 := (hiff.2 hwaits).trans (hiff'.2 hwaits').symm
    refine ⟨hverdicts, ?_⟩
    rw [htook.tokenIndex, htook'.tokenIndex, hverdicts, hindex]
  · intro hagree
    -- the run in whose queue everything is already says what the events say
    have hclosed : (r.early inbound).Closed := rfl
    have hearly := hclosed.allWaits Brings sc hmsgs
    have hsame := (hagree (r.early inbound) hclosed.schedule rfl hearly).verdicts
    obtain ⟨-, -, -, hiff'⟩ := checkAll_took sc hmsgs hclosed.schedule
    exact hiff.1 (hsame.trans (hiff'.2 hearly))

/-! ## An event in the last poll -/

def rejectPacket : Bytes := (Soup.makeHeader Soup.Pkt.sequencedData 27).bytes ++ (fakeReject (ascii "30") 0).bytes

def rejectChunk : Chunk := ⟨rejectPacket, by decide, by decide⟩

/-- A session that is logged in. The third poll from now brings a reject, and
the one after it the end of the connection. -/
def lateSession : OuchSession :=
  StreamKit.run OuchSession.step (OuchSession.create
    { sends := [.accept 49]
      recvs := [.data OuchSession.acceptChunk, .again, .again, .again, .data rejectChunk, .again, .eof] }
    { reading := fun _ => 0 } { username := ascii "OUCH01", password := ascii "secret" } Soup.heartbeatSendNs)
    [.beginLogin, .pollIo]

def polled (k : Nat) : OuchSession := StreamKit.run OuchSession.step lateSession (List.replicate k .pollIo)

theorem brought_late : brought lateSession = [] ∧ brought (polled 1) = [] ∧
    brought (polled 2) = [.rejected (fakeReject (ascii "30") 0)] ∧ brought (polled 3) = [] := by
  decide +kernel

theorem polled_still : (polled 4).pollIo.2 = polled 4 := by
  have hquiet : (polled 4).socket.isOpen = true ∧ (polled 4).socket.recvs.length = 0 ∧ (polled 4).inBuffer = [] ∧
      (polled 4).outPending = [] ∧ (polled 4).state ≠ .active := by
    decide +kernel
  obtain ⟨hopen, hrecvs, hin, hout, hstate⟩ := hquiet
  rw [pollIo_quiet hopen (List.length_eq_zero_iff.1 hrecvs) hin hout hstate]

def lateReject : SessionEvent := .rejected (fakeReject (ascii "30") 0)

/-- Three polls fit into a wait, the last of which ends behind the deadline. -/
def lateRunner : ScenarioRunner where
  client := OuchClient.create lateSession (Domain.Throttler.create 10 10) {} (ascii "C-")
  instruments := { findBySymbol := fun symbol => some { symbol } }
  around := { throttle := ⟨fun _ => 1, 0⟩, wall := ⟨fun _ => 1, 0⟩, patience := fun _ _ => 2 }

theorem lateRunner_schedule : lateRunner.Schedule [lateReject] := by
  obtain ⟨hfirst, hsecond, hthird, hfourth⟩ := brought_late
  have hrest := arrived_still polled_still
  intro k
  change arrived k lateSession <+: [lateReject]
  match k with
  | 0 => exact List.nil_prefix
  | 1 =>
    change brought lateSession ++ [] <+: _
    rw [hfirst]
    exact List.nil_prefix
  | 2 =>
    change brought lateSession ++ (brought (polled 1) ++ []) <+: _
    rw [hfirst, hsecond]
    exact List.nil_prefix
  | 3 =>
    change brought lateSession ++ (brought (polled 1) ++ (brought (polled 2) ++ [])) <+: _
    rw [hfirst, hsecond, hthird]
    exact List.prefix_rfl
  | k + 4 =>
    change brought lateSession ++ (brought (polled 1) ++ (brought (polled 2) ++ (brought (polled 3) ++
      arrived k (polled 4)))) <+: _
    rw [hfirst, hsecond, hthird, hfourth, hrest]
    exact List.prefix_rfl

def expectReject : List Expect := [{ msg := "order_rejected" }]

def noSteps : Scenario where
  steps := []

theorem verdicts_agree_iff_late :
    (AllWaits Brings noSteps expectReject lateRunner [lateReject] ↔ ∀ r' : ScenarioRunner, r'.Schedule [lateReject] →
        r'.tokenIndex = lateRunner.tokenIndex → AllWaits Brings noSteps expectReject r' [lateReject] →
        Agree noSteps expectReject lateRunner r') ∧
      ((checkAll noSteps expectReject lateRunner).1.map Prod.snd).flatten <+: [lateReject] :=
  verdicts_agree_iff noSteps (by decide) lateRunner_schedule

/-- The last poll of the wait brings the reject: the expectation times out with
the reject in the queue. Had it come before, the expectation would pass. -/
theorem last_poll_times_out : ¬ ∀ (sc : Scenario) (exps : List Expect) (r r' : ScenarioRunner)
    (inbound : List SessionEvent), (∀ exp ∈ exps, OfMessage exp) → r.Schedule inbound → r'.Schedule inbound →
    r'.tokenIndex = r.tokenIndex → AllWaits Comes sc exps r inbound → AllWaits Comes sc exps r' inbound →
    Agree sc exps r r' := by
  intro h
  have hclosed : (lateRunner.early [lateReject]).Closed := rfl
  have hcomes : Comes 2 lateSession := by
    obtain ⟨hfirst, hsecond, hthird, -⟩ := brought_late
    change brought lateSession ++ (brought (polled 1) ++ (brought (polled 2) ++ [])) ≠ []
    rw [hfirst, hsecond, hthird]
    apply List.cons_ne_nil
  have hagree := h noSteps expectReject lateRunner (lateRunner.early [lateReject]) [lateReject] (by decide)
    lateRunner_schedule hclosed.schedule rfl ⟨⟨fun _ _ => hcomes, fun _ _ _ _ => trivial⟩, trivial⟩
    (hclosed.allWaits Comes noSteps (by decide))
  have htaken := congrArg (List.map Prod.snd) hagree.verdicts
  revert htaken
  decide +kernel

end ScenarioRunner

end BistColo.Runner
