import BistColo.Runner.FixReplay
import BistColo.Runner.Verdict
/-!
# What a passed step of either runner rests on

The FIX runner's half, and the theorem for both. `passed_backed` gives every
passed step its events, or the state that was looked at. A heartbeat leaves no
trace in either, a closed socket or a refused login need not be the answer to the
step, and a duplicate may have been made up: `passed_unseen`.
-/

open StreamKit

namespace BistColo.Runner

open Ouch

/-- What the FIX runner has when a step passes: the events, or the last reading
of each client's state. -/
def FixEvidence (exp : Expect) (taken : List FixEvent) (seen : Fix.Client → Option Fix.FixSessionState) : Prop :=
  match exp.msg with
  | "server_heartbeat" => True
  | "fix_logout_complete" => ∀ c, seen c ≠ some .active
  -- whether the fields of these are looked at is left open
  | "any" => Supplied (fun _ => True) exp.needed taken
  | _ => Supplied (fun ev => Shows exp (fixEventName ev) (fixEventField ev) ∧
      FixScenarioRunner.isBreadcrumb exp ev = false) exp.needed taken

theorem fixEventMatches_ok {exp : Expect} {ev : FixEvent} (h : fixEventMatches exp ev = .ok ()) :
    Shows exp (fixEventName ev) (fixEventField ev) := by
  unfold fixEventMatches at h
  split at h
  · cases h
  · rename_i hname
    exact shows_of_match hname h

namespace FixScenarioRunner

/-! ## What leaves the queue and the index alone -/

/-- The queue, and what is known of it, is the same. -/
structure SameQueue (r r' : FixScenarioRunner) : Prop where
  events : r'.events = r.events
  pushed : r'.pushed = r.pushed
  popped : r'.popped = r.popped

theorem SameQueue.refl (r : FixScenarioRunner) : SameQueue r r := ⟨rfl, rfl, rfl⟩

theorem SameQueue.trans {r r' r'' : FixScenarioRunner} (h : SameQueue r r') (h' : SameQueue r' r'') : SameQueue r r'' :=
  ⟨h'.events.trans h.events, h'.pushed.trans h.pushed, h'.popped.trans h.popped⟩

/-- Only clients were asked: the queue and the index are the same. -/
structure OnlyAsked (r r' : FixScenarioRunner) : Prop where
  queue : SameQueue r r'
  index : r'.tokenIndex = r.tokenIndex

theorem OnlyAsked.refl (r : FixScenarioRunner) : OnlyAsked r r := ⟨.refl r, rfl⟩

theorem OnlyAsked.trans {r r' r'' : FixScenarioRunner} (h : OnlyAsked r r') (h' : OnlyAsked r' r'') : OnlyAsked r r'' :=
  ⟨h.queue.trans h'.queue, h'.index.trans h.index⟩

theorem onlyAsked_call (r : FixScenarioRunner) (q : Fix.Call) : OnlyAsked r (r.call q).2 := ⟨⟨rfl, rfl, rfl⟩, rfl⟩

theorem sameQueue_index (r : FixScenarioRunner) (id : Bytes) (info : TokenInfo) : SameQueue r (r.index id info) := by
  unfold index
  split
  · exact .refl r
  · exact ⟨rfl, rfl, rfl⟩

theorem sameQueue_request (r : FixScenarioRunner) (s : Step) (q : Fix.Call) (id : Bytes) (info : TokenInfo) :
    SameQueue r (r.request s q id info).2 := by
  have hcall := (r.onlyAsked_call q).queue
  unfold request
  split
  · split
    · rename_i he
      rwa [he] at hcall
    · rename_i he
      rw [he] at hcall
      exact hcall.trans (sameQueue_index _ id info)
  · exact .refl r

theorem onlyAsked_isIn (r : FixScenarioRunner) (c : Fix.Client) (sts : List Fix.FixSessionState) :
    OnlyAsked r (r.isIn c sts).2 := by
  induction sts generalizing r with
  | nil => exact .refl r
  | cons st sts ih =>
    have hread : OnlyAsked r (r.state c).2 := ⟨⟨rfl, rfl, rfl⟩, rfl⟩
    rw [isIn]
    split
    · dsimp only
      split
      · exact hread
      · exact hread.trans (ih _)
    · exact .refl r

theorem onlyAsked_relogon (r : FixScenarioRunner) (c : Fix.Client) : OnlyAsked r (r.relogon c).2 := by
  have hask := r.onlyAsked_isIn c [.loggedOut, .disconnected, .failed]
  unfold relogon
  split
  · rename_i he
    rwa [he] at hask
  · rename_i asked he
    rw [he] at hask
    have hcall := hask.trans (asked.onlyAsked_call (.login c))
    split
    · rename_i hc
      rwa [hc] at hcall
    · rename_i hc
      rwa [hc] at hcall

theorem onlyAsked_runLogon (r : FixScenarioRunner) (s : Step) : OnlyAsked r (r.runLogon s).2 := by
  have hoe := r.onlyAsked_isIn .oe [.active]
  unfold runLogon
  split
  · rename_i he
    rwa [he] at hoe
  · rename_i r1 he
    rw [he] at hoe
    have hrd := hoe.trans (r1.onlyAsked_isIn .rd [.active])
    split
    · rename_i he
      rwa [he] at hrd
    · rename_i r2 he
      rw [he] at hrd
      have hagain := hrd.trans (r2.onlyAsked_relogon .oe)
      split
      · rename_i he
        rwa [he] at hagain
      · rename_i r3 he
        rw [he] at hagain
        have hlast := hagain.trans (r3.onlyAsked_relogon .rd)
        split
        · rename_i he
          rwa [he] at hlast
        · rename_i he
          rwa [he] at hlast

theorem onlyAsked_logout (r : FixScenarioRunner) (c : Fix.Client) : OnlyAsked r (r.logout c) := by
  unfold logout
  split
  · exact r.onlyAsked_call _
  · exact .refl r

theorem onlyAsked_runAmr (r : FixScenarioRunner) (s : Step) (a : FixAmrSubscribeArgs) :
    OnlyAsked r (r.runAmr s a).2 := by
  have hcall := r.onlyAsked_call (.subscribeAll a.applReqId)
  unfold runAmr
  split
  · unfold ofCall
    split
    · rename_i he
      rwa [he] at hcall
    · rename_i he
      rwa [he] at hcall
  · exact .refl r

/-- No action touches the queue. -/
theorem sameQueue_act (r : FixScenarioRunner) (s : Step) : SameQueue r (r.act s).2 := by
  unfold act
  split
  · exact (r.onlyAsked_runLogon s).queue
  · exact (((r.onlyAsked_logout .oe).trans (onlyAsked_logout _ .rd)).trans (onlyAsked_logout _ .dc)).queue
  · exact (r.onlyAsked_runAmr s _).queue
  · exact (r.onlyAsked_runAmr s _).queue
  · exact .refl r
  · exact .refl r
  · exact r.sameQueue_request ..
  · exact r.sameQueue_request ..
  · exact r.sameQueue_request ..
  · exact r.sameQueue_request ..
  · exact r.sameQueue_request ..
  · exact r.sameQueue_request ..
  · exact r.sameQueue_request ..
  all_goals exact .refl r

/-! ## Waiting -/

/-- The account of the queue. -/
def Sourced (r : FixScenarioRunner) : Prop := Held r.pushed r.popped r.events

theorem SameQueue.sourced {r r' : FixScenarioRunner} (h : SameQueue r r') (hr : r.Sourced) : r'.Sourced := by
  rwa [Sourced, h.events, h.pushed, h.popped]

theorem deliver_sourced {r : FixScenarioRunner} (hr : r.Sourced) : r.deliver.Sourced := by
  unfold deliver
  split
  · exact hr
  · exact Held.push hr _

theorem deliver_popped (r : FixScenarioRunner) : r.deliver.popped = r.popped := by
  unfold deliver
  split <;> rfl

theorem waitForEvent_takes (r : FixScenarioRunner) :
    (r.Sourced → r.waitForEvent.2.Sourced) ∧ r.waitForEvent.2.popped = r.popped ++ r.waitForEvent.1.toList := by
  unfold waitForEvent
  dsimp only
  split
  · exact ⟨deliver_sourced, by rw [deliver_popped]; exact (List.append_nil _).symm⟩
  · rename_i ev rest hevents
    refine ⟨?_, by rw [deliver_popped]; rfl⟩
    intro hr
    have hheld : Held r.deliver.pushed r.deliver.popped r.deliver.events := deliver_sourced hr
    rw [hevents] at hheld
    exact hheld.pop

/-- The loop takes events; if it ends well, as many as needed are among them that count. -/
theorem matchEvents_takes (exp : Expect) (left needed : Nat) (r : FixScenarioRunner) :
    (r.Sourced → (matchEvents exp left needed r).2.Sourced) ∧
      ∃ taken, (matchEvents exp left needed r).2.popped = r.popped ++ taken ∧
        ((matchEvents exp left needed r).1 = .ok () → Supplied (fun ev => counts exp ev = true) needed taken) := by
  induction left generalizing needed r with
  | zero =>
    cases needed with
    | zero => exact ⟨id, [], (List.append_nil _).symm, fun _ => ⟨[], .slnil, rfl, nofun⟩⟩
    | succ needed => exact ⟨deliver_sourced, [], (deliver_popped r).trans (List.append_nil _).symm, nofun⟩
  | succ left ih =>
    cases needed with
    | zero => exact ⟨id, [], (List.append_nil _).symm, fun _ => ⟨[], .slnil, rfl, nofun⟩⟩
    | succ needed =>
      obtain ⟨hsourced, htaken⟩ := r.waitForEvent_takes
      rw [matchEvents]
      split
      · rename_i he
        rw [he] at hsourced htaken
        exact ⟨hsourced, [], htaken, nofun⟩
      · rename_i ev next he
        rw [he] at hsourced htaken
        obtain ⟨hrest, taken, hmore, hsupplied⟩ := ih (if counts exp ev then needed else needed + 1) next
        -- the event is taken in any case; it joins those found if it counts
        refine ⟨fun hr => hrest (hsourced hr), ev :: taken, ?_, ?_⟩
        · rw [hmore, htaken, Option.toList_some, List.append_assoc, List.singleton_append]
        · intro hok
          obtain ⟨es, hsub, hlen, hall⟩ := hsupplied hok
          split at hlen
          · rename_i hcounts
            refine ⟨ev :: es, hsub.cons_cons ev, by rw [List.length_cons, hlen], ?_⟩
            rw [List.forall_mem_cons]
            exact ⟨hcounts, hall⟩
          · exact ⟨es, hsub.cons ev, hlen, hall⟩

/-! ## Logout -/

/-- The last reading of a client's state. -/
def lastState (r : FixScenarioRunner) (c : Fix.Client) : Option Fix.FixSessionState :=
  if r.clients.has c then some (r.clients.state c (r.readings c - 1)) else none

theorem isIn_has (r : FixScenarioRunner) {c : Fix.Client} (h : r.clients.has c = true) :
    r.isIn c [.active] = (decide (r.clients.state c (r.readings c) = .active), (r.state c).2) := by
  rw [isIn, if_pos h]
  by_cases hactive : r.clients.state c (r.readings c) = .active
  · simp [state, hactive]
  · simp [state, hactive, isIn]

theorem isIn_absent (r : FixScenarioRunner) {c : Fix.Client} (h : ¬ r.clients.has c = true) :
    r.isIn c [.active] = (false, r) := by
  rw [isIn, if_neg h]

/-- A client that is asked and not found Active was last read as something else. -/
theorem isIn_active (r : FixScenarioRunner) (c : Fix.Client) (h : (r.isIn c [.active]).1 = false) :
    (r.isIn c [.active]).2.lastState c ≠ some .active := by
  by_cases hhas : r.clients.has c = true
  · rw [r.isIn_has hhas] at h ⊢
    have hnot := of_decide_eq_false h
    simpa [lastState, state, hhas] using hnot
  · rw [r.isIn_absent hhas]
    simp [lastState, hhas]

theorem isIn_other (r : FixScenarioRunner) {c d : Fix.Client} (h : d ≠ c) :
    (r.isIn c [.active]).2.lastState d = r.lastState d := by
  by_cases hhas : r.clients.has c = true
  · rw [r.isIn_has hhas]
    simp [lastState, state, h]
  · rw [r.isIn_absent hhas]

theorem anyActive_last (r : FixScenarioRunner) (h : r.anyActive.1 = false) (c : Fix.Client) :
    r.anyActive.2.lastState c ≠ some .active := by
  unfold anyActive at h ⊢
  dsimp only at h ⊢
  rw [Bool.or_eq_false_iff, Bool.or_eq_false_iff] at h
  obtain ⟨⟨hoe, hrd⟩, hdc⟩ := h
  cases c with
  | oe =>
    -- the readings of the other clients come later, and leave this one
    rw [isIn_other _ (by decide), isIn_other _ (by decide)]
    exact isIn_active _ _ hoe
  | rd =>
    rw [isIn_other _ (by decide)]
    exact isIn_active _ _ hrd
  | dc => exact isIn_active _ _ hdc

theorem onlyAsked_anyActive (r : FixScenarioRunner) : OnlyAsked r r.anyActive.2 :=
  ((r.onlyAsked_isIn .oe [.active]).trans (onlyAsked_isIn _ .rd [.active])).trans (onlyAsked_isIn _ .dc [.active])

/-- Clearing the queue takes what is in it. -/
theorem clear_takes (r : FixScenarioRunner) :
    (r.Sourced → r.clear.Sourced) ∧ (∃ taken, r.clear.popped = r.popped ++ taken) ∧
      ∀ c, r.clear.lastState c = r.lastState c := by
  refine ⟨?_, ⟨r.deliver.events, ?_⟩, ?_⟩
  · intro hr
    exact Held.clear (deliver_sourced hr)
  · rw [← r.deliver_popped]
    rfl
  · intro c
    have hclients : r.deliver.clients = r.clients ∧ r.deliver.readings = r.readings := by
      unfold deliver
      split <;> exact ⟨rfl, rfl⟩
    simp [lastState, clear, hclients]

theorem awaitLogout_takes (looks : Nat) (r : FixScenarioRunner) :
    (r.Sourced → (awaitLogout looks r).2.Sourced) ∧ (∃ taken, (awaitLogout looks r).2.popped = r.popped ++ taken) ∧
      ((awaitLogout looks r).1 = .ok () → ∀ c, (awaitLogout looks r).2.lastState c ≠ some .active) := by
  induction looks generalizing r with
  | zero => exact ⟨id, ⟨[], (List.append_nil _).symm⟩, nofun⟩
  | succ looks ih =>
    have hask := r.onlyAsked_anyActive.queue
    have hlast := r.anyActive_last
    rw [awaitLogout]
    split
    · rename_i asked he
      rw [he] at hask hlast
      obtain ⟨hsourced, htaken, hsame⟩ := asked.clear_takes
      refine ⟨fun hr => hsourced (hask.sourced hr), by rwa [hask.popped] at htaken, ?_⟩
      intro _ c
      rw [hsame c]
      exact hlast rfl c
    · rename_i asked he
      rw [he] at hask
      obtain ⟨hsourced, htaken, hdone⟩ := ih asked
      exact ⟨fun hr => hsourced (hask.sourced hr), by rwa [hask.popped] at htaken, hdone⟩

/-! ## Runs -/

theorem counts_shows {exp : Expect} {ev : FixEvent} (hany : exp.msg ≠ "any") (h : counts exp ev = true) :
    Shows exp (fixEventName ev) (fixEventField ev) ∧ isBreadcrumb exp ev = false := by
  simp only [counts, Bool.and_eq_true, Bool.not_eq_true', Bool.or_eq_true, decide_eq_true_eq] at h
  obtain ⟨hcrumb, hmatch | hmsg⟩ := h
  · exact ⟨fixEventMatches_ok hmatch, hcrumb⟩
  · exact absurd hmsg hany

/-- An expectation that is looked at ends with its evidence, if it ends well. -/
theorem matchExpectation_evidence (r : FixScenarioRunner) (exp : Expect) (timeoutMs : Int) (hr : r.Sourced) :
    (r.matchExpectation exp timeoutMs).2.Sourced ∧
      ∃ taken, (r.matchExpectation exp timeoutMs).2.popped = r.popped ++ taken ∧
        ((r.matchExpectation exp timeoutMs).1 = .ok () →
          FixEvidence exp taken (r.matchExpectation exp timeoutMs).2.lastState) := by
  unfold matchExpectation FixEvidence
  split
  · rename_i hmsg
    simp only [hmsg]
    exact ⟨hr, [], (List.append_nil _).symm, fun _ => trivial⟩
  · rename_i hmsg
    simp only [hmsg]
    obtain ⟨hsourced, ⟨taken, htaken⟩, hlast⟩ :=
      awaitLogout_takes (r.patience r.waits timeoutMs) { r with waits := r.waits + 1 }
    exact ⟨hsourced hr, taken, htaken, hlast⟩
  · rename_i hbeat hlogout
    obtain ⟨hsourced, taken, htaken, hsupplied⟩ := matchEvents_takes exp r.left exp.needed r
    refine ⟨hsourced hr, taken, htaken, ?_⟩
    intro hok
    obtain ⟨es, hsub, hlen, hall⟩ := hsupplied hok
    split
    · exact absurd ‹_› hbeat
    · exact absurd ‹_› hlogout
    · exact ⟨es, hsub, hlen, fun _ _ => trivial⟩
    · rename_i hany
      exact ⟨es, hsub, hlen, fun ev hev => counts_shows hany (hall ev hev)⟩

theorem runStep_verdict (sc : Scenario) (r : FixScenarioRunner) (s : Step) (hr : r.Sourced) :
    (runStep sc r s).2.Sourced ∧ ∃ v : Verdict FixEvent (Fix.Client → Option Fix.FixSessionState),
      v.result = (runStep sc r s).1 ∧ v.Justified FixEvidence s ∧ (runStep sc r s).2.popped = r.popped ++ v.taken := by
  have hact := r.sameQueue_act s
  have hacted := hact.sourced hr
  unfold runStep judge
  split
  · rename_i hnone
    refine ⟨hacted, ⟨_, [], (r.act s).2.lastState⟩, rfl, .of_none hnone, ?_⟩
    rw [hact.popped, List.append_nil]
  · rename_i exp hexp
    split
    · -- the action passed: the expectation decides
      obtain ⟨hsourced, taken, htaken, hevidence⟩ := (r.act s).2.matchExpectation_evidence exp (timeout sc exp) hacted
      rw [hact.popped] at htaken
      split
      · rename_i judged he
        rw [he] at hsourced htaken hevidence
        exact ⟨hsourced, ⟨_, taken, judged.lastState⟩, rfl, .of_evidence hexp (hevidence rfl), htaken⟩
      · rename_i judged he
        rw [he] at hsourced htaken
        exact ⟨hsourced, ⟨_, taken, judged.lastState⟩, rfl, .of_failed Bool.false_ne_true, htaken⟩
    · rename_i hfailed
      refine ⟨hacted, ⟨_, [], (r.act s).2.lastState⟩, rfl, .of_failed hfailed, ?_⟩
      rw [hact.popped, List.append_nil]

theorem runSteps_eq (sc : Scenario) (steps : List Step) (r : FixScenarioRunner) :
    reports (fun r s => some (runStep sc r s)) steps r = some (runSteps sc steps r) := by
  induction steps generalizing r with
  | nil => rfl
  | cons s steps ih =>
    rw [reports]
    dsimp only
    rw [ih]
    rfl

/-- A runner that has taken nothing yet. -/
structure Begins (r : FixScenarioRunner) : Prop where
  events : r.events = r.pushed
  popped : r.popped = []

theorem Begins.sourced {r : FixScenarioRunner} (h : r.Begins) : r.Sourced := by
  rw [Sourced, h.events, h.popped]
  exact .all_waiting _

theorem run_ledger {r : FixScenarioRunner} (hr : r.Begins) (sc : Scenario) :
    ∃ vs, Ledger FixEvidence sc.steps (r.run sc).1 (r.run sc).2.pushed (r.run sc).2.events vs := by
  have hstep : ∀ r s result r', r.Sourced → some (runStep sc r s) = some (result, r') → r'.Sourced ∧
      ∃ v : Verdict FixEvent (Fix.Client → Option Fix.FixSessionState), v.result = result ∧ v.Justified FixEvidence s ∧
        r'.popped = r.popped ++ v.taken := by
    intro r s result r' hs heq
    have hverdict := runStep_verdict sc r s hs
    rwa [Option.some.inj heq] at hverdict
  obtain ⟨hlast, vs, hresults, hjustified, htaken⟩ :=
    reports_account Sourced popped Verdict.result Verdict.taken (Verdict.Justified FixEvidence) hstep hr.sourced
      (runSteps_eq sc sc.steps r)
  refine ⟨vs, hresults, ?_, hjustified⟩
  have hheld : Held (r.run sc).2.pushed (r.run sc).2.popped (r.run sc).2.events := hlast
  rwa [run, htaken, hr.popped, List.nil_append] at hheld

end FixScenarioRunner

/-! ## Both runners -/

/-- In every run of either runner every step has a verdict, no event serves two
steps, and a step that passed has the evidence for its expectation. -/
theorem passed_backed :
    (∀ (r : ScenarioRunner) (sc : Scenario) (results : List StepResult) (last : ScenarioRunner), r.Begins →
      r.run sc = some (results, last) →
      ∃ vs, Ledger Evidence sc.steps results (last.pushed.map Pushed.event) last.events vs) ∧
    ∀ (r : FixScenarioRunner) (sc : Scenario), r.Begins →
      ∃ vs, Ledger FixEvidence sc.steps (r.run sc).1 (r.run sc).2.pushed (r.run sc).2.events vs :=
  ⟨fun _ _ _ _ hr h => ScenarioRunner.run_ledger hr h, fun _ sc hr => FixScenarioRunner.run_ledger hr sc⟩

/-- A runner whose gateway accepts the login and then falls silent. -/
def silentRunner : ScenarioRunner where
  client := OuchClient.create (OuchSession.create
    { sends := [.accept 49, .accept 3, .accept 3], recvs := [.data OuchSession.acceptChunk, .again, .again, .again] }
    { reading := fun n => if n < 3 then 1 else 16000000001 }
    { username := ascii "OUCH01", password := ascii "secret" } Soup.heartbeatSendNs)
    (Domain.Throttler.create 10 10) {} (ascii "C-")
  instruments := { findBySymbol := fun symbol => some { symbol } }
  around := { throttle := ⟨fun _ => 1, 0⟩, wall := ⟨fun _ => 1, 0⟩, patience := fun _ _ => 3 }

theorem silentRunner_begins : silentRunner.Begins where
  events := rfl
  popped := rfl
  session := ⟨silentRunner.session, [], ⟨rfl, rfl, rfl, rfl, rfl, rfl, rfl, rfl⟩, rfl⟩
  transport := nofun

/-- A client with one execution report on its way. -/
def reportingRunner : FixScenarioRunner where
  clients := { has := fun c => c = .oe, state := fun _ _ => .active, answer := fun _ _ => .ok () }
  arrivals := [[.executionReport { clOrdId := ascii "100" }]]

def expecting (msg : String) : Step := { action := "expect", expect := some { msg } }

theorem passed_backed_silent :
    (∃ results last vs, silentRunner.run { steps := [expecting "server_heartbeat"] } = some (results, last) ∧
      Ledger Evidence [expecting "server_heartbeat"] results (last.pushed.map Pushed.event) last.events vs) ∧
    ∃ vs, Ledger FixEvidence [expecting "fix_execution_report"]
      (reportingRunner.run { steps := [expecting "fix_execution_report"] }).1
      (reportingRunner.run { steps := [expecting "fix_execution_report"] }).2.pushed
      (reportingRunner.run { steps := [expecting "fix_execution_report"] }).2.events vs := by
  obtain ⟨vs, hvs⟩ := passed_backed.1 silentRunner { steps := [expecting "server_heartbeat"] } _ _ silentRunner_begins rfl
  refine ⟨⟨_, _, vs, rfl, hvs⟩, ?_⟩
  exact passed_backed.2 reportingRunner { steps := [expecting "fix_execution_report"] } ⟨rfl, rfl⟩

/-! ## Steps that pass on nothing -/

/-- The last of the steps passes though no packet of the type was ever
dispatched, and the peer has not closed. -/
def PassesUnheard (r : ScenarioRunner) (steps : List Step) (type : UInt8) : Prop :=
  ∃ results last, r.run { steps } = some (results, last) ∧ (results.getLast?.map (·.passed)) = some true ∧
    (∀ f ∈ dispatched last.session.log, f.1.packetType ≠ type) ∧
    .stateChange .disconnected "peer closed" ∉ last.session.log

theorem passesUnheard_of {r : ScenarioRunner} {steps : List Step} {type : UInt8}
    (h : (r.run { steps }).any fun p => (p.1.getLast?.map (·.passed)) = some true ∧
      (∀ f ∈ dispatched p.2.session.log, f.1.packetType ≠ type) ∧
      .stateChange .disconnected "peer closed" ∉ p.2.session.log) : PassesUnheard r steps type := by
  obtain ⟨p, hrun, hp⟩ := (Option.any_eq_true _ _).1 h
  exact ⟨p.1, p.2, hrun, of_decide_eq_true hp⟩

def placeThirty (expect : Option Expect) : Step :=
  { action := "place", args := .place { symbol := ascii "ACSEL.E", quantity := 100, token := ascii "30" }, expect }

theorem passed_unseen :
    -- a heartbeat that never came, and the end of a session that never began
    PassesUnheard silentRunner [expecting "server_heartbeat"] Soup.Pkt.serverHeartbeat ∧
    PassesUnheard silentRunner [expecting "socket_closed"] Soup.Pkt.endOfSession ∧
    -- the login was accepted, and the heartbeats stopped
    PassesUnheard silentRunner
      [{ action := "ouch_login" }, expecting "order_accepted", expecting "login_rejected"] Soup.Pkt.loginRejected ∧
    -- an order that was never sent
    PassesUnheard silentRunner [placeThirty none, placeThirty (some { msg := "order_rejected" })]
      Soup.Pkt.sequencedData := by
  refine ⟨?_, ?_, ?_, ?_⟩
  · exact passesUnheard_of (by decide +kernel)
  · exact passesUnheard_of (by decide +kernel)
  · exact passesUnheard_of (by decide +kernel)
  · exact passesUnheard_of (by decide +kernel)

end BistColo.Runner
