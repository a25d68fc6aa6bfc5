import BistColo.Ouch.Causes
import BistColo.Runner.Replay
import BistColo.StreamKit.Custody
/-!
# What a passed step rests on

A step that passes with an expectation has taken the events that it counts from
the queue, or it has looked at the session (`Evidence`). Every action keeps the
account of the queue and of what the sessions were sent (`act_keeps`), waiting
takes events and nothing else does, so every run has a ledger (`run_ledger`).
-/

open StreamKit

namespace BistColo.Runner

open Ouch

/-! ## Verdicts -/

/-- An event of this name and these fields is as expected. -/
structure Shows (exp : Expect) (name : String) (lookup : String → Option Bytes) : Prop where
  name : exp.msg = "any" ∨ name = exp.msg
  fields : ∀ f ∈ exp.fields, lookup f.1 = some f.2

/-- Among the events taken there are `needed` that have `P`. -/
def Supplied {ε : Type} (P : ε → Prop) (needed : Nat) (taken : List ε) : Prop :=
  ∃ es : List ε, es.Sublist taken ∧ es.length = needed ∧ ∀ ev ∈ es, P ev

/-- What became of a step: its result, the events it took, and what else the runner looked at. -/
structure Verdict (ε κ : Type) where
  result : StepResult
  taken : List ε
  seen : κ

/-- A step that passed has its evidence. -/
def Verdict.Justified {ε κ : Type} (evidence : Expect → List ε → κ → Prop) (s : Step) (v : Verdict ε κ) : Prop :=
  ∀ exp, s.expect = some exp → v.result.passed = true → evidence exp v.taken v.seen

namespace Verdict.Justified

variable {ε κ : Type} {evidence : Expect → List ε → κ → Prop} {s : Step} {v : Verdict ε κ}

theorem of_none (h : s.expect = none) : v.Justified evidence s := by
  intro exp hexp
  rw [h] at hexp
  cases hexp

theorem of_failed (h : ¬ v.result.passed = true) : v.Justified evidence s := by
  intro exp _ hpassed
  exact absurd hpassed h

theorem of_evidence {exp : Expect} (hexp : s.expect = some exp) (h : evidence exp v.taken v.seen) :
    v.Justified evidence s := by
  intro exp' hexp' _
  rw [hexp, Option.some.injEq] at hexp'
  rwa [← hexp']

end Verdict.Justified

/-- The verdicts of a run: what they took, with what still waits, is what was
put into the queue, so no event serves two steps. -/
structure Ledger {ε κ : Type} (evidence : Expect → List ε → κ → Prop) (steps : List Step) (results : List StepResult)
    (put waiting : List ε) (vs : List (Verdict ε κ)) : Prop where
  results : vs.map (·.result) = results
  held : Held put (vs.flatMap (·.taken)) waiting
  justified : List.Forall₂ (Verdict.Justified evidence) steps vs

/-- What the OUCH runner has when a step passes. -/
def Evidence (exp : Expect) (taken : List SessionEvent) (s : OuchSession) : Prop :=
  match exp.msg with
  | "login_accepted" =>
    s.state = .active ∧ Heard s.log Soup.Pkt.loginAccepted ∧
      ∀ f ∈ exp.fields, ScenarioRunner.loginAcceptedField s f.1 = some f.2
  | "login_rejected" =>
    s.state = .failed ∧ (Heard s.log Soup.Pkt.loginRejected ∨ .stateChange .failed "peer heartbeat timeout" ∈ s.log) ∧
      ∀ f ∈ exp.fields, ScenarioRunner.loginRejectedField s f.1 = some f.2
  | "socket_closed" =>
    s.state = .disconnecting ∨ s.state = .disconnected ∧ (Heard s.log Soup.Pkt.endOfSession ∨
      .stateChange .disconnected "peer closed" ∈ s.log ∨ ∀ st detail, .stateChange st detail ∉ s.log)
  | "server_heartbeat" => True
  | _ => Supplied (fun ev => Shows exp (eventName ev) (eventField ev)) exp.needed taken

/-- A match of the name and the fields, whichever runner asks for it. -/
theorem shows_of_match {exp : Expect} {name : String} {lookup : String → Option Bytes}
    (hname : ¬ (name ≠ exp.msg ∧ exp.msg ≠ "any")) (h : expectedFieldsMatch lookup exp.fields = .ok ()) :
    Shows exp name lookup := by
  refine ⟨?_, expectedFieldsMatch_ok.1 h⟩
  by_cases hany : exp.msg = "any"
  · exact .inl hany
  · exact .inr (not_not.1 fun hne => hname ⟨hne, hany⟩)

theorem eventMatches_ok {exp : Expect} {ev : SessionEvent} (h : eventMatches exp ev = .ok ()) :
    Shows exp (eventName ev) (eventField ev) := by
  unfold eventMatches at h
  split at h
  · cases h
  · rename_i hname
    exact shows_of_match hname h

namespace ScenarioRunner

/-! ## What every action keeps -/

/-- The account of the queue, and the sessions' accounts of their states. -/
structure Sourced (r : ScenarioRunner) : Prop where
  held : Held (r.pushed.map Pushed.event) r.popped r.events
  session : r.session.Explained
  transport : ∀ t, r.around.transport = some t → ∀ n call s, (t n call).session = some s → s.Explained

/-- Nothing is taken from the queue, and the accounts go on. -/
structure Keeps (r r' : ScenarioRunner) : Prop where
  sourced : r.Sourced → r'.Sourced
  popped : r'.popped = r.popped

theorem Keeps.refl (r : ScenarioRunner) : Keeps r r := ⟨id, rfl⟩

theorem Keeps.trans {r r' r'' : ScenarioRunner} (h : Keeps r r') (h' : Keeps r' r'') : Keeps r r'' :=
  ⟨fun hr => h'.sourced (h.sourced hr), h'.popped.trans h.popped⟩

theorem keeps_push (r : ScenarioRunner) (ps : List Pushed) : Keeps r (r.push ps) := by
  refine ⟨fun hr => ⟨?_, hr.session, hr.transport⟩, rfl⟩
  have hheld := hr.held.push (ps.map Pushed.event)
  rwa [← List.map_append] at hheld

theorem keeps_withClient (r : ScenarioRunner) (c : OuchClient) (h : r.Sourced → c.session.Explained) :
    Keeps r (r.withClient c) :=
  ⟨fun hr => ⟨hr.held, h hr, hr.transport⟩, rfl⟩

theorem keeps_settle (r : ScenarioRunner) (op : OuchSession.Op) : Keeps r (r.settle (r.session.step op)) := by
  have hsession : Keeps r (r.withClient { r.client with session := r.session.step op }) :=
    r.keeps_withClient _ fun hr => OuchSession.explained_step _ op hr.session
  exact hsession.trans (keeps_push _ _)

theorem keeps_install (r : ScenarioRunner) (s : OuchSession) (h : r.Sourced → s.Explained) : Keeps r (r.install s) :=
  (r.keeps_withClient _ h).trans (keeps_push _ _)

theorem keeps_patience (r : ScenarioRunner) (timeoutMs : Int) : Keeps r (r.patience timeoutMs).2 :=
  ⟨fun hr => ⟨hr.held, hr.session, hr.transport⟩, rfl⟩

theorem keeps_tick (r : ScenarioRunner) : Keeps r r.tick := ⟨fun hr => ⟨hr.held, hr.session, hr.transport⟩, rfl⟩

theorem keeps_wallNs (r : ScenarioRunner) : Keeps r r.wallNs.2 := ⟨fun hr => ⟨hr.held, hr.session, hr.transport⟩, rfl⟩

theorem keeps_index (r : ScenarioRunner) (token : OrderToken) (id : UInt64) (book : UInt32) (side : UInt8) :
    Keeps r (r.index token id book side) :=
  ⟨fun hr => ⟨hr.held, hr.session, hr.transport⟩, rfl⟩

theorem keeps_updateIndices (r : ScenarioRunner) (ev : SessionEvent) : Keeps r (r.updateIndices ev) := by
  cases ev with
  | accepted m => exact r.keeps_index ..
  | replaced m => exact r.keeps_index ..
  | _ => exact .refl r

/-- A client that handed its session a message, or nothing. -/
theorem submit_explained (c : OuchClient) (m : OuchSession.Outgoing) (h : c.session.Explained) :
    (c.submit m).2.session.Explained :=
  OuchSession.explained_step c.session (.send m) h

theorem call_explained (c : OuchClient) (now : UInt64) (q : OuchClient.Request) (h : c.session.Explained) :
    (c.call now q).2.session.Explained := by
  rcases c.call_cases now q with ⟨-, e, he⟩ | ⟨-, -, e, he⟩ | ⟨-, -, -, e, he⟩ | ⟨-, -, he⟩
  · rwa [he]
  · rwa [he]
  · rwa [he]
  · rw [he]
    exact submit_explained _ _ h

theorem keeps_request (r : ScenarioRunner) (q : OuchClient.Request) : Keeps r (r.request q).2 :=
  r.keeps_tick.trans (keeps_withClient _ _ fun hr => call_explained _ _ q hr.session)

theorem keeps_pollIo (r : ScenarioRunner) : Keeps r r.pollIo.2 := r.keeps_settle .pollIo

/-- A step made of a call that keeps the accounts. -/
theorem keeps_ofCall {r : ScenarioRunner} (s : Step) {p : Result Unit × ScenarioRunner} (h : Keeps r p.2) :
    Keeps r (ofCall s p).2 := by
  unfold ofCall
  split <;> exact h

/-! ## The actions -/

theorem keeps_polled {r next : ScenarioRunner} {polled : Result Unit} (h : r.pollIo = (polled, next)) : Keeps r next := by
  have hpoll := r.keeps_pollIo
  rwa [h] at hpoll

theorem keeps_awaitLogin (polls : Nat) (r : ScenarioRunner) : Keeps r (awaitLogin polls r).2 := by
  induction polls generalizing r with
  | zero =>
    rw [awaitLogin]
    split
    · exact .refl r
    · split
      · rename_i hpoll
        exact keeps_polled hpoll
      · rename_i hpoll
        exact keeps_polled hpoll
  | succ polls ih =>
    rw [awaitLogin]
    split
    · exact .refl r
    · split
      · rename_i hpoll
        exact keeps_polled hpoll
      · rename_i hpoll
        exact (keeps_polled hpoll).trans (ih _)

theorem keeps_viaTransport {r r' : ScenarioRunner} {s : Step} {result : StepResult} {t : Nat → TransportCall → Outcome}
    {call : TransportCall} {otherwise : String} (ht : r.around.transport = some t)
    (h : r.viaTransport s t call otherwise = some (result, r')) : Keeps r r' := by
  unfold viaTransport at h
  dsimp only at h
  split at h
  · cases h
  · rename_i session hsession
    have hcount : Keeps r { r with transports := r.transports + 1 } :=
      ⟨fun hr => ⟨hr.held, hr.session, hr.transport⟩, rfl⟩
    have hinstall : Keeps r ({ r with transports := r.transports + 1 }.install session) :=
      hcount.trans (keeps_install _ _ fun hr => hr.transport t ht _ _ _ hsession)
    split at h
    · cases h
      exact hinstall
    · cases h
      exact hinstall

theorem keeps_runLogin {r r' : ScenarioRunner} {s : Step} {a : LoginArgs} {result : StepResult}
    (h : r.runLogin s a = some (result, r')) : Keeps r r' := by
  unfold runLogin at h
  split at h
  · cases h
    exact .refl r
  · split at h
    · rename_i t ht
      exact keeps_viaTransport ht h
    -- without a transport the session at hand logs in
    · have hlogin : Keeps r (r.settle r.session.beginLogin.2) := r.keeps_settle .beginLogin
      dsimp only at h
      split at h
      · cases h
        exact hlogin
      · have hawait := (hlogin.trans (keeps_patience _ 2000)).trans (keeps_awaitLogin
          ((r.settle r.session.beginLogin.2).patience 2000).1 ((r.settle r.session.beginLogin.2).patience 2000).2)
        split at h
        · rename_i he
          rw [he] at hawait
          cases h
          exact hawait
        · rename_i he
          rw [he] at hawait
          cases h
          exact hawait

theorem keeps_runSwitchGateway {r r' : ScenarioRunner} {s : Step} {a : SwitchGatewayArgs} {result : StepResult}
    (h : r.runSwitchGateway s a = some (result, r')) : Keeps r r' := by
  unfold runSwitchGateway at h
  split at h
  · cases h
    exact .refl r
  · rename_i t ht
    exact keeps_viaTransport ht h

theorem keeps_runPlace (r : ScenarioRunner) (s : Step) (a : PlaceArgs) : Keeps r (r.runPlace s a).2 := by
  unfold runPlace
  split
  · exact .refl r
  · rename_i inst _
    have hrequest := r.keeps_request (.place (placeArgs inst a))
    split
    · rename_i he
      rw [he] at hrequest
      -- the made-up reject is pushed, like an event that was received
      split
      · exact (hrequest.trans (keeps_wallNs _)).trans (keeps_push _ _)
      · exact hrequest
    · rename_i he
      rwa [he] at hrequest

/-- The front of the queue goes behind the others. -/
theorem keeps_rotate {r r' : ScenarioRunner} (h : r.rotate = some r') : Keeps r r' := by
  unfold rotate at h
  split at h
  · cases h
    exact .refl r
  · rename_i ev rest hevents
    split at h
    · cases h
      -- the event stays in the queue, so nothing is taken
      have hturn : Keeps r { r with events := rest ++ [ev] } := by
        refine ⟨fun hr => ⟨?_, hr.session, hr.transport⟩, rfl⟩
        have hheld := hr.held
        rw [hevents] at hheld
        exact hheld.requeue
      exact hturn.trans (keeps_updateIndices _ ev)
    · cases h

theorem cancelById_explained (c : OuchClient) (now : UInt64) (book : UInt32) (side : UInt8) (id : UInt64)
    (h : c.session.Explained) : (cancelById c now book side id).2.session.Explained := by
  have hacquire : (c.tryAcquire now).2.session.Explained := h
  unfold cancelById
  split
  · rename_i he
    rwa [he] at hacquire
  · rename_i he
    rw [he] at hacquire
    exact submit_explained _ _ hacquire

theorem keeps_runCancelId {r r' : ScenarioRunner} {s : Step} {a : CancelByOrderIdArgs} {result : StepResult}
    (h : r.runCancelId s a = some (result, r')) : Keeps r r' := by
  unfold runCancelId at h
  obtain ⟨turned, hrotate, heq⟩ := Option.map_eq_some_iff.1 h
  have hturn := keeps_rotate hrotate
  split at heq
  · cases heq
    exact hturn
  · rename_i id book side _
    have hcancel : Keeps turned (turned.tick.withClient (cancelById turned.client turned.now book side id).2) :=
      turned.keeps_tick.trans (keeps_withClient _ _ fun hr => cancelById_explained _ _ _ _ _ hr.session)
    have hcall := keeps_ofCall (p := ((cancelById turned.client turned.now book side id).1,
      turned.tick.withClient (cancelById turned.client turned.now book side id).2)) s hcancel
    rw [heq] at hcall
    exact hturn.trans hcall

theorem keeps_runQuote (r : ScenarioRunner) (s : Step) (a : MassQuoteArgs) : Keeps r (r.runQuote s a).2 := by
  unfold runQuote
  split
  · exact .refl r
  · exact keeps_ofCall s (r.keeps_request _)

theorem keeps_burstSend (args : Ouch.PlaceArgs) (attempts : Nat) (r : ScenarioRunner) :
    Keeps r (burstSend args attempts r).2 := by
  induction attempts generalizing r with
  | zero => exact .refl r
  | succ attempts ih =>
    have hrequest := r.keeps_request (.place args)
    rw [burstSend]
    split
    · rename_i he
      rwa [he] at hrequest
    · rename_i he
      rw [he] at hrequest
      split
      · exact hrequest
      · exact (hrequest.trans (keeps_pollIo _)).trans (ih _)

theorem keeps_burstLoop (s : Step) (a : BurstPlaceArgs) (left i : Nat) (seq : Nat → UInt64) (r : ScenarioRunner) :
    Keeps r (burstLoop s a left i seq r).2 := by
  induction left generalizing i seq r with
  | zero => exact .refl r
  | succ left ih =>
    rw [burstLoop]
    split
    · exact .refl r
    · rename_i pat _
      split
      · exact .refl r
      · rename_i inst _
        have hsend := keeps_burstSend (burstArgs inst pat (seq (i % a.pattern.length))) 1000 r
        dsimp only
        split
        · rename_i he
          rwa [he] at hsend
        · rename_i he
          rw [he] at hsend
          exact hsend.trans (ih _ _ _)

theorem keeps_runBurstPlace (r : ScenarioRunner) (s : Step) (a : BurstPlaceArgs) : Keeps r (r.runBurstPlace s a).2 := by
  unfold runBurstPlace
  split
  · exact .refl r
  · split
    · exact .refl r
    · exact keeps_burstLoop ..

/-- An action keeps the accounts and takes no event. -/
theorem act_keeps {r r' : ScenarioRunner} {s : Step} {result : StepResult} (h : r.act s = some (result, r')) :
    Keeps r r' := by
  have hdone : ∀ p : StepResult × ScenarioRunner, Keeps r p.2 → some p = some (result, r') → Keeps r r' := by
    rintro p hp heq
    cases heq
    exact hp
  unfold act at h
  split at h
  · exact keeps_runLogin h
  · exact hdone _ (keeps_ofCall s (r.keeps_settle .requestLogout)) h
  · exact hdone _ (r.keeps_runPlace s _) h
  · exact hdone _ (keeps_ofCall s (r.keeps_request _)) h
  · exact keeps_runCancelId h
  · exact hdone _ (keeps_ofCall s (r.keeps_request _)) h
  · exact hdone _ (r.keeps_runQuote s _) h
  · exact keeps_runSwitchGateway h
  · exact hdone _ (r.keeps_runBurstPlace s _) h
  all_goals exact hdone _ (.refl r) h

/-! ## Waiting -/

theorem takes_front {r : ScenarioRunner} {ev : SessionEvent} {rest : List SessionEvent} (h : r.events = ev :: rest) :
    (r.Sourced → ({ r with events := rest, popped := r.popped ++ [ev] }.updateIndices ev).Sourced) ∧
      ({ r with events := rest, popped := r.popped ++ [ev] }.updateIndices ev).popped = r.popped ++ [ev] := by
  have hindices := keeps_updateIndices { r with events := rest, popped := r.popped ++ [ev] } ev
  refine ⟨fun hr => hindices.sourced ⟨?_, hr.session, hr.transport⟩, hindices.popped⟩
  have hheld := hr.held
  rw [h] at hheld
  exact hheld.pop

/-- A poll takes nothing. -/
theorem takes_nothing {r next : ScenarioRunner} {polled : Result Unit} (h : r.pollIo = (polled, next)) :
    (r.Sourced → next.Sourced) ∧ next.popped = r.popped ++ (none : Option SessionEvent).toList := by
  obtain ⟨hsourced, hpopped⟩ := keeps_polled h
  exact ⟨hsourced, hpopped.trans (List.append_nil _).symm⟩

/-- A wait takes the event that it returns, and keeps the accounts. -/
theorem waitLoop_takes (polls : Nat) (r : ScenarioRunner) :
    (r.Sourced → (waitLoop polls r).2.Sourced) ∧
      (waitLoop polls r).2.popped = r.popped ++ (waitLoop polls r).1.toList := by
  induction polls generalizing r with
  | zero =>
    rw [waitLoop]
    split
    · rename_i hevents
      exact takes_front hevents
    · split
      · rename_i hpoll
        exact takes_nothing hpoll
      · rename_i hpoll
        exact takes_nothing hpoll
  | succ polls ih =>
    rw [waitLoop]
    split
    · rename_i hevents
      exact takes_front hevents
    · split
      · rename_i hpoll
        exact takes_nothing hpoll
      · -- the poll has pushed what arrived, and the loop goes on
        rename_i next hpoll
        obtain ⟨hsourced, htaken⟩ := takes_nothing hpoll
        obtain ⟨hrest, hmore⟩ := ih next
        refine ⟨fun hr => hrest (hsourced hr), ?_⟩
        rw [hmore, htaken, Option.toList_none, List.append_nil]

theorem waitForEvent_takes (r : ScenarioRunner) (timeoutMs : Int) :
    (r.Sourced → (r.waitForEvent timeoutMs).2.Sourced) ∧
      (r.waitForEvent timeoutMs).2.popped = r.popped ++ (r.waitForEvent timeoutMs).1.toList := by
  obtain ⟨hsourced, htaken⟩ := waitLoop_takes (r.patience timeoutMs).1 (r.patience timeoutMs).2
  exact ⟨fun hr => hsourced ((r.keeps_patience timeoutMs).sourced hr), htaken⟩

/-- The loop takes events; if it ends well they are as many as needed, all as expected. -/
theorem matchEvents_takes (exp : Expect) (timeoutMs : Int) (needed : Nat) (r : ScenarioRunner) :
    (r.Sourced → (matchEvents exp timeoutMs needed r).2.Sourced) ∧
      ∃ taken, (matchEvents exp timeoutMs needed r).2.popped = r.popped ++ taken ∧
        ((matchEvents exp timeoutMs needed r).1 = .ok () →
          taken.length = needed ∧ ∀ ev ∈ taken, eventMatches exp ev = .ok ()) := by
  induction needed generalizing r with
  | zero => exact ⟨id, [], (List.append_nil _).symm, fun _ => ⟨rfl, nofun⟩⟩
  | succ needed ih =>
    obtain ⟨hsourced, htaken⟩ := r.waitForEvent_takes timeoutMs
    rw [matchEvents]
    split
    · rename_i he
      rw [he] at hsourced htaken
      exact ⟨hsourced, [], htaken, nofun⟩
    · rename_i ev next he
      rw [he] at hsourced htaken
      split
      · exact ⟨hsourced, [ev], htaken, nofun⟩
      · rename_i hev
        -- the first event matches, and the loop wants one less
        obtain ⟨hrest, taken, hmore, hall⟩ := ih next
        refine ⟨fun hr => hrest (hsourced hr), ev :: taken, ?_, ?_⟩
        · rw [hmore, htaken, Option.toList_some, List.append_assoc, List.singleton_append]
        · intro hok
          obtain ⟨hlen, hmatch⟩ := hall hok
          refine ⟨by rw [List.length_cons, hlen], ?_⟩
          rw [List.forall_mem_cons]
          exact ⟨hev, hmatch⟩

/-! ## The verdict -/

/-- A look at the session that passes. -/
theorem matchSession_evidence {s : OuchSession} {exp : Expect} (hs : s.Explained)
    (h : matchSession s exp = some (.ok ())) (taken : List SessionEvent) : Evidence exp taken s := by
  unfold matchSession at h
  split at h
  · rename_i hmsg
    split at h
    · rename_i hstate
      simp only [Evidence, hmsg]
      exact ⟨hstate, hs.active hstate, expectedFieldsMatch_ok.1 (Option.some.inj h)⟩
    · cases h
  · rename_i hmsg
    split at h
    · rename_i hstate
      simp only [Evidence, hmsg]
      exact ⟨hstate, hs.failed hstate, expectedFieldsMatch_ok.1 (Option.some.inj h)⟩
    · cases h
  · rename_i hmsg
    split at h
    · rename_i hstate
      simp only [Evidence, hmsg]
      rcases hstate with hgone | hgoing
      · exact .inr ⟨hgone, hs.disconnected hgone⟩
      · exact .inl hgoing
    · cases h
  · rename_i hmsg
    simp only [Evidence, hmsg]
  · cases h

/-- An expectation that does not look at the session counts events. -/
theorem evidence_of_supplied {s : OuchSession} {exp : Expect} {taken : List SessionEvent}
    (haccepted : exp.msg ≠ "login_accepted") (hrejected : exp.msg ≠ "login_rejected")
    (hclosed : exp.msg ≠ "socket_closed") (hbeat : exp.msg ≠ "server_heartbeat")
    (h : Supplied (fun ev => Shows exp (eventName ev) (eventField ev)) exp.needed taken) : Evidence exp taken s := by
  unfold Evidence
  split
  · exact absurd ‹_› haccepted
  · exact absurd ‹_› hrejected
  · exact absurd ‹_› hclosed
  · exact absurd ‹_› hbeat
  · exact h

theorem evidence_events {s s' : OuchSession} {exp : Expect} (h : matchSession s exp = none) {taken : List SessionEvent}
    (hlen : taken.length = exp.needed) (hmatch : ∀ ev ∈ taken, eventMatches exp ev = .ok ()) :
    Evidence exp taken s' := by
  have hsupplied : Supplied (fun ev => Shows exp (eventName ev) (eventField ev)) exp.needed taken :=
    ⟨taken, .refl taken, hlen, fun ev hev => eventMatches_ok (hmatch ev hev)⟩
  unfold matchSession at h
  split at h
  · cases h
  · cases h
  · cases h
  · cases h
  · rename_i haccepted hrejected hclosed hbeat
    exact evidence_of_supplied haccepted hrejected hclosed hbeat hsupplied

theorem matchExpectation_evidence (r : ScenarioRunner) (exp : Expect) (timeoutMs : Int) (hr : r.Sourced) :
    (r.matchExpectation exp timeoutMs).2.Sourced ∧
      ∃ taken, (r.matchExpectation exp timeoutMs).2.popped = r.popped ++ taken ∧
        ((r.matchExpectation exp timeoutMs).1 = .ok () →
          Evidence exp taken (r.matchExpectation exp timeoutMs).2.session) := by
  unfold matchExpectation
  split
  · rename_i verdict hverdict
    refine ⟨hr, [], (List.append_nil _).symm, ?_⟩
    intro hok
    have hpassed : verdict = .ok () := hok
    rw [hpassed] at hverdict
    exact matchSession_evidence hr.session hverdict []
  · rename_i hnone
    obtain ⟨hsourced, taken, htaken, hall⟩ := matchEvents_takes exp timeoutMs exp.needed r
    refine ⟨hsourced hr, taken, htaken, ?_⟩
    intro hok
    obtain ⟨hlen, hmatch⟩ := hall hok
    exact evidence_events hnone hlen hmatch

/-! ## Runs -/

theorem runStep_verdict {sc : Scenario} {r r' : ScenarioRunner} {s : Step} {result : StepResult} (hr : r.Sourced)
    (h : runStep sc r s = some (result, r')) :
    r'.Sourced ∧ ∃ v : Verdict SessionEvent OuchSession, v.result = result ∧ v.Justified Evidence s ∧
      r'.popped = r.popped ++ v.taken := by
  obtain ⟨acted, hact, hjudge⟩ := Option.map_eq_some_iff.1 h
  have hkeeps : Keeps r acted.2 := act_keeps hact
  unfold judge at hjudge
  split at hjudge
  · rename_i hnone
    rw [hjudge] at hkeeps
    refine ⟨hkeeps.sourced hr, ⟨result, [], r'.session⟩, rfl, .of_none hnone, ?_⟩
    rw [hkeeps.popped, List.append_nil]
  · rename_i exp hexp
    split at hjudge
    · -- the action passed: the expectation decides
      obtain ⟨hsourced, taken, htaken, hevidence⟩ :=
        matchExpectation_evidence acted.2 exp (timeout sc exp) (hkeeps.sourced hr)
      rw [hkeeps.popped] at htaken
      split at hjudge
      · rename_i he
        rw [he] at hsourced htaken hevidence
        cases hjudge
        exact ⟨hsourced, ⟨_, taken, r'.session⟩, rfl, .of_evidence hexp (hevidence rfl), htaken⟩
      · rename_i he
        rw [he] at hsourced htaken
        cases hjudge
        exact ⟨hsourced, ⟨_, taken, r'.session⟩, rfl, .of_failed Bool.false_ne_true, htaken⟩
    · rename_i hfailed
      rw [hjudge] at hkeeps hfailed
      refine ⟨hkeeps.sourced hr, ⟨result, [], r'.session⟩, rfl, .of_failed hfailed, ?_⟩
      rw [hkeeps.popped, List.append_nil]

theorem runSteps_eq (sc : Scenario) (steps : List Step) (r : ScenarioRunner) :
    runSteps sc steps r = reports (runStep sc) steps r := by
  induction steps generalizing r with
  | nil => rfl
  | cons s steps ih =>
    rw [runSteps, reports]
    cases runStep sc r s with
    | none => rfl
    | some p => simp only [ih]

/-- A runner that has taken nothing yet, with a session in use, and a transport
that comes back with such sessions. -/
structure Begins (r : ScenarioRunner) : Prop where
  events : r.events = r.pushed.map Pushed.event
  popped : r.popped = []
  session : r.session.Reached
  transport : ∀ t, r.around.transport = some t → ∀ n call s, (t n call).session = some s → s.Reached

theorem Begins.sourced {r : ScenarioRunner} (h : r.Begins) : r.Sourced where
  held := by
    rw [h.events, h.popped]
    exact .all_waiting _
  session := h.session.explained
  transport := fun t ht n call s hs => (h.transport t ht n call s hs).explained

theorem run_ledger {r last : ScenarioRunner} {sc : Scenario} {results : List StepResult} (hr : r.Begins)
    (h : r.run sc = some (results, last)) :
    ∃ vs, Ledger Evidence sc.steps results (last.pushed.map Pushed.event) last.events vs := by
  rw [run, runSteps_eq] at h
  obtain ⟨hlast, vs, hresults, hjustified, htaken⟩ :=
    reports_account Sourced popped Verdict.result Verdict.taken (Verdict.Justified Evidence)
      (fun _ _ _ _ hs hstep => runStep_verdict hs hstep) hr.sourced h
  refine ⟨vs, hresults, ?_, hjustified⟩
  have hheld := hlast.held
  rwa [htaken, hr.popped, List.nil_append] at hheld

end ScenarioRunner

end BistColo.Runner
