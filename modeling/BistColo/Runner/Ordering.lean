import BistColo.Ouch.Refusals
import BistColo.Runner.Replay
/-!
# The orders of a run

The calls of the client that place, replace, mass_quote and burst_place steps
make, each with the client that it meets. `run_orders` says that nothing else
happens to the registry and to the order tokens on the wire: the calls ask for
the texts of the scenario in their order, for some of them more than once while
the throttler refuses, and for some of them not at all.
-/

open StreamKit

namespace BistColo.Runner

open Ouch OuchClient Domain

/-! ## Calls -/

/-- A call of the client: its step, the client that it meets, the throttler's
time, and the request. -/
structure Asked where
  step : Step
  client : OuchClient
  now : UInt64
  request : Request

namespace Asked

def outcome (x : Asked) : Result Unit × OuchClient := x.client.call x.now x.request

/-- The call gets as far as the registry. -/
def Arrives (x : Asked) : Prop := x.client.Reaches x.now x.request

/-- The wire token of the message that the call hands to the session, if there is one. -/
def carried (x : Asked) : List Bytes := (wireTokens x.outcome.2.handed).drop (wireTokens x.client.handed).length

/-- The client returns that the token is already used. -/
def Refused (x : Asked) : Prop :=
  ∃ t, x.request.claim = some t ∧ x.outcome.1 = .error (makeError .validation (x.request.taken ++ text t))

end Asked

namespace ScenarioRunner

def asks (r : ScenarioRunner) (s : Step) (q : Request) : Asked := ⟨s, r.client, r.now, q⟩

/-- The calls of `burstSend`. -/
def burstSendAsked (s : Step) (args : Ouch.PlaceArgs) : Nat → ScenarioRunner → List Asked
  | 0, _ => []
  | attempts + 1, r =>
    r.asks s (.place args) ::
      match r.request (.place args) with
      | (.ok (), _) => []
      | (.error e, r) => if e.category ≠ .throttled then [] else burstSendAsked s args attempts r.pollIo.2

/-- The calls of `burstLoop`. -/
def burstLoopAsked (s : Step) (a : BurstPlaceArgs) : Nat → Nat → (Nat → UInt64) → ScenarioRunner → List Asked
  | 0, _, _, _ => []
  | left + 1, i, seq, r =>
    match a.pattern[i % a.pattern.length]? with
    | none => []
    | some pat =>
      match r.instruments.findBySymbol pat.symbol with
      | none => []
      | some inst =>
        let k := i % a.pattern.length
        burstSendAsked s (burstArgs inst pat (seq k)) 1000 r ++
          match burstSend (burstArgs inst pat (seq k)) 1000 r with
          | (.error _, _) => []
          | (.ok (), r) => burstLoopAsked s a left (i + 1) (Function.update seq k (seq k + 1)) r

/-- The calls of `runPlace`, `runReplace`, `runQuote` and `runBurstPlace`. -/
def placeAsked (r : ScenarioRunner) (s : Step) (a : PlaceArgs) : List Asked :=
  match r.instruments.findBySymbol a.symbol with
  | none => []
  | some inst => [r.asks s (.place (placeArgs inst a))]

def replaceAsked (r : ScenarioRunner) (s : Step) (a : ReplaceArgs) : List Asked :=
  let inst := if a.existingToken = [] then none else r.instruments.findBySymbol []
  let decimals := match inst with
    | some inst => inst.priceDecimals
    | none => 3
  [r.asks s (.replace (replaceArgs decimals a))]

def quoteAsked (r : ScenarioRunner) (s : Step) (a : MassQuoteArgs) : List Asked :=
  match quoteEntries r.instruments a.entries with
  | .error _ => []
  | .ok entries =>
    [r.asks s (.massQuote
      { token := a.token, category := a.category, clientAccount := a.afk, exchangeInfo := a.exchangeInfo, entries })]

def burstAsked (r : ScenarioRunner) (s : Step) (a : BurstPlaceArgs) : List Asked :=
  if a.count = 0 ∨ a.pattern = [] then []
  else if a.ratePerSec = 0 then []
  else burstLoopAsked s a a.count.toNat 0 (fun _ => 0) r

/-- The calls that a step makes for its orders. -/
def asked (r : ScenarioRunner) (s : Step) : List Asked :=
  match s.action with
  | "place" => r.placeAsked s (match s.args with | .place a => a | _ => {})
  | "replace" => r.replaceAsked s (match s.args with | .replace a => a | _ => {})
  | "mass_quote" => r.quoteAsked s (match s.args with | .massQuote a => a | _ => {})
  | "burst_place" => r.burstAsked s (match s.args with | .burstPlace a => a | _ => {})
  | _ => []

/-- The calls of a run, up to a step that never returns. -/
def askedBy (sc : Scenario) : List Step → ScenarioRunner → List Asked
  | [], _ => []
  | s :: steps, r =>
    r.asked s ++
      match runStep sc r s with
      | none => []
      | some (_, r) => askedBy sc steps r

end ScenarioRunner

/-! ## The texts -/

/-- An order of a step. The text is empty if the registry is to make the token. -/
structure Order where
  text : Bytes
  expectsReject : Bool
  burst : Bool
deriving DecidableEq

/-- The text of order number `i` of a burst: the entries take turns. -/
def burstText (a : BurstPlaceArgs) (i : Nat) : Bytes :=
  match a.pattern[i % a.pattern.length]? with
  | none => []
  | some pat => decText (strtoull (pat.tokenPrefix ++ [0]) + UInt64.ofNat (i / a.pattern.length)).toNat

def burstTexts (a : BurstPlaceArgs) : List Bytes :=
  if a.count = 0 ∨ a.pattern = [] then []
  else if a.ratePerSec = 0 then []
  else (List.range a.count.toNat).map (burstText a)

/-- The texts of a step. A replace of nothing and a quote of a wrong length
do not get to the registry. -/
def orderTexts (s : Step) : List Bytes :=
  match s.action with
  | "place" => [(match s.args with | .place a => a | _ => {} : PlaceArgs).token]
  | "replace" =>
    let a : ReplaceArgs := match s.args with | .replace a => a | _ => {}
    if a.existingToken = [] then [] else [a.newToken]
  | "mass_quote" =>
    let a : MassQuoteArgs := match s.args with | .massQuote a => a | _ => {}
    if a.entries = [] ∨ maxQuoteEntries < a.entries.length then [] else [a.token]
  | "burst_place" => burstTexts (match s.args with | .burstPlace a => a | _ => {})
  | _ => []

def orders (s : Step) : List Order :=
  (orderTexts s).map fun t => ⟨t, ScenarioRunner.expectsReject s, s.action = "burst_place"⟩

/-- What a client knows of tokens, and what it handed over. -/
structure Desk where
  tokens : TokenRegistry
  wire : List Bytes

def deskOf (c : OuchClient) : Desk := ⟨c.tokens, wireTokens c.handed⟩

/-- The calls ask for the orders one after the other, and nothing else happens
to the desk. A call that does not get to the registry may be for any order. -/
inductive Orders : Desk → List Asked → List Order → Desk → Prop
  | done (d : Desk) : Orders d [] [] d
  | skip {d d' : Desk} {xs : List Asked} {os : List Order} (o : Order) (rest : Orders d xs os d') :
    Orders d xs (o :: os) d'
  | idle {x : Asked} {xs : List Asked} {os : List Order} {d' : Desk} (h : ¬ x.Arrives)
    (rest : Orders (deskOf x.outcome.2) xs os d') : Orders (deskOf x.client) (x :: xs) os d'
  | call {x : Asked} {xs : List Asked} {o : Order} {os : List Order} {d' : Desk} (h : x.request.claim = some o.text)
    (hreject : ScenarioRunner.expectsReject x.step = o.expectsReject) (rest : Orders (deskOf x.outcome.2) xs os d') :
    Orders (deskOf x.client) (x :: xs) (o :: os) d'

namespace Orders

theorem none (d : Desk) (os : List Order) : Orders d [] os d := by
  induction os with
  | nil => exact .done d
  | cons o os ih => exact .skip o ih

theorem still {d d' : Desk} (h : d' = d) : Orders d [] [] d' := by
  rw [h]
  exact .done d

theorem append {d d' d'' : Desk} {xs ys : List Asked} {os os' : List Order} (h : Orders d xs os d')
    (h' : Orders d' ys os' d'') : Orders d (xs ++ ys) (os ++ os') d'' := by
  induction h with
  | done d => exact h'
  | skip o _ ih => exact .skip o (ih h')
  | idle hidle _ ih => exact .idle hidle (ih h')
  | call hclaim hreject _ ih => exact .call hclaim hreject (ih h')

/-- One call, for one order or for none. -/
theorem once {x : Asked} {os : List Order}
    (h : ¬ x.Arrives ∨
      ∃ o, os = [o] ∧ x.request.claim = some o.text ∧ ScenarioRunner.expectsReject x.step = o.expectsReject) :
    Orders (deskOf x.client) [x] os (deskOf x.outcome.2) := by
  rcases h with hidle | ⟨o, rfl, hclaim, hreject⟩
  · exact .idle hidle (.none _ os)
  · exact .call hclaim hreject (.done _)

end Orders

namespace ScenarioRunner

def desk (r : ScenarioRunner) : Desk := deskOf r.client

/-! ## What leaves the desk and the table alone -/

/-- What waiting, logging in and the expectations do not touch. -/
def aside (r : ScenarioRunner) : Desk × InstrumentCache := (r.desk, r.instruments)

@[simp] theorem aside_updateIndices (r : ScenarioRunner) (ev : SessionEvent) : (r.updateIndices ev).aside = r.aside := by
  cases ev <;> rfl

@[simp] theorem aside_ofCall (s : Step) (p : Result Unit × ScenarioRunner) : (ofCall s p).2.aside = p.2.aside := by
  unfold ofCall
  split <;> rfl

theorem aside_polled {r next : ScenarioRunner} {polled : Result Unit} (h : r.pollIo = (polled, next)) :
    next.aside = r.aside := by
  have hpoll : r.pollIo.2.aside = r.aside := rfl
  rwa [h] at hpoll

@[simp] theorem aside_awaitLogin (polls : Nat) (r : ScenarioRunner) : (awaitLogin polls r).2.aside = r.aside := by
  induction polls generalizing r with
  | zero =>
    rw [awaitLogin]
    split
    · rfl
    · split
      · rename_i hpoll
        exact aside_polled hpoll
      · rename_i hpoll
        exact aside_polled hpoll
  | succ polls ih =>
    rw [awaitLogin]
    split
    · rfl
    · split
      · rename_i hpoll
        exact aside_polled hpoll
      · rename_i hpoll
        exact (ih _).trans (aside_polled hpoll)

theorem aside_viaTransport {r r' : ScenarioRunner} {s : Step} {result : StepResult} {t : Nat → TransportCall → Outcome}
    {call : TransportCall} {otherwise : String} (h : r.viaTransport s t call otherwise = some (result, r')) :
    r'.aside = r.aside := by
  unfold viaTransport at h
  dsimp only at h
  split at h
  · cases h
  · split at h
    · cases h
      rfl
    · cases h
      rfl

theorem aside_runLogin {r r' : ScenarioRunner} {s : Step} {a : LoginArgs} {result : StepResult}
    (h : r.runLogin s a = some (result, r')) : r'.aside = r.aside := by
  unfold runLogin at h
  split at h
  · cases h
    rfl
  · split at h
    · exact aside_viaTransport h
    · dsimp only at h
      split at h
      · cases h
        rfl
      · have hawait := aside_awaitLogin ((r.settle r.session.beginLogin.2).patience 2000).1
          ((r.settle r.session.beginLogin.2).patience 2000).2
        split at h
        · rename_i he
          rw [he] at hawait
          cases h
          exact hawait
        · rename_i he
          rw [he] at hawait
          cases h
          exact hawait

theorem aside_runSwitchGateway {r r' : ScenarioRunner} {s : Step} {a : SwitchGatewayArgs} {result : StepResult}
    (h : r.runSwitchGateway s a = some (result, r')) : r'.aside = r.aside := by
  unfold runSwitchGateway at h
  split at h
  · cases h
    rfl
  · exact aside_viaTransport h

theorem aside_rotate {r r' : ScenarioRunner} (h : r.rotate = some r') : r'.aside = r.aside := by
  unfold rotate at h
  split at h
  · cases h
    rfl
  · split at h
    · cases h
      apply aside_updateIndices
    · cases h

theorem desk_ofCall (s : Step) (p : Result Unit × ScenarioRunner) : (ofCall s p).2.desk = p.2.desk :=
  congrArg Prod.fst (aside_ofCall s p)

/-- A message without an order token. -/
theorem deskOf_submit {c : OuchClient} {m : OuchSession.Outgoing} (h : m.tokenField = none) :
    deskOf (c.submit m).2 = deskOf c := by
  have hnone : wireTokens [m] = [] := List.filterMap_cons_none h
  have hwire : wireTokens (c.handed ++ [m]) = wireTokens c.handed := by rw [wireTokens_append, hnone, List.append_nil]
  exact congrArg (Desk.mk c.tokens) hwire

theorem deskOf_cancelById (c : OuchClient) (now : UInt64) (book : UInt32) (side : UInt8) (id : UInt64) :
    deskOf (cancelById c now book side id).2 = deskOf c := by
  have hacquire : deskOf (c.tryAcquire now).2 = deskOf c := rfl
  unfold cancelById
  split
  · rename_i he
    rwa [he] at hacquire
  · rename_i he
    rw [he] at hacquire
    exact (deskOf_submit rfl).trans hacquire

theorem deskOf_cancelByToken (c : OuchClient) (now : UInt64) (token : Bytes) :
    deskOf (c.call now (.cancelByToken token)).2 = deskOf c := by
  have hacquire : deskOf (c.tryAcquire now).2 = deskOf c := rfl
  rw [OuchClient.call, OuchClient.cancelByToken]
  split
  · rename_i he
    rwa [he] at hacquire
  · rename_i he
    rw [he] at hacquire
    exact (deskOf_submit rfl).trans hacquire

theorem desk_runCancelT (r : ScenarioRunner) (s : Step) (a : CancelByTokenArgs) : (r.runCancelT s a).2.desk = r.desk :=
  (desk_ofCall ..).trans (deskOf_cancelByToken r.client r.now a.token)

theorem desk_runCancelId {r r' : ScenarioRunner} {s : Step} {a : CancelByOrderIdArgs} {result : StepResult}
    (h : r.runCancelId s a = some (result, r')) : r'.desk = r.desk := by
  unfold runCancelId at h
  obtain ⟨turned, hrotate, heq⟩ := Option.map_eq_some_iff.1 h
  have hturn := congrArg Prod.fst (aside_rotate hrotate)
  split at heq
  · cases heq
    exact hturn
  · have hcall := congrArg (fun p => desk p.2) heq
    dsimp only at hcall
    rw [desk_ofCall] at hcall
    exact hcall.symm.trans ((deskOf_cancelById ..).trans hturn)

theorem aside_waitLoop (polls : Nat) (r : ScenarioRunner) : (waitLoop polls r).2.aside = r.aside := by
  induction polls generalizing r with
  | zero =>
    rw [waitLoop]
    split
    · apply aside_updateIndices
    · split
      · rename_i hpoll
        exact aside_polled hpoll
      · rename_i hpoll
        exact aside_polled hpoll
  | succ polls ih =>
    rw [waitLoop]
    split
    · apply aside_updateIndices
    · split
      · rename_i hpoll
        exact aside_polled hpoll
      · rename_i hpoll
        exact (ih _).trans (aside_polled hpoll)

theorem aside_matchEvents (exp : Expect) (timeoutMs : Int) (needed : Nat) (r : ScenarioRunner) :
    (matchEvents exp timeoutMs needed r).2.aside = r.aside := by
  induction needed generalizing r with
  | zero => rfl
  | succ needed ih =>
    have hwait : (r.waitForEvent timeoutMs).2.aside = r.aside := aside_waitLoop _ _
    rw [matchEvents]
    split
    · rename_i he
      rwa [he] at hwait
    · rename_i he
      rw [he] at hwait
      split
      · exact hwait
      · exact (ih _).trans hwait

theorem aside_judge (sc : Scenario) (s : Step) (p : StepResult × ScenarioRunner) : (judge sc s p).2.aside = p.2.aside := by
  unfold judge
  split
  · rfl
  · rename_i exp _
    have hmatch : (p.2.matchExpectation exp (timeout sc exp)).2.aside = p.2.aside := by
      unfold matchExpectation
      split
      · rfl
      · apply aside_matchEvents
    split
    · split
      · rename_i he
        rwa [he] at hmatch
      · rename_i he
        rwa [he] at hmatch
    · rfl

theorem desk_judge (sc : Scenario) (s : Step) (p : StepResult × ScenarioRunner) : (judge sc s p).2.desk = p.2.desk :=
  congrArg Prod.fst (aside_judge sc s p)

/-! ## What orders do -/

/-- An error of a call that got to the registry is not the throttler's. -/
theorem arrives_error {x : Asked} {e : Error} (harrives : x.Arrives) (h : x.outcome.1 = .error e) :
    e.category ≠ .throttled := by
  by_cases hadm : x.client.Admits x.request
  · rw [Asked.outcome, call_submits harrives hadm] at h
    intro hthrottled
    rcases OuchSession.send_category (Prod.ext h rfl) with hstate | hio
    · cases hthrottled.symm.trans hstate
    · cases hthrottled.symm.trans hio
  · obtain ⟨t, -, he⟩ := call_taken harrives hadm
    rw [Asked.outcome, he] at h
    cases h
    exact fun hthrottled => nomatch hthrottled

theorem request_orders {r : ScenarioRunner} {s : Step} {q : Request} {os : List Order}
    (h : ¬ (r.asks s q).Arrives ∨ ∃ o, os = [o] ∧ q.claim = some o.text ∧ expectsReject s = o.expectsReject) :
    Orders r.desk [r.asks s q] os (r.request q).2.desk := Orders.once (x := r.asks s q) h

theorem runPlace_orders (r : ScenarioRunner) (s : Step) (a : PlaceArgs) (burst : Bool) :
    Orders r.desk (r.placeAsked s a) [⟨a.token, expectsReject s, burst⟩] (r.runPlace s a).2.desk := by
  unfold placeAsked runPlace
  cases r.instruments.findBySymbol a.symbol with
  | none => exact .none r.desk _
  | some inst =>
    have hrequest : Orders r.desk [r.asks s (.place (placeArgs inst a))] [⟨a.token, expectsReject s, burst⟩]
        (r.request (.place (placeArgs inst a))).2.desk := request_orders (.inr ⟨_, rfl, rfl, rfl⟩)
    dsimp only
    split
    · rename_i he
      rw [he] at hrequest
      -- the made-up reject is none of the client's
      split
      · exact hrequest
      · exact hrequest
    · rename_i he
      rwa [he] at hrequest

theorem runReplace_orders (r : ScenarioRunner) (s : Step) (a : ReplaceArgs) (burst : Bool) :
    Orders r.desk (r.replaceAsked s a)
      ((if a.existingToken = [] then [] else [a.newToken]).map (⟨·, expectsReject s, burst⟩))
      (r.runReplace s a).2.desk := by
  unfold replaceAsked runReplace
  dsimp only
  rw [desk_ofCall]
  apply request_orders
  by_cases hempty : a.existingToken = []
  · refine .inl ?_
    rintro ⟨-, -, hcomplete⟩
    exact of_decide_eq_false hcomplete hempty
  · simp only [if_neg hempty]
    exact .inr ⟨⟨a.newToken, expectsReject s, burst⟩, rfl, rfl, rfl⟩

theorem length_quoteEntries {instruments : InstrumentCache} {es : List QuoteEntrySpec} {entries : List QuoteEntryArgs}
    (h : quoteEntries instruments es = .ok entries) : entries.length = es.length := by
  induction es generalizing entries with
  | nil =>
    cases h
    rfl
  | cons e es ih =>
    rw [quoteEntries] at h
    split at h
    · cases h
    · cases hrest : quoteEntries instruments es with
      | error symbol =>
        rw [hrest] at h
        cases h
      | ok rest =>
        rw [hrest] at h
        cases h
        rw [List.length_cons, List.length_cons, ih hrest]

theorem runQuote_orders (r : ScenarioRunner) (s : Step) (a : MassQuoteArgs) (burst : Bool) :
    Orders r.desk (r.quoteAsked s a)
      ((if a.entries = [] ∨ maxQuoteEntries < a.entries.length then [] else [a.token]).map (⟨·, expectsReject s, burst⟩))
      (r.runQuote s a).2.desk := by
  unfold quoteAsked runQuote
  cases hentries : quoteEntries r.instruments a.entries with
  | error symbol => exact .none r.desk _
  | ok entries =>
    have hlen := length_quoteEntries hentries
    dsimp only
    rw [desk_ofCall]
    apply request_orders
    by_cases hbad : a.entries = [] ∨ maxQuoteEntries < a.entries.length
    · refine .inl ?_
      rintro ⟨hlegal, -⟩
      apply of_decide_eq_false hlegal
      rw [← List.length_eq_zero_iff, hlen, List.length_eq_zero_iff]
      exact hbad
    · rw [if_neg hbad]
      exact .inr ⟨⟨a.token, expectsReject s, burst⟩, rfl, rfl, rfl⟩

/-! ## Bursts -/

theorem burstSend_orders {s : Step} {args : Ouch.PlaceArgs} {o : Order} (htext : args.explicitToken = o.text)
    (hreject : expectsReject s = o.expectsReject) (attempts : Nat) (r : ScenarioRunner) :
    Orders r.desk (burstSendAsked s args attempts r) [o] (burstSend args attempts r).2.desk := by
  induction attempts generalizing r with
  | zero => exact .none r.desk _
  | succ attempts ih =>
    have honce : Orders r.desk [r.asks s (.place args)] [o] (r.request (.place args)).2.desk :=
      request_orders (.inr ⟨o, rfl, congrArg some htext, hreject⟩)
    rw [burstSendAsked, burstSend]
    cases hcall : r.request (.place args) with
    | mk res r' =>
      rw [hcall] at honce
      cases res with
      | ok u => exact honce
      | error e =>
        dsimp only
        by_cases hthrottled : e.category = .throttled
        · rw [if_neg (not_not_intro hthrottled), if_neg (not_not_intro hthrottled)]
          have hidle : ¬ (r.asks s (.place args)).Arrives := by
            intro harrives
            exact arrives_error harrives (congrArg Prod.fst hcall) hthrottled
          have hnext : (deskOf (r.asks s (.place args)).outcome.2) = r'.pollIo.2.desk :=
            congrArg (fun p : Result Unit × ScenarioRunner => p.2.desk) hcall
          refine .idle (x := r.asks s (.place args)) hidle ?_
          rw [hnext]
          exact ih r'.pollIo.2
        · rw [if_pos hthrottled, if_pos hthrottled]
          exact honce

/-- The counters of the entries at order number `i`. -/
def Counts (len i : Nat) (seq : Nat → UInt64) : Prop := ∀ k < len, seq k = UInt64.ofNat ((i + (len - 1 - k)) / len)

theorem Counts.start {len : Nat} : Counts len 0 fun _ => 0 := by
  intro k hk
  rw [Nat.zero_add, Nat.div_eq_of_lt (by omega)]
  rfl

theorem Counts.here {len i : Nat} {seq : Nat → UInt64} (h : Counts len i seq) (hlen : 0 < len) :
    seq (i % len) = UInt64.ofNat (i / len) := by
  rw [h _ (Nat.mod_lt i hlen)]
  have hmod := Nat.mod_lt i hlen
  have hdiv := Nat.div_add_mod i len
  have hsum : i + (len - 1 - i % len) = (len - 1) + len * (i / len) := by omega
  rw [hsum, Nat.add_mul_div_left _ _ hlen, Nat.div_eq_of_lt (by omega), Nat.zero_add]

theorem Counts.next {len i : Nat} {seq : Nat → UInt64} (h : Counts len i seq) (hlen : 0 < len) :
    Counts len (i + 1) (Function.update seq (i % len) (seq (i % len) + 1)) := by
  intro k hk
  rw [Function.update_apply]
  have hmod := Nat.mod_lt i hlen
  have hdiv := Nat.div_add_mod i len
  split
  · rename_i hturn
    have hsum : i + 1 + (len - 1 - k) = len + len * (i / len) := by omega
    rw [h.here hlen, hsum, Nat.add_mul_div_left _ _ hlen, Nat.div_self hlen, Nat.add_comm, UInt64.ofNat_add]
    rfl
  · rename_i hother
    rw [h k hk]
    have hone : (i / len + 1) * len = len * (i / len) + len := by rw [Nat.add_mul, Nat.mul_comm, Nat.one_mul]
    rcases Nat.lt_or_gt_of_ne hother with hless | hgreater
    · have htwo : (i / len + 1 + 1) * len = len * (i / len) + len + len := by rw [Nat.add_mul, hone, Nat.one_mul]
      have hbefore : (i + (len - 1 - k)) / len = i / len + 1 := Nat.div_eq_of_lt_le (by omega) (by omega)
      have hafter : (i + 1 + (len - 1 - k)) / len = i / len + 1 := Nat.div_eq_of_lt_le (by omega) (by omega)
      rw [hbefore, hafter]
    · have hnone : i / len * len = len * (i / len) := Nat.mul_comm ..
      have hbefore : (i + (len - 1 - k)) / len = i / len := Nat.div_eq_of_lt_le (by omega) (by omega)
      have hafter : (i + 1 + (len - 1 - k)) / len = i / len := Nat.div_eq_of_lt_le (by omega) (by omega)
      rw [hbefore, hafter]

theorem burstLoop_orders (s : Step) {a : BurstPlaceArgs} (hpattern : a.pattern ≠ []) (burst : Bool) (left i : Nat)
    {seq : Nat → UInt64} (hseq : Counts a.pattern.length i seq) (r : ScenarioRunner) :
    Orders r.desk (burstLoopAsked s a left i seq r)
      (((List.range' i left).map (burstText a)).map (⟨·, expectsReject s, burst⟩))
      (burstLoop s a left i seq r).2.desk := by
  have hlen : 0 < a.pattern.length := List.length_pos_iff.2 hpattern
  induction left generalizing i seq r with
  | zero => exact .done r.desk
  | succ left ih =>
    rw [burstLoopAsked, burstLoop, List.range'_succ, List.map_cons, List.map_cons]
    have htext : ∀ inst pat, a.pattern[i % a.pattern.length]? = some pat →
        (burstArgs inst pat (seq (i % a.pattern.length))).explicitToken = burstText a i := by
      intro inst pat hpat
      rw [burstText, hpat, burstArgs, hseq.here hlen]
    cases hpat : a.pattern[i % a.pattern.length]? with
    | none => exact .none r.desk _
    | some pat =>
      dsimp only
      cases r.instruments.findBySymbol pat.symbol with
      | none => exact .none r.desk _
      | some inst =>
        have hsend :=
          burstSend_orders (o := ⟨burstText a i, expectsReject s, burst⟩) (s := s) (htext inst pat hpat) rfl 1000 r
        dsimp only
        rcases hburst : burstSend (burstArgs inst pat (seq (i % a.pattern.length))) 1000 r with ⟨res, r'⟩
        rw [hburst] at hsend
        cases res with
        | error why => exact hsend.append (.none r'.desk _)
        | ok u => exact hsend.append (ih (i + 1) (hseq.next hlen) r')

theorem runBurstPlace_orders (r : ScenarioRunner) (s : Step) (a : BurstPlaceArgs) (burst : Bool) :
    Orders r.desk (r.burstAsked s a) ((burstTexts a).map (⟨·, expectsReject s, burst⟩)) (r.runBurstPlace s a).2.desk := by
  unfold burstAsked burstTexts runBurstPlace
  split
  · exact .done r.desk
  · rename_i hsome
    split
    · exact .done r.desk
    · rw [List.range_eq_range']
      exact burstLoop_orders s (fun hnone => hsome (.inr hnone)) burst _ 0 .start r

/-! ## Steps -/

/-- The actions that make orders. -/
def producers : List String := ["place", "replace", "mass_quote", "burst_place"]

theorem no_orders {s : Step} (h : s.action ∉ producers) : orders s = [] := by
  simp only [producers, List.mem_cons, List.not_mem_nil, or_false, not_or] at h
  obtain ⟨hplace, hreplace, hquote, hburst⟩ := h
  apply List.map_eq_nil_iff.2
  unfold orderTexts
  split
  all_goals first | rfl | contradiction

theorem asked_other {s : Step} (h : s.action ∉ producers) (r : ScenarioRunner) : r.asked s = [] := by
  simp only [producers, List.mem_cons, List.not_mem_nil, or_false, not_or] at h
  obtain ⟨hplace, hreplace, hquote, hburst⟩ := h
  unfold asked
  split
  all_goals first | rfl | contradiction

/-- A step asks for its orders, one after the other. -/
theorem act_orders {r r' : ScenarioRunner} {s : Step} {result : StepResult} (h : r.act s = some (result, r')) :
    Orders r.desk (r.asked s) (orders s) r'.desk := by
  have hdone : ∀ (p : StepResult × ScenarioRunner) (xs : List Asked) (os : List Order), Orders r.desk xs os p.2.desk →
      some p = some (result, r') → Orders r.desk xs os r'.desk := by
    rintro p xs os hp heq
    cases heq
    exact hp
  by_cases hproduces : s.action ∈ producers
  · simp only [producers, List.mem_cons, List.not_mem_nil, or_false] at hproduces
    unfold act at h
    unfold asked orders orderTexts
    rcases hproduces with hact | hact | hact | hact
    all_goals rw [hact] at h ⊢
    · exact hdone _ _ _ (r.runPlace_orders s _ _) h
    · exact hdone _ _ _ (r.runReplace_orders s _ _) h
    · exact hdone _ _ _ (r.runQuote_orders s _ _) h
    · exact hdone _ _ _ (r.runBurstPlace_orders s _ _) h
  · rw [asked_other hproduces, no_orders hproduces]
    unfold act at h
    split at h
    · exact .still (congrArg Prod.fst (aside_runLogin h))
    · exact hdone _ _ _ (.still (desk_ofCall ..)) h
    · rename_i hact
      exact absurd (by rw [hact]; decide) hproduces
    · exact hdone _ _ _ (.still (r.desk_runCancelT s _)) h
    · exact .still (desk_runCancelId h)
    · rename_i hact
      exact absurd (by rw [hact]; decide) hproduces
    · rename_i hact
      exact absurd (by rw [hact]; decide) hproduces
    · exact .still (congrArg Prod.fst (aside_runSwitchGateway h))
    · rename_i hact
      exact absurd (by rw [hact]; decide) hproduces
    all_goals exact hdone _ _ _ (.done r.desk) h

/-- A step that does not return asks for nothing. -/
theorem asked_none {r : ScenarioRunner} {s : Step} (h : r.act s = none) : r.asked s = [] := by
  apply asked_other
  intro hproduces
  simp only [producers, List.mem_cons, List.not_mem_nil, or_false] at hproduces
  unfold act at h
  rcases hproduces with hact | hact | hact | hact
  all_goals rw [hact] at h
  all_goals cases h

/-- A run asks for the orders of its steps, one after the other. -/
theorem run_orders (sc : Scenario) (steps : List Step) (r : ScenarioRunner) :
    ∃ d, Orders r.desk (askedBy sc steps r) (steps.flatMap orders) d := by
  induction steps generalizing r with
  | nil => exact ⟨r.desk, .done r.desk⟩
  | cons s steps ih =>
    rw [askedBy, List.flatMap_cons]
    cases hact : r.act s with
    | none =>
      have hrun : runStep sc r s = none := by rw [runStep, hact]; rfl
      rw [hrun, asked_none hact]
      exact ⟨r.desk, .none r.desk _⟩
    | some p =>
      have hrun : runStep sc r s = some (judge sc s p) := by rw [runStep, hact]; rfl
      obtain ⟨d, hd⟩ := ih (judge sc s p).2
      rw [hrun]
      rw [desk_judge] at hd
      exact ⟨d, (act_orders hact).append hd⟩

end ScenarioRunner

end BistColo.Runner
