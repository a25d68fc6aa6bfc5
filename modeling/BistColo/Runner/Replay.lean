import BistColo.Domain.Instrument
import BistColo.Mock.Orders
import BistColo.Ouch.Calls
import BistColo.Ouch.Sides
import BistColo.Runner.Events
/-!
# The scenario runner

`ScenarioRunner` of `runner/replay.hpp`. What the surroundings decide is given
with the runner: the readings of the throttler's clock and of the wall clock,
how many polls fit into a wait, and what the transport comes back with. A
runner keeps what was ever pushed to its queue and what was taken from it;
nothing in the code reads that back. A step that never returns, or that reads a
session the transport has destroyed, has no result.
-/

open StreamKit

namespace BistColo.Runner

open Ouch Mock

/-! ## State -/

/-- A call of `ITransportControl`. -/
inductive TransportCall
  | reconnectAndLogin (password session : Bytes) (sequence : UInt64)
  | switchToSecondary (secondary : Bool) (session : Bytes) (sequence : UInt64)
deriving DecidableEq

/-- What a transport call leaves: its result, and the new session if there is one. -/
structure Outcome where
  result : Result Unit
  session : Option OuchSession

structure Surroundings where
  throttle : Clock
  wall : Clock
  /-- the polls before the deadline of a wait, by its number and its milliseconds -/
  patience : Nat → Int → Nat
  /-- none if the runner has no transport -/
  transport : Option (Nat → TransportCall → Outcome) := none

/-- Where an event of the queue comes from. -/
inductive Pushed
  /-- a handler of the session -/
  | received (m : ServerMsg) (bytes : Bytes)
  /-- `run_place`, for a token that is not new -/
  | synthesized (m : OrderRejected)
deriving DecidableEq

def Pushed.event : Pushed → SessionEvent
  | received m bytes => SessionEvent.ofMessage m bytes
  | synthesized m => .rejected m

structure ScenarioRunner where
  client : OuchClient
  instruments : Domain.InstrumentCache
  around : Surroundings
  events : List SessionEvent := []
  tokenIndex : Bytes → Option (UInt64 × UInt32 × UInt8) := fun _ => none
  /-- waits and transport calls so far -/
  waits : Nat := 0
  transports : Nat := 0
  pushed : List Pushed := []
  popped : List SessionEvent := []

namespace ScenarioRunner

def session (r : ScenarioRunner) : OuchSession := r.client.session

def withClient (r : ScenarioRunner) (c : OuchClient) : ScenarioRunner := { r with client := c }

def push (r : ScenarioRunner) (ps : List Pushed) : ScenarioRunner :=
  { r with events := r.events ++ ps.map Pushed.event, pushed := r.pushed ++ ps }

/-- The messages of a log, as they are pushed. -/
def pushes (log : List Event) : List Pushed := (messages log).map fun m => .received m.1 m.2

/-- The session after an operation; what it was sent meanwhile is pushed. -/
def settle (r : ScenarioRunner) (s : OuchSession) : ScenarioRunner :=
  (r.withClient { r.client with session := s }).push (pushes (s.log.drop r.session.log.length))

/-- A session that the transport has built and logged in. -/
def install (r : ScenarioRunner) (s : OuchSession) : ScenarioRunner :=
  (r.withClient { r.client with session := s }).push (pushes s.log)

/-- The throttler's clock at the next call of the client. -/
def now (r : ScenarioRunner) : UInt64 := r.around.throttle.monotonicNs.1

def tick (r : ScenarioRunner) : ScenarioRunner :=
  { r with around := { r.around with throttle := r.around.throttle.monotonicNs.2 } }

/-- The wall clock, read for the synthesized reject. -/
def wallNs (r : ScenarioRunner) : UInt64 × ScenarioRunner :=
  let t := r.around.wall.monotonicNs
  (t.1, { r with around := { r.around with wall := t.2 } })

def patience (r : ScenarioRunner) (timeoutMs : Int) : Nat × ScenarioRunner :=
  (r.around.patience r.waits timeoutMs, { r with waits := r.waits + 1 })

def pollIo (r : ScenarioRunner) : Result Unit × ScenarioRunner :=
  let p := r.session.pollIo
  (p.1, r.settle p.2)

/-! ## Waiting -/

def index (r : ScenarioRunner) (token : OrderToken) (id : UInt64) (book : UInt32) (side : UInt8) : ScenarioRunner :=
  { r with tokenIndex := Function.update r.tokenIndex token.view (some (id, book, side)) }

def updateIndices (r : ScenarioRunner) : SessionEvent → ScenarioRunner
  | .accepted m => r.index m.orderToken m.orderId m.orderBookId m.side
  | .replaced m => r.index m.replacementOrderToken m.orderId m.orderBookId m.side
  | _ => r

/-- The loop of `wait_for_event`. -/
def waitLoop : Nat → ScenarioRunner → Option SessionEvent × ScenarioRunner
  | polls, r =>
    match r.events with
    | ev :: rest => (some ev, { r with events := rest, popped := r.popped ++ [ev] }.updateIndices ev)
    | [] =>
      match r.pollIo with
      | (.error _, r) => (none, r)
      | (.ok (), r) =>
        match polls with
        | 0 => (none, r)
        | polls + 1 => waitLoop polls r

def waitForEvent (r : ScenarioRunner) (timeoutMs : Int) : Option SessionEvent × ScenarioRunner :=
  let (polls, r) := r.patience timeoutMs
  waitLoop polls r

/-- The loop of `match_expectation`: the next events must all match. -/
def matchEvents (exp : Expect) (timeoutMs : Int) : Nat → ScenarioRunner → Except String Unit × ScenarioRunner
  | 0, r => (.ok (), r)
  | needed + 1, r =>
    match r.waitForEvent timeoutMs with
    | (none, r) => (.error ("timeout waiting for " ++ exp.msg), r)
    | (some ev, r) =>
      match eventMatches exp ev with
      | .error why => (.error why, r)
      | .ok () => matchEvents exp timeoutMs needed r

def loginAcceptedField (s : OuchSession) (key : String) : Option Bytes :=
  match key with
  | "session" => some s.assignedSession
  | "next_sequence" | "sequence" => some (toString s.nextInboundSeq.toNat)
  | _ => none

def loginRejectedField (s : OuchSession) (key : String) : Option Bytes :=
  match key with
  | "reason_code" => some (if s.lastLoginRejectReason = 0 then [] else [s.lastLoginRejectReason])
  | _ => none

/-- The expectations that look at the session. A false one without a wrong field has no detail. -/
def matchSession (s : OuchSession) (exp : Expect) : Option (Except String Unit) :=
  match exp.msg with
  | "login_accepted" =>
    some (if s.state = .active then expectedFieldsMatch (loginAcceptedField s) exp.fields else .error "")
  | "login_rejected" =>
    some (if s.state = .failed then expectedFieldsMatch (loginRejectedField s) exp.fields else .error "")
  | "socket_closed" => some (if s.state = .disconnected ∨ s.state = .disconnecting then .ok () else .error "")
  -- heartbeats are not events, and nothing is asked of the session
  | "server_heartbeat" => some (.ok ())
  | _ => none

def matchExpectation (r : ScenarioRunner) (exp : Expect) (timeoutMs : Int) : Except String Unit × ScenarioRunner :=
  match matchSession r.session exp with
  | some verdict => (verdict, r)
  | none => matchEvents exp timeoutMs exp.needed r

/-! ## Login, logout and gateway switch -/

/-- The loop of `run_login` without a transport. -/
def awaitLogin : Nat → ScenarioRunner → Except String Unit × ScenarioRunner
  | polls, r =>
    if r.session.state ≠ .loggingIn then (.ok (), r)
    else
      match r.pollIo with
      | (.error e, r) => (.error e.detail, r)
      | (.ok (), r) =>
        match polls with
        | 0 => (.error "login timeout", r)
        | polls + 1 => awaitLogin polls r

/-- A step that passes if the session is Active. -/
def passedIfActive (r : ScenarioRunner) (s : Step) (otherwise : String) : StepResult :=
  if r.session.state = .active then s.passed else s.failed otherwise

/-- A call of the transport, and what a login or switch step makes of it. -/
def viaTransport (r : ScenarioRunner) (s : Step) (transport : Nat → TransportCall → Outcome) (call : TransportCall)
    (otherwise : String) : Option (StepResult × ScenarioRunner) :=
  let o := transport r.transports call
  match o.session with
  | none => none
  | some session =>
    let r := { r with transports := r.transports + 1 }.install session
    match o.result with
    | .error e => some ({ s.failed e.detail with passed := r.session.state = .failed }, r)
    | .ok () => some (r.passedIfActive s otherwise, r)

def runLogin (r : ScenarioRunner) (s : Step) (a : LoginArgs) : Option (StepResult × ScenarioRunner) :=
  if r.session.state = .active ∧ a.password = [] then
    some ({ s.passed with detail := "session already Active (login driven by main)" }, r)
  else
    match r.around.transport with
    | some transport =>
      r.viaTransport s transport (.reconnectAndLogin a.password a.session a.sequence)
        "login finished in non-Active state"
    | none =>
      let p := r.session.beginLogin
      let r := r.settle p.2
      match p.1 with
      | .error e => some (s.failed ("begin_login failed: " ++ e.detail), r)
      | .ok () =>
        let (polls, r) := r.patience 2000
        match awaitLogin polls r with
        | (.error detail, r) => some (s.failed detail, r)
        | (.ok (), r) => some (r.passedIfActive s "login finished in non-Active state", r)

/-- A call of the session or the client, as a step. -/
def ofCall (s : Step) : Result Unit × ScenarioRunner → StepResult × ScenarioRunner
  | (.error e, r) => (s.failed e.detail, r)
  | (.ok (), r) => (s.passed, r)

def runLogout (r : ScenarioRunner) (s : Step) : StepResult × ScenarioRunner :=
  let p := r.session.requestLogout
  ofCall s (p.1, r.settle p.2)

def runSwitchGateway (r : ScenarioRunner) (s : Step) (a : SwitchGatewayArgs) : Option (StepResult × ScenarioRunner) :=
  match r.around.transport with
  | none => some (s.failed "switch_gateway requires a transport (live mode only)", r)
  | some transport =>
    let toSecondary := decide (a.tag = ascii "secondary" ∨ a.tag = ascii "yedek" ∨ a.tag = [])
    r.viaTransport s transport (.switchToSecondary toSecondary r.session.assignedSession r.session.nextInboundSeq)
      "post-switch login finished in non-Active state"

/-! ## Orders -/

/-- A request of the client at the throttler's time. -/
def request (r : ScenarioRunner) (q : OuchClient.Request) : Result Unit × ScenarioRunner :=
  let p := r.client.call r.now q
  (p.1, r.tick.withClient p.2)

def placeArgs (inst : Domain.Instrument) (a : PlaceArgs) : Ouch.PlaceArgs where
  symbol := a.symbol
  orderBookId := inst.orderBookId
  side := a.side
  quantity := a.quantity
  price := Domain.InstrumentCache.toWirePrice a.priceStr inst.priceDecimals
  tif := a.tif
  category := a.category
  displayQuantity := a.displayQuantity
  clientAccount := a.clientAccount
  customerInfo := a.customerInfo
  exchangeInfo := a.exchangeInfo
  explicitToken := a.token

/-- The reject that the exchange is supposed to send for a token that is not new. -/
def fakeReject (token : Bytes) (timestamp : UInt64) : OrderRejected where
  messageType := MsgType.orderRejected
  timestampNs := timestamp
  orderToken := OrderToken.ofText token
  rejectCode := RejectCode.tokenNotUnique

def expectsReject (s : Step) : Bool :=
  match s.expect with
  | some exp => exp.msg = "order_rejected"
  | none => false

def runPlace (r : ScenarioRunner) (s : Step) (a : PlaceArgs) : StepResult × ScenarioRunner :=
  match r.instruments.findBySymbol a.symbol with
  | none => (s.failed ("unknown symbol: " ++ text a.symbol), r)
  | some inst =>
    match r.request (.place (placeArgs inst a)) with
    | (.error e, r) =>
      if expectsReject s = true ∧ e.category = .validation then
        let (t, r) := r.wallNs
        ({ s.passed with detail := "synthesized -800002 reject (duplicate token caught locally)" },
          r.push [.synthesized (fakeReject a.token t)])
      else (s.failed ("place failed: " ++ e.detail), r)
    | (.ok (), r) => (s.passed, r)

def runCancelT (r : ScenarioRunner) (s : Step) (a : CancelByTokenArgs) : StepResult × ScenarioRunner :=
  ofCall s (r.request (.cancelByToken a.token))

/-- The drain loop of `run_cancel_id`: it takes an event from the front, puts it
back behind the others and stops only if they are more than 1024, which they
were before. -/
def rotate (r : ScenarioRunner) : Option ScenarioRunner :=
  match r.events with
  | [] => some r
  | ev :: rest =>
    if 1024 < (rest ++ [ev]).length then some ({ r with events := rest ++ [ev] }.updateIndices ev) else none

/-- `OuchClient::cancel_by_order_id` with a side cast from the wire. -/
def cancelById (c : OuchClient) (now : UInt64) (book : UInt32) (side : UInt8) (id : UInt64) : Result Unit × OuchClient :=
  match c.tryAcquire now with
  | (false, c) => (.error (makeError .throttled "throttler empty"), c)
  | (true, c) => c.submit (.cancelById ⟨MsgType.cancelByOrderId, book, side, id⟩)

theorem cancelById_toWire (c : OuchClient) (now : UInt64) (book : UInt32) (side : Side) (id : UInt64) :
    cancelById c now book side.toWire id = c.call now (.cancelByOrderId book side id) := rfl

def runCancelId (r : ScenarioRunner) (s : Step) (a : CancelByOrderIdArgs) : Option (StepResult × ScenarioRunner) :=
  r.rotate.map fun r =>
    match r.tokenIndex a.tokenRef with
    | none => (s.failed ("token_ref " ++ text a.tokenRef ++ " unknown to runner"), r)
    | some (id, book, side) =>
      let p := cancelById r.client r.now book side id
      ofCall s (p.1, r.tick.withClient p.2)

def replaceArgs (decimals : Int8) (a : ReplaceArgs) : Ouch.ReplaceArgs where
  existingToken := a.existingToken
  newToken := a.newToken
  newTotalQuantity := a.quantity
  newPrice := Domain.InstrumentCache.toWirePrice a.priceStr decimals
  category := a.category
  clientAccount := a.clientAccount
  displayQuantity := a.displayQuantity

/-- The source looks up the instrument of the empty symbol. -/
def runReplace (r : ScenarioRunner) (s : Step) (a : ReplaceArgs) : StepResult × ScenarioRunner :=
  let inst := if a.existingToken = [] then none else r.instruments.findBySymbol []
  let decimals := match inst with
    | some inst => inst.priceDecimals
    | none => 3
  ofCall s (r.request (.replace (replaceArgs decimals a)))

def quoteEntryArgs (inst : Domain.Instrument) (e : QuoteEntrySpec) : QuoteEntryArgs where
  orderBookId := inst.orderBookId
  bidPrice := Domain.InstrumentCache.toWirePrice e.bidPx inst.priceDecimals
  bidSize := e.bidSize
  offerPrice := Domain.InstrumentCache.toWirePrice e.offerPx inst.priceDecimals
  offerSize := e.offerSize

/-- The entries with their books, or the first symbol that is not known. -/
def quoteEntries (instruments : Domain.InstrumentCache) : List QuoteEntrySpec → Except Bytes (List QuoteEntryArgs)
  | [] => .ok []
  | e :: es =>
    match instruments.findBySymbol e.symbol with
    | none => .error e.symbol
    | some inst => (quoteEntries instruments es).map (quoteEntryArgs inst e :: ·)

def runQuote (r : ScenarioRunner) (s : Step) (a : MassQuoteArgs) : StepResult × ScenarioRunner :=
  match quoteEntries r.instruments a.entries with
  | .error symbol => (s.failed ("unknown symbol in MassQuote: " ++ text symbol), r)
  | .ok entries =>
    ofCall s (r.request (.massQuote
      { token := a.token, category := a.category, clientAccount := a.afk, exchangeInfo := a.exchangeInfo, entries }))

/-! ## Bursts -/

def burstArgs (inst : Domain.Instrument) (pat : BurstPlacePatternEntry) (seq : UInt64) : Ouch.PlaceArgs where
  symbol := pat.symbol
  orderBookId := inst.orderBookId
  side := pat.side
  quantity := pat.quantity
  price := Domain.InstrumentCache.toWirePrice pat.priceStr inst.priceDecimals
  tif := pat.tif
  category := pat.category
  explicitToken := decText (strtoull (pat.tokenPrefix ++ [0]) + seq).toNat

/-- The attempts to send one order while the throttler refuses it. -/
def burstSend (args : Ouch.PlaceArgs) : Nat → ScenarioRunner → Except String Unit × ScenarioRunner
  | 0, r => (.error "", r)
  | attempts + 1, r =>
    match r.request (.place args) with
    | (.ok (), r) => (.ok (), r)
    | (.error e, r) => if e.category ≠ .throttled then (.error e.detail, r) else burstSend args attempts r.pollIo.2

/-- The orders from number `i` on; `seq` counts the orders of each pattern entry. -/
def burstLoop (s : Step) (a : BurstPlaceArgs) : Nat → Nat → (Nat → UInt64) → ScenarioRunner → StepResult × ScenarioRunner
  | 0, i, _, r =>
    ({ s.passed with
      detail := "sent " ++ text (decText i) ++ " orders @ ~" ++ text (decText a.ratePerSec.toNat) ++ "/s" }, r)
  | left + 1, i, seq, r =>
    match a.pattern[i % a.pattern.length]? with
    | none => (s.result, r)
    | some pat =>
      match r.instruments.findBySymbol pat.symbol with
      | none => (s.failed ("unknown symbol in burst_place: " ++ text pat.symbol), r)
      | some inst =>
        let k := i % a.pattern.length
        match burstSend (burstArgs inst pat (seq k)) 1000 r with
        | (.error why, r) =>
          (s.failed ("burst_place send #" ++ text (decText (i + 1)) ++ " failed: " ++
            if why = "" then "throttle retry exhausted" else why), r)
        | (.ok (), r) => burstLoop s a left (i + 1) (Function.update seq k (seq k + 1)) r

def runBurstPlace (r : ScenarioRunner) (s : Step) (a : BurstPlaceArgs) : StepResult × ScenarioRunner :=
  if a.count = 0 ∨ a.pattern = [] then (s.failed "burst_place needs count > 0 and a non-empty pattern", r)
  else if a.ratePerSec = 0 then (s.failed "burst_place needs rate_per_sec > 0", r)
  else burstLoop s a a.count.toNat 0 (fun _ => 0) r

/-! ## Steps -/

/-- The action of a step. An args block of another type counts as missing. -/
def act (r : ScenarioRunner) (s : Step) : Option (StepResult × ScenarioRunner) :=
  match s.action with
  | "ouch_login" => r.runLogin s (match s.args with | .login a => a | _ => {})
  | "ouch_logout" => some (r.runLogout s)
  | "place" => some (r.runPlace s (match s.args with | .place a => a | _ => {}))
  | "cancel_by_token" => some (r.runCancelT s (match s.args with | .cancelByToken a => a | _ => {}))
  | "cancel_by_order_id" => r.runCancelId s (match s.args with | .cancelByOrderId a => a | _ => {})
  | "replace" => some (r.runReplace s (match s.args with | .replace a => a | _ => {}))
  | "mass_quote" => some (r.runQuote s (match s.args with | .massQuote a => a | _ => {}))
  | "switch_gateway" => r.runSwitchGateway s (match s.args with | .switchGateway a => a | _ => {})
  | "burst_place" => some (r.runBurstPlace s (match s.args with | .burstPlace a => a | _ => {}))
  | "inactivate_all" | "expect" | "wait_heartbeat" | "trigger_opening_match" => some (s.passed, r)
  | action => some (s.failed ("unsupported action: " ++ action), r)

/-- `exp->timeout_ms ? exp->timeout_ms : sc.default_timeout_ms` -/
def timeout (sc : Scenario) (exp : Expect) : Int := if exp.timeoutMs ≠ 0 then exp.timeoutMs else sc.defaultTimeoutMs

/-- The expectation of a step is looked at if its action passed. -/
def judge (sc : Scenario) (s : Step) (p : StepResult × ScenarioRunner) : StepResult × ScenarioRunner :=
  match s.expect with
  | none => p
  | some exp =>
    if p.1.passed then
      match p.2.matchExpectation exp (timeout sc exp) with
      | (.ok (), r) => (p.1, r)
      | (.error why, r) => ({ p.1 with passed := false, detail := why }, r)
    else p

def runStep (sc : Scenario) (r : ScenarioRunner) (s : Step) : Option (StepResult × ScenarioRunner) :=
  (r.act s).map (judge sc s)

/-- The results of the steps, and the runner behind them. -/
def runSteps (sc : Scenario) : List Step → ScenarioRunner → Option (List StepResult × ScenarioRunner)
  | [], r => some ([], r)
  | s :: steps, r =>
    match runStep sc r s with
    | none => none
    | some (result, r) => (runSteps sc steps r).map fun p => (result :: p.1, p.2)

def run (r : ScenarioRunner) (sc : Scenario) : Option (List StepResult × ScenarioRunner) := runSteps sc sc.steps r

end ScenarioRunner

end BistColo.Runner
