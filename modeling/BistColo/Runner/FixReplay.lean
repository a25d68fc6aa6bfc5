import BistColo.Domain.Instrument
import BistColo.Fix.Facade
import BistColo.Runner.Events
/-!
# The FIX scenario runner

`FixScenarioRunner` of `runner/fix_replay.hpp`. Callbacks push events from another
thread; what they push between two accesses of the runner to its queue is one
batch of `arrivals`, and behind the last batch nothing comes. As in `Replay`,
nothing in the code reads back what was ever pushed to the queue and taken from it.
-/

open StreamKit

namespace BistColo.Runner

/-! ## Events -/

structure AmrAck where
  ok : Bool := false
  detail : Bytes := []
deriving DecidableEq

inductive FixEvent
  | logon (m : Fix.LogonResult)
  | executionReport (m : Fix.ExecutionReportEvent)
  | cancelReject (m : Fix.CancelRejectEvent)
  | tradeReport (m : Fix.TradeReportEvent)
  | quoteStatus (m : Fix.QuoteStatusEvent)
  | amrAck (m : AmrAck)
deriving DecidableEq

def fixEventName : FixEvent → String
  | .logon _ => "fix_logon_response"
  | .executionReport _ => "fix_execution_report"
  | .cancelReject _ => "fix_cancel_reject"
  | .tradeReport _ => "fix_trade_report"
  | .quoteStatus _ => "fix_quote_status"
  | .amrAck _ => "fix_amr_ack"

def logonField (m : Fix.LogonResult) (key : String) : Option Bytes :=
  match key with
  | "SessionStatus" | "session_status" => some (toString m.sessionStatus.toInt)
  | "state" => some (toString m.state.toNat)
  | "Text" | "detail" => some m.detail
  | _ => none

/-- `hay.find(needle) != npos` -/
def contains (hay needle : Bytes) : Bool := hay.tails.any fun rest => needle.isPrefixOf rest

def executionReportField (m : Fix.ExecutionReportEvent) (key : String) : Option Bytes :=
  match key with
  | "ClOrdID" | "cl_ord_id" => some m.clOrdId
  | "OrigClOrdID" | "orig_cl_ord_id" => some m.origClOrdId
  | "ExecID" | "exec_id" => some m.execId
  | "OrderID" | "order_id" => some m.orderId
  | "Symbol" | "symbol" => some m.symbol
  | "Side" | "side" => some (sideField m.side.toWire)
  | "ExecType" | "exec_type" => some [m.execType]
  | "OrdStatus" | "ord_status" => some [m.ordStatus]
  | "LeavesQty" | "leaves_qty" => some (toString m.leavesQty.toInt)
  | "CumQty" | "cum_qty" => some (toString m.cumQty.toInt)
  | "LastQty" | "last_qty" => some (toString m.lastQty.toInt)
  | "LastPx" | "last_price" | "Price" | "price" => some (toString m.lastPrice.toInt)
  | "Text" | "text" => some m.text
  -- an alias for what the text says
  | "trd_type" | "TrdType" | "trade_type" => some (if contains m.text (ascii "short_sell") then ascii "short_sell" else [])
  | _ => none

def cancelRejectField (m : Fix.CancelRejectEvent) (key : String) : Option Bytes :=
  match key with
  | "ClOrdID" | "cl_ord_id" => some m.clOrdId
  | "OrigClOrdID" | "orig_cl_ord_id" => some m.origClOrdId
  | "Text" | "text" => some m.text
  | _ => none

def tradeReportField (m : Fix.TradeReportEvent) (key : String) : Option Bytes :=
  match key with
  | "TradeReportID" | "trade_report_id" => some m.tradeReportId
  | "TradeReportRefID" | "trade_report_ref_id" => some m.tradeReportRefId
  | "Symbol" | "symbol" => some m.symbol
  | "Side" | "side" => some (sideField m.side.toWire)
  | "LastQty" | "quantity" | "last_qty" => some (toString m.quantity.toInt)
  | "LastPx" | "price" | "last_price" => some (toString m.price.toInt)
  | "CounterpartyID" | "counterparty_id" => some m.counterpartyId
  | _ => none

def quoteStatusField (m : Fix.QuoteStatusEvent) (key : String) : Option Bytes :=
  match key with
  | "QuoteID" | "quote_id" => some m.quoteId
  | "Symbol" | "symbol" => some m.symbol
  | "Side" | "side" => some (sideField m.side.toWire)
  | "QuoteStatus" | "quote_status" => some (toString m.quoteStatus.toNat)
  | "LeavesQty" | "leaves_qty" => some (toString m.leavesQty.toInt)
  | "Price" | "price" => some (toString m.price.toInt)
  | _ => none

def amrAckField (m : AmrAck) (key : String) : Option Bytes :=
  match key with
  | "ok" => some (ascii (if m.ok then "true" else "false"))
  | "detail" | "Text" => some m.detail
  | _ => none

def fixEventField (ev : FixEvent) (key : String) : Option Bytes :=
  match ev with
  | .logon m => logonField m key
  | .executionReport m => executionReportField m key
  | .cancelReject m => cancelRejectField m key
  | .tradeReport m => tradeReportField m key
  | .quoteStatus m => quoteStatusField m key
  | .amrAck m => amrAckField m key

def fixEventMatches (exp : Expect) (ev : FixEvent) : Except String Unit :=
  if fixEventName ev ≠ exp.msg ∧ exp.msg ≠ "any" then .error ("expected " ++ exp.msg ++ ", got " ++ fixEventName ev)
  else expectedFieldsMatch (fixEventField ev) exp.fields

/-! ## State -/

structure TokenInfo where
  symbol : Bytes
  side : Side := .buy
  quantity : Int64 := 0
deriving DecidableEq

structure FixScenarioRunner where
  clients : Fix.Clients
  events : List FixEvent := []
  tokenIndex : Bytes → Option TokenInfo := fun _ => none
  /-- what the callbacks push before each access to the queue -/
  arrivals : List (List FixEvent) := []
  /-- how often the loop of a logout looks before its deadline, by its number and its milliseconds -/
  patience : Nat → Int → Nat := fun _ _ => 0
  waits : Nat := 0
  /-- readings of the states and calls so far -/
  readings : Fix.Client → Nat := fun _ => 0
  calls : Nat := 0
  pushed : List FixEvent := []
  popped : List FixEvent := []

namespace FixScenarioRunner

def push (r : FixScenarioRunner) (evs : List FixEvent) : FixScenarioRunner :=
  { r with events := r.events ++ evs, pushed := r.pushed ++ evs }

/-- The runner takes the lock of its queue. -/
def deliver (r : FixScenarioRunner) : FixScenarioRunner :=
  match r.arrivals with
  | [] => r
  | batch :: rest => { r with arrivals := rest }.push batch

def state (r : FixScenarioRunner) (c : Fix.Client) : Fix.FixSessionState × FixScenarioRunner :=
  (r.clients.state c (r.readings c), { r with readings := Function.update r.readings c (r.readings c + 1) })

def call (r : FixScenarioRunner) (q : Fix.Call) : Result Unit × FixScenarioRunner :=
  (r.clients.answer r.calls q, { r with calls := r.calls + 1 })

def index (r : FixScenarioRunner) (id : Bytes) (info : TokenInfo) : FixScenarioRunner :=
  if id = [] then r else { r with tokenIndex := Function.update r.tokenIndex id (some info) }

def waitForEvent (r : FixScenarioRunner) : Option FixEvent × FixScenarioRunner :=
  let r := r.deliver
  match r.events with
  | [] => (none, r)
  | ev :: rest => (some ev, { r with events := rest, popped := r.popped ++ [ev] })

def clear (r : FixScenarioRunner) : FixScenarioRunner :=
  let r := r.deliver
  { r with events := [], popped := r.popped ++ r.events }

/-! ## Requests -/

def ordTypeFrom (s : Bytes) : Fix.OrdType :=
  if s = ascii "MARKET" then .market
  else if s = ascii "MTL" then .marketToLimit
  else if s = ascii "IMBALANCE" then .imbalance
  else if s = ascii "MIDPOINT_LIMIT" then .midpointLimit
  else if s = ascii "MIDPOINT_MARKET" then .midpointMarket
  else .limit

/-- The digits of a price: those before the first point, those behind it, and how many these are. -/
structure Digits where
  whole : Int64 := 0
  frac : Int64 := 0
  fracDigits : Nat := 0
  seenDot : Bool := false

def readDigit (d : Digits) (digit : Int64) : Digits :=
  if d.seenDot then { d with frac := d.frac * 10 + digit, fracDigits := d.fracDigits + 1 }
  else { d with whole := d.whole * 10 + digit }

/-- Every point is skipped; anything else that is no digit ends the price. -/
def readPrice (d : Digits) : Bytes → Option Digits
  | [] => some d
  | b :: rest =>
    if b = 46 then readPrice { d with seenDot := true } rest
    else if isDigit b then readPrice (readDigit d (Int64.ofInt (b.toNat - 48))) rest
    else none

/-- Multiplies and divides the digits behind the point until there are `decimals`. -/
def scaleFrac (d : Digits) (decimals : Nat) : Int64 :=
  if d.fracDigits ≤ decimals then d.frac * Domain.InstrumentCache.pow10 (decimals - d.fracDigits)
  else Nat.repeat (fun x : Int64 => x / 10) (d.fracDigits - decimals) d.frac

/-- `parse_price`. Signed overflow, which the source leaves undefined, wraps. -/
def parsePrice (s : Bytes) (decimals : Int8) : Int32 :=
  let (neg, digits) := match s with
    | 45 :: rest => (true, rest)
    | s => (false, s)
  match readPrice {} digits with
  | none => 0
  | some d =>
    let v := d.whole * Domain.InstrumentCache.pow10 decimals.toInt.toNat + scaleFrac d decimals.toInt.toNat
    (if neg then -v else v).toInt32

example : parsePrice (ascii "6.2") 3 = 6200 := by decide +kernel

/-- The call of a client, and what a step makes of it. -/
def ofCall (s : Step) : Result Unit × FixScenarioRunner → StepResult × FixScenarioRunner
  | (.error e, r) => (s.failed e.detail, r)
  | (.ok (), r) => (s.passed, r)

/-- `place`, `cancel` and `replace`: a request that goes through is indexed. -/
def request (r : FixScenarioRunner) (s : Step) (q : Fix.Call) (id : Bytes) (info : TokenInfo) :
    StepResult × FixScenarioRunner :=
  if r.clients.has .oe then
    match r.call q with
    | (.error e, r) => (s.failed e.detail, r)
    | (.ok (), r) => (s.passed, r.index id info)
  else (s.failed "no OeClient", r)

def placeArgs (a : FixPlaceArgs) : Fix.PlaceArgs where
  clOrdId := a.clOrdId
  symbol := a.symbol
  side := a.side
  quantity := a.quantity
  priceDecimals := 3
  price := parsePrice a.priceStr 3
  ordType := ordTypeFrom a.ordType
  tif := a.tif
  account := a.account
  afk := a.afk
  displayQuantity := a.displayQuantity

def runPlace (r : FixScenarioRunner) (s : Step) (a : FixPlaceArgs) : StepResult × FixScenarioRunner :=
  r.request s (.place (placeArgs a)) a.clOrdId ⟨a.symbol, a.side, a.quantity⟩

/-- What the index knows of an order whose symbol is not given. -/
def resolve (r : FixScenarioRunner) (symbol origClOrdId : Bytes) : Option TokenInfo :=
  if symbol = [] ∧ origClOrdId ≠ [] then r.tokenIndex origClOrdId else none

def cancelArgs (r : FixScenarioRunner) (a : FixCancelArgs) : Fix.CancelArgs :=
  match r.resolve a.symbol a.origClOrdId with
  | none => ⟨a.clOrdId, a.origClOrdId, a.symbol, a.side, a.quantity⟩
  | some info =>
    ⟨a.clOrdId, a.origClOrdId, info.symbol, info.side, if a.quantity = 0 then info.quantity else a.quantity⟩

def runCancel (r : FixScenarioRunner) (s : Step) (a : FixCancelArgs) : StepResult × FixScenarioRunner :=
  let ca := r.cancelArgs a
  r.request s (.cancel ca) ca.clOrdId ⟨ca.symbol, ca.side, ca.quantity⟩

def replaceArgs (r : FixScenarioRunner) (a : FixReplaceArgs) : Fix.ReplaceArgs where
  clOrdId := a.clOrdId
  origClOrdId := a.origClOrdId
  symbol := ((r.resolve a.symbol a.origClOrdId).map (·.symbol)).getD a.symbol
  side := ((r.resolve a.symbol a.origClOrdId).map (·.side)).getD a.side
  newQuantity := a.newQuantity
  priceDecimals := 3
  newPrice := parsePrice a.priceStr 3
  ordType := ordTypeFrom a.ordType

def runReplace (r : FixScenarioRunner) (s : Step) (a : FixReplaceArgs) : StepResult × FixScenarioRunner :=
  let ra := r.replaceArgs a
  r.request s (.replace ra) ra.clOrdId ⟨ra.symbol, ra.side, ra.newQuantity⟩

def runAmr (r : FixScenarioRunner) (s : Step) (a : FixAmrSubscribeArgs) : StepResult × FixScenarioRunner :=
  if r.clients.has .rd then ofCall s (r.call (.subscribeAll a.applReqId)) else (s.failed "no RdClient", r)

/-! ## Sessions -/

/-- `c && (c->state() == st || ...)`, one reading after the other. -/
def isIn (r : FixScenarioRunner) (c : Fix.Client) : List Fix.FixSessionState → Bool × FixScenarioRunner
  | [] => (false, r)
  | st :: sts =>
    if r.clients.has c then
      let (now, r) := r.state c
      if now = st then (true, r) else r.isIn c sts
    else (false, r)

/-- A client that is out logs on again; the detail of a call that fails. -/
def relogon (r : FixScenarioRunner) (c : Fix.Client) : Except String Unit × FixScenarioRunner :=
  match r.isIn c [.loggedOut, .disconnected, .failed] with
  | (false, r) => (.ok (), r)
  | (true, r) =>
    match r.call (.login c) with
    | (.error e, r) => (.error e.detail, r)
    | (.ok (), r) => (.ok (), r)

def runLogon (r : FixScenarioRunner) (s : Step) : StepResult × FixScenarioRunner :=
  match r.isIn .oe [.active] with
  | (true, r) => ({ s.passed with detail := "OE already Active" }, r)
  | (false, r) =>
    match r.isIn .rd [.active] with
    | (true, r) => ({ s.passed with detail := "RD already Active" }, r)
    | (false, r) =>
      match r.relogon .oe with
      | (.error why, r) => (s.failed ("OE login() failed: " ++ why), r)
      | (.ok (), r) =>
        match r.relogon .rd with
        | (.error why, r) => (s.failed ("RD login() failed: " ++ why), r)
        | (.ok (), r) => (s.passed, r)

def logout (r : FixScenarioRunner) (c : Fix.Client) : FixScenarioRunner :=
  if r.clients.has c then (r.call (.logout c)).2 else r

def runLogout (r : FixScenarioRunner) (s : Step) : StepResult × FixScenarioRunner :=
  (s.passed, ((r.logout .oe).logout .rd).logout .dc)

/-! ## Expectations -/

/-- Whether one of the clients is Active; all are asked. -/
def anyActive (r : FixScenarioRunner) : Bool × FixScenarioRunner :=
  let (oe, r) := r.isIn .oe [.active]
  let (rd, r) := r.isIn .rd [.active]
  let (dc, r) := r.isIn .dc [.active]
  (oe || rd || dc, r)

/-- The loop of `fix_logout_complete`. -/
def awaitLogout : Nat → FixScenarioRunner → Except String Unit × FixScenarioRunner
  | 0, r => (.error "logout did not complete within timeout", r)
  | looks + 1, r =>
    match r.anyActive with
    | (false, r) => (.ok (), r.clear)
    | (true, r) => awaitLogout looks r

/-- A logon result that does not count for `fix_logon_response`. -/
def isBreadcrumb (exp : Expect) : FixEvent → Bool
  | .logon m => exp.msg = "fix_logon_response" ∧ m.state ≠ .active ∧ m.state ≠ .passwordChanged
  | _ => false

/-- An event that `match_expectation` counts. -/
def counts (exp : Expect) (ev : FixEvent) : Bool :=
  !isBreadcrumb exp ev && (fixEventMatches exp ev = .ok () || exp.msg = "any")

/-- The loop of `match_expectation`: events that do not count are dropped. At
most `left` events are still to come. -/
def matchEvents (exp : Expect) : Nat → Nat → FixScenarioRunner → Except String Unit × FixScenarioRunner
  | _, 0, r => (.ok (), r)
  | 0, _ + 1, r => (.error ("timeout waiting for " ++ exp.msg), r.deliver)
  | left + 1, needed + 1, r =>
    match r.waitForEvent with
    | (none, r) => (.error ("timeout waiting for " ++ exp.msg), r)
    | (some ev, r) => matchEvents exp left (if counts exp ev then needed else needed + 1) r

/-- The events that wait or are still to come. -/
def left (r : FixScenarioRunner) : Nat := r.events.length + r.arrivals.flatten.length

def matchExpectation (r : FixScenarioRunner) (exp : Expect) (timeoutMs : Int) :
    Except String Unit × FixScenarioRunner :=
  match exp.msg with
  | "server_heartbeat" => (.ok (), r)
  | "fix_logout_complete" =>
    awaitLogout (r.patience r.waits timeoutMs) { r with waits := r.waits + 1 }
  | _ => matchEvents exp r.left exp.needed r

/-! ## Steps -/

/-- The action of a step. An args block of another type counts as missing. -/
def act (r : FixScenarioRunner) (s : Step) : StepResult × FixScenarioRunner :=
  match s.action with
  | "fix_logon" => r.runLogon s
  | "fix_logout" => r.runLogout s
  | "fix_amr_subscribe" | "fix_amr" => r.runAmr s (match s.args with | .fixAmrSubscribe a => a | _ => {})
  -- a wait only sleeps
  | "fix_wait_heartbeat" | "wait_heartbeat" => (s.passed, r)
  | "fix_place" | "place" => r.runPlace s (match s.args with | .fixPlace a => a | _ => {})
  | "fix_cancel" | "cancel_by_token" | "cancel_by_order_id" =>
    r.runCancel s (match s.args with | .fixCancel a => a | _ => {})
  | "fix_replace" | "replace" => r.runReplace s (match s.args with | .fixReplace a => a | _ => {})
  | "expect" | "trigger_match" => (s.passed, r)
  | action => (s.failed ("unsupported FIX action: " ++ action), r)

/-- `exp->timeout_ms ? exp->timeout_ms : sc.default_timeout_ms` -/
def timeout (sc : Scenario) (exp : Expect) : Int := if exp.timeoutMs ≠ 0 then exp.timeoutMs else sc.defaultTimeoutMs

/-- The expectation of a step is looked at if its action passed. -/
def judge (sc : Scenario) (s : Step) (p : StepResult × FixScenarioRunner) : StepResult × FixScenarioRunner :=
  match s.expect with
  | none => p
  | some exp =>
    if p.1.passed then
      match p.2.matchExpectation exp (timeout sc exp) with
      | (.ok (), r) => (p.1, r)
      | (.error why, r) => ({ p.1 with passed := false, detail := why }, r)
    else p

def runStep (sc : Scenario) (r : FixScenarioRunner) (s : Step) : StepResult × FixScenarioRunner :=
  judge sc s (r.act s)

/-- The results of the steps, and the runner behind them. -/
def runSteps (sc : Scenario) : List Step → FixScenarioRunner → List StepResult × FixScenarioRunner
  | [], r => ([], r)
  | s :: steps, r =>
    let (result, r) := runStep sc r s
    let (results, r) := runSteps sc steps r
    (result :: results, r)

def run (r : FixScenarioRunner) (sc : Scenario) : List StepResult × FixScenarioRunner := runSteps sc sc.steps r

end FixScenarioRunner

end BistColo.Runner
