import BistColo.Runner.Scenario
import Mathlib.Data.List.Forall2
/-!
# Loading a scenario

`load_scenario` of `runner/scenario_loader.cpp`, from the tree that yaml-cpp
makes of the file. A value that is missing, that is no scalar, that has no
recognised spelling or that does not convert is replaced by a default, so a
file is refused for its shape only. `load_scenario_reads` says what every value
of an order comes to.
-/

open StreamKit

namespace BistColo.Runner

/-! ## YAML -/

inductive Yaml
  | null
  | scalar (text : Bytes)
  | seq (items : List Yaml)
  | map (entries : List (Yaml × Yaml))

inductive LoadError
  | badSubscript
  | badConversion
  | runtime (what : String)
deriving DecidableEq

namespace Yaml

/-- The value of the first entry with this key; any other node has none. -/
def find (n : Yaml) (key : String) : Option Yaml :=
  match n with
  | map entries => entries.findSome? fun
    | (scalar k, v) => if k = ascii key then some v else none
    | _ => none
  | _ => none

/-- `operator[]`, which throws for every key of a scalar. -/
def subscript : Yaml → Except LoadError (String → Option Yaml)
  | scalar _ => .error .badSubscript
  | n => .ok n.find

theorem subscript_ok {n : Yaml} {get : String → Option Yaml} (h : n.subscript = .ok get) : get = n.find := by
  cases n with
  | scalar text => cases h
  | null | seq items | map entries => exact (Except.ok.inj h).symm

end Yaml

/-- yaml-cpp's conversions of a scalar's text, and of a key to a string. -/
structure Conversions where
  int : Bytes → Option Int
  int64 : Bytes → Option Int64
  uint32 : Bytes → Option UInt32
  uint64 : Bytes → Option UInt64
  key : Yaml → Option Bytes

/-! ## Values -/

def optAs {α : Type} (conv : Bytes → Option α) : Option Yaml → Option α
  | some (.scalar text) => conv text
  | _ => none

def scalar (n : Option Yaml) (fallback : Bytes) : Bytes :=
  match n with
  | some (.scalar text) => text
  | _ => fallback

def sideFrom (s : Bytes) : Side :=
  if s = ascii "BUY" ∨ s = ascii "B" ∨ s = ascii "buy" then .buy
  else if s = ascii "SELL" ∨ s = ascii "S" ∨ s = ascii "sell" then .sell
  else if s = ascii "SHORT" ∨ s = ascii "T" then .shortSell
  else .buy

def tifFrom (s : Bytes) : TimeInForce :=
  if s = ascii "DAY" ∨ s = ascii "Day" ∨ s = ascii "day" then .day
  else if s = ascii "IOC" ∨ s = ascii "FAK" then .immediateOrCancel
  else if s = ascii "FOK" then .fillOrKill
  else .day

def categoryFrom (s : Bytes) : ClientCategory :=
  if s = ascii "CLIENT" then .client
  else if s = ascii "HOUSE" then .house
  else if s = ascii "FUND" then .fund
  else if s = ascii "PORTFOLIO" ∨ s = ascii "MGMT" then .portfolioMgmt
  else .client

/-- `side_from(scalar(n, "BUY"))`, and the same of the other two. -/
def side (n : Option Yaml) : Side := sideFrom (scalar n (ascii "BUY"))
def tif (n : Option Yaml) : TimeInForce := tifFrom (scalar n (ascii "DAY"))
def category (n : Option Yaml) : ClientCategory := categoryFrom (scalar n (ascii "CLIENT"))

section Arguments

variable (conv : Conversions)

/-- `if (auto q = opt_as<std::int64_t>(n)) out = *q;` for a field that is 0 -/
def quantity (n : Option Yaml) : Int64 := (optAs conv.int64 n).getD 0

/-! ## Arguments -/

def parseLoginArgs (a : Yaml) : Except LoadError LoginArgs :=
  a.subscript.map fun get =>
    { session := scalar (get "session") [], password := scalar (get "password") [],
      sequence := (optAs conv.uint64 (get "sequence")).getD 0 }

/-- Arguments that no runner reads: an access may still throw. -/
def parseOther (a : Yaml) : Except LoadError StepArgs := a.subscript.map fun _ => .other

def parsePlaceArgs (a : Yaml) : Except LoadError PlaceArgs :=
  a.subscript.map fun get =>
    { symbol := scalar (get "symbol") [], side := side (get "side"), quantity := quantity conv (get "qty"),
      priceStr := scalar (get "price") [], tif := tif (get "tif"), category := category (get "category"),
      clientAccount := scalar (get "afk") [], customerInfo := scalar (get "customer_info") [],
      exchangeInfo := scalar (get "exchange_info") [], token := scalar (get "token") [],
      displayQuantity := quantity conv (get "display_qty") }

def parseCancelTokenArgs (a : Yaml) : Except LoadError CancelByTokenArgs :=
  a.subscript.map fun get => { token := scalar (get "token") [] }

def parseCancelIdArgs (a : Yaml) : Except LoadError CancelByOrderIdArgs :=
  a.subscript.map fun get => { tokenRef := scalar (get "token_ref") [] }

def parseReplaceArgs (a : Yaml) : Except LoadError ReplaceArgs :=
  a.subscript.map fun get =>
    { existingToken := scalar (get "existing_token") [], newToken := scalar (get "new_token") [],
      quantity := quantity conv (get "qty"), priceStr := scalar (get "price") [],
      category := category (get "category"), clientAccount := scalar (get "afk") [],
      displayQuantity := quantity conv (get "display_qty") }

def parseQuoteEntry (e : Yaml) : Except LoadError QuoteEntrySpec :=
  e.subscript.map fun get =>
    { symbol := scalar (get "symbol") [], bidPx := scalar (get "bid_px") [], offerPx := scalar (get "offer_px") [],
      bidSize := quantity conv (get "bid_size"), offerSize := quantity conv (get "offer_size") }

/-- The loop over a sequence; anything else has no elements. -/
def parseItems {α : Type} (parse : Yaml → Except LoadError α) : Option Yaml → Except LoadError (List α)
  | some (.seq items) => items.mapM parse
  | _ => .ok []

def parseMassQuoteArgs (a : Yaml) : Except LoadError MassQuoteArgs := do
  let get ← a.subscript
  let entries ← parseItems (parseQuoteEntry conv) (get "entries")
  pure { token := scalar (get "token") [], category := category (get "category"), afk := scalar (get "afk") [],
         exchangeInfo := scalar (get "exchange_info") [], entries := entries }

def parseSwitchGatewayArgs (a : Yaml) : Except LoadError SwitchGatewayArgs :=
  a.subscript.map fun get => { tag := scalar (get "tag") (ascii "secondary") }

def parsePatternEntry (en : Yaml) : Except LoadError BurstPlacePatternEntry :=
  en.subscript.map fun get =>
    { symbol := scalar (get "symbol") [], side := side (get "side"), quantity := quantity conv (get "qty"),
      priceStr := scalar (get "price") [], tokenPrefix := scalar (get "token_prefix") [], tif := tif (get "tif"),
      category := category (get "category") }

def parseBurstPlaceArgs (a : Yaml) : Except LoadError BurstPlaceArgs := do
  let get ← a.subscript
  let pattern ← parseItems (parsePatternEntry conv) (get "pattern")
  pure { count := (optAs conv.uint32 (get "count")).getD 0,
         ratePerSec := (optAs conv.uint32 (get "rate_per_sec")).getD 100, pattern := pattern }

def parseFixAmrArgs (a : Yaml) : Except LoadError FixAmrSubscribeArgs :=
  a.subscript.map fun get => { applReqId := scalar (get "appl_req_id") [] }

def parseFixPlaceArgs (a : Yaml) : Except LoadError FixPlaceArgs :=
  a.subscript.map fun get =>
    { clOrdId := scalar (get "cl_ord_id") (scalar (get "token") []), symbol := scalar (get "symbol") [],
      side := side (get "side"), quantity := quantity conv (get "qty"), priceStr := scalar (get "price") [],
      tif := tif (get "tif"), ordType := scalar (get "ord_type") (ascii "LIMIT"),
      category := category (get "category"), account := scalar (get "account") [], afk := scalar (get "afk") [],
      displayQuantity := quantity conv (get "display_qty") }

def parseFixCancelArgs (a : Yaml) : Except LoadError FixCancelArgs :=
  a.subscript.map fun get =>
    { clOrdId := scalar (get "cl_ord_id") (scalar (get "new_token") []),
      origClOrdId := scalar (get "orig_cl_ord_id") (scalar (get "token_ref") (scalar (get "token") [])),
      symbol := scalar (get "symbol") [], side := side (get "side"), quantity := quantity conv (get "qty") }

def parseFixReplaceArgs (a : Yaml) : Except LoadError FixReplaceArgs :=
  a.subscript.map fun get =>
    { clOrdId := scalar (get "cl_ord_id") (scalar (get "new_token") []),
      origClOrdId := scalar (get "orig_cl_ord_id") (scalar (get "existing_token") []),
      symbol := scalar (get "symbol") [], side := side (get "side"), newQuantity := quantity conv (get "qty"),
      priceStr := scalar (get "price") [], ordType := scalar (get "ord_type") (ascii "LIMIT") }

/-- The branches of the loop over the steps; a generic action is read for the
protocol of the scenario. -/
def parseArgs (isFix : Bool) (action : String) (a : Yaml) : Except LoadError StepArgs :=
  if action = "ouch_login" then (parseLoginArgs conv a).map .login
  else if action = "wait_heartbeat" then parseOther a
  else if action = "place" then
    if isFix then (parseFixPlaceArgs conv a).map .fixPlace else (parsePlaceArgs conv a).map .place
  else if action = "cancel_by_token" then
    if isFix then (parseFixCancelArgs conv a).map .fixCancel else (parseCancelTokenArgs a).map .cancelByToken
  else if action = "cancel_by_order_id" then
    if isFix then (parseFixCancelArgs conv a).map .fixCancel else (parseCancelIdArgs a).map .cancelByOrderId
  else if action = "replace" then
    if isFix then (parseFixReplaceArgs conv a).map .fixReplace else (parseReplaceArgs conv a).map .replace
  else if action = "mass_quote" then (parseMassQuoteArgs conv a).map .massQuote
  else if action = "switch_gateway" then (parseSwitchGatewayArgs a).map .switchGateway
  else if action = "inactivate_all" then .ok .other
  else if action = "burst_place" then (parseBurstPlaceArgs conv a).map .burstPlace
  else if action = "fix_logon" then parseOther a
  else if action = "fix_amr_subscribe" ∨ action = "fix_amr" then (parseFixAmrArgs a).map .fixAmrSubscribe
  else if action = "fix_wait_heartbeat" then parseOther a
  else if action = "fix_place" then (parseFixPlaceArgs conv a).map .fixPlace
  else if action = "fix_cancel" then (parseFixCancelArgs conv a).map .fixCancel
  else if action = "fix_replace" then (parseFixReplaceArgs conv a).map .fixReplace
  else .ok .other

/-! ## Steps -/

/-- `e.fields[key] = value` of a `std::map`. -/
def setField (key : String) (value : Bytes) : List (String × Bytes) → List (String × Bytes)
  | [] => [(key, value)]
  | (k, v) :: fields =>
    if key = k then (key, value) :: fields
    else if key < k then (key, value) :: (k, v) :: fields
    else (k, v) :: setField key value fields

def parseFields (n : Option Yaml) : Except LoadError (List (String × Bytes)) :=
  match n with
  | some (.map entries) => entries.foldlM (fun fields kv =>
      match conv.key kv.1 with
      | none => .error .badConversion
      | some key => .ok (setField (text key) (scalar (some kv.2) []) fields)) []
  | _ => .ok []

def parseExpect (n : Yaml) : Except LoadError Expect :=
  match n with
  | .scalar msg => .ok { msg := text msg }
  | .map _ =>
    (parseFields conv (n.find "fields")).map fun fields =>
      { msg := text (scalar (n.find "msg") []), fields := fields,
        occurrences := (optAs conv.int (n.find "occurrences")).getD 1,
        timeoutMs := (optAs conv.int (n.find "timeout_ms")).getD 0 }
  | _ => .ok { msg := "" }

/-- `if (sn["args"])` and `if (sn["expect"])` -/
def parseStepArgs (isFix : Bool) (action : String) : Option Yaml → Except LoadError StepArgs
  | none => .ok .other
  | some a => parseArgs conv isFix action a

def parseStepExpect : Option Yaml → Except LoadError (Option Expect)
  | none => .ok none
  | some n => (parseExpect conv n).map some

def parseStep (isFix : Bool) (sn : Yaml) : Except LoadError Step := do
  let get ← sn.subscript
  let args ← parseStepArgs conv isFix (text (scalar (get "action") [])) (get "args")
  let expect ← parseStepExpect conv (get "expect")
  pure { id := (optAs conv.int (get "id")).getD 0, action := text (scalar (get "action") []), args := args,
         expect := expect }

/-! ## The file -/

/-- The entries with the last one first. -/
def parsePreconditions (n : Option Yaml) : Except LoadError (List (Bytes × Bytes)) :=
  match n with
  | some (.map entries) => entries.foldlM (fun pre kv =>
      match conv.key kv.1 with
      | none => .error .badConversion
      | some key => .ok ((key, scalar (some kv.2) []) :: pre)) []
  | _ => .ok []

def isFixProtocol (preconditions : List (Bytes × Bytes)) : Bool :=
  match preconditions.lookup (ascii "protocol") with
  | some protocol => protocol = ascii "fix_oe" ∨ protocol = ascii "fix_rd"
  | none => false

/-- `file` is what `YAML::LoadFile` makes of the file, or the text of what it throws. -/
def loadScenario (path : String) (file : Except String Yaml) : Except LoadError Scenario :=
  match file with
  | .error what => .error (.runtime ("yaml parse: " ++ path ++ ": " ++ what))
  | .ok root => do
    let get ← root.subscript
    let preconditions ← parsePreconditions conv (get "preconditions")
    match get "steps" with
    | some (.seq items) =>
      let steps ← items.mapM (parseStep conv (isFixProtocol preconditions))
      pure { defaultTimeoutMs := (optAs conv.int (get "default_timeout_ms")).getD 5000, steps := steps }
    | _ => .error (.runtime ("scenario " ++ path ++ ": missing 'steps' sequence"))

end Arguments

/-! ## What the values mean -/

/-- The value of a spelling. -/
def spelled {α : Type} (table : List (String × α)) (text : Bytes) : Option α :=
  (table.find? fun p => text = ascii p.1).map Prod.snd

def sideSpellings : List (String × Side) :=
  [("BUY", .buy), ("B", .buy), ("buy", .buy), ("SELL", .sell), ("S", .sell), ("sell", .sell), ("SHORT", .shortSell),
    ("T", .shortSell)]

def tifSpellings : List (String × TimeInForce) :=
  [("DAY", .day), ("Day", .day), ("day", .day), ("IOC", .immediateOrCancel), ("FAK", .immediateOrCancel),
    ("FOK", .fillOrKill)]

def categorySpellings : List (String × ClientCategory) :=
  [("CLIENT", .client), ("HOUSE", .house), ("FUND", .fund), ("PORTFOLIO", .portfolioMgmt), ("MGMT", .portfolioMgmt)]

/-- The field got the meaning of the value, or the default if it has none. -/
def Reads {α : Type} (n : Option Yaml) (means : Bytes → Option α) (fallback v : α) : Prop :=
  (∀ text x, n = some (.scalar text) → means text = some x → v = x) ∧
    ((∀ text, n = some (.scalar text) → means text = none) → v = fallback)

/-- The field got the first of the texts that is there. -/
def ReadsFirst : List (Option Yaml) → Bytes → Prop
  | [], v => v = []
  | n :: ns, v => ∃ fallback, ReadsFirst ns fallback ∧ Reads n some fallback v

/-- The field got the elements of the sequence, one by one. -/
def ReadsItems {α : Type} (R : (String → Option Yaml) → α → Prop) (n : Option Yaml) (vs : List α) : Prop :=
  (∀ items, n = some (.seq items) → List.Forall₂ (fun item v => R item.find v) items vs) ∧
    ((∀ items, n ≠ some (.seq items)) → vs = [])

section Meaning

variable (conv : Conversions)

structure PlaceReads (get : String → Option Yaml) (args : PlaceArgs) : Prop where
  side : Reads (get "side") (spelled sideSpellings) .buy args.side
  qty : Reads (get "qty") conv.int64 0 args.quantity
  price : Reads (get "price") some [] args.priceStr
  tif : Reads (get "tif") (spelled tifSpellings) .day args.tif
  category : Reads (get "category") (spelled categorySpellings) .client args.category
  token : Reads (get "token") some [] args.token
  displayQty : Reads (get "display_qty") conv.int64 0 args.displayQuantity

structure ReplaceReads (get : String → Option Yaml) (args : ReplaceArgs) : Prop where
  existingToken : Reads (get "existing_token") some [] args.existingToken
  newToken : Reads (get "new_token") some [] args.newToken
  qty : Reads (get "qty") conv.int64 0 args.quantity
  price : Reads (get "price") some [] args.priceStr
  category : Reads (get "category") (spelled categorySpellings) .client args.category
  displayQty : Reads (get "display_qty") conv.int64 0 args.displayQuantity

structure QuoteReads (get : String → Option Yaml) (q : QuoteEntrySpec) : Prop where
  bidPx : Reads (get "bid_px") some [] q.bidPx
  offerPx : Reads (get "offer_px") some [] q.offerPx
  bidSize : Reads (get "bid_size") conv.int64 0 q.bidSize
  offerSize : Reads (get "offer_size") conv.int64 0 q.offerSize

structure MassQuoteReads (get : String → Option Yaml) (args : MassQuoteArgs) : Prop where
  token : Reads (get "token") some [] args.token
  category : Reads (get "category") (spelled categorySpellings) .client args.category
  entries : ReadsItems (QuoteReads conv) (get "entries") args.entries

structure PatternReads (get : String → Option Yaml) (e : BurstPlacePatternEntry) : Prop where
  side : Reads (get "side") (spelled sideSpellings) .buy e.side
  qty : Reads (get "qty") conv.int64 0 e.quantity
  price : Reads (get "price") some [] e.priceStr
  tokenPrefix : Reads (get "token_prefix") some [] e.tokenPrefix
  tif : Reads (get "tif") (spelled tifSpellings) .day e.tif
  category : Reads (get "category") (spelled categorySpellings) .client e.category

structure BurstPlaceReads (get : String → Option Yaml) (args : BurstPlaceArgs) : Prop where
  count : Reads (get "count") conv.uint32 0 args.count
  ratePerSec : Reads (get "rate_per_sec") conv.uint32 100 args.ratePerSec
  pattern : ReadsItems (PatternReads conv) (get "pattern") args.pattern

structure FixPlaceReads (get : String → Option Yaml) (args : FixPlaceArgs) : Prop where
  clOrdId : ReadsFirst [get "cl_ord_id", get "token"] args.clOrdId
  side : Reads (get "side") (spelled sideSpellings) .buy args.side
  qty : Reads (get "qty") conv.int64 0 args.quantity
  price : Reads (get "price") some [] args.priceStr
  tif : Reads (get "tif") (spelled tifSpellings) .day args.tif
  category : Reads (get "category") (spelled categorySpellings) .client args.category
  displayQty : Reads (get "display_qty") conv.int64 0 args.displayQuantity

structure FixCancelReads (get : String → Option Yaml) (args : FixCancelArgs) : Prop where
  clOrdId : ReadsFirst [get "cl_ord_id", get "new_token"] args.clOrdId
  origClOrdId : ReadsFirst [get "orig_cl_ord_id", get "token_ref", get "token"] args.origClOrdId
  side : Reads (get "side") (spelled sideSpellings) .buy args.side
  qty : Reads (get "qty") conv.int64 0 args.quantity

structure FixReplaceReads (get : String → Option Yaml) (args : FixReplaceArgs) : Prop where
  clOrdId : ReadsFirst [get "cl_ord_id", get "new_token"] args.clOrdId
  origClOrdId : ReadsFirst [get "orig_cl_ord_id", get "existing_token"] args.origClOrdId
  side : Reads (get "side") (spelled sideSpellings) .buy args.side
  qty : Reads (get "qty") conv.int64 0 args.newQuantity
  price : Reads (get "price") some [] args.priceStr

/-- The actions whose arguments are about orders. -/
def orderActions : List String :=
  ["place", "cancel_by_token", "cancel_by_order_id", "replace", "mass_quote", "burst_place", "fix_place", "fix_cancel",
    "fix_replace"]

/-- What the arguments of an action read; the generic actions are those of the protocol. -/
inductive ArgsRead (isFix : Bool) (action : String) (get : String → Option Yaml) : StepArgs → Prop
  | place {args : PlaceArgs} (h : action = "place" ∧ isFix = false) (reads : PlaceReads conv get args) :
    ArgsRead isFix action get (.place args)
  | cancelByToken {args : CancelByTokenArgs} (h : action = "cancel_by_token" ∧ isFix = false)
    (reads : Reads (get "token") some [] args.token) : ArgsRead isFix action get (.cancelByToken args)
  | cancelByOrderId {args : CancelByOrderIdArgs} (h : action = "cancel_by_order_id" ∧ isFix = false)
    (reads : Reads (get "token_ref") some [] args.tokenRef) : ArgsRead isFix action get (.cancelByOrderId args)
  | replace {args : ReplaceArgs} (h : action = "replace" ∧ isFix = false) (reads : ReplaceReads conv get args) :
    ArgsRead isFix action get (.replace args)
  | massQuote {args : MassQuoteArgs} (h : action = "mass_quote") (reads : MassQuoteReads conv get args) :
    ArgsRead isFix action get (.massQuote args)
  | burstPlace {args : BurstPlaceArgs} (h : action = "burst_place") (reads : BurstPlaceReads conv get args) :
    ArgsRead isFix action get (.burstPlace args)
  | fixPlace {args : FixPlaceArgs} (h : action = "place" ∧ isFix ∨ action = "fix_place")
    (reads : FixPlaceReads conv get args) : ArgsRead isFix action get (.fixPlace args)
  | fixCancel {args : FixCancelArgs}
    (h : (action = "cancel_by_token" ∨ action = "cancel_by_order_id") ∧ isFix ∨ action = "fix_cancel")
    (reads : FixCancelReads conv get args) : ArgsRead isFix action get (.fixCancel args)
  | fixReplace {args : FixReplaceArgs} (h : action = "replace" ∧ isFix ∨ action = "fix_replace")
    (reads : FixReplaceReads conv get args) : ArgsRead isFix action get (.fixReplace args)
  | noOrder {args : StepArgs} (h : action ∉ orderActions) : ArgsRead isFix action get args

/-- What a step reads off its node. -/
structure StepReads (isFix : Bool) (n : Yaml) (s : Step) : Prop where
  action : s.action = text (scalar (n.find "action") [])
  args : ∀ a, n.find "args" = some a → ArgsRead conv isFix s.action a.find s.args
  noArgs : n.find "args" = none → s.args = .other

/-! ## Each value is read -/

theorem reads_getD {α : Type} (means : Bytes → Option α) (fallback : α) (n : Option Yaml) :
    Reads n means fallback ((optAs means n).getD fallback) := by
  refine ⟨?_, ?_⟩
  · rintro text x rfl hx
    rw [optAs, hx]
    rfl
  · intro hnone
    unfold optAs
    split
    · rename_i text
      rw [hnone text rfl]
      rfl
    · rfl

theorem reads_scalar (fallback : Bytes) (n : Option Yaml) : Reads n some fallback (scalar n fallback) := by
  refine ⟨?_, ?_⟩
  · rintro text x rfl hx
    exact Option.some.inj hx
  · intro hnone
    unfold scalar
    split
    · rename_i text
      cases hnone text rfl
    · rfl

/-- A table of spellings read by one of the `_from` functions. -/
theorem reads_spelled {α : Type} {table : List (String × α)} {f : Bytes → α} {fallback : α} {name : Bytes}
    (hf : ∀ text, f text = (spelled table text).getD fallback) (hname : f name = fallback) (n : Option Yaml) :
    Reads n (spelled table) fallback (f (scalar n name)) := by
  refine ⟨?_, ?_⟩
  · rintro text x rfl hx
    rw [scalar, hf, hx]
    rfl
  · intro hnone
    unfold scalar
    split
    · rename_i text
      rw [hf, hnone text rfl]
      rfl
    · exact hname

theorem sideFrom_eq (s : Bytes) : sideFrom s = (spelled sideSpellings s).getD .buy := by
  unfold sideFrom
  split
  · rename_i h
    rcases h with rfl | rfl | rfl
    all_goals decide
  · split
    · rename_i h
      rcases h with rfl | rfl | rfl
      all_goals decide
    · split
      · rename_i h
        rcases h with rfl | rfl
        all_goals decide
      · simp_all [spelled, sideSpellings]

theorem tifFrom_eq (s : Bytes) : tifFrom s = (spelled tifSpellings s).getD .day := by
  unfold tifFrom
  split
  · rename_i h
    rcases h with rfl | rfl | rfl
    all_goals decide
  · split
    · rename_i h
      rcases h with rfl | rfl
      all_goals decide
    · split
      · rename_i h
        rw [h]
        decide
      · simp_all [spelled, tifSpellings]

theorem categoryFrom_eq (s : Bytes) : categoryFrom s = (spelled categorySpellings s).getD .client := by
  unfold categoryFrom
  split
  · rename_i h
    rw [h]
    decide
  · split
    · rename_i h
      rw [h]
      decide
    · split
      · rename_i h
        rw [h]
        decide
      · split
        · rename_i h
          rcases h with rfl | rfl
          all_goals decide
        · simp_all [spelled, categorySpellings]

theorem reads_side (n : Option Yaml) : Reads n (spelled sideSpellings) .buy (side n) :=
  reads_spelled sideFrom_eq (by decide) n

theorem reads_tif (n : Option Yaml) : Reads n (spelled tifSpellings) .day (tif n) :=
  reads_spelled tifFrom_eq (by decide) n

theorem reads_category (n : Option Yaml) : Reads n (spelled categorySpellings) .client (category n) :=
  reads_spelled categoryFrom_eq (by decide) n

theorem reads_quantity (n : Option Yaml) : Reads n conv.int64 0 (quantity conv n) := reads_getD conv.int64 0 n

theorem readsFirst_two (n m : Option Yaml) : ReadsFirst [n, m] (scalar n (scalar m [])) :=
  ⟨_, ⟨_, rfl, reads_scalar [] m⟩, reads_scalar _ n⟩

theorem readsFirst_three (n m k : Option Yaml) : ReadsFirst [n, m, k] (scalar n (scalar m (scalar k []))) :=
  ⟨_, readsFirst_two m k, reads_scalar _ n⟩

/-! ## What a parser that succeeds has read -/

theorem bind_eq_ok {ε α β : Type} {x : Except ε α} {f : α → Except ε β} {b : β} :
    x >>= f = .ok b ↔ ∃ a, x = .ok a ∧ f a = .ok b := by
  cases x with
  | error e => simp [bind, Except.bind]
  | ok a => simp [bind, Except.bind]

theorem map_eq_ok {ε α β : Type} {x : Except ε α} {f : α → β} {b : β} :
    x.map f = .ok b ↔ ∃ a, x = .ok a ∧ f a = b := by
  cases x with
  | error e => simp [Except.map]
  | ok a => simp [Except.map]

theorem mapM_eq_ok {ε α β : Type} {f : α → Except ε β} {as : List α} {bs : List β} :
    as.mapM f = .ok bs ↔ List.Forall₂ (fun a b => f a = .ok b) as bs := by
  induction as generalizing bs with
  | nil =>
    rw [List.mapM_nil, List.forall₂_nil_left_iff]
    simp [pure, Except.pure, eq_comm]
  | cons a as ih =>
    rw [List.mapM_cons, bind_eq_ok]
    constructor
    · rintro ⟨b, hb, hrest⟩
      obtain ⟨bs', hbs', hpure⟩ := bind_eq_ok.1 hrest
      cases hpure
      exact .cons hb (ih.1 hbs')
    · rintro (_ | ⟨hb, hrest⟩)
      exact ⟨_, hb, bind_eq_ok.2 ⟨_, ih.2 hrest, rfl⟩⟩

/-- A parser that reads the keys of its node, and nothing else. -/
theorem subscript_map {α : Type} {n : Yaml} {f : (String → Option Yaml) → α} {v : α}
    (h : n.subscript.map f = .ok v) : v = f n.find := by
  obtain ⟨get, hget, rfl⟩ := map_eq_ok.1 h
  rw [Yaml.subscript_ok hget]

theorem parseItems_reads {α : Type} {parse : Yaml → Except LoadError α} {R : (String → Option Yaml) → α → Prop}
    (hparse : ∀ n v, parse n = .ok v → R n.find v) {n : Option Yaml} {vs : List α} (h : parseItems parse n = .ok vs) :
    ReadsItems R n vs := by
  unfold parseItems at h
  split at h
  · rename_i items
    refine ⟨?_, fun hnone => absurd rfl (hnone items)⟩
    rintro _ ⟨⟩
    exact (mapM_eq_ok.1 h).imp hparse
  · rename_i hnone
    refine ⟨fun items hitems => absurd hitems (hnone items), fun _ => ?_⟩
    cases h
    rfl

theorem placeArgs_read {a : Yaml} {args : PlaceArgs} (h : parsePlaceArgs conv a = .ok args) :
    PlaceReads conv a.find args := by
  rw [subscript_map h]
  exact ⟨reads_side _, reads_quantity conv _, reads_scalar [] _, reads_tif _, reads_category _, reads_scalar [] _,
    reads_quantity conv _⟩

theorem replaceArgs_read {a : Yaml} {args : ReplaceArgs} (h : parseReplaceArgs conv a = .ok args) :
    ReplaceReads conv a.find args := by
  rw [subscript_map h]
  exact ⟨reads_scalar [] _, reads_scalar [] _, reads_quantity conv _, reads_scalar [] _, reads_category _,
    reads_quantity conv _⟩

theorem quoteEntry_read {e : Yaml} {q : QuoteEntrySpec} (h : parseQuoteEntry conv e = .ok q) :
    QuoteReads conv e.find q := by
  rw [subscript_map h]
  exact ⟨reads_scalar [] _, reads_scalar [] _, reads_quantity conv _, reads_quantity conv _⟩

theorem massQuoteArgs_read {a : Yaml} {args : MassQuoteArgs} (h : parseMassQuoteArgs conv a = .ok args) :
    MassQuoteReads conv a.find args := by
  obtain ⟨get, hget, h⟩ := bind_eq_ok.1 h
  obtain ⟨entries, hentries, h⟩ := bind_eq_ok.1 h
  cases h
  rw [Yaml.subscript_ok hget] at hentries ⊢
  exact ⟨reads_scalar [] _, reads_category _, parseItems_reads (fun _ _ => quoteEntry_read conv) hentries⟩

theorem patternEntry_read {en : Yaml} {e : BurstPlacePatternEntry} (h : parsePatternEntry conv en = .ok e) :
    PatternReads conv en.find e := by
  rw [subscript_map h]
  exact ⟨reads_side _, reads_quantity conv _, reads_scalar [] _, reads_scalar [] _, reads_tif _, reads_category _⟩

theorem burstPlaceArgs_read {a : Yaml} {args : BurstPlaceArgs} (h : parseBurstPlaceArgs conv a = .ok args) :
    BurstPlaceReads conv a.find args := by
  obtain ⟨get, hget, h⟩ := bind_eq_ok.1 h
  obtain ⟨pattern, hpattern, h⟩ := bind_eq_ok.1 h
  cases h
  rw [Yaml.subscript_ok hget] at hpattern ⊢
  exact ⟨reads_getD _ _ _, reads_getD _ _ _, parseItems_reads (fun _ _ => patternEntry_read conv) hpattern⟩

theorem fixPlaceArgs_read {a : Yaml} {args : FixPlaceArgs} (h : parseFixPlaceArgs conv a = .ok args) :
    FixPlaceReads conv a.find args := by
  rw [subscript_map h]
  exact ⟨readsFirst_two _ _, reads_side _, reads_quantity conv _, reads_scalar [] _, reads_tif _, reads_category _,
    reads_quantity conv _⟩

theorem fixCancelArgs_read {a : Yaml} {args : FixCancelArgs} (h : parseFixCancelArgs conv a = .ok args) :
    FixCancelReads conv a.find args := by
  rw [subscript_map h]
  exact ⟨readsFirst_two _ _, readsFirst_three _ _ _, reads_side _, reads_quantity conv _⟩

theorem fixReplaceArgs_read {a : Yaml} {args : FixReplaceArgs} (h : parseFixReplaceArgs conv a = .ok args) :
    FixReplaceReads conv a.find args := by
  rw [subscript_map h]
  exact ⟨readsFirst_two _ _, readsFirst_two _ _, reads_side _, reads_quantity conv _, reads_scalar [] _⟩

/-! ## Scenarios -/

theorem args_read {isFix : Bool} {action : String} {a : Yaml} {args : StepArgs}
    (h : parseArgs conv isFix action a = .ok args) : ArgsRead conv isFix action a.find args := by
  by_cases horder : action ∈ orderActions
  · simp only [orderActions, List.mem_cons, List.not_mem_nil, or_false] at horder
    rcases horder with rfl | rfl | rfl | rfl | rfl | rfl | rfl | rfl | rfl
    all_goals simp only [parseArgs, String.reduceEq, reduceIte, or_self] at h
    · cases isFix with
      | true =>
        obtain ⟨v, hv, rfl⟩ := map_eq_ok.1 h
        exact .fixPlace (.inl ⟨rfl, rfl⟩) (fixPlaceArgs_read conv hv)
      | false =>
        obtain ⟨v, hv, rfl⟩ := map_eq_ok.1 h
        exact .place ⟨rfl, rfl⟩ (placeArgs_read conv hv)
    · cases isFix with
      | true =>
        obtain ⟨v, hv, rfl⟩ := map_eq_ok.1 h
        exact .fixCancel (.inl ⟨.inl rfl, rfl⟩) (fixCancelArgs_read conv hv)
      | false =>
        obtain ⟨v, hv, rfl⟩ := map_eq_ok.1 h
        rw [subscript_map hv]
        exact .cancelByToken ⟨rfl, rfl⟩ (reads_scalar [] _)
    · cases isFix with
      | true =>
        obtain ⟨v, hv, rfl⟩ := map_eq_ok.1 h
        exact .fixCancel (.inl ⟨.inr rfl, rfl⟩) (fixCancelArgs_read conv hv)
      | false =>
        obtain ⟨v, hv, rfl⟩ := map_eq_ok.1 h
        rw [subscript_map hv]
        exact .cancelByOrderId ⟨rfl, rfl⟩ (reads_scalar [] _)
    · cases isFix with
      | true =>
        obtain ⟨v, hv, rfl⟩ := map_eq_ok.1 h
        exact .fixReplace (.inl ⟨rfl, rfl⟩) (fixReplaceArgs_read conv hv)
      | false =>
        obtain ⟨v, hv, rfl⟩ := map_eq_ok.1 h
        exact .replace ⟨rfl, rfl⟩ (replaceArgs_read conv hv)
    · obtain ⟨v, hv, rfl⟩ := map_eq_ok.1 h
      exact .massQuote rfl (massQuoteArgs_read conv hv)
    · obtain ⟨v, hv, rfl⟩ := map_eq_ok.1 h
      exact .burstPlace rfl (burstPlaceArgs_read conv hv)
    · obtain ⟨v, hv, rfl⟩ := map_eq_ok.1 h
      exact .fixPlace (.inr rfl) (fixPlaceArgs_read conv hv)
    · obtain ⟨v, hv, rfl⟩ := map_eq_ok.1 h
      exact .fixCancel (.inr rfl) (fixCancelArgs_read conv hv)
    · obtain ⟨v, hv, rfl⟩ := map_eq_ok.1 h
      exact .fixReplace (.inr rfl) (fixReplaceArgs_read conv hv)
  · exact .noOrder horder

theorem step_read {isFix : Bool} {n : Yaml} {s : Step} (h : parseStep conv isFix n = .ok s) :
    StepReads conv isFix n s := by
  obtain ⟨get, hget, h⟩ := bind_eq_ok.1 h
  obtain ⟨args, hargs, h⟩ := bind_eq_ok.1 h
  obtain ⟨expect, -, h⟩ := bind_eq_ok.1 h
  cases h
  rw [Yaml.subscript_ok hget] at hargs ⊢
  refine ⟨rfl, ?_, ?_⟩
  · intro a ha
    rw [ha] at hargs
    exact args_read conv hargs
  · intro hnone
    rw [hnone] at hargs
    cases hargs
    rfl

/-- An accepted file has a sequence of steps, each of which is accepted. -/
theorem loadScenario_steps {path : String} {root : Yaml} {s : Scenario}
    (h : loadScenario conv path (.ok root) = .ok s) :
    ∃ preconditions items, parsePreconditions conv (root.find "preconditions") = .ok preconditions ∧
      root.find "steps" = some (.seq items) ∧
      List.Forall₂ (fun n s => parseStep conv (isFixProtocol preconditions) n = .ok s) items s.steps := by
  obtain ⟨get, hget, h⟩ := bind_eq_ok.1 h
  obtain ⟨preconditions, hpre, h⟩ := bind_eq_ok.1 h
  rw [Yaml.subscript_ok hget] at hpre h
  split at h
  · rename_i items hitems
    obtain ⟨steps, hsteps, h⟩ := bind_eq_ok.1 h
    cases h
    exact ⟨preconditions, items, hpre, hitems, mapM_eq_ok.1 hsteps⟩
  · cases h

/-- In an accepted file every value of an order is read by its field: what has
a meaning gets it, and what has none leaves the default. -/
theorem load_scenario_reads {path : String} {root : Yaml} {s : Scenario}
    (h : loadScenario conv path (.ok root) = .ok s) :
    ∃ preconditions items, parsePreconditions conv (root.find "preconditions") = .ok preconditions ∧
      root.find "steps" = some (.seq items) ∧
      List.Forall₂ (StepReads conv (isFixProtocol preconditions)) items s.steps := by
  obtain ⟨preconditions, items, hpre, hitems, hsteps⟩ := loadScenario_steps conv h
  exact ⟨preconditions, items, hpre, hitems, hsteps.imp fun _ _ => step_read conv⟩

end Meaning

/-! ## Two files -/

def plainNumber (text : Bytes) : Option Nat :=
  if text ≠ [] ∧ text.all isDigit then some (readDigits 0 text) else none

/-- Conversions of short decimal numbers. -/
def plainConversions : Conversions where
  int text := (plainNumber text).map Int.ofNat
  int64 text := (plainNumber text).map Int64.ofNat
  uint32 text := (plainNumber text).map UInt32.ofNat
  uint64 text := (plainNumber text).map UInt64.ofNat
  key n := scalar (some n) []

def entry (key value : String) : Yaml × Yaml := (.scalar (ascii key), .scalar (ascii value))

/-- A file of one place. -/
def placeFile (args : List (Yaml × Yaml)) : Yaml :=
  .map [(.scalar (ascii "steps"),
    .seq [.map [entry "id" "1", entry "action" "place", (.scalar (ascii "args"), .map args)]])]

def sellFile : Yaml :=
  placeFile [entry "side" "SELL", entry "qty" "100", entry "price" "6.000", entry "tif" "IOC", entry "token" "10"]

def sellScenario : Scenario where
  steps := [{ id := 1, action := "place",
              args := .place { side := .sell, quantity := 100, priceStr := ascii "6.000", tif := .immediateOrCancel,
                               token := ascii "10" } }]

theorem load_scenario_reads_sellFile :
    ∃ preconditions items, parsePreconditions plainConversions (sellFile.find "preconditions") = .ok preconditions ∧
      sellFile.find "steps" = some (.seq items) ∧
      List.Forall₂ (StepReads plainConversions (isFixProtocol preconditions)) items sellScenario.steps := by
  have h : loadScenario plainConversions "sell.yaml" (.ok sellFile) = .ok sellScenario := rfl
  exact load_scenario_reads plainConversions h

/-- Other spellings, a quantity in words, and a time in force that is not there. -/
def misspelledFile : Yaml :=
  placeFile [entry "side" "Sell", entry "qty" "ten", entry "price" "6.000", entry "tif" "GTC", entry "token" "10"]

/-- It is accepted as a day order to buy nothing. -/
theorem misspelled_accepted : ∃ s, loadScenario plainConversions "sell.yaml" (.ok misspelledFile) = .ok s ∧
    s.steps.map Step.args = [.place { side := .buy, quantity := 0, priceStr := ascii "6.000", tif := .day,
                                      token := ascii "10" }] :=
  ⟨_, rfl, rfl⟩

end BistColo.Runner
