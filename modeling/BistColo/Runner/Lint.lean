import BistColo.Runner.Events
import BistColo.Runner.Loader
/-!
# The scenario linter

`lint_one` of `apps/tools/scenario_lint.cpp`, on the tree that the loader reads
too. A check gives its verdict and the issues that it adds; the ids and the
tokens seen so far go from one step to the next. `lintSteps_clean` says what it
means for the tokens of a file that there is no issue.
-/

open StreamKit

namespace BistColo.Runner

namespace ScenarioLint

/-! ## Tables -/

def validProtocols : List String := ["ouch", "fix_oe", "fix_rd", "drop_copy"]

def ouchActions : List String :=
  ["ouch_login", "ouch_logout", "wait_heartbeat", "expect", "place", "cancel_by_token", "cancel_by_order_id", "replace",
    "mass_quote", "switch_gateway", "burst_place", "trigger_opening_match", "inactivate_all"]

def fixActions : List String :=
  ["fix_logon", "fix_logout", "fix_amr_subscribe", "fix_amr", "fix_wait_heartbeat", "wait_heartbeat", "fix_place",
    "fix_cancel", "fix_replace", "fix_trade_report", "expect", "trigger_match", "trigger_opening_match", "place",
    "cancel_by_token", "cancel_by_order_id", "replace"]

def ouchEventTypes : List String :=
  ["any", "order_accepted", "order_rejected", "order_replaced", "order_canceled", "order_executed", "mass_quote_ack",
    "mass_quote_rejection", "login_accepted", "login_rejected", "socket_closed", "server_heartbeat"]

def fixEventTypes : List String :=
  ["any", "fix_logon_response", "fix_logout_complete", "fix_execution_report", "fix_cancel_reject", "fix_trade_report",
    "fix_amr_ack", "fix_session_status", "server_heartbeat"]

def ouchFieldKeys : List String :=
  ["token", "order_book_id", "side", "order_id", "quantity", "leaves_quantity", "traded_quantity", "price",
    "time_in_force", "open_close", "order_state", "pre_trade_quantity", "display_quantity", "client_category",
    "off_hours", "smp_level", "smp_method", "smp_id", "reject_code", "reason", "cancel_reason_name", "quote_status",
    "trade_price", "previous_token", "previous_order_token", "replacement_token", "replacement_order_token", "session",
    "next_sequence", "sequence", "reason_code"]

def fixFieldKeys : List String :=
  ["MsgType", "ClOrdID", "OrigClOrdID", "OrderID", "ExecType", "OrdStatus", "OrdRejReason", "CxlRejReason", "Symbol",
    "Side", "OrderQty", "LeavesQty", "CumQty", "Price", "LastPx", "LastQty", "SessionStatus", "ApplReqID",
    "ApplResponseType", "session_status", "appl_response_type", "appl_req_id", "ok", "detail", "trd_type", "TrdType",
    "trade_type"]

/-- The table of the protocol. -/
def allowed (protocol : String) (ouch fix : List String) : List String := if protocol = "ouch" then ouch else fix

/-! ## Issues -/

structure LintIssue where
  file : String
  location : String
  message : String
deriving DecidableEq

/-- The verdict of a check, and the issues that it adds. -/
structure Finding where
  ok : Bool := true
  issues : List LintIssue := []

def Finding.and (f g : Finding) : Finding := ⟨f.ok && g.ok, f.issues ++ g.issues⟩

def refuse (file location message : String) : Finding := ⟨false, [⟨file, location, message⟩]⟩

/-- An issue that leaves the verdict alone. -/
def remark (file location message : String) : Finding := ⟨true, [⟨file, location, message⟩]⟩

/-- The value of a key, if it is a scalar. -/
def scalarAt (n : Yaml) (key : String) : Option Bytes :=
  match n.find key with
  | some (.scalar value) => some value
  | _ => none

def stepAt (idx : Nat) : String := "steps[" ++ text (toString idx) ++ "]"

/-! ## Tokens -/

def actionProducesToken (action : String) : Bool :=
  action = "place" || action = "fix_place" || action = "mass_quote" || action = "burst_place"

def actionProducesNewTokenViaReplace (action : String) : Bool := action = "replace" || action = "fix_replace"

def lengthCheckKeys : List String := ["token", "cl_ord_id", "new_token", "existing_token", "orig_cl_ord_id"]

def producerKeys (action : String) : List String :=
  if actionProducesToken action then ["token", "cl_ord_id"]
  else if actionProducesNewTokenViaReplace action then ["new_token", "cl_ord_id"]
  else []

/-- The index of the step that used a token last. -/
abbrev TokenSeen := Bytes → Option Nat

section Step

variable (file : String) (idx : Nat)

def checkLength (args : Yaml) (key : String) : List LintIssue :=
  match scalarAt args key with
  | some tok =>
    if 14 < tok.length then
      [⟨file, stepAt idx ++ ".args." ++ key, "token '" ++ text tok ++ "' exceeds Alpha(14)"⟩]
    else []
  | none => []

def checkDuplicate (args : Yaml) (expectsReject : Bool) (seen : TokenSeen) (key : String) : List LintIssue × TokenSeen :=
  match scalarAt args key with
  | none => ([], seen)
  | some tok =>
    if tok = [] then ([], seen)
    else
      match seen tok, expectsReject with
      | some first, false =>
        ([⟨file, stepAt idx ++ ".args." ++ key,
          "token '" ++ text tok ++ "' already used at step index " ++ text (toString first) ++
            " (add expect: order_rejected if duplicate is intentional)"⟩], seen)
      | _, _ => ([], Function.update seen tok (some idx))

def checkDuplicates (args : Yaml) (expectsReject : Bool) : List String → TokenSeen → List LintIssue × TokenSeen
  | [], seen => ([], seen)
  | key :: keys, seen =>
    let first := checkDuplicate file idx args expectsReject seen key
    let others := checkDuplicates args expectsReject keys first.2
    (first.1 ++ others.1, others.2)

def checkStepToken (action : String) (args : Yaml) (expectsReject : Bool) (seen : TokenSeen) :
    List LintIssue × TokenSeen :=
  let duplicates := checkDuplicates file idx args expectsReject (producerKeys action) seen
  (lengthCheckKeys.flatMap (checkLength file idx args) ++ duplicates.1, duplicates.2)

/-! ## Steps -/

/-- What the checks of the steps carry from one to the next. -/
structure Linter where
  lastId : Int := -1
  seenIds : List Int := []
  tokenSeen : TokenSeen := fun _ => none

variable (conv : Conversions) (protocol : String)

/-- A negative id is not looked at any further. -/
def checkId (step : Yaml) (l : Linter) : Finding × Linter :=
  match scalarAt step "id" with
  | none => (refuse file (stepAt idx) "missing or non-scalar 'id'", l)
  | some value =>
    match conv.int value with
    | none => (refuse file (stepAt idx ++ ".id") "must be integer", l)
    | some sid =>
      if 0 ≤ sid then
        let twice := if sid ∈ l.seenIds then
          refuse file (stepAt idx ++ ".id") ("duplicate step id " ++ text (toString sid)) else {}
        let order := if sid ≤ l.lastId then
          remark file (stepAt idx ++ ".id")
            ("step id " ++ text (toString sid) ++ " not greater than previous " ++ text (toString l.lastId)) else {}
        (twice.and order, { l with lastId := sid, seenIds := sid :: l.seenIds })
      else ({}, l)

/-- The action of a step, which is empty if there is none. -/
def actionOf (step : Yaml) : String := text (scalar (step.find "action") [])

def checkAction (step : Yaml) : Finding :=
  match scalarAt step "action" with
  | none => refuse file (stepAt idx) "missing or non-scalar 'action'"
  | some _ =>
    if actionOf step ∈ allowed protocol ouchActions fixActions then {}
    else refuse file (stepAt idx ++ ".action")
      ("action '" ++ actionOf step ++ "' not in " ++ protocol ++ " allow-list")

def checkFields : Option Yaml → Except LoadError Finding
  | some (.map entries) => entries.foldlM (fun found kv =>
      match conv.key kv.1 with
      | none => .error .badConversion
      | some key =>
        if text key ∈ allowed protocol ouchFieldKeys fixFieldKeys then .ok found
        else .ok (found.and (refuse file (stepAt idx ++ ".expect.fields")
          ("field key '" ++ text key ++ "' not in " ++ protocol ++ " known field set")))) {}
  | _ => .ok {}

/-- The event type that a step expects, which is empty if there is none. -/
def expectMsg (step : Yaml) : String :=
  match step.find "expect" with
  | some (.scalar msg) => text msg
  | some (.map entries) => text (scalar ((Yaml.map entries).find "msg") [])
  | _ => ""

def checkMsg (msg : String) : Finding :=
  if msg = "" ∨ msg ∈ allowed protocol ouchEventTypes fixEventTypes then {}
  else refuse file (stepAt idx ++ ".expect.msg")
    ("event type '" ++ msg ++ "' not in " ++ protocol ++ " known event set")

def checkExpect (step : Yaml) : Except LoadError Finding :=
  match step.find "expect" with
  | none => .ok {}
  | some (.scalar _) => .ok (checkMsg file idx protocol (expectMsg step))
  | some (.map entries) =>
    let missing := match (Yaml.map entries).find "msg" with
      | none => refuse file (stepAt idx ++ ".expect") "map form requires a 'msg' key"
      | some _ => {}
    (checkFields file idx conv protocol ((Yaml.map entries).find "fields")).map fun unknown =>
      (missing.and unknown).and (checkMsg file idx protocol (expectMsg step))
  | some _ => .ok (refuse file (stepAt idx ++ ".expect") "must be scalar shorthand or map")

def rejects (step : Yaml) : Bool := expectMsg step = "order_rejected" || expectMsg step = "fix_cancel_reject"

def checkTokens (step : Yaml) (seen : TokenSeen) : List LintIssue × TokenSeen :=
  match step.find "args" with
  | some (.map entries) => checkStepToken file idx (actionOf step) (.map entries) (rejects step) seen
  | _ => ([], seen)

def checkStep (step : Yaml) (l : Linter) : Except LoadError (Finding × Linter) :=
  let id := checkId file idx conv step l
  (checkExpect file idx conv protocol step).map fun exp =>
    let tokens := checkTokens file idx step id.2.tokenSeen
    (((id.1.and (checkAction file idx protocol step)).and exp).and { issues := tokens.1 },
      { id.2 with tokenSeen := tokens.2 })

end Step

/-! ## The file -/

section File

variable (conv : Conversions) (file : String)

def lintSteps (protocol : String) : Nat → List Yaml → Linter → Except LoadError (List LintIssue)
  | _, [], _ => .ok []
  | idx, step :: steps, l =>
    match step with
    | .map entries => do
      let (found, l) ← checkStep file idx conv protocol (.map entries) l
      (lintSteps protocol (idx + 1) steps l).map (found.issues ++ ·)
    | _ => (lintSteps protocol (idx + 1) steps l).map (⟨file, stepAt idx, "must be a map"⟩ :: ·)

/-- The protocol of a file, which is OUCH if it names none. -/
def protocolOf (preconditions : Option Yaml) : String :=
  match preconditions with
  | some (.map entries) =>
    match scalarAt (.map entries) "protocol" with
    | some protocol => text protocol
    | none => "ouch"
  | _ => "ouch"

def checkPreconditions (preconditions : Option Yaml) : List LintIssue :=
  match preconditions with
  | some (.map entries) =>
    match scalarAt (.map entries) "protocol" with
    | some protocol =>
      if text protocol ∈ validProtocols then []
      else [⟨file, "preconditions.protocol",
        "protocol '" ++ text protocol ++ "' not in \x7bouch, fix_oe, " ++ "fix_rd, drop_copy\x7d"⟩]
    | none => [⟨file, "preconditions", "missing required 'protocol' key"⟩]
  | _ => [⟨file, "(root)", "missing 'preconditions' map (must declare protocol)"⟩]

def checkName (name : Option Yaml) : List LintIssue :=
  match name with
  | some (.scalar _) => []
  | _ => [⟨file, "(root)", "missing or non-scalar 'name'"⟩]

def checkMockSkip (mockSkip : Option Yaml) : List LintIssue :=
  match mockSkip with
  | none | some (.scalar _) => []
  | some _ => [⟨file, "mock_skip", "must be boolean"⟩]

def lintOne (tree : Except String Yaml) : Except LoadError Finding :=
  match tree with
  | .error what => .ok (refuse file "(parse)" what)
  | .ok root => do
    let get ← root.subscript
    let head := checkName file (get "name") ++ checkPreconditions file (get "preconditions") ++
      checkMockSkip file (get "mock_skip")
    match get "steps" with
    | some (.seq items) =>
      let issues ← lintSteps conv file (protocolOf (get "preconditions")) 0 items {}
      pure ⟨true, head ++ issues⟩
    | _ => pure ⟨false, head ++ [⟨file, "(root)", "missing or non-sequence 'steps'"⟩]⟩

end File

/-! ## A file without issues -/

/-- The new tokens that the linter sees in a step. -/
def produced (step : Yaml) : List Bytes :=
  match step.find "args" with
  | some (.map entries) => (producerKeys (actionOf step)).filterMap (scalarAt (.map entries))
  | _ => []

section Clean

variable {file : String} {idx : Nat}

theorem checkDuplicate_keeps {args : Yaml} {expectsReject : Bool} {seen : TokenSeen} {t : Bytes} (h : seen t ≠ none)
    (key : String) : (checkDuplicate file idx args expectsReject seen key).2 t ≠ none := by
  unfold checkDuplicate
  split
  · exact h
  · rename_i tok _
    split
    · exact h
    · split
      · exact h
      · dsimp only
        rw [Function.update_apply]
        split
        · apply Option.some_ne_none
        · exact h

theorem checkDuplicate_clean {args : Yaml} {expectsReject : Bool} {seen : TokenSeen} {key : String} {t : Bytes}
    (h : (checkDuplicate file idx args expectsReject seen key).1 = []) (ht : scalarAt args key = some t) (hne : t ≠ []) :
    (expectsReject = false → seen t = none) ∧ (checkDuplicate file idx args expectsReject seen key).2 t ≠ none := by
  unfold checkDuplicate at h ⊢
  rw [ht] at h ⊢
  dsimp only at h ⊢
  rw [if_neg hne] at h ⊢
  split at h
  · cases h
  · rename_i hnone
    refine ⟨?_, ?_⟩
    · intro hexp
      cases hseen : seen t with
      | none => rfl
      | some first => exact absurd hexp (hnone first hseen)
    · dsimp only
      rw [Function.update_self]
      apply Option.some_ne_none

theorem checkDuplicates_keeps {args : Yaml} {expectsReject : Bool} {t : Bytes} (keys : List String) {seen : TokenSeen}
    (h : seen t ≠ none) : (checkDuplicates file idx args expectsReject keys seen).2 t ≠ none := by
  induction keys generalizing seen with
  | nil => exact h
  | cons key keys ih => exact ih (checkDuplicate_keeps h key)

theorem checkDuplicates_clean {args : Yaml} {expectsReject : Bool} {keys : List String} {seen : TokenSeen} {t : Bytes}
    (h : (checkDuplicates file idx args expectsReject keys seen).1 = []) (ht : t ∈ keys.filterMap (scalarAt args))
    (hne : t ≠ []) :
    (expectsReject = false → seen t = none) ∧ (checkDuplicates file idx args expectsReject keys seen).2 t ≠ none := by
  induction keys generalizing seen with
  | nil => cases ht
  | cons key keys ih =>
    obtain ⟨hfirst, hothers⟩ := List.append_eq_nil_iff.1 h
    rw [List.mem_filterMap] at ht
    obtain ⟨key', hkey', ht⟩ := ht
    rcases List.mem_cons.1 hkey' with rfl | hmem
    · obtain ⟨hnew, hknown⟩ := checkDuplicate_clean hfirst ht hne
      exact ⟨hnew, checkDuplicates_keeps keys hknown⟩
    · obtain ⟨hnew, hknown⟩ := ih hothers (List.mem_filterMap.2 ⟨key', hmem, ht⟩)
      refine ⟨?_, hknown⟩
      intro hexp
      by_contra hseen
      exact checkDuplicate_keeps hseen key (hnew hexp)

theorem checkTokens_keeps {seen : TokenSeen} {t : Bytes} (h : seen t ≠ none) (step : Yaml) :
    (checkTokens file idx step seen).2 t ≠ none := by
  unfold checkTokens
  split
  · exact checkDuplicates_keeps _ h
  · exact h

theorem checkTokens_clean {step : Yaml} {seen : TokenSeen} {t : Bytes} (h : (checkTokens file idx step seen).1 = [])
    (ht : t ∈ produced step) (hne : t ≠ []) :
    (rejects step = false → seen t = none) ∧ (checkTokens file idx step seen).2 t ≠ none := by
  unfold checkTokens at h ⊢
  unfold produced at ht
  split at h
  · rename_i entries hargs
    rw [hargs] at ht
    exact checkDuplicates_clean (List.append_eq_nil_iff.1 h).2 ht hne
  · rename_i hno
    split at ht
    · rename_i entries hargs
      exact absurd hargs (hno entries)
    · cases ht

variable {conv : Conversions} {protocol : String}

theorem checkId_tokenSeen (step : Yaml) (l : Linter) : (checkId file idx conv step l).2.tokenSeen = l.tokenSeen := by
  unfold checkId
  split
  · rfl
  · split
    · rfl
    · split
      · rfl
      · rfl

/-- The step expects nothing, or an event that the protocol has. -/
def Expectable (protocol : String) (step : Yaml) : Prop :=
  expectMsg step = "" ∨ expectMsg step ∈ allowed protocol ouchEventTypes fixEventTypes

theorem checkMsg_clean {msg : String} (h : (checkMsg file idx protocol msg).issues = []) :
    msg = "" ∨ msg ∈ allowed protocol ouchEventTypes fixEventTypes := by
  unfold checkMsg at h
  split at h
  · assumption
  · cases h

theorem checkExpect_clean {step : Yaml} {exp : Finding} (h : checkExpect file idx conv protocol step = .ok exp)
    (hclean : exp.issues = []) : Expectable protocol step := by
  unfold checkExpect at h
  split at h
  · rename_i hnone
    refine .inl ?_
    rw [expectMsg, hnone]
  · cases h
    exact checkMsg_clean hclean
  · obtain ⟨unknown, -, rfl⟩ := map_eq_ok.1 h
    exact checkMsg_clean (List.append_eq_nil_iff.1 hclean).2
  · cases h
    cases hclean

theorem checkStep_clean {step : Yaml} {l l' : Linter} {found : Finding}
    (h : checkStep file idx conv protocol step l = .ok (found, l')) (hclean : found.issues = []) :
    Expectable protocol step ∧ (checkTokens file idx step l.tokenSeen).1 = [] ∧
      l'.tokenSeen = (checkTokens file idx step l.tokenSeen).2 := by
  obtain ⟨exp, hexp, heq⟩ := map_eq_ok.1 h
  cases heq
  rw [checkId_tokenSeen] at hclean ⊢
  obtain ⟨hothers, htokens⟩ := List.append_eq_nil_iff.1 hclean
  exact ⟨checkExpect_clean hexp (List.append_eq_nil_iff.1 hothers).2, htokens, rfl⟩

/-- A step that expects no reject produces no token of the other step. -/
def Fresh (n m : Yaml) : Prop := rejects m = false → ∀ t ∈ produced m, t ≠ [] → t ∉ produced n

/-- Without an issue, a step that expects no reject produces no token that was
seen before it. -/
theorem lintSteps_clean {idx : Nat} {items : List Yaml} {l : Linter}
    (h : lintSteps conv file protocol idx items l = .ok []) :
    (∀ n ∈ items, Expectable protocol n ∧
      (rejects n = false → ∀ t ∈ produced n, t ≠ [] → l.tokenSeen t = none)) ∧ items.Pairwise Fresh := by
  induction items generalizing idx l with
  | nil => exact ⟨nofun, .nil⟩
  | cons step steps ih =>
    rw [lintSteps.eq_def] at h
    dsimp only at h
    split at h
    · rename_i entries
      obtain ⟨⟨found, l'⟩, hstep, h⟩ := bind_eq_ok.1 h
      obtain ⟨issues, hrest, hnil⟩ := map_eq_ok.1 h
      obtain ⟨hfound, rfl⟩ := List.append_eq_nil_iff.1 hnil
      obtain ⟨hexp, htokens, hseen⟩ := checkStep_clean hstep hfound
      obtain ⟨hlater, hpair⟩ := ih hrest
      refine ⟨?_, List.pairwise_cons.2 ⟨?_, hpair⟩⟩
      · intro n hn
        rcases List.mem_cons.1 hn with rfl | hn
        · exact ⟨hexp, fun hrej t ht hne => (checkTokens_clean htokens ht hne).1 hrej⟩
        · refine ⟨(hlater n hn).1, ?_⟩
          intro hrej t ht hne
          by_contra hknown
          have hstill : (checkTokens file idx (.map entries) l.tokenSeen).2 t ≠ none := checkTokens_keeps hknown _
          rw [← hseen] at hstill
          exact hstill ((hlater n hn).2 hrej t ht hne)
      · intro m hm hrej t ht hne htwice
        have hknown := (checkTokens_clean htokens htwice hne).2
        rw [← hseen] at hknown
        exact hknown ((hlater m hm).2 hrej t ht hne)
    · obtain ⟨issues, -, hnil⟩ := map_eq_ok.1 h
      cases hnil

theorem lintOne_clean {root : Yaml} {ok : Bool} (h : lintOne conv file (.ok root) = .ok ⟨ok, []⟩) :
    ∃ items, root.find "steps" = some (.seq items) ∧
      lintSteps conv file (protocolOf (root.find "preconditions")) 0 items {} = .ok [] := by
  obtain ⟨get, hget, h⟩ := bind_eq_ok.1 h
  rw [Yaml.subscript_ok hget] at h
  split at h
  · rename_i items hitems
    obtain ⟨issues, hissues, h⟩ := bind_eq_ok.1 h
    have hclean : _ ++ issues = [] := congrArg Finding.issues (Except.ok.inj h)
    rw [(List.append_eq_nil_iff.1 hclean).2] at hissues
    exact ⟨items, hitems, hissues⟩
  · have hclean := congrArg Finding.issues (Except.ok.inj h)
    cases (List.append_eq_nil_iff.1 hclean).2

end Clean

end ScenarioLint

end BistColo.Runner
