import BistColo.Runner.Evidence
import BistColo.StreamKit.Runs
/-!
# Chains of FIX requests

A cancel or replace that names no symbol takes it from the index, by the id of
the request that it refers to. Over any run of steps the index has what the
latest request of the chain carried: symbol and side of the last one that named
a symbol, and the quantity of the last one (`latest_kept`). A replace that names
another symbol therefore changes the instrument of the chain (`instrument_changes`).
-/

open StreamKit

namespace BistColo.Runner

/-! ## Requests -/

inductive FixRequest
  | place (a : FixPlaceArgs)
  | cancel (a : FixCancelArgs)
  | replace (a : FixReplaceArgs)
deriving DecidableEq

namespace FixRequest

def clOrdId : FixRequest → Bytes
  | place a => a.clOrdId
  | cancel a => a.clOrdId
  | replace a => a.clOrdId

/-- The request that a request refers to. -/
def origClOrdId : FixRequest → Bytes
  | place _ => []
  | cancel a => a.origClOrdId
  | replace a => a.origClOrdId

end FixRequest

namespace FixScenarioRunner

/-- What an id stands for, where `qs` are the requests so far, the latest first. -/
inductive Carries : List FixRequest → Bytes → TokenInfo → Prop
  | placed {qs : List FixRequest} {a : FixPlaceArgs} : Carries (.place a :: qs) a.clOrdId ⟨a.symbol, a.side, a.quantity⟩
  | replaced {qs : List FixRequest} {a : FixReplaceArgs} {info : TokenInfo} (h : Carries qs a.origClOrdId info)
      (homitted : a.symbol = []) : Carries (.replace a :: qs) a.clOrdId ⟨info.symbol, info.side, a.newQuantity⟩
  | renamed {qs : List FixRequest} {a : FixReplaceArgs} {info : TokenInfo} (h : Carries qs a.origClOrdId info)
      (hnamed : a.symbol ≠ []) : Carries (.replace a :: qs) a.clOrdId ⟨a.symbol, a.side, a.newQuantity⟩
  | later {qs : List FixRequest} {q : FixRequest} {id : Bytes} {info : TokenInfo} (h : Carries qs id info) :
      Carries (q :: qs) id info

theorem Carries.known {qs : List FixRequest} {id : Bytes} {info : TokenInfo} (h : Carries qs id info) :
    ∃ q ∈ qs, q.clOrdId = id := by
  induction h with
  | placed => exact ⟨_, List.mem_cons_self, rfl⟩
  | replaced => exact ⟨_, List.mem_cons_self, rfl⟩
  | renamed => exact ⟨_, List.mem_cons_self, rfl⟩
  | later h ih =>
    obtain ⟨q, hq, hid⟩ := ih
    exact ⟨q, List.mem_cons_of_mem _ hq, hid⟩

/-- The order that a chain of replaces goes back to, with the quantity of the latest request. -/
inductive Descends : List FixRequest → Bytes → TokenInfo → Prop
  | placed {qs : List FixRequest} {a : FixPlaceArgs} : Descends (.place a :: qs) a.clOrdId ⟨a.symbol, a.side, a.quantity⟩
  | replaced {qs : List FixRequest} {a : FixReplaceArgs} {info : TokenInfo} (h : Descends qs a.origClOrdId info) :
      Descends (.replace a :: qs) a.clOrdId ⟨info.symbol, info.side, a.newQuantity⟩
  | later {qs : List FixRequest} {q : FixRequest} {id : Bytes} {info : TokenInfo} (h : Descends qs id info) :
      Descends (q :: qs) id info

/-- A call for a request that omits the symbol has the symbol and the side of
`info`, and for a cancel without a quantity that of `info`. -/
def Resolved (info : TokenInfo) : FixRequest → Fix.Call → Prop
  | .cancel a, .cancel ca => a.symbol = [] → ca.symbol = info.symbol ∧ ca.side = info.side ∧
      (a.quantity = 0 → ca.quantity = info.quantity)
  | .replace a, .replace ra => a.symbol = [] → ra.symbol = info.symbol ∧ ra.side = info.side
  | _, _ => True

/-- The request that a step makes, by its action. -/
def requestOf (s : Step) : Option FixRequest :=
  if s.action = "fix_place" ∨ s.action = "place" then some (.place (match s.args with | .fixPlace a => a | _ => {}))
  else if s.action = "fix_cancel" ∨ s.action = "cancel_by_token" ∨ s.action = "cancel_by_order_id" then
    some (.cancel (match s.args with | .fixCancel a => a | _ => {}))
  else if s.action = "fix_replace" ∨ s.action = "replace" then
    some (.replace (match s.args with | .fixReplace a => a | _ => {}))
  else none

/-- The call of the OE client for a request, as `act_request` has it. -/
def asks (r : FixScenarioRunner) : FixRequest → Fix.Call
  | .place a => .place (placeArgs a)
  | .cancel a => .cancel (r.cancelArgs a)
  | .replace a => .replace (r.replaceArgs a)

/-- What the index is to have for a request. -/
def enters (r : FixScenarioRunner) : FixRequest → TokenInfo
  | .place a => ⟨a.symbol, a.side, a.quantity⟩
  | .cancel a => ⟨(r.cancelArgs a).symbol, (r.cancelArgs a).side, (r.cancelArgs a).quantity⟩
  | .replace a => ⟨(r.replaceArgs a).symbol, (r.replaceArgs a).side, (r.replaceArgs a).newQuantity⟩

/-- The runner behind a step. -/
def after (sc : Scenario) (r : FixScenarioRunner) (s : Step) : FixScenarioRunner := (runStep sc r s).2

/-! ## One step -/

theorem cancelArgs_clOrdId (r : FixScenarioRunner) (a : FixCancelArgs) : (r.cancelArgs a).clOrdId = a.clOrdId := by
  unfold cancelArgs
  split <;> rfl

theorem act_place {s : Step} (h : s.action = "fix_place" ∨ s.action = "place") (r : FixScenarioRunner) :
    r.act s = r.runPlace s (match s.args with | .fixPlace a => a | _ => {}) := by
  obtain ⟨id, action, args, expect⟩ := s
  obtain rfl | rfl := h
  all_goals rfl

theorem act_cancel {s : Step} (h : s.action = "fix_cancel" ∨ s.action = "cancel_by_token" ∨ s.action = "cancel_by_order_id")
    (r : FixScenarioRunner) : r.act s = r.runCancel s (match s.args with | .fixCancel a => a | _ => {}) := by
  obtain ⟨id, action, args, expect⟩ := s
  obtain rfl | rfl | rfl := h
  all_goals rfl

theorem act_replace {s : Step} (h : s.action = "fix_replace" ∨ s.action = "replace") (r : FixScenarioRunner) :
    r.act s = r.runReplace s (match s.args with | .fixReplace a => a | _ => {}) := by
  obtain ⟨id, action, args, expect⟩ := s
  obtain rfl | rfl := h
  all_goals rfl

/-- A step with a request is that request. -/
theorem act_request {s : Step} {q : FixRequest} (h : requestOf s = some q) (r : FixScenarioRunner) :
    r.act s = r.request s (r.asks q) q.clOrdId (r.enters q) := by
  unfold requestOf at h
  split at h
  · rename_i hplace
    cases h
    exact act_place hplace r
  · split at h
    · rename_i hcancel
      cases h
      have hid := r.cancelArgs_clOrdId (match s.args with | .fixCancel a => a | _ => {})
      simp only [act_cancel hcancel, runCancel, hid]
      rfl
    · split at h
      · rename_i hreplace
        cases h
        exact act_replace hreplace r
      · cases h

/-- A request that goes through is indexed. -/
theorem request_passed {r : FixScenarioRunner} {s : Step} {q : Fix.Call} {id : Bytes} {info : TokenInfo}
    (h : (r.request s q id info).1.passed = true) (hid : id ≠ []) :
    (r.request s q id info).2.tokenIndex = Function.update r.tokenIndex id (some info) := by
  unfold request at h ⊢
  split
  · rename_i hoe
    rw [if_pos hoe] at h
    cases hanswer : r.call q with
    | mk result r' =>
      have hindex : r'.tokenIndex = r.tokenIndex := by
        rw [call] at hanswer
        cases hanswer
        rfl
      rw [hanswer] at h
      cases result with
      | error e => cases h
      | ok u =>
        dsimp only
        rw [index, if_neg hid, hindex]
  · rename_i hnone
    rw [if_neg hnone] at h
    cases h

/-! ## What leaves the index alone -/

/-- A step without a request. -/
theorem index_act {s : Step} (h : requestOf s = none) (r : FixScenarioRunner) : (r.act s).2.tokenIndex = r.tokenIndex := by
  unfold requestOf at h
  split at h
  · cases h
  · rename_i hplace
    split at h
    · cases h
    · rename_i hcancel
      split at h
      · cases h
      · rename_i hreplace
        unfold act
        split
        · exact (r.onlyAsked_runLogon s).index
        · exact (((r.onlyAsked_logout .oe).trans (onlyAsked_logout _ .rd)).trans (onlyAsked_logout _ .dc)).index
        · exact (r.onlyAsked_runAmr s _).index
        · exact (r.onlyAsked_runAmr s _).index
        · rfl
        · rfl
        · exact absurd (.inl ‹_›) hplace
        · exact absurd (.inr ‹_›) hplace
        · exact absurd (.inl ‹_›) hcancel
        · exact absurd (.inr (.inl ‹_›)) hcancel
        · exact absurd (.inr (.inr ‹_›)) hcancel
        · exact absurd (.inl ‹_›) hreplace
        · exact absurd (.inr ‹_›) hreplace
        all_goals rfl

theorem index_deliver (r : FixScenarioRunner) : r.deliver.tokenIndex = r.tokenIndex := by
  unfold deliver
  split <;> rfl

theorem index_waitForEvent (r : FixScenarioRunner) : r.waitForEvent.2.tokenIndex = r.tokenIndex := by
  unfold waitForEvent
  dsimp only
  split
  all_goals exact r.index_deliver

theorem index_matchEvents (exp : Expect) (left needed : Nat) (r : FixScenarioRunner) :
    (matchEvents exp left needed r).2.tokenIndex = r.tokenIndex := by
  induction left generalizing needed r with
  | zero =>
    cases needed with
    | zero => rfl
    | succ needed => exact r.index_deliver
  | succ left ih =>
    cases needed with
    | zero => rfl
    | succ needed =>
      have hwait := r.index_waitForEvent
      unfold matchEvents
      split
      · rename_i he
        rwa [he] at hwait
      · rename_i r' he
        rw [he] at hwait
        exact (ih _ r').trans hwait

theorem index_awaitLogout (looks : Nat) (r : FixScenarioRunner) : (awaitLogout looks r).2.tokenIndex = r.tokenIndex := by
  induction looks generalizing r with
  | zero => rfl
  | succ looks ih =>
    have hask := r.onlyAsked_anyActive.index
    unfold awaitLogout
    split
    · rename_i r' he
      rw [he] at hask
      exact r'.index_deliver.trans hask
    · rename_i r' he
      rw [he] at hask
      exact (ih r').trans hask

theorem index_matchExpectation (r : FixScenarioRunner) (exp : Expect) (timeoutMs : Int) :
    (r.matchExpectation exp timeoutMs).2.tokenIndex = r.tokenIndex := by
  unfold matchExpectation
  split
  · rfl
  · exact index_awaitLogout _ _
  · exact index_matchEvents exp _ _ r

/-- Expectations leave the index alone. -/
theorem index_after (sc : Scenario) (r : FixScenarioRunner) (s : Step) :
    (after sc r s).tokenIndex = (r.act s).2.tokenIndex := by
  unfold after runStep judge
  split
  · rfl
  · rename_i exp _
    split
    · have hmatch := (r.act s).2.index_matchExpectation exp (timeout sc exp)
      split
      · rename_i he
        rwa [he] at hmatch
      · rename_i he
        rwa [he] at hmatch
    · rfl

/-! ## Runs -/

/-- The requests of steps, the latest first. -/
def requests (steps : List Step) : List FixRequest := (steps.filterMap requestOf).reverse

/-- Each request has an id of its own. -/
structure DistinctIds (steps : List Step) : Prop where
  given : ∀ q ∈ requests steps, q.clOrdId ≠ []
  distinct : ((requests steps).map FixRequest.clOrdId).Nodup

/-- Every request goes through. -/
def SendsSucceed (sc : Scenario) (r : FixScenarioRunner) : Prop :=
  AllAlong (after sc) (fun r s => requestOf s ≠ none → (r.act s).1.passed = true) r sc.steps

/-- A request is resolved with what `R` says of the id that it refers to. -/
def Keeps (R : List FixRequest → Bytes → TokenInfo → Prop) (sc : Scenario) (r : FixScenarioRunner) : Prop :=
  ∀ done s rest q info, sc.steps = done ++ s :: rest → requestOf s = some q →
    R (requests done) q.origClOrdId info → Resolved info q ((StreamKit.run (after sc) r done).asks q)

/-- Where a scenario leaves the runner. -/
theorem run_after (sc : Scenario) (steps : List Step) (r : FixScenarioRunner) :
    (runSteps sc steps r).2 = StreamKit.run (after sc) r steps := by
  induction steps generalizing r with
  | nil => rfl
  | cons s steps ih => exact ih (after sc r s)

theorem requests_append (done rest : List Step) : requests (done ++ rest) = requests rest ++ requests done := by
  simp [requests]

theorem DistinctIds.of_append {done rest : List Step} (h : DistinctIds (done ++ rest)) : DistinctIds done := by
  obtain ⟨hgiven, hdistinct⟩ := h
  rw [requests_append] at hgiven hdistinct
  rw [List.map_append] at hdistinct
  exact ⟨fun q hq => hgiven q (List.mem_append_right _ hq), (List.nodup_append.1 hdistinct).2.1⟩

/-- The index knows what every id stands for. -/
def Indexed (qs : List FixRequest) (r : FixScenarioRunner) : Prop :=
  ∀ id info, Carries qs id info → r.tokenIndex id = some info

section Step

variable {qs : List FixRequest} {r : FixScenarioRunner} {id : Bytes} {info : TokenInfo}

theorem resolve_omitted (hindexed : Indexed qs r) (hgiven : ∀ q ∈ qs, q.clOrdId ≠ []) (h : Carries qs id info) :
    r.resolve [] id = some info := by
  obtain ⟨q, hq, rfl⟩ := h.known
  rw [resolve, if_pos ⟨rfl, hgiven q hq⟩]
  exact hindexed _ _ h

theorem resolve_named {symbol : Bytes} (h : symbol ≠ []) : r.resolve symbol id = none :=
  if_neg fun hboth => h hboth.1

theorem resolved_asks {q : FixRequest} (hindexed : Indexed qs r) (hgiven : ∀ q ∈ qs, q.clOrdId ≠ [])
    (h : Carries qs q.origClOrdId info) : Resolved info q (r.asks q) := by
  cases q with
  | place a => trivial
  | cancel a =>
    intro homitted
    have hinfo : r.resolve a.symbol a.origClOrdId = some info := by
      rw [homitted]
      exact resolve_omitted hindexed hgiven h
    rw [cancelArgs, hinfo]
    exact ⟨rfl, rfl, fun hnone => if_pos hnone⟩
  | replace a =>
    intro homitted
    have hinfo : r.resolve a.symbol a.origClOrdId = some info := by
      rw [homitted]
      exact resolve_omitted hindexed hgiven h
    rw [replaceArgs, hinfo]
    exact ⟨rfl, rfl⟩

/-- What a request enters is what its id stands for from then on. -/
theorem indexed_request {q : FixRequest} {r' : FixScenarioRunner} (hindexed : Indexed qs r)
    (hgiven : ∀ q ∈ qs, q.clOrdId ≠ []) (hfresh : q.clOrdId ∉ qs.map FixRequest.clOrdId)
    (hr' : r'.tokenIndex = Function.update r.tokenIndex q.clOrdId (some (r.enters q))) : Indexed (q :: qs) r' := by
  intro id info h
  rw [hr']
  cases h with
  | placed => exact Function.update_self ..
  | replaced h homitted =>
    refine (Function.update_self ..).trans ?_
    simp only [enters, replaceArgs, homitted, resolve_omitted hindexed hgiven h]
    rfl
  | renamed h hnamed =>
    refine (Function.update_self ..).trans ?_
    simp only [enters, replaceArgs, resolve_named hnamed]
    rfl
  | later h =>
    have hother : id ≠ q.clOrdId := by
      rintro rfl
      obtain ⟨q', hq', hid⟩ := h.known
      exact hfresh (List.mem_map.2 ⟨q', hq', hid⟩)
    rw [Function.update_of_ne hother]
    exact hindexed id info h

end Step

theorem indexed_run {sc : Scenario} {r : FixScenarioRunner} {done : List Step} (hids : DistinctIds done)
    (hsend : AllAlong (after sc) (fun r s => requestOf s ≠ none → (r.act s).1.passed = true) r done) :
    Indexed (requests done) (StreamKit.run (after sc) r done) := by
  induction done using List.reverseRecOn with
  | nil =>
    intro id info h
    cases h
  | append_singleton done s ih =>
    have hids' := hids.of_append
    rw [allAlong_append] at hsend
    have hindexed := ih hids' hsend.1
    rw [run_append, requests_append]
    cases hs : requestOf s with
    | none =>
      have hindex : (StreamKit.run (after sc) (StreamKit.run (after sc) r done) [s]).tokenIndex =
          (StreamKit.run (after sc) r done).tokenIndex :=
        (index_after sc _ s).trans (index_act hs _)
      have hnone : requests [s] = [] := by simp [requests, hs]
      rw [hnone]
      intro id info h
      rw [hindex]
      exact hindexed id info h
    | some q =>
      have hone : requests [s] = [q] := by simp [requests, hs]
      obtain ⟨hgiven, hdistinct⟩ := hids
      rw [requests_append, hone] at hgiven hdistinct
      have hpassed := hsend.2.1 (by rw [hs]; exact Option.some_ne_none q)
      rw [act_request hs] at hpassed
      rw [hone]
      refine indexed_request hindexed hids'.given (List.nodup_cons.1 hdistinct).1 ?_
      refine (index_after sc _ s).trans ?_
      rw [act_request hs]
      exact request_passed hpassed (hgiven q List.mem_cons_self)

/-- Every cancel or replace that omits the symbol goes out with the symbol and
the side of the latest request of its chain that names one, and a cancel with the
quantity of the latest. -/
theorem latest_kept (sc : Scenario) (r : FixScenarioRunner) (hids : DistinctIds sc.steps) (hsend : SendsSucceed sc r) :
    Keeps Carries sc r := by
  intro done s rest q info hsteps hs h
  unfold SendsSucceed at hsend
  rw [hsteps] at hids hsend
  have hids' := hids.of_append
  exact resolved_asks (indexed_run hids' ((allAlong_append ..).1 hsend).1) hids'.given h

/-- Clients that take every request. -/
def willing : FixScenarioRunner where
  clients := ⟨fun _ => true, fun _ _ => .active, fun _ _ => .ok ()⟩

def sellOrder : FixPlaceArgs := { clOrdId := [1], symbol := [65], side := .sell, quantity := 10 }

/-- It names another symbol. -/
def otherOrder : FixReplaceArgs := { clOrdId := [2], origClOrdId := [1], symbol := [66], newQuantity := 20 }

/-- An order, a replace of it that names another symbol, and a cancel of the replace. -/
def otherSymbol : Scenario where
  steps :=
    [{ action := "fix_place", args := .fixPlace sellOrder }, { action := "fix_replace", args := .fixReplace otherOrder },
      { action := "fix_cancel", args := .fixCancel { clOrdId := [3], origClOrdId := [2] } }]

theorem latest_kept_otherSymbol :
    DistinctIds otherSymbol.steps ∧ SendsSucceed otherSymbol willing ∧ Keeps Carries otherSymbol willing :=
  have hids : DistinctIds otherSymbol.steps := ⟨by decide +kernel, by decide +kernel⟩
  have hsend : SendsSucceed otherSymbol willing := by
    unfold SendsSucceed
    decide +kernel
  ⟨hids, hsend, latest_kept otherSymbol willing hids hsend⟩

/-- The cancel is for the symbol of the replace, not for that of the order. -/
theorem instrument_changes : ¬ ∀ (sc : Scenario) (r : FixScenarioRunner), DistinctIds sc.steps → SendsSucceed sc r →
    Keeps Descends sc r := by
  intro hall
  have hsend : SendsSucceed otherSymbol willing := by
    unfold SendsSucceed
    decide +kernel
  have hkeeps := hall otherSymbol willing ⟨by decide +kernel, by decide +kernel⟩ hsend
  have hrequests : requests (otherSymbol.steps.take 2) = [.replace otherOrder, .place sellOrder] := by decide +kernel
  have hchain : Descends (requests (otherSymbol.steps.take 2)) [2] ⟨[65], .sell, 20⟩ := by
    rw [hrequests]
    exact .replaced (a := otherOrder) (.placed (a := sellOrder))
  obtain ⟨hsymbol, -⟩ := hkeeps (otherSymbol.steps.take 2) _ [] _ _ rfl rfl hchain rfl
  exact absurd hsymbol (by decide +kernel)

end FixScenarioRunner

end BistColo.Runner
