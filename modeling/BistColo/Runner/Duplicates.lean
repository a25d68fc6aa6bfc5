import BistColo.Mock.Serving
import BistColo.Ouch.Booking
import BistColo.Ouch.Refusals
import BistColo.Runner.Replay
/-!
# Duplicates that the exchange never saw

When the client refuses a token that it knows, `run_place` makes up the reject
-800002 that the exchange would send. The client knows a text once it tried to
use it, in a place, a replace or a mass quote and whatever became of the send;
the gateway knows the fourteen bytes of the enter orders that reached it.
`synthesized_agrees_iff` says that they agree in exactly those runs where an order of
the same fourteen bytes has arrived whenever a reject is made up;
`refused_send_counts` is a place that was never sent.
-/

open StreamKit

namespace BistColo.Runner

open Ouch Mock OuchClient OuchSession

/-! ## What makes `run_place` make up a reject -/

/-- The client refuses the text of a token that it has seen. -/
def Refuses (c : OuchClient) (now : UInt64) (token : Bytes) : Prop :=
  c.acquires now = true ∧ token ≠ [] ∧ token ∈ c.tokens.seen

/-- Of the errors of `place`, only that of a token that is not new is a validation error. -/
theorem place_validation (c : OuchClient) (now : UInt64) (args : Ouch.PlaceArgs) :
    (∃ e, (c.call now (.place args)).1 = .error e ∧ e.category = .validation) ↔ Refuses c now args.explicitToken := by
  by_cases hyes : c.acquires now = true
  · have hreach : c.Reaches now (.place args) := ⟨rfl, hyes, rfl⟩
    by_cases hadm : c.Admits (.place args)
    · -- the message is sent, and only the session can refuse it
      refine iff_of_false ?_ ?_
      · rintro ⟨e, he, hcat⟩
        rw [call_submits hreach hadm] at he
        rcases send_category (Prod.ext he rfl) with hstate | hio
        · cases hcat.symm.trans hstate
        · cases hcat.symm.trans hio
      · rintro ⟨-, hne, hseen⟩
        exact hadm args.explicitToken rfl hne hseen
    · obtain ⟨t, -, he⟩ := call_taken hreach hadm
      simp only [Admits, not_forall, not_not] at hadm
      obtain ⟨t', ht', hne, hseen⟩ := hadm
      obtain rfl : args.explicitToken = t' := Option.some.inj ht'
      exact iff_of_true ⟨_, congrArg Prod.fst he, rfl⟩ ⟨hyes, hne, hseen⟩
  · -- the throttler refuses with an error of its own
    rw [call_throttled rfl (Bool.eq_false_iff.2 hyes)]
    refine iff_of_false ?_ fun h => hyes h.1
    rintro ⟨e, he, hcat⟩
    cases he
    cases hcat

/-! ## What the exchange sees -/

/-- The runner, the gateway, the messages that the client's sessions took, and
those that reached the gateway. -/
structure Rig where
  runner : ScenarioRunner
  gateway : Gateway
  sent : List Outgoing := []
  arrived : List Outgoing := []

/-- What can happen: a `place` step, another step's request (a replace, a mass
quote, a cancel, an order of a burst), the session meanwhile, a new session, and
the arrival of a message. -/
inductive Happening
  | place (s : Step) (a : PlaceArgs)
  | request (q : Request)
  | session (op : OuchSession.Op)
  | relogin (s : OuchSession)
  | arrive (i : Nat)

namespace Rig

/-- The message of a request, if its call succeeds. -/
def took (r : ScenarioRunner) (q : Request) : List Outgoing :=
  if (r.client.call r.now q).1 = .ok () then (r.client.call r.now q).2.handed.drop r.client.handed.length else []

/-- The request of a `place` step, if it knows the symbol. -/
def placing (r : ScenarioRunner) (a : PlaceArgs) : Option Request :=
  (r.instruments.findBySymbol a.symbol).map fun inst => .place (ScenarioRunner.placeArgs inst a)

def step (w : Rig) : Happening → Rig
  | .place s a =>
    { w with runner := (w.runner.runPlace s a).2, sent := w.sent ++ ((placing w.runner a).map (took w.runner)).getD [] }
  | .request q => { w with runner := (w.runner.request q).2, sent := w.sent ++ took w.runner q }
  | .session op => { w with runner := w.runner.settle (w.runner.session.step op) }
  | .relogin s => { w with runner := w.runner.install s }
  | .arrive i =>
    match w.sent[i]? with
    | none => w
    | some m => { w with gateway := (w.gateway.handlePayload m.bytes).2, arrived := w.arrived ++ [m] }

/-- The gateway has seen nothing, and nothing is on its way. -/
structure Initial (w : Rig) : Prop where
  seenTokens : w.gateway.seenTokens = []
  sent : w.sent = []
  arrived : w.arrived = []

/-! ## The property -/

/-- The step makes up the reject -800002 for the token. -/
def Synthesizes (r : ScenarioRunner) (s : Step) (a : PlaceArgs) (token : OrderToken) : Prop :=
  ∃ m, (r.runPlace s a).2.pushed = r.pushed ++ [.synthesized m] ∧ m.rejectCode = RejectCode.tokenNotUnique ∧
    m.orderToken = token

/-- A made-up reject is one that the gateway would send. -/
def Agrees (w : Rig) : Happening → Prop
  | .place s a => ∀ token, Synthesizes w.runner s a token → w.gateway.Rejects token
  | _ => True

/-- An enter order of the token has reached the gateway. -/
def Entered (w : Rig) (token : OrderToken) : Prop := ∃ eo, .enterOrder eo ∈ w.arrived ∧ eo.orderToken = token

/-- A place that expects a reject and whose text the client refuses is one of an
order that has arrived, or its symbol is not known. -/
def Arrived (w : Rig) : Happening → Prop
  | .place s a =>
    ScenarioRunner.expectsReject s = true → (placing w.runner a).isSome → Refuses w.runner.client w.runner.now a.token →
      w.Entered (OrderToken.ofText a.token)
  | _ => True

/-! ## One step -/

theorem synthesizes_iff (r : ScenarioRunner) (s : Step) (a : PlaceArgs) (token : OrderToken) :
    Synthesizes r s a token ↔ ScenarioRunner.expectsReject s = true ∧ (placing r a).isSome ∧
      Refuses r.client r.now a.token ∧ token = OrderToken.ofText a.token := by
  unfold Synthesizes placing ScenarioRunner.runPlace
  cases hinst : r.instruments.findBySymbol a.symbol with
  | none => simp
  | some inst =>
    have hvalid := place_validation r.client r.now (ScenarioRunner.placeArgs inst a)
    change _ ↔ Refuses r.client r.now a.token at hvalid
    rw [← hvalid]
    simp only [ScenarioRunner.request, Option.map_some, Option.isSome_some, true_and]
    cases hcall : (r.client.call r.now (.place (ScenarioRunner.placeArgs inst a))).1 with
    | ok u => simp [ScenarioRunner.withClient, ScenarioRunner.tick]
    | error e =>
      dsimp only
      split
      · rename_i hyes
        simp only [Except.error.injEq, exists_eq_left', hyes, true_and]
        -- the reject is the last thing pushed, so its token is that of the text
        constructor
        · rintro ⟨m, hm, -, htoken⟩
          have hlast := List.append_cancel_left (hm : r.pushed ++ [_] = r.pushed ++ [_])
          simp only [List.cons.injEq, Pushed.synthesized.injEq, and_true] at hlast
          rw [← htoken, ← hlast]
          rfl
        · rintro rfl
          exact ⟨_, rfl, rfl, rfl⟩
      · rename_i hno
        simp only [Except.error.injEq, exists_eq_left']
        refine iff_of_false ?_ ?_
        · rintro ⟨m, hm, -⟩
          simp [ScenarioRunner.withClient, ScenarioRunner.tick] at hm
        · rintro ⟨hexpects, hcat, -⟩
          exact hno ⟨hexpects, hcat⟩

/-- What a call hands over is the message of its request. -/
theorem took_message {r : ScenarioRunner} {q : Request} {m : Outgoing} (h : m ∈ took r q) : ∃ tok, m = q.message tok := by
  unfold took at h
  split at h
  · rename_i hok
    obtain ⟨hreach, hadm, -⟩ := call_ok hok
    have hhanded : (r.client.call r.now q).2.handed = r.client.handed ++ [q.message (r.client.claimed q).1] := by
      rw [call_submits hreach hadm]
      rfl
    rw [hhanded, List.drop_left, List.mem_singleton] at h
    exact ⟨_, h⟩
  · cases h

def typeByte : Request → UInt8
  | .place _ => MsgType.enterOrder
  | .replace _ => MsgType.replaceOrder
  | .cancelByToken _ => MsgType.cancelOrder
  | .cancelByOrderId .. => MsgType.cancelByOrderId
  | .massQuote _ => MsgType.massQuote

theorem head_message (q : Request) (tok : OrderToken) : (q.message tok).bytes.head? = some (typeByte q) := by
  cases q <;> rfl

/-- What the gateway knows after a message of a request. -/
theorem handlePayload_message (g : Gateway) (q : Request) (tok t : OrderToken) :
    t ∈ (g.handlePayload (q.message tok).bytes).2.seenTokens ↔
      t ∈ g.seenTokens ∨ ∃ eo, q.message tok = .enterOrder eo ∧ eo.orderToken = t := by
  have hother (hnot : typeByte q ≠ MsgType.enterOrder) :
      (g.handlePayload (q.message tok).bytes).2.seenTokens = g.seenTokens := by
    apply g.handlePayload_seen
    rw [head_message]
    intro h
    exact hnot (Option.some.inj h)
  cases q with
  | place args =>
    have hpayload : g.handlePayload (args.message tok).bytes = g.enterOrder (args.message tok) :=
      g.handlePayload_enterOrder rfl
    have hbytes : ((Request.place args).message tok).bytes = (args.message tok).bytes := rfl
    rw [hbytes, hpayload, Gateway.enterOrder_seen]
    simp only [Request.message, Outgoing.enterOrder.injEq, exists_eq_left']
    split
    · rename_i hold
      constructor
      · exact .inl
      · rintro (h | rfl)
        · exact h
        · exact hold
    · rw [List.mem_append, List.mem_singleton, eq_comm]
  | replace args =>
    rw [hother (show MsgType.replaceOrder ≠ MsgType.enterOrder by decide)]
    simp [Request.message]
  | cancelByToken t =>
    rw [hother (show MsgType.cancelOrder ≠ MsgType.enterOrder by decide)]
    simp [Request.message]
  | cancelByOrderId book side id =>
    rw [hother (show MsgType.cancelByOrderId ≠ MsgType.enterOrder by decide)]
    simp [Request.message]
  | massQuote args =>
    rw [hother (show MsgType.massQuote ≠ MsgType.enterOrder by decide)]
    simp [Request.message]

/-! ## Runs -/

/-- The gateway knows the tokens of the orders that arrived, and every message was made for a request. -/
structure Sound (w : Rig) : Prop where
  seen : ∀ t, t ∈ w.gateway.seenTokens ↔ w.Entered t
  sent : ∀ m ∈ w.sent, ∃ (q : Request) (tok : OrderToken), m = q.message tok

theorem Initial.sound {w : Rig} (h : w.Initial) : w.Sound := by
  refine ⟨?_, ?_⟩
  · intro t
    simp [h.seenTokens, Entered, h.arrived]
  · rw [h.sent]
    nofun

theorem Sound.sends {w : Rig} (h : w.Sound) {ms : List Outgoing} {r : ScenarioRunner}
    (hms : ∀ m ∈ ms, ∃ (q : Request) (tok : OrderToken), m = q.message tok) :
    Sound { w with runner := r, sent := w.sent ++ ms } := by
  refine ⟨h.seen, ?_⟩
  intro m hm
  rcases List.mem_append.1 hm with hm | hm
  · exact h.sent m hm
  · exact hms m hm

theorem sound_step (w : Rig) (e : Happening) (h : w.Sound) : (w.step e).Sound := by
  cases e with
  | place s a =>
    apply h.sends
    intro m hm
    cases hq : placing w.runner a with
    | none => simp [hq] at hm
    | some q =>
      rw [hq, Option.map_some, Option.getD_some] at hm
      exact ⟨q, took_message hm⟩
  | request q =>
    apply h.sends
    intro m hm
    exact ⟨q, took_message hm⟩
  | session op => exact ⟨h.seen, h.sent⟩
  | relogin s => exact ⟨h.seen, h.sent⟩
  | arrive i =>
    rw [step]
    split
    · exact h
    · rename_i m hm
      -- one of the messages that were sent arrives, and was made for a request
      obtain ⟨q, tok, rfl⟩ := h.sent m (List.mem_of_getElem? hm)
      refine ⟨?_, h.sent⟩
      intro t
      rw [handlePayload_message, h.seen t]
      simp only [Entered, List.mem_append, List.mem_singleton]
      constructor
      · rintro (⟨eo, hin, ht⟩ | ⟨eo, heq, ht⟩)
        · exact ⟨eo, .inl hin, ht⟩
        · exact ⟨eo, .inr heq.symm, ht⟩
      · rintro ⟨eo, hin | heq, ht⟩
        · exact .inl ⟨eo, hin, ht⟩
        · exact .inr ⟨eo, heq.symm, ht⟩

theorem agrees_iff (w : Rig) (e : Happening) (h : w.Sound) : w.Agrees e ↔ w.Arrived e := by
  cases e with
  | place s a =>
    simp only [Agrees, Arrived, synthesizes_iff, Gateway.rejects_iff, h.seen]
    constructor
    · intro hagrees hexpects hknown hrefuses
      exact hagrees _ ⟨hexpects, hknown, hrefuses, rfl⟩
    · rintro harrived token ⟨hexpects, hknown, hrefuses, rfl⟩
      exact harrived hexpects hknown hrefuses
  | request q => exact Iff.rfl
  | session op => exact Iff.rfl
  | relogin s => exact Iff.rfl
  | arrive i => exact Iff.rfl

/-- In every run, every reject that is made up is one the gateway would send, if
and only if an order of the same fourteen bytes has arrived at each of them. -/
theorem synthesized_agrees_iff {w : Rig} (h : w.Initial) (es : List Happening) :
    AllAlong step Agrees w es ↔ AllAlong step Arrived w es := by
  have halways : AllAlong step (fun _ _ => True) w es := allAlong_of_at fun _ _ _ _ => trivial
  exact allAlong_congr Sound (fun w e hw _ => sound_step w e hw) (fun w e hw _ => agrees_iff w e hw) h.sound halways

/-! ## An order that was never sent -/

/-- A runner whose session has not logged in. -/
def idleRunner : ScenarioRunner where
  client := OuchClient.create (OuchSession.create {} ⟨fun _ => 0, 0⟩ { username := ascii "OUCH01", password := ascii "secret" }
    Soup.heartbeatSendNs) (Domain.Throttler.create 10 10) {} (ascii "C-")
  instruments := { findBySymbol := fun symbol => some { symbol } }
  around := { throttle := ⟨fun _ => 1, 0⟩, wall := ⟨fun _ => 1, 0⟩, patience := fun _ _ => 0 }

def idleRig : Rig := { runner := idleRunner, gateway := { wallNs := ⟨fun _ => 0, 0⟩ } }

theorem idleRig_initial : idleRig.Initial := ⟨rfl, rfl, rfl⟩

def thirty : PlaceArgs := { symbol := ascii "ACSEL.E", quantity := 100, token := ascii "30" }

def placeThirty : Happening := .place { action := "place" } thirty

/-- The step that checks that BIST refuses the token the second time. -/
def placeThirtyAgain : Happening := .place { action := "place", expect := some { msg := "order_rejected" } } thirty

theorem idle_refuses :
    Refuses (idleRig.step placeThirty).runner.client (idleRig.step placeThirty).runner.now (ascii "30") := by
  refine ⟨?_, ?_, ?_⟩
  · decide +kernel
  · decide
  · decide +kernel

theorem synthesized_agrees_iff_idle :
    AllAlong step Agrees idleRig [placeThirty, placeThirtyAgain] ↔
      AllAlong step Arrived idleRig [placeThirty, placeThirtyAgain] :=
  synthesized_agrees_iff idleRig_initial _

theorem refused_send_counts : ¬ ∀ (w : Rig) (es : List Happening), w.Initial → AllAlong step Agrees w es := by
  intro h
  have hagrees : (idleRig.step placeThirty).Agrees placeThirtyAgain :=
    (h idleRig [placeThirty, placeThirtyAgain] idleRig_initial).2.1
  have hsound : (idleRig.step placeThirty).Sound := sound_step _ _ idleRig_initial.sound
  obtain ⟨eo, hin, -⟩ := (agrees_iff _ _ hsound).1 hagrees rfl rfl idle_refuses
  -- nothing has arrived
  cases hin

end Rig

end BistColo.Runner
