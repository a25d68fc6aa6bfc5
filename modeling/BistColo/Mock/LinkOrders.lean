import BistColo.Mock.Link
import BistColo.Ouch.Tokens
/-!
# Orders over a connection

Every EnterOrder that the gateway takes is answered once, with its token, so the
answers come back in the order of the orders (`orders_answered_in_order`), and
where the client's registry keeps its tokens apart none of them is refused as a
duplicate (`no_duplicate_refused`): what the client checks before it sends is what
the gateway checks when it receives.
-/

open StreamKit

namespace BistColo.Mock

open Soup Ouch
open OuchSession (Fits payloads)

/-! ## An order and its answer -/

/-- The token of a payload that the gateway handles as an EnterOrder. -/
def enterToken (payload : Bytes) : Option OrderToken :=
  if payload.head? = some MsgType.enterOrder ∧ payload.length = 114 then some (EnterOrder.read payload).orderToken
  else none

def PayloadRead.entered (r : PayloadRead) : Option OrderToken :=
  if r.header.packetType = Pkt.unsequencedData then enterToken (r.bytes.getD []) else none

/-- The token that an OrderAccepted or an OrderRejected is about. -/
def answeredToken (x : ServerMsg × Bytes) : Option OrderToken :=
  match x.1 with
  | .orderAccepted => some (OrderAccepted.read x.2).orderToken
  | .orderRejected => some (OrderRejected.read x.2).orderToken
  | _ => none

/-- An OrderRejected with -800002. -/
def RefusesDuplicate (x : ServerMsg × Bytes) : Prop :=
  x.1 = .orderRejected ∧ (OrderRejected.read x.2).rejectCode = RejectCode.tokenNotUnique

namespace Reply

/-- What the handler of a reply is given. -/
def told (r : Reply) : ServerMsg × Bytes := (r.kind, r.bytes)

theorem answeredToken_accepted (m : OrderAccepted) : answeredToken (accepted m).told = some m.orderToken := by
  have hread : OrderAccepted.read m.bytes = m := (OrderAccepted.format.roundTrips.1 m).2
  change some (OrderAccepted.read m.bytes).orderToken = _
  rw [hread]

theorem answeredToken_rejected (m : OrderRejected) : answeredToken (rejected m).told = some m.orderToken := by
  have hread : OrderRejected.read m.bytes = m := (OrderRejected.format.roundTrips.1 m).2
  change some (OrderRejected.read m.bytes).orderToken = _
  rw [hread]

theorem refusesDuplicate_iff (r : Reply) : RefusesDuplicate r.told ↔ ∃ m, r = .rejected m ∧ m.rejectCode = RejectCode.tokenNotUnique := by
  cases r with
  | rejected m =>
    have hread : OrderRejected.read m.bytes = m := (OrderRejected.format.roundTrips.1 m).2
    refine ⟨fun h => ⟨m, rfl, ?_⟩, ?_⟩
    · have hcode : (OrderRejected.read m.bytes).rejectCode = RejectCode.tokenNotUnique := h.2
      rwa [hread] at hcode
    · rintro ⟨m', hm, hcode⟩
      cases hm
      refine ⟨rfl, ?_⟩
      change (OrderRejected.read m.bytes).rejectCode = _
      rwa [hread]
  | accepted m | replaced m | canceled m | massQuoteAck m | massQuoteRejection m =>
    refine iff_of_false (fun h => nomatch h.1) ?_
    rintro ⟨m', hm, -⟩
    nomatch hm

end Reply

namespace Gateway

/-- The token is new: the order is accepted, or refused for its price. -/
theorem enterOrder_answer (g : Gateway) (eo : EnterOrder) :
    ∃ r, (g.enterOrder eo).1 = [r] ∧ answeredToken r.told = some eo.orderToken ∧
      (eo.orderToken ∉ g.seenTokens → ¬ RefusesDuplicate r.told) := by
  unfold enterOrder
  split
  · rename_i hseen
    exact ⟨_, rfl, Reply.answeredToken_rejected _, fun hnew => absurd hseen hnew⟩
  · dsimp only
    split
    · refine ⟨_, rfl, Reply.answeredToken_rejected _, fun _ hdup => ?_⟩
      obtain ⟨m, hm, hcode⟩ := (Reply.refusesDuplicate_iff _).1 hdup
      cases hm
      have hne : RejectCode.priceOutsideLimits ≠ RejectCode.tokenNotUnique := by decide
      exact hne hcode
    · refine ⟨_, rfl, Reply.answeredToken_accepted _, fun _ hdup => ?_⟩
      obtain ⟨m, hm, -⟩ := (Reply.refusesDuplicate_iff _).1 hdup
      nomatch hm

theorem quoteEntries_answers_none (g : Gateway) (token : OrderToken) (es : List QuoteEntry) :
    ∀ r ∈ (g.quoteEntries token es).1, answeredToken r.told = none := by
  induction es generalizing g with
  | nil => exact List.forall_mem_nil _
  | cons e es ih =>
    have hentry : ∀ r ∈ (g.quoteEntry token e).1, answeredToken r.told = none := by
      unfold quoteEntry
      split
      · exact List.forall_mem_cons.2 ⟨rfl, List.forall_mem_nil _⟩
      · exact List.forall_mem_cons.2 ⟨rfl, List.forall_mem_cons.2 ⟨rfl, List.forall_mem_nil _⟩⟩
    exact List.forall_mem_append.2 ⟨hentry, ih _⟩

/-- A payload that is no EnterOrder answers no order, and teaches no token. -/
theorem handlePayload_other (g : Gateway) {payload : Bytes} (h : enterToken payload = none) :
    (∀ r ∈ (g.handlePayload payload).1, answeredToken r.told = none) ∧
      (g.handlePayload payload).2.seenTokens = g.seenTokens := by
  have hnot : ¬ (payload.head? = some MsgType.enterOrder ∧ payload.length = 114) := by
    intro hboth
    rw [enterToken, if_pos hboth] at h
    nomatch h
  constructor
  · unfold handlePayload
    split
    · exact List.forall_mem_nil _
    · rename_i type hhead
      split
      · rename_i htype
        rw [if_pos fun hlen => hnot ⟨by rw [hhead, htype], hlen⟩]
        exact List.forall_mem_nil _
      · split
        · split
          · exact List.forall_mem_nil _
          · unfold cancelOrder
            dsimp only
            split
            · exact List.forall_mem_cons.2 ⟨rfl, List.forall_mem_nil _⟩
            · exact List.forall_mem_cons.2 ⟨rfl, List.forall_mem_nil _⟩
        · split
          · split
            · exact List.forall_mem_nil _
            · exact List.forall_mem_cons.2 ⟨rfl, List.forall_mem_nil _⟩
          · split
            · split
              · exact List.forall_mem_nil _
              · exact List.forall_mem_cons.2 ⟨rfl, List.forall_mem_nil _⟩
            · split
              · split
                · exact List.forall_mem_nil _
                · exact g.quoteEntries_answers_none _ _
              · exact List.forall_mem_nil _
  · by_cases hhead : payload.head? = some MsgType.enterOrder
    · have hlen : payload.length ≠ 114 := fun hlen => hnot ⟨hhead, hlen⟩
      unfold handlePayload
      rw [hhead]
      dsimp only
      rw [if_pos rfl, if_pos hlen]
    · exact g.handlePayload_seen hhead

/-- A payload that is an EnterOrder is answered once. -/
theorem handlePayload_enter (g : Gateway) {payload : Bytes} {token : OrderToken} (h : enterToken payload = some token) :
    (∃ r, (g.handlePayload payload).1 = [r] ∧ answeredToken r.told = some token ∧
      (token ∉ g.seenTokens → ¬ RefusesDuplicate r.told)) ∧
    (g.handlePayload payload).2.seenTokens = if token ∈ g.seenTokens then g.seenTokens else g.seenTokens ++ [token] := by
  unfold enterToken at h
  split at h
  · rename_i hboth
    have hhandle : g.handlePayload payload = g.enterOrder (EnterOrder.read payload) := by
      unfold handlePayload
      rw [hboth.1]
      dsimp only
      rw [if_pos rfl, if_neg (not_not_intro hboth.2)]
    rw [hhandle, ← Option.some.inj h]
    exact ⟨g.enterOrder_answer _, g.enterOrder_seen _⟩
  · nomatch h

end Gateway

/-! ## What the thread writes -/

namespace Worker

/-- What the handlers of a client are told of the packets. -/
def told (sent : List Packet) : List (ServerMsg × Bytes) := sent.filterMap message

@[simp] theorem told_append (as bs : List Packet) : told (as ++ bs) = told as ++ told bs := List.filterMap_append

theorem told_replies {rs : List Reply} (h : ∀ r ∈ rs, r.WellTyped) : told (rs.map Reply.packet) = rs.map Reply.told := by
  induction rs with
  | nil => rfl
  | cons r rs ih =>
    obtain ⟨hr, hrs⟩ := List.forall_mem_cons.1 h
    have hfirst : message r.packet = some r.told := (Reply.packet_sound hr).2
    rw [List.map_cons, List.map_cons, ← ih hrs]
    exact List.filterMap_cons_some hfirst

theorem told_greet (d : LoginDesk) (r : PayloadRead) : told (greet d r).1 = [] := by
  rw [told, List.filterMap_eq_nil_iff]
  intro p hp
  have htype : p.packetType ≠ Pkt.sequencedData := by
    rcases greet_cases d r with ⟨-, -, haccepted⟩ | ⟨-, hrejected⟩
    · rw [haccepted, List.mem_singleton] at hp
      rw [hp]
      decide
    · rw [hrejected p hp]
      decide
  rw [message, if_neg htype]

theorem told_answers (sent : List Packet) : told (answers sent) = told sent := by
  rw [told, answers, List.filterMap_filter]
  congr 1
  funext p
  by_cases hbeat : p.packetType = Pkt.serverHeartbeat
  · have hnone : message p = none := by rw [message, hbeat]; rfl
    rw [hnone, if_neg (by simp [hbeat])]
  · rw [if_pos (by simp [hbeat])]

/-- What one packet adds, in the main loop. -/
structure Adds (w w' : Worker) (r : PayloadRead) (new : List (ServerMsg × Bytes)) : Prop where
  told : told w'.sent = told w.sent ++ new
  tokens : new.filterMap answeredToken = r.entered.toList
  fresh : (∀ token, r.entered = some token → token ∉ w.gateway.seenTokens) → ∀ x ∈ new, ¬ RefusesDuplicate x
  seen : w'.gateway.seenTokens = match r.entered with
    | none => w.gateway.seenTokens
    | some token => if token ∈ w.gateway.seenTokens then w.gateway.seenTokens else w.gateway.seenTokens ++ [token]

theorem answeredToken_of_refuses {x : ServerMsg × Bytes} (h : RefusesDuplicate x) : (answeredToken x).isSome := by
  obtain ⟨kind, bytes⟩ := x
  obtain ⟨rfl, -⟩ := h
  rfl

theorem adds_take {w : Worker} (h : w.phase = .serving) (r : PayloadRead) : ∃ new, Adds w (w.take r) r new := by
  rw [take, h]
  dsimp only
  by_cases hlogout : r.header.packetType = Pkt.logoutRequest
  · have hnone : r.entered = none := by
      rw [PayloadRead.entered, hlogout]
      exact if_neg (by decide)
    rw [if_pos hlogout]
    refine ⟨[], ?_, ?_, ?_, ?_⟩
    · rw [told_append]
      rfl
    · rw [hnone]
      rfl
    · exact fun _ => List.forall_mem_nil _
    · rw [hnone]
  · rw [if_neg hlogout]
    by_cases hrequest : r.header.packetType = Pkt.unsequencedData
    · have hentered : r.entered = enterToken (r.bytes.getD []) := if_pos hrequest
      have htold := told_replies (w.gateway.handlePayload_wellTyped (r.bytes.getD []))
      rw [if_pos hrequest]
      cases htoken : enterToken (r.bytes.getD []) with
      | none =>
        obtain ⟨hnone, hseen⟩ := w.gateway.handlePayload_other htoken
        refine ⟨(w.gateway.handlePayload (r.bytes.getD [])).1.map Reply.told, ?_, ?_, ?_, ?_⟩
        · rw [told_append, htold]
        · rw [List.filterMap_map, hentered, htoken]
          exact List.filterMap_eq_nil_iff.2 hnone
        · intro _ x hx hrefuses
          obtain ⟨reply, hreply, rfl⟩ := List.mem_map.1 hx
          have hsome := answeredToken_of_refuses hrefuses
          rw [hnone reply hreply] at hsome
          cases hsome
        · rw [hentered, htoken]
          exact hseen
      | some token =>
        obtain ⟨⟨reply, hreply, hanswer, hnew⟩, hseen⟩ := w.gateway.handlePayload_enter htoken
        refine ⟨[reply.told], ?_, ?_, ?_, ?_⟩
        · rw [told_append, htold, hreply]
          rfl
        · rw [hentered, htoken]
          exact List.filterMap_cons_some hanswer
        · intro hfresh x hx
          rw [List.mem_singleton.1 hx]
          rw [hentered] at hfresh
          exact hnew (hfresh token htoken)
        · rw [hentered, htoken]
          exact hseen
    · have hnone : r.entered = none := if_neg hrequest
      rw [if_neg hrequest]
      refine ⟨[], (List.append_nil _).symm, ?_, ?_, ?_⟩
      · rw [hnone]
        rfl
      · exact fun _ => List.forall_mem_nil _
      · rw [hnone]

theorem take_greeting {w : Worker} (h : w.phase = .greeting) (r : PayloadRead) :
    w.take r = { w with desk := (greet w.desk r).2, phase := .serving, sent := w.sent ++ (greet w.desk r).1 } := by
  rw [take, h]

theorem phase_take (w : Worker) (r : PayloadRead) : (w.take r).phase ≠ .greeting := by
  unfold take
  cases hphase : w.phase with
  | greeting => exact fun h => nomatch h
  | closed =>
    dsimp only
    rw [hphase]
    exact fun h => nomatch h
  | serving =>
    dsimp only
    split
    · exact fun h => nomatch h
    · split
      · exact fun h => nomatch h
      · rw [hphase]
        exact fun h => nomatch h

/-- The tokens of the orders answered, in the order of the answers. -/
def answered (sent : List Packet) : List OrderToken := (told sent).filterMap answeredToken

/-- In the main loop, the orders are answered in turn, and all of them unless the
client logs out. -/
theorem answered_takes (rs : List PayloadRead) {w : Worker} (h : w.phase ≠ .greeting) :
    answered (rs.foldl take w).sent <+: answered w.sent ++ rs.filterMap PayloadRead.entered ∧
      ((rs.foldl take w).phase ≠ .closed →
        answered (rs.foldl take w).sent = answered w.sent ++ rs.filterMap PayloadRead.entered) := by
  induction rs generalizing w with
  | nil => exact ⟨by rw [List.filterMap_nil, List.append_nil]; exact List.prefix_rfl, fun _ => (List.append_nil _).symm⟩
  | cons r rs ih =>
    cases hphase : w.phase with
    | greeting => exact absurd hphase h
    | closed =>
      rw [take_closed hphase]
      exact ⟨List.prefix_append _ _, fun hopen => absurd hphase hopen⟩
    | serving =>
      obtain ⟨new, hadds⟩ := adds_take hphase r
      have hnow : answered (w.take r).sent = answered w.sent ++ r.entered.toList := by
        rw [answered, hadds.told, List.filterMap_append, hadds.tokens]
        rfl
      have hsplit : answered w.sent ++ (r :: rs).filterMap PayloadRead.entered =
          answered (w.take r).sent ++ rs.filterMap PayloadRead.entered := by
        rw [hnow, List.append_assoc]
        cases hentered : r.entered with
        | none => rw [List.filterMap_cons_none hentered]; rfl
        | some token => rw [List.filterMap_cons_some hentered]; rfl
      rw [hsplit, List.foldl_cons]
      exact ih (w.phase_take r)

/-- Orders with new tokens, each of its own, are not refused as duplicates. -/
theorem fresh_takes (rs : List PayloadRead) {w : Worker} (h : w.phase ≠ .greeting)
    (hnodup : (w.gateway.seenTokens ++ rs.filterMap PayloadRead.entered).Nodup)
    (hold : ∀ x ∈ told w.sent, ¬ RefusesDuplicate x) : ∀ x ∈ told (rs.foldl take w).sent, ¬ RefusesDuplicate x := by
  induction rs generalizing w with
  | nil => exact hold
  | cons r rs ih =>
    cases hphase : w.phase with
    | greeting => exact absurd hphase h
    | closed =>
      rw [take_closed hphase]
      exact hold
    | serving =>
      obtain ⟨new, hadds⟩ := adds_take hphase r
      have hnew : ∀ token, r.entered = some token → token ∉ w.gateway.seenTokens := by
        intro token htoken hseen
        rw [List.filterMap_cons_some htoken, List.nodup_append] at hnodup
        exact hnodup.2.2 token hseen token List.mem_cons_self rfl
      have hseen : (w.take r).gateway.seenTokens ++ rs.filterMap PayloadRead.entered =
          w.gateway.seenTokens ++ (r :: rs).filterMap PayloadRead.entered := by
        rw [hadds.seen]
        cases hentered : r.entered with
        | none => rw [List.filterMap_cons_none hentered]
        | some token =>
          dsimp only
          rw [List.filterMap_cons_some hentered, if_neg (hnew token hentered), List.append_assoc]
          rfl
      rw [List.foldl_cons]
      refine ih (w.phase_take r) (by rwa [hseen]) ?_
      rw [hadds.told]
      exact List.forall_mem_append.2 ⟨hold, hadds.fresh hnew⟩

end Worker

/-! ## The first packet is no order -/

namespace Link

/-- The packets of a client that waits for its login before it sends orders. -/
structure Opened (l : Link) (asked : List Packet) : Prop where
  active : l.session.state = .active → Ouch.dispatched l.session.log ≠ []
  quiet : l.worker.phase = .greeting → l.worker.sent = []
  first : ∀ p, asked.head? = some p → p.packetType ≠ Pkt.unsequencedData

/-- Only a packet that was dispatched makes a session active. -/
theorem active_step {s : OuchSession} (op : OuchSession.Op) (h : s.state = .active → Ouch.dispatched s.log ≠ []) :
    (s.step op).state = .active → Ouch.dispatched (s.step op).log ≠ [] := by
  refine OuchSession.inbound_step (I := fun s => s.state = .active → Ouch.dispatched s.log ≠ []) ?_ ?_ op h
  · intro s s' bytes hread h hactive
    obtain ⟨es, hes, hquiet⟩ := hread.log
    rw [hes, dispatched_append]
    exact List.append_ne_nil_of_left_ne_nil (h (hread.active hactive)) _
  · intro s f rest hnext _ _
    rw [OuchSession.dispatched_takePacket hnext]
    exact List.append_ne_nil_of_right_ne_nil _ (List.cons_ne_nil _ _)

section Opened

variable {w₀ : Worker} {l : Link} {asked more : List Packet} {n m : Nat} {e : LinkEvent}

theorem quiet_step (w : Worker) (e : Worker.Event) (h : w.phase = .greeting → w.sent = []) :
    (w.step e).phase = .greeting → (w.step e).sent = [] := by
  cases e with
  | arrive bytes => exact h
  | turn =>
    rcases w.turn_cases with ⟨-, hstep⟩ | ⟨r, rest, -, -, hstep⟩
    · rw [hstep]
      exact h
    · rw [hstep]
      exact fun hgreeting => absurd hgreeting (Worker.phase_take _ _)
  | heartbeat =>
    rcases w.heartbeat_cases with ⟨-, hstep⟩ | ⟨hserving, hstep⟩
    · rw [hstep]
      exact h
    · rw [hstep]
      exact fun hgreeting => absurd (hserving.symm.trans hgreeting) (by decide)

theorem Opened.step (h : Opened l asked) (hsound : Sound w₀ l asked n m) (hstart : w₀.phase = .greeting)
    (hadds : l.Adds e more) : Opened (l.step e) (asked ++ more) := by
  have hfirst : ∀ p, (asked ++ more).head? = some p → p.packetType ≠ Pkt.unsequencedData := by
    intro p hp
    cases asked with
    | cons q asked =>
      apply h.first
      exact hp
    | nil =>
      rw [List.nil_append] at hp
      rcases hadds with hnone | ⟨hactive, -⟩
      · intro htype
        have hmem : p.payload ∈ payloads more :=
          List.mem_map.2 ⟨p, List.mem_filter.2 ⟨List.mem_of_head? hp, decide_eq_true htype⟩, rfl⟩
        rw [hnone] at hmem
        exact absurd hmem List.not_mem_nil
      · -- nothing was taken, so nothing was answered that makes the session active
        have hbare := hsound.up.bare
        rw [List.take_nil] at hbare
        have hgreeting : l.worker.phase = .greeting := (congrArg Worker.phase hbare).trans hstart
        have hnone : Ouch.dispatched l.session.log = [] := by
          rw [hsound.down.hears.calls, h.quiet hgreeting, List.take_nil]
          rfl
        exact absurd hnone (h.active hactive)
  refine ⟨?_, ?_, hfirst⟩
  · cases e with
    | request now r =>
      rcases call_session l.client now r with hsame | ⟨-, -, hsends⟩
      · intro hactive
        change Ouch.dispatched (l.client.call now r).2.session.log ≠ []
        have hactive' : (l.client.call now r).2.session.state = .active := hactive
        rw [hsame] at hactive' ⊢
        exact h.active hactive'
      · intro hactive
        change Ouch.dispatched (l.client.call now r).2.session.log ≠ []
        have hactive' : (l.client.call now r).2.session.state = .active := hactive
        rw [hsends] at hactive' ⊢
        exact active_step _ h.active hactive'
    | session op => exact active_step op h.active
    | grant k => exact h.active
    | carry k => exact h.active
    | turn => exact h.active
    | heartbeat => exact h.active
    | deliver k =>
      unfold Link.step
      dsimp only
      split <;> exact h.active
    | hangUp =>
      unfold Link.step
      dsimp only
      split <;> exact h.active
  · cases e with
    | request now r => exact h.quiet
    | session op => exact h.quiet
    | grant k => exact h.quiet
    | carry k => exact quiet_step _ _ h.quiet
    | turn => exact quiet_step _ .turn h.quiet
    | heartbeat => exact quiet_step _ .heartbeat h.quiet
    | deliver k =>
      unfold Link.step
      dsimp only
      split <;> exact h.quiet
    | hangUp =>
      unfold Link.step
      dsimp only
      split <;> exact h.quiet

theorem Fresh.opened (h : Fresh l) : Opened l [] where
  active := by
    intro hactive
    rw [h.session.state] at hactive
    nomatch hactive
  quiet := fun _ => h.sent
  first := fun p hp => nomatch hp

end Opened

/-! ## The client's own orders -/

/-- The registry keeps apart what is handed over, and nothing gets past it. -/
def Registered (l : Link) : LinkEvent → Prop
  | .request now r => l.client.TokenClear (.request now r)
  | .session op => ∀ msg, op ≠ .send msg
  | _ => True

/-- What the client asked for it had handed over, under tokens of its own. -/
structure Own (l : Link) (asked : List Packet) : Prop where
  unique : l.client.Unique
  handed : (payloads asked).Sublist (l.client.handed.map OuchSession.Outgoing.bytes)
  typed : ∀ msg ∈ l.client.handed, ∀ token, enterToken msg.bytes = some token → msg.tokenField = some token.bytes

section Own

variable {w₀ : Worker} {l : Link} {asked more : List Packet} {n m : Nat} {e : LinkEvent}

theorem enterToken_none {payload : Bytes} {type : UInt8} (hhead : payload.head? = some type)
    (htype : type ≠ MsgType.enterOrder) : enterToken payload = none := by
  rw [enterToken, hhead]
  exact if_neg fun hboth => htype (Option.some.inj hboth.1)

/-- A call hands over an EnterOrder with its own token, or none. -/
theorem typed_message (r : OuchClient.Request) (tok : OrderToken) :
    ∀ token, enterToken (r.message tok).bytes = some token → (r.message tok).tokenField = some token.bytes := by
  intro token htoken
  have hno : ∀ type, (r.message tok).bytes.head? = some type → type ≠ MsgType.enterOrder →
      (r.message tok).tokenField = some token.bytes := by
    intro type hhead htype
    rw [enterToken_none hhead htype] at htoken
    nomatch htoken
  cases r with
  | place args =>
    have hread : EnterOrder.read (args.message tok).bytes = args.message tok := (EnterOrder.format.roundTrips.1 _).2
    change enterToken (args.message tok).bytes = some token at htoken
    unfold enterToken at htoken
    split at htoken
    · rw [hread] at htoken
      rw [← Option.some.inj htoken]
      rfl
    · nomatch htoken
  | replace args => exact hno MsgType.replaceOrder rfl (by decide)
  | cancelByToken t => exact hno MsgType.cancelOrder rfl (by decide)
  | cancelByOrderId book side id => exact hno MsgType.cancelByOrderId rfl (by decide)
  | massQuote args => exact hno MsgType.massQuote rfl (by decide)

theorem Own.step (h : Own l asked) (hadds : l.Adds e more) (hr : l.Registered e) : Own (l.step e) (asked ++ more) := by
  -- an event that changes neither what was handed over nor the registry, and sends nothing
  have hother : ∀ l' : Link, l'.client.handed = l.client.handed → l'.client.tokens = l.client.tokens →
      (∀ msg, ¬ l.Hands e msg) → Own l' (asked ++ more) := by
    intro l' hhanded htokens hno
    have hnone : payloads more = [] := by
      rcases hadds with hnone | ⟨-, msg, hmsg, -⟩
      · exact hnone
      · exact absurd hmsg (hno msg)
    refine ⟨⟨?_, ?_⟩, ?_, ?_⟩
    · rw [hhanded, htokens]
      exact h.unique.wire
    · rw [hhanded]
      exact h.unique.nodup
    · rw [OuchSession.payloads_append, hnone, List.append_nil, hhanded]
      exact h.handed
    · rw [hhanded]
      exact h.typed
  have hquiet : ∀ e' : LinkEvent, e = e' → (∀ now r, e' ≠ .request now r) → (∀ msg, e' ≠ .session (.send msg)) →
      ∀ msg, ¬ l.Hands e msg := by
    rintro e' rfl hrequest hsend msg (hmsg | ⟨now, r, hmsg, -⟩)
    · exact hsend msg hmsg
    · exact hrequest now r hmsg
  cases e with
  | request now r =>
    have hunique : (l.client.call now r).2.Unique := h.unique.request hr
    rcases l.client.step_request now r with ⟨hstops, hhanded, htokens⟩ | ⟨hreach, hadm, hhanded, -⟩
    · apply hother _ hhanded htokens
      rintro msg (hmsg | ⟨now', r', hmsg, hreach, hadm, -⟩)
      · nomatch hmsg
      · cases hmsg
        exact hstops ⟨hreach, hadm⟩
    · refine ⟨hunique, ?_, ?_⟩
      · change (payloads (asked ++ more)).Sublist ((l.client.call now r).2.handed.map OuchSession.Outgoing.bytes)
        rw [hhanded, List.map_append, OuchSession.payloads_append]
        refine h.handed.append ?_
        rcases hadds with hnone | ⟨-, msg, hmsg, hmore⟩
        · rw [hnone]
          exact List.nil_sublist _
        · rcases hmsg with hmsg | ⟨now', r', hmsg, -, -, hmessage⟩
          · nomatch hmsg
          · cases hmsg
            rw [hmore, hmessage]
            exact List.Sublist.refl _
      · change ∀ msg ∈ (l.client.call now r).2.handed, _
        rw [hhanded]
        refine List.forall_mem_append.2 ⟨h.typed, ?_⟩
        intro msg hmsg
        rw [List.mem_singleton.1 hmsg]
        exact typed_message r _
  | session op =>
    refine hother (l.step (.session op)) rfl rfl ?_
    exact hquiet _ rfl (fun now r he => nomatch he) fun msg he => hr msg (LinkEvent.session.inj he)
  | grant k => exact hother _ rfl rfl (hquiet _ rfl (fun now r he => nomatch he) fun msg he => nomatch he)
  | carry k => exact hother _ rfl rfl (hquiet _ rfl (fun now r he => nomatch he) fun msg he => nomatch he)
  | turn => exact hother _ rfl rfl (hquiet _ rfl (fun now r he => nomatch he) fun msg he => nomatch he)
  | heartbeat => exact hother _ rfl rfl (hquiet _ rfl (fun now r he => nomatch he) fun msg he => nomatch he)
  | deliver k =>
    have hno := hquiet _ rfl (fun now r he => nomatch he) fun msg he => nomatch he
    unfold Link.step
    dsimp only
    split <;> exact hother _ rfl rfl hno
  | hangUp =>
    have hno := hquiet _ rfl (fun now r he => nomatch he) fun msg he => nomatch he
    unfold Link.step
    dsimp only
    split <;> exact hother _ rfl rfl hno

end Own

/-! ## Runs -/

/-- The token of an order among the packets asked for. -/
def orderedToken (packet : Bytes) : Option OrderToken := (nextPacket packet).bind fun p => p.1.entered

theorem orderedTokens_encode (ps : List Packet) :
    (ps.map Packet.encode).filterMap orderedToken = (ps.map reading).filterMap PayloadRead.entered := by
  rw [List.filterMap_map, List.filterMap_map]
  congr 1
  funext p
  have hnext := nextPacket_packet p []
  rw [List.append_nil, packets_next] at hnext
  change (nextPacket p.encode).bind _ = _
  rw [hnext]
  rfl

theorem Sound.run_opened {w₀ : Worker} {l : Link} {asked : List Packet} {n m : Nat} (h : Sound w₀ l asked n m)
    (hopened : Opened l asked) (hstart : w₀.phase = .greeting) {events : List LinkEvent}
    (hrun : AllAlong Link.step Careful l events) :
    ∃ asked n m, Sound w₀ (StreamKit.run Link.step l events) asked n m ∧
      Opened (StreamKit.run Link.step l events) asked := by
  refine run_inv (fun l => ∃ asked n m, Sound w₀ l asked n m ∧ Opened l asked) ?_ ⟨asked, n, m, h, hopened⟩ hrun
  rintro l e ⟨asked, n, m, h, hopened⟩ hc
  obtain ⟨more, n', m', hsound, hadds⟩ := h.step hc
  exact ⟨_, n', m', hsound, hopened.step h hstart hadds⟩

/-- A client that has handed nothing over has nothing to answer for. -/
theorem own_nil {l : Link} (hhanded : l.client.handed = []) (hseen : l.client.tokens.seen = []) : Own l [] := by
  refine ⟨⟨?_, ?_⟩, List.nil_sublist _, ?_⟩
  · rw [hhanded, hseen]
    rfl
  · rw [hhanded]
    exact List.nodup_nil
  · rw [hhanded]
    exact List.forall_mem_nil _

theorem Sound.run_own {w₀ : Worker} {l : Link} {asked : List Packet} {n m : Nat} (h : Sound w₀ l asked n m) (hown : Own l asked)
    {events : List LinkEvent} (hrun : AllAlong Link.step Careful l events)
    (hregistered : AllAlong Link.step Registered l events) :
    ∃ asked n m, Sound w₀ (StreamKit.run Link.step l events) asked n m ∧ Own (StreamKit.run Link.step l events) asked := by
  refine run_inv (fun l => ∃ asked n m, Sound w₀ l asked n m ∧ Own l asked) ?_ ⟨asked, n, m, h, hown⟩
    (allAlong_and.2 ⟨hrun, hregistered⟩)
  rintro l e ⟨asked, n, m, h, hown⟩ hc
  obtain ⟨more, n', m', hsound, hadds⟩ := h.step hc.1
  exact ⟨_, n', m', hsound, hown.step hadds hc.2⟩

theorem filterMap_sublist {α β : Type*} {f g : α → Option β} {l : List α} (h : ∀ a ∈ l, ∀ b, f a = some b → g a = some b) :
    (l.filterMap f).Sublist (l.filterMap g) := by
  induction l with
  | nil => exact List.Sublist.refl _
  | cons a l ih =>
    obtain ⟨ha, hl⟩ := List.forall_mem_cons.1 h
    cases hf : f a with
    | none =>
      rw [List.filterMap_cons_none hf]
      refine (ih hl).trans ?_
      cases hg : g a with
      | none => rw [List.filterMap_cons_none hg]
      | some b =>
        rw [List.filterMap_cons_some hg]
        exact List.sublist_cons_self _ _
    | some b =>
      rw [List.filterMap_cons_some hf, List.filterMap_cons_some (ha b hf)]
      exact (ih hl).cons_cons b

theorem entered_payloads (ps : List Packet) :
    (ps.map reading).filterMap PayloadRead.entered = (payloads ps).filterMap enterToken := by
  induction ps with
  | nil => rfl
  | cons p ps ih =>
    have hentered : (reading p).entered = if p.packetType = Pkt.unsequencedData then enterToken p.payload else none := rfl
    rw [List.map_cons]
    by_cases hp : p.packetType = Pkt.unsequencedData
    · have hpayloads : payloads (p :: ps) = p.payload :: payloads ps := by simp [payloads, hp]
      rw [if_pos hp] at hentered
      rw [hpayloads]
      cases htoken : enterToken p.payload with
      | none => rw [List.filterMap_cons_none (hentered.trans htoken), List.filterMap_cons_none htoken, ih]
      | some token => rw [List.filterMap_cons_some (hentered.trans htoken), List.filterMap_cons_some htoken, ih]
    · have hpayloads : payloads (p :: ps) = payloads ps := by simp [payloads, hp]
      rw [if_neg hp] at hentered
      rw [hpayloads, List.filterMap_cons_none hentered, ih]

/-- The orders of a client have tokens of their own. -/
theorem Own.nodup {l : Link} {asked : List Packet} (h : Own l asked) :
    ((asked.map reading).filterMap PayloadRead.entered).Nodup := by
  have hwire : (l.client.handed.filterMap fun msg => (enterToken msg.bytes).map Field.bytes).Sublist
      (wireTokens l.client.handed) := by
    apply filterMap_sublist
    intro msg hmsg bytes hbytes
    obtain ⟨token, htoken, rfl⟩ := Option.map_eq_some_iff.1 hbytes
    exact h.typed msg hmsg token htoken
  have hsub := h.handed.filterMap fun payload => (enterToken payload).map Field.bytes
  rw [List.filterMap_map] at hsub
  have hnodup := h.unique.nodup.sublist (hsub.trans hwire)
  rw [entered_payloads]
  apply List.Nodup.of_map Field.bytes
  rwa [List.map_filterMap]

/-- The thread behind its greeting, where the first packet is no order. -/
theorem answered_bare {w : Worker} (hphase : w.phase = .greeting) (hsent : w.sent = []) {rs : List PayloadRead}
    (hfirst : ∀ r, rs.head? = some r → r.entered = none) :
    Worker.answered (rs.foldl Worker.take w).sent <+: rs.filterMap PayloadRead.entered ∧
      ((rs.foldl Worker.take w).phase ≠ .closed →
        Worker.answered (rs.foldl Worker.take w).sent = rs.filterMap PayloadRead.entered) := by
  cases rs with
  | nil =>
    rw [List.foldl_nil, hsent]
    exact ⟨List.prefix_rfl, fun _ => rfl⟩
  | cons r rs =>
    have hgreeted : Worker.answered (w.take r).sent = [] := by
      rw [Worker.take_greeting hphase, hsent, List.nil_append, Worker.answered, Worker.told_greet]
      rfl
    have hrest := Worker.answered_takes rs (w.phase_take r)
    rw [hgreeted, List.nil_append] at hrest
    rw [List.foldl_cons, List.filterMap_cons_none (hfirst r rfl)]
    exact hrest

/-- The thread behind its greeting, where no order has the token of another. -/
theorem fresh_bare {w : Worker} (hphase : w.phase = .greeting) (hsent : w.sent = []) (hgateway : w.gateway.seenTokens = [])
    {rs : List PayloadRead} (hnodup : (rs.filterMap PayloadRead.entered).Nodup) :
    ∀ x ∈ Worker.told (rs.foldl Worker.take w).sent, ¬ RefusesDuplicate x := by
  cases rs with
  | nil =>
    rw [List.foldl_nil, hsent]
    exact List.forall_mem_nil _
  | cons r rs =>
    have htake := Worker.take_greeting hphase r
    rw [List.foldl_cons]
    apply Worker.fresh_takes rs (w.phase_take r)
    · rw [htake, hgateway, List.nil_append]
      exact hnodup.sublist ((List.sublist_cons_self r rs).filterMap _)
    · rw [htake, hsent, List.nil_append, Worker.told_greet]
      exact List.forall_mem_nil _

theorem Opened.head {l : Link} {asked : List Packet} (h : Opened l asked) (n : Nat) :
    ∀ r, ((asked.take n).map reading).head? = some r → r.entered = none := by
  intro r hr
  cases asked with
  | nil =>
    rw [List.take_nil] at hr
    nomatch hr
  | cons p asked =>
    cases n with
    | zero => nomatch hr
    | succ n =>
      have hp : reading p = r := Option.some.inj hr
      rw [← hp]
      exact if_neg (h.first p rfl)

/-- Two orders behind the login, and their answers. -/
def ordering : List LinkEvent :=
  loggingIn ++ [.grant 3, .grant 114, .grant 3, .grant 114, .request 0 (.place { price := 10 }),
    .request 0 (.place { explicitToken := ascii "T1" }), .carry 200, .turn, .carry 100, .turn, .deliver 200, .session .pollIo,
    .deliver 200, .session .pollIo]

theorem ordering_careful : AllAlong step Careful idle ordering := by
  rw [ordering, allAlong_append]
  refine ⟨loggingIn_careful, trivial, trivial, trivial, trivial, fun _ _ => by decide +kernel,
    fun _ _ => by decide +kernel, trivial, trivial, trivial, trivial, trivial, ?_⟩
  refine ⟨careful_session (by decide +kernel) ⟨trivial, trivial⟩, trivial, ?_⟩
  exact ⟨careful_session (by decide +kernel) ⟨trivial, trivial⟩, trivial⟩

/-- In every careful run, the orders are answered in the order in which they were
asked for, each with its own token and once; and all of them, once nothing is on
its way, unless the client has logged out. -/
theorem orders_answered_in_order {l : Link} (h : Fresh l) (events : List LinkEvent)
    (hrun : AllAlong step Careful l events) :
    let e := StreamKit.run step l events
    let answers := (Ouch.messages e.session.log).filterMap answeredToken
    let orders := (Ouch.requests e.session.log).filterMap orderedToken
    answers <+: orders ∧ (e.Settled → e.worker.phase ≠ .closed → answers = orders) := by
  obtain ⟨asked, n, m, hsound, hopened⟩ := h.sound.run_opened h.opened h.phase hrun
  dsimp only
  generalize StreamKit.run step l events = e at hsound hopened ⊢
  have horders : (Ouch.requests e.session.log).filterMap orderedToken =
      (asked.map reading).filterMap PayloadRead.entered := by
    rw [hsound.up.asks, orderedTokens_encode]
  have hbare := hsound.up.bare
  have hfirst := hopened.head n
  have hanswers := @answered_bare l.worker.bare h.phase (congrArg Worker.answers h.sent) _ hfirst
  rw [← hbare] at hanswers
  have htold : Worker.answered e.worker.bare.sent = Worker.answered e.worker.sent := by
    change (Worker.told (Worker.answers e.worker.sent)).filterMap answeredToken = _
    rw [Worker.told_answers]
    rfl
  rw [htold] at hanswers
  have hinOrder := hsound.inOrder h
  rw [horders]
  constructor
  · refine (hinOrder.messages.filterMap answeredToken).trans (hanswers.1.trans ?_)
    rw [List.map_take]
    exact (List.take_prefix n _).filterMap _
  · intro hsettled hopen
    have hall : n = asked.length := by
      have hnone : nextPacket e.worker.inbox = none := hsettled.taken.resolve_left hopen
      have hleft := hsound.up.left
      rw [hsettled.carried, List.drop_length, hsettled.outPending, List.append_nil, List.append_nil] at hleft
      exact hleft.done packets nextPacket_packet hnone
    have heq := hanswers.2 hopen
    rw [hall, List.take_length] at heq
    rw [(hinOrder.settled hsettled).2.2.2]
    exact heq

theorem orders_answered_in_order_ordering :
    let e := StreamKit.run step idle ordering
    let answers := (Ouch.messages e.session.log).filterMap answeredToken
    let orders := (Ouch.requests e.session.log).filterMap orderedToken
    answers <+: orders ∧ (e.Settled → e.worker.phase ≠ .closed → answers = orders) :=
  orders_answered_in_order idle_fresh ordering ordering_careful

/-- What a fresh client hands over under tokens that its registry keeps apart is
never refused as a duplicate by a gateway that has seen no order before. -/
theorem no_duplicate_refused {l : Link} (h : Fresh l) (hhanded : l.client.handed = []) (hseen : l.client.tokens.seen = [])
    (hgateway : l.worker.gateway.seenTokens = []) (events : List LinkEvent) (hrun : AllAlong step Careful l events)
    (hregistered : AllAlong step Registered l events) :
    ∀ x ∈ Ouch.messages (StreamKit.run step l events).session.log, ¬ RefusesDuplicate x := by
  obtain ⟨asked, n, m, hsound, hown⟩ := h.sound.run_own (own_nil hhanded hseen) hrun hregistered
  generalize StreamKit.run step l events = e at hsound hown ⊢
  have hnodup : (((asked.take n).map reading).filterMap PayloadRead.entered).Nodup := by
    rw [List.map_take]
    exact hown.nodup.sublist ((List.take_sublist n _).filterMap _)
  have hbare := @fresh_bare l.worker.bare h.phase (congrArg Worker.answers h.sent) hgateway _ hnodup
  rw [← hsound.up.bare] at hbare
  intro x hx
  have hinOrder := hsound.inOrder h
  apply hbare x
  change x ∈ Worker.told (Worker.answers e.worker.sent)
  rw [Worker.told_answers]
  exact hinOrder.messages.subset hx

theorem no_duplicate_refused_ordering :
    let e := StreamKit.run step idle ordering
    Ouch.messages e.session.log ≠ [] ∧ ∀ x ∈ Ouch.messages e.session.log, ¬ RefusesDuplicate x := by
  refine ⟨by decide +kernel, no_duplicate_refused idle_fresh rfl rfl rfl ordering ordering_careful ?_⟩
  have hsession : ∀ l : Link, ∀ op : OuchSession.Op, (∀ msg, op ≠ .send msg) → l.Registered (.session op) :=
    fun l op h => h
  have hlogin : AllAlong step Registered idle loggingIn :=
    ⟨trivial, hsession _ _ (fun msg => OuchSession.Op.noConfusion), trivial, trivial, trivial,
      hsession _ _ (fun msg => OuchSession.Op.noConfusion), trivial, trivial, trivial, trivial,
      hsession _ _ (fun msg => OuchSession.Op.noConfusion), trivial, trivial,
      hsession _ _ (fun msg => OuchSession.Op.noConfusion), trivial⟩
  rw [ordering, allAlong_append]
  refine ⟨hlogin, trivial, trivial, trivial, trivial, ?_, ?_, trivial, trivial, trivial, trivial, trivial,
    hsession _ _ (fun msg => OuchSession.Op.noConfusion), trivial, hsession _ _ (fun msg => OuchSession.Op.noConfusion), trivial⟩
  · intro _ t ht
    cases ht
    exact fun u hu => absurd hu List.not_mem_nil
  · intro _ t ht
    cases ht
    intro _ u hu
    have hseen : u = ascii "C-00000000001" := by
      have hall : ∀ u' ∈ (StreamKit.run step idle (ordering.take 19)).client.tokens.seen, u' = ascii "C-00000000001" := by decide +kernel
      exact hall u hu
    rw [hseen]
    decide

end Link

end BistColo.Mock
