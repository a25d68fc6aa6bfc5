import BistColo.Fix.Sessions
/-!
# Over QuickFIX

The sessions of applications and acceptor with QuickFIX between them as a
parameter: which message an application is given next, by all that happened on
the way to it. It is asked to carry plain texts unchanged, in order and once, and
to lose what is under way at a reset only (`QuickFix.Carries`). Then it carries as
the links of `Sessions` do (`Carried.step`), and `reports_in_order` says that no
request is reported twice or in another's place.
-/

open StreamKit

namespace BistColo.Fix

/-! ## Plain texts -/

/-- A text that a FIX field can have: not empty, and without a SOH. -/
def PlainText (text : Bytes) : Prop := text ≠ [] ∧ 1 ∉ text

instance (text : Bytes) : Decidable (PlainText text) := inferInstanceAs (Decidable (_ ∧ _))

theorem plain_nonEmpty {text value : Bytes} (h : 1 ∉ text) (hvalue : nonEmpty text = some value) : PlainText value := by
  unfold nonEmpty at hvalue
  split at hvalue
  · cases hvalue
  · rename_i hne
    cases hvalue
    exact ⟨hne, h⟩

theorem plain_id {pre : Bytes} (hpre : PlainText pre) (n : Nat) : PlainText (pre ++ decText n) := by
  refine ⟨List.append_ne_nil_of_left_ne_nil hpre.1 _, ?_⟩
  rw [List.mem_append, not_or]
  exact ⟨hpre.2, fun h => absurd (isDigit_decText n 1 h) (by decide)⟩

def PlainFields (fields : FieldMap) : Prop := ∀ tag text, fields tag = some text → PlainText text

theorem plain_noFields : PlainFields fun _ => none := fun _ _ h => by cases h

theorem plain_update {fields : FieldMap} (h : PlainFields fields) {tag : Tag} {text : Bytes} (htext : PlainText text) :
    PlainFields (Function.update fields tag (some text)) := by
  intro t value hvalue
  rw [Function.update_apply] at hvalue
  split at hvalue
  · cases hvalue
    exact htext
  · exact h t value hvalue

namespace Message

structure Plain (m : Message) : Prop where
  fields : PlainFields m.fields
  groups : ∀ g ∈ m.groups, PlainFields g.2

theorem plain_empty (t : MsgType) : Plain { msgType := t } := ⟨plain_noFields, fun _ hg => absurd hg List.not_mem_nil⟩

variable {m : Message}

theorem Plain.set (h : m.Plain) (tag : Tag) {text : Bytes} (htext : PlainText text) : (m.set tag text).Plain :=
  ⟨plain_update h.fields htext, h.groups⟩

theorem Plain.setIf (h : m.Plain) (tag : Tag) {value : Option Bytes} (hvalue : ∀ text, value = some text → PlainText text) :
    (m.setIf tag value).Plain := by
  cases value with
  | none => exact h
  | some text => exact h.set tag (hvalue text rfl)

theorem Plain.addGroup (h : m.Plain) (tag : Tag) {fields : FieldMap} (hfields : PlainFields fields) :
    (m.addGroup tag fields).Plain := by
  refine ⟨h.fields, ?_⟩
  intro g hg
  rcases List.mem_append.1 hg with hg | hg
  · exact h.groups g hg
  · rwa [List.mem_singleton.1 hg]

theorem Plain.addParty (h : m.Plain) {id : Bytes} (hid : 1 ∉ id) {role : Nat} (hrole : PlainText (decText role)) :
    (addParty m id role).Plain := by
  unfold BistColo.Fix.addParty
  split
  · exact h
  · rename_i hne
    refine h.addGroup _ (plain_update (plain_update (plain_update plain_noFields ⟨hne, hid⟩) ?_) hrole)
    decide

end Message

open Message

/-! ## Requests -/

/-- The texts of a request are plain, those that are left out apart. -/
def Request.Plain : Request → Prop
  | place a => PlainText a.clOrdId ∧ PlainText a.symbol ∧ 1 ∉ a.account ∧ 1 ∉ a.afk
  | cancel a => PlainText a.clOrdId ∧ PlainText a.origClOrdId ∧ PlainText a.symbol
  | replace a => PlainText a.clOrdId ∧ PlainText a.origClOrdId ∧ PlainText a.symbol
  | tradeReport a => PlainText a.tradeReportId ∧ 1 ∉ a.tradeReportRefId ∧ PlainText a.symbol ∧ 1 ∉ a.counterpartyId
  | subscribeAll applReqId => PlainText applReqId

/-- The texts of doubles are plain. -/
def Doubles.Plain (D : Doubles) : Prop := ∀ x, PlainText (D.convert x)

theorem plain_side (s : Side) : PlainText [fixSide s] := by cases s <;> decide

theorem plain_ordType (t : OrdType) : PlainText [fixOrdType t] := by cases t <;> decide

theorem plain_tif (t : TimeInForce) : PlainText [fixTif t] := by cases t <;> decide

section Plain

variable {D : Doubles}

theorem plain_ite (hD : D.Plain) {c : Prop} [Decidable c] {x : D.Double} {text : Bytes}
    (h : (if c then some (D.convert x) else none) = some text) : PlainText text := by
  split at h
  · cases h
    exact hD x
  · cases h

theorem plain_message (hD : D.Plain) {r : Request} (h : r.Plain) : (r.message D).Plain := by
  cases r with
  | place a =>
    obtain ⟨hcl, hsymbol, haccount, hafk⟩ := h
    have hhead := ((plain_empty .newOrderSingle).set .clOrdId hcl).set .symbol hsymbol
    refine Plain.addParty (.setIf (.setIf (.set (.setIf (.set (.set (.set hhead _ ?_) _ ?_) _ ?_) _ ?_) _ ?_) _ ?_) _ ?_)
      hafk (by decide)
    · exact plain_side a.side
    · exact hD _
    · exact plain_ordType a.ordType
    · exact fun _ => plain_ite hD
    · exact plain_tif a.tif
    · exact fun _ => plain_nonEmpty haccount
    · exact fun _ => plain_ite hD
  | cancel a =>
    obtain ⟨hcl, horig, hsymbol⟩ := h
    have hhead := (((plain_empty .orderCancelRequest).set .clOrdId hcl).set .origClOrdId horig).set .symbol hsymbol
    exact (hhead.set .side (plain_side a.side)).set .orderQty (hD _)
  | replace a =>
    obtain ⟨hcl, horig, hsymbol⟩ := h
    have hhead := (((plain_empty .orderCancelReplaceRequest).set .clOrdId hcl).set .origClOrdId horig).set .symbol hsymbol
    refine Plain.setIf (.set (.set (.set hhead _ (plain_side a.side)) _ ?_) _ ?_) _ ?_
    · exact hD _
    · exact plain_ordType a.ordType
    · exact fun _ => plain_ite hD
  | tradeReport a =>
    obtain ⟨hid, href, hsymbol, hparty⟩ := h
    have hfirst := (plain_empty .tradeCaptureReport).set .tradeReportId hid
    refine Plain.addParty (.addGroup (.set (.set (.set (.setIf hfirst _ ?_) _ hsymbol) _ ?_) _ ?_) _ ?_) hparty (by decide)
    · exact fun _ => plain_nonEmpty href
    · exact hD _
    · exact hD _
    · exact plain_update plain_noFields (plain_side a.side)
  | subscribeAll applReqId =>
    exact ((plain_empty .applicationMessageRequest).set .applReqId h).set .applReqType (by decide)

/-! ## Answers -/

theorem plain_copyBasic {src dst : Message} (hsrc : src.Plain) (hdst : dst.Plain) : (copyBasic src dst).Plain :=
  (((hdst.setIf _ (hsrc.fields _)).setIf _ (hsrc.fields _)).setIf _ (hsrc.fields _)).setIf _ (hsrc.fields _)

theorem plain_execution (hD : D.Plain) (app : AcceptorMockApp) {m : Message} (h : m.Plain) {execType ordStatus : UInt8}
    (hexec : PlainText [execType]) (hstatus : PlainText [ordStatus]) (leaves : D.Double) :
    (app.execution D m execType ordStatus leaves).1.Plain := by
  have hbasic := plain_copyBasic h (plain_empty .executionReport)
  refine Plain.set (.set (.set (.set (.set (.set (.set hbasic _ ?_) _ ?_) _ hexec) _ hstatus) _ ?_) _ ?_) _ ?_
  · exact plain_id (by decide) _
  · exact plain_id (by decide) _
  · exact hD _
  · exact hD _
  · exact hD _

/-- The acceptor answers plain messages with plain ones. -/
theorem plain_fromApp (hD : D.Plain) (app : AcceptorMockApp) (s : Bytes) {m answer : Message} (h : m.Plain)
    (hanswer : (app.fromApp D s m).1 = some answer) : answer.Plain := by
  unfold AcceptorMockApp.fromApp at hanswer
  cases htype : m.msgType with
  | newOrderSingle =>
    rw [htype] at hanswer
    cases hanswer
    have hplain : (app.execution D m 48 48 (AcceptorMockApp.orderQty D m)).1.Plain :=
      plain_execution hD app h (by decide) (by decide) _
    unfold AcceptorMockApp.onNewOrderSingle
    dsimp only
    split
    · exact (hplain.set .trdType (by decide)).set .text (by decide +kernel)
    · exact hplain
  | orderCancelRequest =>
    rw [htype] at hanswer
    cases hanswer
    exact plain_execution hD app h (by decide) (by decide) _
  | orderCancelReplaceRequest =>
    rw [htype] at hanswer
    cases hanswer
    exact plain_execution hD app h (by decide) (by decide) _
  | tradeCaptureReport =>
    rw [htype] at hanswer
    cases hanswer
    exact (((plain_empty .tradeCaptureReportAck).setIf _ (h.fields _)).setIf _ (h.fields _)).set .trdRptStatus (by decide)
  | applicationMessageRequest =>
    rw [htype] at hanswer
    cases hanswer
    have hresponse : PlainText (app.onApplicationMessageRequest s ((m.fields .applReqId).getD [])).1.applResponseId :=
      plain_id (by decide : PlainText (ascii "AR")) _
    have hid : ∀ text, (app.onApplicationMessageRequest s ((m.fields .applReqId).getD [])).1.applReqId = some text →
        PlainText text := by
      intro text htext
      cases hfield : m.fields .applReqId with
      | none =>
        rw [hfield] at htext
        cases htext
      | some id =>
        have hplain := h.fields _ _ hfield
        rw [hfield] at htext
        have hsome : (if id = [] then none else some id) = some text := htext
        rw [if_neg hplain.1] at hsome
        cases hsome
        exact hplain
    refine ((((plain_empty .applicationMessageRequestAck).set _ hresponse).setIf _ hid).set .applResponseType ?_).set .text ?_
    · rw [AcceptorMockApp.onApplicationMessageRequest]
      dsimp only
      split <;> decide
    · rw [AcceptorMockApp.onApplicationMessageRequest]
      dsimp only
      split <;> decide +kernel
  | executionReport | tradeCaptureReportAck | applicationMessageRequestAck =>
    rw [htype] at hanswer
    cases hanswer

end Plain

/-! ## QuickFIX -/

/-- What happens on the way from one end of a session to the other. -/
inductive LineEvent
  | reset
  | sent (m : Message)
  | received

/-- What the application at the other end is given next, by what happened before. -/
structure QuickFix where
  toAcceptor : Session → List LineEvent → Option Message
  toClient : Session → List LineEvent → Option Message

def lineStep (l : List Message × Bool) : LineEvent → List Message × Bool
  | .reset => ([], l.2 && l.1.isEmpty)
  | .sent m => (l.1 ++ [m], l.2)
  | .received => (l.1.tail, l.2)

/-- The messages under way, in their order, and whether no reset has lost one. -/
def line (history : List LineEvent) : List Message × Bool := history.foldl lineStep ([], true)

theorem line_append (history more : List LineEvent) : line (history ++ more) = more.foldl lineStep (line history) :=
  List.foldl_append

/-- Plain messages are carried unchanged, in order and once, up to a reset. -/
structure QuickFix.Carries (Q : QuickFix) : Prop where
  toAcceptor : ∀ s history, (∀ m, .sent m ∈ history → m.Plain) → Q.toAcceptor s history = (line history).1.head?
  toClient : ∀ s history, (∀ m, .sent m ∈ history → m.Plain) → Q.toClient s history = (line history).1.head?

structure Wired where
  acceptor : AcceptorMockApp := {}
  bound : Session → Bool := fun _ => false
  out : Session → List LineEvent := fun _ => []
  back : Session → List LineEvent := fun _ => []
  taken : Session → List Message := fun _ => []
  /-- The requests whose calls have returned their ids. -/
  requests : Session → List Request := fun _ => []

namespace Wired

variable (Q : QuickFix) (D : Doubles) (known : Session → Bool)

def logon (w : Wired) (s : Session) : Wired :=
  { w with
    acceptor := w.acceptor.onLogon s.2
    bound := Function.update w.bound s true
    out := Function.update w.out s (w.out s ++ [.reset])
    back := Function.update w.back s (w.back s ++ [.reset]) }

/-- A call on a session of the application that has it. -/
def call (w : Wired) (s : Session) (r : Request) : Wired :=
  if r.client = s.1 then
    match r.submit (w.bound s) (known s) with
    | .error _ => w
    | .ok _ =>
      { w with
        out := Function.update w.out s (w.out s ++ [.sent (r.message D)])
        requests := Function.update w.requests s (w.requests s ++ [r]) }
  else w

def serve (w : Wired) (s : Session) : Wired :=
  match Q.toAcceptor s (w.out s) with
  | none => w
  | some m =>
    let p := w.acceptor.fromApp D s.2 m
    { w with
      acceptor := p.2
      out := Function.update w.out s (w.out s ++ [.received])
      back := Function.update w.back s (w.back s ++ p.1.toList.map .sent) }

def deliver (w : Wired) (s : Session) : Wired :=
  match Q.toClient s (w.back s) with
  | none => w
  | some m =>
    { w with
      back := Function.update w.back s (w.back s ++ [.received])
      taken := Function.update w.taken s (w.taken s ++ [m]) }

def step (w : Wired) : SessionEvent → Wired
  | .logon s => w.logon s
  | .logout s => { w with acceptor := w.acceptor.onLogout s.2 }
  | .call s r => w.call D known s r
  | .serve s => w.serve Q D s
  | .deliver s => w.deliver Q s

/-! ## The links of the sessions -/

variable {Q D known}

/-- A link holds what is under way in the two directions. -/
structure Holds (link : Exchange Message Message) (out back : List LineEvent) (taken : List Message) : Prop where
  outbound : link.outbound = (line out).1
  inbound : link.inbound = (line back).1
  taken : link.taken = taken
  intact : link.intact = ((line out).2 && (line back).2)

/-- The wired sessions are the linked ones, and only plain messages are sent. -/
structure Carried (w : Wired) (v : Sessions) : Prop where
  acceptor : v.acceptor = w.acceptor
  bound : v.bound = w.bound
  requests : v.requests = w.requests
  link : ∀ s, Holds (v.links s) (w.out s) (w.back s) (w.taken s)
  plainOut : ∀ s m, .sent m ∈ w.out s → m.Plain
  plainBack : ∀ s m, .sent m ∈ w.back s → m.Plain

theorem carried_empty : Carried {} {} := ⟨rfl, rfl, rfl, fun _ => ⟨rfl, rfl, rfl, rfl⟩, fun _ => nofun, fun _ => nofun⟩

/-- Of a direction that has gone on, the messages are still plain. -/
theorem plain_more {history : Session → List LineEvent} (h : ∀ s m, .sent m ∈ history s → m.Plain) (s : Session)
    {more : List LineEvent} (hmore : ∀ m, .sent m ∈ more → m.Plain) :
    ∀ t m, .sent m ∈ Function.update history s (history s ++ more) t → m.Plain := by
  intro t m hm
  rw [Function.update_apply] at hm
  split at hm
  · exact (List.mem_append.1 hm).elim (h s m) (hmore m)
  · exact h t m hm

theorem holds_update {links : Session → Exchange Message Message} {out back : Session → List LineEvent}
    {taken : Session → List Message} (h : ∀ s, Holds (links s) (out s) (back s) (taken s)) (s : Session)
    {link : Exchange Message Message} {o b : List LineEvent} {k : List Message} (hlink : Holds link o b k) (t : Session) :
    Holds (Function.update links s link t) (Function.update out s o t) (Function.update back s b t)
      (Function.update taken s k t) := by
  by_cases hts : t = s
  · subst hts
    rw [Function.update_self, Function.update_self, Function.update_self, Function.update_self]
    exact hlink
  · rw [Function.update_of_ne hts, Function.update_of_ne hts, Function.update_of_ne hts, Function.update_of_ne hts]
    exact h t

section Holds

variable {link : Exchange Message Message} {out back : List LineEvent} {taken : List Message}

theorem Holds.reset (h : Holds link out back taken) : Holds link.reset (out ++ [.reset]) (back ++ [.reset]) taken := by
  refine ⟨?_, ?_, h.taken, ?_⟩
  · rw [line_append]
    rfl
  · rw [line_append]
    rfl
  · rw [line_append, line_append]
    change (link.intact && link.outbound.isEmpty && link.inbound.isEmpty) =
      (((line out).2 && (line out).1.isEmpty) && ((line back).2 && (line back).1.isEmpty))
    rw [h.intact, h.outbound, h.inbound]
    ac_rfl

theorem Holds.send (h : Holds link out back taken) (m : Message) : Holds (link.send m) (out ++ [.sent m]) back taken := by
  refine ⟨?_, h.inbound, h.taken, ?_⟩
  · rw [line_append]
    exact congrArg (· ++ [m]) h.outbound
  · rw [line_append]
    exact h.intact

theorem Holds.answer (h : Holds link out back taken) (a : Option Message) :
    Holds (link.answer a) (out ++ [.received]) (back ++ a.toList.map .sent) taken := by
  have hback : line (back ++ a.toList.map .sent) = ((line back).1 ++ a.toList, (line back).2) := by
    rw [line_append]
    cases a with
    | none => rw [Option.toList_none, List.map_nil, List.append_nil, List.foldl_nil]
    | some a => rfl
  refine ⟨?_, ?_, h.taken, ?_⟩
  · rw [line_append]
    exact congrArg List.tail h.outbound
  · rw [hback]
    exact congrArg (· ++ a.toList) h.inbound
  · rw [line_append, hback]
    exact h.intact

theorem Holds.take (h : Holds link out back taken) {m : Message} {rest : List Message} (hnext : link.inbound = m :: rest) :
    Holds link.take out (back ++ [.received]) (taken ++ [m]) := by
  refine ⟨h.outbound, ?_, ?_, ?_⟩
  · rw [line_append]
    exact congrArg List.tail h.inbound
  · rw [Exchange.take, hnext, h.taken]
    rfl
  · rw [line_append]
    exact h.intact

theorem Holds.take_nothing (h : Holds link out back taken) (hnext : link.inbound = []) : Holds link.take out back taken := by
  refine ⟨h.outbound, ?_, ?_, h.intact⟩
  · rw [← h.inbound, Exchange.take, hnext]
    rfl
  · rw [Exchange.take, hnext, h.taken]
    exact List.append_nil _

end Holds

theorem mem_line {m : Message} {history : List LineEvent} (h : m ∈ (line history).1) : .sent m ∈ history := by
  induction history using List.reverseRecOn with
  | nil => cases h
  | append_singleton history e ih =>
    rw [line_append] at h
    cases e with
    | reset => cases h
    | sent m' =>
      rcases List.mem_append.1 h with h | h
      · exact List.mem_append_left _ (ih h)
      · rw [List.mem_singleton.1 h]
        exact List.mem_append_right _ List.mem_cons_self
    | received => exact List.mem_append_left _ (ih (List.mem_of_mem_tail h))

section Carried

variable {w : Wired} {v : Sessions}

theorem Carried.logon (h : Carried w v) (s : Session) : Carried (w.logon s) (v.logon s) := by
  have hreset : ∀ m, LineEvent.sent m ∈ [LineEvent.reset] → m.Plain := fun m hm => by cases List.mem_singleton.1 hm
  refine ⟨congrArg (AcceptorMockApp.onLogon · s.2) h.acceptor, ?_, h.requests, ?_, plain_more h.plainOut s hreset,
    plain_more h.plainBack s hreset⟩
  · exact congrArg (Function.update · s true) h.bound
  · intro t
    have hlink := holds_update h.link s (h.link s).reset t
    rwa [Function.update_eq_self s w.taken] at hlink

theorem Carried.call (h : Carried w v) (s : Session) {r : Request} (hr : (r.message D).Plain) :
    Carried (w.call D known s r) (v.call D known s r) := by
  unfold Wired.call Sessions.call
  rw [h.bound]
  by_cases hclient : r.client = s.1
  · rw [if_pos hclient, if_pos hclient]
    cases r.submit (w.bound s) (known s) with
    | error e => exact h
    | ok id =>
      dsimp only
      refine ⟨h.acceptor, rfl, ?_, ?_, plain_more h.plainOut s ?_, h.plainBack⟩
      · exact congrArg (fun requests => Function.update requests s (requests s ++ [r])) h.requests
      · intro t
        have hlink := holds_update h.link s ((h.link s).send (r.message D)) t
        rwa [Function.update_eq_self s w.back, Function.update_eq_self s w.taken] at hlink
      · intro m hm
        cases List.mem_singleton.1 hm
        exact hr
  · rw [if_neg hclient, if_neg hclient]
    exact h

theorem Carried.serve (hQ : Q.Carries) (hD : D.Plain) (h : Carried w v) (s : Session) :
    Carried (w.serve Q D s) (v.serve D s) := by
  have hnext : Q.toAcceptor s (w.out s) = (v.links s).outbound.head? := by
    rw [hQ.toAcceptor s _ (h.plainOut s), (h.link s).outbound]
  unfold Wired.serve Sessions.serve
  rw [hnext]
  cases hout : (v.links s).outbound with
  | nil => exact h
  | cons m rest =>
    have hm : m.Plain := by
      refine h.plainOut s m (mem_line ?_)
      rw [← (h.link s).outbound, hout]
      exact List.mem_cons_self
    rw [h.acceptor]
    dsimp only [List.head?_cons]
    refine ⟨rfl, h.bound, h.requests, ?_, plain_more h.plainOut s ?_, plain_more h.plainBack s ?_⟩
    · intro t
      have hlink := holds_update h.link s ((h.link s).answer (w.acceptor.fromApp D s.2 m).1) t
      rwa [Function.update_eq_self s w.taken] at hlink
    · exact fun m' hm' => by cases List.mem_singleton.1 hm'
    · intro answer hanswer
      obtain ⟨a, ha, heq⟩ := List.mem_map.1 hanswer
      cases heq
      exact plain_fromApp hD w.acceptor s.2 hm (Option.mem_toList.1 ha)

theorem Carried.deliver (hQ : Q.Carries) (h : Carried w v) (s : Session) :
    Carried (w.deliver Q s) (v.withLink s (v.links s).take) := by
  have hnext : Q.toClient s (w.back s) = (v.links s).inbound.head? := by
    rw [hQ.toClient s _ (h.plainBack s), (h.link s).inbound]
  unfold Wired.deliver
  rw [hnext]
  cases hin : (v.links s).inbound with
  | nil =>
    refine ⟨h.acceptor, h.bound, h.requests, ?_, h.plainOut, h.plainBack⟩
    intro t
    have hlink := holds_update h.link s ((h.link s).take_nothing hin) t
    rwa [Function.update_eq_self s w.out, Function.update_eq_self s w.back, Function.update_eq_self s w.taken] at hlink
  | cons m rest =>
    dsimp only [List.head?_cons]
    refine ⟨h.acceptor, h.bound, h.requests, ?_, h.plainOut, plain_more h.plainBack s ?_⟩
    · intro t
      have hlink := holds_update h.link s ((h.link s).take hin) t
      rwa [Function.update_eq_self s w.out] at hlink
    · exact fun m' hm' => by cases List.mem_singleton.1 hm'

theorem Carried.step (hQ : Q.Carries) (hD : D.Plain) (h : Carried w v) {e : SessionEvent}
    (he : ∀ s r, e = .call s r → r.Plain) : Carried (w.step Q D known e) (v.step D known e) := by
  cases e with
  | logon s => exact h.logon s
  | logout s =>
    exact ⟨congrArg (AcceptorMockApp.onLogout · s.2) h.acceptor, h.bound, h.requests, h.link, h.plainOut, h.plainBack⟩
  | call s r => exact h.call s (plain_message hD (he s r rfl))
  | serve s => exact h.serve hQ hD s
  | deliver s => exact h.deliver hQ s

theorem Carried.run (hQ : Q.Carries) (hD : D.Plain) (h : Carried w v) {es : List SessionEvent}
    (hes : ∀ s r, .call s r ∈ es → r.Plain) :
    Carried (StreamKit.run (Wired.step Q D known) w es) (StreamKit.run (Sessions.step D known) v es) := by
  induction es generalizing w v with
  | nil => exact h
  | cons e es ih =>
    refine ih (h.step hQ hD ?_) fun s r hmem => hes s r (List.mem_cons_of_mem e hmem)
    rintro s r rfl
    exact hes s r List.mem_cons_self

end Carried

/-- Where QuickFIX carries plain texts in order and once: the answers that an
application has taken report some of its requests, in their order and none twice;
and all of them when no logon has lost a message and none is under way. -/
theorem reports_in_order {Q : QuickFix} (hQ : Q.Carries) {D : Doubles} (hD : D.Plain) (known : Session → Bool)
    (es : List SessionEvent) (hes : ∀ s r, .call s r ∈ es → r.Plain) (s : Session) :
    let w := StreamKit.run (step Q D known) {} es
    ∃ answered, answered.Sublist (w.requests s) ∧
      List.Forall₂ (fun r m => Reports D r (received D s.1 m)) answered (w.taken s) ∧
      (line (w.out s) = ([], true) → line (w.back s) = ([], true) → answered = w.requests s) := by
  have h : Carried (StreamKit.run (step Q D known) {} es) (StreamKit.run (Sessions.step D known) {} es) :=
    carried_empty.run hQ hD hes
  obtain ⟨answered, hsub, hreports, hall⟩ := Sessions.links_in_order D known es s
  have hlink := h.link s
  rw [h.requests] at hsub hall
  rw [hlink.taken] at hreports
  refine ⟨answered, hsub, hreports, ?_⟩
  intro hout hback
  refine hall ?_ ⟨?_, ?_⟩
  · rw [hlink.intact, hout, hback]
    rfl
  · rw [hlink.outbound, hout]
  · rw [hlink.inbound, hback]

/-- A QuickFIX that loses nothing but at a reset. -/
def quickFix : QuickFix where
  toAcceptor _ history := (line history).1.head?
  toClient _ history := (line history).1.head?

theorem quickFix_carries : quickFix.Carries := ⟨fun _ _ _ => rfl, fun _ _ _ => rfl⟩

theorem wholeDoubles_plain : Sessions.wholeDoubles.Plain := by
  intro x
  refine ⟨by simp [Sessions.wholeDoubles, decText], ?_⟩
  exact fun h => absurd (isDigit_decText _ 1 h) (by decide)

/-- The order of the two sessions is answered and its answer taken. -/
theorem reports_in_order_twoSessions :
    let w := StreamKit.run (step quickFix Sessions.wholeDoubles fun _ => true) {} Sessions.twoSessions
    (w.taken (.oe, [79])).length = 1 ∧
      ∃ answered, answered.Sublist (w.requests (.oe, [79])) ∧
        List.Forall₂ (fun r m => Reports Sessions.wholeDoubles r (received Sessions.wholeDoubles .oe m)) answered
          (w.taken (.oe, [79])) ∧
        (line (w.out (.oe, [79])) = ([], true) → line (w.back (.oe, [79])) = ([], true) →
          answered = w.requests (.oe, [79])) := by
  refine ⟨rfl, reports_in_order quickFix_carries wholeDoubles_plain (fun _ => true) Sessions.twoSessions ?_ (.oe, [79])⟩
  intro s r h
  simp only [Sessions.twoSessions, List.mem_cons, List.not_mem_nil, or_false, reduceCtorEq, false_or,
    SessionEvent.call.injEq] at h
  rcases h with ⟨-, rfl⟩ | ⟨-, rfl⟩
  · exact ⟨by decide, by decide +kernel, by decide, by decide⟩
  · exact (by decide : PlainText [65])

end Wired

end BistColo.Fix
