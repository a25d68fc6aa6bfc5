import BistColo.Mock.Serving
/-!
# The handshake of a connection

`OuchMockGateway::run_loop` from the first packet on: `handle_login` answers a
login request, and the main loop follows whatever that answer was, and whether
or not the packet was a login request. `login_first_iff` says on which streams
a LoginAccepted still comes before every sequenced message.
-/

open StreamKit

namespace BistColo.Mock

open Soup Ouch

/-! ## Login -/

def usernameLen : Nat := 6
def passwordLen : Nat := 10

/-- What the gateway checks logins with. -/
structure LoginDesk where
  acceptedPassword : Bytes := ascii "123456"
  armDuplicateReject : Bool := false

namespace LoginDesk

/-- `send_login_accepted` -/
def loginAccepted : Packet :=
  Soup.loginAccepted ⟨ascii "MOCKSESS01", rfl⟩ ⟨List.replicate 19 48 ++ [49], rfl⟩

theorem reason_fits (reason : UInt8) : [reason].length ≤ 65534 := by simp

/-- `send_login_rejected` -/
def loginRejected (reason : UInt8) : Packet := ⟨Pkt.loginRejected, [reason], reason_fits reason⟩

/-- The password of a request, without the blanks behind it. -/
def password (payload : Bytes) : Bytes := ((payload.drop usernameLen).take passwordLen).rdropWhile (· = 32)

def handleLogin (d : LoginDesk) (payload : Bytes) : Packet × LoginDesk :=
  if payload.length < usernameLen + passwordLen then (loginRejected 65, d)
  else if d.armDuplicateReject then (loginRejected 83, { d with armDuplicateReject := false })
  else if password payload ≠ d.acceptedPassword then (loginRejected 65, d)
  else (loginAccepted, d)

/-- A request that is accepted. -/
def Accepts (d : LoginDesk) (payload : Bytes) : Prop :=
  usernameLen + passwordLen ≤ payload.length ∧ d.armDuplicateReject = false ∧ password payload = d.acceptedPassword

theorem handleLogin_accepts {d : LoginDesk} {payload : Bytes} (h : d.Accepts payload) :
    (d.handleLogin payload).1 = loginAccepted := by
  obtain ⟨hlength, harmed, hpassword⟩ := h
  rw [handleLogin, if_neg (by omega), if_neg (by simp [harmed]), if_neg (not_not_intro hpassword)]

theorem handleLogin_rejects {d : LoginDesk} {payload : Bytes} (h : ¬ d.Accepts payload) :
    ∃ reason, (d.handleLogin payload).1 = loginRejected reason := by
  unfold handleLogin
  split
  · exact ⟨65, rfl⟩
  · split
    · exact ⟨83, rfl⟩
    · split
      · exact ⟨65, rfl⟩
      · rename_i hlength harmed hpassword
        exact absurd ⟨Nat.not_lt.1 hlength, Bool.eq_false_iff.2 harmed, not_not.1 hpassword⟩ h

end LoginDesk

/-! ## A connection -/

/-- The answer to the first packet, if it is a login request. -/
def greet (d : LoginDesk) (r : PayloadRead) : List Packet × LoginDesk :=
  if r.header.packetType = Pkt.loginRequest then
    let login := d.handleLogin (r.bytes.getD [])
    ([login.1], login.2)
  else ([], d)

/-- What the gateway writes on a connection, its heartbeats apart, and what it
is afterwards. The main loop takes at most `turns` packets. -/
def connection (g : Gateway) (d : LoginDesk) (turns : Nat) (stream : Bytes) : List Packet × Gateway × LoginDesk :=
  match readPacket stream with
  | some (r, some stream) =>
    let greeting := greet d r
    let served := g.serve turns stream
    (greeting.1 ++ served.1, served.2, greeting.2)
  | some (_, none) | none => ([], g, d)

/-- A LoginAccepted comes before every sequenced message. -/
def LoginFirst (sent : List Packet) : Prop :=
  ∀ pre p post, sent = pre ++ p :: post → p.packetType = Pkt.sequencedData → ∃ q ∈ pre, q.packetType = Pkt.loginAccepted

/-- The first packet is a login request that the gateway accepts. -/
def LogsIn (d : LoginDesk) (stream : Bytes) : Prop :=
  ∃ r rest, readPacket stream = some (r, some rest) ∧ r.header.packetType = Pkt.loginRequest ∧ d.Accepts (r.bytes.getD [])

/-- The payloads of the unsequenced packets that the main loop takes. -/
def requests (turns : Nat) (stream : Bytes) : List Bytes :=
  (mainLoop turns stream).filterMap fun r => if r.header.packetType = Pkt.unsequencedData then r.bytes else none

/-- The requests behind the first packet. -/
def requestsOf (turns : Nat) (stream : Bytes) : List Bytes :=
  match readPacket stream with
  | some (_, some stream) => requests turns stream
  | some (_, none) | none => []

/-- A request of one of the five types that has the length of its type. -/
def Answerable (payload : Bytes) : Prop :=
  (payload.head? = some MsgType.enterOrder ∧ payload.length = 114) ∨
    (payload.head? = some MsgType.cancelOrder ∧ payload.length = 15) ∨
    (payload.head? = some MsgType.cancelByOrderId ∧ payload.length = 14) ∨
    (payload.head? = some MsgType.replaceOrder ∧ payload.length = 122) ∨
    (payload.head? = some MsgType.massQuote ∧ 50 + 28 ≤ payload.length ∧ (MassQuoteHeader.read payload).noQuoteEntries ≠ 0)

namespace Gateway

theorem enterOrder_answers (g : Gateway) (eo : EnterOrder) : (g.enterOrder eo).1 ≠ [] := by
  unfold enterOrder
  split
  · exact List.cons_ne_nil _ _
  · dsimp only
    split
    · exact List.cons_ne_nil _ _
    · exact List.cons_ne_nil _ _

theorem cancelOrder_answers (g : Gateway) (co : CancelOrder) : (g.cancelOrder co).1 ≠ [] := by
  unfold cancelOrder
  dsimp only
  split
  · exact List.cons_ne_nil _ _
  · exact List.cons_ne_nil _ _

theorem quoteEntries_answers (g : Gateway) (token : OrderToken) {es : List QuoteEntry} (h : es ≠ []) :
    (g.quoteEntries token es).1 ≠ [] := by
  obtain ⟨e, es, rfl⟩ := List.exists_cons_of_ne_nil h
  rw [quoteEntries]
  apply List.append_ne_nil_of_left_ne_nil
  unfold quoteEntry
  split
  · exact List.cons_ne_nil _ _
  · exact List.cons_ne_nil _ _

theorem massQuote_answers_iff (g : Gateway) (payload : Bytes) :
    (g.massQuote payload).1 ≠ [] ↔ (MassQuoteHeader.read payload).noQuoteEntries ≠ 0 := by
  have hquotes : (readMassQuote payload).2 = [] ↔ (MassQuoteHeader.read payload).noQuoteEntries = 0 := by
    rw [← UInt16.toNat_inj]
    simp [readMassQuote]
  constructor
  · intro hanswer hzero
    apply hanswer
    rw [massQuote]
    dsimp only
    rw [hquotes.2 hzero]
    rfl
  · intro hcount
    exact g.quoteEntries_answers _ (mt hquotes.1 hcount)

/-- Exactly the well-formed requests are answered. -/
theorem handlePayload_answers_iff (g : Gateway) (payload : Bytes) :
    (g.handlePayload payload).1 ≠ [] ↔ Answerable payload := by
  have hsized : ∀ (n : Nat) (r : List Reply × Gateway), r.1 ≠ [] →
      ((if payload.length ≠ n then ([], g) else r).1 ≠ [] ↔ payload.length = n) := by
    intro n r hr
    by_cases hlength : payload.length = n
    · simp [hlength, hr]
    · simp [hlength]
  unfold handlePayload Answerable
  cases hhead : payload.head? with
  | none => simp
  | some type =>
    simp only [Option.some.injEq]
    by_cases hplace : type = MsgType.enterOrder
    · rw [if_pos hplace, hsized 114 _ (g.enterOrder_answers _)]
      simp [hplace, MsgType.enterOrder, MsgType.cancelOrder, MsgType.cancelByOrderId, MsgType.replaceOrder, MsgType.massQuote]
    rw [if_neg hplace]
    by_cases hcancel : type = MsgType.cancelOrder
    · rw [if_pos hcancel, hsized 15 _ (g.cancelOrder_answers _)]
      simp [hcancel, MsgType.enterOrder, MsgType.cancelOrder, MsgType.cancelByOrderId, MsgType.replaceOrder, MsgType.massQuote]
    rw [if_neg hcancel]
    by_cases hid : type = MsgType.cancelByOrderId
    · rw [if_pos hid, hsized 14 _ (List.cons_ne_nil _ _)]
      simp [hid, MsgType.enterOrder, MsgType.cancelOrder, MsgType.cancelByOrderId, MsgType.replaceOrder, MsgType.massQuote]
    rw [if_neg hid]
    by_cases hreplace : type = MsgType.replaceOrder
    · rw [if_pos hreplace, hsized 122 _ (List.cons_ne_nil _ _)]
      simp [hreplace, MsgType.enterOrder, MsgType.cancelOrder, MsgType.cancelByOrderId, MsgType.replaceOrder, MsgType.massQuote]
    rw [if_neg hreplace]
    by_cases hquote : type = MsgType.massQuote
    · rw [if_pos hquote]
      simp only [hplace, hcancel, hid, hreplace, false_and, false_or]
      simp only [hquote, true_and]
      by_cases hshort : payload.length < 50 + 28
      · rw [if_pos hshort]
        simp [Nat.not_le.2 hshort]
      · rw [if_neg hshort]
        simp only [Nat.not_lt.1 hshort, true_and]
        exact g.massQuote_answers_iff payload
    · rw [if_neg hquote]
      simp [hplace, hcancel, hid, hreplace, hquote]

/-- The payload is there exactly if the loop gets behind it. -/
theorem readPacket_isSome {stream : Bytes} {r : PayloadRead} {rest : Option Bytes} (h : readPacket stream = some (r, rest)) :
    r.bytes.isSome = rest.isSome := by
  unfold readPacket at h
  split at h
  · cases h
  · dsimp only at h
    split at h
    · cases h
      rfl
    · split at h
      · cases h
        rfl
      · cases h
        rfl

theorem exists_sequenced (rs : List Reply) :
    (∃ p ∈ rs.map Reply.packet, p.packetType = Pkt.sequencedData) ↔ rs ≠ [] := by
  cases rs with
  | nil => simp
  | cons r rs =>
    refine iff_of_true ⟨r.packet, ?_, rfl⟩ (List.cons_ne_nil _ _)
    exact List.mem_cons_self

/-- The main loop writes a sequenced message exactly if it takes a request
that is to be answered. -/
theorem serve_sequenced_iff (g : Gateway) (turns : Nat) (stream : Bytes) :
    (∃ p ∈ (g.serve turns stream).1, p.packetType = Pkt.sequencedData) ↔ ∃ q ∈ requests turns stream, Answerable q := by
  induction turns generalizing g stream with
  | zero => simp [serve, requests, mainLoop]
  | succ turns ih =>
    unfold serve requests mainLoop
    cases hread : readPacket stream with
    | none => simp
    | some packet =>
      obtain ⟨r, rest⟩ := packet
      have hbytes := readPacket_isSome hread
      cases rest with
      | none =>
        rw [Option.isSome_none, Option.isSome_eq_false_iff, Option.isNone_iff_eq_none] at hbytes
        simp [hbytes]
      | some rest =>
        obtain ⟨payload, hpayload⟩ := Option.isSome_iff_exists.1 hbytes
        dsimp only
        by_cases hlogout : r.header.packetType = Pkt.logoutRequest
        · rw [if_pos hlogout, if_pos hlogout]
          simp [hlogout, endOfSession, Pkt.endOfSession, Pkt.sequencedData, Pkt.logoutRequest, Pkt.unsequencedData]
        rw [if_neg hlogout, if_neg hlogout]
        by_cases hrequest : r.header.packetType = Pkt.unsequencedData
        · rw [if_pos hrequest, hpayload, Option.getD_some, List.filterMap_cons, if_pos hrequest, hpayload]
          simp only [List.mem_append, or_and_right, exists_or, List.exists_mem_cons_iff]
          rw [exists_sequenced, g.handlePayload_answers_iff, ih]
          rfl
        · rw [if_neg hrequest, List.filterMap_cons, if_neg hrequest]
          exact ih g rest

theorem serve_types (g : Gateway) (turns : Nat) (stream : Bytes) :
    ∀ p ∈ (g.serve turns stream).1, p.packetType ≠ Pkt.loginAccepted := by
  induction turns generalizing g stream with
  | zero => nofun
  | succ turns ih =>
    unfold serve
    split
    · split
      · simp [endOfSession, Pkt.endOfSession, Pkt.loginAccepted]
      · split
        · intro p hp
          rcases List.mem_append.1 hp with hp | hp
          · obtain ⟨r, -, rfl⟩ := List.mem_map.1 hp
            exact of_decide_eq_true rfl
          · exact ih _ _ p hp
        · exact ih _ _
    · nofun
    · nofun

end Gateway

/-! ## The order of login and answers -/

theorem loginFirst_of_accepted {q : Packet} (hq : q.packetType = Pkt.loginAccepted) (sent : List Packet) :
    LoginFirst (q :: sent) := by
  intro pre p post hsent htype
  cases pre with
  | nil =>
    cases hsent
    rw [hq] at htype
    exact absurd htype (by decide)
  | cons q' pre =>
    cases hsent
    exact ⟨q, List.mem_cons_self, hq⟩

/-- Where no login is accepted, nothing may be answered. -/
theorem loginFirst_iff_of_none {sent : List Packet} (h : ∀ p ∈ sent, p.packetType ≠ Pkt.loginAccepted) :
    LoginFirst sent ↔ ¬ ∃ p ∈ sent, p.packetType = Pkt.sequencedData := by
  constructor
  · rintro hfirst ⟨p, hp, htype⟩
    obtain ⟨pre, post, rfl⟩ := List.append_of_mem hp
    obtain ⟨q, hq, haccepted⟩ := hfirst pre p post rfl htype
    exact h q (List.mem_append_left _ hq) haccepted
  · rintro hnone pre p post rfl htype
    exact absurd ⟨p, by simp, htype⟩ hnone

theorem greet_cases (d : LoginDesk) (r : PayloadRead) :
    (r.header.packetType = Pkt.loginRequest ∧ d.Accepts (r.bytes.getD []) ∧ (greet d r).1 = [LoginDesk.loginAccepted]) ∨
      (¬ (r.header.packetType = Pkt.loginRequest ∧ d.Accepts (r.bytes.getD [])) ∧
        ∀ p ∈ (greet d r).1, p.packetType = Pkt.loginRejected) := by
  unfold greet
  by_cases hlogin : r.header.packetType = Pkt.loginRequest
  · rw [if_pos hlogin]
    by_cases haccepts : d.Accepts (r.bytes.getD [])
    · refine .inl ⟨hlogin, haccepts, ?_⟩
      dsimp only
      rw [LoginDesk.handleLogin_accepts haccepts]
    · refine .inr ⟨fun hboth => haccepts hboth.2, ?_⟩
      obtain ⟨reason, hreason⟩ := LoginDesk.handleLogin_rejects haccepts
      intro p hp
      rw [List.mem_singleton.1 hp, hreason]
      rfl
  · rw [if_neg hlogin]
    exact .inr ⟨fun hboth => hlogin hboth.1, nofun⟩

/-- On every stream of a client, a LoginAccepted comes before all sequenced
messages if and only if the first packet logs in, or no request behind it is
one to answer. -/
theorem login_first_iff (g : Gateway) (d : LoginDesk) (turns : Nat) (stream : Bytes) :
    LoginFirst (connection g d turns stream).1 ↔
      LogsIn d stream ∨ ∀ q ∈ requestsOf turns stream, ¬ Answerable q := by
  have hempty : LoginFirst [] := fun pre p post hsent => absurd hsent (by simp)
  unfold connection LogsIn requestsOf
  cases hread : readPacket stream with
  | none => exact iff_of_true hempty (.inr nofun)
  | some packet =>
    obtain ⟨r, rest⟩ := packet
    cases rest with
    | none => exact iff_of_true hempty (.inr nofun)
    | some rest =>
      dsimp only
      rcases greet_cases d r with ⟨hlogin, haccepts, hgreet⟩ | ⟨hno, hrejected⟩
      · refine iff_of_true ?_ (.inl ⟨r, rest, rfl, hlogin, haccepts⟩)
        rw [hgreet]
        exact loginFirst_of_accepted rfl _
      · have hnone : ∀ p ∈ (greet d r).1 ++ (g.serve turns rest).1, p.packetType ≠ Pkt.loginAccepted := by
          intro p hp
          rcases List.mem_append.1 hp with hp | hp
          · rw [hrejected p hp]
            decide
          · exact g.serve_types turns rest p hp
        have hsequenced : (∃ p ∈ (greet d r).1 ++ (g.serve turns rest).1, p.packetType = Pkt.sequencedData) ↔
            ∃ q ∈ requests turns rest, Answerable q := by
          rw [← g.serve_sequenced_iff turns rest]
          constructor
          · rintro ⟨p, hp, htype⟩
            rcases List.mem_append.1 hp with hp | hp
            · rw [hrejected p hp] at htype
              exact absurd htype (by decide)
            · exact ⟨p, hp, htype⟩
          · rintro ⟨p, hp, htype⟩
            exact ⟨p, List.mem_append_right _ hp, htype⟩
        rw [loginFirst_iff_of_none hnone, hsequenced, not_exists]
        simp only [not_and]
        constructor
        · exact .inr
        · rintro (⟨r', rest', heq, hlogin, haccepts⟩ | hquiet)
          · cases heq
            exact absurd ⟨hlogin, haccepts⟩ hno
          · exact hquiet

/-- A login with the password `123457`, and an order. -/
def wrongPassword : Bytes :=
  (Packet.encode ⟨Pkt.loginRequest, ascii "OUCH01123457    " ++ List.replicate 30 32, by decide⟩) ++
    (Gateway.unsequenced (Gateway.orderOf (OrderToken.ofText (ascii "1"))).bytes (by decide)).encode

/-- The login is rejected, and the order is accepted. -/
theorem order_without_login : ¬ ∀ (g : Gateway) (d : LoginDesk) (turns : Nat) (stream : Bytes),
    LoginFirst (connection g d turns stream).1 := by
  intro h
  have hfirst := h { wallNs := ⟨fun _ => 0, 0⟩ } {} 1 wrongPassword
  have htypes : (connection { wallNs := ⟨fun _ => 0, 0⟩ } {} 1 wrongPassword).1.map Packet.packetType =
      [Pkt.loginRejected, Pkt.sequencedData] := by decide +kernel
  obtain ⟨rejected, rest, hsent, hrejected, hrest⟩ := List.map_eq_cons_iff.1 htypes
  obtain ⟨accepted, rest, rfl, haccepted, hrest⟩ := List.map_eq_cons_iff.1 hrest
  obtain ⟨q, hq, hlogin⟩ := hfirst [rejected] accepted rest hsent haccepted
  rw [List.mem_singleton.1 hq, hrejected] at hlogin
  exact absurd hlogin (by decide)

end BistColo.Mock
