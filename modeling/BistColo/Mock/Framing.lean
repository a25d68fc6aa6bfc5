import BistColo.Mock.Handshake
import BistColo.Mock.Quotes
/-!
# What the gateway reads of a packet

`run_loop` of `mock/ouch_gateway.cpp` with the bytes that `handle_login` and
`handle_unsequenced_payload` read of the payloads they get. Both work on a
pointer, so `handleUnsequencedPayload` is told the memory behind it; where no
read leaves the payload it is `handlePayload` (`handleUnsequencedPayload_eq`).
`framing_safe_iff` puts the gateway and the session side by side: both get the
length of a payload wrong for a length field of zero only, and the gateway alone
reads behind a payload, for a mass quote that counts too many entries.
-/

open StreamKit

namespace BistColo.Mock

open Soup Ouch OuchSession

/-! ## Reads -/

/-- What `handle_login` reads, if the length and the armed reject let it. -/
def LoginDesk.reads (d : LoginDesk) (len : Nat) : List (Nat × Nat) :=
  if len < usernameLen + passwordLen ∨ d.armDuplicateReject = true then [] else [(usernameLen, passwordLen)]

/-- Nothing but the ranges in `reads` decides about a login. -/
theorem LoginDesk.handleLogin_congr (d : LoginDesk) {payload payload' : Bytes} (hlen : payload.length = payload'.length)
    (h : AgreeOn (d.reads payload.length) payload payload') : d.handleLogin payload = d.handleLogin payload' := by
  unfold handleLogin
  rw [← hlen]
  by_cases hshort : payload.length < usernameLen + passwordLen
  · rw [if_pos hshort, if_pos hshort]
  · rw [if_neg hshort, if_neg hshort]
    by_cases harmed : d.armDuplicateReject = true
    · rw [if_pos harmed, if_pos harmed]
    · have hpassword : password payload = password payload' := by
        have hread := h (usernameLen, passwordLen) (by simp [reads, hshort, harmed])
        rw [peek_inside (by omega), peek_inside (by omega)] at hread
        exact congrArg (List.rdropWhile fun c => decide (c = 32)) hread
      rw [if_neg harmed, if_neg harmed, hpassword]

namespace Gateway

/-- The request types that are compared in size, and their sizes. -/
def requestSize (type : UInt8) : Option Nat :=
  if type = MsgType.enterOrder then some 114
  else if type = MsgType.cancelOrder then some 15
  else if type = MsgType.cancelByOrderId then some 14
  else if type = MsgType.replaceOrder then some 122
  else none

/-- What `handle_unsequenced_payload` reads of the memory behind its pointer. -/
def unsequencedReads (mem : Bytes) (len : Nat) : List (Nat × Nat) :=
  if len = 0 then []
  else (0, 1) ::
    match requestSize (u8At mem 0) with
    | some size => if len ≠ size then [] else [(0, size)]
    | none =>
      if u8At mem 0 = MsgType.massQuote ∧ ¬ len < 50 + 28 then
        (0, 50) :: (List.range (quoteCount mem)).map fun i => (50 + 28 * i, 28)
      else []

/-- A request of a type with a size of its own. -/
def handleRequest (g : Gateway) (type : UInt8) (request : Bytes) : List Reply × Gateway :=
  if type = MsgType.enterOrder then g.enterOrder (EnterOrder.read request)
  else if type = MsgType.cancelOrder then g.cancelOrder (CancelOrder.read request)
  else if type = MsgType.cancelByOrderId then g.cancelByOrderId (CancelByOrderId.read request)
  else g.replaceOrder (ReplaceOrder.read request)

/-- `handle_unsequenced_payload` with the memory behind its pointer. -/
def handleUnsequencedPayload (g : Gateway) (mem : Bytes) (len : Nat) : List Reply × Gateway :=
  if len = 0 then ([], g)
  else
    match requestSize (u8At mem 0) with
    | some size => if len ≠ size then ([], g) else g.handleRequest (u8At mem 0) (peek mem 0 size)
    | none =>
      if u8At mem 0 = MsgType.massQuote ∧ ¬ len < 50 + 28 then
        let hdr := MassQuoteHeader.read (peek mem 0 50)
        g.quoteEntries hdr.orderToken
          ((List.range hdr.noQuoteEntries.toNat).map fun i => QuoteEntry.read (peek mem (50 + 28 * i) 28))
      else ([], g)

theorem peek_zero (mem : Bytes) (off n : Nat) : peek mem off n = peek (mem.drop off) 0 n := rfl

/-- A read inside the first `k` bytes. -/
theorem peek_peek (mem : Bytes) {off n k : Nat} (h : off + n ≤ k) : peek (peek mem 0 k) off n = peek mem off n := by
  have htake : ∀ (n k : Nat) (mem : Bytes), n ≤ k → peek (peek mem 0 k) 0 n = peek mem 0 n := by
    intro n
    induction n with
    | zero => exact fun _ _ _ => rfl
    | succ n ih =>
      intro k mem hk
      obtain ⟨k, rfl⟩ := Nat.exists_eq_succ_of_ne_zero (Nat.ne_zero_of_lt hk)
      have hrest := ih k mem.tail (Nat.le_of_succ_le_succ hk)
      simp only [peek, List.drop_zero, List.takeD_succ, List.head?_cons, Option.getD_some, List.tail_cons] at hrest ⊢
      rw [hrest]
  induction off generalizing mem k with
  | zero => exact htake n k mem (by omega)
  | succ off ih =>
    obtain ⟨k, rfl⟩ := Nat.exists_eq_succ_of_ne_zero (n := k) (by omega)
    have hrest := ih mem.tail (k := k) (by omega)
    have hdrop : mem.tail.drop off = mem.drop (off + 1) := by rw [List.drop_tail]
    simp only [peek, List.drop_zero, List.takeD_succ, List.drop_succ_cons, hdrop] at hrest ⊢
    exact hrest

theorem read_quoteHeader (mem : Bytes) : MassQuoteHeader.read (peek mem 0 50) = MassQuoteHeader.read mem := by
  simp [MassQuoteHeader.read, u8At, u16At, fieldAt, peek_peek]

theorem read_quoteEntry (mem : Bytes) (off : Nat) : QuoteEntry.read (peek mem off 28) = QuoteEntry.read (mem.drop off) := by
  rw [peek_zero]
  simp [QuoteEntry.read, u32At, u64At, i32At, peek_peek]

/-- Nothing but the ranges in `unsequencedReads` decides about a request. -/
theorem handleUnsequencedPayload_congr (g : Gateway) {mem mem' : Bytes} {len : Nat}
    (h : AgreeOn (unsequencedReads mem len) mem mem') :
    g.handleUnsequencedPayload mem len = g.handleUnsequencedPayload mem' len := by
  unfold handleUnsequencedPayload
  unfold unsequencedReads at h
  by_cases hlen : len = 0
  · rw [if_pos hlen, if_pos hlen]
  · rw [if_neg hlen] at h
    have htype : u8At mem 0 = u8At mem' 0 := congrArg (List.headD · 0) (h (0, 1) List.mem_cons_self)
    rw [if_neg hlen, if_neg hlen, ← htype]
    cases hsize : requestSize (u8At mem 0) with
    | some size =>
      dsimp only
      by_cases hother : len ≠ size
      · rw [if_pos hother, if_pos hother]
      · rw [hsize] at h
        dsimp only at h
        rw [if_neg hother] at h
        rw [if_neg hother, if_neg hother, h (0, size) (by simp)]
    | none =>
      dsimp only
      by_cases hquote : u8At mem 0 = MsgType.massQuote ∧ ¬ len < 50 + 28
      · rw [hsize] at h
        dsimp only at h
        rw [if_pos hquote] at h
        have hheader : peek mem 0 50 = peek mem' 0 50 := h (0, 50) (by simp)
        have hentries : ((List.range (quoteCount mem)).map fun i => QuoteEntry.read (peek mem (50 + 28 * i) 28)) =
            (List.range (quoteCount mem)).map fun i => QuoteEntry.read (peek mem' (50 + 28 * i) 28) := by
          apply List.map_congr_left
          intro i hi
          have hmem : (50 + 28 * i, 28) ∈ (List.range (quoteCount mem)).map fun i => (50 + 28 * i, 28) :=
            List.mem_map.2 ⟨i, hi, rfl⟩
          rw [h (50 + 28 * i, 28) (List.mem_cons_of_mem _ (List.mem_cons_of_mem _ hmem))]
        rw [if_pos hquote, if_pos hquote, ← hheader, read_quoteHeader]
        exact congrArg (g.quoteEntries (MassQuoteHeader.read mem).orderToken) hentries
      · rw [if_neg hquote, if_neg hquote]

/-- A mass quote does not count more entries than the payload holds, unless it is
too short for one. -/
def CountHeld (payload : Bytes) : Prop :=
  payload.head? = some MsgType.massQuote → 50 + 28 ≤ payload.length → 50 + 28 * quoteCount payload ≤ payload.length

instance (payload : Bytes) : Decidable (CountHeld payload) := inferInstanceAs (Decidable (_ → _ → _))

theorem u8At_head {payload : Bytes} {type : UInt8} (h : payload.head? = some type) : u8At payload 0 = type := by
  cases payload with
  | nil => cases h
  | cons c rest => exact Option.some.inj h

theorem requestSize_massQuote : requestSize MsgType.massQuote = none := by decide

/-- The reads stay inside the payload exactly if it holds the entries that it counts. -/
theorem unsequencedReads_inside_iff (payload : Bytes) :
    (∀ r ∈ unsequencedReads payload payload.length, r.1 + r.2 ≤ payload.length) ↔ CountHeld payload := by
  unfold unsequencedReads
  by_cases hempty : payload.length = 0
  · rw [if_pos hempty]
    exact iff_of_true (fun r hr => absurd hr List.not_mem_nil) fun _ hlong => absurd hlong (by omega)
  · obtain ⟨type, hhead⟩ : ∃ type, payload.head? = some type := by
      cases payload with
      | nil => exact absurd rfl hempty
      | cons c rest => exact ⟨c, rfl⟩
    have hone : ∀ r ∈ [(0, 1)], r.1 + r.2 ≤ payload.length := by
      simp only [List.mem_singleton, forall_eq]
      omega
    rw [if_neg hempty, u8At_head hhead, List.forall_mem_cons, and_iff_right (hone _ List.mem_cons_self)]
    cases hsize : requestSize type with
    | some size =>
      have hother : type ≠ MsgType.massQuote := by
        rintro rfl
        rw [requestSize_massQuote] at hsize
        cases hsize
      refine iff_of_true ?_ fun hquote => absurd (Option.some.inj (hhead.symm.trans hquote)) hother
      dsimp only
      split
      · exact fun r hr => absurd hr List.not_mem_nil
      · rename_i hexact
        simp only [List.mem_singleton, forall_eq]
        omega
    | none =>
      dsimp only
      by_cases hquote : type = MsgType.massQuote ∧ ¬ payload.length < 50 + 28
      · have hinside := inside_iff (hhead.trans (congrArg some hquote.1))
        rw [or_iff_right hquote.2, entryReads, if_pos ⟨hhead.trans (congrArg some hquote.1), hquote.2⟩] at hinside
        rw [if_pos hquote, List.forall_mem_cons, List.forall_mem_map]
        rw [List.forall_mem_map] at hinside
        constructor
        · intro hall _ _
          exact hinside.1 hall.2
        · intro hheld
          refine ⟨by omega, hinside.2 (hheld ?_ (Nat.not_lt.1 hquote.2))⟩
          exact hhead.trans (congrArg some hquote.1)
      · rw [if_neg hquote]
        refine iff_of_true (fun r hr => absurd hr List.not_mem_nil) fun hmass hlong => ?_
        exact absurd ⟨Option.some.inj (hhead.symm.trans hmass), by omega⟩ hquote

/-- With zeros behind the payload, the pointer makes no difference. -/
theorem handleUnsequencedPayload_self (g : Gateway) (payload : Bytes) :
    g.handleUnsequencedPayload payload payload.length = g.handlePayload payload := by
  unfold handleUnsequencedPayload handlePayload
  cases payload with
  | nil => rfl
  | cons type rest =>
    have htype : u8At (type :: rest) 0 = type := u8At_head rfl
    generalize hpayload : type :: rest = payload at htype
    have hlen : payload.length ≠ 0 := by
      rw [← hpayload]
      exact Nat.succ_ne_zero _
    have hhead : payload.head? = some type := by
      rw [← hpayload]
      rfl
    rw [if_neg hlen, htype, hhead]
    have hall : peek payload 0 payload.length = payload := peek_all rfl
    dsimp only
    by_cases henter : type = MsgType.enterOrder
    · rw [if_pos henter, requestSize, if_pos henter]
      dsimp only
      split
      · rfl
      · rename_i hsize
        rw [← not_not.1 hsize, hall, handleRequest, if_pos henter]
    · rw [if_neg henter, requestSize, if_neg henter]
      by_cases hcancel : type = MsgType.cancelOrder
      · rw [if_pos hcancel, if_pos hcancel]
        dsimp only
        split
        · rfl
        · rename_i hsize
          rw [← not_not.1 hsize, hall, handleRequest, if_neg henter, if_pos hcancel]
      · rw [if_neg hcancel, if_neg hcancel]
        by_cases hbyId : type = MsgType.cancelByOrderId
        · rw [if_pos hbyId, if_pos hbyId]
          dsimp only
          split
          · rfl
          · rename_i hsize
            rw [← not_not.1 hsize, hall, handleRequest, if_neg henter, if_neg hcancel, if_pos hbyId]
        · rw [if_neg hbyId, if_neg hbyId]
          by_cases hreplace : type = MsgType.replaceOrder
          · rw [if_pos hreplace, if_pos hreplace]
            dsimp only
            split
            · rfl
            · rename_i hsize
              rw [← not_not.1 hsize, hall, handleRequest, if_neg henter, if_neg hcancel, if_neg hbyId]
          · rw [if_neg hreplace, if_neg hreplace]
            dsimp only
            by_cases hquote : type = MsgType.massQuote
            · rw [if_pos hquote]
              by_cases hshort : payload.length < 50 + 28
              · rw [if_pos hshort, if_neg fun hboth => hboth.2 hshort]
              · rw [if_neg hshort, if_pos ⟨hquote, hshort⟩, read_quoteHeader]
                simp only [read_quoteEntry]
                rfl
            · rw [if_neg hquote, if_neg fun hboth => hquote hboth.1]

/-- Where no read leaves the payload, it does not matter what lies behind it. -/
theorem handleUnsequencedPayload_eq (g : Gateway) {payload : Bytes} (h : CountHeld payload) (behind : Bytes) :
    g.handleUnsequencedPayload (payload ++ behind) payload.length = g.handlePayload payload := by
  rw [← g.handleUnsequencedPayload_self payload]
  refine (g.handleUnsequencedPayload_congr ?_).symm
  intro r hr
  exact (peek_append ((unsequencedReads_inside_iff payload).2 h r hr) behind).symm

end Gateway

/-! ## The loop -/

/-- A packet that `run_loop` takes, with the payload that it hands to
`handle_unsequenced_payload`, if it does, and the ranges that are read. -/
structure GatewayCall where
  packet : PayloadRead
  request : Option Bytes
  reads : List (Nat × Nat)
deriving DecidableEq

/-- The first packet, whatever its type. -/
def handshakeCall (d : LoginDesk) (r : PayloadRead) : GatewayCall where
  packet := r
  request := none
  reads :=
    match r.bytes with
    | none => []
    | some payload => if r.header.packetType = Pkt.loginRequest then d.reads payload.length else []

/-- A packet of the main loop. -/
def mainLoopCall (r : PayloadRead) : GatewayCall :=
  let request := if r.header.packetType = Pkt.unsequencedData then r.bytes else none
  ⟨r, request,
    match request with
    | none => []
    | some payload => Gateway.unsequencedReads payload payload.length⟩

/-- `run_loop`, for at most `turns` turns of the main loop. -/
def runLoop (d : LoginDesk) (turns : Nat) (stream : Bytes) : List GatewayCall :=
  match readPacket stream with
  | none => []
  | some (r, none) => [handshakeCall d r]
  | some (r, some stream) => handshakeCall d r :: (mainLoop turns stream).map mainLoopCall

/-- The payload is one byte shorter than the length field says, what is read into
it fills it, and what is read of it lies inside it. -/
structure GatewayCall.Inside (c : GatewayCall) : Prop where
  exact : c.packet.size.toNat + 1 = c.packet.header.length.toNat
  received : ∀ bytes, c.packet.bytes = some bytes → bytes.length = c.packet.size.toNat
  reads : ∀ r ∈ c.reads, r.1 + r.2 ≤ c.packet.size.toNat

/-- There is room for the type byte, and a mass quote holds the entries that it counts. -/
def GatewayCall.Sound (c : GatewayCall) : Prop :=
  1 ≤ c.packet.header.length.toNat ∧ ∀ payload, c.request = some payload → Gateway.CountHeld payload

theorem PayloadRead.OfPacket.exact_iff {r : PayloadRead} (h : r.OfPacket) :
    r.size.toNat + 1 = r.header.length.toNat ↔ 1 ≤ r.header.length.toNat := by
  constructor
  · intro hexact
    omega
  · intro hpos
    have hlt : r.header.length.toNat < 2 ^ 16 := r.header.length.toNat_lt
    have hsub : UInt64.ofNat r.header.length.toNat - 1 = UInt64.ofNat (r.header.length.toNat - 1) := by
      have h1 : r.header.length.toNat = r.header.length.toNat - 1 + 1 := by omega
      conv_lhs => rw [h1, UInt64.ofNat_add]
      exact UInt64.add_sub_cancel ..
    rw [h.size, payloadSize, hsub, UInt64.toNat_ofNat', Nat.mod_eq_of_lt (by omega)]
    omega

theorem handshakeCall_inside_iff (d : LoginDesk) {r : PayloadRead} (h : r.OfPacket) :
    (handshakeCall d r).Inside ↔ (handshakeCall d r).Sound := by
  have hreads : ∀ x ∈ (handshakeCall d r).reads, x.1 + x.2 ≤ r.size.toNat := by
    unfold handshakeCall
    dsimp only
    split
    · exact fun x hx => absurd hx List.not_mem_nil
    · rename_i payload hbytes
      split
      · unfold LoginDesk.reads
        split
        · exact fun x hx => absurd hx List.not_mem_nil
        · rename_i hread
          obtain ⟨hlong, -⟩ := not_or.1 hread
          simp only [List.mem_singleton, forall_eq]
          rw [← h.bytes payload hbytes]
          exact Nat.not_lt.1 hlong
      · exact fun x hx => absurd hx List.not_mem_nil
  constructor
  · intro hi
    exact ⟨h.exact_iff.1 hi.exact, fun payload hrequest => by cases hrequest⟩
  · intro hs
    exact ⟨h.exact_iff.2 hs.1, h.bytes, hreads⟩

theorem mainLoopCall_inside_iff {r : PayloadRead} (h : r.OfPacket) : (mainLoopCall r).Inside ↔ (mainLoopCall r).Sound := by
  have hreads : (∀ x ∈ (mainLoopCall r).reads, x.1 + x.2 ≤ r.size.toNat) ↔
      ∀ payload, (mainLoopCall r).request = some payload → Gateway.CountHeld payload := by
    unfold mainLoopCall
    dsimp only
    cases hrequest : (if r.header.packetType = Pkt.unsequencedData then r.bytes else none) with
    | none => exact iff_of_true (fun x hx => absurd hx List.not_mem_nil) fun _ hnone => by cases hnone
    | some payload =>
      have hbytes : r.bytes = some payload := by
        split at hrequest
        · exact hrequest
        · cases hrequest
      dsimp only
      rw [← h.bytes payload hbytes, Gateway.unsequencedReads_inside_iff]
      simp
  constructor
  · intro hi
    exact ⟨h.exact_iff.1 hi.exact, hreads.1 hi.reads⟩
  · intro hs
    exact ⟨h.exact_iff.2 hs.1, h.bytes, hreads.2 hs.2⟩

theorem runLoop_inside_iff (d : LoginDesk) (turns : Nat) (stream : Bytes) :
    ∀ c ∈ runLoop d turns stream, (c.Inside ↔ c.Sound) := by
  unfold runLoop
  split
  · exact List.forall_mem_nil _
  · rename_i r hr
    rw [List.forall_mem_singleton]
    exact handshakeCall_inside_iff d (readPacket_ofPacket hr)
  · rename_i r rest hr
    rw [List.forall_mem_cons, List.forall_mem_map]
    refine ⟨handshakeCall_inside_iff d (readPacket_ofPacket hr), ?_⟩
    intro r' hr'
    exact mainLoopCall_inside_iff (mainLoop_ofPacket turns rest r' hr')

/-- In every run of a session and of the gateway, a payload has the length its
length field gives, lies inside what was received, and covers every byte the
dispatchers read, exactly if the length field is not zero and, at the gateway, a
mass quote holds the entries that it counts. -/
theorem framing_safe_iff {s : OuchSession} (hfresh : s.Fresh) (ops : List OuchSession.Op) (d : LoginDesk) (turns : Nat)
    (stream : Bytes) :
    (∀ c ∈ dispatchCalls (run OuchSession.step s ops).log, (c.Inside ↔ 1 ≤ c.frame.length.toNat)) ∧
      ∀ c ∈ runLoop d turns stream, (c.Inside ↔ c.Sound) :=
  ⟨fun c hc => (dispatchCalls_run hfresh ops c hc).inside_iff, runLoop_inside_iff d turns stream⟩

/-- A length field of zero, and what follows, in one chunk. -/
def zeroLength : OuchSession :=
  .create { recvs := [.data ⟨[0, 0, 65, 1, 43], by decide, by decide⟩] } { reading := fun _ => 0 }
    { username := ascii "OUCH01", password := ascii "secret" } Soup.heartbeatSendNs

theorem zeroLength_fresh : zeroLength.Fresh := ⟨rfl, rfl, rfl, rfl, rfl, rfl, rfl, rfl⟩

theorem framing_safe_iff_zeroLength :
    (∀ c ∈ dispatchCalls zeroLength.pollIo.2.log, (c.Inside ↔ 1 ≤ c.frame.length.toNat)) ∧
      ∀ c ∈ runLoop {} 0 [0, 0, 76], (c.Inside ↔ c.Sound) :=
  framing_safe_iff zeroLength_fresh [.pollIo] {} 0 [0, 0, 76]

/-- A client heartbeat, and then a mass quote that counts two entries and holds one. -/
def countsTwo : Bytes :=
  [0, 1, 82] ++ [0, 79, 85] ++ Gateway.quotePayload 2 [⟨70616, 6000, 6010, 10, 20⟩]

/-- The session dispatches a LoginAccepted of 2^64 - 1 bytes and reads thirty
of the two that are there; the gateway asks for as large a payload. And of a mass
quote of 78 bytes, the gateway reads up to the 106th. -/
theorem zero_length_wraps :
    zeroLength.Fresh ∧
      (∃ c ∈ dispatchCalls zeroLength.pollIo.2.log, c = ⟨⟨0, 65, []⟩, UInt64.ofNat (2 ^ 64 - 1), [(0, 10), (10, 20)]⟩ ∧
        ¬ c.Inside) ∧
      (∃ c ∈ runLoop {} 0 [0, 0, 76], c.packet = ⟨⟨0, 76⟩, UInt64.ofNat (2 ^ 64 - 1), none⟩ ∧ ¬ c.Inside) ∧
      ∃ c ∈ runLoop {} 1 countsTwo, c.packet.size = 78 ∧ (78, 28) ∈ c.reads ∧ ¬ c.Inside := by
  refine ⟨zeroLength_fresh, ?_, ?_, ?_⟩
  · refine ⟨_, by decide, rfl, ?_⟩
    rintro ⟨h, -, -⟩
    exact absurd h (by decide)
  · refine ⟨_, List.mem_cons_self, rfl, ?_⟩
    rintro ⟨h, -, -⟩
    exact absurd h (by decide)
  · have hcall : ∃ c ∈ runLoop {} 1 countsTwo, c.packet.size = 78 ∧ (78, 28) ∈ c.reads := by decide +kernel
    obtain ⟨c, hc, hsize, hread⟩ := hcall
    refine ⟨c, hc, hsize, hread, ?_⟩
    intro hi
    have hout := hi.reads _ hread
    rw [hsize] at hout
    exact absurd hout (by decide)

end BistColo.Mock
