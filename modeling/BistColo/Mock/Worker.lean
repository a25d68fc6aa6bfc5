import BistColo.Mock.Framing
import BistColo.Mock.Writers
import BistColo.StreamKit.Backlog
import BistColo.StreamKit.Runs
/-!
# The worker thread on one connection

`OuchMockGateway::run_loop` packet by packet, while the client's bytes still
arrive: the thread waits in `read_n` until a packet is complete, and heartbeats
go out in between. `serves_connection` says that none of this shows in its
answers, which are those of `connection` to the whole stream, nor what lies in
memory behind a payload, as long as no mass quote counts more than it holds.
-/

open StreamKit

namespace BistColo.Mock

open Soup Ouch

/-! ## The next packet -/

/-- The packet in front, once it is complete. -/
def nextPacket (inbox : Bytes) : Option (PayloadRead × Bytes) :=
  match readPacket inbox with
  | some (r, some rest) => some (r, rest)
  | _ => none

theorem readN_append {stream : Bytes} {n : Nat} {taken rest : Bytes} (h : readN stream n = some (taken, rest))
    (more : Bytes) : readN (stream ++ more) n = some (taken, rest ++ more) := by
  unfold readN at h ⊢
  split at h
  · nomatch h
  · rename_i hlen
    rw [Option.some.injEq, Prod.mk.injEq] at h
    have hlong : ¬ (stream ++ more).length < n := by
      rw [List.length_append]
      omega
    rw [if_neg hlong, List.take_append_of_le_length (Nat.le_of_not_lt hlen),
      List.drop_append_of_le_length (Nat.le_of_not_lt hlen), h.1, h.2]

theorem readN_length {stream : Bytes} {n : Nat} {taken rest : Bytes} (h : readN stream n = some (taken, rest)) :
    rest.length + n = stream.length := by
  unfold readN at h
  split at h
  · nomatch h
  · rename_i hlen
    rw [Option.some.injEq, Prod.mk.injEq] at h
    rw [← h.2, List.length_drop]
    omega

/-- What `next_packet` finds: a header, and the payload that it announces. -/
theorem nextPacket_eq_some {inbox rest : Bytes} {r : PayloadRead} : nextPacket inbox = some (r, rest) ↔
    ∃ header behind payload, readN inbox headerLen = some (header, behind) ∧
      (payloadSize (Header.read header)).toNat ≤ maxVectorSize ∧
      readN behind (payloadSize (Header.read header)).toNat = some (payload, rest) ∧
      r = ⟨Header.read header, payloadSize (Header.read header), some payload⟩ := by
  unfold nextPacket readPacket
  cases hhead : readN inbox headerLen with
  | none => simp
  | some p =>
    obtain ⟨header, behind⟩ := p
    dsimp only
    by_cases hsize : maxVectorSize < (payloadSize (Header.read header)).toNat
    · rw [if_pos hsize]
      refine iff_of_false (fun h => nomatch h) ?_
      rintro ⟨header', behind', payload, heq, hle, -⟩
      rw [Option.some.injEq, Prod.mk.injEq] at heq
      rw [← heq.1] at hle
      omega
    · rw [if_neg hsize]
      cases hbody : readN behind (payloadSize (Header.read header)).toNat with
      | none =>
        refine iff_of_false (fun h => nomatch h) ?_
        rintro ⟨header', behind', payload, heq, -, hread, -⟩
        rw [Option.some.injEq, Prod.mk.injEq] at heq
        rw [← heq.1, ← heq.2, hbody] at hread
        nomatch hread
      | some q =>
        obtain ⟨payload, rest'⟩ := q
        constructor
        · intro h
          rw [Option.some.injEq, Prod.mk.injEq] at h
          exact ⟨header, behind, payload, rfl, Nat.le_of_not_lt hsize, by rw [hbody, h.2], h.1.symm⟩
        · rintro ⟨header', behind', payload', heq, -, hread, rfl⟩
          rw [Option.some.injEq, Prod.mk.injEq] at heq
          obtain ⟨rfl, rfl⟩ := heq
          rw [hbody, Option.some.injEq, Prod.mk.injEq] at hread
          rw [hread.1, hread.2]

/-- How the client's stream falls into the packets that the loop reads. -/
def packets : Splitter UInt8 PayloadRead where
  next := nextPacket
  shrinks := by
    intro stream r rest h
    obtain ⟨header, behind, payload, hhead, -, hbody, -⟩ := nextPacket_eq_some.1 h
    have hlen := readN_length hhead
    have hlen' := readN_length hbody
    rw [headerLen] at hlen
    omega
  stable := by
    intro stream r rest more h
    obtain ⟨header, behind, payload, hhead, hsize, hbody, hr⟩ := nextPacket_eq_some.1 h
    exact nextPacket_eq_some.2
      ⟨header, behind ++ more, payload, readN_append hhead more, hsize, readN_append hbody more, hr⟩

@[simp] theorem packets_next (inbox : Bytes) : packets.next inbox = nextPacket inbox := rfl

/-- A packet of the client, as the loop reads it. -/
def reading (p : Packet) : PayloadRead := ⟨p.header, UInt64.ofNat p.payload.length, some p.payload⟩

theorem nextPacket_packet (p : Packet) (rest : Bytes) : packets.next (p.encode ++ rest) = some (reading p, rest) := by
  rw [packets_next, nextPacket, Gateway.readPacket_packet]
  rfl

/-! ## The thread -/

/-- Where `run_loop` is: before the first packet, in its main loop, or behind it. -/
inductive Worker.Phase | greeting | serving | closed
deriving DecidableEq

structure Worker where
  gateway : Gateway
  desk : LoginDesk := {}
  phase : Worker.Phase := .greeting
  /-- what has arrived and is not read yet -/
  inbox : Bytes := []
  sent : List Packet := []

namespace Worker

/-- What the loop does with a packet. -/
def take (w : Worker) (r : PayloadRead) : Worker :=
  match w.phase with
  | .greeting =>
    let greeting := greet w.desk r
    { w with desk := greeting.2, phase := .serving, sent := w.sent ++ greeting.1 }
  | .serving =>
    if r.header.packetType = Pkt.logoutRequest then
      { w with phase := .closed, sent := w.sent ++ [Gateway.endOfSession] }
    else if r.header.packetType = Pkt.unsequencedData then
      let answer := w.gateway.handlePayload (r.bytes.getD [])
      { w with gateway := answer.2, sent := w.sent ++ answer.1.map Reply.packet }
    else w
  | .closed => w

/-- What happens at the connection, one after the other. -/
inductive Event
  | arrive (bytes : Bytes)
  | turn
  | heartbeat
deriving DecidableEq

def step (w : Worker) : Event → Worker
  | .arrive bytes => { w with inbox := w.inbox ++ bytes }
  | .turn =>
    if w.phase = .closed then w
    else
      match nextPacket w.inbox with
      | none => w
      | some (r, rest) => { w with inbox := rest }.take r
  | .heartbeat => if w.phase = .serving then { w with sent := w.sent ++ [serverHeartbeat] } else w

theorem turn_some {w : Worker} (hphase : w.phase ≠ .closed) {r : PayloadRead} {rest : Bytes}
    (hnext : nextPacket w.inbox = some (r, rest)) : w.step .turn = { w with inbox := rest }.take r := by
  unfold step
  dsimp only
  rw [if_neg hphase, hnext]

/-- A turn takes the next packet, or there is none to take. -/
theorem turn_cases (w : Worker) : ((w.phase = .closed ∨ nextPacket w.inbox = none) ∧ w.step .turn = w) ∨
    ∃ r rest, w.phase ≠ .closed ∧ nextPacket w.inbox = some (r, rest) ∧ w.step .turn = { w with inbox := rest }.take r := by
  by_cases hphase : w.phase = .closed
  · exact .inl ⟨.inl hphase, if_pos hphase⟩
  · cases hnext : nextPacket w.inbox with
    | none =>
      refine .inl ⟨.inr rfl, (if_neg hphase).trans ?_⟩
      rw [hnext]
    | some p => exact .inr ⟨p.1, p.2, hphase, rfl, turn_some hphase hnext⟩

theorem heartbeat_cases (w : Worker) : (w.phase ≠ .serving ∧ w.step .heartbeat = w) ∨
    (w.phase = .serving ∧ w.step .heartbeat = { w with sent := w.sent ++ [serverHeartbeat] }) := by
  by_cases hphase : w.phase = .serving
  · exact .inr ⟨hphase, if_pos hphase⟩
  · exact .inl ⟨hphase, if_neg hphase⟩

theorem inbox_heartbeat (w : Worker) : (w.step .heartbeat).inbox = w.inbox := by
  rcases w.heartbeat_cases with ⟨-, hstep⟩ | ⟨-, hstep⟩ <;> rw [hstep]

/-- Everything that arrives. -/
def arrived (events : List Event) : Bytes := events.flatMap fun | .arrive bytes => bytes | _ => []

/-! ## What lies behind a payload -/

/-- `take`, in a memory with `behind` behind the payload. -/
def takeIn (w : Worker) (behind : Bytes) (r : PayloadRead) : Worker :=
  if w.phase = .serving ∧ r.header.packetType = Pkt.unsequencedData then
    let payload := r.bytes.getD []
    let answer := w.gateway.handleUnsequencedPayload (payload ++ behind) payload.length
    { w with gateway := answer.2, sent := w.sent ++ answer.1.map Reply.packet }
  else w.take r

/-- `step`, in such a memory. -/
def stepIn (w : Worker) (x : Event × Bytes) : Worker :=
  match x.1 with
  | .turn =>
    if w.phase = .closed then w
    else
      match nextPacket w.inbox with
      | none => w
      | some (r, rest) => { w with inbox := rest }.takeIn x.2 r
  | e => w.step e

/-- A request that is taken does not count more quotes than it holds. -/
def Holds (w : Worker) : Event → Prop
  | .turn => w.phase = .serving → ∀ p ∈ nextPacket w.inbox,
      p.1.header.packetType = Pkt.unsequencedData → Gateway.CountHeld (p.1.bytes.getD [])
  | _ => True

instance (w : Worker) : (e : Event) → Decidable (w.Holds e)
  | .turn => inferInstanceAs (Decidable (_ → _))
  | .arrive _ => .isTrue trivial
  | .heartbeat => .isTrue trivial

theorem takeIn_eq (w : Worker) (behind : Bytes) {r : PayloadRead}
    (h : w.phase = .serving → r.header.packetType = Pkt.unsequencedData → Gateway.CountHeld (r.bytes.getD [])) :
    w.takeIn behind r = w.take r := by
  unfold takeIn
  split
  · rename_i hrequest
    have hlogout : ¬ r.header.packetType = Pkt.logoutRequest := by
      rw [hrequest.2]
      decide
    dsimp only
    rw [w.gateway.handleUnsequencedPayload_eq (h hrequest.1 hrequest.2) behind, take, hrequest.1]
    dsimp only
    rw [if_neg hlogout, if_pos hrequest.2]
  · rfl

/-- Where it holds, nothing depends on what lies behind. -/
theorem stepIn_eq (w : Worker) (x : Event × Bytes) (h : w.Holds x.1) : w.stepIn x = w.step x.1 := by
  obtain ⟨e, behind⟩ := x
  cases e with
  | arrive bytes => rfl
  | heartbeat => rfl
  | turn =>
    unfold stepIn step
    dsimp only
    split
    · rfl
    · cases hnext : nextPacket w.inbox with
      | none => rfl
      | some p => exact takeIn_eq { w with inbox := p.2 } behind fun hserving => h hserving p hnext

/-! ## What the packets make of it -/

/-- The answers, without the heartbeats between them. -/
def answers (sent : List Packet) : List Packet := sent.filter fun p => p.packetType ≠ Pkt.serverHeartbeat

@[simp] theorem answers_append (as bs : List Packet) : answers (as ++ bs) = answers as ++ answers bs := List.filter_append _ _

/-- The thread without what is on its way to it or was sent by the clock. -/
def bare (w : Worker) : Worker := { w with inbox := [], sent := answers w.sent }

theorem answers_greet (d : LoginDesk) (r : PayloadRead) : answers (greet d r).1 = (greet d r).1 := by
  rw [answers, List.filter_eq_self]
  intro p hp
  rcases greet_cases d r with ⟨-, -, haccepted⟩ | ⟨-, hrejected⟩
  · rw [haccepted, List.mem_singleton] at hp
    rw [hp]
    decide
  · rw [hrejected p hp]
    decide

theorem answers_replies (rs : List Reply) : answers (rs.map Reply.packet) = rs.map Reply.packet := by
  rw [answers, List.filter_eq_self]
  intro p hp
  obtain ⟨r, -, rfl⟩ := List.mem_map.1 hp
  rfl

theorem bare_take (w : Worker) (r : PayloadRead) : (w.take r).bare = w.bare.take r := by
  have hphase : w.bare.phase = w.phase := rfl
  unfold take
  rw [hphase]
  cases w.phase with
  | greeting => simp [bare, answers_greet]
  | serving =>
    dsimp only
    by_cases hlogout : r.header.packetType = Pkt.logoutRequest
    · rw [if_pos hlogout, if_pos hlogout]
      simp [bare, answers, Gateway.endOfSession, Pkt.endOfSession, Pkt.serverHeartbeat]
    · rw [if_neg hlogout, if_neg hlogout]
      by_cases hrequest : r.header.packetType = Pkt.unsequencedData
      · rw [if_pos hrequest, if_pos hrequest]
        simp [bare, answers_replies]
      · rw [if_neg hrequest, if_neg hrequest]
  | closed => rfl

theorem inbox_take (w : Worker) (r : PayloadRead) : (w.take r).inbox = w.inbox := by
  unfold take
  cases w.phase with
  | greeting => rfl
  | serving =>
    dsimp only
    split
    · rfl
    · split <;> rfl
  | closed => rfl

theorem take_closed {w : Worker} (h : w.phase = .closed) (rs : List PayloadRead) : rs.foldl take w = w := by
  induction rs with
  | nil => rfl
  | cons r rs ih =>
    have hsame : w.take r = w := by rw [take, h]
    rw [List.foldl_cons, hsame, ih]

/-- The thread has taken `taken` off what arrived, and the rest is in its inbox. -/
structure At (w₀ : Worker) (stream : Bytes) (taken : List PayloadRead) (w : Worker) : Prop where
  frames : packets.frames stream = taken ++ packets.frames w.inbox
  rest : packets.rest stream = packets.rest w.inbox
  bare : w.bare = taken.foldl take w₀.bare

theorem At.arrive {w₀ w : Worker} {stream : Bytes} {taken : List PayloadRead} (h : At w₀ stream taken w) (bytes : Bytes) :
    At w₀ (stream ++ bytes) taken (w.step (.arrive bytes)) where
  frames := by
    have hinbox : (w.step (.arrive bytes)).inbox = w.inbox ++ bytes := rfl
    rw [hinbox, packets.frames_append, packets.frames_append w.inbox, h.frames, h.rest, List.append_assoc]
  rest := by
    have hinbox : (w.step (.arrive bytes)).inbox = w.inbox ++ bytes := rfl
    rw [hinbox, packets.rest_append, packets.rest_append w.inbox, h.rest]
  bare := h.bare

theorem At.turn {w₀ w : Worker} {stream : Bytes} {taken : List PayloadRead} (h : At w₀ stream taken w) :
    ∃ more, At w₀ stream (taken ++ more) (w.step .turn) := by
  rcases w.turn_cases with ⟨-, hstep⟩ | ⟨r, rest, -, hnext, hstep⟩
  · exact ⟨[], by rwa [hstep, List.append_nil]⟩
  · have hnext' : packets.next w.inbox = some (r, rest) := hnext
    rw [hstep]
    refine ⟨[r], ?_, ?_, ?_⟩
    · rw [h.frames, packets.frames_some hnext', inbox_take, List.append_assoc]
      rfl
    · rw [h.rest, packets.rest_some hnext', inbox_take]
    · rw [bare_take, List.foldl_append, ← h.bare]
      rfl

theorem bare_heartbeat (w : Worker) : (w.step .heartbeat).bare = w.bare := by
  rcases w.heartbeat_cases with ⟨-, hstep⟩ | ⟨-, hstep⟩
  · rw [hstep]
  · rw [hstep]
    simp [bare, answers, serverHeartbeat]

theorem At.heartbeat {w₀ w : Worker} {stream : Bytes} {taken : List PayloadRead} (h : At w₀ stream taken w) :
    At w₀ stream taken (w.step .heartbeat) := by
  have hinbox := w.inbox_heartbeat
  exact ⟨by rw [hinbox]; exact h.frames, by rw [hinbox]; exact h.rest, by rw [bare_heartbeat]; exact h.bare⟩

theorem At.run {w₀ w : Worker} {stream : Bytes} {taken : List PayloadRead} (h : At w₀ stream taken w)
    (events : List Event) : ∃ more, At w₀ (stream ++ arrived events) (taken ++ more) (run step w events) := by
  induction events generalizing w stream taken with
  | nil => exact ⟨[], by rwa [arrived, List.flatMap_nil, List.append_nil, List.append_nil]⟩
  | cons e events ih =>
    cases e with
    | arrive bytes =>
      obtain ⟨more, hmore⟩ := ih (h.arrive bytes)
      exact ⟨more, by rwa [List.append_assoc] at hmore⟩
    | turn =>
      obtain ⟨now, hnow⟩ := h.turn
      obtain ⟨more, hmore⟩ := ih hnow
      exact ⟨now ++ more, by rwa [List.append_assoc] at hmore⟩
    | heartbeat => exact ih h.heartbeat

/-! ## The whole stream at once -/

theorem sent_take (w : Worker) (r : PayloadRead) : w.sent <+: (w.take r).sent := by
  unfold take
  cases w.phase with
  | greeting => exact List.prefix_append _ _
  | serving =>
    dsimp only
    split
    · exact List.prefix_append _ _
    · split
      · exact List.prefix_append _ _
      · exact List.prefix_rfl
  | closed => exact List.prefix_rfl

theorem sent_takes (w : Worker) (rs : List PayloadRead) : w.sent <+: (rs.foldl take w).sent := by
  induction rs generalizing w with
  | nil => exact List.prefix_rfl
  | cons r rs ih => exact (w.sent_take r).trans (ih _)

/-- `readPacket` and `nextPacket` stop at the same streams. -/
theorem readPacket_cases (stream : Bytes) : (∃ r rest, readPacket stream = some (r, some rest) ∧
    packets.next stream = some (r, rest)) ∨
      ((∀ r rest, readPacket stream ≠ some (r, some rest)) ∧ packets.next stream = none) := by
  rw [packets_next, nextPacket]
  split
  · rename_i r rest hread
    exact .inl ⟨r, rest, hread, rfl⟩
  · rename_i hnot
    exact .inr ⟨hnot, rfl⟩

/-- The main loop on a whole stream. -/
theorem serve_eq (turns : Nat) {w : Worker} (hphase : w.phase = .serving) {stream : Bytes}
    (hturns : (packets.frames stream).length ≤ turns) :
    w.sent ++ (w.gateway.serve turns stream).1 = ((packets.frames stream).foldl take w).sent ∧
      (w.gateway.serve turns stream).2 = ((packets.frames stream).foldl take w).gateway ∧
      w.desk = ((packets.frames stream).foldl take w).desk := by
  induction turns generalizing w stream with
  | zero =>
    rw [List.eq_nil_of_length_eq_zero (Nat.le_zero.1 hturns)]
    exact ⟨List.append_nil _, rfl, rfl⟩
  | succ turns ih =>
    rcases readPacket_cases stream with ⟨r, rest, hread, hnext⟩ | ⟨hnot, hnext⟩
    · rw [packets.frames_some hnext, List.length_cons, Nat.add_le_add_iff_right] at hturns
      rw [packets.frames_some hnext, List.foldl_cons, Gateway.serve, hread]
      dsimp only
      by_cases hlogout : r.header.packetType = Pkt.logoutRequest
      · have htake : w.take r = { w with phase := .closed, sent := w.sent ++ [Gateway.endOfSession] } := by
          rw [take, hphase]
          exact if_pos hlogout
        rw [if_pos hlogout, htake, take_closed rfl]
        exact ⟨rfl, rfl, rfl⟩
      · by_cases hrequest : r.header.packetType = Pkt.unsequencedData
        · have htake : w.take r = { w with
              gateway := (w.gateway.handlePayload (r.bytes.getD [])).2
              sent := w.sent ++ (w.gateway.handlePayload (r.bytes.getD [])).1.map Reply.packet } := by
            rw [take, hphase]
            exact (if_neg hlogout).trans (if_pos hrequest)
          have hrest := @ih (w.take r) (by rw [htake]; exact hphase) rest hturns
          rw [if_neg hlogout, if_pos hrequest]
          rw [htake] at hrest ⊢
          rw [List.append_assoc] at hrest
          exact hrest
        · have htake : w.take r = w := by
            rw [take, hphase]
            exact (if_neg hlogout).trans (if_neg hrequest)
          rw [if_neg hlogout, if_neg hrequest, htake]
          exact ih hphase hturns
    · rw [packets.frames_none hnext]
      have hserve : w.gateway.serve (turns + 1) stream = ([], w.gateway) := by
        rw [Gateway.serve]
        split
        · rename_i r rest hread
          exact absurd hread (hnot r rest)
        · rfl
        · rfl
      rw [hserve]
      exact ⟨List.append_nil _, rfl, rfl⟩

/-- All of `run_loop` on a whole stream. -/
theorem connection_eq (g : Gateway) (d : LoginDesk) {turns : Nat} {stream : Bytes}
    (hturns : (packets.frames stream).length ≤ turns) :
    let w := (packets.frames stream).foldl take { gateway := g, desk := d }
    connection g d turns stream = (w.sent, w.gateway, w.desk) := by
  dsimp only
  unfold connection
  rcases readPacket_cases stream with ⟨r, rest, hread, hnext⟩ | ⟨hnot, hnext⟩
  · rw [packets.frames_some hnext, List.length_cons] at hturns
    rw [packets.frames_some hnext, List.foldl_cons, hread]
    obtain ⟨hsent, hgateway, hdesk⟩ := @serve_eq turns (take { gateway := g, desk := d } r) rfl rest (by omega)
    rw [← hsent, ← hgateway, ← hdesk]
    rfl
  · rw [packets.frames_none hnext]
    split
    · rename_i r rest hread
      exact absurd hread (hnot r rest)
    · rfl
    · rfl

/-- A thread on its way through a stream, compared with `connection` on the whole of it. -/
theorem At.connection {g : Gateway} {d : LoginDesk} {stream : Bytes} {taken : List PayloadRead} {w : Worker}
    (h : At { gateway := g, desk := d } stream taken w) :
    let c := connection g d stream.length stream
    answers w.sent <+: c.1 ∧
      (w.phase = .closed ∨ nextPacket w.inbox = none →
        answers w.sent = c.1 ∧ w.gateway = c.2.1 ∧ w.desk = c.2.2) := by
  have hwhole := connection_eq g d (packets.length_frames_le stream)
  have hsplit : (packets.frames stream).foldl take { gateway := g, desk := d } =
      (packets.frames w.inbox).foldl take w.bare := by
    rw [h.frames, List.foldl_append, h.bare]
    rfl
  dsimp only at hwhole ⊢
  rw [hwhole, hsplit]
  refine ⟨w.bare.sent_takes _, ?_⟩
  intro hover
  have hlast : (packets.frames w.inbox).foldl take w.bare = w.bare := by
    rcases hover with hclosed | hnone
    · exact @take_closed w.bare hclosed _
    · have hnone' : packets.next w.inbox = none := hnone
      rw [packets.frames_none hnone']
      rfl
  rw [hlast]
  exact ⟨rfl, rfl, rfl⟩

theorem At.start (g : Gateway) (d : LoginDesk) : At { gateway := g, desk := d } [] [] { gateway := g, desk := d } :=
  ⟨by rw [List.nil_append], rfl, rfl⟩

/-- However the client's stream is cut up, whatever the clock sends in between,
and whatever lies in memory behind the payloads, if no mass quote counts more than
it holds: the answers so far are the first of those that `connection` gives to the
whole stream, and all of them once no packet is left to take. -/
theorem serves_connection (g : Gateway) (d : LoginDesk) (events : List (Event × Bytes))
    (hheld : AllAlong step Holds { gateway := g, desk := d } (events.map Prod.fst)) :
    let w := run stepIn { gateway := g, desk := d } events
    let stream := arrived (events.map Prod.fst)
    let c := connection g d stream.length stream
    answers w.sent <+: c.1 ∧
      (w.phase = .closed ∨ nextPacket w.inbox = none →
        answers w.sent = c.1 ∧ w.gateway = c.2.1 ∧ w.desk = c.2.2) := by
  have hsame : run stepIn { gateway := g, desk := d } events = run step { gateway := g, desk := d } (events.map Prod.fst) :=
    run_map_eq (fun _ => True) (fun _ _ _ _ => trivial) (fun w x _ h => w.stepIn_eq x h) trivial hheld
  obtain ⟨taken, hat⟩ := (At.start g d).run (events.map Prod.fst)
  rw [List.nil_append, List.nil_append, ← hsame] at hat
  exact hat.connection

/-- A mass quote of one entry in two pieces, with a heartbeat between them. -/
def quoting : List (Event × Bytes) :=
  [(.arrive [0], []), (.arrive [1, 82, 0, 79, 85], []), (.turn, []), (.heartbeat, []),
    (.arrive (Gateway.quotePayload 1 [⟨70616, 6000, 6010, 10, 20⟩]), []), (.turn, [7, 7, 7])]

theorem serves_connection_quoting :
    let w := run stepIn { gateway := { wallNs := { reading := fun _ => 0 } } } quoting
    let stream := arrived (quoting.map Prod.fst)
    let c := connection { wallNs := { reading := fun _ => 0 } } {} stream.length stream
    answers w.sent <+: c.1 ∧
      (w.phase = .closed ∨ nextPacket w.inbox = none →
        answers w.sent = c.1 ∧ w.gateway = c.2.1 ∧ w.desk = c.2.2) :=
  serves_connection { wallNs := { reading := fun _ => 0 } } {} quoting (by decide +kernel)

end Worker

end BistColo.Mock
