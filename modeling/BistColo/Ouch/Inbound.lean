import BistColo.Ouch.Sides
import BistColo.StreamKit.Runs
/-!
# The read and parse loops

`Read` is all the read loop can do to the input side of a session, and
`takePacket_spec` what one turn of the parse loop does. Everything else leaves
the input side alone, so an invariant of it follows from those two
(`inbound_step`, `inbound_run`).
-/

open StreamKit

namespace BistColo.Ouch

open Soup

namespace OuchSession

/-! ## Reading -/

/-- `s'` is `s` after it read `bytes` from the socket. -/
structure Read (s s' : OuchSession) (bytes : Bytes) : Prop where
  isOpen : s'.socket.isOpen = s.socket.isOpen
  received : s'.socket.received = s.socket.received ++ bytes
  inBuffer : s'.inBuffer = s.inBuffer ++ bytes
  assignedSession : s'.assignedSession = s.assignedSession
  nextInboundSeq : s'.nextInboundSeq = s.nextInboundSeq
  active : s'.state = .active → s.state = .active
  log : ∃ es, s'.log = s.log ++ es ∧ inbound es = []

theorem Read.refl (s : OuchSession) : Read s s [] :=
  ⟨rfl, (List.append_nil _).symm, (List.append_nil _).symm, rfl, rfl, id, [], (List.append_nil _).symm, rfl⟩

theorem Read.trans {s s' s'' : OuchSession} {as bs : Bytes} (h : Read s s' as) (h' : Read s' s'' bs) :
    Read s s'' (as ++ bs) := by
  obtain ⟨es, hes, hin⟩ := h.log
  obtain ⟨es', hes', hin'⟩ := h'.log
  exact ⟨h'.isOpen.trans h.isOpen, by rw [h'.received, h.received, List.append_assoc],
    by rw [h'.inBuffer, h.inBuffer, List.append_assoc], h'.assignedSession.trans h.assignedSession,
    h'.nextInboundSeq.trans h.nextInboundSeq, fun ha => h.active (h'.active ha),
    es ++ es', by rw [hes', hes, List.append_assoc], by rw [inbound_append, hin, hin', List.append_nil]⟩

theorem Read.inbound_eq {s s' : OuchSession} {bytes : Bytes} (h : Read s s' bytes) : inbound s'.log = inbound s.log := by
  obtain ⟨es, hes, hin⟩ := h.log
  rw [hes, inbound_append, hin, List.append_nil]

/-- Input that arrives without any: the two sides' frame conditions meet here. -/
theorem SameInput.read {s s' : OuchSession} (h : SameInput s s') : Read s s' [] :=
  ⟨h.socket.1, by rw [h.socket.2.2, List.append_nil], by rw [h.inBuffer, List.append_nil], h.assignedSession,
    h.nextInboundSeq, h.active, h.log⟩

/-- The session after one chunk, when `rest` are the answers behind it. -/
def hear (s : OuchSession) (c : Chunk) (rest : List RecvAnswer) : OuchSession :=
  (s.withSocket { s.socket with recvs := rest, received := s.socket.received ++ c.bytes }).append c.bytes

theorem read_hear (s : OuchSession) (c : Chunk) (rest : List RecvAnswer) : Read s (s.hear c rest) c.bytes :=
  ⟨rfl, rfl, rfl, rfl, rfl, id, [], (List.append_nil _).symm, rfl⟩

/-- The answers up to the first that is not data, and how the loop ends there. -/
theorem readLoop_chunks (chunks : List Chunk) (rest : List RecvAnswer) (fuel : Nat) (s : OuchSession)
    (hopen : s.socket.isOpen = true) (hr : s.socket.recvs = chunks.map .data ++ rest) :
    ∃ s', Read s s' (chunks.flatMap Chunk.bytes) ∧ s'.socket.recvs = rest ∧
      s.readLoop (chunks.length + fuel) = s'.readLoop fuel := by
  induction chunks generalizing s with
  | nil => exact ⟨s, .refl s, hr, by simp⟩
  | cons c chunks ih =>
    obtain ⟨s', hread, hrest, hloop⟩ := ih (s.hear c (chunks.map .data ++ rest)) hopen rfl
    refine ⟨s', (read_hear s c _).trans hread, hrest, ?_⟩
    have hrecv : s.socket.recv = (.ok c.bytes,
        { s.socket with recvs := chunks.map .data ++ rest, received := s.socket.received ++ c.bytes }) := by
      rw [TcpSocket.recv, if_neg (by simp [hopen]), hr]
      rfl
    rw [List.length_cons, Nat.add_right_comm, readLoop, hrecv]
    simp only [if_neg c.nonempty]
    exact hloop

/-- How the read loop ends at an answer that is not data. -/
inductive Ends : List RecvAnswer → Result Unit → Prop
  | used : Ends [] (.ok ())
  | again (r) : Ends (.again :: r) (.ok ())
  | eof (r) : Ends (.eof :: r) (.error (makeError .io "eof"))
  | fail (errno r) : Ends (.fail errno :: r) (.error (makeError .io ("recv: " ++ errno)))

/-- Every list of answers is some chunks, possibly none, and an end. -/
theorem answers_split (as : List RecvAnswer) : ∃ (chunks : List Chunk) (rest : List RecvAnswer) (r : Result Unit),
    as = chunks.map .data ++ rest ∧ Ends rest r := by
  induction as with
  | nil => exact ⟨[], [], _, rfl, .used⟩
  | cons a as ih =>
    obtain ⟨chunks, rest, r, rfl, hr⟩ := ih
    cases a with
    | data c => exact ⟨c :: chunks, rest, r, rfl, hr⟩
    | again => exact ⟨[], _, _, rfl, .again _⟩
    | eof => exact ⟨[], _, _, rfl, .eof _⟩
    | fail errno => exact ⟨[], _, _, rfl, .fail errno _⟩

theorem read_withRecvs (s : OuchSession) (r : List RecvAnswer) :
    Read s (s.withSocket { s.socket with recvs := r }) [] :=
  ⟨rfl, (List.append_nil _).symm, (List.append_nil _).symm, rfl, rfl, id, [], (List.append_nil _).symm, rfl⟩

theorem readLoop_end {s : OuchSession} {rest : List RecvAnswer} {r : Result Unit} (fuel : Nat)
    (hopen : s.socket.isOpen = true) (hs : s.socket.recvs = rest) (hr : Ends rest r) :
    ∃ s', s.readLoop (fuel + 1) = (r, s') ∧ Read s s' [] ∧ s'.socket.recvs = rest.tail := by
  have hclosed : ¬ s.socket.isOpen = false := by simp [hopen]
  rw [readLoop, TcpSocket.recv, if_neg hclosed, hs]
  cases hr with
  | used => exact ⟨_, rfl, read_withRecvs s s.socket.recvs, hs⟩
  | again r => exact ⟨_, rfl, read_withRecvs s r, rfl⟩
  | eof r => exact ⟨_, rfl, (read_withRecvs s r).trans (sameInput_setState _ _ (by decide)).read, rfl⟩
  | fail errno r =>
    dsimp only
    split
    · exact ⟨_, rfl, (read_withRecvs s r).trans (sameInput_setState _ _ (by decide)).read, rfl⟩
    · exact ⟨_, rfl, read_withRecvs s r, rfl⟩

/-- What `read_some` does on an open socket that answers with some chunks and
then an end. -/
theorem readSome_spec {s : OuchSession} {chunks : List Chunk} {rest : List RecvAnswer} {r : Result Unit}
    (hopen : s.socket.isOpen = true) (hs : s.socket.recvs = chunks.map .data ++ rest) (hr : Ends rest r) :
    ∃ s', s.readSome = (r, s') ∧ Read s s' (chunks.flatMap Chunk.bytes) ∧ s'.socket.recvs = rest.tail := by
  obtain ⟨s1, hread, hs1, hloop⟩ := readLoop_chunks chunks rest (rest.length + 1) s hopen hs
  obtain ⟨s2, hend, hread', hs2⟩ := readLoop_end rest.length (hread.isOpen.trans hopen) hs1 hr
  refine ⟨s2, ?_, ?_, hs2⟩
  · rw [readSome, if_neg (by simp [hopen]), hs, List.length_append, List.length_map, Nat.add_assoc, hloop, hend]
  · simpa using hread.trans hread'

/-- Whatever the read loop meets, it has read some bytes. -/
theorem readSome_read (s : OuchSession) : ∃ bytes, Read s s.readSome.2 bytes := by
  by_cases hopen : s.socket.isOpen = true
  · obtain ⟨chunks, rest, r, hs, hr⟩ := answers_split s.socket.recvs
    obtain ⟨s', he, hread, -⟩ := readSome_spec hopen hs hr
    rw [he]
    exact ⟨_, hread⟩
  · rw [readSome, if_pos (by simpa using hopen)]
    exact ⟨[], .refl s⟩

/-! ## Taking packets off the buffer -/

theorem dispatchPacket_socket (s : OuchSession) (type : UInt8) (mem : Bytes) (payloadLen : UInt64) :
    (s.dispatchPacket type mem payloadLen).2.socket = s.socket ∧
      (s.dispatchPacket type mem payloadLen).2.inBuffer = s.inBuffer := by
  rcases dispatchPacket_cases s type mem payloadLen with ⟨-, -, h⟩ | ⟨-, h⟩ | ⟨-, -, h⟩
  · rw [h]
    exact ⟨rfl, rfl⟩
  · rw [h]
    rcases dispatchOuch_cases s.countRecv.countSequenced mem payloadLen with ⟨detail, h'⟩ | ⟨m, h'⟩
    · rw [h']
      exact ⟨rfl, rfl⟩
    · rw [h']
      exact ⟨rfl, rfl⟩
  · exact ⟨h.socket, h.inBuffer⟩

/-- A dispatch does not dispatch again. -/
theorem dispatchCalls_dispatchPacket (s : OuchSession) (type : UInt8) (mem : Bytes) (payloadLen : UInt64) :
    dispatchCalls (s.dispatchPacket type mem payloadLen).2.log = dispatchCalls s.log := by
  rcases dispatchPacket_cases s type mem payloadLen with ⟨-, -, h⟩ | ⟨-, h⟩ | ⟨-, -, h⟩
  · rw [h]
    simp [acceptLogin, setState, emit, countRecv, dispatchCalls]
  · rw [h]
    rcases dispatchOuch_cases s.countRecv.countSequenced mem payloadLen with ⟨detail, h'⟩ | ⟨m, h'⟩
    · rw [h']
      simp [countSequenced, emit, countRecv, dispatchCalls]
    · rw [h']
      simp [countSequenced, emit, countRecv, dispatchCalls]
  · obtain ⟨es, hlog, hin, -⟩ := h.log
    rw [hlog, dispatchCalls_append, ← dispatchCalls_inbound es, hin]
    exact List.append_nil _

/-- One turn of the parse loop takes the first packet off and dispatches it. -/
theorem takePacket_spec {s : OuchSession} {f : Frame} {rest : Bytes} (h : soup.next s.inBuffer = some (f, rest)) :
    (s.takePacket (Header.read s.inBuffer)).2.inBuffer = rest ∧
      (s.takePacket (Header.read s.inBuffer)).2.socket = s.socket ∧
      dispatchCalls (s.takePacket (Header.read s.inBuffer)).2.log = dispatchCalls s.log ++
        [⟨f, f.payloadLen, dispatchReads f.packetType (s.inBuffer.drop headerLen) f.payloadLen⟩] := by
  obtain ⟨-, -, rfl, rfl⟩ := Frame.next_eq_some.1 h
  have hd := dispatchPacket_socket (s.announce (Header.read s.inBuffer)) (Header.read s.inBuffer).packetType
    (s.inBuffer.drop headerLen) (Header.read s.inBuffer).payloadLen
  refine ⟨?_, hd.1, ?_⟩
  · rw [takePacket, erase, hd.2]
    rfl
  · rw [takePacket, erase, dispatchCalls_dispatchPacket]
    simp [announce, emit, dispatchCalls]
    exact ⟨rfl, rfl⟩

theorem dispatched_takePacket {s : OuchSession} {f : Frame} {rest : Bytes}
    (h : soup.next s.inBuffer = some (f, rest)) :
    dispatched (s.takePacket (Header.read s.inBuffer)).2.log = dispatched s.log ++ [(f, f.payloadLen)] := by
  rw [dispatched, (takePacket_spec h).2.2, List.map_append]
  rfl

/-- The parse loop stops at a buffer without a complete packet. -/
theorem parseLoop_none {s : OuchSession} (fuel : Nat) (h : soup.next s.inBuffer = none) :
    s.parseLoop fuel = (.ok (), s) := by
  cases fuel with
  | zero => rfl
  | succ fuel =>
    rw [soup_next, Frame.next] at h
    split at h
    · rename_i hshort
      rw [parseLoop]
      rcases hshort with h3 | hsize
      · rw [if_pos h3]
      · split
        · rfl
        · exact if_pos hsize
    · cases h

/-- With a complete packet in front the loop takes it, and goes on unless the
dispatch returned an error. -/
theorem parseLoop_some {s : OuchSession} {f : Frame} {rest : Bytes} (fuel : Nat)
    (h : soup.next s.inBuffer = some (f, rest)) :
    s.parseLoop (fuel + 1) = match s.takePacket (Header.read s.inBuffer) with
      | (.error e, s') => (.error e, s')
      | (.ok (), s') => s'.parseLoop fuel := by
  obtain ⟨h3, hsize, -, -⟩ := Frame.next_eq_some.1 h
  rw [parseLoop, if_neg (Nat.not_lt.2 h3)]
  exact if_neg (Nat.not_lt.2 hsize)

/-! ## Invariants of the input side -/

section Invariant

variable {I : OuchSession → Prop} (hread : ∀ s s' bytes, Read s s' bytes → I s → I s')
  (htake : ∀ s f rest, soup.next s.inBuffer = some (f, rest) → I s → I (s.takePacket (Header.read s.inBuffer)).2)

include htake in
theorem inbound_parseLoop (fuel : Nat) {s : OuchSession} (h : I s) : I (s.parseLoop fuel).2 := by
  induction fuel generalizing s with
  | zero => exact h
  | succ fuel ih =>
    cases hn : soup.next s.inBuffer with
    | none =>
      rw [parseLoop_none _ hn]
      exact h
    | some p =>
      have ht := htake s p.1 p.2 hn h
      rw [parseLoop_some fuel hn]
      split
      · rename_i he
        rwa [he] at ht
      · rename_i he
        rw [he] at ht
        exact ih ht

include hread htake

/-- What reading and taking a packet keep, every operation keeps. -/
theorem inbound_step {s : OuchSession} (op : Op) (h : I s) : I (s.step op) := by
  cases op with
  | beginLogin => exact hread _ _ _ (sameInput_beginLogin s).read h
  | send m => exact hread _ _ _ (sameInput_send s m).read h
  | requestLogout => exact hread _ _ _ (sameInput_requestLogout s).read h
  | pollIo =>
    obtain ⟨bytes, hr⟩ := readSome_read s
    have h1 := hread _ _ _ hr h
    unfold step exec pollIo
    dsimp only
    split
    · rename_i he
      rwa [he] at h1
    · rename_i s1 he
      rw [he] at h1
      have h2 := inbound_parseLoop htake s1.inBuffer.length h1
      split
      · rename_i he2
        rw [parsePending] at he2
        rwa [he2] at h2
      · rename_i s2 he2
        rw [parsePending] at he2
        rw [he2] at h2
        exact hread _ _ _ (sameInput_tickTimers s2).read h2

/-- So it holds in every state a session reaches. -/
theorem inbound_run {s : OuchSession} (ops : List Op) (h : I s) : I (run step s ops) :=
  run_inv_all I (fun _ op => inbound_step hread htake op) h

end Invariant

end OuchSession

end BistColo.Ouch
