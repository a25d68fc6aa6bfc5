import BistColo.Core
/-!
# The TCP socket

`net/tcp_socket.hpp`. What the kernel answers to each `::send` and `::recv` is
given with the socket, in order; a socket whose answers are used up says
EAGAIN from then on. `wire` and `received` are the history of the stream: the
bytes the kernel took, and the bytes it handed over.
-/

open StreamKit

namespace BistColo

/-- The answer to one `::send`: up to `n` bytes taken (none is EAGAIN), or an error. -/
inductive SendAnswer
  | accept (n : Nat)
  | fail (errno : String)
deriving DecidableEq

/-- What one `::recv` into the session's scratch buffer can deliver. -/
structure Chunk where
  bytes : Bytes
  nonempty : bytes ≠ []
  fits : bytes.length ≤ 8192
deriving DecidableEq

/-- The answer to one `::recv`: a chunk, EAGAIN, end of file, or an error. -/
inductive RecvAnswer
  | data (c : Chunk)
  | again
  | eof
  | fail (errno : String)
deriving DecidableEq

structure TcpSocket where
  isOpen : Bool := true
  sends : List SendAnswer := []
  recvs : List RecvAnswer := []
  wire : Bytes := []
  received : Bytes := []
deriving DecidableEq

namespace TcpSocket

def send (k : TcpSocket) (buf : Bytes) : Result Nat × TcpSocket :=
  if k.isOpen = false then (.error (makeError .io "send on closed socket"), k)
  else match k.sends with
    | [] => (.ok 0, k)
    | .accept n :: rest =>
      (.ok (min n buf.length), { k with sends := rest, wire := k.wire ++ buf.take (min n buf.length) })
    | .fail errno :: rest => (.error (makeError .io ("send: " ++ errno)), { k with sends := rest })

/-- `recv` with the session's 8192 byte buffer; no bytes is EAGAIN. -/
def recv (k : TcpSocket) : Result Bytes × TcpSocket :=
  if k.isOpen = false then (.error (makeError .io "recv on closed socket"), k)
  else match k.recvs with
    | [] => (.ok [], k)
    | .data c :: rest => (.ok c.bytes, { k with recvs := rest, received := k.received ++ c.bytes })
    | .again :: rest => (.ok [], { k with recvs := rest })
    | .eof :: rest => (.error (makeError .io "eof"), { k with recvs := rest })
    | .fail errno :: rest => (.error (makeError .io ("recv: " ++ errno)), { k with recvs := rest })

/-! ## Sending a whole buffer -/

/-- How a send loop ends: with the error it met or without, and with the part
of the buffer that the socket did not take. -/
structure Drained where
  error : Option Error
  left : Bytes
  socket : TcpSocket

/-- The send loop of `write_bytes` and `flush_pending`: until the buffer is
empty, the socket takes nothing, or it fails. Each turn takes a byte off. -/
def drainN : Nat → TcpSocket → Bytes → Drained
  | 0, k, buf => ⟨none, buf, k⟩
  | fuel + 1, k, buf =>
    if buf = [] then ⟨none, [], k⟩
    else match k.send buf with
      | (.error e, k) => ⟨some e, buf, k⟩
      | (.ok 0, k) => ⟨none, buf, k⟩
      | (.ok n, k) => drainN fuel k (buf.drop n)

def drain (k : TcpSocket) (buf : Bytes) : Drained := k.drainN buf.length buf

/-- The next `::send` takes nothing. -/
def blocked (k : TcpSocket) : Bool :=
  match k.sends with
  | [] => true
  | .accept n :: _ => n == 0
  | .fail _ :: _ => false

/-- No send of this socket fails. -/
def NoSendErrors (k : TcpSocket) : Prop := k.isOpen = true ∧ ∀ a ∈ k.sends, ∃ n, a = .accept n

/-- Two sockets that differ in their sending side only. -/
def SameInput (k k' : TcpSocket) : Prop :=
  k'.isOpen = k.isOpen ∧ k'.recvs = k.recvs ∧ k'.received = k.received

theorem SameInput.refl (k : TcpSocket) : SameInput k k := ⟨rfl, rfl, rfl⟩

theorem SameInput.trans {k k' k'' : TcpSocket} (h : SameInput k k') (h' : SameInput k' k'') : SameInput k k'' :=
  ⟨h'.1.trans h.1, h'.2.1.trans h.2.1, h'.2.2.trans h.2.2⟩

/-- What one `send` does: a prefix of the buffer goes out and answers are used
up. A failed send takes nothing. -/
theorem send_spec {k k' : TcpSocket} {buf : Bytes} {r : Result Nat} (h : k.send buf = (r, k')) :
    SameInput k k' ∧ k'.sends <:+ k.sends ∧
      match r with
      | .ok n => n ≤ buf.length ∧ k'.wire = k.wire ++ buf.take n
      | .error _ => k'.wire = k.wire := by
  unfold send at h
  split at h
  · cases h
    exact ⟨.refl k, List.suffix_rfl, rfl⟩
  · split at h
    · cases h
      exact ⟨.refl k, List.suffix_rfl, Nat.zero_le _, by simp⟩
    · rename_i n rest hs
      cases h
      exact ⟨⟨rfl, rfl, rfl⟩, by simp [hs], Nat.min_le_right .., rfl⟩
    · rename_i errno rest hs
      cases h
      exact ⟨⟨rfl, rfl, rfl⟩, by simp [hs], rfl⟩

/-- What a send loop does: a prefix of the buffer goes out, the rest is left. -/
theorem drainN_spec (fuel : Nat) (k : TcpSocket) (buf : Bytes) :
    ∃ n, n ≤ buf.length ∧ (k.drainN fuel buf).socket.wire = k.wire ++ buf.take n ∧
      (k.drainN fuel buf).left = buf.drop n ∧ (k.drainN fuel buf).socket.sends <:+ k.sends ∧
      SameInput k (k.drainN fuel buf).socket := by
  induction fuel generalizing k buf with
  | zero => exact ⟨0, Nat.zero_le _, by simp [drainN], by simp [drainN], List.suffix_rfl, .refl k⟩
  | succ fuel ih =>
    by_cases hbuf : buf = []
    · exact ⟨0, Nat.zero_le _, by simp [drainN, hbuf], by simp [drainN, hbuf], by simp [drainN, hbuf],
        by simp [drainN, hbuf, SameInput.refl]⟩
    · rcases hs : k.send buf with ⟨r, k'⟩
      obtain ⟨hsame, hsuf, hr⟩ := send_spec hs
      rcases r with e | n
      · exact ⟨0, Nat.zero_le _, by simpa [drainN, hbuf, hs] using hr, by simp [drainN, hbuf, hs],
          by simpa [drainN, hbuf, hs] using hsuf, by simpa [drainN, hbuf, hs] using hsame⟩
      · obtain ⟨hn, hw⟩ := hr
        cases n with
        | zero =>
          -- it took nothing, and the whole buffer is left
          exact ⟨0, Nat.zero_le _, by simpa [drainN, hbuf, hs] using hw, by simp [drainN, hbuf, hs],
            by simpa [drainN, hbuf, hs] using hsuf, by simpa [drainN, hbuf, hs] using hsame⟩
        | succ n =>
          -- the socket took a part, and the loop goes on behind it
          obtain ⟨m, hm, hwire, hleft, hsuf', hsame'⟩ := ih k' (buf.drop (n + 1))
          have hd : k.drainN (fuel + 1) buf = k'.drainN fuel (buf.drop (n + 1)) := by
            simp [drainN, hbuf, hs]
          rw [hd]
          refine ⟨n + 1 + m, ?_, ?_, ?_, hsuf'.trans hsuf, hsame.trans hsame'⟩
          · rw [List.length_drop] at hm
            omega
          · rw [hwire, hw, List.append_assoc, ← List.take_add]
          · rw [hleft, List.drop_drop]

/-- What the whole loop does. -/
theorem drain_spec (k : TcpSocket) (buf : Bytes) :
    ∃ n, n ≤ buf.length ∧ (k.drain buf).socket.wire = k.wire ++ buf.take n ∧
      (k.drain buf).left = buf.drop n ∧ (k.drain buf).socket.sends <:+ k.sends ∧
      SameInput k (k.drain buf).socket :=
  drainN_spec ..

/-- A socket that blocks takes nothing of a buffer. -/
theorem drain_blocked {k : TcpSocket} {buf : Bytes} (hk : k.isOpen = true) (hb : k.blocked = true) (hbuf : buf ≠ []) :
    (k.drain buf).left = buf ∧ (k.drain buf).error = none ∧ (k.drain buf).socket.wire = k.wire := by
  obtain ⟨b, buf, rfl⟩ := List.exists_cons_of_ne_nil hbuf
  unfold blocked at hb
  unfold drain
  rw [List.length_cons, drainN, if_neg hbuf]
  split at hb
  · rename_i h
    simp [send, hk, h]
  · rename_i n rest h
    obtain rfl : n = 0 := by simpa using hb
    simp [send, hk, h]
  · cases hb

theorem send_error {k k' : TcpSocket} {buf : Bytes} {e : Error} (h : k.send buf = (.error e, k')) :
    e.category = .io := by
  unfold send at h
  split at h
  · cases h
    rfl
  · split at h
    · cases h
    · cases h
    · cases h
      rfl

theorem drainN_error (fuel : Nat) {k : TcpSocket} {buf : Bytes} {e : Error}
    (h : (k.drainN fuel buf).error = some e) : e.category = .io := by
  induction fuel generalizing k buf with
  | zero => cases h
  | succ fuel ih =>
    rw [drainN] at h
    split at h
    · cases h
    · split at h
      · rename_i hs
        cases h
        exact send_error hs
      · cases h
      · exact ih h

/-- A loop that meets an error has bytes left. -/
theorem drainN_error_left (fuel : Nat) {k : TcpSocket} {buf : Bytes} {e : Error}
    (h : (k.drainN fuel buf).error = some e) : (k.drainN fuel buf).left ≠ [] := by
  induction fuel generalizing k buf with
  | zero => cases h
  | succ fuel ih =>
    rw [drainN] at h ⊢
    split at h
    · cases h
    · rename_i hbuf
      rw [if_neg hbuf]
      split at h
      · exact hbuf
      · cases h
      · exact ih h

theorem drain_error_left (k : TcpSocket) {buf : Bytes} {e : Error} (h : (k.drain buf).error = some e) :
    (k.drain buf).left ≠ [] :=
  drainN_error_left _ h

/-- The answers up to the first that takes nothing take `n` bytes. -/
def takes : List SendAnswer → Nat → Bool
  | _, 0 => true
  | .accept (m + 1) :: rest, n + 1 => takes rest (n - m)
  | _, _ + 1 => false

theorem drainN_left (fuel : Nat) {k : TcpSocket} (hk : k.isOpen = true) {buf : Bytes} (hfuel : buf.length ≤ fuel) :
    (k.drainN fuel buf).left = [] ↔ takes k.sends buf.length = true := by
  induction fuel generalizing k buf with
  | zero =>
    obtain rfl := List.eq_nil_of_length_eq_zero (Nat.le_zero.1 hfuel)
    simp [drainN, takes]
  | succ fuel ih =>
    cases buf with
    | nil => simp [drainN, takes]
    | cons b buf =>
      rw [drainN, if_neg (List.cons_ne_nil b buf), send, if_neg (by simp [hk])]
      rcases hs : k.sends with _ | ⟨a, rest⟩
      · simp [takes]
      · cases a with
        | fail errno => simp [takes]
        | accept n =>
          cases n with
          | zero => simp [takes]
          | succ m =>
            -- the loop goes on with what the first answer leaves over
            have hmin : min (m + 1) (b :: buf).length = min m buf.length + 1 := by
              rw [List.length_cons]
              omega
            have hlen : ((b :: buf).drop (min m buf.length + 1)).length = buf.length - m := by
              rw [List.length_drop, List.length_cons]
              omega
            dsimp only
            rw [hmin]
            rw [List.length_cons] at hfuel
            have hrest := @ih { k with sends := rest, wire := k.wire ++ (b :: buf).take (min m buf.length + 1) } hk
              ((b :: buf).drop (min m buf.length + 1)) (by rw [hlen]; omega)
            rw [hlen] at hrest
            exact hrest

/-- A buffer goes out whole exactly when the answers take its length. -/
theorem drain_left {k : TcpSocket} (hk : k.isOpen = true) (buf : Bytes) :
    (k.drain buf).left = [] ↔ takes k.sends buf.length = true :=
  drainN_left _ hk le_rfl

/-! ## Without send errors -/

theorem NoSendErrors.send {k k' : TcpSocket} {buf : Bytes} {r : Result Nat} (h : k.NoSendErrors)
    (hs : k.send buf = (r, k')) : k'.NoSendErrors ∧ ∃ n, r = .ok n := by
  obtain ⟨hsame, hsuf, -⟩ := send_spec hs
  refine ⟨⟨hsame.1.trans h.1, fun a ha => h.2 a (hsuf.subset ha)⟩, ?_⟩
  unfold TcpSocket.send at hs
  rw [if_neg (by simp [h.1])] at hs
  split at hs
  · cases hs
    exact ⟨_, rfl⟩
  · cases hs
    exact ⟨_, rfl⟩
  · rename_i errno rest hsends
    obtain ⟨n, hn⟩ := h.2 (.fail errno) (by simp [hsends])
    cases hn

/-- The loop then ends because the buffer is empty or the socket takes nothing. -/
theorem drainN_noErrors (fuel : Nat) {k : TcpSocket} (h : k.NoSendErrors) (buf : Bytes) :
    (k.drainN fuel buf).error = none := by
  induction fuel generalizing k buf with
  | zero => rfl
  | succ fuel ih =>
    by_cases hbuf : buf = []
    · simp [drainN, hbuf]
    · rcases hs : k.send buf with ⟨r, k'⟩
      obtain ⟨hk', n, rfl⟩ := h.send hs
      cases n with
      | zero => simp [drainN, hbuf, hs]
      | succ n => simpa [drainN, hbuf, hs] using ih hk' (buf.drop (n + 1))

theorem NoSendErrors.drain {k : TcpSocket} (h : k.NoSendErrors) (buf : Bytes) :
    (k.drain buf).error = none ∧ (k.drain buf).socket.NoSendErrors := by
  obtain ⟨-, -, -, -, hsuf, hsame⟩ := drain_spec k buf
  exact ⟨drainN_noErrors _ h buf, hsame.1.trans h.1, fun a ha => h.2 a (hsuf.subset ha)⟩

end TcpSocket

end BistColo
