import BistColo.Ouch.Packets
import BistColo.Ouch.Tokens
/-!
# Refused requests

A request is refused when its call returns an error and the socket was not
given a byte. The throttler counts a call before the rest of it is checked,
and the registry and the order book are written before the session is asked,
so most refusals leave a trace: `refused_untraced_iff` says which do not.
-/

open StreamKit

namespace BistColo

/-! ## Errors and the socket -/

/-- A closed socket is not given anything. -/
theorem TcpSocket.drain_closed {k : TcpSocket} {buf : Bytes} (hk : k.isOpen = false) (hbuf : buf ≠ []) :
    ∃ e, k.drain buf = ⟨some e, buf, k⟩ := by
  obtain ⟨b, buf, rfl⟩ := List.exists_cons_of_ne_nil hbuf
  refine ⟨makeError .io "send on closed socket", ?_⟩
  rw [drain, List.length_cons, drainN, if_neg hbuf, send, if_pos hk]

/-- A loop that fails on an open socket used up an answer. -/
theorem TcpSocket.drainN_error_sends (fuel : Nat) {k : TcpSocket} {buf : Bytes} {e : Error} (hk : k.isOpen = true)
    (h : (k.drainN fuel buf).error = some e) : (k.drainN fuel buf).socket.sends.length < k.sends.length := by
  induction fuel generalizing k buf with
  | zero => cases h
  | succ fuel ih =>
    rw [drainN] at h ⊢
    split at h
    · cases h
    · rename_i hbuf
      rw [if_neg hbuf]
      rcases hs : k.send buf with ⟨r, k'⟩
      rw [hs] at h
      obtain ⟨hsame, hsuf, -⟩ := send_spec hs
      rcases r with e' | n
      · unfold send at hs
        rw [if_neg (by simp [hk])] at hs
        split at hs
        · cases hs
        · cases hs
        · rename_i errno rest hsends
          cases hs
          simp [hsends]
      · cases n with
        | zero => cases h
        | succ n =>
          have hk' : k'.isOpen = true := hsame.1.trans hk
          exact Nat.lt_of_lt_of_le (ih hk' h) hsuf.length_le

namespace Ouch

namespace OuchSession

theorem writeBytes_fails {s : OuchSession} {buf : Bytes} {e : Error} (hk : s.socket.isOpen = true)
    (h : (s.writeBytes buf).1 = .error e) : (s.writeBytes buf).2.socket.sends.length < s.socket.sends.length := by
  unfold writeBytes at h ⊢
  dsimp only at h ⊢
  split at h
  · rename_i e' he
    exact TcpSocket.drainN_error_sends _ hk he
  · split at h <;> cases h

theorem writeBytes_sends (s : OuchSession) (buf : Bytes) : (s.writeBytes buf).2.socket.sends <:+ s.socket.sends := by
  obtain ⟨-, -, -, -, hsuf, -⟩ := s.socket.drain_spec buf
  unfold writeBytes
  dsimp only
  split
  · exact hsuf
  · split
    · exact hsuf
    · exact hsuf

/-- An Active session on an open socket fails only by what the socket answers. -/
theorem send_error_socket {s : OuchSession} {m : Outgoing} {e : Error} (hactive : s.state = .active)
    (hk : s.socket.isOpen = true) (h : (s.send m).1 = .error e) : (s.send m).2.socket ≠ s.socket := by
  suffices hlt : (s.send m).2.socket.sends.length < s.socket.sends.length by
    intro heq
    rw [heq] at hlt
    exact absurd hlt (Nat.lt_irrefl _)
  rw [send_eq] at h ⊢
  unfold sendUnsequenced at h ⊢
  rw [if_neg (by simp [hactive])] at h ⊢
  dsimp only at h ⊢
  generalize (Soup.makeHeader Soup.Pkt.unsequencedData (UInt16.ofNat m.bytes.length)).bytes = hdr at h ⊢
  have hheader : ((s.emit (.request (hdr ++ m.bytes))).writeBytes hdr).1 = .error e → _ := writeBytes_fails hk
  obtain ⟨-, -, -, -, hsuf, hsame⟩ := (s.emit (.request (hdr ++ m.bytes))).socket.drain_spec hdr
  split at h
  · rename_i e' s1 he
    rw [he] at hheader
    exact hheader h
  · rename_i s1 he
    have hs1 := sameInput_writeBytes (s.emit (.request (hdr ++ m.bytes))) hdr
    have hle := (writeBytes_sends (s.emit (.request (hdr ++ m.bytes))) hdr).length_le
    rw [he] at hs1 hle
    exact Nat.lt_of_lt_of_le (writeBytes_fails (hs1.socket.1.trans hk) h) hle

/-- A session reports a refused message as such, or as an I/O error. -/
theorem send_category {s s' : OuchSession} {m : Outgoing} {e : Error} (h : s.send m = (.error e, s')) :
    e.category = .stateMismatch ∨ e.category = .io := by
  rw [send_eq, sendUnsequenced] at h
  split at h
  · cases h
    exact .inl rfl
  · dsimp only at h
    split at h
    · rename_i hw
      cases h
      exact .inr (writeBytes_error hw)
    · exact .inr (writeBytes_error h)

/-- A session that is not Active, or whose socket is closed, sends nothing. -/
theorem send_unsent {s : OuchSession} (m : Outgoing) (h : ¬ (s.state = .active ∧ s.socket.isOpen = true)) :
    ∃ e, (s.send m).1 = .error e ∧ (s.send m).2.socket = s.socket := by
  rw [send_eq]
  unfold sendUnsequenced
  by_cases hactive : s.state = .active
  · rw [if_neg (by simp [hactive])]
    have hk : s.socket.isOpen = false := by simpa [hactive] using h
    dsimp only
    generalize hhdr : (Soup.makeHeader Soup.Pkt.unsequencedData (UInt16.ofNat m.bytes.length)).bytes = hdr
    have hne : hdr ≠ [] := by
      rw [← hhdr]
      exact List.cons_ne_nil _ _
    obtain ⟨e, he⟩ := TcpSocket.drain_closed hk hne
    have hw : (s.emit (.request (hdr ++ m.bytes))).writeBytes hdr =
        (.error e, (s.emit (.request (hdr ++ m.bytes))).withSocket s.socket) := by
      have hsock : (s.emit (.request (hdr ++ m.bytes))).socket = s.socket := rfl
      rw [writeBytes, hsock, he]
    rw [hw]
    exact ⟨e, rfl, rfl⟩
  · rw [if_pos hactive]
    exact ⟨_, rfl, rfl⟩

end OuchSession

namespace OuchClient

open Domain

/-! ## Tokens that are used already -/

theorem illegalError_ne {r : Request} (h : r.illegal = true) (t : String) :
    illegalError r ≠ makeError .validation (r.taken ++ t) := by
  intro heq
  have hstart := congrArg (fun e : Error => e.detail.toList.take 11) heq
  cases r with
  | replace args => simp [illegalError, Request.taken, makeError] at hstart
  | massQuote args => simp [illegalError, Request.taken, makeError] at hstart
  | place args | cancelByToken token | cancelByOrderId book side id => cases h

/-- A call says that its text is not new if and only if it got to the registry
and was refused there. -/
theorem call_taken_iff (c : OuchClient) (now : UInt64) (r : Request) :
    (∃ t, r.claim = some t ∧ (c.call now r).1 = .error (makeError .validation (r.taken ++ text t))) ↔
      c.Reaches now r ∧ ¬ c.Admits r := by
  constructor
  · rintro ⟨t, ht, he⟩
    have hlegal : r.illegal = false := by
      by_contra hillegal
      rw [Bool.not_eq_false] at hillegal
      rw [call_illegal now hillegal] at he
      exact illegalError_ne hillegal _ (Except.error.inj he)
    have hyes : c.acquires now = true := by
      by_contra hno
      rw [Bool.not_eq_true] at hno
      rw [call_throttled hlegal hno] at he
      have hcat := congrArg Error.category (Except.error.inj he)
      cases r <;> cases hcat
    have hcomplete : r.incomplete = false := by
      by_contra hinc
      rw [Bool.not_eq_false] at hinc
      rw [call_incomplete hlegal hyes hinc] at he
      -- only a replace can be incomplete
      cases r with
      | replace args =>
        have hstart := congrArg (fun e : Error => e.detail.toList.take 1) (Except.error.inj he)
        simp [Request.taken, makeError] at hstart
      | place args | massQuote args | cancelByToken token | cancelByOrderId book side id => cases hinc
    refine ⟨⟨hlegal, hyes, hcomplete⟩, ?_⟩
    intro hadm
    rw [call_submits ⟨hlegal, hyes, hcomplete⟩ hadm] at he
    rcases OuchSession.send_category (Prod.ext he rfl) with hcat | hcat
    · cases hcat
    · cases hcat
  · rintro ⟨hreach, hadm⟩
    obtain ⟨t, ht, he⟩ := call_taken hreach hadm
    exact ⟨t, ht, congrArg Prod.fst he⟩

/-! ## The property and the condition -/

/-- The registry, the order book, and the budget used now and later. -/
structure SameStores (c c' : OuchClient) (now : UInt64) : Prop where
  tokens : c'.tokens = c.tokens
  book : c'.book = c.book
  used : ∀ w, Throttler.windowId now ≤ w → c'.throttler.usedInRollingSecond w = c.throttler.usedInRollingSecond w

/-- If the call returns an error and gave the socket nothing, the stores are
as they were. -/
def LeavesNoTrace (c : OuchClient) : Op → Prop
  | .request now r =>
    ∀ e, (c.call now r).1 = .error e → (c.call now r).2.session.socket = c.session.socket →
      SameStores c (c.call now r).2 now
  | .session _ | .outside _ _ => True

/-- The request is refused at the latest by the throttler, or nothing refuses
it up to the socket. -/
def Untraced (c : OuchClient) : Op → Prop
  | .request now r =>
    r.illegal = true ∨ c.acquires now = false ∨
      (r.incomplete = false ∧ c.Admits r ∧ c.session.state = .active ∧ c.session.socket.isOpen = true)
  | .session _ | .outside _ _ => True

/-- A request the throttler lets through is counted. -/
theorem not_sameStores {c c' : OuchClient} {now : UInt64} (hr : c.throttler.Reached now)
    (hyes : c.acquires now = true) (hc' : c'.throttler = (c.throttler.tryAcquire now).2) : ¬ SameStores c c' now := by
  intro h
  have hused := h.used (Throttler.windowId now) (UInt64.le_refl _)
  rw [hc', Throttler.used_acquired hr.upTo hyes] at hused
  simp at hused

/-- One call. -/
theorem leavesNoTrace_iff {c : OuchClient} {now : UInt64} (hr : c.throttler.Reached now) (r : Request) :
    c.LeavesNoTrace (.request now r) ↔ c.Untraced (.request now r) := by
  simp only [LeavesNoTrace, Untraced]
  rcases c.call_cases now r with
    ⟨hillegal, e, he⟩ | ⟨-, hno, e, he⟩ | ⟨hlegal, hyes, hstops, e, he⟩ | ⟨⟨hlegal, hyes, hcomplete⟩, hadm, he⟩
  · rw [he]
    exact ⟨fun _ => .inl hillegal, fun _ _ _ _ => ⟨rfl, rfl, fun _ _ => rfl⟩⟩
  · -- the throttler may start a slot afresh, but counts nothing
    rw [he]
    exact ⟨fun _ => .inr (.inl hno), fun _ _ _ _ =>
      ⟨rfl, rfl, fun w hw => Throttler.used_refused hr.upTo hw hno⟩⟩
  · rw [he]
    constructor
    · intro h
      exact absurd (h e rfl rfl) (not_sameStores hr hyes rfl)
    · rintro (h | h | ⟨h1, h2, -⟩)
      · simp [hlegal] at h
      · simp [hyes] at h
      · exact absurd ⟨h1, h2⟩ hstops
  · have hresult : (c.call now r).1 = (c.session.send (r.message (c.claimed r).1)).1 := by rw [he]; rfl
    have hsession : (c.call now r).2.session = (c.session.send (r.message (c.claimed r).1)).2 := by rw [he]; rfl
    rw [hresult, hsession]
    by_cases hopen : c.session.state = .active ∧ c.session.socket.isOpen = true
    · -- an error then comes from the socket, which was asked
      refine ⟨fun _ => .inr (.inr ⟨hcomplete, hadm, hopen⟩), ?_⟩
      intro _ e he hsame
      exact absurd hsame (OuchSession.send_error_socket hopen.1 hopen.2 he)
    · obtain ⟨e, hsend, hsame⟩ := OuchSession.send_unsent (r.message (c.claimed r).1) hopen
      constructor
      · intro h
        exact absurd (h e hsend hsame) (not_sameStores hr hyes (by rw [he]; rfl))
      · rintro (h | h | ⟨-, -, h⟩)
        · simp [hlegal] at h
        · simp [hyes] at h
        · exact absurd h hopen

/-! ## Runs -/

/-- What the throttler reads from the clock, in order. -/
def readings (ops : List Op) : List UInt64 :=
  ops.filterMap fun | .request now _ => some now | _ => none

/-- A call leaves the throttler alone or asks it once. -/
theorem throttler_call (c : OuchClient) (now : UInt64) (r : Request) :
    (c.call now r).2.throttler = c.throttler ∨ (c.call now r).2.throttler = (c.throttler.tryAcquire now).2 := by
  rcases c.call_cases now r with ⟨-, e, he⟩ | ⟨-, -, e, he⟩ | ⟨-, -, -, e, he⟩ | ⟨-, -, he⟩
  · exact .inl (by rw [he])
  · exact .inr (by rw [he]; rfl)
  · exact .inr (by rw [he]; rfl)
  · exact .inr (by rw [he]; rfl)

theorem reached_call {c : OuchClient} {now : UInt64} (hr : c.throttler.Reached now) (r : Request) :
    (c.call now r).2.throttler.Reached now := by
  rcases c.throttler_call now r with h | h
  · rw [h]
    exact hr
  · rw [h]
    exact hr.tryAcquire

/-- From any client whose throttler was asked at times up to `t`. -/
theorem allAlong_leavesNoTrace_iff {c : OuchClient} {t : UInt64} {ops : List Op} (hr : c.throttler.Reached t)
    (ht : ∀ now ∈ readings ops, t ≤ now) (hsorted : (readings ops).Pairwise (· ≤ ·)) :
    AllAlong step LeavesNoTrace c ops ↔ AllAlong step Untraced c ops := by
  induction ops generalizing c t with
  | nil => exact Iff.rfl
  | cons op ops ih =>
    rw [allAlong_cons, allAlong_cons]
    cases op with
    | request now r =>
      have hnow := hr.later (ht now List.mem_cons_self)
      obtain ⟨hfirst, hrest⟩ := List.pairwise_cons.1 hsorted
      exact and_congr (leavesNoTrace_iff hnow r) (ih (reached_call hnow r) hfirst hrest)
    | session op => exact and_congr Iff.rfl (ih hr ht hsorted)
    | outside session book => exact and_congr Iff.rfl (ih hr ht hsorted)

/-- In every run with a clock that does not go backwards, all refused requests
leave the stores as they were if and only if none is refused between the
throttler and the socket. -/
theorem refused_untraced_iff (session : OuchSession) (capacity tokensPerSec : UInt64) (book : OrderBook)
    (tokenPrefix : Bytes) {ops : List Op} (hclock : (readings ops).Pairwise (· ≤ ·)) :
    AllAlong step LeavesNoTrace (create session (Throttler.create capacity tokensPerSec) book tokenPrefix) ops ↔
      AllAlong step Untraced (create session (Throttler.create capacity tokensPerSec) book tokenPrefix) ops :=
  allAlong_leavesNoTrace_iff (Throttler.Reached.create capacity tokensPerSec 0)
    (fun _ _ => UInt64.le_iff_toNat_le.2 (Nat.zero_le _)) hclock

/-- Two orders a second apart. -/
theorem refused_untraced_iff_trading :
    let ops := [Op.request 5 (.place { explicitToken := ascii "30" }), Op.request 1000000005 (.place {})]
    AllAlong step LeavesNoTrace trading ops ↔ AllAlong step Untraced trading ops :=
  refused_untraced_iff _ 10 10 {} (ascii "C-") (by decide)

/-- A client whose session has not logged in. -/
def waiting : OuchClient :=
  create (OuchSession.create {} { reading := fun _ => 0 } { username := ascii "OUCH01", password := ascii "secret" }
    Soup.heartbeatSendNs) (Throttler.create 10 10) {} (ascii "C-")

/-- An order before the login is refused, stays in the book as pending, takes
its token and a tenth of the budget, and cannot be tried again. -/
theorem refused_leaves_trace :
    let order : Request := .place { explicitToken := ascii "30" }
    let refused := waiting.call 5 order
    refused.1 = .error (makeError .stateMismatch "session not Active") ∧
    refused.2.session.socket = waiting.session.socket ∧
    waiting.tokens.seen = [] ∧ refused.2.tokens.seen = [ascii "30"] ∧
    waiting.book.find (ascii "30") = none ∧
    (refused.2.book.find (ascii "30")).map (·.status) = some .pending ∧
    waiting.throttler.usedInRollingSecond 0 = 0 ∧ refused.2.throttler.usedInRollingSecond 0 = 1 ∧
    (refused.2.call 6 order).1 = .error (makeError .validation "token already used: 30") ∧
    ¬ AllAlong step LeavesNoTrace waiting [.request 5 order] := by
  refine ⟨by decide +kernel, by decide +kernel, by decide +kernel, by decide +kernel, by decide +kernel,
    by decide +kernel, by decide +kernel, by decide +kernel, by decide +kernel, ?_⟩
  intro h
  have htrace := h.1 (makeError .stateMismatch "session not Active") (by decide +kernel) (by decide +kernel)
  exact absurd htrace.tokens (by decide +kernel)

end OuchClient

end Ouch

end BistColo
