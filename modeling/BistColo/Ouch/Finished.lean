import BistColo.Ouch.Booking
/-!
# Finished orders

An entry of the order book is NotOnBook once it is filled or cancelled, and
should stay so until its token is entered again. `finished_stays_iff` says in
which runs of requests and gateway messages it does: no cancel, replace or
acceptance meets a finished entry, and no acceptance reports an order with
nothing open. The statuses are written without a look at the old one: in
`late_acceptance_reopens` a cancelled order is OnBook again.
-/

open StreamKit

namespace BistColo

namespace Domain

/-- What a message of the gateway does to the book. -/
inductive BookEvent
  | accepted (token : Bytes) (id : UInt64) (openQty : Int64)
  | executed (token : Bytes) (traded : Int64)
  | canceled (token : Bytes)
deriving DecidableEq

namespace OrderBook

def handle (b : OrderBook) : BookEvent → OrderBook
  | .accepted token id openQty => b.onAccepted token id openQty
  | .executed token traded => b.onExecuted token traded
  | .canceled token => b.onCanceled token

/-- No entry is Rejected, and a finished one has nothing left. -/
def Tidy (b : OrderBook) : Prop :=
  ∀ t s, b.find t = some s → s.status ≠ .rejected ∧ (s.status = .notOnBook → s.leaves = 0)

/-- No entry of `b` under the token is finished. -/
def Unfinished (b : OrderBook) (token : Bytes) : Prop := ∀ s, b.find token = some s → s.status ≠ .notOnBook

end OrderBook

def OrderStatus.live : OrderStatus → Bool
  | .pending | .onBook | .replacing | .canceling => true
  | .notOnBook | .rejected => false

/-- The finished entries of `b` are not live in `b'` and have nothing left, but for those entered anew. -/
def Stays (b b' : OrderBook) (entered : Bytes → Prop) : Prop :=
  ∀ t s, b.find t = some s → s.status = .notOnBook → ¬ entered t →
    ∃ s', b'.find t = some s' ∧ s'.status.live = false ∧ s'.leaves ≤ 0

/-- An entry whose leaves drop to 0 from `b` to `b'` is finished. -/
def Drops (b b' : OrderBook) : Prop :=
  ∀ t s s', b.find t = some s → b'.find t = some s' → 0 < s.leaves → s'.leaves = 0 → s'.status = .notOnBook

namespace OrderBook

theorem Tidy.stays_same {b b' : OrderBook} (h : b.Tidy) {entered : Bytes → Prop}
    (hsame : ∀ t, ¬ entered t → b'.find t = b.find t) : Stays b b' entered := by
  intro t s hs hfin hnew
  refine ⟨s, (hsame t hnew).trans hs, ?_, ?_⟩
  · rw [hfin]
    rfl
  · rw [(h t s hs).2 hfin]
    exact Int64.le_refl 0

/-- A write to one entry matters only if it meets a finished one. -/
theorem Tidy.stays_modify {b : OrderBook} (h : b.Tidy) (token : Bytes) (f : OrderState → OrderState) :
    Stays b (b.modify token f) (fun _ => False) ↔
      ∀ s, b.find token = some s → s.status = .notOnBook → (f s).status.live = false ∧ (f s).leaves ≤ 0 := by
  constructor
  · intro hstays s hs hfin
    obtain ⟨s', hs', hlive, hleaves⟩ := hstays token s hs hfin id
    rw [find_modify, if_pos rfl, hs, Option.map_some, Option.some.injEq] at hs'
    rw [hs']
    exact ⟨hlive, hleaves⟩
  · intro hf t s hs hfin _
    by_cases ht : t = token
    · subst ht
      exact ⟨f s, by rw [find_modify, if_pos rfl, hs]; rfl, hf s hs hfin⟩
    · have hsame : Stays b b (fun _ => False) := h.stays_same fun _ _ => rfl
      obtain ⟨s', hs', hrest⟩ := hsame t s hs hfin id
      exact ⟨s', by rw [find_modify, if_neg ht, hs'], hrest⟩

/-- Only the entry that is written can drop. -/
theorem drops_modify (b : OrderBook) (token : Bytes) (f : OrderState → OrderState) :
    Drops b (b.modify token f) ↔
      ∀ s, b.find token = some s → 0 < s.leaves → (f s).leaves = 0 → (f s).status = .notOnBook := by
  constructor
  · intro hdrops s hs hpos hzero
    exact hdrops token s (f s) hs (by rw [find_modify, if_pos rfl, hs]; rfl) hpos hzero
  · intro hf t s s' hs hs' hpos hzero
    rw [find_modify, hs] at hs'
    split at hs'
    · rename_i ht
      subst ht
      rw [Option.map_some, Option.some.injEq] at hs'
      subst hs'
      exact hf s hs hpos hzero
    · rw [Option.some.injEq] at hs'
      subst hs'
      rw [hzero] at hpos
      exact absurd hpos Int64.lt_irrefl

theorem Tidy.modify {b : OrderBook} (h : b.Tidy) (token : Bytes) {f : OrderState → OrderState}
    (hf : ∀ s, b.find token = some s → (f s).status ≠ .rejected ∧ ((f s).status = .notOnBook → (f s).leaves = 0)) :
    (b.modify token f).Tidy := by
  intro t s hs
  rw [find_modify] at hs
  split at hs
  · rename_i ht
    subst ht
    obtain ⟨s₀, hs₀, rfl⟩ := Option.map_eq_some_iff.1 hs
    exact hf s₀ hs₀
  · exact h t s hs

/-- Nothing can be executed of an order with nothing left. -/
theorem leavesAfter_zero {traded : Int64} (h : 0 ≤ traded) : leavesAfter 0 traded = 0 := by
  unfold leavesAfter
  refine if_neg ?_
  rw [Int64.lt_iff_toInt_lt, Int64.zero_sub, Int64.toInt_neg]
  rw [Int64.le_iff_toInt_le] at h
  have hlt := traded.toInt_lt
  have hzero : (0 : Int64).toInt = 0 := rfl
  rw [hzero] at h ⊢
  rw [Int.bmod_eq_of_le (by omega) (by omega)]
  omega

/-! ## One message -/

/-- The quantities of the messages are not negative. -/
def NonNeg : BookEvent → Prop
  | .accepted _ _ openQty => 0 ≤ openQty
  | .executed _ traded => 0 ≤ traded
  | .canceled _ => True

/-- No message but an acceptance can do harm: it must not meet a finished entry
nor say that nothing is open of an entry that has something left. -/
def Harmless (b : OrderBook) : BookEvent → Prop
  | .accepted token _ openQty => b.Unfinished token ∧ ∀ s, b.find token = some s → 0 < s.leaves → openQty ≠ 0
  | .executed .. | .canceled _ => True

theorem Tidy.handle {b : OrderBook} (h : b.Tidy) {e : BookEvent} (he : NonNeg e) : (b.handle e).Tidy := by
  cases e with
  | accepted token id openQty =>
    apply h.modify
    intro s _
    exact ⟨nofun, nofun⟩
  | canceled token =>
    apply h.modify
    intro s _
    exact ⟨nofun, fun _ => rfl⟩
  | executed token traded =>
    apply h.modify
    intro s hs
    obtain ⟨hkept, hempty⟩ := h token s hs
    by_cases hleft : leavesAfter s.leaves traded = 0
    · simp [hleft]
    · simp only [hleft, if_false]
      refine ⟨hkept, ?_⟩
      intro hfin
      rw [hempty hfin, leavesAfter_zero he] at hleft
      exact absurd rfl hleft

/-- A message does harm only as an acceptance. -/
theorem Tidy.handle_iff {b : OrderBook} (h : b.Tidy) {e : BookEvent} (he : NonNeg e) :
    (Stays b (b.handle e) (fun _ => False) ∧ Drops b (b.handle e)) ↔ b.Harmless e := by
  cases e with
  | accepted token id openQty =>
    refine and_congr ((h.stays_modify token _).trans ?_) ((drops_modify b token _).trans ?_)
    · refine forall₂_congr ?_
      intro s _
      simp [OrderStatus.live]
    · refine forall₃_congr ?_
      intro s _ _
      simp
  | executed token traded =>
    refine iff_of_true ⟨(h.stays_modify token _).2 ?_, (drops_modify b token _).2 ?_⟩ trivial
    · intro s hs hfin
      simp [(h token s hs).2 hfin, leavesAfter_zero he, OrderStatus.live]
    · intro s _ _ hzero
      exact if_pos hzero
  | canceled token =>
    refine iff_of_true ⟨(h.stays_modify token _).2 ?_, (drops_modify b token _).2 ?_⟩ trivial
    · intro s _ _
      exact ⟨rfl, Int64.le_refl 0⟩
    · intro s _ _ _
      rfl

end OrderBook

end Domain

namespace Ouch.OuchClient

open Domain

/-! ## Runs -/

/-- What can happen to the book: the calls of the client, the session meanwhile,
a message of the gateway, a new session. -/
inductive Move
  | request (now : UInt64) (r : Request)
  | session (op : OuchSession.Op)
  | message (e : BookEvent)
  | reconnect (session : OuchSession)

def move (c : OuchClient) : Move → OuchClient
  | .request now r => (c.call now r).2
  | .session op => { c with session := c.session.step op }
  | .message e => c.withBook (c.book.handle e)
  | .reconnect session => { c with session }

/-- The tokens that a move enters. -/
def Enters (c : OuchClient) : Move → Bytes → Prop
  | .request now (.place args), t =>
    (c.Reaches now (.place args) ∧ c.Admits (.place args)) ∧ t = (c.claimed (.place args)).1.view
  | _, _ => False

/-- Neither a request that gets to the session nor an acceptance meets a finished entry. -/
def Spares (c : OuchClient) : Move → Prop
  | .request now (.replace args) =>
    c.Reaches now (.replace args) ∧ c.Admits (.replace args) → c.book.Unfinished args.existingToken
  | .request now (.cancelByToken t) =>
    c.Reaches now (.cancelByToken t) ∧ c.Admits (.cancelByToken t) → c.book.Unfinished t
  | .message e => c.book.Harmless e
  | _ => True

def NonNeg (_ : OuchClient) (m : Move) : Prop := ∀ e, m = .message e → OrderBook.NonNeg e

/-- Once an entry is finished it is not live and has nothing left until its
token is entered again, and a message that takes what is left of an entry finishes it. -/
structure FinishedStays (c : OuchClient) (moves : List Move) : Prop where
  stays : ∀ pre mid post t s, moves = pre ++ mid ++ post → (run move c pre).book.find t = some s →
    s.status = .notOnBook → AllAlong move (fun c m => ¬ c.Enters m t) (run move c pre) mid →
    ∃ s', (run move (run move c pre) mid).book.find t = some s' ∧ s'.status.live = false ∧ s'.leaves ≤ 0
  drops : ∀ pre e post, moves = pre ++ .message e :: post →
    Drops (run move c pre).book ((run move c pre).book.handle e)

/-! ## One step -/

/-- What one step must do for the entries to stay finished. -/
def Lasts (c : OuchClient) (m : Move) : Prop :=
  Stays c.book (c.move m).book (c.Enters m) ∧ ∀ e, m = .message e → Drops c.book (c.book.handle e)

theorem tidy_setStatus {b : OrderBook} (h : b.Tidy) (t : Bytes) {status : OrderStatus} (hs : status.live = true) :
    (b.setStatus t status).Tidy := by
  rw [OrderBook.setStatus_eq]
  apply h.modify
  intro s _
  constructor
  · rintro rfl
    cases hs
  · rintro rfl
    cases hs

theorem tidy_booked {b : OrderBook} (h : b.Tidy) (tok : OrderToken) (r : Request) : (r.booked b tok).Tidy := by
  cases r with
  | place args =>
    intro t s hs
    rw [Request.booked, OrderBook.find_insert] at hs
    split at hs
    · rw [← Option.some.inj hs]
      constructor
      · intro hfilled
        cases hfilled
      · intro hgone
        cases hgone
    · exact h t s hs
  | replace args => exact tidy_setStatus h _ rfl
  | cancelByToken t => exact tidy_setStatus h _ rfl
  | cancelByOrderId book side id => exact h
  | massQuote args => exact h

theorem tidy_move (c : OuchClient) (m : Move) (h : c.book.Tidy) (hm : c.NonNeg m) : (c.move m).book.Tidy := by
  cases m with
  | request now r =>
    -- a call writes the book for its request, or not at all
    rcases c.book_call now r with ⟨-, hbook⟩ | ⟨-, -, hbook⟩
    · rw [move, hbook]
      exact h
    · rw [move, hbook]
      exact tidy_booked h _ r
  | session op => exact h
  | message e => exact h.handle (hm e rfl)
  | reconnect session => exact h

/-- A request that writes nothing. -/
theorem stays_unwritten {c : OuchClient} {now : UInt64} {r : Request} {entered : Bytes → Prop} (h : c.book.Tidy)
    (hr : ∀ tok, r.booked c.book tok = c.book) : Stays c.book (c.call now r).2.book entered := by
  apply h.stays_same
  intro t _
  rcases c.book_call now r with ⟨-, hbook⟩ | ⟨-, -, hbook⟩
  · rw [hbook]
  · rw [hbook, hr]

/-- A request that marks the order `t` as on its way to another state. -/
theorem stays_marked {c : OuchClient} {now : UInt64} {r : Request} {t : Bytes} {status : OrderStatus}
    (h : c.book.Tidy) (hlive : status.live = true) (hr : ∀ tok, r.booked c.book tok = c.book.setStatus t status) :
    Stays c.book (c.call now r).2.book (fun _ => False) ↔ (c.Reaches now r ∧ c.Admits r → c.book.Unfinished t) := by
  rcases c.book_call now r with ⟨hno, hbook⟩ | ⟨hreach, hadm, hbook⟩
  · rw [hbook]
    exact iff_of_true (h.stays_same fun _ _ => rfl) fun hyes => absurd hyes hno
  · rw [hbook, hr, OrderBook.setStatus_eq, h.stays_modify]
    rw [imp_iff_right ⟨hreach, hadm⟩]
    refine forall₂_congr ?_
    intro s _
    simp [hlive]

theorem lasts_iff (c : OuchClient) (m : Move) (h : c.book.Tidy) (hm : c.NonNeg m) : c.Lasts m ↔ c.Spares m := by
  unfold Lasts
  cases m with
  | session op => exact iff_of_true ⟨h.stays_same fun _ _ => rfl, nofun⟩ trivial
  | reconnect session => exact iff_of_true ⟨h.stays_same fun _ _ => rfl, nofun⟩ trivial
  | message e =>
    simp only [Move.message.injEq, forall_eq']
    exact h.handle_iff (hm e rfl)
  | request now r =>
    rw [and_iff_left (by nofun)]
    cases r with
    | place args =>
      refine iff_of_true (h.stays_same ?_) trivial
      intro t hnew
      rcases c.book_call now (.place args) with ⟨-, hbook⟩ | ⟨hreach, hadm, hbook⟩
      · rw [move, hbook]
      · rw [move, hbook, Request.booked, OrderBook.find_insert, if_neg]
        intro ht
        exact hnew ⟨⟨hreach, hadm⟩, ht⟩
    | replace args => exact stays_marked h rfl fun _ => rfl
    | cancelByToken t => exact stays_marked h rfl fun _ => rfl
    | cancelByOrderId book side id => exact iff_of_true (stays_unwritten h fun _ => rfl) trivial
    | massQuote args => exact iff_of_true (stays_unwritten h fun _ => rfl) trivial

/-! ## Runs -/

theorem tidy_empty : ({} : OrderBook).Tidy := nofun

/-- Along moves that spare the finished entries, an entry that is finished stays NotOnBook. -/
theorem finished_run {c : OuchClient} (h : c.book.Tidy) {moves : List Move} (hm : AllAlong move NonNeg c moves)
    (hspares : AllAlong move Spares c moves) {t : Bytes} {s : Domain.OrderState} (hs : c.book.find t = some s)
    (hfin : s.status = .notOnBook) (hnew : AllAlong move (fun c m => ¬ c.Enters m t) c moves) :
    ∃ s', (run move c moves).book.find t = some s' ∧ s'.status = .notOnBook ∧ s'.leaves = 0 := by
  induction moves generalizing c s with
  | nil => exact ⟨s, hs, hfin, (h t s hs).2 hfin⟩
  | cons m moves ih =>
    have hafter := c.tidy_move m h hm.1
    obtain ⟨s', hs', hdead, -⟩ := ((c.lasts_iff m h hm.1).2 hspares.1).1 t s hs hfin hnew.1
    refine ih hafter hm.2 hspares.2 hs' ?_ hnew.2
    -- neither live nor Rejected
    have hkept := (hafter t s' hs').1
    revert hdead hkept
    cases s'.status <;> simp [OrderStatus.live]

/-- In every run from an empty book, whatever the client is asked and whatever
the gateway says in whatever order, the finished orders stay finished if and
only if the run spares them. -/
theorem finished_stays_iff {c : OuchClient} (hbook : c.book = {}) (moves : List Move)
    (h : AllAlong move NonNeg c moves) : c.FinishedStays moves ↔ AllAlong move Spares c moves := by
  have htidy : c.book.Tidy := hbook ▸ tidy_empty
  have htidy_run : ∀ pre post, moves = pre ++ post → (run move c pre).book.Tidy := by
    rintro pre post rfl
    rw [allAlong_append] at h
    exact run_inv (fun c => c.book.Tidy) tidy_move htidy h.1
  rw [← allAlong_congr (fun c => c.book.Tidy) tidy_move lasts_iff htidy h]
  constructor
  · intro hstays
    apply allAlong_of_at
    intro pre m post hmoves
    constructor
    · intro t s hs hfin hnew
      exact hstays.stays pre [m] post t s (by rw [hmoves, List.append_assoc]; rfl) hs hfin ⟨hnew, trivial⟩
    · rintro e rfl
      exact hstays.drops pre e post hmoves
  · intro hlasts
    have hspares := (allAlong_congr (fun c => c.book.Tidy) tidy_move lasts_iff htidy h).1 hlasts
    constructor
    · rintro pre mid post t s hmoves hs hfin hnew
      rw [hmoves, List.append_assoc] at h hspares
      simp only [allAlong_append] at h hspares
      obtain ⟨s', hs', hstatus, hleaves⟩ :=
        finished_run (htidy_run pre (mid ++ post) (by rw [hmoves, List.append_assoc])) h.2.1 hspares.2.1 hs hfin hnew
      exact ⟨s', hs', by rw [hstatus]; rfl, by rw [hleaves]; exact Int64.le_refl 0⟩
    · rintro pre e post rfl
      exact hlasts.at.2 e rfl

/-- The order `30` is entered, acknowledged and cancelled. -/
def cancelled : List Move :=
  [.request 0 (.place { quantity := 100, explicitToken := ascii "30" }),
    .message (.accepted (ascii "30") 1 100), .message (.canceled (ascii "30"))]

/-- The acknowledgement comes once more. -/
def lateAccept : Move := .message (.accepted (ascii "30") 1 100)

theorem cancelled_nonNeg : AllAlong move NonNeg trading (cancelled ++ [lateAccept]) := by
  refine ⟨nofun, ?_, ?_, ?_, trivial⟩
  · rintro e ⟨⟩
    change (0 : Int64) ≤ 100
    decide
  · rintro e ⟨⟩
    trivial
  · rintro e ⟨⟩
    change (0 : Int64) ≤ 100
    decide

theorem finished_stays_iff_late : trading.FinishedStays (cancelled ++ [lateAccept]) ↔
    AllAlong move Spares trading (cancelled ++ [lateAccept]) :=
  finished_stays_iff rfl (cancelled ++ [lateAccept]) cancelled_nonNeg

theorem cancelled_finished :
    ((run move trading cancelled).book.find (ascii "30")).map Domain.OrderState.status = some .notOnBook := by
  decide +kernel

theorem lateAccept_live :
    ((run move trading (cancelled ++ [lateAccept])).book.find (ascii "30")).map Domain.OrderState.status =
      some .onBook := by
  decide +kernel

/-- After a late acknowledgement the cancelled order `30` is OnBook again. -/
theorem late_acceptance_reopens :
    ¬ ∀ (c : OuchClient) (moves : List Move), c.book = {} → AllAlong move NonNeg c moves → c.FinishedStays moves := by
  intro h
  have hstays := (h trading _ rfl cancelled_nonNeg).stays cancelled [lateAccept] [] (ascii "30")
  obtain ⟨s, hs, hfin⟩ := Option.map_eq_some_iff.1 cancelled_finished
  obtain ⟨s', hs', hdead, -⟩ := hstays s (by rw [List.append_nil]) hs hfin ⟨id, trivial⟩
  have hlive := lateAccept_live
  rw [run_append, hs', Option.map_some, Option.some.injEq] at hlive
  rw [hlive] at hdead
  cases hdead

end Ouch.OuchClient

end BistColo
