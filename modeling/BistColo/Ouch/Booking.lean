import BistColo.Ouch.Tokens
/-!
# The order book and the tokens on the wire

`place` enters an order under the text of its token without the padding; a
cancel or a replace looks for the text its caller gives, and a replace enters
nothing under its new token. `book_follows_wire_iff` says when the book tells
what became of an order all the same: every cancel and replace names the order
by exactly that text, and the book already has an entry under the token of the
replacement.
-/

open StreamKit

namespace BistColo.Ouch.OuchClient

open Domain
open OuchSession (Outgoing)

/-! ## What a call leaves in the book -/

/-- A call that gets to its session has written the book before; any other call leaves it alone. -/
theorem book_call (c : OuchClient) (now : UInt64) (r : Request) :
    (¬ (c.Reaches now r ∧ c.Admits r) ∧ (c.call now r).2.book = c.book) ∨
      (c.Reaches now r ∧ c.Admits r ∧ (c.call now r).2.book = r.booked c.book (c.claimed r).1) := by
  rcases c.call_cases now r with
    ⟨hillegal, e, he⟩ | ⟨-, hno, e, he⟩ | ⟨-, -, hstops, e, he⟩ | ⟨hreach, hadm, he⟩
  · exact .inl ⟨by simp [Reaches, hillegal], by rw [he]⟩
  · exact .inl ⟨by simp [Reaches, hno], by rw [he]; rfl⟩
  · refine .inl ⟨?_, by rw [he]; rfl⟩
    rintro ⟨hreach, hadm⟩
    exact hstops ⟨hreach.2.2, hadm⟩
  · exact .inr ⟨hreach, hadm, by rw [he]; rfl⟩

/-- A call that succeeds got to its session. -/
theorem call_ok {c : OuchClient} {now : UInt64} {r : Request} (h : (c.call now r).1 = .ok ()) :
    c.Reaches now r ∧ c.Admits r ∧ (c.call now r).2.book = r.booked c.book (c.claimed r).1 := by
  rcases c.call_cases now r with ⟨-, e, he⟩ | ⟨-, -, e, he⟩ | ⟨-, -, -, e, he⟩ | ⟨hreach, hadm, he⟩
  · rw [he] at h
    cases h
  · rw [he] at h
    cases h
  · rw [he] at h
    cases h
  · exact ⟨hreach, hadm, by rw [he]; rfl⟩

/-- A successful call that returns a token returns one. -/
theorem done_ok {p : Result OrderToken × OuchClient} (h : (done p).1 = .ok ()) : ∃ tok, p.1 = .ok tok := by
  obtain ⟨res, c⟩ := p
  cases res with
  | ok tok => exact ⟨tok, rfl⟩
  | error e => cases h

/-- The token a claim ends with is the one the registry gives. -/
theorem claimFor_token {c : OuchClient} {r : Request} {tok : OrderToken} (h : (c.claimFor r).1 = .ok tok) :
    tok = (c.claimed r).1 := by
  by_cases hadm : c.Admits r
  · rw [claimFor_admitted hadm] at h
    exact (Except.ok.inj h).symm
  · obtain ⟨t, -, he⟩ := claimFor_taken hadm
    rw [he] at h
    cases h

theorem claimToken_token {c c' : OuchClient} {r : Request} {t : Bytes} {tok : OrderToken} (hr : r.claim = some t)
    (h : c.claimToken t r.taken = (.ok tok, c')) : tok = (c.claimed r).1 := by
  apply claimFor_token
  rw [claimFor, hr]
  exact congrArg Prod.fst h

theorem place_token {c : OuchClient} {now : UInt64} {args : PlaceArgs} {tok : OrderToken}
    (h : (c.place now args).1 = .ok tok) : tok = (c.claimed (.place args)).1 := by
  unfold place at h
  have hclaimed : (c.tryAcquire now).2.claimed (.place args) = c.claimed (.place args) := rfl
  rw [← hclaimed]
  revert h
  rcases c.tryAcquire now with ⟨got, c'⟩
  cases got with
  | false => nofun
  | true =>
    intro h
    dsimp only at h
    split at h
    · cases h
    · rename_i tok' c'' hclaim
      split at h
      · cases h
      · rw [← Except.ok.inj h]
        exact claimToken_token rfl hclaim

theorem replace_token {c : OuchClient} {now : UInt64} {args : ReplaceArgs} {tok : OrderToken}
    (h : (c.replace now args).1 = .ok tok) : tok = (c.claimed (.replace args)).1 := by
  unfold replace at h
  split at h
  · cases h
  · have hclaimed : (c.tryAcquire now).2.claimed (.replace args) = c.claimed (.replace args) := rfl
    rw [← hclaimed]
    revert h
    rcases c.tryAcquire now with ⟨got, c'⟩
    cases got with
    | false => nofun
    | true =>
      intro h
      dsimp only at h
      split at h
      · cases h
      · split at h
        · cases h
        · rename_i tok' c'' hclaim
          split at h
          · cases h
          · rw [← Except.ok.inj h]
            exact claimToken_token rfl hclaim

/-! ## The property -/

/-- The text under which `place` enters an order whose token looks like `t` on the wire. -/
def wireKey (t : Bytes) : Bytes := (OrderToken.ofText t).view

/-- What a run of successful calls is made of, with whatever the session does
meanwhile and reconnects that keep the book. -/
def Succeeds (c : OuchClient) : Op → Prop
  | .request now r => (c.call now r).1 = .ok ()
  | .session _ => True
  | .outside _ book => book = c.book

/-- If there is an entry under `key` before, it has the status after. -/
def Shows (b b' : OrderBook) (key : Bytes) (status : OrderStatus) : Prop :=
  ∀ s, b.find key = some s → ∃ s', b'.find key = some s' ∧ s'.status = status

/-- The entry of the order that is cancelled or replaced tells so, and there is
one for the token of the replacement. -/
def Reflected (c : OuchClient) : Op → Prop
  | .request now (.cancelByToken t) => Shows c.book (c.cancelByToken now t).2.book (wireKey t) .canceling
  | .request now (.replace args) =>
    Shows c.book (c.replace now args).2.book (wireKey args.existingToken) .replacing ∧
      ∀ r, (c.replace now args).1 = .ok r → ((c.replace now args).2.book.find r.view).isSome
  | _ => True

/-- The order is named by the text it is entered under, unless its entry has the status already. -/
def NamedByKey (b : OrderBook) (t : Bytes) (status : OrderStatus) : Prop :=
  ∀ s, b.find (wireKey t) = some s → t = wireKey t ∨ s.status = status

def ByKey (c : OuchClient) : Op → Prop
  | .request _ (.cancelByToken t) => NamedByKey c.book t .canceling
  | .request _ (.replace args) =>
    NamedByKey c.book args.existingToken .replacing ∧ (c.book.find (c.claimed (.replace args)).1.view).isSome
  | _ => True

/-- The texts of the tokens that the places of a run returned. -/
def placed : OuchClient → List Op → List Bytes
  | _, [] => []
  | c, op :: ops => placedBy c op ++ placed (c.step op) ops
where
  placedBy (c : OuchClient) : Op → List Bytes
    | .request now (.place args) => match (c.place now args).1 with
      | .ok tok => [tok.view]
      | .error _ => []
    | _ => []

/-! ## One step -/

theorem shows_setStatus (b : OrderBook) (t : Bytes) (status : OrderStatus) :
    Shows b (b.setStatus t status) (wireKey t) status ↔ NamedByKey b t status := by
  unfold Shows NamedByKey
  refine forall₂_congr ?_
  intro s hs
  rw [OrderBook.find_setStatus, hs]
  split
  · rename_i hkey
    exact iff_of_true ⟨_, rfl, rfl⟩ (.inl hkey.symm)
  · rename_i hkey
    rw [or_iff_right (Ne.symm hkey)]
    simp

theorem isSome_setStatus (b : OrderBook) (t key : Bytes) (status : OrderStatus) :
    ((b.setStatus t status).find key).isSome = (b.find key).isSome := by
  rw [OrderBook.find_setStatus]
  split
  · rw [Option.isSome_map]
  · rfl

theorem reflected_iff {c : OuchClient} {op : Op} (h : c.Succeeds op) : c.Reflected op ↔ c.ByKey op := by
  cases op with
  | session op => exact Iff.rfl
  | outside session book => exact Iff.rfl
  | request now r =>
    obtain ⟨-, -, hbook⟩ := call_ok h
    cases r with
    | cancelByToken t =>
      change (c.cancelByToken now t).2.book = _ at hbook
      rw [Reflected, hbook]
      exact shows_setStatus c.book t .canceling
    | replace args =>
      change (c.replace now args).2.book = _ at hbook
      obtain ⟨tok, htok⟩ : ∃ tok, (c.replace now args).1 = .ok tok := done_ok h
      rw [Reflected, hbook]
      -- a replace writes the entry of the old token, and none for the new one
      refine and_congr (shows_setStatus c.book args.existingToken .replacing) ?_
      simp only [Request.booked, isSome_setStatus, htok, Except.ok.injEq, forall_eq', replace_token htok]
    | place args => exact Iff.rfl
    | cancelByOrderId book side id => exact Iff.rfl
    | massQuote args => exact Iff.rfl

/-- A step of such a run enters the orders it places, and nothing else. -/
theorem isSome_step {c : OuchClient} {op : Op} (h : c.Succeeds op) (key : Bytes) :
    ((c.step op).book.find key).isSome ↔ (c.book.find key).isSome ∨ key ∈ placed.placedBy c op := by
  cases op with
  | session op => simp [step, placed.placedBy]
  | outside session book =>
    change book = c.book at h
    simp [step, placed.placedBy, h]
  | request now r =>
    obtain ⟨-, -, hbook⟩ := call_ok h
    rw [step, hbook]
    cases r with
    | place args =>
      obtain ⟨tok, htok⟩ : ∃ tok, (c.place now args).1 = .ok tok := done_ok h
      simp only [Request.booked, placed.placedBy, htok, List.mem_singleton, OrderBook.find_insert, ← place_token htok]
      split
      · rename_i heq
        simp [heq]
      · rename_i hne
        simp [hne]
    | replace args => simp [Request.booked, placed.placedBy, isSome_setStatus]
    | cancelByToken t => simp [Request.booked, placed.placedBy, isSome_setStatus]
    | cancelByOrderId book side id => simp [Request.booked, placed.placedBy]
    | massQuote args => simp [Request.booked, placed.placedBy]

/-! ## Runs -/

theorem isSome_run {c : OuchClient} {ops : List Op} (h : AllAlong step Succeeds c ops) (key : Bytes) :
    ((run step c ops).book.find key).isSome ↔ (c.book.find key).isSome ∨ key ∈ placed c ops := by
  induction ops generalizing c with
  | nil => simp [placed]
  | cons op ops ih => rw [run_cons, ih h.2, isSome_step h.1, placed, List.mem_append, or_assoc]

/-- In every run of successful calls on an empty book, the book has exactly the
orders that were placed, each under the text of its token; and it tells of every
cancel and replace, and of the token of every replacement, if and only if each
of them names the order by that text and the book has the replacement already. -/
theorem book_follows_wire_iff {c : OuchClient} (hbook : c.book = {}) (ops : List Op) (h : AllAlong step Succeeds c ops) :
    (∀ key, ((run step c ops).book.find key).isSome ↔ key ∈ placed c ops) ∧
    (AllAlong step Reflected c ops ↔ AllAlong step ByKey c ops) := by
  constructor
  · intro key
    rw [isSome_run h, hbook]
    exact or_iff_right nofun
  · exact allAlong_congr (fun _ => True) (fun _ _ _ _ => trivial) (fun c op _ hs => reflected_iff hs) trivial h

/-- An order under the text `30`, and its cancel under `t`. -/
def placing : Request := .place { explicitToken := ascii "30" }

def placingThen (t : Bytes) : List Op := [.request 0 placing, .request 0 (.cancelByToken t)]

theorem placing_ok : (trading.call 0 placing).1 = .ok () := by decide +kernel

theorem cancel_ok : ((trading.call 0 placing).2.call 0 (.cancelByToken (ascii "30"))).1 = .ok () := by decide +kernel

theorem cancel_padded_ok : ((trading.call 0 placing).2.call 0 (.cancelByToken (ascii "30 "))).1 = .ok () := by
  decide +kernel

theorem book_follows_wire_iff_cancel :
    (∀ key, ((run step trading (placingThen (ascii "30"))).book.find key).isSome ↔
      key ∈ placed trading (placingThen (ascii "30"))) ∧
    (AllAlong step Reflected trading (placingThen (ascii "30")) ↔ AllAlong step ByKey trading (placingThen (ascii "30"))) :=
  book_follows_wire_iff rfl (placingThen (ascii "30")) ⟨placing_ok, cancel_ok, trivial⟩

/-- The order `30` is cancelled as `30 `, the same token on the wire: its entry stays Pending. -/
theorem padded_cancel_unseen :
    ¬ ∀ (c : OuchClient) (ops : List Op), c.book = {} → AllAlong step Succeeds c ops → AllAlong step Reflected c ops := by
  intro h
  have hreflected : AllAlong step Reflected trading (placingThen (ascii "30 ")) :=
    h trading _ rfl ⟨placing_ok, cancel_padded_ok, trivial⟩
  obtain ⟨s', hfind, hstatus⟩ := hreflected.2.1 { symbol := [], status := .pending } (by decide +kernel)
  have hpending : (((trading.call 0 placing).2.cancelByToken 0 (ascii "30 ")).2.book.find
      (wireKey (ascii "30 "))).map Domain.OrderState.status = some .pending := by
    decide +kernel
  rw [step] at hfind
  rw [hfind, Option.map_some, Option.some.injEq, hstatus] at hpending
  cases hpending

end BistColo.Ouch.OuchClient
