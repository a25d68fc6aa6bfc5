import BistColo.App.Disk
import BistColo.Ouch.Outbound
/-!
# The stored cursor never runs ahead

`LiveCursor` numbers the packets handed to `dispatch_ouch` since the last
login. A pair written since then carries a number below which every packet of
this numbering was handed over (`neverAhead`): the store is offered a packet's
number before the packet counts.
-/

open StreamKit

namespace BistColo.App

open Ouch Observability

/-- The packets numbered `n0` to `n0 + k - 1` of the session `id` were handed to
`dispatch_ouch`. -/
def Handed (id : Bytes) (n0 : UInt64) (k : Nat) (es : List LiveEvent) : Prop :=
  ∀ i < k, LiveEvent.session (.ouch id (n0 + UInt64.ofNat i)) ∈ es

theorem Handed.snoc {id : Bytes} {n0 : UInt64} {k : Nat} {es : List LiveEvent} (h : Handed id n0 k es) (e : LiveEvent) :
    Handed id n0 k (es ++ [e]) := fun i hi => List.mem_append_left _ (h i hi)

/-- Neither a login nor a new session. -/
def SameNumbering (es : List LiveEvent) : Prop := ∀ e ∈ es, e.isLogin = false ∧ e.isStart = false

theorem SameNumbering.init {es : List LiveEvent} {e : LiveEvent} (h : SameNumbering (es ++ [e])) :
    SameNumbering es ∧ e.isLogin = false ∧ e.isStart = false :=
  ⟨fun e' he => h e' (List.mem_append_left _ he), h e (List.mem_append_right _ (List.mem_singleton_self e))⟩

/-- In one numbering the cursor is the first number and one more for each
packet handed over. -/
theorem cursor_since {l : LiveCursor} {id : Bytes} {n0 : UInt64} (hl : l.cursor = ⟨id, n0, true⟩)
    {es : List LiveEvent} (hsame : SameNumbering es) (hagrees : AllAlong LiveCursor.advance LiveCursor.Agrees l es) :
    ∃ k, (run LiveCursor.advance l es).cursor = ⟨id, n0 + UInt64.ofNat k, true⟩ ∧ Handed id n0 k es := by
  induction es using List.reverseRecOn with
  | nil =>
    refine ⟨0, ?_, nofun⟩
    rw [run_nil, hl]
    exact congrArg (Cursor.mk id · true) (UInt64.add_zero n0).symm
  | append_singleton es e ih =>
    rw [allAlong_append] at hagrees
    obtain ⟨hinit, hlogin, hstart⟩ := hsame.init
    obtain ⟨k, hk, hhanded⟩ := ih hinit hagrees.1
    rw [run_append, run_cons, run_nil]
    have he := hagrees.2.1
    cases e with
    | started lp => cases hstart
    | save session seq => exact ⟨k, hk, hhanded.snoc _⟩
    | flush session seq => exact ⟨k, hk, hhanded.snoc _⟩
    | session e =>
      cases e with
      | login session seq => cases hlogin
      | ouch session seq =>
        refine ⟨k + 1, ?_, ?_⟩
        · simp only [LiveCursor.advance, Cursor.advance, hk, Cursor.mk.injEq, true_and, and_true]
          rw [UInt64.ofNat_add, UInt64.add_assoc]
          rfl
        · -- the new packet has the number of the cursor
          intro i hi
          rcases Nat.lt_succ_iff_lt_or_eq.1 hi with hi | rfl
          · exact List.mem_append_left _ (hhanded i hi)
          · obtain ⟨hid, hseq⟩ : session = id ∧ seq = n0 + UInt64.ofNat i := by
              simpa only [LiveCursor.Agrees, Cursor.Agrees, hk] using he
            rw [hid, hseq]
            exact List.mem_append_right _ (List.mem_singleton_self _)
      | stateChange st detail => exact ⟨k, hk, hhanded.snoc _⟩
      | auditSent bytes => exact ⟨k, hk, hhanded.snoc _⟩
      | auditRecv bytes session seq => exact ⟨k, hk, hhanded.snoc _⟩
      | message m bytes => exact ⟨k, hk, hhanded.snoc _⟩
      | request packet => exact ⟨k, hk, hhanded.snoc _⟩
      | dispatch f payloadLen reads => exact ⟨k, hk, hhanded.snoc _⟩

/-- The store is written during `ms`. -/
def Written (store : SequenceStore) (ms : List Moment) : Prop :=
  ∃ before m after, ms = before ++ m :: after ∧ writes (storeAt store before) m = true

theorem Written.init {store : SequenceStore} {ms : List Moment} {m : Moment} (h : Written store (ms ++ [m])) :
    writes (storeAt store ms) m = true ∨ Written store ms := by
  obtain ⟨before, m', after, hsplit, hw⟩ := h
  rcases List.eq_nil_or_concat after with rfl | ⟨after, m'', rfl⟩
  · obtain ⟨rfl, rfl⟩ : ms = before ∧ m = m' := by simpa using hsplit
    exact .inl hw
  · obtain ⟨hms, -⟩ : ms = before ++ m' :: after ∧ m = m'' := by
      rw [List.concat_eq_append, ← List.cons_append, ← List.append_assoc] at hsplit
      simpa using List.append_inj' hsplit rfl
    exact .inr ⟨before, m', after, hms, hw⟩

/-- What is in the file since a login, if it was written since. -/
theorem file_since {l : LiveCursor} {id : Bytes} {n0 : UInt64} (hl : l.cursor = ⟨id, n0, true⟩) {store : SequenceStore}
    {ms : List Moment} (hsame : SameNumbering (ms.map Moment.what))
    (hagrees : AllAlong LiveCursor.advance LiveCursor.Agrees l (ms.map Moment.what)) (hw : Written store ms) :
    ∃ k, (storeAt store ms).file = some (SequenceStore.line id (n0 + UInt64.ofNat k)) ∧
      Handed id n0 k (ms.map Moment.what) := by
  induction ms using List.reverseRecOn with
  | nil =>
    obtain ⟨before, m, after, hsplit, -⟩ := hw
    exact absurd hsplit (by simp)
  | append_singleton ms m ih =>
    rw [List.map_append, List.map_singleton] at hsame hagrees ⊢
    rw [allAlong_append] at hagrees
    obtain ⟨hinit, -⟩ := hsame.init
    rw [storeAt, run_append, run_cons, run_nil, ← storeAt]
    rcases storeStep_cases (storeAt store ms) m with ⟨hno, he⟩ | ⟨o, -, ho, he⟩
    · rw [he]
      rcases hw.init with hyes | hbefore
      · rw [hno] at hyes
        cases hyes
      · obtain ⟨k, hfile, hhanded⟩ := ih hinit hagrees.1 hbefore
        exact ⟨k, hfile, hhanded.snoc _⟩
    · obtain ⟨k, hk, hhanded⟩ := cursor_since hl hinit hagrees.1
      have hoffer := offers_cursor hagrees.2.1 ho
      rw [hk] at hoffer
      rw [he, hoffer]
      exact ⟨k, rfl, hhanded.snoc _⟩

/-! ## Live runs -/

/-- At every moment of `log`: let `id` and `n0` be those of the last login of
the session in the slot. If the stored pair has this id and was stored since
that login, its number is some `n0 + k`, and the packets numbered `n0` to
`n0 + k - 1` were handed to `dispatch_ouch` already. -/
def NeverAhead (store : SequenceStore) (log : List Moment) : Prop :=
  ∀ before id n0 disk since rest, log = before ++ ⟨.session (.login id n0), disk⟩ :: (since ++ rest) →
    SameNumbering (since.map Moment.what) → Written (storeAt store before) since →
    let stored := (storeAt store (before ++ ⟨.session (.login id n0), disk⟩ :: since)).load none
    stored.session = id → ∃ k, stored.seq = n0 + UInt64.ofNat k ∧ Handed id n0 k (since.map Moment.what)

theorem neverAhead {store : SequenceStore} {log : List Moment}
    (h : AllAlong LiveCursor.advance LiveCursor.Agrees {} (log.map Moment.what)) : NeverAhead store log := by
  rintro before id n0 disk since rest rfl hsame hw stored hid
  rw [List.map_append, List.map_cons, List.map_append, allAlong_append, allAlong_cons, allAlong_append] at h
  obtain ⟨-, -, hagrees, -⟩ := h
  have hlogin : ∀ l : LiveCursor, (l.advance (.session (.login id n0))).cursor = ⟨id, n0, true⟩ := fun _ => rfl
  obtain ⟨k, hfile, hhanded⟩ := file_since (hlogin _) hsame hagrees hw
  have hclean : SequenceStore.Clean id := by
    rw [← hid]
    exact SequenceStore.clean_load _ _
  have hstored : stored = ⟨.ok (), id, n0 + UInt64.ofNat k⟩ := by
    have hbefore : storeAt store (before ++ ⟨.session (.login id n0), disk⟩ :: since) =
        storeAt (storeAt store before) since := by
      rw [storeAt, run_append, run_cons]
      rfl
    exact (congrArg (fun s : SequenceStore => s.load none) hbefore).trans (SequenceStore.load_line hfile hclean)
  exact ⟨k, by rw [hstored], hhanded⟩

/-- After every run of the session, the next number is that of the last login
and one more for each sequenced packet dispatched since. -/
def CountsExactly (s : OuchSession) (ops : List OuchSession.Op) : Prop :=
  ∀ before id n0 since, (run OuchSession.step s ops).log = before ++ .login id n0 :: since →
    (∀ id' n', Event.login id' n' ∉ since) →
    (run OuchSession.step s ops).nextInboundSeq = n0 + UInt64.ofNat (Tally.sequenced since)

/-- The cursor of a session counts exactly, and the pair stored by a live run
never runs ahead of the packets handed over since the login that numbers them. -/
theorem cursor_exact {s : OuchSession} (hlog : s.log = []) (sessionOps : List OuchSession.Op) (cfg : LiveClient.Config)
    (store : SequenceStore) (refused : Option String) (disk : Nat → Disk) (ops : List LiveClient.Op) :
    CountsExactly s sessionOps ∧
      NeverAhead store (run LiveClient.step (LiveClient.boot cfg store refused disk) ops).log := by
  constructor
  · intro before id n0 since h hlast
    exact (OuchSession.next_number hlog sessionOps h hlast).2
  · exact neverAhead (LiveClient.tracks_run (LiveClient.tracks_boot cfg store refused disk) ops).agrees

/-- A session that logs in with number 900 and, on the same connection, again
with number 5, before it gets a packet. -/
def renumbered : List LiveClient.Op :=
  [.reconnect [] [] 0 (LiveClient.dialing (LiveClient.accepted 900)
    [.again, LiveClient.accepted 5, .again,
      LiveClient.chunk LiveClient.canceledMessage LiveClient.canceledMessage_fits]),
    .session .pollIo, .session .pollIo]

theorem cursor_exact_renumbered :
    CountsExactly OuchSession.stalling [.beginLogin, .pollIo] ∧
      NeverAhead LiveClient.coldStart.store (run LiveClient.step LiveClient.coldStart renumbered).log :=
  cursor_exact rfl [.beginLogin, .pollIo] _ _ none _ renumbered

/-- The store still says 900 when number 5 of the same session is yet to come. -/
theorem stale_number_ahead :
    let c := run LiveClient.step LiveClient.coldStart (renumbered.take 2)
    c.stored.load none = ⟨.ok (), ascii "MOCKSESS01", 900⟩ ∧
    c.session.map (fun s => (s.assignedSession, s.nextInboundSeq)) = some (ascii "MOCKSESS01", 5) ∧
    LiveEvent.session (.ouch (ascii "MOCKSESS01") 5) ∉ c.events ∧
    LiveEvent.session (.ouch (ascii "MOCKSESS01") 5) ∈ (run LiveClient.step LiveClient.coldStart renumbered).events := by
  refine ⟨?_, ?_, ?_, ?_⟩
  · decide +kernel
  · decide +kernel
  · decide +kernel
  · decide +kernel

end BistColo.App
