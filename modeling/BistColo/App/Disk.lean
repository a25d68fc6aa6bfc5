import BistColo.App.History
/-!
# The cursor on disk

The audit handler runs before a packet is dispatched, so the packets of a
login attempt offer the store the empty id of a session that is not logged in
yet, and `save_if_due` compares numbers with a subtraction that wraps.
`cursor_kept` says what keeps the stored cursor safe: nothing is written for a
session without an id, and what is written over a real cursor is a real one.
-/

open StreamKit

namespace BistColo.App

open Ouch Observability

/-! ## Calls of the store -/

/-- The id and the number an event brings to the store. -/
def LiveEvent.offers : LiveEvent → Option (Bytes × UInt64)
  | .session (.auditRecv _ id n) | .save id n | .flush id n => some (id, n)
  | .started _ | .session _ => none

/-- The call of the store replaces the file. -/
def writes (store : SequenceStore) (m : Moment) : Bool :=
  decide (m.disk.outcome = .ok) && match m.what with
    | .session (.auditRecv _ _ seq) => decide (seq ≠ store.lastSavedSeq) && store.due m.disk.now seq 100 100
    | .save _ _ => true
    | .flush _ seq => decide (seq ≠ store.lastSavedSeq)
    | .started _ | .session _ => false

/-- The store with the cursor `o` written. -/
def written (store : SequenceStore) (disk : Disk) (o : Bytes × UInt64) : SequenceStore :=
  { store with file := some (SequenceStore.line o.1 o.2), lastSavedSeq := o.2, lastSaveNs := disk.savedAt }

theorem load_written {store : SequenceStore} (disk : Disk) {o : Bytes × UInt64} (h : SequenceStore.Clean o.1) :
    (written store disk o).load none = ⟨.ok (), o.1, o.2⟩ := SequenceStore.load_line rfl h

theorem save_eq (store : SequenceStore) (disk : Disk) (o : Bytes × UInt64) :
    (store.save disk o.1 o.2).2 = if disk.outcome = .ok then written store disk o else store := by
  unfold SequenceStore.save
  cases h : disk.outcome with
  | openFails errno => rfl
  | writeFails => rfl
  | renameFails message => rfl
  | ok => rfl

/-- A save fails and leaves the store alone, or replaces the file. -/
theorem save_cases (store : SequenceStore) (disk : Disk) (o : Bytes × UInt64) :
    (disk.outcome ≠ .ok ∧ (store.save disk o.1 o.2).2 = store) ∨
      (disk.outcome = .ok ∧ (store.save disk o.1 o.2).2 = written store disk o) := by
  rw [save_eq]
  by_cases hok : disk.outcome = .ok
  · exact .inr ⟨hok, if_pos hok⟩
  · exact .inl ⟨hok, if_neg hok⟩

theorem storeStep_save (store : SequenceStore) (disk : Disk) (session : Bytes) (seq : UInt64) :
    storeStep store ⟨.save session seq, disk⟩ = (store.save disk session seq).2 := rfl

theorem storeStep_flush (store : SequenceStore) (disk : Disk) (session : Bytes) (seq : UInt64) :
    storeStep store ⟨.flush session seq, disk⟩ =
      if seq = store.lastSavedSeq then store else (store.save disk session seq).2 :=
  store.flush_store disk session seq

theorem storeStep_audit (store : SequenceStore) (disk : Disk) (bytes session : Bytes) (seq : UInt64) :
    storeStep store ⟨.session (.auditRecv bytes session seq), disk⟩ =
      if seq = store.lastSavedSeq ∨ store.due disk.now seq 100 100 = false then store
      else (store.save disk session seq).2 :=
  store.saveIfDue_store disk session seq 100 100

/-- What a moment does to the store: nothing, or the file is replaced by the
cursor it brings. -/
theorem storeStep_cases (store : SequenceStore) (m : Moment) :
    (writes store m = false ∧ storeStep store m = store) ∨
      ∃ o, writes store m = true ∧ m.what.offers = some o ∧ storeStep store m = written store m.disk o := by
  obtain ⟨what, disk⟩ := m
  cases what with
  | started lp => exact .inl ⟨by simp [writes], rfl⟩
  | save session seq =>
    rw [storeStep_save]
    rcases save_cases store disk (session, seq) with ⟨hok, he⟩ | ⟨hok, he⟩
    · exact .inl ⟨by simp [writes, hok], he⟩
    · exact .inr ⟨(session, seq), by simp [writes, hok], rfl, he⟩
  | flush session seq =>
    rw [storeStep_flush]
    by_cases hsame : seq = store.lastSavedSeq
    · exact .inl ⟨by simp [writes, hsame], if_pos hsame⟩
    · rw [if_neg hsame]
      rcases save_cases store disk (session, seq) with ⟨hok, he⟩ | ⟨hok, he⟩
      · exact .inl ⟨by simp [writes, hok], he⟩
      · exact .inr ⟨(session, seq), by simp [writes, hok, hsame], rfl, he⟩
  | session e =>
    -- of the session's entries only an audited packet is offered to the store
    cases e with
    | auditRecv bytes session seq =>
      rw [storeStep_audit]
      by_cases hskip : seq = store.lastSavedSeq ∨ store.due disk.now seq 100 100 = false
      · refine .inl ⟨?_, if_pos hskip⟩
        rcases hskip with hsame | hdue
        · simp [writes, hsame]
        · simp [writes, hdue]
      · rw [if_neg hskip]
        rw [not_or, Bool.not_eq_false] at hskip
        rcases save_cases store disk (session, seq) with ⟨hok, he⟩ | ⟨hok, he⟩
        · exact .inl ⟨by simp [writes, hok], he⟩
        · exact .inr ⟨(session, seq), by simp [writes, hok, hskip.1, hskip.2], rfl, he⟩
    | stateChange st detail => exact .inl ⟨by simp [writes], rfl⟩
    | auditSent bytes => exact .inl ⟨by simp [writes], rfl⟩
    | message m bytes => exact .inl ⟨by simp [writes], rfl⟩
    | request packet => exact .inl ⟨by simp [writes], rfl⟩
    | dispatch f payloadLen reads => exact .inl ⟨by simp [writes], rfl⟩
    | login session seq => exact .inl ⟨by simp [writes], rfl⟩
    | ouch session seq => exact .inl ⟨by simp [writes], rfl⟩

/-- What is offered to the store is the cursor. -/
theorem offers_cursor {l : LiveCursor} {e : LiveEvent} (h : l.Agrees e) {o : Bytes × UInt64} (ho : e.offers = some o) :
    o = (l.cursor.session, l.cursor.seq) := by
  cases e with
  | started lp => cases ho
  | save id n => cases ho; exact Prod.ext h.1 h.2
  | flush id n => cases ho; exact Prod.ext h.1 h.2
  | session e =>
    cases e with
    | auditRecv bytes id n => cases ho; exact Prod.ext h.1 h.2
    | stateChange st detail => cases ho
    | auditSent bytes => cases ho
    | message m bytes => cases ho
    | request packet => cases ho
    | dispatch f payloadLen reads => cases ho
    | login id n => cases ho
    | ouch id n => cases ho

/-! ## Safe writes -/

/-- What `load` returns is a cursor to resume from. -/
def Real (l : SequenceStore.Loaded) : Prop := l.session ≠ [] ∧ l.seq ≠ 0

instance (l : SequenceStore.Loaded) : Decidable (Real l) := inferInstanceAs (Decidable (_ ∧ _))

/-- If the moment replaces the file, then for a session with an id; and a real
cursor is replaced only by an id without colon or newline and a number that is
not 0. -/
def SafeWrite (store : SequenceStore) (m : Moment) : Prop :=
  writes store m = true →
    ∀ o ∈ m.what.offers, o.1 ≠ [] ∧ (Real (store.load none) → SequenceStore.Clean o.1 ∧ o.2 ≠ 0)

instance (store : SequenceStore) (m : Moment) : Decidable (SafeWrite store m) :=
  inferInstanceAs (Decidable (_ → _))

theorem real_storeStep {store : SequenceStore} {m : Moment} (h : Real (store.load none)) (hsafe : SafeWrite store m) :
    Real ((storeStep store m).load none) := by
  rcases storeStep_cases store m with ⟨-, he⟩ | ⟨o, hw, ho, he⟩
  · rw [he]
    exact h
  · obtain ⟨hid, hreal⟩ := hsafe hw o ho
    obtain ⟨hclean, hseq⟩ := hreal h
    rw [he, load_written m.disk hclean]
    exact ⟨hid, hseq⟩

/-- Over a real cursor there is no other way: a write that is not safe, of an id
that reads back as it is, leaves none. -/
theorem not_real_storeStep {store : SequenceStore} {m : Moment} (hclean : ∀ o ∈ m.what.offers, SequenceStore.Clean o.1)
    (hbad : ¬ SafeWrite store m) : ¬ Real ((storeStep store m).load none) := by
  simp only [SafeWrite, Classical.not_imp, not_forall] at hbad
  obtain ⟨hw, o, ho, hno⟩ := hbad
  rcases storeStep_cases store m with ⟨hkeep, -⟩ | ⟨o', -, ho', he⟩
  · rw [hw] at hkeep
    cases hkeep
  · cases ho.symm.trans ho'
    rw [he, load_written m.disk (hclean o ho)]
    rintro ⟨hid, hseq⟩
    exact hno ⟨hid, fun _ => ⟨hclean o ho, hseq⟩⟩

/-- While the session has no id, safe moments leave the store alone. -/
theorem storeAt_noLogin {l : LiveCursor} {store : SequenceStore} {ms : List Moment} (hid : l.cursor.session = [])
    (hagrees : AllAlong LiveCursor.advance LiveCursor.Agrees l (ms.map Moment.what))
    (hno : ∀ m ∈ ms, m.what.isLogin = false)
    (hsafe : AllAlong storeStep SafeWrite store ms) : storeAt store ms = store := by
  induction ms generalizing l with
  | nil => rfl
  | cons m ms ih =>
    have hsame : storeStep store m = store := by
      rcases storeStep_cases store m with ⟨-, he⟩ | ⟨o, hw, ho, -⟩
      · exact he
      · -- the offered id is the session's, which is empty
        have hoffer : o.1 = l.cursor.session := congrArg Prod.fst (offers_cursor hagrees.1 ho)
        exact absurd (hoffer.trans hid) (hsafe.1 hw o ho).1
    have hnext : (l.advance m.what).cursor.session = [] := by
      obtain ⟨what, disk⟩ := m
      cases what with
      | started lp => rfl
      | save session seq => exact hid
      | flush session seq => exact hid
      | session e =>
        cases e with
        | login id n => exact absurd (hno _ List.mem_cons_self) (by simp [LiveEvent.isLogin])
        | _ => exact hid
    have hrest : AllAlong storeStep SafeWrite store ms := by
      have := hsafe.2
      rwa [hsame] at this
    rw [storeAt, run_cons, hsame]
    exact ih hnext hagrees.2 (fun m hm => hno m (List.mem_cons_of_mem _ hm)) hrest

/-! ## Live runs -/

namespace LiveClient

/-- A login attempt without a processed LoginAccepted. -/
def Fails (c : LiveClient) (op : Op) : Prop :=
  op.logsIn = true ∧ ∀ m ∈ c.logged op, m.what.isLogin = false

instance (c : LiveClient) (op : Op) : Decidable (c.Fails op) := inferInstanceAs (Decidable (_ ∧ _))

theorem storeAt_fails {c : LiveClient} {op : Op} (h : c.Fails op) (htracks : (c.step op).Tracks) {store : SequenceStore}
    (hsafe : AllAlong storeStep SafeWrite store (c.logged op)) : storeAt store (c.logged op) = store := by
  obtain ⟨hlogin, hno⟩ := h
  rcases c.logged_logsIn hlogin with hnil | ⟨lp, es, hes⟩
  · rw [hnil]
    rfl
  · obtain ⟨m, ms, hm⟩ : ∃ m ms, c.logged op = m :: ms := by
      cases hl : c.logged op with
      | nil => rw [hl] at hes; cases hes
      | cons m ms => exact ⟨m, ms, rfl⟩
    rw [hm] at hes hno hsafe ⊢
    obtain ⟨what, d⟩ := m
    obtain rfl : what = .started lp := (List.cons.inj hes).1
    have hagrees : AllAlong LiveCursor.advance LiveCursor.Agrees {} (c.step op).events := htracks.agrees
    rw [events, log_step, hm, List.map_append, List.map_cons, allAlong_append, allAlong_cons] at hagrees
    have hrest : storeAt store ms = store := by
      refine storeAt_noLogin ?_ hagrees.2.2 ?_ hsafe.2
      · rfl
      · intro m hmem
        exact hno m (List.mem_cons_of_mem _ hmem)
    exact hrest

/-- A login attempt that fails leaves what `load` returns as it was, and a real
cursor, once stored, is followed by real ones only, at every moment. -/
def CursorKept (c : LiveClient) (ops : List Op) : Prop :=
  (∀ pre op post, ops = pre ++ op :: post → (run step c pre).Fails op →
    ∀ refused, ((run step c pre).step op).stored.load refused = (run step c pre).stored.load refused) ∧
  ∀ p q tail, (run step c ops).log = p ++ q ++ tail →
    Real ((storeAt c.store p).load none) → Real ((storeAt c.store (p ++ q)).load none)

/-- A live run whose writes are safe keeps the cursor on disk. -/
theorem cursor_kept (cfg : Config) (store : SequenceStore) (refused : Option String) (disk : Nat → Disk) {ops : List Op}
    (hsafe : AllAlong storeStep SafeWrite store (run step (boot cfg store refused disk) ops).log) :
    CursorKept (boot cfg store refused disk) ops := by
  constructor
  · intro pre op post hops hfails r
    have htracks := tracks_step (tracks_run (tracks_boot cfg store refused disk) pre) op
    have hstore : (run step (boot cfg store refused disk) pre).store = store := (grows_run _ pre).store
    rw [hops, run_append, run_cons] at hsafe
    generalize run step (boot cfg store refused disk) pre = c at *
    -- the safe writes of the run, cut down to those of this attempt
    have hattempt : AllAlong storeStep SafeWrite (storeAt store c.log) (c.logged op) := by
      obtain ⟨tail, htail⟩ := (grows_run (c.step op) post).log
      rw [← htail, log_step, allAlong_append, allAlong_append] at hsafe
      exact hsafe.1.2
    rw [stored, stored, (grows_step c op).store, hstore, log_step, storeAt, run_append, ← storeAt, ← storeAt,
      storeAt_fails hfails htracks hattempt]
  · intro p q tail hlog hreal
    rw [hlog, allAlong_append, allAlong_append] at hsafe
    rw [storeAt, run_append]
    exact run_inv (fun s => Real (s.load none)) (fun _ _ h hs => real_storeStep h hs) hreal hsafe.1.2

theorem cursor_kept_login :
    CursorKept coldStart [.reconnect [] [] 0 (dialing (accepted 1) []), .flush] :=
  cursor_kept _ _ _ _ (by decide +kernel)

def loggedIn : LiveClient := run step coldStart [.reconnect [] [] 0 (dialing (accepted 1) [])]

/-- LoginRejected, reason `A`. -/
def rejection : Soup.Packet := ⟨Soup.Pkt.loginRejected, [65], by decide⟩

theorem rejection_fits : rejection.encode.length ≤ 8192 := by decide

/-- The packet that rejects the second login is offered to the store with the
empty id and number 0, and 0 - 1 is past every delta. -/
theorem rejected_login_clobbers :
    let op := Op.reconnect (ascii "wrong") [] 0 (dialing (chunk rejection rejection_fits) [])
    loggedIn.Fails op ∧
    loggedIn.stored.load none = ⟨.ok (), ascii "MOCKSESS01", 1⟩ ∧
    (loggedIn.step op).stored.load none = ⟨.ok (), [], 0⟩ ∧
    ¬ CursorKept coldStart [.reconnect [] [] 0 (dialing (accepted 1) []), op] := by
  intro op
  have hfails : loggedIn.Fails op := by decide +kernel
  have hbefore : loggedIn.stored.load none = ⟨.ok (), ascii "MOCKSESS01", 1⟩ := by decide +kernel
  have hafter : (loggedIn.step op).stored.load none = ⟨.ok (), [], 0⟩ := by decide +kernel
  refine ⟨hfails, hbefore, hafter, ?_⟩
  intro h
  have hsame := h.1 [.reconnect [] [] 0 (dialing (accepted 1) [])] op [] rfl hfails none
  exact absurd (hafter.symm.trans (hsame.trans hbefore)) (by decide)

end LiveClient

end BistColo.App
