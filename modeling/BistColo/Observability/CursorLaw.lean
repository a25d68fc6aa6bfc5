import BistColo.Observability.SequenceStore
import BistColo.StreamKit.Runs
/-!
# The law of the persisted cursor

After a flush the file holds the cursor it was given, and after a throttled
save a cursor of the same session that is less than the delta behind. The store
decides by the number of its last save alone. So a call that writes keeps the
law, and one that does not keeps it exactly if the file holds its own session
(`cursor_law_iff`): `flush_skips_session` is a flush that leaves another one.
-/

open StreamKit

namespace BistColo.Observability

namespace SequenceStore

/-- The calls of the store that may write. -/
inductive Call
  | save (disk : Disk) (session : Bytes) (seq : UInt64)
  | saveIfDue (disk : Disk) (session : Bytes) (seq minSeqDelta : UInt64) (minIntervalMs : UInt32)
  | flush (disk : Disk) (session : Bytes) (seq : UInt64)
deriving DecidableEq

namespace Call

def disk : Call → Disk
  | save disk _ _ | saveIfDue disk _ _ _ _ | flush disk _ _ => disk

def session : Call → Bytes
  | save _ session _ | saveIfDue _ session _ _ _ | flush _ session _ => session

def seq : Call → UInt64
  | save _ _ seq | saveIfDue _ _ seq _ _ | flush _ _ seq => seq

end Call

def exec (s : SequenceStore) : Call → Result Unit × SequenceStore
  | .save disk session seq => s.save disk session seq
  | .saveIfDue disk session seq minSeqDelta minIntervalMs => s.saveIfDue disk session seq minSeqDelta minIntervalMs
  | .flush disk session seq => s.flush disk session seq

def step (s : SequenceStore) (c : Call) : SequenceStore := (s.exec c).2

/-- The call gets to the file. -/
def writes (s : SequenceStore) : Call → Bool
  | .save .. => true
  | .saveIfDue disk _ seq minSeqDelta minIntervalMs =>
    decide (seq ≠ s.lastSavedSeq) && s.due disk.now seq minSeqDelta minIntervalMs
  | .flush _ _ seq => decide (seq ≠ s.lastSavedSeq)

/-- What `load` returns right after a successful flush or throttled save. -/
def Law (s : SequenceStore) (c : Call) : Prop :=
  match c with
  | .save .. => True
  | .saveIfDue _ session seq minSeqDelta _ => 1 ≤ minSeqDelta → (s.exec c).1 = .ok () →
      ∃ m, (s.step c).load none = ⟨.ok (), session, m⟩ ∧ m ≤ seq ∧ seq.toNat - m.toNat < minSeqDelta.toNat
  | .flush _ session seq => (s.exec c).1 = .ok () → (s.step c).load none = ⟨.ok (), session, seq⟩

/-- The call is one the law speaks of. -/
def Call.lawful : Call → Bool
  | .save .. => false
  | .saveIfDue _ _ _ minSeqDelta _ => decide (1 ≤ minSeqDelta)
  | .flush .. => true

/-- Unless the call writes, the file holds its session, with the number that
was saved last. -/
def Settled (s : SequenceStore) (c : Call) : Prop :=
  c.lawful = true → s.writes c = false → s.load none = ⟨.ok (), c.session, s.lastSavedSeq⟩

instance (s : SequenceStore) (c : Call) : Decidable (s.Settled c) := inferInstanceAs (Decidable (_ → _))

/-! ## One call -/

/-- A call that writes leaves its own cursor; any other leaves the store alone. -/
theorem exec_spec {s : SequenceStore} {c : Call} (hdisk : c.disk.outcome = .ok) :
    s.exec c = (.ok (), if s.writes c then
      { s with file := some (line c.session c.seq), lastSavedSeq := c.seq, lastSaveNs := c.disk.savedAt } else s) := by
  have hsave : ∀ disk session seq, disk.outcome = .ok → s.save disk session seq =
      (.ok (), { s with file := some (line session seq), lastSavedSeq := seq, lastSaveNs := disk.savedAt }) := by
    intro disk session seq h
    rw [save, h]
  cases c with
  | save disk session seq =>
    rw [exec, hsave disk session seq hdisk]
    rfl
  | saveIfDue disk session seq minSeqDelta minIntervalMs =>
    rw [exec, saveIfDue, hsave disk session seq hdisk]
    by_cases hsame : seq = s.lastSavedSeq
    · simp [writes, hsame]
    · by_cases hdue : s.due disk.now seq minSeqDelta minIntervalMs = false
      · simp [writes, hsame, hdue]
      · rw [Bool.not_eq_false] at hdue
        simp [writes, hsame, hdue, Call.session, Call.seq, Call.disk]
  | flush disk session seq =>
    rw [exec, flush, hsave disk session seq hdisk]
    by_cases hsame : seq = s.lastSavedSeq
    · simp [writes, hsame]
    · simp [writes, hsame, Call.session, Call.seq, Call.disk]

theorem step_writes {s : SequenceStore} {c : Call} (hdisk : c.disk.outcome = .ok) (h : s.writes c = true) :
    s.step c = { s with file := some (line c.session c.seq), lastSavedSeq := c.seq, lastSaveNs := c.disk.savedAt } := by
  rw [step, exec_spec hdisk, if_pos h]

theorem step_skips {s : SequenceStore} {c : Call} (hdisk : c.disk.outcome = .ok) (h : s.writes c = false) :
    s.step c = s := by
  rw [step, exec_spec hdisk, if_neg (by simp [h])]

/-- A call that writes keeps the law. -/
theorem law_of_writes {s : SequenceStore} {c : Call} (hdisk : c.disk.outcome = .ok) (hclean : Clean c.session)
    (h : s.writes c = true) : s.Law c := by
  have hload : (s.step c).load none = ⟨.ok (), c.session, c.seq⟩ := by
    rw [step_writes hdisk h]
    exact load_line rfl hclean
  cases c with
  | save disk session seq => trivial
  | saveIfDue disk session seq minSeqDelta minIntervalMs =>
    intro hdelta _
    refine ⟨seq, hload, UInt64.le_refl seq, ?_⟩
    have hpos : 1 ≤ minSeqDelta.toNat := UInt64.le_iff_toNat_le.1 hdelta
    omega
  | flush disk session seq => exact fun _ => hload

/-! ## Runs -/

/-- The store of a run: it has not saved yet, or its file holds an earlier call. -/
def Kept (s : SequenceStore) (past : List Call) : Prop :=
  (s.lastSavedSeq = 0 ∧ s.lastSaveNs = 0) ∨
    ∃ c ∈ past, s.file = some (line c.session c.seq) ∧ s.lastSavedSeq = c.seq

theorem Kept.step {s : SequenceStore} {past : List Call} {c : Call} (h : s.Kept past) (hdisk : c.disk.outcome = .ok) :
    (s.step c).Kept (past ++ [c]) := by
  by_cases hw : s.writes c = true
  · rw [step_writes hdisk hw]
    exact .inr ⟨c, by simp, rfl, rfl⟩
  · rw [Bool.not_eq_true] at hw
    rw [step_skips hdisk hw]
    rcases h with hnew | ⟨c', hc', hfile⟩
    · exact .inl hnew
    · exact .inr ⟨c', List.mem_append_left _ hc', hfile⟩

theorem kept_run {s : SequenceStore} {calls : List Call} (hseq : s.lastSavedSeq = 0) (hns : s.lastSaveNs = 0)
    (hdisk : ∀ c ∈ calls, c.disk.outcome = .ok) : (run step s calls).Kept calls := by
  induction calls using List.reverseRecOn with
  | nil => exact .inl ⟨hseq, hns⟩
  | append_singleton calls c ih =>
    rw [run_append]
    refine (ih fun c' hc' => hdisk c' (List.mem_append_left _ hc')).step (hdisk c ?_)
    exact List.mem_append_right _ List.mem_cons_self

/-- A call that does not write keeps the law exactly if the file is settled. -/
theorem law_of_skips {s : SequenceStore} {past : List Call} {c : Call} (h : s.Kept past)
    (hclean : ∀ c' ∈ past, Clean c'.session) (hsorted : ∀ c' ∈ past, c'.session = c.session → c'.seq ≤ c.seq)
    (hdisk : c.disk.outcome = .ok) (hw : s.writes c = false) : s.Law c ↔ s.Settled c := by
  have hok : (s.exec c).1 = .ok () := by rw [exec_spec hdisk]
  cases c with
  | save disk session seq => exact ⟨fun _ hl => absurd hl (by simp [Call.lawful]), fun _ => trivial⟩
  | flush disk session seq =>
    have hsame : seq = s.lastSavedSeq := by simpa [writes] using hw
    rw [Law, step_skips hdisk hw, Settled]
    simp only [hok, hw, Call.lawful, Call.session, ← hsame, true_imp_iff]
  | saveIfDue disk session seq minSeqDelta minIntervalMs =>
    rw [Law, step_skips hdisk hw, Settled]
    simp only [hok, hw, Call.lawful, Call.session, decide_eq_true_eq, true_imp_iff]
    refine imp_congr_right fun hdelta => ?_
    have hpos : 1 ≤ minSeqDelta.toNat := UInt64.le_iff_toNat_le.1 hdelta
    rcases h with ⟨hseq, hns⟩ | ⟨c', hc', hfile, hlast⟩
    · -- nothing was saved yet, so only the number zero is taken to be there
      have hzero : seq = 0 := by simpa [writes, due, hseq, hns] using hw
      constructor
      · rintro ⟨m, hload, hle, -⟩
        have hm : m = 0 := by
          rw [hzero] at hle
          exact UInt64.le_antisymm hle UInt64.zero_le
        rw [hload, hm, hseq]
      · intro hload
        refine ⟨0, by rw [hload, hseq], UInt64.zero_le, ?_⟩
        rw [hzero]
        exact hpos
    · have hload := load_line hfile (hclean c' hc')
      rw [hload, hlast]
      constructor
      · rintro ⟨m, hm, -⟩
        rw [hm] at hload
        rw [Loaded.mk.injEq] at hm
        rw [hm.2.1]
      · intro hm
        have hsession : c'.session = session := by
          rw [Loaded.mk.injEq] at hm
          exact hm.2.1
        have hle : c'.seq ≤ seq := hsorted c' hc' hsession
        refine ⟨c'.seq, hm, hle, ?_⟩
        rw [← UInt64.toNat_sub_of_le _ _ hle]
        by_cases hsame : seq = c'.seq
        · simp [hsame]
          omega
        · -- it is not due, so the distance is below the delta
          have hnot : ¬ minSeqDelta ≤ seq - c'.seq := by
            intro hge
            have hdue : s.due disk.now seq minSeqDelta minIntervalMs = true := by simp [due, hlast, hge]
            simp [writes, hlast, hsame, hdue] at hw
          exact Nat.not_le.1 (mt UInt64.le_iff_toNat_le.2 hnot)

/-- From any file, a run keeps the law exactly if every flush and throttled
save that does not write finds its session in the file, with the number saved
last. -/
theorem cursor_law_iff {s : SequenceStore} {calls : List Call} (hseq : s.lastSavedSeq = 0) (hns : s.lastSaveNs = 0)
    (hdisk : ∀ c ∈ calls, c.disk.outcome = .ok) (hclean : ∀ c ∈ calls, Clean c.session)
    (hsorted : calls.Pairwise fun c c' => c.session = c'.session → c.seq ≤ c'.seq) :
    AllAlong step Law s calls ↔ AllAlong step Settled s calls := by
  have hat : ∀ pre c post, calls = pre ++ c :: post →
      ((run step s pre).Law c ↔ (run step s pre).Settled c) := by
    rintro pre c post rfl
    have hc : c ∈ pre ++ c :: post := List.mem_append_right _ List.mem_cons_self
    have hpre : ∀ c' ∈ pre, c' ∈ pre ++ c :: post := fun c' hc' => List.mem_append_left _ hc'
    have hkept := kept_run hseq hns fun c' hc' => hdisk c' (hpre c' hc')
    by_cases hw : (run step s pre).writes c = true
    · refine iff_of_true (law_of_writes (hdisk c hc) (hclean c hc) hw) ?_
      intro _ hnot
      rw [hw] at hnot
      cases hnot
    · rw [Bool.not_eq_true] at hw
      refine law_of_skips hkept (fun c' hc' => hclean c' (hpre c' hc')) ?_ (hdisk c hc) hw
      intro c' hc'
      exact (List.pairwise_append.1 hsorted).2.2 c' hc' c List.mem_cons_self
  rw [allAlong_iff_at, allAlong_iff_at]
  constructor
  · intro h pre c post hcalls
    exact (hat pre c post hcalls).1 (h pre c post hcalls)
  · intro h pre c post hcalls
    exact (hat pre c post hcalls).2 (h pre c post hcalls)

/-- A file system without failures, at the reading `t` of the clock. -/
def willing (t : UInt64) : Disk := ⟨.ok, t, t⟩

/-- A store over the file of an earlier run. -/
def inherited : SequenceStore := { path := "oe.seq", file := some (line (ascii "OUCH000001") 40) }

def resuming : List Call :=
  [.saveIfDue (willing 5) (ascii "OUCH000001") 41 100 100, .flush (willing 6) (ascii "OUCH000001") 42]

theorem cursor_law_iff_resuming : AllAlong step Law inherited resuming ↔ AllAlong step Settled inherited resuming :=
  cursor_law_iff rfl rfl (by decide) (by decide) (by decide)

/-- A store that has saved the cursor of one session. -/
def saved : SequenceStore := run step { path := "oe.seq" } [.save (willing 5) (ascii "OUCH000001") 100]

def nextSession : Call := .flush (willing 6) (ascii "OUCH000002") 100

/-- A flush at the number of the last save leaves the session of that save in the file. -/
theorem flush_skips_session : (saved.exec nextSession).1 = .ok () ∧
    (saved.step nextSession).load none = ⟨.ok (), ascii "OUCH000001", 100⟩ ∧ ¬ saved.Law nextSession := by
  have hload : (saved.step nextSession).load none = ⟨.ok (), ascii "OUCH000001", 100⟩ := by decide +kernel
  refine ⟨by decide, hload, ?_⟩
  intro h
  have hnext : (saved.step nextSession).load none = ⟨.ok (), ascii "OUCH000002", 100⟩ := h (by decide)
  rw [hload] at hnext
  exact absurd hnext (by decide)

end SequenceStore

end BistColo.Observability
