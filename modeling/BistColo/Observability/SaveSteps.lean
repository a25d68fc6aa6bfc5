import BistColo.Observability.SequenceStore
import BistColo.StreamKit.Runs
/-!
# A save, one file-system step at a time

`SequenceStore::save` as the calls it makes to the file system, each with its
answer, so that the process can stop between any two of them. `save_of_returned`
and `returned_of_save` make it the `save` of `SequenceStore`.

The line of a cursor holds the session id as it is, so an id with a colon or a
newline is cut when it is read, and the file that the rename
puts in place is neither the old pair nor the new (`atomic_iff`).
-/

open StreamKit

namespace BistColo.Observability

/-- Where `save` is. -/
inductive Saving
  | makingDirectories
  | opening
  /-- `rest` is still to be written -/
  | writing (rest : Bytes)
  /-- a write failed; closing the stream tries the rest again -/
  | failing (rest : Bytes)
  | replacing
  /-- the file is in place, the two members are not yet set -/
  | remembering
  | returned (result : Result Unit)
deriving DecidableEq

/-- What the file system says to a step, how much it wrote, and the clock. -/
structure Answer where
  refused : Option String := none
  wrote : Nat := 0
  now : UInt64 := 0
deriving DecidableEq

/-- A save on its way: the store, the temporary file beside its own, and where
`save` is. -/
structure SaveRun where
  store : SequenceStore
  tmp : Option Bytes
  phase : Saving
deriving DecidableEq

namespace SaveRun

/-- What is left in the temporary file is whatever an earlier save left. -/
def start (store : SequenceStore) (tmp : Option Bytes) : SaveRun := { store, tmp, phase := .makingDirectories }

/-- What the file holds after a write of part of the text, and what is left. -/
def append (r : SaveRun) (rest : Bytes) (wrote : Nat) : Option Bytes := r.tmp.map (· ++ rest.take wrote)

def step (session : Bytes) (seq : UInt64) (r : SaveRun) (a : Answer) : SaveRun :=
  let tmp := r.store.path ++ ".tmp"
  match r.phase with
  | .makingDirectories => { r with phase := .opening }
  | .opening =>
    match a.refused with
    | some errno => { r with phase := .returned (.error (makeError .io ("open " ++ tmp ++ ": " ++ errno))) }
    | none => { r with tmp := some [], phase := .writing (SequenceStore.line session seq) }
  | .writing rest =>
    match a.refused with
    | some _ => { r with phase := .failing rest }
    | none =>
      { r with
        tmp := r.append rest a.wrote
        phase := if rest.drop a.wrote = [] then .replacing else .writing (rest.drop a.wrote) }
  | .failing rest =>
    { r with
      tmp := r.append rest a.wrote
      phase := .returned (.error (makeError .io ("write " ++ tmp ++ " failed"))) }
  | .replacing =>
    match a.refused with
    | some message =>
      { r with
        phase := .returned (.error (makeError .io ("rename " ++ tmp ++ " -> " ++ r.store.path ++ ": " ++ message))) }
    | none => { r with store := { r.store with file := r.tmp }, tmp := none, phase := .remembering }
  | .remembering =>
    { r with store := { r.store with lastSavedSeq := seq, lastSaveNs := a.now }, phase := .returned (.ok ()) }
  | .returned _ => r

/-! ## What a save has done wherever it stops -/

/-- What holds between any two steps of a save on the store `s`. -/
def Sound (s : SequenceStore) (session : Bytes) (seq : UInt64) (r : SaveRun) : Prop :=
  match r.phase with
  | .makingDirectories | .opening | .failing _ => r.store = s
  | .writing rest => r.store = s ∧ ∃ done, r.tmp = some done ∧ done ++ rest = SequenceStore.line session seq
  | .replacing => r.store = s ∧ r.tmp = some (SequenceStore.line session seq)
  | .remembering => r.store = { s with file := some (SequenceStore.line session seq) }
  | .returned result => ∃ disk, s.save disk session seq = (result, r.store)

theorem sound_start (s : SequenceStore) (session : Bytes) (seq : UInt64) (tmp : Option Bytes) :
    (start s tmp).Sound s session seq := rfl

theorem Sound.step {s : SequenceStore} {session : Bytes} {seq : UInt64} {r : SaveRun} (h : r.Sound s session seq)
    (a : Answer) : (r.step session seq a).Sound s session seq := by
  obtain ⟨store, tmp, phase⟩ := r
  cases phase with
  | makingDirectories => exact h
  | opening =>
    obtain rfl : store = s := h
    cases hr : a.refused with
    | none =>
      simp only [SaveRun.step, hr]
      exact ⟨rfl, [], rfl, List.nil_append _⟩
    | some errno =>
      simp only [SaveRun.step, hr]
      exact ⟨⟨.openFails errno, 0, 0⟩, rfl⟩
  | writing rest =>
    obtain ⟨rfl, done, htmp, hline⟩ := h
    dsimp only at htmp
    subst htmp
    cases hr : a.refused with
    | some errno =>
      simp only [SaveRun.step, hr]
      rfl
    | none =>
      simp only [SaveRun.step, hr, append]
      by_cases hrest : rest.drop a.wrote = []
      · rw [if_pos hrest]
        refine ⟨rfl, ?_⟩
        -- the last piece
        have htake : rest.take a.wrote = rest := by
          apply List.take_of_length_le
          exact List.drop_eq_nil_iff.1 hrest
        dsimp only [Option.map_some]
        rw [htake, hline]
      · rw [if_neg hrest]
        refine ⟨rfl, done ++ rest.take a.wrote, rfl, ?_⟩
        rw [List.append_assoc, List.take_append_drop, hline]
  | failing rest =>
    obtain rfl : store = s := h
    exact ⟨⟨.writeFails, 0, 0⟩, rfl⟩
  | replacing =>
    obtain ⟨rfl, htmp⟩ := h
    dsimp only at htmp
    subst htmp
    cases hr : a.refused with
    | none =>
      simp only [SaveRun.step, hr]
      rfl
    | some message =>
      simp only [SaveRun.step, hr]
      exact ⟨⟨.renameFails message, 0, 0⟩, rfl⟩
  | remembering =>
    obtain rfl : store = { s with file := some (SequenceStore.line session seq) } := h
    exact ⟨⟨.ok, 0, a.now⟩, rfl⟩
  | returned result => exact h

theorem sound_run (s : SequenceStore) (session : Bytes) (seq : UInt64) (tmp : Option Bytes) (as : List Answer) :
    (run (step session seq) (start s tmp) as).Sound s session seq := by
  suffices ∀ r : SaveRun, r.Sound s session seq → (run (step session seq) r as).Sound s session seq from
    this _ (sound_start s session seq tmp)
  induction as with
  | nil => exact fun r h => h
  | cons a as ih => exact fun r h => ih _ (h.step a)

/-- A save that has returned is one call of `save`. -/
theorem save_of_returned {s : SequenceStore} {session : Bytes} {seq : UInt64} {tmp : Option Bytes} {as : List Answer}
    {result : Result Unit} (h : (run (step session seq) (start s tmp) as).phase = .returned result) :
    ∃ disk, s.save disk session seq = (result, (run (step session seq) (start s tmp) as).store) := by
  have hsound := sound_run s session seq tmp as
  rw [Sound, h] at hsound
  exact hsound

/-- The answers with which a save goes as `disk` says. -/
def answers (disk : Disk) (session : Bytes) (seq : UInt64) : List Answer :=
  let whole : Answer := { wrote := (SequenceStore.line session seq).length }
  match disk.outcome with
  | .openFails errno => [{}, { refused := some errno }]
  | .writeFails => [{}, {}, { refused := some "" }, {}]
  | .renameFails message => [{}, {}, whole, { refused := some message }]
  | .ok => [{}, {}, whole, {}, { now := disk.savedAt }]

/-- Every call of `save` is one of these. -/
theorem returned_of_save (s : SequenceStore) (disk : Disk) (session : Bytes) (seq : UInt64) (tmp : Option Bytes) :
    let r := run (step session seq) (start s tmp) (answers disk session seq)
    r.phase = .returned (s.save disk session seq).1 ∧ r.store = (s.save disk session seq).2 := by
  obtain ⟨outcome, now, savedAt⟩ := disk
  cases outcome with
  | openFails errno => exact ⟨rfl, rfl⟩
  | writeFails => exact ⟨rfl, rfl⟩
  | renameFails message => simp [answers, run, step, start, append, SequenceStore.save]
  | ok => simp [answers, run, step, start, append, SequenceStore.save]

/-- The file is the old one or the new one. -/
theorem Sound.load {s : SequenceStore} {session : Bytes} {seq : UInt64} {r : SaveRun} (h : r.Sound s session seq)
    (refused : Option String) :
    r.store.load refused = s.load refused ∨
      r.store.load refused = { s with file := some (SequenceStore.line session seq) }.load refused := by
  obtain ⟨store, tmp, phase⟩ := r
  cases phase with
  | makingDirectories | opening | failing rest =>
    obtain rfl : store = s := h
    exact .inl rfl
  | writing rest | replacing =>
    obtain rfl : store = s := h.1
    exact .inl rfl
  | remembering =>
    obtain rfl : store = { s with file := some (SequenceStore.line session seq) } := h
    exact .inr rfl
  | returned result =>
    obtain ⟨⟨outcome, now, savedAt⟩, hsave⟩ := h
    have hstore : store = (s.save ⟨outcome, now, savedAt⟩ session seq).2 := (congrArg Prod.snd hsave).symm
    subst hstore
    cases outcome with
    | openFails errno => exact .inl rfl
    | writeFails => exact .inl rfl
    | renameFails message => exact .inl rfl
    | ok => exact .inr rfl

/-- A save that fails leaves the store as it was. -/
theorem Sound.error {s : SequenceStore} {session : Bytes} {seq : UInt64} {r : SaveRun} (h : r.Sound s session seq)
    {e : Error} (hret : r.phase = .returned (.error e)) : r.store = s := by
  rw [Sound, hret] at h
  obtain ⟨⟨outcome, now, savedAt⟩, hsave⟩ := h
  cases outcome with
  | openFails errno => exact (congrArg Prod.snd hsave).symm
  | writeFails => exact (congrArg Prod.snd hsave).symm
  | renameFails message => exact (congrArg Prod.snd hsave).symm
  | ok => cases congrArg Prod.fst hsave

/-! ## What a later load sees -/

/-- A store over the file that a save of `before` left, or over no file. -/
def holding (s : SequenceStore) (before : Option (Bytes × UInt64)) : SequenceStore :=
  { s with file := before.map fun p => SequenceStore.line p.1 p.2 }

/-- A load returns the pair `p`. -/
def Loads (s : SequenceStore) (p : Bytes × UInt64) : Prop := s.load none = ⟨.ok (), p.1, p.2⟩

instance (s : SequenceStore) (p : Bytes × UInt64) : Decidable (Loads s p) := inferInstanceAs (Decidable (_ = _))

/-- Wherever a save on `s` stops, a load gives the old pair or the new one, and
a save that fails changes nothing that is read later. -/
def Atomic (s : SequenceStore) (old new : Bytes × UInt64) (r : SaveRun) : Prop :=
  (Loads r.store old ∨ Loads r.store new) ∧
    ∀ e, r.phase = .returned (.error e) →
      (∀ refused, r.store.load refused = s.load refused) ∧ r.store.lastSavedSeq = s.lastSavedSeq ∧
        ∀ now seq minSeqDelta minIntervalMs,
          r.store.due now seq minSeqDelta minIntervalMs = s.due now seq minSeqDelta minIntervalMs

theorem loads_line {s : SequenceStore} {p : Bytes × UInt64} :
    Loads (holding s (some p)) p ↔ SequenceStore.Clean p.1 := SequenceStore.load_line_iff rfl

/-- A save that goes well reaches the new file. -/
theorem store_of_save (s : SequenceStore) (session : Bytes) (seq : UInt64) :
    (run (step session seq) (start s none) (answers ⟨.ok, 0, 0⟩ session seq)).store.file =
      some (SequenceStore.line session seq) := by
  rw [(returned_of_save s ⟨.ok, 0, 0⟩ session seq none).2]
  rfl

theorem atomic_iff (s : SequenceStore) (before : Option (Bytes × UInt64)) (session : Bytes) (seq : UInt64) :
    (∀ tmp as, Atomic (holding s before) (before.getD ([], 0)) (session, seq)
        (run (step session seq) (start (holding s before) tmp) as)) ↔
      (∀ p ∈ before, SequenceStore.Clean p.1 ∨ Loads (holding s (some p)) (session, seq)) ∧
        (SequenceStore.Clean session ∨ Loads (holding s (some (session, seq))) (before.getD ([], 0))) := by
  constructor
  · intro h
    constructor
    · rintro p rfl
      -- the save that stops at once
      rcases (h none []).1 with hold | hnew
      · exact .inl (loads_line.1 hold)
      · exact .inr hnew
    · have hdone := (h none (answers ⟨.ok, 0, 0⟩ session seq)).1
      have hfile := store_of_save (holding s before) session seq
      generalize run (step session seq) (start (holding s before) none) (answers ⟨.ok, 0, 0⟩ session seq) = r at hdone hfile
      have hload : r.store.load none = (holding s (some (session, seq))).load none := by
        unfold SequenceStore.load
        rw [hfile]
        rfl
      rw [Loads, Loads, hload] at hdone
      rcases hdone with hold | hnew
      · exact .inr hold
      · exact .inl (loads_line.1 hnew)
  · rintro ⟨hbefore, hnew⟩ tmp as
    have hsound := sound_run (holding s before) session seq tmp as
    refine ⟨?_, ?_⟩
    · have hload := hsound.load none
      rw [Loads, Loads]
      rcases hload with hold | hline
      · rw [hold]
        cases before with
        | none => exact .inl rfl
        | some p =>
          rcases hbefore p rfl with hclean | hreads
          · exact .inl (loads_line.2 hclean)
          · exact .inr hreads
      · rw [hline]
        rcases hnew with hclean | hreads
        · exact .inr ((loads_line (s := s) (p := (session, seq))).2 hclean)
        · exact .inl hreads
    · intro e hret
      rw [hsound.error hret]
      exact ⟨fun _ => rfl, rfl, fun _ _ _ _ => rfl⟩

/-- The process ends after the rename, and the id is cut at its colon. -/
theorem atomic_colon : ¬ ∀ (before : Option (Bytes × UInt64)) (session : Bytes) (seq : UInt64) tmp as,
    (∀ p ∈ before, p.1.length = 10) → session.length = 10 →
      Atomic (holding { path := "cursor" } before) (before.getD ([], 0)) (session, seq)
        (run (step session seq) (start (holding { path := "cursor" } before) tmp) as) := by
  intro h
  have hcut := (h (some (ascii "OUCH000001", 5)) (ascii "OUCH:00001") 6 none
    [{}, {}, { wrote := 13 }, {}] (fun p hp => by cases hp; rfl) rfl).1
  revert hcut
  decide

end SaveRun

end BistColo.Observability
