import BistColo.Core
/-!
# The sequence store

`observability/sequence_store.hpp`. The store is one file with one line, the
session id and the next number with a colon between them. What the file system
and the clock do during a call is given with the call.
-/

open StreamKit

namespace BistColo.Observability

/-- How the file system takes a save: where it fails, or not at all. -/
inductive SaveOutcome
  | openFails (errno : String)
  | writeFails
  | renameFails (message : String)
  | ok
deriving DecidableEq

/-- What a call of the store meets: the file system, and the two readings of
the clock, the one that says whether a save is due and the one after it. -/
structure Disk where
  outcome : SaveOutcome
  now : UInt64
  savedAt : UInt64
deriving DecidableEq

structure SequenceStore where
  path : String
  file : Option Bytes := none
  lastSavedSeq : UInt64 := 0
  lastSaveNs : UInt64 := 0
deriving DecidableEq

namespace SequenceStore

/-- What `load` makes of the file: its result, and the two values it leaves in
its arguments. -/
structure Loaded where
  result : Result Unit
  session : Bytes
  seq : UInt64
deriving DecidableEq

/-- `refused` is the reason for which a file that exists cannot be opened, if any. -/
def load (s : SequenceStore) (refused : Option String) : Loaded :=
  match s.file, refused with
  | none, _ => ⟨.ok (), [], 0⟩
  | some _, some errno => ⟨.error (makeError .io ("open " ++ s.path ++ ": " ++ errno)), [], 0⟩
  | some contents, none =>
    let line := contents.takeWhile (· ≠ 10)
    if 58 ∉ line then ⟨.error (makeError .validation "sequence file malformed (missing ':')"), [], 0⟩
    else
      let session := line.takeWhile (· ≠ 58)
      match stoull (line.drop (session.length + 1)) with
      | none => ⟨.error (makeError .validation ("sequence file malformed: " ++ "stoull")), session, 0⟩
      | some seq => ⟨.ok (), session, seq⟩

/-- The line of a cursor. -/
def line (session : Bytes) (seq : UInt64) : Bytes := session ++ [58] ++ decText seq.toNat ++ [10]

def save (s : SequenceStore) (disk : Disk) (session : Bytes) (seq : UInt64) : Result Unit × SequenceStore :=
  let tmp := s.path ++ ".tmp"
  match disk.outcome with
  | .openFails errno => (.error (makeError .io ("open " ++ tmp ++ ": " ++ errno)), s)
  | .writeFails => (.error (makeError .io ("write " ++ tmp ++ " failed")), s)
  | .renameFails message => (.error (makeError .io ("rename " ++ tmp ++ " -> " ++ s.path ++ ": " ++ message)), s)
  | .ok => (.ok (), { s with file := some (line session seq), lastSavedSeq := seq, lastSaveNs := disk.savedAt })

/-- Whether a save is due. The subtraction is unsigned. -/
def due (s : SequenceStore) (now seq minSeqDelta : UInt64) (minIntervalMs : UInt32) : Bool :=
  let intervalNs := minIntervalMs.toUInt64 * 1000000
  decide (minSeqDelta ≤ seq - s.lastSavedSeq) || (s.lastSaveNs == 0 || decide (intervalNs ≤ now - s.lastSaveNs))

def saveIfDue (s : SequenceStore) (disk : Disk) (session : Bytes) (seq : UInt64) (minSeqDelta : UInt64 := 100)
    (minIntervalMs : UInt32 := 100) : Result Unit × SequenceStore :=
  if seq = s.lastSavedSeq then (.ok (), s)
  else if s.due disk.now seq minSeqDelta minIntervalMs = false then (.ok (), s)
  else s.save disk session seq

def flush (s : SequenceStore) (disk : Disk) (session : Bytes) (seq : UInt64) : Result Unit × SequenceStore :=
  if seq = s.lastSavedSeq then (.ok (), s) else s.save disk session seq

theorem flush_store (s : SequenceStore) (disk : Disk) (session : Bytes) (seq : UInt64) :
    (s.flush disk session seq).2 = if seq = s.lastSavedSeq then s else (s.save disk session seq).2 := by
  unfold flush
  split <;> rfl

theorem saveIfDue_store (s : SequenceStore) (disk : Disk) (session : Bytes) (seq minSeqDelta : UInt64)
    (minIntervalMs : UInt32) :
    (s.saveIfDue disk session seq minSeqDelta minIntervalMs).2 =
      if seq = s.lastSavedSeq ∨ s.due disk.now seq minSeqDelta minIntervalMs = false then s
      else (s.save disk session seq).2 := by
  unfold saveIfDue
  by_cases hsame : seq = s.lastSavedSeq
  · rw [if_pos hsame, if_pos (.inl hsame)]
  · rw [if_neg hsame]
    by_cases hdue : s.due disk.now seq minSeqDelta minIntervalMs = false
    · rw [if_pos hdue, if_pos (.inr hdue)]
    · rw [if_neg hdue, if_neg (not_or.2 ⟨hsame, hdue⟩)]

/-! ## What a save leaves in the file -/

/-- What reads back as it was written. -/
def Clean (session : Bytes) : Prop := 58 ∉ session ∧ 10 ∉ session

instance (session : Bytes) : Decidable (Clean session) := inferInstanceAs (Decidable (_ ∧ _))

theorem decText_no (n : Nat) {b : UInt8} (hb : isDigit b = false) : b ∉ decText n := by
  intro h
  rw [isDigit_decText n b h] at hb
  cases hb

theorem stoull_decText (seq : UInt64) : stoull (decText seq.toNat) = some seq := by
  have hread : readDigits 0 (decText seq.toNat) = seq.toNat := readDigits_decText _
  have hne : decText seq.toNat ≠ [] := by simp [decText]
  rw [stoull, strtoullParse_digits (isDigit_decText _) hne (by rw [hread]; exact seq.toNat_lt), hread,
    UInt64.ofNat_toNat]

/-- The text before the first `b`. -/
theorem takeWhile_append_stop {xs ys : Bytes} {b : UInt8} (h : b ∉ xs) : (xs ++ b :: ys).takeWhile (· ≠ b) = xs := by
  have hpos : ∀ x ∈ xs, decide (x ≠ b) = true := by
    intro x hx
    rw [decide_eq_true_eq]
    rintro rfl
    exact h hx
  rw [List.takeWhile_append_of_pos hpos, List.takeWhile_cons_of_neg (by simp), List.append_nil]

/-- A clean cursor is read back from its line. -/
theorem load_line {s : SequenceStore} {session : Bytes} {seq : UInt64} (hfile : s.file = some (line session seq))
    (h : Clean session) : s.load none = ⟨.ok (), session, seq⟩ := by
  have hline : (line session seq).takeWhile (· ≠ 10) = session ++ 58 :: decText seq.toNat := by
    have hno : 10 ∉ session ++ 58 :: decText seq.toNat := by
      simp only [List.mem_append, List.mem_cons, not_or]
      exact ⟨h.2, by decide, decText_no _ (by decide)⟩
    rw [line, List.append_assoc session, List.singleton_append]
    exact takeWhile_append_stop hno
  unfold load
  rw [hfile]
  dsimp only
  rw [hline, if_neg (by simp), takeWhile_append_stop h.1, List.drop_append, List.drop_of_length_le (by omega)]
  simp [stoull_decText]

/-- An id that was loaded holds neither the colon nor the newline. -/
theorem clean_load (s : SequenceStore) (refused : Option String) : Clean (s.load refused).session := by
  have hcut : ∀ contents : Bytes, Clean ((contents.takeWhile (· ≠ 10)).takeWhile (· ≠ 58)) := by
    intro contents
    constructor
    · intro h
      simpa using List.mem_takeWhile_imp h
    · intro h
      simpa using List.mem_takeWhile_imp ((List.takeWhile_prefix _).subset h)
  unfold load
  split
  · exact ⟨List.not_mem_nil, List.not_mem_nil⟩
  · exact ⟨List.not_mem_nil, List.not_mem_nil⟩
  · dsimp only
    split
    · exact ⟨List.not_mem_nil, List.not_mem_nil⟩
    · split
      · exact hcut _
      · exact hcut _

/-- Exactly the clean cursors read back as they were written. -/
theorem load_line_iff {s : SequenceStore} {session : Bytes} {seq : UInt64} (hfile : s.file = some (line session seq)) :
    s.load none = ⟨.ok (), session, seq⟩ ↔ Clean session := by
  constructor
  · intro h
    have hclean := s.clean_load none
    rwa [h] at hclean
  · exact load_line hfile

/-- A save that returns ok has written its line. -/
theorem file_save {s : SequenceStore} {disk : Disk} {session : Bytes} {seq : UInt64}
    (h : (s.save disk session seq).1 = .ok ()) : (s.save disk session seq).2.file = some (line session seq) := by
  obtain ⟨outcome, now, savedAt⟩ := disk
  cases outcome with
  | openFails errno => cases h
  | writeFails => cases h
  | renameFails message => cases h
  | ok => rfl

/-- The line holds the session id as it is. What was saved is loaded exactly if
the id has no byte that ends it. -/
theorem round_trip_iff (s : SequenceStore) (disk : Disk) (session : Bytes) (seq : UInt64)
    (h : (s.save disk session seq).1 = .ok ()) :
    (s.save disk session seq).2.load none = ⟨.ok (), session, seq⟩ ↔ Clean session :=
  load_line_iff (file_save h)

theorem round_trip_iff_demo :
    (({ path := "cursor" } : SequenceStore).save ⟨.ok, 0, 0⟩ (ascii "OUCH000001") 42).2.load none =
        ⟨.ok (), ascii "OUCH000001", 42⟩ ↔ Clean (ascii "OUCH000001") :=
  round_trip_iff { path := "cursor" } ⟨.ok, 0, 0⟩ (ascii "OUCH000001") 42 rfl

/-- Ten bytes with a colon among them: another id and another number are loaded. -/
theorem round_trip_colon : ¬ ∀ (s : SequenceStore) (disk : Disk) (session : Bytes) (seq : UInt64), session.length = 10 →
    (s.save disk session seq).1 = .ok () → (s.save disk session seq).2.load none = ⟨.ok (), session, seq⟩ := by
  intro h
  have hload := h { path := "cursor" } ⟨.ok, 0, 0⟩ (ascii "OUCH:00001") 42 rfl rfl
  revert hload
  decide

end SequenceStore

end BistColo.Observability
