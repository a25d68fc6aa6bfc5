import BistColo.Core.RingBuffer
import BistColo.Observability.AuditLog
/-!
# The audit log and its two threads

`start`, `stop`, `record`, `run` and `maybe_rotate` of `observability/audit.hpp`,
one step of a thread at a time: a load, a slot or a store of the ring, a load of
`running_`, a line, the closing of a file and the opening of the next. `record`
and `stop` belong to the hot thread, `run` to the worker. `accepted_written`
says that what `record` accepted is written once and in order, and all of it
when `stop` returns. `log_step` makes the queue of `AuditLog` an abstraction of
the ring.
-/

open StreamKit

namespace BistColo.Observability

/-- Where the hot thread is. -/
inductive Hot
  | free | recording
  /-- in `stop`, at the `join` -/
  | joining
  | stopped
deriving DecidableEq

/-- Where the worker is in `run`. -/
inductive Worker
  /-- at the load of `running_` -/
  | testing
  /-- in the inner loop, in `try_pop` -/
  | draining (drained : Bool)
  | writing (r : AuditRecord)
  | sleeping
  | rotating
  /-- in `open_for_today`, the old file closed -/
  | reopening
  /-- in the loop behind the outer one, in `try_pop` -/
  | finishing
  | writingLast (r : AuditRecord)
  | finished
deriving DecidableEq

/-- What the worker meets when it rotates: the dates of the two readings of the
clock, and whether the file can be opened. -/
structure Day where
  date : Bytes
  reopened : Bytes
  opened : Bool
deriving DecidableEq

theorem ringBits_lt : 14 < 64 := by decide

/-- `SpscRing<AuditRecord, 1u<<14>` -/
abbrev ringBits : Fin 64 := ⟨14, ringBits_lt⟩

structure AuditThreads where
  handoff : Handoff AuditRecord ringBits
  running : Bool := true
  hot : Hot := .free
  worker : Worker := .testing
  isOpen : Bool := true
  today : Bytes
  /-- what was written, each text with the date of its file -/
  lines : List (Bytes × Bytes) := []
  /-- the calls of `record` that have returned -/
  calls : List (AuditRecord × Bool) := []

namespace AuditThreads

/-- An audit log as `start` leaves it. -/
def started (today : Bytes) (storage : Nat → AuditRecord) : AuditThreads :=
  { handoff := { ring := { storage } }, today }

/-! ## The hot thread -/

/-- The start of a call of `record`, up to its `try_push`. -/
def record (s : AuditThreads) (wallNs : UInt64) (dir : AuditDirection) (channel : Bytes) (seq : UInt64) (bytes : Bytes) :
    AuditThreads :=
  if s.hot = .free then
    { s with handoff := s.handoff.push (.ofSpan wallNs dir channel seq bytes), hot := .recording }
  else s

/-- The start of a call of `stop`, up to its `join`. -/
def stop (s : AuditThreads) : AuditThreads :=
  if s.hot = .free then
    if s.running = false then { s with hot := .stopped } else { s with running := false, hot := .joining }
  else s

/-- The value that is being pushed. -/
def pushing (s : AuditThreads) : List AuditRecord :=
  match s.handoff.pushing with
  | .idle => []
  | .loaded v _ | .roomy v _ | .stored v _ => [v]

def hotStep (s : AuditThreads) : AuditThreads :=
  match s.hot with
  | .recording =>
    let p := s.handoff.producer
    match p.1 with
    | none => { s with handoff := p.2 }
    | some accepted =>
      { s with handoff := p.2, hot := .free, calls := s.calls ++ s.pushing.map fun r => (r, accepted) }
  | .joining => if s.worker = .finished then { s with isOpen := false, hot := .stopped } else s
  | .free | .stopped => s

/-! ## The worker -/

/-- `write_one` -/
def writeOne (s : AuditThreads) (r : AuditRecord) : AuditThreads :=
  if s.isOpen = false then s else { s with lines := s.lines ++ [(s.today, r.line)] }

/-- A step of `try_pop`, and where the worker goes when the call returns. -/
def tryPop (left : AuditRecord → AuditRecord) (s : AuditThreads) (nothing : Worker) (something : AuditRecord → Worker) :
    AuditThreads :=
  let p := s.handoff.consumer left
  match p.1 with
  | none => { s with handoff := p.2 }
  | some none => { s with handoff := p.2, worker := nothing }
  | some (some r) => { s with handoff := p.2, worker := something r }

def workerStep (left : AuditRecord → AuditRecord) (s : AuditThreads) (d : Day) : AuditThreads :=
  match s.worker with
  | .testing => { s with worker := if s.running then .draining false else .finishing }
  | .draining drained => s.tryPop left (if drained then .rotating else .sleeping) .writing
  | .writing r => { s.writeOne r with worker := .draining true }
  | .sleeping => { s with worker := .rotating }
  | .rotating =>
    if s.today ≠ d.date then { s with isOpen := false, worker := .reopening } else { s with worker := .testing }
  | .reopening => { s with today := d.reopened, isOpen := d.opened, worker := .testing }
  | .finishing => s.tryPop left .finished .writingLast
  | .writingLast r => { s.writeOne r with worker := .finishing }
  | .finished => s

/-! ## Runs -/

inductive Act
  | record (wallNs : UInt64) (dir : AuditDirection) (channel : Bytes) (seq : UInt64) (bytes : Bytes)
  | stop
  | hot
  | worker (d : Day)

def step (left : AuditRecord → AuditRecord) (s : AuditThreads) : Act → AuditThreads
  | .record wallNs dir channel seq bytes => s.record wallNs dir channel seq bytes
  | .stop => s.stop
  | .hot => s.hotStep
  | .worker d => s.workerStep left d

/-- A file that is to be opened is opened. -/
def Opens : Act → Prop
  | .worker d => d.opened = true
  | _ => True

/-- The records for which `record` has returned true. -/
def accepted (s : AuditThreads) : List AuditRecord := (s.calls.filter Prod.snd).map Prod.fst

/-- The text of what was written. -/
def written (s : AuditThreads) : List Bytes := s.lines.map Prod.snd

/-! ## The invariant -/

end AuditThreads

namespace Worker

/-- The record that the worker has popped and still has to write. -/
def inHand : Worker → List AuditRecord
  | .writing r | .writingLast r => [r]
  | _ => []

/-- It has left its loop. -/
def Leaving : Worker → Prop
  | .finishing | .writingLast _ | .finished => True
  | _ => False

end Worker

namespace AuditThreads

structure Sound (s : AuditThreads) : Prop where
  ring : s.handoff.Sound
  accepted : s.accepted = s.handoff.pushed
  written : s.written ++ s.worker.inHand.map AuditRecord.line = s.handoff.popped.map AuditRecord.line
  isOpen : s.worker ≠ .reopening → s.worker ≠ .finished → s.isOpen = true
  pushing : s.hot ≠ .recording → s.handoff.pushing = .idle
  running : s.running = false → s.hot = .joining ∨ s.hot = .stopped
  leaving : s.worker.Leaving → s.running = false
  finished : s.worker = .finished → s.handoff.popped = s.handoff.pushed
  stopped : s.hot = .stopped → s.worker = .finished

theorem no_room_needed : (0 : UInt64) - 0 ≤ SpscRing.capacity ringBits := by decide

theorem sound_started (today : Bytes) (storage : Nat → AuditRecord) : (started today storage).Sound where
  ring := Handoff.Initial.sound ⟨rfl, rfl, no_room_needed, by rw [SpscRing.contents, started, ahead_self]; rfl, rfl⟩
  accepted := rfl
  written := rfl
  isOpen _ _ := rfl
  pushing _ := rfl
  running := nofun
  leaving := nofun
  finished := nofun
  stopped := nofun

/-! ## One step -/

/-- The flag is set until `stop` has cleared it. -/
theorem Sound.runs {s : AuditThreads} (h : s.Sound) (hjoin : s.hot ≠ .joining) (hstop : s.hot ≠ .stopped) :
    s.running ≠ false := by
  intro hoff
  exact (h.running hoff).elim hjoin hstop

theorem Sound.record {s : AuditThreads} (h : s.Sound) (wallNs : UInt64) (dir : AuditDirection) (channel : Bytes)
    (seq : UInt64) (bytes : Bytes) : (s.record wallNs dir channel seq bytes).Sound := by
  unfold AuditThreads.record
  split
  · rename_i hfree
    obtain ⟨hpushed, hpopped⟩ := s.handoff.push_history (.ofSpan wallNs dir channel seq bytes)
    have hgoes : s.running ≠ false := by
      apply h.runs
      all_goals
        rw [hfree]
        nofun
    refine ⟨h.ring.push _, ?_, ?_, h.isOpen, fun hno => absurd rfl hno, fun hoff => absurd hoff hgoes, h.leaving, ?_, nofun⟩
    · exact h.accepted.trans hpushed.symm
    · exact h.written.trans (by rw [hpopped])
    · intro hfin
      exact (hpopped.trans (h.finished hfin)).trans hpushed.symm
  · exact h

theorem Sound.stop {s : AuditThreads} (h : s.Sound) : s.stop.Sound := by
  unfold AuditThreads.stop
  split
  · rename_i hfree
    have hidle : s.handoff.pushing = .idle := by
      apply h.pushing
      rw [hfree]
      nofun
    split
    · rename_i hoff
      refine absurd hoff (h.runs ?_ ?_)
      all_goals
        rw [hfree]
        nofun
    · exact ⟨h.ring, h.accepted, h.written, h.isOpen, fun _ => hidle, fun _ => .inl rfl, fun _ => rfl, h.finished, nofun⟩
  · exact h

/-- While `record` is running the worker stays in its loop. -/
theorem Sound.recording {s : AuditThreads} (h : s.Sound) (hrec : s.hot = .recording) :
    s.running ≠ false ∧ s.worker ≠ .finished := by
  have hruns : s.running ≠ false := by
    apply h.runs
    all_goals
      rw [hrec]
      nofun
  refine ⟨hruns, ?_⟩
  intro hfin
  apply hruns
  apply h.leaving
  rw [hfin]
  trivial

theorem accepted_append (calls : List (AuditRecord × Bool)) (r : AuditRecord) (ok : Bool) :
    ((calls ++ [(r, ok)]).filter Prod.snd).map Prod.fst =
      (calls.filter Prod.snd).map Prod.fst ++ if ok then [r] else [] := by
  cases ok <;> simp

theorem Sound.hot {s : AuditThreads} (h : s.Sound) : s.hotStep.Sound := by
  unfold hotStep
  split
  · rename_i hrec
    have hring := h.ring.producer
    obtain ⟨-, hpopped, hcases⟩ := s.handoff.producer_cases
    obtain ⟨hrunning, hfin⟩ := h.recording hrec
    dsimp only
    rcases hcases with ⟨hret, hpushed⟩ | ⟨hret, hpushed, hidle⟩ | ⟨v, head, hv, hret, hpushed, hidle⟩
    · rw [hret]
      exact ⟨hring, h.accepted.trans hpushed.symm, h.written.trans (by rw [hpopped]), h.isOpen,
        fun hno => absurd hrec hno, fun hoff => absurd hoff hrunning, h.leaving, fun hf => absurd hf hfin,
        fun hstop => by cases hrec.symm.trans hstop⟩
    · rw [hret]
      refine ⟨hring, ?_, h.written.trans (by rw [hpopped]), h.isOpen, fun _ => hidle, fun hoff => absurd hoff hrunning,
        h.leaving, fun hf => absurd hf hfin, nofun⟩
      -- a refused call adds nothing
      have hsame : ((s.calls ++ s.pushing.map fun r => (r, false)).filter Prod.snd) = s.calls.filter Prod.snd := by
        simp
      rw [AuditThreads.accepted, hsame, hpushed]
      exact h.accepted
    · rw [hret]
      refine ⟨hring, ?_, h.written.trans (by rw [hpopped]), h.isOpen, fun _ => hidle, fun hoff => absurd hoff hrunning,
        h.leaving, fun hf => absurd hf hfin, nofun⟩
      have hone : s.pushing = [v] := by rw [AuditThreads.pushing, hv]
      change ((s.calls ++ s.pushing.map fun r => (r, true)).filter Prod.snd).map Prod.fst = s.handoff.producer.2.pushed
      rw [hone, List.map_singleton, accepted_append, hpushed, ← h.accepted]
      rfl
  · split
    · rename_i hjoin hfin
      have hidle : s.handoff.pushing = .idle := by
        apply h.pushing
        rw [hjoin]
        nofun
      exact ⟨h.ring, h.accepted, h.written, fun _ hno => absurd hfin hno, fun _ => hidle, fun _ => .inr rfl, h.leaving,
        h.finished, fun _ => hfin⟩
    · exact h
  all_goals exact h

/-- A worker that is in `try_pop`, between the places `nothing` and `something`
where it can go next. -/
theorem Sound.tryPop (left : AuditRecord → AuditRecord) {s : AuditThreads} (h : s.Sound) {nothing : Worker}
    {something : AuditRecord → Worker} (hopen : s.isOpen = true) (hin : s.worker.inHand = [])
    (hnothing : nothing.inHand = []) (hsomething : ∀ r, (something r).inHand = [r])
    (hleaves : nothing.Leaving → s.worker.Leaving) (hleaves' : ∀ r, (something r).Leaving → s.worker.Leaving)
    (hnot : s.worker ≠ .finished) : (s.tryPop left nothing something).Sound := by
  have hring := h.ring.consumer left
  obtain ⟨hpushing, hpushed, hcases⟩ := s.handoff.consumer_cases left
  have hidle (hno : s.hot ≠ .recording) : (s.handoff.consumer left).2.pushing = .idle := hpushing.trans (h.pushing hno)
  have hacc : s.accepted = (s.handoff.consumer left).2.pushed := h.accepted.trans hpushed.symm
  have hgoes (hstop : s.hot = .stopped) : False := hnot (h.stopped hstop)
  have hwritten := h.written
  rw [hin, List.map_nil, List.append_nil] at hwritten
  unfold AuditThreads.tryPop
  dsimp only
  rcases hcases with ⟨hret, hpopped⟩ | ⟨hret, hpopped, hsame, hloaded⟩ | ⟨v, hret, hpopped⟩
  · rw [hret]
    exact ⟨hring, hacc, h.written.trans (by rw [hpopped]), h.isOpen, hidle, h.running, h.leaving,
      fun hf => absurd hf hnot, h.stopped⟩
  · rw [hret]
    refine ⟨hring, hacc, ?_, fun _ _ => hopen, hidle, h.running, fun hl => h.leaving (hleaves hl), ?_,
      fun hstop => (hgoes hstop).elim⟩
    · dsimp only
      rw [hnothing, List.map_nil, List.append_nil, hpopped]
      exact hwritten
    · -- the counters have met
      intro _
      have htail := h.ring.popping
      rw [Handoff.PopSound, hloaded] at htail
      refine hring.popped_all ?_
      rw [Handoff.held, hsame, ahead_eq_zero]
      exact htail
  · rw [hret]
    refine ⟨hring, hacc, ?_, fun _ _ => hopen, hidle, h.running, fun hl => h.leaving (hleaves' v hl), ?_,
      fun hstop => (hgoes hstop).elim⟩
    · dsimp only
      rw [hsomething, hpopped, List.map_append, ← hwritten]
      rfl
    · intro hfin
      have hhand := hsomething v
      rw [show something v = .finished from hfin] at hhand
      cases hhand

/-- A record in hand is written, if the file is open. -/
theorem Sound.writeOne {s : AuditThreads} (h : s.Sound) {r : AuditRecord} {next : Worker} (hin : s.worker.inHand = [r])
    (hnext : next.inHand = []) (hnot : next ≠ .finished) (hleaves : next.Leaving → s.worker.Leaving) :
    Sound { s.writeOne r with worker := next } := by
  have hplace : s.worker ≠ .reopening ∧ s.worker ≠ .finished := by
    constructor
    all_goals
      intro hw
      rw [hw] at hin
      cases hin
  have hopen := h.isOpen hplace.1 hplace.2
  have hwrote : s.writeOne r = { s with lines := s.lines ++ [(s.today, r.line)] } := by
    rw [AuditThreads.writeOne, hopen]
    rfl
  rw [hwrote]
  refine ⟨h.ring, h.accepted, ?_, fun _ _ => hopen, h.pushing, h.running, fun hl => h.leaving (hleaves hl),
    fun hf => absurd hf hnot, fun hstop => absurd (h.stopped hstop) hplace.2⟩
  have hwritten := h.written
  rw [hin] at hwritten
  rw [← hwritten, hnext, List.map_nil, List.append_nil]
  exact List.map_append ..

/-- With nothing in hand the worker goes on to the next place. -/
theorem Sound.goes {s : AuditThreads} (h : s.Sound) {next : Worker} {isOpen : Bool} {today : Bytes}
    (hin : s.worker.inHand = []) (hnot : s.worker ≠ .finished) (hnext : next.inHand = []) (hnext' : next ≠ .finished)
    (hopen : next ≠ .reopening → isOpen = true) (hleaves : next.Leaving → s.running = false) :
    Sound { s with worker := next, isOpen, today } where
  ring := h.ring
  accepted := h.accepted
  written := by
    have hwritten := h.written
    rw [hin] at hwritten
    rw [hnext]
    exact hwritten
  isOpen hno _ := hopen hno
  pushing := h.pushing
  running := h.running
  leaving := hleaves
  finished hf := absurd hf hnext'
  stopped hstop := absurd (h.stopped hstop) hnot

theorem Sound.worker (left : AuditRecord → AuditRecord) {s : AuditThreads} (h : s.Sound) {d : Day}
    (hd : d.opened = true) : (s.workerStep left d).Sound := by
  have hin : ∀ w, s.worker = w → s.worker.inHand = w.inHand := fun w hw => by rw [hw]
  have hnot : ∀ w, s.worker = w → w ≠ .finished → s.worker ≠ .finished := fun w hw hne => by rw [hw]; exact hne
  have hopen : ∀ w, s.worker = w → w ≠ .reopening → w ≠ .finished → s.isOpen = true :=
    fun w hw hne hne' => h.isOpen (by rw [hw]; exact hne) (by rw [hw]; exact hne')
  unfold workerStep
  cases hw : s.worker with
  | testing =>
    dsimp only
    split
    · exact h.goes (hin _ hw) (hnot _ hw nofun) rfl nofun (fun _ => hopen _ hw nofun nofun) nofun
    · rename_i hoff
      exact h.goes (hin _ hw) (hnot _ hw nofun) rfl nofun (fun _ => hopen _ hw nofun nofun)
        (fun _ => Bool.eq_false_iff.2 hoff)
  | draining drained =>
    refine h.tryPop left (hopen _ hw nofun nofun) (hin _ hw) ?_ (fun r => rfl) ?_ nofun (hnot _ hw nofun)
    · cases drained <;> rfl
    · cases drained <;> nofun
  | writing r => exact h.writeOne (hin _ hw) rfl nofun nofun
  | sleeping => exact h.goes (hin _ hw) (hnot _ hw nofun) rfl nofun (fun _ => hopen _ hw nofun nofun) nofun
  | rotating =>
    dsimp only
    split
    · exact h.goes (hin _ hw) (hnot _ hw nofun) rfl nofun (fun hno => absurd rfl hno) nofun
    · exact h.goes (hin _ hw) (hnot _ hw nofun) rfl nofun (fun _ => hopen _ hw nofun nofun) nofun
  | reopening => exact h.goes (hin _ hw) (hnot _ hw nofun) rfl nofun (fun _ => hd) nofun
  | finishing =>
    have hleaving : s.worker.Leaving := by rw [hw]; trivial
    exact h.tryPop left (hopen _ hw nofun nofun) (hin _ hw) rfl (fun r => rfl) (fun _ => hleaving) (fun _ _ => hleaving)
      (hnot _ hw nofun)
  | writingLast r =>
    have hleaving : s.worker.Leaving := by rw [hw]; trivial
    exact h.writeOne (hin _ hw) rfl nofun (fun _ => hleaving)
  | finished => exact h

/-! ## Runs -/

theorem Sound.step (left : AuditRecord → AuditRecord) {s : AuditThreads} (h : s.Sound) {a : Act} (ha : Opens a) :
    (s.step left a).Sound := by
  cases a with
  | record wallNs dir channel seq bytes => exact h.record wallNs dir channel seq bytes
  | stop => exact h.stop
  | hot => exact h.hot
  | worker d => exact h.worker left ha

theorem sound_run (left : AuditRecord → AuditRecord) {s : AuditThreads} (h : s.Sound) {as : List Act}
    (has : ∀ a ∈ as, Opens a) : (run (step left) s as).Sound := by
  induction as generalizing s with
  | nil => exact h
  | cons a as ih => exact ih (h.step left (has a List.mem_cons_self)) fun b hb => has b (List.mem_cons_of_mem a hb)

/-! ## The log that the threads make -/

/-- The log with the record in hand written already. -/
def log (s : AuditThreads) : AuditLog where
  queue := s.handoff.pushed.drop s.handoff.popped.length
  isOpen := s.isOpen
  file := (s.written ++ s.worker.inHand.map AuditRecord.line).flatten
  recorded := s.handoff.pushed

theorem Sound.log_eq {s : AuditThreads} (h : s.Sound) :
    s.log = ⟨s.handoff.pushed.drop s.handoff.popped.length, s.isOpen, s.handoff.popped.flatMap AuditRecord.line,
      s.handoff.pushed⟩ := by
  rw [log, h.written, List.flatMap_def]

theorem Sound.log_same {s s' : AuditThreads} (h : s.Sound) (h' : s'.Sound) (hpushed : s'.handoff.pushed = s.handoff.pushed)
    (hpopped : s'.handoff.popped = s.handoff.popped) (hopen : s'.isOpen = s.isOpen) : s'.log = s.log := by
  rw [h'.log_eq, h.log_eq, hpushed, hpopped, hopen]

/-- A record is taken into a queue that has room, or the worker takes a turn and
writes what it pops. -/
def LogStep (a a' : AuditLog) : Prop :=
  a' = a ∨ (∃ r, a.HasRoom ∧ a' = (a.tryPush r).2) ∨ ∃ t, a.Writes t ∧ a' = a.turn t

theorem Sound.log_rotate {s s' : AuditThreads} (h : s.Sound) (h' : s'.Sound)
    (hpushed : s'.handoff.pushed = s.handoff.pushed) (hpopped : s'.handoff.popped = s.handoff.popped) :
    LogStep s.log s'.log := by
  refine .inr (.inr ⟨.rotate s'.isOpen, nofun, ?_⟩)
  rw [h'.log_eq, h.log_eq, hpushed, hpopped]
  rfl

theorem Sound.log_pushed {s s' : AuditThreads} (h : s.Sound) (h' : s'.Sound) {r : AuditRecord}
    (hroom : s.handoff.held < 2 ^ 14) (hpushed : s'.handoff.pushed = s.handoff.pushed ++ [r])
    (hpopped : s'.handoff.popped = s.handoff.popped) (hopen : s'.isOpen = s.isOpen) : LogStep s.log s'.log := by
  have hle : s.handoff.popped.length ≤ s.handoff.pushed.length := h.ring.order.length_le
  have hlen : s.log.queue.length = s.handoff.held := by
    rw [log, List.length_drop, h.ring.length, Nat.add_sub_cancel_left]
  have hhas : s.log.HasRoom := by
    rw [AuditLog.HasRoom, hlen]
    exact hroom
  refine .inr (.inl ⟨r, hhas, ?_⟩)
  rw [AuditLog.tryPush, if_pos hhas, h'.log_eq, h.log_eq, hpushed, hpopped, hopen, List.drop_append_of_le_length hle]

theorem Sound.log_popped {s s' : AuditThreads} (h : s.Sound) (h' : s'.Sound) {r : AuditRecord} (hopen : s.isOpen = true)
    (hpushed : s'.handoff.pushed = s.handoff.pushed) (hpopped : s'.handoff.popped = s.handoff.popped ++ [r])
    (hopen' : s'.isOpen = s.isOpen) : LogStep s.log s'.log := by
  have horder := h'.ring.order
  rw [hpushed, hpopped] at horder
  obtain ⟨rest, hrest⟩ := horder
  refine .inr (.inr ⟨.pop, fun _ _ => hopen, ?_⟩)
  rw [h'.log_eq, h.log_eq, hpushed, hpopped, hopen', ← hrest, hopen, List.append_assoc, List.drop_left,
    ← List.append_assoc, List.drop_left, List.flatMap_append, List.flatMap_singleton]
  rfl

theorem Sound.log_tryPop (left : AuditRecord → AuditRecord) {s : AuditThreads} (h : s.Sound) {nothing : Worker}
    {something : AuditRecord → Worker} (hopen : s.isOpen = true) (h' : (s.tryPop left nothing something).Sound) :
    LogStep s.log (s.tryPop left nothing something).log := by
  obtain ⟨-, hpushed, hcases⟩ := s.handoff.consumer_cases left
  unfold AuditThreads.tryPop at h' ⊢
  dsimp only at h' ⊢
  rcases hcases with ⟨hret, hpopped⟩ | ⟨hret, hpopped, -, -⟩ | ⟨v, hret, hpopped⟩
  · rw [hret] at h' ⊢
    exact .inl (h.log_same h' hpushed hpopped rfl)
  · rw [hret] at h' ⊢
    exact .inl (h.log_same h' hpushed hpopped rfl)
  · rw [hret] at h' ⊢
    exact h.log_popped h' hopen hpushed hpopped rfl

theorem Sound.log_hot {s : AuditThreads} (h : s.Sound) : LogStep s.log s.hotStep.log := by
  have h' := h.hot
  unfold hotStep at h' ⊢
  split at h'
  · obtain ⟨-, hpopped, hcases⟩ := s.handoff.producer_cases
    have hpush := h.ring.pushing
    dsimp only at h' ⊢
    rcases hcases with ⟨hret, hpushed⟩ | ⟨hret, hpushed, -⟩ | ⟨v, head, hv, hret, hpushed, -⟩
    · rw [hret] at h' ⊢
      exact .inl (h.log_same h' hpushed hpopped rfl)
    · rw [hret] at h' ⊢
      exact .inl (h.log_same h' hpushed hpopped rfl)
    · rw [hret] at h' ⊢
      rw [Handoff.PushSound, hv] at hpush
      exact h.log_pushed h' hpush.2.1 hpushed hpopped rfl
  · split
    · rename_i hfin
      rw [if_pos hfin] at h'
      exact h.log_rotate h' rfl rfl
    · exact .inl rfl
  all_goals exact .inl rfl

theorem writeOne_keeps (s : AuditThreads) (r : AuditRecord) :
    (s.writeOne r).handoff = s.handoff ∧ (s.writeOne r).isOpen = s.isOpen := by
  unfold AuditThreads.writeOne
  split <;> exact ⟨rfl, rfl⟩

theorem Sound.log_worker (left : AuditRecord → AuditRecord) {s : AuditThreads} (h : s.Sound) {d : Day}
    (hd : d.opened = true) : LogStep s.log (s.workerStep left d).log := by
  have h' := h.worker left hd
  have hopen : ∀ w, s.worker = w → w ≠ .reopening → w ≠ .finished → s.isOpen = true :=
    fun w hw hne hne' => h.isOpen (by rw [hw]; exact hne) (by rw [hw]; exact hne')
  have hwrote : ∀ r next, Sound { s.writeOne r with worker := next } →
      LogStep s.log (log { s.writeOne r with worker := next }) := by
    intro r next hnext
    obtain ⟨hhandoff, hkept⟩ := s.writeOne_keeps r
    exact .inl (h.log_same hnext (congrArg Handoff.pushed hhandoff) (congrArg Handoff.popped hhandoff) hkept)
  unfold workerStep at h' ⊢
  cases hw : s.worker with
  | testing | sleeping =>
    rw [hw] at h'
    exact .inl (h.log_same h' rfl rfl rfl)
  | draining drained =>
    rw [hw] at h'
    exact h.log_tryPop left (hopen _ hw nofun nofun) h'
  | finishing =>
    rw [hw] at h'
    exact h.log_tryPop left (hopen _ hw nofun nofun) h'
  | writing r | writingLast r =>
    rw [hw] at h'
    exact hwrote r _ h'
  | rotating =>
    rw [hw] at h'
    dsimp only at h' ⊢
    by_cases hdate : s.today ≠ d.date
    · rw [if_pos hdate] at h' ⊢
      exact h.log_rotate h' rfl rfl
    · rw [if_neg hdate] at h' ⊢
      exact .inl (h.log_same h' rfl rfl rfl)
  | reopening =>
    rw [hw] at h'
    exact h.log_rotate h' rfl rfl
  | finished => exact .inl rfl

/-- A step of the threads is a step of the log, or leaves it as it is. -/
theorem log_step (left : AuditRecord → AuditRecord) {s : AuditThreads} (h : s.Sound) {a : Act} (ha : Opens a) :
    LogStep s.log (s.step left a).log := by
  have h' := h.step left ha
  cases a with
  | record wallNs dir channel seq bytes =>
    rw [AuditThreads.step, AuditThreads.record] at h' ⊢
    split
    · rename_i hfree
      rw [if_pos hfree] at h'
      obtain ⟨hpushed, hpopped⟩ := s.handoff.push_history (.ofSpan wallNs dir channel seq bytes)
      exact .inl (h.log_same h' hpushed hpopped rfl)
    · exact .inl rfl
  | stop =>
    rw [AuditThreads.step, AuditThreads.stop]
    split
    · split
      · exact .inl rfl
      · exact .inl rfl
    · exact .inl rfl
  | hot => exact h.log_hot
  | worker d => exact h.log_worker left ha

/-- What is in the files is a prefix of what `record` accepted, in the order of
the calls, and when `stop` has returned it is all of it. -/
theorem accepted_written (left : AuditRecord → AuditRecord) (today : Bytes) (storage : Nat → AuditRecord) (as : List Act)
    (has : ∀ a ∈ as, Opens a) :
    (run (step left) (started today storage) as).written <+:
        (run (step left) (started today storage) as).accepted.map AuditRecord.line ∧
      ((run (step left) (started today storage) as).hot = .stopped →
        (run (step left) (started today storage) as).written =
          (run (step left) (started today storage) as).accepted.map AuditRecord.line) := by
  have h := sound_run left (sound_started today storage) has
  generalize run (step left) (started today storage) as = s at h
  have hwritten := h.written
  constructor
  · rw [h.accepted]
    refine List.IsPrefix.trans ?_ (h.ring.order.map _)
    rw [← hwritten]
    exact List.prefix_append ..
  · intro hstop
    have hfin := h.stopped hstop
    rw [hfin, h.finished hfin, ← h.accepted] at hwritten
    rw [← hwritten]
    exact (List.append_nil _).symm

/-- A record is pushed, `stop` is called before the worker has looked into the
ring, and the date changes meanwhile. -/
def lateStop : List Act :=
  ([.record 0 .sent (ascii "OUCH-OE") 1 [79], .hot, .worker ⟨[], [], true⟩, .hot, .worker ⟨[], [], true⟩,
    .worker ⟨[], [], true⟩, .worker ⟨[], [], true⟩, .hot, .stop, .worker ⟨ascii "2026-05-06", [], true⟩,
    .worker ⟨[], ascii "2026-05-06", true⟩] : List Act) ++ List.replicate 9 (.worker ⟨[], [], true⟩) ++ [.hot]

theorem opens_lateStop : ∀ a ∈ lateStop, Opens a := by
  unfold lateStop
  simp [Opens]

theorem accepted_written_lateStop :
    let s := run (step id) (started (ascii "2026-05-05") fun _ => .ofSpan 0 .sent [] 0 []) lateStop
    s.written <+: s.accepted.map AuditRecord.line ∧
      (s.hot = .stopped → s.written = s.accepted.map AuditRecord.line) :=
  accepted_written id (ascii "2026-05-05") (fun _ => .ofSpan 0 .sent [] 0 []) lateStop opens_lateStop

example : (run (step id) (started (ascii "2026-05-05") fun _ => .ofSpan 0 .sent [] 0 []) lateStop).hot = .stopped := by
  decide +kernel

end AuditThreads

end BistColo.Observability
