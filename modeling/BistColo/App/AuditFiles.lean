import BistColo.App.OuchDecode
import BistColo.Observability.AuditWorker
import Mathlib.Data.List.Forall2
/-!
# From `record` to `ouch_decode`

`ouch_decode` says that every entry of the audit log can be replayed through it.
The way there is the ring, the worker, which closes a file and opens another
while records wait, the line format and the hex dump. `files_decode` follows
the spans that `record` is called with through all of it, in every interleaving
of the two threads.
-/

open StreamKit

namespace BistColo.App

open Ouch Observability Observability.AuditThreads OuchDecode

/-! ## Reading a file -/

/-- `hex_to_bytes` on the dump of each line of a file. -/
def decodeFile (file : Bytes) : Option (List Bytes) :=
  (readText readLine file).bind fun es => es.mapM fun e => (hexToBytes e.hex).toOption

/-- The record has what a line needs of the span it was made of. -/
structure MadeOf (r : AuditRecord) (span : Bytes) : Prop where
  clean : r.Clean
  type : r.type = span.headD 0
  hex : r.hex = hexDump span

theorem madeOf_ofSpan (wallNs : UInt64) (dir : AuditDirection) {channel : Bytes} (h : ∀ b ∈ channel, Solid b) (seq : UInt64)
    (bytes : Bytes) : MadeOf (.ofSpan wallNs dir channel seq bytes) bytes :=
  ⟨AuditRecord.clean_ofSpan wallNs dir h seq bytes, rfl, rfl⟩

theorem MadeOf.type_iff {r : AuditRecord} {span : Bytes} (h : MadeOf r span) : r.type = 10 ↔ span.head? = some 10 := by
  rw [h.type]
  cases span with
  | nil => simp
  | cons b span => simp

theorem hex_madeOf {rs : List AuditRecord} {spans : List Bytes} (h : List.Forall₂ MadeOf rs spans) :
    rs.map AuditRecord.hex = spans.map hexDump := by
  induction h with
  | nil => rfl
  | cons hr hrest ih => rw [List.map_cons, List.map_cons, hr.hex, ih]

/-- A line is decoded to its span, unless the span begins with a newline. -/
theorem decodeFile_line {r : AuditRecord} {span : Bytes} (h : MadeOf r span) (xs : Bytes) :
    decodeFile (r.line ++ xs) = if span.head? = some 10 then none else (decodeFile xs).map (span :: ·) := by
  unfold decodeFile
  rw [AuditRecord.readText_line h.clean]
  by_cases hnl : span.head? = some 10
  · rw [if_pos (h.type_iff.2 hnl), if_pos hnl]
    rfl
  · rw [if_neg (mt h.type_iff.1 hnl), if_neg hnl]
    have hhex : (hexToBytes r.entry.hex).toOption = some span := by
      rw [show r.entry.hex = hexDump span from h.hex, hexToBytes_hexDump]
      rfl
    cases readText readLine xs with
    | none => rfl
    | some es =>
      rw [Option.map_some, Option.bind_some, Option.bind_some, List.mapM_cons, hhex]
      cases es.mapM fun e => (hexToBytes e.hex).toOption <;> rfl

/-! ## The files of the days -/

/-- The text that was written to the file of a day. -/
def fileOf (date : Bytes) (lines : List (Bytes × Bytes)) : Bytes :=
  (lines.filter fun l => l.1 = date).flatMap Prod.snd

/-- Of the spans of some lines, those whose lines are in the file of a day. -/
def spansOf (date : Bytes) (lines : List (Bytes × Bytes)) (spans : List Bytes) : List Bytes :=
  ((lines.zip spans).filter fun p => p.1.1 = date).map Prod.snd

/-- Each file is decoded to its spans exactly when none of them begins with a newline. -/
theorem decodeFile_fileOf (date : Bytes) {lines : List (Bytes × Bytes)} {rs : List AuditRecord} {spans : List Bytes}
    (hmade : List.Forall₂ MadeOf rs spans) (hlines : lines.map Prod.snd <+: rs.map AuditRecord.line) :
    decodeFile (fileOf date lines) = some (spansOf date lines spans) ↔
      ∀ span ∈ spansOf date lines spans, span.head? ≠ some 10 := by
  induction lines generalizing rs spans with
  | nil => exact ⟨fun _ => nofun, fun _ => rfl⟩
  | cons l lines ih =>
    cases hmade with
    | nil => exact absurd hlines (by simp)
    | cons hr hrest =>
      rw [List.map_cons, List.map_cons, List.cons_prefix_cons] at hlines
      obtain ⟨hline, hlines⟩ := hlines
      have hih := ih hrest hlines
      by_cases hdate : l.1 = date
      · -- the line is in this file
        simp only [fileOf, spansOf, List.zip_cons_cons, hdate, decide_true, List.filter_cons_of_pos, List.flatMap_cons,
          List.map_cons, List.forall_mem_cons] at hih ⊢
        rw [hline, decodeFile_line hr, ← hih]
        split
        · rename_i hnl
          simp [hnl]
        · rename_i hnl
          simp [hnl]
      · simp only [fileOf, spansOf, List.zip_cons_cons, hdate, decide_false, Bool.false_eq_true, not_false_eq_true,
          List.filter_cons_of_neg] at hih ⊢
        exact hih

/-! ## The spans on their way -/

/-- The columns of the line are kept apart. -/
def Named : Act → Prop
  | .record _ _ channel _ _ => ∀ b ∈ channel, Solid b
  | _ => True

def handedBy : Act → List Bytes
  | .record _ _ _ _ bytes => [bytes]
  | _ => []

/-- The spans that `record` is called with. -/
def handed (as : List Act) : List Bytes := as.flatMap handedBy

/-- The records that were accepted, and the one that is being pushed, are those
of some of the spans, in order. -/
def Traced (s : AuditThreads) (spans : List Bytes) : Prop :=
  ∃ kept last, List.Forall₂ MadeOf s.accepted kept ∧ List.Forall₂ MadeOf s.pushing last ∧ (kept ++ last).Sublist spans

theorem traced_started (today : Bytes) (storage : Nat → AuditRecord) : Traced (started today storage) [] :=
  ⟨[], [], .nil, .nil, .slnil⟩

theorem Traced.same {s s' : AuditThreads} {spans : List Bytes} (h : Traced s spans) (hcalls : s'.calls = s.calls)
    (hpushing : s'.handoff.pushing = s.handoff.pushing) : Traced s' spans := by
  unfold Traced AuditThreads.accepted AuditThreads.pushing
  rw [hcalls, hpushing]
  exact h

theorem Traced.mono {s : AuditThreads} {spans : List Bytes} (h : Traced s spans) (more : List Bytes) :
    Traced s (spans ++ more) := by
  obtain ⟨kept, last, hkept, hlast, hsub⟩ := h
  exact ⟨kept, last, hkept, hlast, hsub.trans (List.sublist_append_left ..)⟩

theorem Traced.record {s : AuditThreads} {spans : List Bytes} (h : Traced s spans) (hs : s.Sound) (wallNs : UInt64)
    (dir : AuditDirection) {channel : Bytes} (hchannel : ∀ b ∈ channel, Solid b) (seq : UInt64) (bytes : Bytes) :
    Traced (s.record wallNs dir channel seq bytes) (spans ++ [bytes]) := by
  unfold AuditThreads.record
  split
  · rename_i hfree
    have hidle : s.handoff.pushing = .idle := by
      apply hs.pushing
      rw [hfree]
      nofun
    obtain ⟨kept, last, hkept, -, hsub⟩ := h
    refine ⟨kept, [bytes], hkept, ?_, ?_⟩
    · rw [AuditThreads.pushing, Handoff.push, hidle]
      exact .cons (madeOf_ofSpan wallNs dir hchannel seq bytes) .nil
    · exact ((List.sublist_append_left kept last).trans hsub).append (List.Sublist.refl _)
  · exact h.mono [bytes]

/-- Before a call of `try_push` returns, the value is the same. -/
theorem pushing_producer {s : AuditThreads} (hnone : s.handoff.producer.1 = none) :
    AuditThreads.pushing { s with handoff := s.handoff.producer.2 } = s.pushing := by
  unfold Handoff.producer at hnone ⊢
  unfold AuditThreads.pushing
  cases hp : s.handoff.pushing with
  | idle => simp [hp]
  | loaded v head =>
    dsimp only
    simp only [hp] at hnone
    by_cases hfull : SpscRing.capacity ringBits < head + 1 - s.handoff.ring.tail
    · rw [if_pos hfull] at hnone
      cases hnone
    · rw [if_neg hfull]
  | roomy v head => rfl
  | stored v head =>
    rw [hp] at hnone
    cases hnone

theorem Traced.hot {s : AuditThreads} {spans : List Bytes} (h : Traced s spans) : Traced s.hotStep spans := by
  unfold hotStep
  split
  · obtain ⟨kept, last, hkept, hlast, hsub⟩ := h
    obtain ⟨-, -, hcases⟩ := s.handoff.producer_cases
    dsimp only
    rcases hcases with ⟨hret, -⟩ | ⟨hret, -, hidle⟩ | ⟨v, head, hv, hret, -, hidle⟩
    · rw [hret]
      refine ⟨kept, last, hkept, ?_, hsub⟩
      rw [pushing_producer hret]
      exact hlast
    · -- the span of a refused call goes
      rw [hret]
      refine ⟨kept, [], ?_, ?_, ?_⟩
      · have hsame : ((s.calls ++ s.pushing.map fun r => (r, false)).filter Prod.snd) = s.calls.filter Prod.snd := by
          simp
        rw [AuditThreads.accepted, hsame]
        exact hkept
      · rw [AuditThreads.pushing, hidle]
        exact .nil
      · rw [List.append_nil]
        exact (List.sublist_append_left kept last).trans hsub
    · rw [hret]
      have hone : s.pushing = [v] := by rw [AuditThreads.pushing, hv]
      refine ⟨kept ++ last, [], ?_, ?_, ?_⟩
      · change List.Forall₂ MadeOf (((s.calls ++ s.pushing.map fun r => (r, true)).filter Prod.snd).map Prod.fst) _
        rw [hone] at hlast ⊢
        rw [List.map_singleton, accepted_append]
        exact List.rel_append hkept hlast
      · rw [AuditThreads.pushing, hidle]
        exact .nil
      · rw [List.append_nil]
        exact hsub
  · split
    · exact h.same rfl rfl
    · exact h
  all_goals exact h

theorem Traced.worker (left : AuditRecord → AuditRecord) {s : AuditThreads} {spans : List Bytes} (h : Traced s spans)
    (d : Day) : Traced (s.workerStep left d) spans := by
  have hpop : ∀ nothing something, Traced (s.tryPop left nothing something) spans := by
    intro nothing something
    obtain ⟨hpushing, -⟩ := s.handoff.consumer_cases left
    unfold tryPop
    dsimp only
    split <;> exact h.same rfl hpushing
  have hwrite : ∀ r next, Traced { s.writeOne r with worker := next } spans := by
    intro r next
    unfold writeOne
    split <;> exact h.same rfl rfl
  unfold workerStep
  cases s.worker with
  | testing | sleeping | reopening => exact h.same rfl rfl
  | draining drained => exact hpop _ _
  | finishing => exact hpop _ _
  | writing r => exact hwrite r _
  | writingLast r => exact hwrite r _
  | rotating =>
    dsimp only
    split <;> exact h.same rfl rfl
  | finished => exact h

theorem Traced.step (left : AuditRecord → AuditRecord) {s : AuditThreads} {spans : List Bytes} (h : Traced s spans)
    (hs : s.Sound) {a : Act} (ha : Named a) : Traced (s.step left a) (spans ++ handedBy a) := by
  cases a with
  | record wallNs dir channel seq bytes => exact h.record hs wallNs dir ha seq bytes
  | stop =>
    have hstop : Traced s.stop spans := by
      unfold AuditThreads.stop
      split
      · split <;> exact h.same rfl rfl
      · exact h
    exact hstop.mono []
  | hot => exact h.hot.mono []
  | worker d => exact (h.worker left d).mono []

theorem traced_run (left : AuditRecord → AuditRecord) {s : AuditThreads} {spans : List Bytes} (h : Traced s spans)
    (hs : s.Sound) {as : List Act} (has : ∀ a ∈ as, Opens a ∧ Named a) :
    Traced (run (step left) s as) (spans ++ handed as) := by
  induction as generalizing s spans with
  | nil =>
    rw [handed, List.flatMap_nil, List.append_nil]
    exact h
  | cons a as ih =>
    rw [List.forall_mem_cons] at has
    obtain ⟨⟨hopens, hnamed⟩, has⟩ := has
    have hrest := ih (h.step left hs hnamed) (hs.step left hopens) has
    rw [List.append_assoc] at hrest
    exact hrest

/-! ## The whole way -/

/-- The lines are those of the first records that were accepted, and of all when `stop` has returned. -/
theorem Sound.lines_accepted {s : AuditThreads} (h : s.Sound) :
    s.lines.map Prod.snd <+: s.accepted.map AuditRecord.line ∧
      (s.hot = .stopped → s.lines.length = s.accepted.length) := by
  have hwritten := h.written
  constructor
  · rw [h.accepted]
    refine List.IsPrefix.trans ?_ (h.ring.order.map _)
    rw [← hwritten]
    exact List.prefix_append ..
  · intro hstop
    have hfin := h.stopped hstop
    rw [hfin, h.finished hfin, ← h.accepted] at hwritten
    have hlen := congrArg List.length hwritten
    simpa [AuditThreads.written, Observability.Worker.inHand] using hlen

/-- The records that `record` accepts are those of some of its spans, in order,
and each day's file is decoded to the spans of its lines exactly when none of
them begins with a newline. When `stop` has returned every accepted span has its line. -/
theorem files_decode (left : AuditRecord → AuditRecord) (today : Bytes) (storage : Nat → AuditRecord) (as : List Act)
    (has : ∀ a ∈ as, Opens a ∧ Named a) :
    let s := run (step left) (started today storage) as
    ∃ spans, spans.Sublist (handed as) ∧ s.accepted.map AuditRecord.hex = spans.map hexDump ∧
      (s.hot = .stopped → s.lines.length = spans.length) ∧
      ∀ date, decodeFile (fileOf date s.lines) = some (spansOf date s.lines spans) ↔
        ∀ span ∈ spansOf date s.lines spans, span.head? ≠ some 10 := by
  have hs := sound_run left (sound_started today storage) fun a ha => (has a ha).1
  obtain ⟨kept, last, hkept, -, hsub⟩ := traced_run left (traced_started today storage) (sound_started today storage) has
  obtain ⟨hlines, hall⟩ := Sound.lines_accepted hs
  refine ⟨kept, (List.sublist_append_left kept last).trans hsub, ?_, ?_, ?_⟩
  · exact hex_madeOf hkept
  · intro hstop
    rw [hall hstop, hkept.length_eq]
  · intro date
    exact decodeFile_fileOf date hkept hlines

theorem opens_named_lateStop : ∀ a ∈ lateStop, Opens a ∧ Named a := by
  unfold lateStop
  have hchannel : ∀ b ∈ ascii "OUCH-OE", Solid b := solid_of_all (by decide)
  simpa [Opens, Named] using hchannel

theorem files_decode_lateStop :
    let s := run (step id) (started (ascii "2026-05-05") fun _ => .ofSpan 0 .sent [] 0 []) lateStop
    ∃ spans, spans.Sublist (handed lateStop) ∧ s.accepted.map AuditRecord.hex = spans.map hexDump ∧
      (s.hot = .stopped → s.lines.length = spans.length) ∧
      ∀ date, decodeFile (fileOf date s.lines) = some (spansOf date s.lines spans) ↔
        ∀ span ∈ spansOf date s.lines spans, span.head? ≠ some 10 :=
  files_decode id (ascii "2026-05-05") (fun _ => .ofSpan 0 .sent [] 0 []) lateStop opens_named_lateStop

end BistColo.App
