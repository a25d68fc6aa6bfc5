import BistColo.Core
import BistColo.StreamKit.Lines
import BistColo.StreamKit.Runs
/-!
# The audit log

`observability/audit.hpp` and `hex_dump` of `ouch/codec.hpp`. A record is
queued by the hot path and written by the worker, one line each. `readLine`
reads the documented line format. What it makes of the records in the file is
`AuditRecord.readText_lines`; a log is `Sound` if all that was queued is in the
file or on its way, one line each, and `Broken` once that is lost for good.
-/

open StreamKit

namespace BistColo

namespace Ouch

def hexDigits : Bytes := ascii "0123456789abcdef"

/-- Two lower case digits for each byte. -/
def hexDump (bytes : Bytes) : Bytes :=
  bytes.flatMap fun b : UInt8 => [hexDigits.getD ((b >>> 4) &&& 15).toNat 0, hexDigits.getD (b &&& 15).toNat 0]

theorem hexDump_cons (b : UInt8) (bytes : Bytes) : hexDump (b :: bytes) =
    hexDigits.getD ((b >>> 4) &&& 15).toNat 0 :: hexDigits.getD (b &&& 15).toNat 0 :: hexDump bytes := rfl

theorem length_hexDump (bytes : Bytes) : (hexDump bytes).length = 2 * bytes.length := by
  induction bytes with
  | nil => rfl
  | cons b bytes ih =>
    rw [hexDump_cons, List.length_cons, List.length_cons, ih, List.length_cons]
    omega

theorem hexDigits_inj {n m : Nat} (hn : n < 16) (hm : m < 16) (h : hexDigits.getD n 0 = hexDigits.getD m 0) : n = m := by
  have hall : ∀ n < 16, ∀ m < 16, hexDigits.getD n 0 = hexDigits.getD m 0 → n = m := by decide
  exact hall n hn m hm h

theorem high_lt (b : UInt8) : ((b >>> 4) &&& 15).toNat < 16 := by
  rw [UInt8.toNat_and]
  exact Nat.lt_succ_of_le Nat.and_le_right

theorem low_lt (b : UInt8) : (b &&& 15).toNat < 16 := by
  rw [UInt8.toNat_and]
  exact Nat.lt_succ_of_le Nat.and_le_right

/-- Its two halves make a byte. -/
theorem halves (b : UInt8) : b.toNat = 16 * ((b >>> 4) &&& 15).toNat + (b &&& 15).toNat := by
  have hb := b.toNat_lt
  have hlow : b.toNat &&& 15 = b.toNat % 16 := Nat.and_two_pow_sub_one_eq_mod b.toNat 4
  have hhigh : b.toNat / 16 &&& 15 = b.toNat / 16 % 16 := Nat.and_two_pow_sub_one_eq_mod (b.toNat / 16) 4
  have hshift : b.toNat >>> 4 = b.toNat / 16 := Nat.shiftRight_eq_div_pow b.toNat 4
  simp only [UInt8.toNat_and, UInt8.toNat_shiftRight, UInt8.reduceToNat, Nat.reduceMod, hshift, hlow, hhigh]
  omega

theorem hexDump_injective : Function.Injective hexDump := by
  intro as
  induction as with
  | nil =>
    intro bs h
    have hlen := congrArg List.length h
    rw [length_hexDump, length_hexDump, List.length_nil] at hlen
    exact (List.eq_nil_of_length_eq_zero (by omega)).symm
  | cons a as ih =>
    intro bs h
    cases bs with
    | nil => cases h
    | cons b bs =>
      rw [hexDump_cons, hexDump_cons, List.cons.injEq, List.cons.injEq] at h
      have hhigh := hexDigits_inj (high_lt a) (high_lt b) h.1
      have hlow := hexDigits_inj (low_lt a) (low_lt b) h.2.1
      have hbyte : a = b := by
        rw [← UInt8.toNat_inj, halves a, halves b, hhigh, hlow]
      rw [hbyte, ih h.2.2]

theorem newline_not_mem_hexDump (bytes : Bytes) : 10 ∉ hexDump bytes := by
  have hall : ∀ n < 16, hexDigits.getD n 0 ≠ 10 := by decide
  rw [hexDump, List.mem_flatMap]
  rintro ⟨b, -, hb⟩
  rw [List.mem_cons, List.mem_singleton] at hb
  rcases hb with hb | hb
  · exact hall _ (high_lt b) hb.symm
  · exact hall _ (low_lt b) hb.symm

end Ouch

namespace Observability

/-! ## Time stamps -/

structure Tm where
  year : Nat
  month : Nat
  day : Nat
  hour : Nat
  min : Nat
  sec : Nat
deriving DecidableEq

/-- The civil date and time `secs` seconds after the epoch. Years are counted
from March, so that the leap day is the last one. -/
def gmtime (secs : Nat) : Tm :=
  let z := secs / 86400 + 719468
  let doe := z % 146097
  let yoe := (doe - doe / 1460 + doe / 36524 - doe / 146096) / 365
  let doy := doe - (365 * yoe + yoe / 4 - yoe / 100)
  let mp := (5 * doy + 2) / 153
  { year := yoe + z / 146097 * 400 + (if mp < 10 then 0 else 1)
    month := if mp < 10 then mp + 3 else mp - 9
    day := doy - (153 * mp + 2) / 5 + 1
    hour := secs % 86400 / 3600
    min := secs % 3600 / 60
    sec := secs % 60 }

def formatIso8601 (ns : UInt64) : Bytes :=
  let secs := ns.toNat / 1000000000
  let frac := ns.toNat % 1000000000
  let tm := gmtime secs
  decText tm.year ++ ascii "-" ++ zeroPad 2 (decText tm.month) ++ ascii "-" ++ zeroPad 2 (decText tm.day) ++ ascii "T" ++
    zeroPad 2 (decText tm.hour) ++ ascii ":" ++ zeroPad 2 (decText tm.min) ++ ascii ":" ++ zeroPad 2 (decText tm.sec) ++
    ascii "." ++ zeroPad 9 (decText frac) ++ ascii "Z"

example : formatIso8601 1777966331123456789 = ascii "2026-05-05T07:32:11.123456789Z" := by decide

/-- A byte that neither ends a line nor belongs between two columns. -/
def Solid (b : UInt8) : Prop := b ≠ 32 ∧ b ≠ 10

instance (b : UInt8) : Decidable (Solid b) := inferInstanceAs (Decidable (_ ∧ _))

theorem solid_of_all {bs : Bytes} (h : bs.all (fun b => decide (Solid b)) = true) : ∀ b ∈ bs, Solid b := by
  intro b hb
  exact of_decide_eq_true (List.all_eq_true.1 h b hb)

theorem solid_digits {ds : Bytes} (h : ∀ b ∈ ds, isDigit b = true) : ∀ b ∈ ds, Solid b := by
  intro b hb
  have hd := h b hb
  constructor
  · rintro rfl
    exact absurd hd (by decide)
  · rintro rfl
    exact absurd hd (by decide)

theorem solid_formatIso8601 (ns : UInt64) : ∀ b ∈ formatIso8601 ns, Solid b := by
  have hdec : ∀ n, ∀ b ∈ decText n, Solid b := fun n => solid_digits (isDigit_decText n)
  have hpad : ∀ w n, ∀ b ∈ zeroPad w (decText n), Solid b := fun w n => solid_digits (isDigit_zeroPad w n)
  unfold formatIso8601
  simp only [List.forall_mem_append, and_assoc]
  refine ⟨hdec _, ?_, hpad _ _, ?_, hpad _ _, ?_, hpad _ _, ?_, hpad _ _, ?_, hpad _ _, ?_, hpad _ _, ?_⟩
  all_goals exact solid_of_all (by decide)

theorem blank_not_mem {bs : Bytes} (h : ∀ b ∈ bs, Solid b) : 32 ∉ bs := fun hb => (h 32 hb).1 rfl

theorem newline_not_mem {bs : Bytes} (h : ∀ b ∈ bs, Solid b) : 10 ∉ bs := fun hb => (h 10 hb).2 rfl

/-! ## Records -/

inductive AuditDirection
  | sent | recv
deriving DecidableEq

structure AuditRecord where
  wallNs : UInt64
  dir : AuditDirection
  channel : Bytes
  seq : UInt64
  type : UInt8
  hex : Bytes
deriving DecidableEq

namespace AuditRecord

/-- The record of a span; its type is the first byte, or NUL if there is none. -/
def ofSpan (wallNs : UInt64) (dir : AuditDirection) (channel : Bytes) (seq : UInt64) (bytes : Bytes) : AuditRecord where
  wallNs := wallNs
  dir := dir
  channel := channel
  seq := seq
  type := bytes.headD 0
  hex := Ouch.hexDump bytes

def dirText (r : AuditRecord) : Bytes :=
  match r.dir with
  | .sent => ascii "SENT"
  | .recv => ascii "RECV"

def seqText (r : AuditRecord) : Bytes := if r.seq ≠ 0 then decText r.seq.toNat else ascii "-"

/-- What `write_one` puts into the file, the type as the byte it is. -/
def line (r : AuditRecord) : Bytes :=
  formatIso8601 r.wallNs ++ ascii "  " ++ r.dirText ++ ascii "  " ++ r.channel ++ ascii "  " ++ r.seqText ++ ascii "  " ++
    [r.type] ++ ascii "  " ++ ascii "hex=" ++ r.hex ++ [10]

/-- Neither the channel nor the hex dump disturbs the columns. -/
structure Clean (r : AuditRecord) : Prop where
  channel : ∀ b ∈ r.channel, Solid b
  hex : 10 ∉ r.hex

theorem clean_ofSpan (wallNs : UInt64) (dir : AuditDirection) {channel : Bytes} (h : ∀ b ∈ channel, Solid b)
    (seq : UInt64) (bytes : Bytes) : (ofSpan wallNs dir channel seq bytes).Clean :=
  ⟨h, Ouch.newline_not_mem_hexDump bytes⟩

end AuditRecord

/-! ## Reading lines -/

/-- What a line says besides the time. -/
structure AuditEntry where
  dir : AuditDirection
  channel : Bytes
  seq : UInt64
  type : UInt8
  hex : Bytes
deriving DecidableEq

def AuditRecord.entry (r : AuditRecord) : AuditEntry := ⟨r.dir, r.channel, r.seq, r.type, r.hex⟩

def readDir (text : Bytes) : Option AuditDirection :=
  if text = ascii "SENT" then some .sent else if text = ascii "RECV" then some .recv else none

def readSeq (text : Bytes) : UInt64 := if text = ascii "-" then 0 else UInt64.ofNat (readDigits 0 text)

/-- The last two columns: the type, which may be any byte, and the hex dump. -/
def readDump : Bytes → Option (UInt8 × Bytes)
  | [] => none
  | type :: rest => if ascii "  hex=" <+: rest then some (type, rest.drop 6) else none

/-- The documented line: time, direction, channel, number, type and hex dump,
with two blanks between them. -/
def readLine (text : Bytes) : Option AuditEntry :=
  let dir := column (column text).2
  let channel := column dir.2
  let seq := column channel.2
  (readDir dir.1).bind fun d => (readDump seq.2).map fun dump => ⟨d, channel.1, readSeq seq.1, dump.1, dump.2⟩

theorem readLine_append {time dir channel seq : Bytes} (ht : 32 ∉ time) (hd : 32 ∉ dir) (hc : 32 ∉ channel)
    (hs : 32 ∉ seq) (t : Bytes) :
    readLine (time ++ 32 :: 32 :: (dir ++ 32 :: 32 :: (channel ++ 32 :: 32 :: (seq ++ 32 :: 32 :: t)))) =
      (readDir dir).bind fun d => (readDump t).map fun dump => ⟨d, channel, readSeq seq, dump.1, dump.2⟩ := by
  simp only [readLine, column_append ht, column_append hd, column_append hc, column_append hs]

namespace AuditRecord

theorem solid_dirText (r : AuditRecord) : ∀ b ∈ r.dirText, Solid b := by
  unfold dirText
  cases r.dir <;> exact solid_of_all (by decide)

theorem solid_seqText (r : AuditRecord) : ∀ b ∈ r.seqText, Solid b := by
  unfold seqText
  split
  · exact solid_digits (isDigit_decText _)
  · exact solid_of_all (by decide)

theorem readDir_dirText (r : AuditRecord) : readDir r.dirText = some r.dir := by
  unfold dirText
  cases r.dir <;> rfl

theorem readSeq_seqText (r : AuditRecord) : readSeq r.seqText = r.seq := by
  unfold seqText readSeq
  split
  · -- no digit is the dash
    have hdash : decText r.seq.toNat ≠ ascii "-" := by
      intro h
      exact absurd (isDigit_decText r.seq.toNat 45 (by rw [h]; decide)) (by decide)
    rw [if_neg hdash, readDigits_decText, UInt64.ofNat_toNat]
  · rename_i h
    exact (not_not.1 h).symm

/-- The columns in front of the type, and a text behind them. -/
def columns (r : AuditRecord) (t : Bytes) : Bytes :=
  formatIso8601 r.wallNs ++ 32 :: 32 :: (r.dirText ++ 32 :: 32 :: (r.channel ++ 32 :: 32 :: (r.seqText ++ 32 :: 32 :: t)))

theorem columns_append (r : AuditRecord) (t t' : Bytes) : r.columns t ++ t' = r.columns (t ++ t') := by
  simp only [columns, List.append_assoc, List.cons_append]

theorem newline_not_mem_columns {r : AuditRecord} (h : r.Clean) {t : Bytes} (ht : 10 ∉ t) : 10 ∉ r.columns t := by
  have htime := newline_not_mem (solid_formatIso8601 r.wallNs)
  have hdir := newline_not_mem r.solid_dirText
  have hchannel := newline_not_mem h.channel
  have hseq := newline_not_mem r.solid_seqText
  simp [columns, htime, hdir, hchannel, hseq, ht]

theorem readLine_columns {r : AuditRecord} (h : r.Clean) (t : Bytes) :
    readLine (r.columns t) = (readDump t).map fun p => ⟨r.dir, r.channel, r.seq, p.1, p.2⟩ := by
  rw [columns, readLine_append (blank_not_mem (solid_formatIso8601 r.wallNs)) (blank_not_mem r.solid_dirText)
    (blank_not_mem h.channel) (blank_not_mem r.solid_seqText), readDir_dirText, readSeq_seqText]
  rfl

theorem line_eq (r : AuditRecord) : r.line = r.columns (r.type :: (ascii "  hex=" ++ r.hex)) ++ 10 :: [] := by
  have hblanks : ascii "  " = [32, 32] := rfl
  have hhex : ascii "  hex=" = 32 :: 32 :: ascii "hex=" := rfl
  rw [columns_append, line, columns, hblanks, hhex]
  simp only [List.append_assoc, List.cons_append, List.nil_append]

/-- The line of a record reads back as the record, unless its type ends the
line before the hex dump. -/
theorem readText_line {r : AuditRecord} (h : r.Clean) (xs : Bytes) : readText readLine (r.line ++ xs) =
    if r.type = 10 then none else (readText readLine xs).map (r.entry :: ·) := by
  rw [line_eq, List.append_assoc, List.cons_append, List.nil_append]
  split
  · rename_i htype
    have hfirst := newline_not_mem_columns h List.not_mem_nil
    rw [htype, columns_append, List.cons_append, ← List.nil_append (10 :: _), ← columns_append,
      StreamKit.readText_line _ hfirst, readLine_columns h]
    rfl
  · rename_i htype
    have hdump : readDump (r.type :: (ascii "  hex=" ++ r.hex)) = some (r.type, r.hex) := by
      rw [readDump, if_pos (List.prefix_append ..)]
      rfl
    have hline : 10 ∉ r.type :: (ascii "  hex=" ++ r.hex) := by
      have hhex : 10 ∉ ascii "  hex=" := by decide
      simp [Ne.symm htype, hhex, h.hex]
    rw [StreamKit.readText_line _ (newline_not_mem_columns h hline), readLine_columns h, hdump]
    rfl

/-- So the lines of some records read back exactly when no type is a newline. -/
theorem readText_lines {rs : List AuditRecord} (h : ∀ r ∈ rs, r.Clean) {es : List AuditEntry} :
    readText readLine (rs.flatMap line) = some es ↔ (∀ r ∈ rs, r.type ≠ 10) ∧ es = rs.map entry := by
  induction rs generalizing es with
  | nil => simp [eq_comm]
  | cons r rs ih =>
    rw [List.forall_mem_cons] at h
    rw [List.flatMap_cons, readText_line h.1, List.forall_mem_cons, List.map_cons]
    split
    · rename_i htype
      simp [htype]
    · rename_i htype
      rw [Option.map_eq_some_iff]
      simp only [ih h.2, htype, ne_eq, not_false_eq_true, true_and]
      constructor
      · rintro ⟨es, ⟨htypes, rfl⟩, rfl⟩
        exact ⟨htypes, rfl⟩
      · rintro ⟨htypes, rfl⟩
        exact ⟨_, ⟨htypes, rfl⟩, rfl⟩

end AuditRecord

/-! ## The log -/

/-- The queue to the worker, the file it appends to, and the history of the
records that were taken into the queue. -/
structure AuditLog where
  queue : List AuditRecord := []
  isOpen : Bool := true
  file : Bytes := []
  recorded : List AuditRecord := []
deriving DecidableEq

namespace AuditLog

/-- The size of the ring between the two threads. -/
def capacity : Nat := 2 ^ 14

def HasRoom (a : AuditLog) : Prop := a.queue.length < capacity

instance (a : AuditLog) : Decidable a.HasRoom := inferInstanceAs (Decidable (_ < _))

def tryPush (a : AuditLog) (r : AuditRecord) : Bool × AuditLog :=
  if a.HasRoom then (true, { a with queue := a.queue ++ [r], recorded := a.recorded ++ [r] }) else (false, a)

def record (a : AuditLog) (wallNs : UInt64) (dir : AuditDirection) (channel : Bytes) (seq : UInt64) (bytes : Bytes) :
    Bool × AuditLog :=
  a.tryPush (.ofSpan wallNs dir channel seq bytes)

def writeOne (a : AuditLog) (r : AuditRecord) : AuditLog :=
  if a.isOpen = false then a else { a with file := a.file ++ r.line }

/-- A turn of the worker: it takes a record off the queue, if there is one, or
finds a new date and opens the next file, if that succeeds. -/
inductive Turn
  | pop
  | rotate (opened : Bool)
deriving DecidableEq

/-- The files of the days are taken as one. -/
def turn (a : AuditLog) : Turn → AuditLog
  | .pop =>
    match a.queue with
    | [] => a
    | r :: rs => { a with queue := rs }.writeOne r
  | .rotate opened => { a with isOpen := opened }

/-- `stop`, when the worker has left its loop: it writes what is still queued. -/
def stop (a : AuditLog) : AuditLog := run turn a (List.replicate a.queue.length .pop)

/-! ## What the file holds -/

/-- The worker takes no record while the file is closed. -/
def Writes (a : AuditLog) (t : Turn) : Prop := t = .pop → a.queue ≠ [] → a.isOpen = true

instance (a : AuditLog) (t : Turn) : Decidable (a.Writes t) := inferInstanceAs (Decidable (_ → _ → _))

/-- The file is the lines of `ws`. -/
structure Holds (a : AuditLog) (ws : List AuditRecord) : Prop where
  file : a.file = ws.flatMap AuditRecord.line
  clean : ∀ r ∈ ws ++ a.queue, r.Clean

/-- Every record is in the file or waits for it, and makes one line. -/
def Sound (a : AuditLog) : Prop := ∃ ws, a.Holds ws ∧ ws ++ a.queue = a.recorded ∧ ∀ r ∈ a.recorded, r.type ≠ 10

/-- A record was lost, or one makes two lines. -/
def Broken (a : AuditLog) : Prop :=
  ∃ ws, a.Holds ws ∧ (ws ++ a.queue).length ≤ a.recorded.length ∧
    ((ws ++ a.queue).length < a.recorded.length ∨ ∃ r ∈ ws ++ a.queue, r.type = 10)

/-- A turn moves a record from the queue to the file, or loses it. -/
theorem Holds.turn {a : AuditLog} {ws : List AuditRecord} (h : a.Holds ws) (t : Turn) :
    (a.turn t).recorded = a.recorded ∧ ∃ ws', (a.turn t).Holds ws' ∧
      (a.Writes t ∧ ws' ++ (a.turn t).queue = ws ++ a.queue ∨
        ¬ a.Writes t ∧ (ws' ++ (a.turn t).queue).length < (ws ++ a.queue).length) := by
  cases t with
  | rotate opened => exact ⟨rfl, ws, ⟨h.file, h.clean⟩, .inl ⟨nofun, rfl⟩⟩
  | pop =>
    cases hq : a.queue with
    | nil =>
      have hturn : a.turn .pop = a := by rw [AuditLog.turn, hq]
      rw [hturn, hq]
      exact ⟨rfl, ws, h, .inl ⟨fun _ hne => absurd hq hne, rfl⟩⟩
    | cons r rs =>
      have hturn : a.turn .pop = { a with queue := rs }.writeOne r := by rw [AuditLog.turn, hq]
      have hclean := h.clean
      rw [hq] at hclean
      rw [hturn]
      unfold writeOne
      split
      · -- the file is closed
        rename_i hclosed
        refine ⟨rfl, ws, ⟨h.file, ?_⟩, .inr ⟨?_, by simp⟩⟩
        · intro r' hr'
          apply hclean
          rw [List.mem_append] at hr' ⊢
          exact hr'.imp_right (List.mem_cons_of_mem r)
        · intro hw
          have hopen := hw rfl (by simp [hq])
          rw [hopen] at hclosed
          cases hclosed
      · rename_i hopen
        refine ⟨rfl, ws ++ [r], ⟨?_, by simpa using hclean⟩, .inl ⟨fun _ _ => by simpa using hopen, by simp⟩⟩
        rw [List.flatMap_append, h.file, List.flatMap_cons, List.flatMap_nil, List.append_nil]

theorem Sound.turn {a : AuditLog} {t : Turn} (h : a.Sound) (hw : a.Writes t) : (a.turn t).Sound := by
  obtain ⟨ws, hh, hall, htypes⟩ := h
  obtain ⟨hrec, ws', hh', hws'⟩ := hh.turn t
  rcases hws' with ⟨-, hws'⟩ | ⟨hnot, -⟩
  · exact ⟨ws', hh', by rw [hws', hall, hrec], by rwa [hrec]⟩
  · exact absurd hw hnot

theorem Sound.loses {a : AuditLog} {t : Turn} (h : a.Sound) (hw : ¬ a.Writes t) : (a.turn t).Broken := by
  obtain ⟨ws, hh, hall, -⟩ := h
  obtain ⟨hrec, ws', hh', hws'⟩ := hh.turn t
  rcases hws' with ⟨hyes, -⟩ | ⟨-, hws'⟩
  · exact absurd hyes hw
  · rw [hall] at hws'
    rw [Broken, hrec]
    exact ⟨ws', hh', hws'.le, .inl hws'⟩

theorem Broken.turn {a : AuditLog} (h : a.Broken) (t : Turn) : (a.turn t).Broken := by
  obtain ⟨ws, hh, hle, hbad⟩ := h
  obtain ⟨hrec, ws', hh', hws'⟩ := hh.turn t
  rw [Broken, hrec]
  rcases hws' with ⟨-, hws'⟩ | ⟨-, hws'⟩
  · exact ⟨ws', hh', by rwa [hws'], by rwa [hws']⟩
  · exact ⟨ws', hh', (hws'.trans_le hle).le, .inl (hws'.trans_le hle)⟩

/-- A record that goes into the queue. -/
theorem tryPush_room {a : AuditLog} {r : AuditRecord} (h : a.HasRoom) :
    (a.tryPush r).2 = { a with queue := a.queue ++ [r], recorded := a.recorded ++ [r] } := by
  rw [tryPush, if_pos h]

theorem tryPush_full {a : AuditLog} {r : AuditRecord} (h : ¬ a.HasRoom) : (a.tryPush r).2 = a := by
  rw [tryPush, if_neg h]

theorem Holds.push {a : AuditLog} {ws : List AuditRecord} (h : a.Holds ws) {r : AuditRecord} (hr : r.Clean) :
    Holds { a with queue := a.queue ++ [r], recorded := a.recorded ++ [r] } ws := by
  refine ⟨h.file, ?_⟩
  rw [← List.append_assoc, List.forall_mem_append]
  exact ⟨h.clean, by simpa using hr⟩

theorem Sound.push {a : AuditLog} (h : a.Sound) {r : AuditRecord} (hr : r.Clean) (htype : a.HasRoom → r.type ≠ 10) :
    (a.tryPush r).2.Sound := by
  by_cases hroom : a.HasRoom
  · obtain ⟨ws, hh, hall, htypes⟩ := h
    rw [tryPush_room hroom]
    refine ⟨ws, hh.push hr, by rw [← hall, List.append_assoc], ?_⟩
    rw [List.forall_mem_append]
    exact ⟨htypes, by simpa using htype hroom⟩
  · rwa [tryPush_full hroom]

theorem Sound.breaks {a : AuditLog} (h : a.Sound) {r : AuditRecord} (hr : r.Clean) (hroom : a.HasRoom)
    (htype : r.type = 10) : (a.tryPush r).2.Broken := by
  obtain ⟨ws, hh, hall, -⟩ := h
  rw [tryPush_room hroom]
  refine ⟨ws, hh.push hr, ?_, .inr ⟨r, by simp, htype⟩⟩
  dsimp only
  rw [← hall, List.append_assoc]

theorem Broken.push {a : AuditLog} (h : a.Broken) {r : AuditRecord} (hr : r.Clean) : (a.tryPush r).2.Broken := by
  by_cases hroom : a.HasRoom
  · obtain ⟨ws, hh, hle, hbad⟩ := h
    rw [tryPush_room hroom]
    refine ⟨ws, hh.push hr, ?_, ?_⟩
    · simp only [List.length_append] at hle ⊢
      omega
    · dsimp only
      rw [← List.append_assoc]
      rcases hbad with hlost | ⟨r', hr', htype⟩
      · left
        simp only [List.length_append] at hlost ⊢
        omega
      · exact .inr ⟨r', List.mem_append_left _ hr', htype⟩
  · rwa [tryPush_full hroom]

/-! ## Reading the file -/

theorem sound_start : Sound {} := ⟨[], ⟨rfl, nofun⟩, rfl, nofun⟩

theorem Sound.turns {a : AuditLog} (h : a.Sound) {ts : List Turn} (hw : AllAlong AuditLog.turn Writes a ts) :
    (run AuditLog.turn a ts).Sound :=
  run_inv Sound (fun _ _ h hw => h.turn hw) h hw

theorem Sound.turns_lose {a : AuditLog} (h : a.Sound) {ts : List Turn} (hw : ¬ AllAlong AuditLog.turn Writes a ts) :
    (run AuditLog.turn a ts).Broken :=
  run_breaks Sound Broken (fun _ _ h hw => h.turn hw) (fun _ _ h hw => h.loses hw) (fun _ t h => h.turn t) h hw

theorem Broken.turns {a : AuditLog} (h : a.Broken) (ts : List Turn) : (run AuditLog.turn a ts).Broken :=
  run_inv_all Broken (fun _ t h => h.turn t) h

theorem recorded_turns (a : AuditLog) (ts : List Turn) : (run turn a ts).recorded = a.recorded := by
  refine run_inv_all (fun a' : AuditLog => a'.recorded = a.recorded) ?_ rfl
  intro a' t h
  rw [← h]
  cases t with
  | rotate opened => rfl
  | pop =>
    unfold turn writeOne
    dsimp only
    split
    · rfl
    · split <;> rfl

/-- The queue is empty after as many turns as it has records. -/
theorem queue_stop (a : AuditLog) : a.stop.queue = [] := by
  unfold stop
  generalize hn : a.queue.length = n
  induction n generalizing a with
  | zero => exact List.eq_nil_of_length_eq_zero hn
  | succ n ih =>
    rw [List.replicate_succ, run_cons]
    apply ih
    cases hq : a.queue with
    | nil => simp [hq] at hn
    | cons r rs =>
      rw [hq, List.length_cons] at hn
      rw [AuditLog.turn, hq]
      unfold writeOne
      dsimp only
      split <;> simpa using hn

/-- The file says what was recorded: one line for each record, which reads back as it. -/
def Tells (a : AuditLog) : Prop := readText readLine a.file = some (a.recorded.map AuditRecord.entry)

theorem Sound.tells {a : AuditLog} (h : a.Sound) (hq : a.queue = []) : a.Tells := by
  obtain ⟨ws, hh, hall, htypes⟩ := h
  have hclean := hh.clean
  rw [hall] at hclean
  rw [hq, List.append_nil] at hall
  rw [Tells, hh.file, hall, AuditRecord.readText_lines hclean]
  exact ⟨htypes, rfl⟩

theorem Broken.not_tells {a : AuditLog} (h : a.Broken) (hq : a.queue = []) : ¬ a.Tells := by
  obtain ⟨ws, hh, -, hbad⟩ := h
  have hclean := hh.clean
  rw [hq, List.append_nil] at hclean hbad
  rw [Tells, hh.file, AuditRecord.readText_lines hclean]
  rintro ⟨htypes, hall⟩
  rcases hbad with hlost | ⟨r, hr, htype⟩
  · -- fewer lines than records
    have hlen := congrArg List.length hall
    rw [List.length_map, List.length_map] at hlen
    omega
  · exact htypes r hr htype

end AuditLog

end Observability

end BistColo
