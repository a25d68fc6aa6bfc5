import BistColo.App.History
/-!
# Where a reconnect resumes

Every new session should ask for the id and the number at which the last
Active session stopped. The base parameters are read once, at the start, so a
reconnect without overrides asks for those; a gateway switch passes on what the
session in the slot knows, which is nothing after a failed login.
`resumes_iff` is the exact condition, step by step.
-/

open StreamKit

namespace BistColo.App.LiveClient

open Ouch
open LiveCursor (advance)

/-- A session that starts asks for the cursor of the last Active session. -/
def Resumes (l : LiveCursor) : LiveEvent → Prop
  | .started lp => ∀ id n, l.last = some (id, n) → lp.requestedSession = id ∧ lp.requestedSequence = n
  | .session _ | .save _ _ | .flush _ _ => True

/-- Overrides, or base parameters where they are empty, that are the cursor `(id, n)`. -/
def AskFor (base : LoginParams) (session : Bytes) (sequence : UInt64) (id : Bytes) (n : UInt64) : Prop :=
  (if session ≠ [] then session = id else base.requestedSession = id) ∧
    (if sequence ≠ 0 then sequence = n else base.requestedSequence = n)

/-- The rebuild `r` of the step carries the cursor `(id, n)` over: overrides and
base parameters are that cursor already, or the step is a switch away from a
session that logged in, whose number is not 0 unless the base number is 0 too. -/
def Carries (c : LiveClient) (op : Op) (r : Rebuild) (id : Bytes) (n : UInt64) : Prop :=
  match op, c.session with
  | .switchGateway .., some s =>
    if s.assignedSession ≠ [] then s.nextInboundSeq ≠ 0 ∨ c.baseLp.requestedSequence = 0
    else AskFor c.baseLp [] s.nextInboundSeq id n
  | _, _ => AskFor c.baseLp r.session r.sequence id n

/-- A step that starts a session after another was Active carries the cursor over. -/
def Resumable (c : LiveClient) (op : Op) : Prop :=
  ∀ r socket id n, c.rebuildOf op = some r → r.dial.socket = .ok socket → c.cursor.last = some (id, n) →
    c.Carries op r id n

theorem resumes_noStart {l : LiveCursor} {es : List LiveEvent} (h : NoStart es) : AllAlong advance Resumes l es := by
  induction es generalizing l with
  | nil => trivial
  | cons e es ih =>
    refine ⟨?_, ih fun e' hm => h e' (List.mem_cons_of_mem e hm)⟩
    cases e with
    | started lp => exact absurd (h _ List.mem_cons_self) (by simp [LiveEvent.isStart])
    | session e => trivial
    | save session seq => trivial
    | flush session seq => trivial

/-- The parameters of a rebuild. -/
theorem resumes_started (l : LiveCursor) (base : LoginParams) (password session : Bytes) (sequence : UInt64) :
    Resumes l (.started (loginParams base password session sequence)) ↔
      ∀ id n, l.last = some (id, n) → AskFor base session sequence id n := by
  refine forall_congr' fun id => forall_congr' fun n => imp_congr_right fun _ => ?_
  rw [loginParams, AskFor]
  dsimp only
  refine and_congr ?_ ?_
  · split <;> rfl
  · split <;> rfl

theorem resumes_rebuild {c : LiveClient} (password session : Bytes) (sequence : UInt64) (dial : Dial) :
    AllAlong advance Resumes {} (c.rebuild password session sequence dial).2.events ↔
      AllAlong advance Resumes {} c.events ∧
        ∀ socket id n, dial.socket = .ok socket → c.cursor.last = some (id, n) →
          AskFor c.baseLp session sequence id n := by
  rcases c.events_rebuild password session sequence dial with ⟨hno, he⟩ | ⟨⟨socket, hyes⟩, es, hes, he⟩
  · rw [he]
    exact ⟨fun h => ⟨h, fun socket _ _ hs => absurd hs (hno socket)⟩, fun h => h.1⟩
  · rw [he, allAlong_append, allAlong_cons]
    refine and_congr Iff.rfl ?_
    constructor
    · intro h socket id n _ hlast
      exact (resumes_started _ _ _ _ _).1 h.1 id n hlast
    · intro h
      exact ⟨(resumes_started _ _ _ _ _).2 fun id n hlast => h socket id n hyes hlast, resumes_noStart hes⟩

/-- A switch away from a session that logged in passes on the last cursor. -/
theorem askFor_slot {c : LiveClient} (h : c.Tracks) {s : OuchSession} (hs : c.session = some s) {id : Bytes} {n : UInt64}
    (hlast : c.cursor.last = some (id, n)) :
    AskFor c.baseLp s.assignedSession s.nextInboundSeq id n ↔
      if s.assignedSession ≠ [] then s.nextInboundSeq ≠ 0 ∨ c.baseLp.requestedSequence = 0
      else AskFor c.baseLp [] s.nextInboundSeq id n := by
  obtain ⟨-, hof⟩ := h.slot s hs
  have hsound := sound_cursor h.agrees
  split
  · rename_i hne
    have hin : c.cursor.cursor.loggedIn = true := hsound.id.2 (by rw [← hof.session]; exact hne)
    rw [hsound.last hin, ← hof.session, ← hof.seq, Option.some.injEq, Prod.mk.injEq] at hlast
    obtain ⟨rfl, rfl⟩ := hlast
    rw [AskFor, if_pos hne]
    by_cases hzero : s.nextInboundSeq = 0
    · simp [hzero]
    · simp [hzero]
  · rename_i hnil
    rw [not_not] at hnil
    rw [hnil]

theorem carries_iff {c : LiveClient} (h : c.Tracks) {op : Op} {r : Rebuild} (hr : c.rebuildOf op = some r) {id : Bytes}
    {n : UInt64} (hlast : c.cursor.last = some (id, n)) :
    AskFor c.baseLp r.session r.sequence id n ↔ c.Carries op r id n := by
  cases op with
  | reconnect password session sequence dial => exact Iff.rfl
  | login password session sequence stale dial => exact Iff.rfl
  | switchGateway tag stale dial =>
    obtain ⟨-, he⟩ := Option.ite_none_left_eq_some.1 hr
    cases he
    unfold Carries
    cases hs : c.session with
    | none => exact Iff.rfl
    | some s =>
      have hread : c.readSession stale = s.assignedSession ∧ c.readSeq stale = s.nextInboundSeq := by
        simp only [readSession, readSeq, hs, and_self]
      dsimp only
      rw [hread.1, hread.2]
      exact askFor_slot h hs hlast
  | hardDisconnect => cases hr
  | session op => cases hr
  | flush => cases hr

/-- One step. -/
theorem resumes_step {c : LiveClient} (h : c.Tracks) (op : Op) :
    AllAlong advance Resumes {} (c.step op).events ↔
      AllAlong advance Resumes {} c.events ∧ c.Resumable op := by
  by_cases hlogin : op.logsIn = true
  · obtain ⟨side, hstep⟩ := c.step_logsIn hlogin
    rw [hstep]
    unfold Resumable
    cases hr : c.rebuildOf op with
    | none => exact ⟨fun h => ⟨h, nofun⟩, fun h => h.1⟩
    | some r =>
      refine (resumes_rebuild (c := { c with onSecondary := side }) ..).trans (and_congr Iff.rfl ?_)
      constructor
      · intro hall r' socket id n hr' hsocket hlast
        cases hr'
        exact (carries_iff h hr hlast).1 (hall socket id n hsocket hlast)
      · intro hall socket id n hsocket hlast
        exact (carries_iff h hr hlast).2 (hall r socket id n rfl hsocket hlast)
  · rw [Bool.not_eq_true] at hlogin
    obtain ⟨es, hes, he⟩ := c.events_step hlogin
    rw [he, allAlong_append]
    refine and_congr Iff.rfl ⟨fun _ => ?_, fun _ => resumes_noStart hes⟩
    intro r socket id n hr
    cases op with
    | reconnect password session sequence dial => cases hlogin
    | login password session sequence stale dial => cases hlogin
    | switchGateway tag stale dial => cases hlogin
    | hardDisconnect => cases hr
    | session op => cases hr
    | flush => cases hr

theorem resumes_run {c : LiveClient} (h : c.Tracks) (hc : AllAlong advance Resumes {} c.events) (ops : List Op) :
    AllAlong advance Resumes {} (run step c ops).events ↔ AllAlong step Resumable c ops := by
  refine run_iff_allAlong (fun c : LiveClient => c.Tracks ∧ AllAlong advance Resumes {} c.events)
    (fun c => AllAlong advance Resumes {} c.events) ?_ ?_ ?_ (fun c h => h.2) ⟨h, hc⟩
  · intro c op h hc
    exact ⟨tracks_step h.1 op, (resumes_step h.1 op).2 ⟨h.2, hc⟩⟩
  · intro c op h hc hafter
    exact hc ((resumes_step h.1 op).1 hafter).2
  · intro c op h
    obtain ⟨tail, htail⟩ := (grows_step c op).log
    rw [events, ← htail, List.map_append, allAlong_append] at h
    exact h.1

/-! ## Exactly once -/

/-- A gateway that replays from what is asked: a session logs in once, before
it gets packets, and if another was Active before with what it asked for. -/
def Granted (l : LiveCursor) : LiveEvent → Prop
  | .session (.login id n) => l.cursor.loggedIn = false ∧ (l.last ≠ none → l.asked = some (id, n))
  | .session (.ouch _ _) => l.cursor.loggedIn = true
  | .session _ | .started _ | .save _ _ | .flush _ _ => True

/-- The numbers of the packets handed to `dispatch_ouch`. -/
def numbers (es : List LiveEvent) : List UInt64 :=
  es.filterMap fun | .session (.ouch _ n) => some n | _ => none

/-- `k` numbers from `n0` on. -/
def countUp (n0 : UInt64) (k : Nat) : List UInt64 := (List.range k).map fun i => n0 + UInt64.ofNat i

/-- The numbers handed over so far are those up to the last cursor, and a
session that is to log in asks for that. -/
structure Continues (l : LiveCursor) (handed : List UInt64) : Prop where
  handed : match l.last with
    | none => handed = []
    | some (_, n) => ∃ n0, handed = countUp n0 handed.length ∧ n = n0 + UInt64.ofNat handed.length
  asked : l.cursor.loggedIn = false → l.last ≠ none → l.asked = l.last

theorem countUp_succ (n0 : UInt64) (k : Nat) : countUp n0 (k + 1) = countUp n0 k ++ [n0 + UInt64.ofNat k] := by
  rw [countUp, List.range_succ, List.map_append]
  rfl

theorem Continues.login {l : LiveCursor} {ns : List UInt64} (h : Continues l ns) {id : Bytes} {n : UInt64}
    (hgranted : Granted l (.session (.login id n))) : Continues (l.advance (.session (.login id n))) ns := by
  obtain ⟨hout, hasks⟩ := hgranted
  constructor
  · change ∃ n0, ns = countUp n0 ns.length ∧ n = n0 + UInt64.ofNat ns.length
    have hhanded := h.handed
    cases hlast : l.last with
    | none =>
      rw [hlast] at hhanded
      subst hhanded
      exact ⟨n, rfl, (UInt64.add_zero n).symm⟩
    | some last =>
      -- the number granted is the one asked for, which is the last one
      have hsame := h.asked hout (by simp [hlast])
      rw [hasks (by simp [hlast]), hlast, Option.some.injEq] at hsame
      rw [hlast, ← hsame] at hhanded
      exact hhanded
  · intro hnot
    cases hnot

theorem Continues.ouch {l : LiveCursor} {ns : List UInt64} (h : Continues l ns) (hsound : l.Sound) {id : Bytes}
    {n : UInt64} (hagrees : l.Agrees (.session (.ouch id n))) (hin : l.cursor.loggedIn = true) :
    Continues (l.advance (.session (.ouch id n))) (ns ++ [n]) := by
  obtain ⟨-, hn⟩ : id = l.cursor.session ∧ n = l.cursor.seq := hagrees
  have hhanded := h.handed
  rw [hsound.last hin] at hhanded
  obtain ⟨n0, hns, hseq⟩ := hhanded
  constructor
  · simp only [LiveCursor.advance, Cursor.advance, hin, if_true]
    refine ⟨n0, ?_, ?_⟩
    · rw [List.length_append, List.length_singleton, countUp_succ, ← hns, hn, hseq]
    · rw [List.length_append, List.length_singleton, UInt64.ofNat_add, hseq, UInt64.add_assoc]
      rfl
  · intro hnot
    exact absurd (hnot.symm.trans hin) Bool.false_ne_true

theorem Continues.step {l : LiveCursor} {ns : List UInt64} (h : Continues l ns) (hsound : l.Sound) {e : LiveEvent}
    (hagrees : l.Agrees e) (hresumes : Resumes l e) (hgranted : Granted l e) :
    Continues (l.advance e) (ns ++ numbers [e]) := by
  have hother : ∀ e : Event, l.cursor.advance e = l.cursor → numbers [.session e] = [] →
      Continues (l.advance (.session e)) (ns ++ numbers [.session e]) := by
    intro e he hnone
    rw [LiveCursor.advance_same hsound he, hnone, List.append_nil]
    exact h
  cases e with
  | save session seq => exact (List.append_nil ns).symm ▸ h
  | flush session seq => exact (List.append_nil ns).symm ▸ h
  -- a start hands nothing over, and asks for where the last session stopped
  | started lp =>
    rw [show ns ++ numbers [.started lp] = ns from List.append_nil ns]
    refine ⟨h.handed, ?_⟩
    rintro - hlast
    obtain ⟨⟨id, n⟩, hsome⟩ := Option.ne_none_iff_exists'.1 hlast
    obtain ⟨hid, hn⟩ := hresumes id n hsome
    change some (lp.requestedSession, lp.requestedSequence) = l.last
    rw [hid, hn]
    exact hsome.symm
  | session e =>
    cases e with
    | login id n =>
      rw [show ns ++ numbers [.session (.login id n)] = ns from List.append_nil ns]
      exact h.login hgranted
    | ouch id n => exact h.ouch hsound hagrees hgranted
    | stateChange st detail => exact hother _ rfl rfl
    | auditSent bytes => exact hother _ rfl rfl
    | auditRecv bytes id n => exact hother _ rfl rfl
    | message m bytes => exact hother _ rfl rfl
    | request packet => exact hother _ rfl rfl
    | dispatch f payloadLen reads => exact hother _ rfl rfl

theorem Continues.run {l : LiveCursor} {ns : List UInt64} (h : Continues l ns) (hsound : l.Sound) {es : List LiveEvent}
    (hagrees : AllAlong advance LiveCursor.Agrees l es) (hresumes : AllAlong advance Resumes l es)
    (hgranted : AllAlong advance Granted l es) : Continues (StreamKit.run advance l es) (ns ++ numbers es) := by
  induction es generalizing l ns with
  | nil => exact (List.append_nil ns).symm ▸ h
  | cons e es ih =>
    have hsplit : ns ++ numbers (e :: es) = (ns ++ numbers [e]) ++ numbers es := by
      rw [List.append_assoc, ← List.singleton_append, numbers, List.filterMap_append]
      rfl
    rw [hsplit]
    exact ih (h.step hsound hagrees.1 hresumes.1 hgranted.1) (LiveCursor.sound_advance hsound hagrees.1)
      hagrees.2 hresumes.2 hgranted.2

/-- If every step is resumable and the gateway replays from what it is asked
for, the packets handed over in all sessions are numbered one after the other:
none is missed and none comes twice. -/
theorem delivered_once {c : LiveClient} {ops : List Op} (h : (run step c ops).Tracks)
    (hresumes : AllAlong advance Resumes {} (run step c ops).events)
    (hgranted : AllAlong advance Granted {} (run step c ops).events) :
    ∃ n0 k, numbers (run step c ops).events = countUp n0 k := by
  have hstart : Continues {} [] := ⟨rfl, fun _ hne => absurd rfl hne⟩
  have hall := hstart.run ⟨by decide, nofun⟩ h.agrees hresumes hgranted
  have hhanded := hall.handed
  rw [List.nil_append] at hhanded
  split at hhanded
  · exact ⟨0, 0, hhanded⟩
  · obtain ⟨n0, hns, -⟩ := hhanded
    exact ⟨n0, _, hns⟩

/-- In every live run, each session that starts after another was Active asks
for the cursor of the last Active one if and only if every step is resumable;
and then a gateway that replays from there delivers every number once. -/
theorem resumes_iff (cfg : Config) (store : Observability.SequenceStore) (refused : Option String)
    (disk : Nat → Observability.Disk) (ops : List Op) :
    (AllAlong advance Resumes {} (run step (boot cfg store refused disk) ops).events ↔
      AllAlong step Resumable (boot cfg store refused disk) ops) ∧
    (AllAlong step Resumable (boot cfg store refused disk) ops →
      AllAlong advance Granted {} (run step (boot cfg store refused disk) ops).events →
      ∃ n0 k, numbers (run step (boot cfg store refused disk) ops).events = countUp n0 k) := by
  have hiff := resumes_run (tracks_boot cfg store refused disk) (allAlong_nil ..) ops
  refine ⟨hiff, ?_⟩
  intro h hgranted
  exact delivered_once (tracks_run (tracks_boot ..) ops) (hiff.2 h) hgranted

/-- A reconnect that leaves the id to the base parameters. -/
theorem not_resumes_base {c : LiveClient} (h : c.Tracks) {id : Bytes} {n sequence : UInt64} {password : Bytes}
    {dial : Dial} {socket : TcpSocket} (hdial : dial.socket = .ok socket) (hlast : c.cursor.last = some (id, n))
    (hbase : c.baseLp.requestedSession ≠ id) :
    ¬ AllAlong advance Resumes {} (c.step (.reconnect password [] sequence dial)).events := by
  intro hall
  have hcarries := ((resumes_step h _).1 hall).2 _ _ _ _ rfl hdial hlast
  have hask := ((carries_iff h rfl hlast).2 hcarries).1
  rw [if_neg (by simp)] at hask
  exact hbase hask

/-- A login with number 1, and a packet after it. -/
def received : LiveClient :=
  run step coldStart [.reconnect [] [] 0 (dialing (accepted 1) [.again, chunk canceledMessage canceledMessage_fits]),
    .session .pollIo]

/-- The next session after a lost connection asks for what the configuration
says instead of number 2. -/
theorem reconnect_forgets :
    received.cursor.last = some (ascii "MOCKSESS01", 2) ∧
    (loginParams received.baseLp [] [] 0).requestedSession = [] ∧
    (loginParams received.baseLp [] [] 0).requestedSequence = 0 ∧
    ¬ AllAlong advance Resumes {}
      (received.step (.reconnect [] [] 0 (dialing (accepted 1) []))).events := by
  have hlast : received.cursor.last = some (ascii "MOCKSESS01", 2) := by decide +kernel
  have htracks : received.Tracks := tracks_run (tracks_boot ..) _
  refine ⟨hlast, by decide +kernel, by decide +kernel, ?_⟩
  exact not_resumes_base htracks rfl hlast (by decide +kernel)

end BistColo.App.LiveClient
