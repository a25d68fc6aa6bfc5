import BistColo.App.Reconnect
/-!
# The attempts of a reconnect

Which attempts `reconnect_with_deadline` makes, and when. A backoff that would
pass the deadline is cut to end there, and then another attempt is made, so
`hard_bounded_iff` says that the budget is a hard bound exactly if the last
attempt comes before the deadline with every backoff in full.
-/

open StreamKit

namespace BistColo.App

open Ouch

/-- An attempt that was made. -/
structure Made where
  start : Nat
  ended : Nat
  connected : Bool

namespace ReconnectPolicy

/-- The attempts that `retry` makes. -/
def made (p : ReconnectPolicy) (deadline : Nat) : List Attempt → UInt32 → Nat → List Made
  | [], _, _ => []
  | a :: as, backoff, due =>
    let now := due + a.span
    ⟨due + a.late, now, a.socket.isOk⟩ ::
      match a.socket with
      | .ok _ => []
      | .error _ =>
        if deadline ≤ now then []
        else made p deadline as (p.nextBackoff backoff) (now + min (backoff.toNat * 1000000) (deadline - now))

/-- The time between the attempts. -/
def waited : List Made → Nat
  | m :: m' :: ms => (m'.start - m.ended) + waited (m' :: ms)
  | _ => 0

/-- How long attempts take, each with a full backoff behind it. -/
def fullSpan (p : ReconnectPolicy) : List Attempt → UInt32 → Nat
  | [], _ => 0
  | a :: as, backoff => a.span + backoff.toNat * 1000000 + fullSpan p as (p.nextBackoff backoff)

/-- When the attempt behind `as` is due, with every backoff in full. -/
def fullDue (p : ReconnectPolicy) (as : List Attempt) (backoff : UInt32) (due : Nat) : Nat := due + p.fullSpan as backoff

section Dial

variable {p : ReconnectPolicy} {deadline : Nat} {a : Attempt} {as : List Attempt} {backoff : UInt32} {due : Nat}
  {state state' : ReconnectState} {r : Result TcpSocket} {t : Nat}

/-! ## One attempt -/

/-- When the next attempt is due. -/
def nextDue (deadline : Nat) (backoff : UInt32) (now : Nat) : Nat := now + min (backoff.toNat * 1000000) (deadline - now)

theorem made_cons (p : ReconnectPolicy) (deadline : Nat) (a : Attempt) (as : List Attempt) (backoff : UInt32) (due : Nat) :
    p.made deadline (a :: as) backoff due = ⟨due + a.late, due + a.span, a.socket.isOk⟩ ::
      if a.socket.isOk = false ∧ due + a.span < deadline
        then p.made deadline as (p.nextBackoff backoff) (nextDue deadline backoff (due + a.span)) else [] := by
  rw [made]
  cases a.socket with
  | ok k => rfl
  | error e =>
    dsimp only
    split
    · rename_i hlate
      rw [if_neg fun h => Nat.not_lt.2 hlate h.2]
    · rename_i hearly
      rw [if_pos ⟨rfl, Nat.not_le.1 hearly⟩, nextDue]

/-- An attempt connects, or fails after the deadline, or fails before it and is
followed by another one. -/
theorem retry_cases (h : p.retry deadline (a :: as) backoff due state = some (r, state', t)) :
    (r.isOk = true ∧ a.socket.isOk = true ∧ state' = { state with attempts := state.attempts + 1 } ∧
      p.made deadline (a :: as) backoff due = [⟨due + a.late, due + a.span, true⟩]) ∨
    (a.socket.isOk = false ∧ deadline ≤ due + a.span ∧ (∃ e, r = .error e ∧ e.category = .timeout) ∧
      state' = { state with attempts := state.attempts + 1, codRisk := true } ∧
      p.made deadline (a :: as) backoff due = [⟨due + a.late, due + a.span, false⟩]) ∨
    (a.socket.isOk = false ∧ due + a.span < deadline ∧
      p.retry deadline as (p.nextBackoff backoff) (nextDue deadline backoff (due + a.span))
        { state with attempts := state.attempts + 1 } = some (r, state', t) ∧
      p.made deadline (a :: as) backoff due = ⟨due + a.late, due + a.span, false⟩ ::
        p.made deadline as (p.nextBackoff backoff) (nextDue deadline backoff (due + a.span))) := by
  rw [made_cons]
  unfold retry at h
  dsimp only at h
  cases hsocket : a.socket with
  | ok k =>
    rw [hsocket] at h
    cases h
    exact .inl ⟨rfl, rfl, rfl, rfl⟩
  | error e =>
    rw [hsocket] at h
    dsimp only at h
    split at h
    · rename_i hlate
      cases h
      rw [if_neg fun hearly => Nat.not_lt.2 hlate hearly.2]
      exact .inr (.inl ⟨rfl, hlate, ⟨_, rfl, rfl⟩, rfl, rfl⟩)
    · rename_i hearly
      rw [if_pos ⟨rfl, Nat.not_le.1 hearly⟩]
      rw [← nextDue] at h
      exact .inr (.inr ⟨rfl, Nat.not_le.1 hearly, h, rfl⟩)

/-! ## What every dial that comes back gets right -/

/-- The result is told by the attempts made. -/
theorem retry_isOk_iff (h : p.retry deadline as backoff due state = some (r, state', t)) :
    r.isOk = true ↔ ∃ m ∈ p.made deadline as backoff due, m.connected = true := by
  induction as generalizing backoff due state with
  | nil => cases h
  | cons a as ih =>
    rcases retry_cases h with ⟨hr, -, -, hmade⟩ | ⟨-, -, ⟨e, rfl, -⟩, -, hmade⟩ | ⟨-, -, hrest, hmade⟩
    · simp [hr, hmade]
    · simp [hmade, Except.isOk, Except.toBool]
    · simpa [hmade] using ih hrest

theorem retry_timeout {e : Error} (h : p.retry deadline as backoff due state = some (.error e, state', t)) :
    e.category = .timeout := by
  induction as generalizing backoff due state with
  | nil => cases h
  | cons a as ih =>
    rcases retry_cases h with ⟨hr, -⟩ | ⟨-, -, ⟨e', he, hcategory⟩, -⟩ | ⟨-, -, hrest, -⟩
    · cases hr
    · cases he
      exact hcategory
    · exact ih hrest

/-- The attempts are counted in 32 bits. -/
theorem retry_attempts (h : p.retry deadline as backoff due state = some (r, state', t)) :
    state'.attempts = state.attempts + UInt32.ofNat (p.made deadline as backoff due).length := by
  induction as generalizing backoff due state with
  | nil => cases h
  | cons a as ih =>
    rcases retry_cases h with ⟨-, -, hstate, hmade⟩ | ⟨-, -, -, hstate, hmade⟩ | ⟨-, -, hrest, hmade⟩
    · rw [hstate, hmade]
      rfl
    · rw [hstate, hmade]
      rfl
    · rw [ih hrest, hmade, List.length_cons, UInt32.ofNat_add, UInt32.add_comm (UInt32.ofNat _), UInt32.add_assoc]
      rfl

/-! ## When the attempts start -/

theorem nextDue_eq {now : Nat} (h : nextDue deadline backoff now < deadline) :
    nextDue deadline backoff now = now + backoff.toNat * 1000000 := by
  unfold nextDue at *
  omega

theorem fullDue_nil (p : ReconnectPolicy) (backoff : UInt32) (due : Nat) : p.fullDue [] backoff due = due := Nat.add_zero due

theorem fullDue_cons (p : ReconnectPolicy) (a : Attempt) (as : List Attempt) (backoff : UInt32) (due : Nat) :
    p.fullDue (a :: as) backoff due = p.fullDue as (p.nextBackoff backoff) (due + a.span + backoff.toNat * 1000000) := by
  rw [fullDue, fullDue, fullSpan]
  ac_rfl

theorem le_fullDue (p : ReconnectPolicy) (as : List Attempt) (backoff : UInt32) (due : Nat) : due ≤ p.fullDue as backoff due :=
  Nat.le_add_right _ _

/-- No attempt starts before it is due. -/
theorem due_le_start {m : Made} {ms : List Made} (hmade : p.made deadline as backoff due = m :: ms) : due ≤ m.start := by
  cases as with
  | nil => cases hmade
  | cons a as =>
    rw [made_cons] at hmade
    obtain ⟨rfl, -⟩ := List.cons.inj hmade
    exact Nat.le_add_right _ _

/-- Attempts that start before the deadline have waited for less than that. -/
theorem waited_made {m : Made} {ms : List Made} (hmade : p.made deadline as backoff due = m :: ms)
    (hstarts : ∀ m' ∈ m :: ms, m'.start < deadline) : m.start + waited (m :: ms) ≤ deadline := by
  induction as generalizing backoff due m ms with
  | nil => cases hmade
  | cons a as ih =>
    rw [made_cons] at hmade
    obtain ⟨rfl, hrest⟩ := List.cons.inj hmade
    cases ms with
    | nil => exact Nat.le_of_lt (hstarts _ List.mem_cons_self)
    | cons m' ms =>
      split at hrest
      · have hwaited := ih hrest fun m'' hm'' => hstarts m'' (List.mem_cons_of_mem _ hm'')
        have hnext : due + a.span ≤ m'.start := (Nat.le_add_right _ _).trans (due_le_start hrest)
        have hlate : a.late ≤ a.span := Nat.le_add_right _ _
        rw [waited]
        dsimp only
        omega
      · cases hrest

/-- If no attempt but the first starts at the deadline or later, no backoff was cut. -/
theorem retry_split (h : p.retry deadline as backoff due state = some (r, state', t))
    (hstarts : ∀ m ∈ (p.made deadline as backoff due).tail, m.start < deadline) :
    ∃ before a after, as = before ++ a :: after ∧ (∀ b ∈ before, b.socket.isOk = false) ∧
      (a.socket.isOk = true ∨ deadline ≤ p.fullDue before backoff due + a.span) ∧
      (before = [] ∨ p.fullDue before backoff due + a.late < deadline) ∧
      (p.made deadline as backoff due).length = before.length + 1 := by
  induction as generalizing backoff due state with
  | nil => cases h
  | cons a as ih =>
    rcases retry_cases h with ⟨-, hok, -, hmade⟩ | ⟨-, hlate, -, -, hmade⟩ | ⟨hfail, hearly, hrest, hmade⟩
    · exact ⟨[], a, as, rfl, fun _ hb => absurd hb List.not_mem_nil, .inl hok, .inl rfl, by rw [hmade]; rfl⟩
    · exact ⟨[], a, as, rfl, fun _ hb => absurd hb List.not_mem_nil, .inr hlate, .inl rfl, by rw [hmade]; rfl⟩
    · rw [hmade] at hstarts ⊢
      obtain ⟨before, b, after, rfl, hbefore, hlast, hstart, hlength⟩ :=
        ih hrest fun m hm => hstarts m (List.mem_of_mem_tail hm)
      -- the next attempt comes before the deadline, so the backoff behind `a` is a full one
      have hnext : ∀ c cs, before ++ b :: after = c :: cs → nextDue deadline backoff (due + a.span) + c.late < deadline := by
        intro c cs hcs
        rw [hcs, made_cons] at hstarts
        exact hstarts _ List.mem_cons_self
      have hfull : nextDue deadline backoff (due + a.span) = due + a.span + backoff.toNat * 1000000 := by
        apply nextDue_eq
        cases before with
        | nil => exact (Nat.le_add_right _ _).trans_lt (hnext b after rfl)
        | cons c cs => exact (Nat.le_add_right _ _).trans_lt (hnext c _ rfl)
      refine ⟨a :: before, b, after, rfl, ?_, ?_, .inr ?_, ?_⟩
      · intro c hc
        rcases List.mem_cons.1 hc with rfl | hc
        · exact hfail
        · exact hbefore c hc
      · rw [fullDue_cons, ← hfull]
        exact hlast
      · rw [fullDue_cons, ← hfull]
        rcases hstart with rfl | hstart
        · rw [fullDue_nil]
          exact hnext b after rfl
        · exact hstart
      · rw [List.length_cons, List.length_cons, hlength]

/-- Where every backoff fits, a failed attempt is followed by the next one. -/
theorem early_full {before : List Attempt} {b : Attempt} (hstart : p.fullDue (b :: before) backoff due + a.late < deadline) :
    due + b.span < deadline ∧ nextDue deadline backoff (due + b.span) = due + b.span + backoff.toNat * 1000000 := by
  rw [fullDue_cons] at hstart
  have hle := le_fullDue p before (p.nextBackoff backoff) (due + b.span + backoff.toNat * 1000000)
  constructor
  · omega
  · apply nextDue_eq
    unfold nextDue
    omega

/-- Failed attempts whose backoffs all fit are all made, and start before the deadline. -/
theorem made_full {before : List Attempt} (hbefore : ∀ b ∈ before, b.socket.isOk = false)
    (hstart : p.fullDue before backoff due + a.late < deadline) :
    (p.made deadline (before ++ [a]) backoff due).length = before.length + 1 ∧
      ∀ m ∈ p.made deadline (before ++ [a]) backoff due, m.start < deadline := by
  induction before generalizing backoff due with
  | nil =>
    rw [List.nil_append, made_cons, made, ite_self]
    exact ⟨rfl, fun m hm => List.mem_singleton.1 hm ▸ hstart⟩
  | cons b before ih =>
    obtain ⟨hearly, hnext⟩ := early_full hstart
    rw [fullDue_cons, ← hnext] at hstart
    obtain ⟨hlength, hstarts⟩ := ih (fun c hc => hbefore c (List.mem_cons_of_mem b hc)) hstart
    rw [List.cons_append, made_cons, if_pos ⟨hbefore b List.mem_cons_self, hearly⟩]
    refine ⟨by rw [List.length_cons, List.length_cons, hlength], ?_⟩
    intro m hm
    rcases List.mem_cons.1 hm with rfl | hm
    · have hlate : b.late ≤ b.span := Nat.le_add_right _ _
      dsimp only
      omega
    · exact hstarts m hm

/-- Behind failed attempts whose backoffs all fit, an attempt that connects or
ends late is the last. -/
theorem retry_full {before : List Attempt} (hbefore : ∀ b ∈ before, b.socket.isOk = false)
    (hlast : a.socket.isOk = true ∨ deadline ≤ p.fullDue before backoff due + a.span)
    (hstart : before = [] ∨ p.fullDue before backoff due + a.late < deadline) :
    ∃ r state' t, p.retry deadline (before ++ [a]) backoff due state = some (r, state', t) := by
  induction before generalizing backoff due state with
  | nil =>
    rw [List.nil_append, retry]
    dsimp only
    cases hsocket : a.socket with
    | ok k => exact ⟨_, _, _, rfl⟩
    | error e =>
      rw [hsocket] at hlast
      have hlate : deadline ≤ due + a.span := hlast.resolve_left Bool.false_ne_true
      dsimp only
      rw [if_pos hlate]
      exact ⟨_, _, _, rfl⟩
  | cons b before ih =>
    have hstart' := hstart.resolve_left (List.cons_ne_nil b before)
    obtain ⟨hearly, hnext⟩ := early_full hstart'
    rw [fullDue_cons, ← hnext] at hlast hstart'
    have hfail := hbefore b List.mem_cons_self
    rw [List.cons_append, retry]
    dsimp only
    cases hsocket : b.socket with
    | ok k =>
      rw [hsocket] at hfail
      cases hfail
    | error e =>
      dsimp only
      rw [if_neg (Nat.not_le.2 hearly)]
      exact ih (fun c hc => hbefore c (List.mem_cons_of_mem b hc)) hlast (.inr hstart')

end Dial

/-! ## The hard bound -/

/-- The attempts made in a dial from the time `start` on. -/
def dialled (p : ReconnectPolicy) (start : Nat) (as : List Attempt) : List Made :=
  p.made (start + p.deadlineNs) as p.initialBackoffMs start

/-- The first attempts of a sequence. A sequence ends where the clock stands still. -/
def Begins (as : Nat → Option Attempt) (first : List Attempt) : Prop := ∀ k < first.length, as k = first[k]?

/-- What is said of a dial that came back. -/
structure Bounded (p : ReconnectPolicy) (start : Nat) (ms : List Made) (r : Result TcpSocket) (state : ReconnectState) :
    Prop where
  starts : ∀ m ∈ ms.tail, m.start < start + p.deadlineNs
  success : r.isOk = true ↔ ∃ m ∈ ms, m.connected = true
  noRisk : r.isOk = true → state.codRisk = false
  timeout : ∀ e, r = .error e → e.category = .timeout ∧ state.codRisk = true
  attempts : state.attempts.toNat = ms.length
  waiting : waited ms ≤ p.deadlineNs

/-- The dial comes back, within its budget. -/
def HardBounded (p : ReconnectPolicy) (start : Nat) (as : Nat → Option Attempt) : Prop :=
  ∃ first, Begins as first ∧ ∃ r state t, p.connectWithRetry start first = some (r, state, t) ∧
    p.Bounded start (p.dialled start first) r state

/-- The last attempt, which connects or ends late, is the first or comes before
the deadline with every backoff in full. -/
def LastInTime (p : ReconnectPolicy) (start : Nat) (as : Nat → Option Attempt) : Prop :=
  ∃ before a, Begins as (before ++ [a]) ∧ before.length + 1 < 2 ^ 32 ∧ (∀ b ∈ before, b.socket.isOk = false) ∧
    (a.socket.isOk = true ∨ start + p.deadlineNs ≤ p.fullDue before p.initialBackoffMs start + a.span) ∧
    (before = [] ∨ p.fullDue before p.initialBackoffMs start + a.late < start + p.deadlineNs)

theorem Begins.init {as : Nat → Option Attempt} {before after : List Attempt} {a : Attempt}
    (h : Begins as (before ++ a :: after)) : Begins as (before ++ [a]) := by
  intro k hk
  rw [List.length_append, List.length_singleton] at hk
  rw [h k (by rw [List.length_append, List.length_cons]; omega)]
  rcases Nat.lt_or_ge k before.length with hlt | hge
  · rw [List.getElem?_append_left hlt, List.getElem?_append_left hlt]
  · obtain rfl : k = before.length := by omega
    simp

theorem HardBounded.lastInTime {p : ReconnectPolicy} {start : Nat} {as : Nat → Option Attempt} (h : p.HardBounded start as) :
    p.LastInTime start as := by
  obtain ⟨first, hbegins, r, state, t, hretry, hbounded⟩ := h
  obtain ⟨before, a, after, rfl, hbefore, hlast, hstart, hlength⟩ := retry_split hretry hbounded.starts
  refine ⟨before, a, hbegins.init, ?_, hbefore, hlast, hstart⟩
  have hattempts := hbounded.attempts
  rw [dialled, hlength] at hattempts
  have hlt := state.attempts.toNat_lt
  omega

theorem LastInTime.hardBounded {p : ReconnectPolicy} {start : Nat} {as : Nat → Option Attempt} (h : p.LastInTime start as) :
    p.HardBounded start as := by
  obtain ⟨before, a, hbegins, hcount, hbefore, hlast, hstart⟩ := h
  obtain ⟨r, state, t, hretry⟩ := @retry_full _ _ _ _ _ { startedNs := start } _ hbefore hlast hstart
  have hmade : (p.dialled start (before ++ [a])).length = before.length + 1 ∧
      (∀ m ∈ (p.dialled start (before ++ [a])).tail, m.start < start + p.deadlineNs) ∧
      waited (p.dialled start (before ++ [a])) ≤ p.deadlineNs := by
    rcases hstart with rfl | hstart
    · have hone : ∃ m, p.dialled start [a] = [m] := by
        rw [dialled, made_cons, made, ite_self]
        exact ⟨_, rfl⟩
      obtain ⟨m, hm⟩ := hone
      rw [List.nil_append, hm]
      exact ⟨rfl, fun m' hm' => absurd hm' List.not_mem_nil, Nat.zero_le _⟩
    · obtain ⟨hlength, hstarts⟩ := made_full hbefore hstart
      refine ⟨hlength, fun m hm => hstarts m (List.mem_of_mem_tail hm), ?_⟩
      obtain ⟨m, ms, hms⟩ := List.exists_cons_of_length_eq_add_one hlength
      rw [hms] at hstarts
      have hwaited := waited_made hms hstarts
      have hdue := due_le_start hms
      rw [dialled, hms]
      omega
  refine ⟨before ++ [a], hbegins, r, state, t, hretry, hmade.2.1, retry_isOk_iff hretry, ?_, ?_, ?_, hmade.2.2⟩
  · intro hok
    cases r with
    | ok k => exact (retry_ok hretry).1
    | error e => cases hok
  · rintro e rfl
    exact ⟨retry_timeout hretry, (retry_error hretry).1⟩
  · rw [retry_attempts hretry]
    change (0 + UInt32.ofNat (p.dialled start (before ++ [a])).length).toNat = _
    rw [UInt32.zero_add, hmade.1]
    exact UInt32.toNat_ofNat_of_lt' hcount

/-- For every policy and every sequence of attempts, the budget of a reconnect
is a hard bound exactly if its last attempt is in time. -/
theorem hard_bounded_iff (p : ReconnectPolicy) (start : Nat) (as : Nat → Option Attempt) :
    p.HardBounded start as ↔ p.LastInTime start as :=
  ⟨HardBounded.lastInTime, LastInTime.hardBounded⟩

/-- With the default policy and attempts of 10 ms that are all refused, the
sixth backoff is cut, and the seventh attempt starts at the deadline. -/
theorem attempt_at_deadline : ¬ ∀ (p : ReconnectPolicy) (start : Nat) (as : Nat → Option Attempt), p.HardBounded start as := by
  intro hall
  obtain ⟨before, a, hbegins, -, -, hlast, hstart⟩ := (hall {} 0 fun _ => some Outage.refusal).lastInTime
  have hsame : ∀ b ∈ before ++ [a], b = Outage.refusal := by
    intro b hb
    obtain ⟨k, hk, rfl⟩ := List.mem_iff_getElem.1 hb
    have hread := hbegins k hk
    rw [List.getElem?_eq_getElem hk] at hread
    exact (Option.some.inj hread).symm
  obtain rfl : a = Outage.refusal := hsame a (List.mem_append_right _ List.mem_cons_self)
  obtain ⟨n, rfl⟩ : ∃ n, before = List.replicate n Outage.refusal :=
    ⟨before.length, List.eq_replicate_of_mem fun b hb => hsame b (List.mem_append_left _ hb)⟩
  rcases Nat.lt_or_ge n 6 with hfew | hmany
  · -- the attempt fails before the deadline
    revert hlast
    interval_cases n <;> decide
  · -- with full backoffs it is due behind the deadline
    obtain ⟨k, rfl⟩ := Nat.exists_eq_add_of_le' hmany
    have hdue : 30000000000 ≤ fullDue {} (List.replicate (k + 6) Outage.refusal) 500 0 := by
      simp only [List.replicate_succ, fullDue_cons]
      exact le_trans (by decide) (le_fullDue {} (List.replicate k Outage.refusal) _ _)
    rcases hstart with hnone | hstart
    · cases hnone
    · exact Nat.not_lt.2 hdue hstart

end ReconnectPolicy

end BistColo.App
