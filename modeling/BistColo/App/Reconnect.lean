import BistColo.App.Live
/-!
# The reconnect budget

`app/reconnect_policy.hpp`, `connect_with_retry` and the rebuilds of
`LiveTransportControl` on a clock of nanoseconds. An attempt is given by how
late it comes after the moment it is due, how long it takes and what it comes
back with. `budget_kept` bounds the time to the report of a CoD risk over a
whole outage, as long as no attempt connects before it: each rebuild starts a
budget of its own, so in `budget_starts_anew` a login that fails doubles it.
-/

open StreamKit

namespace BistColo.App

open Ouch

/-! ## The policy -/

structure ReconnectPolicy where
  deadlineMs : UInt32 := 30000
  initialBackoffMs : UInt32 := 500
  maxBackoffMs : UInt32 := 15000

structure ReconnectState where
  startedNs : Nat := 0
  attempts : UInt32 := 0
  codRisk : Bool := false

/-- An attempt to connect. -/
structure Attempt where
  late : Nat := 0
  took : Nat
  socket : Result TcpSocket

/-- The duration of an attempt, from the moment it is due. -/
def Attempt.span (a : Attempt) : Nat := a.late + a.took

namespace ReconnectPolicy

def deadlineNs (p : ReconnectPolicy) : Nat := p.deadlineMs.toNat * 1000000

/-- The backoff is doubled in 32 bits, up to the maximum. -/
def nextBackoff (p : ReconnectPolicy) (backoff : UInt32) : UInt32 :=
  if backoff * 2 > p.maxBackoffMs then p.maxBackoffMs else backoff * 2

def elapsed (attempts : UInt32) (last : Error) : Error :=
  makeError .timeout ("CoD reconnect deadline elapsed after " ++ text (decText attempts.toNat) ++
    " attempt(s); last: " ++ last.detail)

/-- The loop of `reconnect_with_deadline`, with the attempts that it makes, the
next one due at `due`. What it returns comes with the time; without another
attempt it is still going on. -/
def retry (p : ReconnectPolicy) (deadline : Nat) :
    List Attempt → UInt32 → Nat → ReconnectState → Option (Result TcpSocket × ReconnectState × Nat)
  | [], _, _, _ => none
  | a :: as, backoff, due, state =>
    let state := { state with attempts := state.attempts + 1 }
    let now := due + a.span
    match a.socket with
    | .ok socket => some (.ok socket, state, now)
    | .error e =>
      if deadline ≤ now then some (.error (elapsed state.attempts e), { state with codRisk := true }, now)
      else
        let sleep := min (backoff.toNat * 1000000) (deadline - now)
        retry p deadline as (p.nextBackoff backoff) (now + sleep) state

/-- `connect_with_retry`, from the time `start` on. -/
def connectWithRetry (p : ReconnectPolicy) (start : Nat) (as : List Attempt) :
    Option (Result TcpSocket × ReconnectState × Nat) :=
  p.retry (start + p.deadlineNs) as p.initialBackoffMs start { startedNs := start }

/-! ## One dial -/

/-- A dial ends one attempt after its deadline at the latest. -/
theorem retry_time {p : ReconnectPolicy} {deadline c : Nat} {as : List Attempt} (hspan : ∀ a ∈ as, a.span ≤ c)
    {backoff : UInt32} {due : Nat} {state : ReconnectState} (hdue : due ≤ deadline) {r : Result TcpSocket}
    {state' : ReconnectState} {t : Nat} (h : p.retry deadline as backoff due state = some (r, state', t)) :
    t ≤ deadline + c := by
  induction as generalizing backoff due state with
  | nil => cases h
  | cons a as ih =>
    have ha := hspan a List.mem_cons_self
    unfold retry at h
    dsimp only at h
    split at h
    · cases h
      omega
    · split at h
      · cases h
        omega
      · rename_i hbefore
        apply ih (fun a' ha' => hspan a' (List.mem_cons_of_mem a ha')) _ h
        -- the sleep ends at the deadline
        have hmin := Nat.min_le_right (backoff.toNat * 1000000) (deadline - (due + a.span))
        omega

/-- A dial that fails has used its whole budget and reports the risk. -/
theorem retry_error {p : ReconnectPolicy} {deadline : Nat} {as : List Attempt} {backoff : UInt32} {due : Nat}
    {state state' : ReconnectState} {e : Error} {t : Nat}
    (h : p.retry deadline as backoff due state = some (.error e, state', t)) :
    state'.codRisk = true ∧ deadline ≤ t := by
  induction as generalizing backoff due state with
  | nil => cases h
  | cons a as ih =>
    unfold retry at h
    dsimp only at h
    split at h
    · cases h
    · split at h
      · rename_i hafter
        cases h
        exact ⟨rfl, hafter⟩
      · exact ih h

/-- A dial connects by an attempt that does. -/
theorem retry_ok {p : ReconnectPolicy} {deadline : Nat} {as : List Attempt} {backoff : UInt32} {due : Nat}
    {state state' : ReconnectState} {socket : TcpSocket} {t : Nat}
    (h : p.retry deadline as backoff due state = some (.ok socket, state', t)) :
    state'.codRisk = state.codRisk ∧ ∃ a ∈ as, a.socket = .ok socket := by
  induction as generalizing backoff due state with
  | nil => cases h
  | cons a as ih =>
    unfold retry at h
    dsimp only at h
    split at h
    · rename_i hsocket
      cases h
      exact ⟨rfl, a, List.mem_cons_self, hsocket⟩
    · split at h
      · cases h
      · obtain ⟨hrisk, a', ha', hsocket⟩ := ih h
        exact ⟨hrisk, a', List.mem_cons_of_mem a ha', hsocket⟩

/-- A dial whose attempts are all refused comes back with the risk. -/
theorem retry_refused {p : ReconnectPolicy} {deadline : Nat} {as : List Attempt} {backoff : UInt32} {due : Nat}
    {state state' : ReconnectState} {socket : Except Error TcpSocket} {t : Nat}
    (h : p.retry deadline as backoff due state = some (socket, state', t))
    (hrefused : ∀ a ∈ as, a.socket.isOk = false) : state'.codRisk = true := by
  cases socket with
  | ok k =>
    obtain ⟨-, a, ha, hsocket⟩ := retry_ok h
    have hno := hrefused a ha
    rw [hsocket] at hno
    cases hno
  | error e => exact (retry_error h).1

/-- A dial ends: every attempt brings the deadline nearer. -/
theorem retry_ends (p : ReconnectPolicy) {deadline : Nat} {as : List Attempt} (hspan : ∀ a ∈ as, 0 < a.span)
    (backoff : UInt32) {due : Nat} (state : ReconnectState) (hdue : due ≤ deadline) (hlen : deadline < due + as.length) :
    (p.retry deadline as backoff due state).isSome := by
  induction as generalizing backoff due state with
  | nil =>
    rw [List.length_nil] at hlen
    omega
  | cons a as ih =>
    have ha := hspan a List.mem_cons_self
    unfold retry
    dsimp only
    split
    · rfl
    · split
      · rfl
      · have hmin := Nat.min_le_right (backoff.toNat * 1000000) (deadline - (due + a.span))
        rw [List.length_cons] at hlen
        apply ih (fun a' ha' => hspan a' (List.mem_cons_of_mem a ha'))
        all_goals omega

end ReconnectPolicy

/-! ## Rebuilds -/

inductive RebuildCall
  | reconnectAndLogin (password session : Bytes) (sequence : UInt64)
  | switchToSecondary (secondary : Bool) (session : Bytes) (sequence : UInt64)

namespace RebuildCall

def call (c : LiveClient) (dial : LiveClient.Dial) : RebuildCall → Result Unit × LiveClient
  | reconnectAndLogin password session sequence => c.reconnectAndLogin password session sequence dial
  | switchToSecondary secondary session sequence => c.switchToSecondary secondary session sequence dial

/-- A switch to a target without an address does not dial. -/
def dials (c : LiveClient) : RebuildCall → Bool
  | reconnectAndLogin .. => true
  | switchToSecondary secondary .. => decide ({ c with onSecondary := secondary }.activeHost ≠ [])

end RebuildCall

/-- A call of the control, and what it meets: the time since the call before,
the attempts to connect, the login on the socket and how long that takes. -/
structure Rebuild where
  call : RebuildCall
  pause : Nat := 0
  attempts : List Attempt
  clock : Clock := ⟨fun _ => 0, 0⟩
  patience : Nat := 0
  loginTook : Nat := 0

/-- A client whose session is lost. -/
structure Outage where
  client : LiveClient
  policy : ReconnectPolicy := {}
  lastState : ReconnectState := {}
  now : Nat := 0
  /-- when the first dial began -/
  began : Option Nat := none
  /-- when `cod_risk` was first set since then -/
  reportedAt : Option Nat := none

namespace Outage

/-- What a dial from `start` on leaves, and the login on its socket. -/
def dialled (o : Outage) (r : Rebuild) (start : Nat) (d : Result TcpSocket × ReconnectState × Nat) :
    Result Unit × Outage :=
  let p := r.call.call o.client ⟨d.1, r.clock, r.patience⟩
  (p.1,
    { o with
      client := p.2
      lastState := d.2.1
      now := if d.1.isOk then d.2.2 + r.loginTook else d.2.2
      began := o.began.or (some start)
      reportedAt := o.reportedAt.or (if d.2.1.codRisk then some d.2.2 else none) })

/-- A call, if it returns. -/
def exec (o : Outage) (r : Rebuild) : Option (Result Unit × Outage) :=
  let start := o.now + r.pause
  if r.call.dials o.client then (o.policy.connectWithRetry start r.attempts).map (o.dialled r start)
  else
    -- no socket is looked at
    let p := r.call.call o.client ⟨.error (makeError .io ""), r.clock, r.patience⟩
    some (p.1, { o with client := p.2, now := start })

def step (o : Outage) (r : Rebuild) : Outage :=
  match o.exec r with
  | some (_, o) => o
  | none => o

/-- The call returns an error. -/
def fails (o : Outage) (r : Rebuild) : Bool :=
  match o.exec r with
  | some (.error _, _) => true
  | _ => false

/-! ## The property -/

/-- The risk is reported by one attempt after the deadline, counted from the
first dial, and before the report the time is not yet over. -/
def Budgeted (c : Nat) (o : Outage) : Prop :=
  ∀ start ∈ o.began, (∀ t ∈ o.reportedAt, t ≤ start + o.policy.deadlineNs + c) ∧
    (o.reportedAt = none → o.now ≤ start + o.policy.deadlineNs + c)

/-- Until the risk is reported, no attempt connects. -/
def Unanswered (o : Outage) (r : Rebuild) : Prop :=
  o.reportedAt = none → r.call.dials o.client = true → ∀ a ∈ r.attempts, a.socket.isOk = false

/-- Nothing has been dialled since the session was lost. -/
def Fresh (o : Outage) : Prop := o.began = none ∧ o.reportedAt = none

/-- Nothing has been dialled yet, or the first dial has reported the risk. -/
def Kept (c : Nat) (o : Outage) : Prop :=
  o.Fresh ∨ ∃ start t, o.began = some start ∧ o.reportedAt = some t ∧ t ≤ start + o.policy.deadlineNs + c

theorem Kept.budgeted {c : Nat} {o : Outage} (h : o.Kept c) : o.Budgeted c := by
  intro start hstart
  rcases h with ⟨hnone, -⟩ | ⟨start', t, hbegan, hreported, ht⟩
  · rw [hnone] at hstart
    cases hstart
  · cases hbegan.symm.trans hstart
    constructor
    · intro t' ht'
      cases hreported.symm.trans ht'
      exact ht
    · intro hno
      cases hreported.symm.trans hno

/-- A call dials and comes back, or it leaves the reports as they are. -/
theorem step_cases (o : Outage) (r : Rebuild) :
    ((o.step r).policy = o.policy ∧ (o.step r).began = o.began ∧ (o.step r).reportedAt = o.reportedAt) ∨
      (r.call.dials o.client = true ∧ ∃ d, o.policy.connectWithRetry (o.now + r.pause) r.attempts = some d ∧
        o.step r = (o.dialled r (o.now + r.pause) d).2) := by
  unfold step exec
  dsimp only
  cases hdials : r.call.dials o.client with
  | false => exact .inl ⟨rfl, rfl, rfl⟩
  | true =>
    cases hd : o.policy.connectWithRetry (o.now + r.pause) r.attempts with
    | none => exact .inl ⟨rfl, rfl, rfl⟩
    | some d => exact .inr ⟨rfl, d, rfl, rfl⟩

theorem Kept.step {c : Nat} {o : Outage} (h : o.Kept c) {r : Rebuild} (hspan : ∀ a ∈ r.attempts, a.span ≤ c)
    (hquiet : o.Unanswered r) : (o.step r).Kept c := by
  rcases o.step_cases r with ⟨hpolicy, hbegan, hreported⟩ | ⟨hdials, ⟨socket, state, t⟩, hd, hstep⟩
  · rw [Kept, Fresh, hpolicy, hbegan, hreported]
    exact h
  · rw [hstep]
    rcases h with ⟨hnone, hunreported⟩ | ⟨start, t', hbegan, hreported, ht'⟩
    · -- the first dial: every attempt fails, so it ends with the report
      have hrefused := hquiet hunreported hdials
      have htime := ReconnectPolicy.retry_time hspan (Nat.le_add_right _ _) hd
      have hrisk := ReconnectPolicy.retry_refused hd hrefused
      refine .inr ⟨o.now + r.pause, t, ?_, ?_, htime⟩
      · simp [dialled, hnone]
      · simp [dialled, hunreported, hrisk]
    · refine .inr ⟨start, t', ?_, ?_, ht'⟩
      · simp [dialled, hbegan]
      · simp [dialled, hreported]

/-- A rebuild that reports the risk does so after a whole deadline of its own. -/
theorem own_deadline {o : Outage} {r : Rebuild} (h : o.reportedAt = none) {t : Nat} (ht : (o.step r).reportedAt = some t) :
    o.now + r.pause + o.policy.deadlineNs ≤ t := by
  rcases o.step_cases r with ⟨-, -, hreported⟩ | ⟨-, ⟨socket, state, t'⟩, hd, hstep⟩
  · rw [hreported, h] at ht
    cases ht
  · rw [hstep] at ht
    cases socket with
    | ok s =>
      have hrisk := (ReconnectPolicy.retry_ok hd).1
      simp [dialled, h, hrisk] at ht
    | error e =>
      obtain ⟨hrisk, hlate⟩ := ReconnectPolicy.retry_error hd
      simp only [dialled, h, hrisk, Option.none_or, if_true, Option.some.injEq] at ht
      rw [← ht]
      exact hlate

/-- A rebuild whose attempts are all refused comes to the report. -/
theorem refused_reports {o : Outage} {r : Rebuild} (hdials : r.call.dials o.client = true)
    (hrefused : ∀ a ∈ r.attempts, a.socket.isOk = false) (hspan : ∀ a ∈ r.attempts, 0 < a.span)
    (hlen : o.policy.deadlineNs < r.attempts.length) : (o.step r).reportedAt.isSome := by
  have hends : (o.policy.connectWithRetry (o.now + r.pause) r.attempts).isSome := by
    apply ReconnectPolicy.retry_ends _ hspan
    all_goals omega
  obtain ⟨⟨socket, state, t⟩, hd⟩ := Option.isSome_iff_exists.1 hends
  have hstep : o.step r = (o.dialled r (o.now + r.pause) (socket, state, t)).2 := by
    unfold step exec
    dsimp only
    rw [if_pos hdials, hd]
    rfl
  have hrisk := ReconnectPolicy.retry_refused hd hrefused
  rw [hstep]
  cases hreported : o.reportedAt <;> simp [dialled, hreported, hrisk]

/-- In every run of an outage in which no attempt connects before the report,
the deadline is kept in every state. -/
theorem budget_kept {o : Outage} (h : o.Fresh) {c : Nat} {rs : List Rebuild}
    (hspan : ∀ r ∈ rs, ∀ a ∈ r.attempts, a.span ≤ c) (hquiet : AllAlong step Unanswered o rs) :
    AllAlong step (fun o r => (o.step r).Budgeted c) o rs := by
  have hkept : o.Kept c := .inl h
  clear h
  induction rs generalizing o with
  | nil => trivial
  | cons r rs ih =>
    have hnext := hkept.step (hspan r List.mem_cons_self) hquiet.1
    exact ⟨hnext.budgeted, ih (fun r' hr' => hspan r' (List.mem_cons_of_mem r hr')) hquiet.2 hnext⟩

/-- A client with two gateways, whose session is lost. -/
def lostSession : Outage where
  client :=
    { hostPrimary := ascii "10.57.3.146"
      hostSecondary := ascii "10.57.3.147"
      onSecondary := false
      baseLp := { username := ascii "TEST01", password := ascii "123456" }
      hbSendNs := 800000000
      store := { path := "cursor" }
      disk := fun _ => ⟨.ok, 0, 0⟩ }

/-- An attempt of 10 ms that is refused. -/
def refusal : Attempt := { took := 10000000, socket := .error (makeError .io "connect failed: Connection refused") }

/-- With the default policy a dial makes seven such attempts. -/
def allRefused (call : RebuildCall) : Rebuild := { call, attempts := List.replicate 7 refusal }

theorem budget_kept_lostSession :
    AllAlong step (fun o r => (o.step r).Budgeted 10000000) lostSession
      [allRefused (.reconnectAndLogin [] [] 0), allRefused (.switchToSecondary true [] 0)] :=
  budget_kept ⟨rfl, rfl⟩ (by decide) ⟨fun _ _ => by decide, fun _ _ => by decide, trivial⟩

/-- An attempt connects at once, and the gateway is silent for 5 seconds. -/
def silentLogin : Rebuild where
  call := .reconnectAndLogin [] [] 0
  attempts := [{ took := 10000000, socket := .ok {} }]
  loginTook := 5000000000

/-- After a login that times out, the next rebuild reports the risk 35 seconds
after the outage began. -/
theorem budget_starts_anew : ¬ ∀ (o : Outage) (c : Nat) (rs : List Rebuild), o.Fresh →
    (∀ r ∈ rs, ∀ a ∈ r.attempts, a.span ≤ c) → AllAlong step (fun o r => o.fails r = true) o rs →
    AllAlong step (fun o r => (o.step r).Budgeted c) o rs := by
  intro h
  have hrun := h lostSession 10000000 [silentLogin, allRefused (.switchToSecondary true [] 0)] ⟨rfl, rfl⟩ (by decide)
    (by decide +kernel)
  have hlate := (hrun.2.1 0 rfl).1 35020000000 (by decide +kernel)
  revert hlate
  decide

end Outage

end BistColo.App
