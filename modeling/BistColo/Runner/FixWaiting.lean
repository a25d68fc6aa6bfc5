import BistColo.Runner.FixReplay
/-!
# Waiting for FIX events

`match_expectation` of the FIX runner on a clock of nanoseconds. Events come in
a stream that may never end; only waiting takes time. Every event that is taken
starts the timeout anew, also one that does not count, so a stream of other
events keeps the runner waiting. `ends_in_time_iff` says which streams do not.
-/

open StreamKit

namespace BistColo.Runner

/-- An event, and how long it comes after the one before. -/
structure FixArrival where
  after : Nat
  event : FixEvent

/-- The events from the call on; those that are queued come at once. -/
abbrev FixStream := Nat → Option FixArrival

def msNs (ms : Int) : Nat := ms.toNat * 1000000

/-- The pause between two looks at the sessions. -/
def lookNs : Nat := msNs 50

namespace FixScenarioRunner

variable (s : FixStream) (exp : Expect)

/-! ## The timed runner -/

/-- `wait_for_event` for the event `k`, and when it returns. -/
def waitForEventAt (wait k now : Nat) : Option FixEvent × Nat :=
  match s k with
  | none => (none, now + wait)
  | some a => if a.after ≤ wait then (some a.event, now + a.after) else (none, now + wait)

/-- The loop over the events from the `k`-th on, if it ends within `fuel` of them. -/
def matchEventsAt (wait : Nat) : Nat → Nat → Nat → Nat → Option (Except String Unit × Nat)
  | _, 0, _, now => some (.ok (), now)
  | 0, _ + 1, _, _ => none
  | fuel + 1, needed + 1, k, now =>
    match waitForEventAt s wait k now with
    | (none, now) => some (.error ("timeout waiting for " ++ exp.msg), now)
    | (some ev, now) => matchEventsAt wait fuel (if counts exp ev then needed else needed + 1) (k + 1) now

/-- The loop of `fix_logout_complete`; `active` says when a client is Active. -/
def awaitLogoutAt (active : Nat → Bool) (deadline : Nat) : Nat → Nat → Option (Except String Unit × Nat)
  | 0, _ => none
  | fuel + 1, now =>
    if now < deadline then
      if active now then awaitLogoutAt active deadline fuel (now + lookNs) else some (.ok (), now)
    else some (.error "logout did not complete within timeout", now)

/-- `match_expectation`: what it returns and when, if it does. -/
def matchExpectationAt (active : Nat → Bool) (timeoutMs : Int) (fuel : Nat) : Option (Except String Unit × Nat) :=
  match exp.msg with
  | "server_heartbeat" => some (.ok (), 0)
  | "fix_logout_complete" => awaitLogoutAt active (msNs timeoutMs) fuel 0
  | _ => matchEventsAt s exp (msNs timeoutMs) fuel exp.needed 0 0

/-! ## The property -/

/-- It returns in time. -/
def EndsInTime (active : Nat → Bool) (timeoutMs : Int) : Prop :=
  ∃ fuel result t, matchExpectationAt s exp active timeoutMs fuel = some (result, t) ∧ t ≤ exp.needed * msNs timeoutMs

/-- When the last of the first `k` events comes. -/
def lastAt : Nat → Nat
  | 0 => 0
  | k + 1 => lastAt k + ((s k).map FixArrival.after).getD 0

/-- How many of the first `k` events count. -/
def counted : Nat → Nat
  | 0 => 0
  | k + 1 => counted k + if (s k).any (fun a => counts exp a.event) then 1 else 0

/-- At least `k` events come. -/
def Comes (k : Nat) : Prop := ∀ j < k, (s j).isSome

/-- Behind the first `k` events nothing comes for longer than `wait`. -/
def Silent (wait k : Nat) : Prop := ∀ a ∈ s k, wait < a.after

/-- As many events as are needed come by the bound, or a silence that is longer
than the timeout begins one timeout before it. -/
def EventsInTime (wait : Nat) : Prop :=
  ∃ k, Comes s k ∧ (exp.needed ≤ counted s exp k ∧ lastAt s k ≤ exp.needed * wait ∨
    Silent s wait k ∧ lastAt s k + wait ≤ exp.needed * wait)

/-- A look finds no client Active, or the last look is within the bound. -/
def LogoutInTime (active : Nat → Bool) (wait : Nat) : Prop :=
  (∃ j, j * lookNs < wait ∧ active (j * lookNs) = false) ∨ (wait + lookNs - 1) / lookNs * lookNs ≤ exp.needed * wait

def InTime (active : Nat → Bool) (timeoutMs : Int) : Prop :=
  match exp.msg with
  | "server_heartbeat" => True
  | "fix_logout_complete" => LogoutInTime exp active (msNs timeoutMs)
  | _ => EventsInTime s exp (msNs timeoutMs)

/-! ## Events -/

section Events

variable {s exp} {wait fuel needed k now m : Nat}

theorem lastAt_mono : Monotone (lastAt s) := monotone_nat_of_le_succ fun _ => Nat.le_add_right _ _

theorem lastAt_succ {a : FixArrival} (h : s k = some a) : lastAt s (k + 1) = lastAt s k + a.after := by
  rw [lastAt, h]
  rfl

theorem counted_succ {a : FixArrival} (h : s k = some a) (needed : Nat) :
    (if counts exp a.event then needed else needed + 1) + counted s exp (k + 1) = needed + 1 + counted s exp k := by
  rw [counted, h, Option.any_some]
  split <;> omega

theorem Comes.succ {a : FixArrival} (h : Comes s k) (ha : s k = some a) : Comes s (k + 1) := by
  intro j hj
  rcases Nat.lt_succ_iff_lt_or_eq.1 hj with hj | rfl
  · exact h j hj
  · rw [ha]
    rfl

/-- One turn: an event is taken in time, or a silence ends the loop. -/
theorem matchEventsAt_cases (s : FixStream) (exp : Expect) (wait fuel needed k now : Nat) :
    (∃ a, s k = some a ∧ a.after ≤ wait ∧ matchEventsAt s exp wait (fuel + 1) (needed + 1) k now =
      matchEventsAt s exp wait fuel (if counts exp a.event then needed else needed + 1) (k + 1) (now + a.after)) ∨
    (Silent s wait k ∧ matchEventsAt s exp wait (fuel + 1) (needed + 1) k now =
      some (.error ("timeout waiting for " ++ exp.msg), now + wait)) := by
  rw [matchEventsAt, waitForEventAt]
  cases h : s k with
  | none => exact .inr ⟨fun a ha => (Option.some_ne_none a (ha.symm.trans h)).elim, rfl⟩
  | some a =>
    dsimp only
    by_cases hafter : a.after ≤ wait
    · rw [if_pos hafter]
      exact .inl ⟨a, rfl, hafter, rfl⟩
    · rw [if_neg hafter]
      refine .inr ⟨?_, rfl⟩
      intro a' ha'
      cases ha'.symm.trans h
      exact Nat.not_le.1 hafter

/-- What the loop returns comes with the last event that was needed or behind a silence. -/
theorem matchEventsAt_returns {result : Except String Unit} {t : Nat} (hcomes : Comes s k)
    (h : matchEventsAt s exp wait fuel needed k (lastAt s k) = some (result, t)) :
    ∃ m, Comes s m ∧ (needed + counted s exp k ≤ counted s exp m ∧ t = lastAt s m ∨
      Silent s wait m ∧ t = lastAt s m + wait) := by
  induction fuel generalizing needed k with
  | zero =>
    cases needed with
    | zero =>
      cases h
      exact ⟨k, hcomes, .inl ⟨(Nat.zero_add _).le, rfl⟩⟩
    | succ needed => cases h
  | succ fuel ih =>
    cases needed with
    | zero =>
      cases h
      exact ⟨k, hcomes, .inl ⟨(Nat.zero_add _).le, rfl⟩⟩
    | succ needed =>
      rcases matchEventsAt_cases s exp wait fuel needed k (lastAt s k) with ⟨a, ha, -, hturn⟩ | ⟨hsilent, hturn⟩
      · rw [hturn, ← lastAt_succ ha] at h
        rw [← counted_succ ha]
        exact ih (hcomes.succ ha) h
      · rw [hturn] at h
        cases h
        exact ⟨k, hcomes, .inr ⟨hsilent, rfl⟩⟩

/-- The loop returns by the event `m` if enough of the events up to there count,
or else one timeout behind it if a silence follows. -/
theorem matchEventsAt_ends (hkm : k ≤ m) (hcomes : Comes s m) {bound : Nat} (hlast : lastAt s m ≤ bound)
    (hend : needed + counted s exp k ≤ counted s exp m ∨ Silent s wait m ∧ lastAt s m + wait ≤ bound) :
    ∃ result t, matchEventsAt s exp wait (m + 1 - k) needed k (lastAt s k) = some (result, t) ∧ t ≤ bound := by
  induction hd : m - k generalizing needed k with
  | zero =>
    obtain rfl : k = m := by omega
    cases needed with
    | zero =>
      rw [Nat.add_sub_cancel_left]
      exact ⟨_, _, rfl, hlast⟩
    | succ needed =>
      obtain ⟨hsilent, hbound⟩ := hend.resolve_left (by omega)
      rw [Nat.add_sub_cancel_left]
      rcases matchEventsAt_cases s exp wait 0 needed k (lastAt s k) with ⟨a, ha, hafter, -⟩ | ⟨-, hturn⟩
      · exact absurd hafter (Nat.not_le.2 (hsilent a ha))
      · exact ⟨_, _, hturn, hbound⟩
  | succ d ih =>
    have hmk : m + 1 - k = (m + 1 - (k + 1)) + 1 := by omega
    have hlater := lastAt_mono (s := s) hkm
    cases needed with
    | zero =>
      rw [hmk]
      exact ⟨_, _, rfl, hlater.trans hlast⟩
    | succ needed =>
      rw [hmk]
      rcases matchEventsAt_cases s exp wait (m + 1 - (k + 1)) needed k (lastAt s k) with
        ⟨a, ha, -, hturn⟩ | ⟨hsilent, hturn⟩
      · rw [hturn, ← lastAt_succ ha]
        apply ih (by omega) _ (by omega)
        rwa [counted_succ ha]
      · -- the silence ends before the next event
        obtain ⟨a, ha⟩ := Option.isSome_iff_exists.1 (hcomes k (by omega))
        have hnext := lastAt_mono (s := s) (show k + 1 ≤ m by omega)
        rw [lastAt_succ ha] at hnext
        have hshort := hsilent a ha
        exact ⟨_, _, hturn, by omega⟩

theorem events_end_iff : (∃ fuel result t, matchEventsAt s exp wait fuel exp.needed 0 0 = some (result, t) ∧
    t ≤ exp.needed * wait) ↔ EventsInTime s exp wait := by
  constructor
  · rintro ⟨fuel, result, t, h, ht⟩
    obtain ⟨m, hcomes, ⟨hcounted, rfl⟩ | ⟨hsilent, rfl⟩⟩ := matchEventsAt_returns (k := 0) nofun h
    · exact ⟨m, hcomes, .inl ⟨hcounted, ht⟩⟩
    · exact ⟨m, hcomes, .inr ⟨hsilent, ht⟩⟩
  · rintro ⟨m, hcomes, ⟨hcounted, hlast⟩ | ⟨hsilent, hlast⟩⟩
    · exact ⟨_, matchEventsAt_ends (Nat.zero_le m) hcomes hlast (.inl hcounted)⟩
    · exact ⟨_, matchEventsAt_ends (Nat.zero_le m) hcomes ((Nat.le_add_right _ _).trans hlast) (.inr ⟨hsilent, hlast⟩)⟩

/-- The timed loop is that of the runner, for the events that it takes. -/
theorem matchEventsAt_verdict {result : Except String Unit} {t : Nat}
    (h : matchEventsAt s exp wait fuel needed k now = some (result, t)) :
    ∃ evs : List FixEvent, (∀ j < evs.length, evs[j]? = (s (k + j)).map FixArrival.event) ∧
      ∀ r : FixScenarioRunner, r.events = [] → r.arrivals = evs.map ([·]) → (matchEvents exp r.left needed r).1 = result := by
  have hleft : ∀ (r : FixScenarioRunner) (evs : List FixEvent), r.events = [] → r.arrivals = evs.map ([·]) →
      r.left = evs.length := by
    intro r evs hevents harrivals
    rw [left, hevents, harrivals]
    simp [List.length_flatten, Function.comp_def]
  induction fuel generalizing needed k now with
  | zero =>
    cases needed with
    | zero =>
      cases h
      exact ⟨[], nofun, fun r _ _ => by rw [matchEvents]⟩
    | succ needed => cases h
  | succ fuel ih =>
    cases needed with
    | zero =>
      cases h
      exact ⟨[], nofun, fun r _ _ => by rw [matchEvents]⟩
    | succ needed =>
      rcases matchEventsAt_cases s exp wait fuel needed k now with ⟨a, ha, -, hturn⟩ | ⟨-, hturn⟩
      · rw [hturn] at h
        obtain ⟨evs, hevs, hverdict⟩ := ih h
        refine ⟨a.event :: evs, ?_, ?_⟩
        · intro j hj
          cases j with
          | zero => exact (congrArg (Option.map FixArrival.event) ha).symm
          | succ j =>
            rw [List.getElem?_cons_succ, hevs j (Nat.lt_of_succ_lt_succ hj), Nat.add_right_comm]
            rfl
        · intro r hevents harrivals
          obtain ⟨r', hwait, hevents', harrivals'⟩ : ∃ r', r.waitForEvent = (some a.event, r') ∧ r'.events = [] ∧
              r'.arrivals = evs.map ([·]) := by
            simp [waitForEvent, deliver, push, hevents, harrivals]
          rw [hleft r _ hevents harrivals, List.length_cons, matchEvents, hwait]
          dsimp only
          rw [← hleft r' evs hevents' harrivals']
          exact hverdict r' hevents' harrivals'
      · rw [hturn] at h
        cases h
        refine ⟨[], nofun, fun r hevents harrivals => ?_⟩
        rw [hleft r _ hevents harrivals, List.length_nil, matchEvents]

end Events

/-! ## Logouts -/

section Logout

variable {active : Nat → Bool} {deadline fuel j m : Nat}

/-- The loop ends at a look that finds no client Active, or at the first one behind the deadline. -/
theorem awaitLogoutAt_returns {result : Except String Unit} {t : Nat}
    (h : awaitLogoutAt active deadline fuel (j * lookNs) = some (result, t)) :
    ∃ i, j ≤ i ∧ t = i * lookNs ∧ (t < deadline ∧ active t = false ∨
      deadline ≤ t ∧ (i = j ∨ (i - 1) * lookNs < deadline)) := by
  induction fuel generalizing j with
  | zero => cases h
  | succ fuel ih =>
    rw [awaitLogoutAt] at h
    split at h
    · rename_i hearly
      split at h
      · rw [← Nat.succ_mul] at h
        obtain ⟨i, hji, ht, hend⟩ := ih h
        refine ⟨i, Nat.le_of_succ_le hji, ht, hend.imp_right (And.imp_right fun hi => .inr ?_)⟩
        rcases hi with rfl | hi
        · exact hearly
        · exact hi
      · rename_i hidle
        cases h
        exact ⟨j, Nat.le_refl j, rfl, .inl ⟨hearly, Bool.eq_false_iff.2 hidle⟩⟩
    · rename_i hlate
      cases h
      exact ⟨j, Nat.le_refl j, rfl, .inr ⟨Nat.not_lt.1 hlate, .inl rfl⟩⟩

/-- The loop ends by any look that would end it. -/
theorem awaitLogoutAt_ends (active : Nat → Bool) (deadline : Nat) (hjm : j ≤ m)
    (hend : deadline ≤ m * lookNs ∨ active (m * lookNs) = false) :
    ∃ result t, awaitLogoutAt active deadline (m + 1 - j) (j * lookNs) = some (result, t) ∧ t ≤ m * lookNs := by
  induction hd : m - j generalizing j with
  | zero =>
    obtain rfl : j = m := by omega
    rw [Nat.add_sub_cancel_left, awaitLogoutAt]
    split
    · rename_i hearly
      rw [hend.resolve_left (Nat.not_le.2 hearly)]
      exact ⟨_, _, rfl, Nat.le_refl _⟩
    · exact ⟨_, _, rfl, Nat.le_refl _⟩
  | succ d ih =>
    have hmj : m + 1 - j = (m + 1 - (j + 1)) + 1 := by omega
    have hlook : j * lookNs ≤ m * lookNs := Nat.mul_le_mul_right _ hjm
    rw [hmj, awaitLogoutAt]
    split
    · split
      · rw [← Nat.succ_mul]
        exact ih (by omega) (by omega)
      · exact ⟨_, _, rfl, hlook⟩
    · exact ⟨_, _, rfl, hlook⟩

theorem lookNs_pos : 0 < lookNs := by decide

/-- The first look behind the deadline. -/
theorem last_look {i : Nat} (hlate : deadline ≤ i * lookNs) (hfirst : i = 0 ∨ (i - 1) * lookNs < deadline) :
    i = (deadline + lookNs - 1) / lookNs := by
  have hpos := lookNs_pos
  symm
  apply Nat.div_eq_of_lt_le
  · rcases hfirst with rfl | hfirst
    · rw [Nat.zero_mul]
      exact Nat.zero_le _
    · rw [Nat.sub_mul, Nat.one_mul] at hfirst
      omega
  · rw [Nat.succ_mul]
    omega

theorem logout_ends_iff (exp : Expect) : (∃ fuel result t, awaitLogoutAt active deadline fuel 0 = some (result, t) ∧
    t ≤ exp.needed * deadline) ↔ LogoutInTime exp active deadline := by
  constructor
  · rintro ⟨fuel, result, t, h, ht⟩
    rw [← Nat.zero_mul lookNs] at h
    obtain ⟨i, -, rfl, ⟨hearly, hidle⟩ | ⟨hlate, hfirst⟩⟩ := awaitLogoutAt_returns h
    · exact .inl ⟨i, hearly, hidle⟩
    · rw [last_look hlate hfirst] at ht
      exact .inr ht
  · have hneeded : 1 ≤ exp.needed := by
      unfold Expect.needed
      omega
    have hone : deadline ≤ exp.needed * deadline := Nat.le_mul_of_pos_left deadline hneeded
    rintro (⟨j, hearly, hidle⟩ | hlast)
    · obtain ⟨result, t, h, ht⟩ := awaitLogoutAt_ends active deadline (Nat.zero_le j) (.inr hidle)
      rw [Nat.zero_mul] at h
      exact ⟨_, result, t, h, ht.trans (hearly.le.trans hone)⟩
    · have hlate : deadline ≤ (deadline + lookNs - 1) / lookNs * lookNs := by
        have hdiv := Nat.div_add_mod (deadline + lookNs - 1) lookNs
        have hmod := Nat.mod_lt (deadline + lookNs - 1) lookNs_pos
        rw [Nat.mul_comm] at hdiv
        omega
      obtain ⟨result, t, h, ht⟩ := awaitLogoutAt_ends active deadline (Nat.zero_le _) (.inl hlate)
      rw [Nat.zero_mul] at h
      exact ⟨_, result, t, h, ht.trans hlast⟩

end Logout

/-! ## The bound -/

/-- For every expectation, timeout and stream of events, the runner returns in
time exactly if the events come in time or fall silent in time. -/
theorem ends_in_time_iff (s : FixStream) (exp : Expect) (active : Nat → Bool) (timeoutMs : Int) :
    EndsInTime s exp active timeoutMs ↔ InTime s exp active timeoutMs := by
  unfold EndsInTime InTime matchExpectationAt
  split
  · exact iff_of_true ⟨0, _, _, rfl, Nat.zero_le _⟩ trivial
  · exact logout_ends_iff exp
  · exact events_end_iff

/-- Another event every 4 seconds. -/
def chatter : FixStream := fun _ => some ⟨msNs 4000, .amrAck {}⟩

/-- What the event does not count for is still waited for. -/
theorem chatter_waits (fuel needed k now : Nat) :
    matchEventsAt chatter { msg := "fix_execution_report" } (msNs 5000) fuel (needed + 1) k now = none := by
  induction fuel generalizing k now with
  | zero => rfl
  | succ fuel ih =>
    have hother : counts { msg := "fix_execution_report" } (.amrAck {}) = false := by decide
    rw [matchEventsAt, waitForEventAt, chatter]
    dsimp only
    rw [if_pos (by decide)]
    dsimp only
    rw [hother]
    exact ih (k + 1) _

/-- With a timeout of 5 seconds the runner waits for an execution report forever. -/
theorem waits_forever :
    (∀ fuel, matchExpectationAt chatter { msg := "fix_execution_report" } (fun _ => true) 5000 fuel = none) ∧
      ¬ ∀ (s : FixStream) (exp : Expect) (active : Nat → Bool) (timeoutMs : Int), EndsInTime s exp active timeoutMs := by
  have hnever : ∀ fuel, matchExpectationAt chatter { msg := "fix_execution_report" } (fun _ => true) 5000 fuel = none :=
    fun fuel => chatter_waits fuel 0 0 0
  refine ⟨hnever, ?_⟩
  intro hall
  obtain ⟨fuel, result, t, h, -⟩ := hall chatter { msg := "fix_execution_report" } (fun _ => true) 5000
  rw [hnever fuel] at h
  cases h

end FixScenarioRunner

end BistColo.Runner
