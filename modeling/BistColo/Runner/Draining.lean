import Mathlib.Data.List.Rotate
import BistColo.Runner.Duplicates
/-!
# The drain loop of `cancel_by_order_id`

The loop takes the events from the queue one after the other and puts each back
behind the others, until the queue is empty or holds more than 1024. Nothing
leaves the queue, so it ends at once or after one event or never. `rotate` is
what a loop that ends leaves (`rotate_eq_some_iff`).
-/

open StreamKit

namespace BistColo.Runner.ScenarioRunner

/-- One turn of the loop of `run_cancel_id`: `ev` goes behind the others. -/
def turn (r : ScenarioRunner) (ev : SessionEvent) (rest : List SessionEvent) : ScenarioRunner :=
  { r.updateIndices ev with events := rest ++ [ev] }

/-- The loop, of at most so many turns. -/
def drain : Nat → ScenarioRunner → Option ScenarioRunner
  | fuel, r =>
    match r.events with
    | [] => some r
    | ev :: rest =>
      match fuel with
      | 0 => none
      | fuel + 1 =>
        let r := r.turn ev rest
        if 1024 < r.events.length then some r else drain fuel r

/-- `run_cancel_id` behind its loop. -/
def lookUp (s : Step) (a : CancelByOrderIdArgs) (r : ScenarioRunner) : StepResult × ScenarioRunner :=
  match r.tokenIndex a.tokenRef with
  | none => (s.failed ("token_ref " ++ text a.tokenRef ++ " unknown to runner"), r)
  | some (id, book, side) =>
    let p := cancelById r.client r.now book side id
    ofCall s (p.1, r.tick.withClient p.2)

/-! ## The loop and its limit -/

theorem turn_eq (r : ScenarioRunner) (ev : SessionEvent) (rest : List SessionEvent) :
    { r with events := rest ++ [ev] }.updateIndices ev = r.turn ev rest := by
  cases ev <;> rfl

theorem length_turn (rest : List SessionEvent) (ev : SessionEvent) : (rest ++ [ev]).length = (ev :: rest).length :=
  List.length_append

/-- A queue of 1 to 1024 events is turned for ever. -/
theorem drain_short (fuel : Nat) {r : ScenarioRunner} (hne : r.events ≠ []) (hlen : r.events.length ≤ 1024) :
    drain fuel r = none := by
  induction fuel generalizing r with
  | zero =>
    unfold drain
    split
    · contradiction
    · rfl
  | succ fuel ih =>
    unfold drain
    split
    · contradiction
    · rename_i ev rest hevents
      have hturn : (rest ++ [ev]).length ≤ 1024 := by
        rw [length_turn, ← hevents]
        exact hlen
      dsimp only [turn]
      rw [if_neg (Nat.not_lt.2 hturn)]
      apply ih
      · exact List.append_ne_nil_of_right_ne_nil _ (List.cons_ne_nil _ _)
      · exact hturn

/-- A longer one is turned once. -/
theorem drain_long (fuel : Nat) {r : ScenarioRunner} {ev : SessionEvent} {rest : List SessionEvent}
    (hevents : r.events = ev :: rest) (hlen : 1024 < r.events.length) :
    drain (fuel + 1) r = some (r.turn ev rest) := by
  rw [hevents, ← length_turn] at hlen
  unfold drain
  rw [hevents]
  exact if_pos hlen

theorem rotate_cons {r : ScenarioRunner} {ev : SessionEvent} {rest : List SessionEvent} (hevents : r.events = ev :: rest) :
    r.rotate = if 1024 < r.events.length then some (r.turn ev rest) else none := by
  unfold rotate
  simp only [hevents, length_turn, turn_eq]

/-- The loop ends exactly with what `rotate` says. -/
theorem rotate_eq_some_iff (r r' : ScenarioRunner) : r.rotate = some r' ↔ ∃ fuel, drain fuel r = some r' := by
  cases hevents : r.events with
  | nil =>
    have hrotate : r.rotate = some r := by
      unfold rotate
      rw [hevents]
    have hdrain : ∀ fuel, drain fuel r = some r := by
      intro fuel
      unfold drain
      rw [hevents]
    simp only [hrotate, hdrain, exists_const]
  | cons ev rest =>
    have hne : r.events ≠ [] := by
      rw [hevents]
      apply List.cons_ne_nil
    rw [rotate_cons hevents]
    by_cases hlen : 1024 < r.events.length
    · rw [if_pos hlen]
      constructor
      · intro h
        exact ⟨1, (drain_long 0 hevents hlen).trans h⟩
      · rintro ⟨fuel, h⟩
        cases fuel with
        | zero =>
          unfold drain at h
          rw [hevents] at h
          cases h
        | succ fuel => exact (drain_long fuel hevents hlen).symm.trans h
    · rw [if_neg hlen]
      constructor
      · nofun
      · rintro ⟨fuel, h⟩
        cases (drain_short fuel hne (Nat.not_lt.1 hlen)).symm.trans h

/-- `run_cancel_id` is its loop and then the lookup. -/
theorem runCancelId_eq_some_iff (r : ScenarioRunner) (s : Step) (a : CancelByOrderIdArgs) (p : StepResult × ScenarioRunner) :
    r.runCancelId s a = some p ↔ ∃ fuel turned, drain fuel r = some turned ∧ lookUp s a turned = p := by
  have hmap : r.runCancelId s a = r.rotate.map (lookUp s a) := rfl
  rw [hmap, Option.map_eq_some_iff]
  constructor
  · rintro ⟨turned, hrotate, hlook⟩
    obtain ⟨fuel, hdrain⟩ := (rotate_eq_some_iff r turned).1 hrotate
    exact ⟨fuel, turned, hdrain, hlook⟩
  · rintro ⟨fuel, turned, hdrain, hlook⟩
    exact ⟨turned, (rotate_eq_some_iff r turned).2 ⟨fuel, hdrain⟩, hlook⟩

/-! ## The property -/

/-- The runner with every event of the queue entered into the index. -/
def entered (r : ScenarioRunner) : ScenarioRunner := r.events.foldl updateIndices r

/-- The loop ends, the index is up to date at the lookup, and the step leaves
the queue as it was. -/
def Drains (r : ScenarioRunner) (s : Step) (a : CancelByOrderIdArgs) : Prop :=
  ∃ fuel turned, drain fuel r = some turned ∧ turned.tokenIndex = r.entered.tokenIndex ∧
    (lookUp s a turned).2.events = r.events

/-- The events are all the same one. -/
def Uniform (events : List SessionEvent) : Prop := ∀ ev ∈ events, ∀ ev' ∈ events, ev = ev'

theorem events_ofCall (s : Step) (p : Result Unit × ScenarioRunner) : (ofCall s p).2.events = p.2.events := by
  obtain ⟨result, r⟩ := p
  cases result <;> rfl

theorem events_lookUp (s : Step) (a : CancelByOrderIdArgs) (r : ScenarioRunner) :
    (lookUp s a r).2.events = r.events := by
  unfold lookUp
  split
  · rfl
  · apply events_ofCall

/-- Entering an event again changes nothing. -/
theorem updateIndices_twice (r : ScenarioRunner) (ev : SessionEvent) :
    (r.updateIndices ev).updateIndices ev = r.updateIndices ev := by
  cases ev with
  | accepted m => simp [updateIndices, index]
  | replaced m => simp [updateIndices, index]
  | rejected m | canceled m | executed m | massQuoteAck m | massQuoteRejection m => rfl

theorem foldl_uniform (r : ScenarioRunner) (ev : SessionEvent) {events : List SessionEvent} (h : ∀ ev' ∈ events, ev' = ev) :
    events.foldl updateIndices (r.updateIndices ev) = r.updateIndices ev := by
  induction events with
  | nil => rfl
  | cons ev' events ih =>
    obtain rfl := h ev' List.mem_cons_self
    rw [List.foldl_cons, updateIndices_twice]
    exact ih fun e he => h e (List.mem_cons_of_mem _ he)

/-- A list that reads the same after its first element has gone to the end. -/
theorem uniform_of_turn {ev : SessionEvent} {rest : List SessionEvent} (h : rest ++ [ev] = ev :: rest) :
    Uniform (ev :: rest) := by
  have hrotate : (ev :: rest).rotate 1 = ev :: rest := by
    rw [List.rotate_cons_succ, List.rotate_zero]
    exact h
  have hsome : Nonempty SessionEvent := ⟨ev⟩
  obtain ⟨first, hall⟩ := List.rotate_one_eq_self_iff_eq_replicate.1 hrotate
  have heq := (List.eq_replicate_iff.1 hall).2
  intro e he e' he'
  exact (heq e he).trans (heq e' he').symm

theorem turn_of_uniform {ev : SessionEvent} {rest : List SessionEvent} (h : ∀ ev' ∈ rest, ev' = ev) :
    rest ++ [ev] = ev :: rest := by
  rw [List.eq_replicate_of_mem h]
  exact List.replicate_succ'.symm

/-- The step is as it should be only on an empty queue, and on a queue of more
than 1024 events that cannot be told apart. -/
theorem cancel_by_order_id_drains_iff (r : ScenarioRunner) (s : Step) (a : CancelByOrderIdArgs) :
    r.Drains s a ↔ r.events = [] ∨ (1024 < r.events.length ∧ Uniform r.events) := by
  cases hevents : r.events with
  | nil =>
    refine iff_of_true ⟨0, r, ?_, ?_, ?_⟩ (.inl rfl)
    · unfold drain
      rw [hevents]
    · rw [entered, hevents]
      rfl
    · exact events_lookUp s a r
  | cons ev rest =>
    rw [← hevents]
    constructor
    · rintro ⟨fuel, turned, hdrain, -, hsame⟩
      have hrotate := (rotate_eq_some_iff r turned).2 ⟨fuel, hdrain⟩
      rw [rotate_cons hevents] at hrotate
      obtain ⟨hlen, hturned⟩ := Option.ite_none_right_eq_some.1 hrotate
      rw [← Option.some.inj hturned] at hsame
      rw [events_lookUp, hevents] at hsame
      refine .inr ⟨hlen, ?_⟩
      rw [hevents]
      exact uniform_of_turn hsame
    · rintro (hnil | ⟨hlen, hall⟩)
      · rw [hevents] at hnil
        cases hnil
      · have hrest : ∀ ev' ∈ rest, ev' = ev := by
          rw [hevents] at hall
          intro ev' hin
          exact hall ev' (List.mem_cons_of_mem _ hin) ev List.mem_cons_self
        refine ⟨1, _, drain_long 0 hevents hlen, ?_, ?_⟩
        · rw [entered, hevents, List.foldl_cons, foldl_uniform r ev hrest]
          rfl
        · rw [events_lookUp, hevents]
          exact turn_of_uniform hrest

/-- One event in the queue. -/
def oneEvent : ScenarioRunner := { Rig.idleRunner with events := [.rejected (fakeReject [] 0)] }

/-- The loop turns the one event for ever. -/
theorem cancel_by_order_id_never_returns :
    ¬ ∀ (r : ScenarioRunner) (s : Step) (a : CancelByOrderIdArgs), r.Drains s a := by
  intro h
  obtain ⟨fuel, turned, hdrain, -⟩ := h oneEvent { action := "cancel_by_order_id" } {}
  rw [drain_short fuel (List.cons_ne_nil _ _) (by decide)] at hdrain
  cases hdrain

end BistColo.Runner.ScenarioRunner
