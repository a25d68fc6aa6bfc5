import BistColo.Domain.RollingSecond
import BistColo.Ouch.Calls
/-!
# The budget of a client

Every request of a client passes the throttler before its message is handed to
the session, so what `Domain.Throttler` lets through bounds what a client hands
over, across reconnects and whatever the session does with it (`handed_budget`).
-/

open StreamKit

namespace BistColo.Ouch

open Domain

namespace OuchClient

/-- The times of the requests that the throttler is asked about. -/
def asked (ops : List Op) : List UInt64 :=
  ops.filterMap fun | .request now r => if r.illegal then none else some now | _ => none

/-- The times at which a message is handed over. -/
def handedAt : OuchClient → List Op → List UInt64
  | _, [] => []
  | c, .request now r :: ops =>
    if c.handed.length < (c.call now r).2.handed.length then now :: handedAt (c.call now r).2 ops
    else handedAt (c.call now r).2 ops
  | c, op :: ops => handedAt (c.step op) ops

/-- A request hands over one message, with a grant of the throttler, or none. -/
theorem call_handed (c : OuchClient) (now : UInt64) (r : Request) :
    (r.illegal = true ∧ (c.call now r).2 = c) ∨
    (r.illegal = false ∧ (c.call now r).2.handed = c.handed ∧
      (c.call now r).2.throttler = (c.throttler.tryAcquire now).2) ∨
    (r.illegal = false ∧ c.acquires now = true ∧ (∃ msg, (c.call now r).2.handed = c.handed ++ [msg]) ∧
      (c.call now r).2.throttler = (c.throttler.tryAcquire now).2) := by
  rcases c.call_cases now r with ⟨hbad, e, he⟩ | ⟨hlegal, -, e, he⟩ | ⟨hlegal, -, -, e, he⟩ | ⟨hreach, hadm, he⟩
  · exact .inl ⟨hbad, by rw [he]⟩
  · exact .inr (.inl ⟨hlegal, by rw [he]; rfl, by rw [he]; rfl⟩)
  · exact .inr (.inl ⟨hlegal, by rw [he]; rfl, by rw [he]; rfl⟩)
  · refine .inr (.inr ⟨hreach.1, hreach.2.1, ⟨r.message (c.claimed r).1, ?_⟩, ?_⟩)
    · rw [he]
      rfl
    · rw [he]
      rfl

/-- Every message has a grant of its own. -/
theorem handedAt_sublist (c : OuchClient) (ops : List Op) : (c.handedAt ops).Sublist (c.throttler.granted (asked ops)) := by
  induction ops generalizing c with
  | nil => exact List.Sublist.slnil
  | cons op ops ih =>
    cases op with
    | session op => exact ih _
    | outside session book => exact ih _
    | request now r =>
      rw [handedAt]
      have hrest := ih (c.call now r).2
      rcases c.call_handed now r with ⟨hbad, hsame⟩ | ⟨hlegal, hhanded, hthrottler⟩ | ⟨hlegal, hgrant, ⟨msg, hhanded⟩, hthrottler⟩
      · have hasked : asked (.request now r :: ops) = asked ops := by simp [asked, hbad]
        rw [hsame] at hrest ⊢
        rw [if_neg (Nat.lt_irrefl _), hasked]
        exact hrest
      · have hasked : asked (.request now r :: ops) = now :: asked ops := by simp [asked, hlegal]
        rw [hthrottler] at hrest
        rw [hhanded, if_neg (Nat.lt_irrefl _), hasked, Throttler.granted]
        split
        · exact hrest.cons now
        · exact hrest
      · have hasked : asked (.request now r :: ops) = now :: asked ops := by simp [asked, hlegal]
        have hgrant' : (c.throttler.tryAcquire now).1 = true := hgrant
        have hgrows : c.handed.length < (c.call now r).2.handed.length := by simp [hhanded]
        rw [hthrottler] at hrest
        rw [if_pos hgrows, hasked, Throttler.granted, if_pos hgrant']
        exact hrest.cons_cons now

/-- They are all that is handed over. -/
theorem length_handed (c : OuchClient) (ops : List Op) :
    (StreamKit.run step c ops).handed.length = c.handed.length + (c.handedAt ops).length := by
  induction ops generalizing c with
  | nil => rfl
  | cons op ops ih =>
    rw [run_cons, ih]
    cases op with
    | session op => rfl
    | outside session book => rfl
    | request now r =>
      have hstep : c.step (.request now r) = (c.call now r).2 := rfl
      rw [handedAt, hstep]
      have hstays : (c.call now r).2.handed = c.handed →
          (c.call now r).2.handed.length + ((c.call now r).2.handedAt ops).length = c.handed.length +
            (if c.handed.length < (c.call now r).2.handed.length then now :: (c.call now r).2.handedAt ops
              else (c.call now r).2.handedAt ops).length := by
        intro hhanded
        rw [hhanded, if_neg (Nat.lt_irrefl _)]
      rcases c.call_handed now r with ⟨-, hsame⟩ | ⟨-, hhanded, -⟩ | ⟨-, -, ⟨msg, hhanded⟩, -⟩
      · exact hstays (by rw [hsame])
      · exact hstays hhanded
      · have hlength : (c.call now r).2.handed.length = c.handed.length + 1 := by simp [hhanded]
        rw [hlength, if_pos (Nat.lt_succ_self _), List.length_cons]
        omega

theorem inInterval_sublist {times times' : List UInt64} (h : times.Sublist times') (start length : Nat) :
    Throttler.inInterval start length times ≤ Throttler.inInterval start length times' := h.countP_le

/-- Over every run of a client, reconnects included, the messages handed to its
sessions keep to the throttler's budget: at most the limit in any 900 ms, and at
most twice the limit in any second. -/
theorem handed_budget (session : OuchSession) (capacity tokensPerSec : UInt64) (book : OrderBook) (tokenPrefix : Bytes)
    (ops : List Op) (hclock : (asked ops).Pairwise (· ≤ ·)) :
    let c := create session (Throttler.create capacity tokensPerSec) book tokenPrefix
    (StreamKit.run step c ops).handed.length = (c.handedAt ops).length ∧
      (∀ start length, length ≤ 900000001 →
        Throttler.inInterval start length (c.handedAt ops) ≤ min capacity.toNat tokensPerSec.toNat) ∧
      ∀ start, Throttler.inInterval start 1000000000 (c.handedAt ops) ≤ 2 * min capacity.toNat tokensPerSec.toNat := by
  dsimp only
  have hgrants := handedAt_sublist (create session (Throttler.create capacity tokensPerSec) book tokenPrefix) ops
  have hle := Throttler.within_granted capacity tokensPerSec hclock
  refine ⟨?_, ?_, ?_⟩
  · rw [length_handed]
    exact Nat.zero_add _
  · intro start length hlength
    refine (inInterval_sublist hgrants start length).trans ?_
    exact (Throttler.inInterval_le_within (w := start / 100000000 + 9) (by omega) (by omega) _).trans (hle _)
  · intro start
    refine (inInterval_sublist hgrants start _).trans ?_
    exact (Throttler.inInterval_le_within (k := 11) (w := start / 100000000 + 9 + 1) (by omega) (by omega) _).trans
      (Throttler.within_eleven hle)

/-- Two orders, with a session that is not logged in. -/
def twoOrders : List Op := [.request 0 (.place { price := 10 }), .request 5 (.place { explicitToken := ascii "T1" })]

theorem handed_budget_twoOrders :
    let c := create (.create {} { reading := fun _ => 0 } { username := ascii "OUCH01", password := ascii "123456" }
      Soup.heartbeatSendNs) (Throttler.create 10 10) {} (ascii "C-")
    (StreamKit.run step c twoOrders).handed.length = (c.handedAt twoOrders).length ∧
      (∀ start length, length ≤ 900000001 → Throttler.inInterval start length (c.handedAt twoOrders) ≤ min 10 10) ∧
      ∀ start, Throttler.inInterval start 1000000000 (c.handedAt twoOrders) ≤ 2 * min 10 10 :=
  handed_budget _ 10 10 {} (ascii "C-") twoOrders (by decide)

end OuchClient

end BistColo.Ouch
