import Mathlib.Algebra.Order.BigOperators.Group.List
import BistColo.Domain.OrderBook
import BistColo.StreamKit.Runs
/-!
# Fills and the leaves formula

The book takes a fill off the leaves and stops at zero each time;
`expected_leaves` takes the whole executed quantity off the total and stops at
zero once. `fills_match_formula` says that they agree after any fills of an
order, whatever happens to other orders in between.
-/

open StreamKit

namespace BistColo.Domain.OrderBook

/-- `expected_leaves` -/
def expectedLeaves (newTotalQty alreadyExecuted : Int64) : Int64 :=
  if newTotalQty - alreadyExecuted < 0 then 0 else newTotalQty - alreadyExecuted

/-! ## Calls of the book -/

inductive Call
  | insert (token : Bytes) (state : OrderState)
  | onAccepted (token : Bytes) (id : UInt64) (openQty : Int64)
  | onExecuted (token : Bytes) (traded : Int64)
  | onCanceled (token : Bytes)
  /-- a write through the pointer of `find_mut` -/
  | modify (token : Bytes) (f : OrderState → OrderState)

def Call.token : Call → Bytes
  | insert token _ | onAccepted token _ _ | onExecuted token _ | onCanceled token | modify token _ => token

def call (b : OrderBook) : Call → OrderBook
  | .insert token state => b.insert token state
  | .onAccepted token id openQty => b.onAccepted token id openQty
  | .onExecuted token traded => b.onExecuted token traded
  | .onCanceled token => b.onCanceled token
  | .modify token f => b.modify token f

theorem find_modify_other (b : OrderBook) {token t : Bytes} (h : token ≠ t) (f : OrderState → OrderState) :
    (b.modify token f).find t = b.find t := by
  rw [find_modify, if_neg (Ne.symm h)]

theorem find_modify_congr {b b' : OrderBook} {t : Bytes} (h : b.find t = b'.find t) (token : Bytes)
    (f : OrderState → OrderState) : (b.modify token f).find t = (b'.modify token f).find t := by
  rw [find_modify, find_modify, h]

/-- A call leaves the entries of other tokens alone. -/
theorem find_call_other (b : OrderBook) {c : Call} {t : Bytes} (h : c.token ≠ t) : (b.call c).find t = b.find t := by
  cases c with
  | insert token state =>
    apply if_neg
    exact Ne.symm h
  | onAccepted token id openQty => exact find_modify_other b h _
  | onExecuted token traded => exact find_modify_other b h _
  | onCanceled token => exact find_modify_other b h _
  | modify token f => exact find_modify_other b h _

/-- What a call writes to an entry depends on that entry alone. -/
theorem find_call_congr {b b' : OrderBook} {t : Bytes} (h : b.find t = b'.find t) (c : Call) :
    (b.call c).find t = (b'.call c).find t := by
  cases c with
  | insert token state =>
    simp only [call, find_insert]
    rw [h]
  | onAccepted token id openQty => exact find_modify_congr h _ _
  | onExecuted token traded => exact find_modify_congr h _ _
  | onCanceled token => exact find_modify_congr h _ _
  | modify token f => exact find_modify_congr h _ _

/-- The calls on other tokens may as well not have been made. -/
theorem find_run_filter {keep : Call → Bool} {t : Bytes} (hkeep : ∀ c, c.token = t → keep c = true)
    {b b' : OrderBook} (h : b.find t = b'.find t) (cs : List Call) :
    (run call b cs).find t = (run call b' (cs.filter keep)).find t := by
  induction cs generalizing b b' with
  | nil => exact h
  | cons c cs ih =>
    cases hc : keep c with
    | true =>
      rw [List.filter_cons_of_pos hc]
      exact ih (find_call_congr h c)
    | false =>
      rw [List.filter_cons_of_neg (by simp [hc])]
      apply ih
      refine (find_call_other b ?_).trans h
      intro htok
      rw [hkeep c htok] at hc
      cases hc

/-! ## One fill -/

theorem toInt_zero : (0 : Int64).toInt = 0 := rfl

theorem toInt_sub_eq {a b : Int64} (ha : 0 ≤ a.toInt) (hb : 0 ≤ b.toInt) : (a - b).toInt = a.toInt - b.toInt := by
  have halt := a.toInt_lt
  have hblt := b.toInt_lt
  rw [Int64.toInt_sub]
  apply Int.bmod_eq_of_le
  all_goals omega

theorem toInt_expectedLeaves {q total : Int64} (hq : 0 ≤ q.toInt) (htotal : 0 ≤ total.toInt) :
    (expectedLeaves q total).toInt = max 0 (q.toInt - total.toInt) := by
  have hsub := toInt_sub_eq hq htotal
  have hneg : q - total < 0 ↔ q.toInt - total.toInt < 0 := by rw [Int64.lt_iff_toInt_lt, hsub, toInt_zero]
  unfold expectedLeaves
  split
  · rename_i hlt
    have hlt' := hneg.1 hlt
    rw [toInt_zero]
    omega
  · rename_i hlt
    have hlt' := mt hneg.2 hlt
    rw [hsub]
    omega

theorem toInt_leavesAfter {leaves traded : Int64} (hl : 0 ≤ leaves.toInt) (ht : 0 ≤ traded.toInt) :
    (leavesAfter leaves traded).toInt = max 0 (leaves.toInt - traded.toInt) := by
  have hsub := toInt_sub_eq hl ht
  have hpos : 0 < leaves - traded ↔ 0 < leaves.toInt - traded.toInt := by rw [Int64.lt_iff_toInt_lt, hsub, toInt_zero]
  unfold leavesAfter
  split
  · rename_i hlt
    have hlt' := hpos.1 hlt
    rw [hsub]
    omega
  · rename_i hlt
    have hlt' := mt hpos.2 hlt
    rw [toInt_zero]
    omega

/-- The entry of an order of which `q` was open and `ts` was traded. -/
structure Filled (q : Int64) (ts : List Int64) (s : OrderState) : Prop where
  executed : s.executed.toInt = (ts.map Int64.toInt).sum
  leaves : s.leaves = expectedLeaves q s.executed
  status : s.status = if ts ≠ [] ∧ q ≤ s.executed then .notOnBook else .onBook
  conserved : s.leaves.toInt + min s.executed.toInt q.toInt = q.toInt

theorem sum_nonneg {ts : List Int64} (h : ∀ t ∈ ts, 0 ≤ t) : 0 ≤ (ts.map Int64.toInt).sum := by
  apply List.sum_nonneg
  intro n hn
  obtain ⟨t, ht, rfl⟩ := List.mem_map.1 hn
  exact Int64.le_iff_toInt_le.1 (h t ht)

/-- What the fields say of one another follows from the leaves. -/
theorem Filled.of_leaves {q : Int64} {ts : List Int64} {s : OrderState} (hq : 0 ≤ q) (hts : ∀ t ∈ ts, 0 ≤ t)
    (hexec : s.executed.toInt = (ts.map Int64.toInt).sum) (hleaves : s.leaves.toInt = max 0 (q.toInt - s.executed.toInt))
    (hstatus : s.status = if ts ≠ [] ∧ s.leaves = 0 then .notOnBook else .onBook) : Filled q ts s := by
  have hq' : 0 ≤ q.toInt := Int64.le_iff_toInt_le.1 hq
  have hexec' : 0 ≤ s.executed.toInt := by
    rw [hexec]
    exact sum_nonneg hts
  refine ⟨hexec, ?_, ?_, ?_⟩
  · apply Int64.toInt_inj.1
    rw [hleaves, toInt_expectedLeaves hq' hexec']
  · have hdone : s.leaves = 0 ↔ q ≤ s.executed := by
      rw [← Int64.toInt_inj, hleaves, toInt_zero, Int64.le_iff_toInt_le]
      omega
    simp only [hstatus, hdone]
  · rw [hleaves]
    omega

theorem Filled.executes {q : Int64} {ts : List Int64} {s : OrderState} (h : Filled q ts s) (hq : 0 ≤ q) {t : Int64}
    (hts : ∀ u ∈ ts ++ [t], 0 ≤ u) (hsum : ((ts ++ [t]).map Int64.toInt).sum < 2 ^ 63) :
    Filled q (ts ++ [t])
      { s with
        executed := s.executed + t
        leaves := leavesAfter s.leaves t
        status := if leavesAfter s.leaves t = 0 then .notOnBook else s.status } := by
  have hq' : 0 ≤ q.toInt := Int64.le_iff_toInt_le.1 hq
  have hbefore : 0 ≤ (ts.map Int64.toInt).sum := sum_nonneg fun u hu => hts u (List.mem_append_left _ hu)
  have ht : 0 ≤ t.toInt := Int64.le_iff_toInt_le.1 (hts t (List.mem_append_right _ (List.mem_singleton_self t)))
  have htotal : ((ts ++ [t]).map Int64.toInt).sum = (ts.map Int64.toInt).sum + t.toInt := by simp
  rw [htotal] at hsum
  have hexec := h.executed
  have hadd : (s.executed + t).toInt = (ts.map Int64.toInt).sum + t.toInt := by
    rw [Int64.toInt_add, hexec]
    apply Int.bmod_eq_of_le
    all_goals omega
  have hleaves : s.leaves.toInt = max 0 (q.toInt - s.executed.toInt) := by
    rw [h.leaves, toInt_expectedLeaves hq' (by omega)]
  -- the clamp of the clamp is the clamp of the total
  have hnext : (leavesAfter s.leaves t).toInt = max 0 (q.toInt - (s.executed + t).toInt) := by
    rw [toInt_leavesAfter (by omega) ht, hleaves, hadd, hexec]
    omega
  refine Filled.of_leaves hq hts (hadd.trans htotal.symm) hnext ?_
  dsimp only
  by_cases hzero : leavesAfter s.leaves t = 0
  · rw [if_pos hzero, if_pos ⟨by simp, hzero⟩]
  · rw [if_neg hzero, if_neg (fun hall => hzero hall.2), h.status]
    apply if_neg
    rintro ⟨-, hle⟩
    apply hzero
    rw [← Int64.toInt_inj, hnext, toInt_zero, hadd, ← hexec]
    rw [Int64.le_iff_toInt_le] at hle
    omega

/-! ## Any fills -/

/-- The calls that enter an order, accept it and fill it. -/
def filling (token : Bytes) (state : OrderState) (id : UInt64) (q : Int64) (ts : List Int64) : List Call :=
  .insert token state :: .onAccepted token id q :: ts.map (.onExecuted token)

theorem find_modify_self {b : OrderBook} {token : Bytes} {s : OrderState} (h : b.find token = some s)
    (f : OrderState → OrderState) : (b.modify token f).find token = some (f s) := by
  rw [find_modify, if_pos rfl, h]
  rfl

theorem filled_run (b : OrderBook) (token : Bytes) {state : OrderState} (hstate : state.executed = 0) (id : UInt64)
    {q : Int64} (hq : 0 ≤ q) {ts : List Int64} (hts : ∀ t ∈ ts, 0 ≤ t) (hsum : (ts.map Int64.toInt).sum < 2 ^ 63) :
    ∃ s, (run call b (filling token state id q ts)).find token = some s ∧ Filled q ts s := by
  have hq' : 0 ≤ q.toInt := Int64.le_iff_toInt_le.1 hq
  induction ts using List.reverseRecOn with
  | nil =>
    have hentered : (b.insert token state).find token = some { state with leaves := state.originalQty } := by
      rw [find_insert, if_pos rfl]
    refine ⟨_, find_modify_self hentered _, Filled.of_leaves hq nofun ?_ ?_ rfl⟩
    · exact congrArg Int64.toInt hstate
    · dsimp only
      rw [hstate, toInt_zero]
      omega
  | append_singleton ts t ih =>
    have hbefore : (ts.map Int64.toInt).sum < 2 ^ 63 := by
      have ht := Int64.le_iff_toInt_le.1 (hts t (List.mem_append_right _ (List.mem_singleton_self t)))
      rw [toInt_zero] at ht
      simp only [List.map_append, List.map_cons, List.map_nil, List.sum_append, List.sum_cons, List.sum_nil] at hsum
      omega
    obtain ⟨s, hs, hfilled⟩ := ih (fun u hu => hts u (List.mem_append_left _ hu)) hbefore
    have hsnoc : filling token state id q (ts ++ [t]) = filling token state id q ts ++ [.onExecuted token t] := by
      simp [filling]
    rw [hsnoc, run_append]
    exact ⟨_, find_modify_self hs _, hfilled.executes hq hts hsum⟩

/-- In any run in which an order is entered, accepted with `q` open and filled,
and nothing else happens under its token, its entry is what the formula says
and the other entries are as if it had not been there. -/
theorem fills_match_formula (b : OrderBook) (token : Bytes) (state : OrderState) (id : UInt64) (q : Int64)
    (ts : List Int64) (cs : List Call) (hown : cs.filter (fun c => c.token = token) = filling token state id q ts)
    (hstate : state.executed = 0) (hq : 0 ≤ q) (hts : ∀ t ∈ ts, 0 ≤ t) (hsum : (ts.map Int64.toInt).sum < 2 ^ 63) :
    (∃ s, (run call b cs).find token = some s ∧ Filled q ts s) ∧
      ∀ t, t ≠ token → (run call b cs).find t = (run call b (cs.filter fun c => c.token ≠ token)).find t := by
  constructor
  · rw [find_run_filter (fun c hc => decide_eq_true hc) rfl cs, hown]
    exact filled_run b token hstate id hq hts hsum
  · intro t ht
    apply find_run_filter
    · intro c hc
      apply decide_eq_true
      rw [hc]
      exact ht
    · rfl

/-- Two orders that are filled in turn, the first one beyond what is open. -/
def overfilling : List Call :=
  [.insert [65] { symbol := [], originalQty := 100 }, .insert [66] { symbol := [], originalQty := 7 },
    .onAccepted [65] 1 100, .onExecuted [65] 60, .onExecuted [66] 7, .onExecuted [65] 0, .onExecuted [65] 50]

theorem fills_match_formula_overfilling :
    (∃ s, (run call {} overfilling).find [65] = some s ∧ Filled 100 [60, 0, 50] s) ∧
      ∀ t, t ≠ [65] → (run call {} overfilling).find t =
        (run call {} (overfilling.filter fun c => c.token ≠ [65])).find t :=
  fills_match_formula {} [65] { symbol := [], originalQty := 100 } 1 100 [60, 0, 50] overfilling rfl rfl (by decide)
    (by simp) (by simp)

end BistColo.Domain.OrderBook
