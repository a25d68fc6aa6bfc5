import BistColo.Core
import Mathlib.Algebra.BigOperators.Fin
import Mathlib.Data.UInt
/-!
# The throttler

`domain/throttler.hpp`: ten slots, each counting the requests of one 100 ms
window. A slot is reused every second, so what it counts belongs to the window
it names. `UpTo` is the state a throttler has when time does not run
backwards; it is what makes the reuse of a slot invisible (`used_slotFor`).
-/

open scoped BigOperators

namespace BistColo.Domain

structure Slot where
  windowId : UInt64 := UInt64.ofNat (2 ^ 64 - 1)
  count : UInt64 := 0
deriving DecidableEq

structure Throttler where
  limit : UInt64
  slots : Fin 10 → Slot := fun _ => {}

namespace Throttler

def windowNs : UInt64 := 100000000
def windowCount : UInt64 := 10
/-- The id of a slot that was never used. -/
def noWindow : UInt64 := UInt64.ofNat (2 ^ 64 - 1)

/-- The constructor: no rate means no requests. -/
def create (capacity tokensPerSec : UInt64) : Throttler :=
  { limit := if tokensPerSec = 0 then 0 else if capacity < tokensPerSec then capacity else tokensPerSec }

def windowId (nowNs : UInt64) : UInt64 := nowNs / windowNs

def slotIndex (window : UInt64) : Fin 10 := ⟨(window % windowCount).toNat, by
  rw [UInt64.toNat_mod]
  exact Nat.mod_lt _ (by decide)⟩

/-- What a slot adds to the rolling second that ends with window `current`. -/
def counted (slot : Slot) (current : UInt64) : UInt64 :=
  if slot.windowId = noWindow then 0
  else if current < slot.windowId then 0
  else if windowCount ≤ current - slot.windowId then 0
  else slot.count

def usedInRollingSecond (t : Throttler) (current : UInt64) : UInt64 := ∑ i, counted (t.slots i) current

def setSlot (t : Throttler) (window : UInt64) (slot : Slot) : Throttler :=
  { t with slots := Function.update t.slots (slotIndex window) slot }

/-- The slot of a window, started afresh if it still counts another one. -/
def slotFor (t : Throttler) (window : UInt64) : Slot :=
  if (t.slots (slotIndex window)).windowId ≠ window then ⟨window, 0⟩ else t.slots (slotIndex window)

/-- `nowNs` is the time the call works with: the caller's, or the monotonic clock's for 0. -/
def tryAcquire (t : Throttler) (nowNs : UInt64) : Bool × Throttler :=
  if t.limit = 0 then (false, t)
  else
    let current := windowId nowNs
    let slot := t.slotFor current
    let t := t.setSlot current slot
    if t.limit ≤ t.usedInRollingSecond current then (false, t)
    else (true, t.setSlot current { slot with count := slot.count + 1 })

def available (t : Throttler) (nowNs : UInt64) : UInt64 :=
  if t.limit = 0 then 0
  else if t.limit ≤ t.usedInRollingSecond (windowId nowNs) then 0
  else t.limit - t.usedInRollingSecond (windowId nowNs)

/-! ## The budget used -/

/-- No window after `w` was used, and each slot has its own windows. -/
def UpTo (t : Throttler) (w : UInt64) : Prop :=
  ∀ i, (t.slots i).windowId = noWindow ∨ (slotIndex (t.slots i).windowId = i ∧ (t.slots i).windowId ≤ w)

theorem UpTo.mono {t : Throttler} {w w' : UInt64} (h : t.UpTo w) (hw : w ≤ w') : t.UpTo w' := by
  intro i
  rcases h i with h | ⟨h1, h2⟩
  · exact .inl h
  · exact .inr ⟨h1, UInt64.le_trans h2 hw⟩

theorem upTo_create (capacity tokensPerSec w : UInt64) : (create capacity tokensPerSec).UpTo w := fun _ => .inl rfl

theorem setSlot_self (t : Throttler) (window : UInt64) (slot : Slot) :
    (t.setSlot window slot).slots (slotIndex window) = slot := Function.update_self ..

theorem UpTo.setSlot {t : Throttler} {w : UInt64} (h : t.UpTo w) (count : UInt64) : (t.setSlot w ⟨w, count⟩).UpTo w := by
  intro i
  rcases eq_or_ne i (slotIndex w) with rfl | hi
  · right
    rw [setSlot_self]
    exact ⟨rfl, UInt64.le_refl w⟩
  · simpa only [Throttler.setSlot, Function.update_of_ne hi] using h i

/-- What one call can do. -/
theorem tryAcquire_cases (t : Throttler) (now : UInt64) :
    ∃ n, t.slotFor (windowId now) = ⟨windowId now, n⟩ ∧
      (t.tryAcquire now = (false, t) ∨ t.tryAcquire now = (false, t.setSlot (windowId now) ⟨windowId now, n⟩) ∨
        t.tryAcquire now =
          (true, (t.setSlot (windowId now) ⟨windowId now, n⟩).setSlot (windowId now) ⟨windowId now, n + 1⟩)) := by
  obtain ⟨n, hn⟩ : ∃ n, t.slotFor (windowId now) = ⟨windowId now, n⟩ := by
    unfold slotFor
    split
    · exact ⟨0, rfl⟩
    · refine ⟨(t.slots (slotIndex (windowId now))).count, ?_⟩
      rw [Slot.mk.injEq]
      exact ⟨not_not.1 ‹_›, rfl⟩
  refine ⟨n, hn, ?_⟩
  unfold tryAcquire
  dsimp only
  rw [hn]
  split
  · exact .inl rfl
  · split
    · exact .inr (.inl rfl)
    · exact .inr (.inr rfl)

/-- Changing a slot changes the sum by the slot. -/
theorem used_setSlot (t : Throttler) (window current : UInt64) (slot : Slot) :
    (t.setSlot window slot).usedInRollingSecond current + counted (t.slots (slotIndex window)) current =
      t.usedInRollingSecond current + counted slot current := by
  unfold usedInRollingSecond setSlot
  rw [← Finset.add_sum_erase Finset.univ _ (Finset.mem_univ (slotIndex window)),
    ← Finset.add_sum_erase Finset.univ (fun i => counted (t.slots i) current) (Finset.mem_univ (slotIndex window))]
  have hrest : ∑ i ∈ Finset.univ.erase (slotIndex window), counted (Function.update t.slots (slotIndex window) slot i) current =
      ∑ i ∈ Finset.univ.erase (slotIndex window), counted (t.slots i) current := by
    refine Finset.sum_congr rfl ?_
    intro i hi
    rw [Function.update_of_ne (Finset.ne_of_mem_erase hi)]
  dsimp only
  rw [hrest, Function.update_self]
  ac_rfl

/-- Ten windows back is over. -/
theorem counted_over {slot : Slot} {w : UInt64} (hle : slot.windowId ≤ w)
    (hover : slot.windowId.toNat + 10 ≤ w.toNat) : counted slot w = 0 := by
  have hover : windowCount ≤ w - slot.windowId := by
    rw [UInt64.le_iff_toNat_le, UInt64.toNat_sub_of_le _ _ hle]
    simp only [windowCount, UInt64.reduceToNat]
    omega
  unfold counted
  rw [if_pos hover, ite_self, ite_self]

/-- A slot that still counts an older window counts one that is over. -/
theorem counted_stale {t : Throttler} {now w : UInt64} (h : t.UpTo now) (hw : now ≤ w)
    (hne : (t.slots (slotIndex now)).windowId ≠ now) : counted (t.slots (slotIndex now)) w = 0 := by
  rcases h (slotIndex now) with hno | ⟨hidx, hle⟩
  · exact if_pos hno
  · have hmod : (t.slots (slotIndex now)).windowId.toNat % 10 = now.toNat % 10 := by
      simpa [slotIndex, windowCount, UInt64.toNat_mod] using hidx
    have hlt : (t.slots (slotIndex now)).windowId.toNat ≠ now.toNat := fun hv => hne (UInt64.toNat_inj.1 hv)
    refine counted_over (UInt64.le_trans hle hw) ?_
    rw [UInt64.le_iff_toNat_le] at hle hw
    omega

/-- Starting the slot of a window does not change what is counted from that window on. -/
theorem used_slotFor {t : Throttler} {now w : UInt64} (h : t.UpTo now) (hw : now ≤ w) :
    (t.setSlot now (t.slotFor now)).usedInRollingSecond w = t.usedInRollingSecond w := by
  have hsum := used_setSlot t now w (t.slotFor now)
  have hsame : counted (t.slotFor now) w = counted (t.slots (slotIndex now)) w := by
    unfold slotFor
    split
    · rw [counted_stale h hw ‹_›]
      simp [counted]
    · rfl
  rw [hsame] at hsum
  exact add_right_cancel hsum

theorem windowId_ne_noWindow (now : UInt64) : windowId now ≠ noWindow := by
  intro h
  have := congrArg UInt64.toNat h
  rw [windowId, UInt64.toNat_div] at this
  have hlt := now.toNat_lt
  simp only [windowNs, noWindow, UInt64.reduceToNat, UInt64.toNat_ofNat'] at this
  omega

/-- The window a slot names counts in full. -/
theorem counted_self {w count : UInt64} (h : w ≠ noWindow) : counted ⟨w, count⟩ w = count := by
  unfold counted
  rw [if_neg h, if_neg (UInt64.lt_irrefl w), if_neg]
  simp only [UInt64.sub_self]
  decide

/-- A refused request leaves the budget used as it was, now and later. -/
theorem used_refused {t : Throttler} {now w : UInt64} (h : t.UpTo (windowId now)) (hw : windowId now ≤ w)
    (hno : (t.tryAcquire now).1 = false) : (t.tryAcquire now).2.usedInRollingSecond w = t.usedInRollingSecond w := by
  obtain ⟨n, hn, hcase | hcase | hcase⟩ := t.tryAcquire_cases now
  · rw [hcase]
  · rw [hcase, ← hn]
    exact used_slotFor h hw
  · rw [hcase] at hno
    cases hno

theorem counted_add (w current count : UInt64) :
    counted ⟨w, count + 1⟩ current = counted ⟨w, count⟩ current + counted ⟨w, 1⟩ current := by
  unfold counted
  split
  · rfl
  · split
    · rfl
    · split <;> rfl

/-- A request let through is one more in the budget used, as long as its window counts. -/
theorem used_acquired_later {t : Throttler} {now w : UInt64} (h : t.UpTo (windowId now)) (hw : windowId now ≤ w)
    (hyes : (t.tryAcquire now).1 = true) :
    (t.tryAcquire now).2.usedInRollingSecond w = t.usedInRollingSecond w + counted ⟨windowId now, 1⟩ w := by
  obtain ⟨n, hn, hcase | hcase | hcase⟩ := t.tryAcquire_cases now
  · rw [hcase] at hyes
    cases hyes
  · rw [hcase] at hyes
    cases hyes
  · rw [hcase]
    have hsum := used_setSlot (t.setSlot (windowId now) ⟨windowId now, n⟩) (windowId now) w ⟨windowId now, n + 1⟩
    rw [setSlot_self, counted_add, ← hn, used_slotFor h hw, hn] at hsum
    rw [← hn]
    refine add_right_cancel (b := counted ⟨windowId now, n⟩ w) ?_
    rw [hn, hsum]
    ac_rfl

theorem used_acquired {t : Throttler} {now : UInt64} (h : t.UpTo (windowId now)) (hyes : (t.tryAcquire now).1 = true) :
    (t.tryAcquire now).2.usedInRollingSecond (windowId now) = t.usedInRollingSecond (windowId now) + 1 := by
  rw [used_acquired_later h (UInt64.le_refl _) hyes, counted_self (windowId_ne_noWindow now)]

@[simp] theorem limit_tryAcquire (t : Throttler) (now : UInt64) : (t.tryAcquire now).2.limit = t.limit := by
  obtain ⟨n, -, hcase | hcase | hcase⟩ := t.tryAcquire_cases now <;> rw [hcase] <;> rfl

/-- A request is let through while the rolling second it falls in is below the limit. -/
theorem tryAcquire_iff {t : Throttler} {now : UInt64} (h : t.UpTo (windowId now)) :
    (t.tryAcquire now).1 = true ↔ t.usedInRollingSecond (windowId now) < t.limit := by
  unfold tryAcquire
  dsimp only
  rw [used_slotFor h (UInt64.le_refl _)]
  split
  · rename_i h0
    simp [h0]
  · have hlimit : (t.setSlot (windowId now) (t.slotFor (windowId now))).limit = t.limit := rfl
    rw [hlimit]
    split
    · rename_i hfull
      simpa using hfull
    · rename_i hroom
      simpa using hroom

theorem upTo_tryAcquire {t : Throttler} {now : UInt64} (h : t.UpTo (windowId now)) :
    (t.tryAcquire now).2.UpTo (windowId now) := by
  obtain ⟨n, -, hcase | hcase | hcase⟩ := t.tryAcquire_cases now
  · rw [hcase]
    exact h
  · rw [hcase]
    exact h.setSlot n
  · rw [hcase]
    exact (h.setSlot n).setSlot (n + 1)

/-! ## Throttlers in use -/

/-- A throttler that was made and asked at times up to `now`, in their order. -/
inductive Reached : Throttler → UInt64 → Prop
  | create (capacity tokensPerSec now : UInt64) : Reached (create capacity tokensPerSec) now
  | later {t : Throttler} {now now' : UInt64} : Reached t now → now ≤ now' → Reached t now'
  | tryAcquire {t : Throttler} {now : UInt64} : Reached t now → Reached (t.tryAcquire now).2 now

theorem Reached.upTo {t : Throttler} {now : UInt64} (h : Reached t now) : t.UpTo (windowId now) := by
  induction h with
  | create capacity tokensPerSec now => exact upTo_create capacity tokensPerSec _
  | later _ hle ih =>
    refine ih.mono ?_
    rw [UInt64.le_iff_toNat_le, windowId, windowId, UInt64.toNat_div, UInt64.toNat_div]
    exact Nat.div_le_div_right (UInt64.le_iff_toNat_le.1 hle)
  | tryAcquire _ ih => exact upTo_tryAcquire ih

end Throttler

end BistColo.Domain
