import BistColo.StreamKit.Counters
import BistColo.StreamKit.Runs
import Mathlib.Data.List.Basic
import Mathlib.Logic.Function.Basic
/-!
# The ring between two threads

`core/ring_buffer.hpp`. A producer in `try_push` and a consumer in `try_pop`
take turns, one load, one slot or one store at a time, so each goes on with a
copy of a counter that the other may have moved meanwhile. A `Handoff` is the
ring, where the two threads are, and the history of the values pushed, refused
and popped; nothing in the code reads the history. `fifo_run` says that it is a
bounded queue, wherever the counters start and over their wrap.
-/

open StreamKit

namespace BistColo

/-- A ring of `2 ^ k` slots. -/
structure SpscRing (T : Type) (k : Fin 64) where
  head : UInt64 := 0
  tail : UInt64 := 0
  storage : Nat → T

namespace SpscRing

variable {T : Type} {k : Fin 64}

def capacity (k : Fin 64) : UInt64 := UInt64.ofNat (2 ^ k.val)

def mask (k : Fin 64) : UInt64 := capacity k - 1

/-- `storage_[i & kMask]` -/
def read (r : SpscRing T k) (i : UInt64) : T := r.storage (i &&& mask k).toNat

def write (r : SpscRing T k) (i : UInt64) (v : T) : SpscRing T k :=
  { r with storage := Function.update r.storage (i &&& mask k).toNat v }

/-- The values between the counters. -/
def contents (r : SpscRing T k) : List T := (List.range (ahead r.head r.tail)).map fun i => r.read (r.tail + .ofNat i)

theorem toNat_capacity (k : Fin 64) : (capacity k).toNat = 2 ^ k.val :=
  UInt64.toNat_ofNat_of_lt' (Nat.pow_lt_pow_right (by omega) k.isLt)

theorem read_write (r : SpscRing T k) (i j : UInt64) (v : T) :
    (r.write i v).read j = if slot k i = slot k j then v else r.read j := by
  unfold read write mask capacity
  rw [toNat_and_mask k.isLt, toNat_and_mask k.isLt]
  simp only [Function.update_apply]
  exact if_congr eq_comm rfl rfl

end SpscRing

/-! ## The two threads -/

/-- How far `try_push` is, with the value it pushes and the head it has loaded. -/
inductive Pushing (T : Type)
  | idle
  | loaded (v : T) (head : UInt64)
  /-- the tail it has loaded leaves room -/
  | roomy (v : T) (head : UInt64)
  | stored (v : T) (head : UInt64)

/-- How far `try_pop` is, with the tail it has loaded. -/
inductive Popping (T : Type)
  | idle
  | loaded (tail : UInt64)
  /-- the head it has loaded is another -/
  | nonempty (tail : UInt64)
  | moved (v : T) (tail : UInt64)

structure Handoff (T : Type) (k : Fin 64) where
  ring : SpscRing T k
  pushing : Pushing T := .idle
  popping : Popping T := .idle
  pushed : List T := []
  refused : List T := []
  popped : List T := []

namespace Handoff

open SpscRing

variable {T : Type} {k : Fin 64}

/-- The start of a call of `try_push`, unless one is running. -/
def push (s : Handoff T k) (v : T) : Handoff T k :=
  match s.pushing with
  | .idle => { s with pushing := .loaded v s.ring.head }
  | _ => s

/-- The next step of `try_push`, and what the call returns if it is the last. -/
def producer (s : Handoff T k) : Option Bool × Handoff T k :=
  match s.pushing with
  | .idle => (none, s)
  | .loaded v head =>
    if capacity k < head + 1 - s.ring.tail then
      (some false, { s with pushing := .idle, refused := s.refused ++ [v] })
    else (none, { s with pushing := .roomy v head })
  | .roomy v head => (none, { s with ring := s.ring.write head v, pushing := .stored v head })
  | .stored v head =>
    (some true, { s with ring := { s.ring with head := head + 1 }, pushing := .idle, pushed := s.pushed ++ [v] })

/-- The next step of `try_pop`, the start of a call included. `left` is what a
slot holds once its value has been moved out. -/
def consumer (left : T → T) (s : Handoff T k) : Option (Option T) × Handoff T k :=
  match s.popping with
  | .idle => (none, { s with popping := .loaded s.ring.tail })
  | .loaded tail =>
    if tail = s.ring.head then (some none, { s with popping := .idle })
    else (none, { s with popping := .nonempty tail })
  | .nonempty tail =>
    let v := s.ring.read tail
    (none, { s with ring := s.ring.write tail (left v), popping := .moved v tail })
  | .moved v tail =>
    (some (some v), { s with ring := { s.ring with tail := tail + 1 }, popping := .idle, popped := s.popped ++ [v] })

inductive Act (T : Type)
  | push (v : T)
  | producer
  | consumer

def step (left : T → T) (s : Handoff T k) : Act T → Handoff T k
  | .push v => s.push v
  | .producer => s.producer.2
  | .consumer => (s.consumer left).2

/-- How many values are held. -/
def held (s : Handoff T k) : Nat := ahead s.ring.head s.ring.tail

/-- No call is running, the counters stand anywhere with room for the values
between them, and these count as pushed. -/
structure Initial (s : Handoff T k) : Prop where
  pushing : s.pushing = .idle
  popping : s.popping = .idle
  counters : s.ring.head - s.ring.tail ≤ capacity k
  pushed : s.pushed = s.ring.contents
  popped : s.popped = []

/-- What a bounded queue is. -/
structure Fifo (s : Handoff T k) : Prop where
  order : s.popped <+: s.pushed
  length : s.pushed.length = s.popped.length + s.held
  bounded : s.held ≤ 2 ^ k.val
  /-- a slot that is written holds no value that is still to be popped -/
  overwrites : ∀ v head, s.pushing = .roomy v head → ∀ i < s.held, slot k head ≠ slot k (s.ring.tail + .ofNat i)
  /-- a slot that is read holds the next value -/
  reads : ∀ tail, s.popping = .nonempty tail → s.pushed[s.popped.length]? = some (s.ring.read tail)
  /-- a push is refused if and only if the ring is full -/
  refuses : ∀ v head, s.pushing = .loaded v head → (s.producer.1 = some false ↔ s.held = 2 ^ k.val)

/-! ## What a step returns -/

theorem push_history (s : Handoff T k) (v : T) : (s.push v).pushed = s.pushed ∧ (s.push v).popped = s.popped := by
  unfold push
  split <;> exact ⟨rfl, rfl⟩

/-- The producer leaves the consumer's side alone, and a call that ends leaves
it idle. -/
theorem producer_cases (s : Handoff T k) :
    s.producer.2.popping = s.popping ∧ s.producer.2.popped = s.popped ∧
    ((s.producer.1 = none ∧ s.producer.2.pushed = s.pushed) ∨
      (s.producer.1 = some false ∧ s.producer.2.pushed = s.pushed ∧ s.producer.2.pushing = .idle) ∨
      ∃ v head, s.pushing = .stored v head ∧ s.producer.1 = some true ∧ s.producer.2.pushed = s.pushed ++ [v] ∧
        s.producer.2.pushing = .idle) := by
  unfold producer
  cases hp : s.pushing with
  | idle => exact ⟨rfl, rfl, .inl ⟨rfl, rfl⟩⟩
  | loaded v head =>
    dsimp only
    split
    · exact ⟨rfl, rfl, .inr (.inl ⟨rfl, rfl, rfl⟩)⟩
    · exact ⟨rfl, rfl, .inl ⟨rfl, rfl⟩⟩
  | roomy v head => exact ⟨rfl, rfl, .inl ⟨rfl, rfl⟩⟩
  | stored v head => exact ⟨rfl, rfl, .inr (.inr ⟨v, head, rfl, rfl, rfl, rfl⟩)⟩

/-- The consumer leaves the producer's side alone. A call that finds nothing has
seen the counters meet. -/
theorem consumer_cases (left : T → T) (s : Handoff T k) :
    (s.consumer left).2.pushing = s.pushing ∧ (s.consumer left).2.pushed = s.pushed ∧
    (((s.consumer left).1 = none ∧ (s.consumer left).2.popped = s.popped) ∨
      ((s.consumer left).1 = some none ∧ (s.consumer left).2.popped = s.popped ∧
        (s.consumer left).2.ring = s.ring ∧ s.popping = .loaded s.ring.head) ∨
      ∃ v, (s.consumer left).1 = some (some v) ∧ (s.consumer left).2.popped = s.popped ++ [v]) := by
  unfold consumer
  cases hp : s.popping with
  | idle => exact ⟨rfl, rfl, .inl ⟨rfl, rfl⟩⟩
  | loaded tail =>
    dsimp only
    split
    · rename_i heq
      exact ⟨rfl, rfl, .inr (.inl ⟨rfl, rfl, rfl, by rw [heq]⟩)⟩
    · exact ⟨rfl, rfl, .inl ⟨rfl, rfl⟩⟩
  | nonempty tail => exact ⟨rfl, rfl, .inl ⟨rfl, rfl⟩⟩
  | moved v tail => exact ⟨rfl, rfl, .inr (.inr ⟨v, rfl, rfl⟩)⟩

/-! ## The invariant -/

/-- What the producer relies on: only it moves the head, and the room it has
seen does not go away. -/
def PushSound (s : Handoff T k) : Prop :=
  match s.pushing with
  | .idle => True
  | .loaded _ head => head = s.ring.head
  | .roomy _ head => head = s.ring.head ∧ s.held < 2 ^ k.val
  | .stored v head => head = s.ring.head ∧ s.held < 2 ^ k.val ∧ s.ring.read head = v

/-- What the consumer relies on: only it moves the tail, and the value it has
seen does not go away. -/
def PopSound (s : Handoff T k) : Prop :=
  match s.popping with
  | .idle => True
  | .loaded tail => tail = s.ring.tail
  | .nonempty tail => tail = s.ring.tail ∧ s.held ≠ 0
  | .moved v tail => tail = s.ring.tail ∧ s.held ≠ 0 ∧ s.pushed[s.popped.length]? = some v

/-- The slot of the next value is still in use by the ring. -/
def Unmoved (s : Handoff T k) : Prop := ∀ v tail, s.popping ≠ .moved v tail

structure Sound (s : Handoff T k) : Prop where
  order : s.popped <+: s.pushed
  length : s.pushed.length = s.popped.length + s.held
  bounded : s.held ≤ 2 ^ k.val
  slots : ∀ i < s.held, (i = 0 → s.Unmoved) → s.pushed[s.popped.length + i]? = some (s.ring.read (s.ring.tail + .ofNat i))
  pushing : s.PushSound
  popping : s.PopSound

theorem full_iff (s : Handoff T k) (h : s.held ≤ 2 ^ k.val) :
    capacity k < s.ring.head + 1 - s.ring.tail ↔ s.held = 2 ^ k.val := by
  have hk : 2 ^ k.val ≤ 2 ^ 63 := Nat.pow_le_pow_right (by omega) (by omega)
  have hroom : ahead s.ring.head s.ring.tail + 1 < 2 ^ 64 := by
    rw [← held]
    omega
  rw [UInt64.lt_iff_toNat_lt, toNat_capacity, ← ahead, ahead_succ hroom, ← held]
  omega

/-- The slot behind the values that are held is none of theirs. -/
theorem slot_head_ne {s : Handoff T k} (h : s.held < 2 ^ k.val) {i : Nat} (hi : i < s.held) :
    slot k s.ring.head ≠ slot k (s.ring.tail + .ofNat i) := by
  intro heq
  rw [← add_ahead s.ring.head s.ring.tail, ← held] at heq
  have hsame := slot_injective (by omega) h (hi.trans h) heq
  omega

theorem slot_tail_ne {s : Handoff T k} (h : s.held ≤ 2 ^ k.val) {i : Nat} (hi : i < s.held) (hpos : i ≠ 0) :
    slot k s.ring.tail ≠ slot k (s.ring.tail + .ofNat i) := by
  intro heq
  have hzero : s.ring.tail + .ofNat 0 = s.ring.tail := UInt64.add_zero _
  have hsame : slot k (s.ring.tail + .ofNat 0) = slot k (s.ring.tail + .ofNat i) := by rw [hzero, heq]
  exact hpos (slot_injective (by omega) (Nat.two_pow_pos _) (by omega) hsame).symm

/-! ## One step -/

theorem Sound.push {s : Handoff T k} (h : s.Sound) (v : T) : (s.push v).Sound := by
  unfold Handoff.push
  split
  · exact ⟨h.order, h.length, h.bounded, h.slots, rfl, h.popping⟩
  · exact h

theorem Sound.load_tail {s : Handoff T k} (h : s.Sound) {v : T} {head : UInt64} (hp : s.pushing = .loaded v head) :
    s.producer.2.Sound := by
  have hhead := h.pushing
  rw [PushSound, hp] at hhead
  unfold producer
  rw [hp]
  dsimp only
  split
  · exact ⟨h.order, h.length, h.bounded, h.slots, trivial, h.popping⟩
  · rename_i hroom
    refine ⟨h.order, h.length, h.bounded, h.slots, ⟨hhead, ?_⟩, h.popping⟩
    rw [hhead, s.full_iff h.bounded] at hroom
    exact lt_of_le_of_ne h.bounded hroom

theorem Sound.write_slot {s : Handoff T k} (h : s.Sound) {v : T} {head : UInt64} (hp : s.pushing = .roomy v head) :
    s.producer.2.Sound := by
  have hpush := h.pushing
  rw [PushSound, hp] at hpush
  obtain ⟨rfl, hroom⟩ := hpush
  unfold producer
  rw [hp]
  dsimp only
  refine ⟨h.order, h.length, h.bounded, ?_, ⟨rfl, hroom, ?_⟩, h.popping⟩
  · intro i hi hmoved
    change s.pushed[s.popped.length + i]? = some ((s.ring.write s.ring.head v).read (s.ring.tail + .ofNat i))
    rw [h.slots i hi hmoved, read_write, if_neg (slot_head_ne hroom hi)]
  · rw [read_write, if_pos rfl]

theorem Sound.store_head {s : Handoff T k} (h : s.Sound) {v : T} {head : UInt64} (hp : s.pushing = .stored v head) :
    s.producer.2.Sound := by
  have hpush := h.pushing
  rw [PushSound, hp] at hpush
  obtain ⟨rfl, hroom, hv⟩ := hpush
  have hlength := h.length
  have hk : 2 ^ k.val ≤ 2 ^ 63 := Nat.pow_le_pow_right (by omega) (by omega)
  have hheld : ahead (s.ring.head + 1) s.ring.tail = s.held + 1 := by
    refine ahead_succ ?_
    rw [← held]
    omega
  unfold producer
  rw [hp]
  dsimp only
  refine ⟨h.order.trans (List.prefix_append ..), ?_, ?_, ?_, trivial, ?_⟩
  · change (s.pushed ++ [v]).length = s.popped.length + ahead (s.ring.head + 1) s.ring.tail
    rw [hheld, List.length_append, hlength, List.length_singleton, Nat.add_assoc]
  · rw [held, hheld]
    exact hroom
  · intro i hi hmoved
    change i < ahead (s.ring.head + 1) s.ring.tail at hi
    change (s.pushed ++ [v])[s.popped.length + i]? = some (s.ring.read (s.ring.tail + .ofNat i))
    rw [hheld] at hi
    rcases Nat.lt_succ_iff_lt_or_eq.1 hi with hold | rfl
    · rw [List.getElem?_append_left (by omega), h.slots i hold hmoved]
    · -- the new value is the last one
      have hlast : s.ring.tail + .ofNat s.held = s.ring.head := add_ahead ..
      rw [List.getElem?_append_right (by omega), hlength, Nat.sub_self, hlast]
      rw [hv]
      rfl
  · have hpop := h.popping
    unfold PopSound at hpop ⊢
    dsimp only
    rw [held, hheld]
    split at hpop
    · trivial
    · exact hpop
    · exact ⟨hpop.1, Nat.succ_ne_zero _⟩
    · refine ⟨hpop.1, Nat.succ_ne_zero _, ?_⟩
      rw [List.getElem?_append_left (by omega)]
      exact hpop.2.2

theorem Sound.producer {s : Handoff T k} (h : s.Sound) : s.producer.2.Sound := by
  cases hp : s.pushing with
  | idle =>
    rw [Handoff.producer, hp]
    exact h
  | loaded v head => exact h.load_tail hp
  | roomy v head => exact h.write_slot hp
  | stored v head => exact h.store_head hp

variable (left : T → T)

theorem Sound.load_counter {s : Handoff T k} (h : s.Sound) (hp : s.popping = .idle) : (s.consumer left).2.Sound := by
  unfold consumer
  rw [hp]
  dsimp only
  refine ⟨h.order, h.length, h.bounded, ?_, h.pushing, rfl⟩
  intro i hi _
  refine h.slots i hi fun _ v tail => ?_
  rw [hp]
  exact nofun

theorem Sound.load_head {s : Handoff T k} (h : s.Sound) {tail : UInt64} (hp : s.popping = .loaded tail) :
    (s.consumer left).2.Sound := by
  have htail := h.popping
  rw [PopSound, hp] at htail
  have hslots : ∀ i < s.held, s.pushed[s.popped.length + i]? = some (s.ring.read (s.ring.tail + .ofNat i)) := by
    intro i hi
    refine h.slots i hi fun _ v tail => ?_
    rw [hp]
    exact nofun
  unfold consumer
  rw [hp]
  dsimp only
  split
  · exact ⟨h.order, h.length, h.bounded, fun i hi _ => hslots i hi, h.pushing, trivial⟩
  · rename_i hne
    refine ⟨h.order, h.length, h.bounded, fun i hi _ => hslots i hi, h.pushing, htail, ?_⟩
    rw [Ne, held, ahead_eq_zero, ← htail]
    exact fun heq => hne heq.symm

theorem Sound.move_value {s : Handoff T k} (h : s.Sound) {tail : UInt64} (hp : s.popping = .nonempty tail) :
    (s.consumer left).2.Sound := by
  have hpop := h.popping
  rw [PopSound, hp] at hpop
  obtain ⟨rfl, hheld⟩ := hpop
  have hbounded := h.bounded
  unfold consumer
  rw [hp]
  dsimp only
  refine ⟨h.order, h.length, h.bounded, ?_, ?_, rfl, hheld, ?_⟩
  · intro i hi hmoved
    have hpos : i ≠ 0 := fun hzero => hmoved hzero _ _ rfl
    change s.pushed[s.popped.length + i]? =
      some ((s.ring.write s.ring.tail (left (s.ring.read s.ring.tail))).read (s.ring.tail + .ofNat i))
    rw [h.slots i hi fun hzero => absurd hzero hpos, read_write, if_neg (slot_tail_ne hbounded hi hpos)]
  · have hpush := h.pushing
    unfold PushSound at hpush ⊢
    dsimp only
    split at hpush
    · trivial
    · exact hpush
    · exact hpush
    · -- the slot of the value that is being pushed is another
      obtain ⟨rfl, hroom, hv⟩ := hpush
      refine ⟨rfl, hroom, ?_⟩
      have hzero : s.ring.tail + .ofNat 0 = s.ring.tail := UInt64.add_zero _
      have hne := slot_head_ne hroom (Nat.pos_of_ne_zero hheld)
      rw [hzero] at hne
      rw [read_write, if_neg hne.symm, hv]
  · have hfirst := h.slots 0 (Nat.pos_of_ne_zero hheld) fun _ v tail => by rw [hp]; exact nofun
    have hzero : s.ring.tail + .ofNat 0 = s.ring.tail := UInt64.add_zero _
    rwa [hzero, Nat.add_zero] at hfirst

theorem Sound.store_tail {s : Handoff T k} (h : s.Sound) {v : T} {tail : UInt64} (hp : s.popping = .moved v tail) :
    (s.consumer left).2.Sound := by
  have hpop := h.popping
  rw [PopSound, hp] at hpop
  obtain ⟨rfl, hheld, hv⟩ := hpop
  have hlength := h.length
  have hbounded := h.bounded
  have hless : ahead s.ring.head (s.ring.tail + 1) + 1 = s.held := ahead_catch_up hheld
  unfold consumer
  rw [hp]
  dsimp only
  refine ⟨?_, ?_, ?_, ?_, ?_, trivial⟩
  · obtain ⟨rest, hrest⟩ := h.order
    rw [← hrest, List.getElem?_append_right (Nat.le_refl _), Nat.sub_self] at hv
    obtain ⟨rest', rfl⟩ := List.head?_eq_some_iff.1 ((List.head?_eq_getElem? ..).trans hv)
    exact ⟨rest', by rw [← hrest, List.append_assoc, List.singleton_append]⟩
  · change s.pushed.length = (s.popped ++ [v]).length + ahead s.ring.head (s.ring.tail + 1)
    rw [List.length_append, List.length_singleton]
    omega
  · change ahead s.ring.head (s.ring.tail + 1) ≤ 2 ^ k.val
    omega
  · intro i hi _
    change i < ahead s.ring.head (s.ring.tail + 1) at hi
    change s.pushed[(s.popped ++ [v]).length + i]? = some (s.ring.read (s.ring.tail + 1 + .ofNat i))
    have hnext : s.ring.tail + 1 + .ofNat i = s.ring.tail + .ofNat (i + 1) := by
      rw [UInt64.ofNat_add, UInt64.add_assoc, UInt64.add_comm 1]
      rfl
    have hslot := h.slots (i + 1) (by omega) fun hzero => absurd hzero (Nat.succ_ne_zero i)
    rw [List.length_append, List.length_singleton, hnext, Nat.add_assoc, Nat.add_comm 1 i, hslot]
  · have hpush := h.pushing
    unfold PushSound at hpush ⊢
    have hstill (hroom : s.held < 2 ^ k.val) : ahead s.ring.head (s.ring.tail + 1) < 2 ^ k.val := by omega
    dsimp only
    split at hpush
    · trivial
    · exact hpush
    · exact ⟨hpush.1, hstill hpush.2⟩
    · exact ⟨hpush.1, hstill hpush.2.1, hpush.2.2⟩

theorem Sound.consumer {s : Handoff T k} (h : s.Sound) : (s.consumer left).2.Sound := by
  cases hp : s.popping with
  | idle => exact h.load_counter left hp
  | loaded tail => exact h.load_head left hp
  | nonempty tail => exact h.move_value left hp
  | moved v tail => exact h.store_tail left hp

theorem Sound.step {s : Handoff T k} (h : s.Sound) (a : Act T) : (s.step left a).Sound := by
  cases a with
  | push v => exact h.push v
  | producer => exact h.producer
  | consumer => exact h.consumer left

/-! ## Runs -/

theorem Initial.sound {s : Handoff T k} (h : s.Initial) : s.Sound := by
  have hlength : s.pushed.length = s.held := by
    rw [h.pushed, contents, List.length_map, List.length_range]
    rfl
  refine ⟨by rw [h.popped]; exact List.nil_prefix, ?_, ?_, ?_, ?_, ?_⟩
  · rw [h.popped, hlength]
    exact (Nat.zero_add _).symm
  · have hle := UInt64.le_iff_toNat_le.1 h.counters
    rwa [toNat_capacity] at hle
  · intro i hi _
    rw [h.popped, h.pushed, contents, ← held, List.length_nil, Nat.zero_add, List.getElem?_map, List.getElem?_range hi]
    rfl
  · rw [PushSound, h.pushing]
    trivial
  · rw [PopSound, h.popping]
    trivial

theorem Sound.fifo {s : Handoff T k} (h : s.Sound) : s.Fifo where
  order := h.order
  length := h.length
  bounded := h.bounded
  overwrites v head hp i hi := by
    have hpush := h.pushing
    rw [PushSound, hp] at hpush
    rw [hpush.1]
    exact slot_head_ne hpush.2 hi
  reads tail hp := by
    have hpop := h.popping
    rw [PopSound, hp] at hpop
    have hfirst := h.slots 0 (Nat.pos_of_ne_zero hpop.2) fun _ v tail => by rw [hp]; exact nofun
    have hzero : s.ring.tail + .ofNat 0 = s.ring.tail := UInt64.add_zero _
    rwa [hzero, Nat.add_zero, ← hpop.1] at hfirst
  refuses v head hp := by
    have hhead := h.pushing
    rw [PushSound, hp] at hhead
    rw [← s.full_iff h.bounded, Handoff.producer, hp, ← hhead]
    dsimp only
    split
    · rename_i hfull
      exact iff_of_true rfl hfull
    · rename_i hroom
      exact iff_of_false nofun hroom

theorem sound_run {s : Handoff T k} (h : s.Sound) (as : List (Act T)) : (run (step left) s as).Sound :=
  run_inv_all Sound (fun _ a hs => hs.step left a) h

/-- What is pushed and not popped is as much as is held. -/
theorem Sound.popped_all {s : Handoff T k} (h : s.Sound) (hempty : s.held = 0) : s.popped = s.pushed := by
  refine h.order.eq_of_length ?_
  rw [h.length, hempty]
  rfl

/-- Whatever the two threads do in turn, and wherever the counters start, the
ring is a bounded queue in every state. -/
theorem fifo_run {s : Handoff T k} (h : s.Initial) (as : List (Act T)) : (run (step left) s as).Fifo :=
  (sound_run left h.sound as).fifo

/-- A ring of two slots whose head wraps with the next push. -/
def aboutToWrap : Handoff Nat 1 := { ring := { head := 18446744073709551615, tail := 18446744073709551615, storage := id } }

theorem fifo_run_wrapping :
    let turns := [.push 7, .producer, .producer, .consumer, .producer, .push 8, .consumer, .producer, .producer, .consumer]
    (run (step fun _ => 0) aboutToWrap turns).Fifo :=
  fifo_run (fun _ => 0) ⟨rfl, rfl, by decide, rfl, rfl⟩ _

end Handoff

end BistColo
