import Mathlib.Logic.Function.Iterate
import BistColo.Core
import BistColo.StreamKit.Places
/-!
# The poll reactor

`net/reactor.hpp`. Descriptors and callbacks stand in two vectors at the same
places, and `run_for` goes through them by index while the callbacks edit both.
A callback is known by the number of the `add` that brought it, and it runs in
the cell of the vector where it stands. Beside them `Registry` says what is
registered. What is called is always called rightly, but a removal at or before
the index moves or destroys the callback that is running, and moves the next
descriptor to a place that is already passed; and so does an `add` that makes the
vector grow with the callback: `undisturbed_iff` says that this is all that goes wrong.
-/

open StreamKit

namespace BistColo.Net

/-! ## Events -/

/-- A set of flags. -/
structure IoEvent where
  bits : UInt8
deriving DecidableEq

namespace IoEvent

def none : IoEvent := ⟨0⟩
def readable : IoEvent := ⟨1⟩
def writable : IoEvent := ⟨2⟩
def error : IoEvent := ⟨4⟩

/-- `operator|` -/
def or (a b : IoEvent) : IoEvent := ⟨a.bits ||| b.bits⟩

def has (set flag : IoEvent) : Bool := set.bits &&& flag.bits != 0

end IoEvent

def pollIn : UInt16 := 0x1
def pollOut : UInt16 := 0x4
def pollErr : UInt16 := 0x8
def pollHup : UInt16 := 0x10
def pollNval : UInt16 := 0x20

def eventsFor (e : IoEvent) : UInt16 :=
  (if e.has .readable then pollIn else 0) ||| (if e.has .writable then pollOut else 0)

/-- What a callback is told of the events that `poll` reported. -/
def eventOf (re : UInt16) : IoEvent :=
  let ev : IoEvent := .none
  let ev := if re &&& pollIn ≠ 0 then ev.or .readable else ev
  let ev := if re &&& pollOut ≠ 0 then ev.or .writable else ev
  if re &&& (pollErr ||| pollHup ||| pollNval) ≠ 0 then ev.or .error else ev

/-! ## The reactor -/

structure PollFd where
  fd : Int32
  events : UInt16
  revents : UInt16 := 0
deriving DecidableEq

structure PollReactor where
  pollfds : List PollFd := []
  callbacks : List Nat := []
  /-- how often `add` has registered something -/
  added : Nat := 0
  /-- what `callbacks_.capacity()` returns, and how often its cells were allocated anew -/
  capacity : Nat := 0
  buffer : Nat := 0
  /-- the capacity that a full vector asks for -/
  growth : Nat → Nat

/-- A call of the reactor by a session or from a callback. -/
inductive ReactorCall
  | add (fd : Int32) (interest : IoEvent)
  | modify (fd : Int32) (interest : IoEvent)
  | remove (fd : Int32)
deriving DecidableEq

namespace PollReactor

def findIndex (r : PollReactor) (fd : Int32) : Option Nat := r.pollfds.findIdx? fun p => p.fd = fd

def add (r : PollReactor) (fd : Int32) (interest : IoEvent) : Result Unit × PollReactor :=
  if (r.findIndex fd).isSome then (.error (makeError .validation "fd already registered"), r)
  else
    (.ok (), { r with
      pollfds := r.pollfds ++ [⟨fd, eventsFor interest, 0⟩]
      callbacks := r.callbacks ++ [r.added]
      added := r.added + 1
      -- `push_back` moves everything to new cells if the vector is full
      capacity := if r.callbacks.length < r.capacity then r.capacity
        else max (r.callbacks.length + 1) (r.growth r.capacity)
      buffer := if r.callbacks.length < r.capacity then r.buffer else r.buffer + 1 })

def modify (r : PollReactor) (fd : Int32) (interest : IoEvent) : Result Unit × PollReactor :=
  match r.findIndex fd with
  | none => (.error (makeError .validation "fd not registered"), r)
  | some idx => (.ok (), { r with pollfds := r.pollfds.modify idx fun p => { p with events := eventsFor interest } })

def remove (r : PollReactor) (fd : Int32) : Result Unit × PollReactor :=
  match r.findIndex fd with
  | none => (.error (makeError .validation "fd not registered"), r)
  | some idx => (.ok (), { r with pollfds := r.pollfds.eraseIdx idx, callbacks := r.callbacks.eraseIdx idx })

def exec (r : PollReactor) : ReactorCall → PollReactor
  | .add fd interest => (r.add fd interest).2
  | .modify fd interest => (r.modify fd interest).2
  | .remove fd => (r.remove fd).2

/-- What `::poll` writes into the vector. -/
def polled (r : PollReactor) (report : Int32 → UInt16) : PollReactor :=
  { r with pollfds := r.pollfds.map fun p => { p with revents := report p.fd } }

/-- `pollfds_[i].revents = 0` -/
def clear (r : PollReactor) (i : Nat) : PollReactor :=
  { r with pollfds := r.pollfds.modify i fun p => { p with revents := 0 } }

/-- A call that leaves the callback at place `i` in its cell: nothing at `i` or
before is removed, and nothing is added to a full vector. -/
def Leaves (r : PollReactor) (i : Nat) : ReactorCall → Prop
  | .add fd _ => (r.findIndex fd).isSome ∨ r.callbacks.length < r.capacity
  | .modify _ _ => True
  | .remove fd => ∀ idx, r.findIndex fd = some idx → i < idx

/-- The callback that a call moves from the place behind `i` to `i`, if its
descriptor is ready. -/
def moved (r : PollReactor) (i : Nat) : ReactorCall → Option Nat
  | .remove fd =>
    match r.findIndex fd, r.pollfds[i + 1]?, r.callbacks[i + 1]? with
    | some idx, some p, some callback => if idx ≤ i ∧ p.revents ≠ 0 then some callback else none
    | _, _, _ => none
  | _ => none

end PollReactor

/-! ## What is registered -/

/-- The descriptors that are registered, each with the number of its `add`. -/
structure Registry where
  entries : List (Int32 × Nat) := []
  added : Nat := 0
deriving DecidableEq

def Registry.exec (g : Registry) : ReactorCall → Registry
  | .add fd _ => if fd ∈ g.entries.map Prod.fst then g else ⟨g.entries ++ [(fd, g.added)], g.added + 1⟩
  | .modify _ _ => g
  | .remove fd => { g with entries := g.entries.filter fun e => e.1 ≠ fd }

/-! ## The dispatch loop -/

/-- A callback that is called, and what is registered then. -/
structure Dispatch where
  callback : Nat
  event : IoEvent
  registry : Registry
deriving DecidableEq

/-- The loop of `run_for`, with what is registered and which ready descriptors
were moved to a place that is passed. -/
structure Round where
  reactor : PollReactor
  registry : Registry
  i : Nat := 0
  calls : List Dispatch := []
  skipped : List Nat := []
  /-- the callback that runs, and the cells it was called in -/
  running : Nat := 0
  buffer : Nat := 0
  /-- the callbacks that were moved or destroyed while they ran -/
  displaced : List Nat := []

namespace Round

/-- A call from the callback at the index. What a callback does once it is
displaced is not defined; here it goes on. -/
def exec (s : Round) (op : ReactorCall) : Round :=
  let r := s.reactor.exec op
  { s with
    reactor := r
    registry := s.registry.exec op
    skipped := s.skipped ++ (s.reactor.moved s.i op).toList
    displaced :=
      if r.buffer = s.buffer ∧ r.callbacks[s.i]? = some s.running then s.displaced else s.displaced ++ [s.running] }

/-- The callback at the index is called, in its cell. -/
def called (s : Round) (p : PollFd) (callback : Nat) : Round :=
  { s with
    reactor := s.reactor.clear s.i
    calls := s.calls ++ [⟨callback, eventOf p.revents, s.registry⟩]
    running := callback
    buffer := s.reactor.buffer }

/-- `revents` is read and zeroed, and the callback is called if it was not zero. -/
def dispatch (behaviour : Nat → List ReactorCall) (s : Round) (p : PollFd) (callback : Nat) : Round :=
  if p.revents = 0 then { s with reactor := s.reactor.clear s.i }
  else
    (behaviour s.calls.length).foldl exec (s.called p callback)

/-- One iteration. What the callbacks do is told by how many were called before. -/
def step (behaviour : Nat → List ReactorCall) (s : Round) : Round :=
  match s.reactor.pollfds[s.i]?, s.reactor.callbacks[s.i]? with
  | some p, some callback => { s.dispatch behaviour p callback with i := s.i + 1 }
  | _, _ => s

/-- The index is behind the last descriptor. -/
def Over (s : Round) : Prop := s.reactor.pollfds.length ≤ s.i

instance (s : Round) : Decidable s.Over := inferInstanceAs (Decidable (_ ≤ _))

/-- The loop before its first iteration. -/
def polled (s : Round) (report : Int32 → UInt16) : Round := { reactor := s.reactor.polled report, registry := s.registry }

/-- Every iteration passes a place; at most as many callbacks are called as
descriptors are registered, and each adds at most as many places as it calls. -/
def iterations (behaviour : Nat → List ReactorCall) (n : Nat) : Nat :=
  n + ((List.range n).map fun k => (behaviour k).length).sum

/-- The round after the last iteration. -/
def finish (behaviour : Nat → List ReactorCall) (s : Round) : Round :=
  (step behaviour)^[iterations behaviour s.reactor.pollfds.length] s

/-- `run_for`, where `poll` returns `rc`. -/
def runFor (s : Round) (rc : Int32) (report : Int32 → UInt16) (behaviour : Nat → List ReactorCall) :
    Result Nat × Round :=
  if s.reactor.pollfds = [] then (.ok 0, s)
  else if rc < 0 then (.error (makeError .io "poll failed"), s)
  else if rc = 0 then (.ok 0, s.polled report)
  else
    let s := (s.polled report).finish behaviour
    (.ok s.calls.length, s)

/-- The reactor behind the calls of the sessions. -/
def enrolled (growth : Nat → Nat) (setup : List ReactorCall) : Round where
  reactor := setup.foldl PollReactor.exec { growth := growth }
  registry := setup.foldl Registry.exec {}

end Round

/-- What `poll` reports for a descriptor: nothing, unless it returns that something is ready. -/
def reported (rc : Int32) (report : Int32 → UInt16) (fd : Int32) : UInt16 := if 0 < rc then report fd else 0

/-! ## Places -/

/-- What stands at one place of the two vectors. -/
structure Slot where
  fd : Int32
  revents : UInt16
  callback : Nat

def Slot.entry (x : Slot) : Int32 × Nat := (x.fd, x.callback)

def slot (p : PollFd) (callback : Nat) : Slot := ⟨p.fd, p.revents, callback⟩

namespace PollReactor

/-- The two vectors side by side. -/
def slots (r : PollReactor) : List Slot := List.zipWith slot r.pollfds r.callbacks

variable {r : PollReactor} (hlen : r.pollfds.length = r.callbacks.length)

include hlen in
theorem length_slots : r.slots.length = r.pollfds.length := by
  rw [slots, List.length_zipWith, ← hlen, Nat.min_self]

include hlen in
theorem slots_map_fd : r.slots.map Slot.fd = r.pollfds.map PollFd.fd := by
  apply List.ext_getElem
  · simp [length_slots hlen]
  · intro k h₁ h₂
    simp [slots, slot]

include hlen in
theorem findIndex_eq (fd : Int32) : r.findIndex fd = r.slots.findIdx? fun x => x.fd = fd := by
  have hfind : ∀ {α : Type} (key : α → Int32) (l : List α),
      l.findIdx? (fun x => key x = fd) = (l.map key).findIdx? fun k => k = fd := by
    intro α key l
    rw [List.findIdx?_map]
    rfl
  rw [findIndex, hfind PollFd.fd, hfind Slot.fd, slots_map_fd hlen]

theorem slots_clear (r : PollReactor) (i : Nat) : (r.clear i).slots = r.slots.modify i fun x => { x with revents := 0 } :=
  zipWith_modify (f := slot) (h := fun x => { x with revents := 0 }) (fun _ _ => rfl) _ _ _

theorem slots_modify (r : PollReactor) (fd : Int32) (interest : IoEvent) : (r.modify fd interest).2.slots = r.slots := by
  unfold modify
  split
  · rfl
  · rename_i idx _
    have hsame := zipWith_modify (f := slot) (g := fun p => { p with events := eventsFor interest }) (h := id)
      (fun _ _ => rfl) r.pollfds r.callbacks idx
    exact hsame.trans (List.modify_id _ _)

/-- What a call changes: nothing, or it appends a place that is not ready, or it
takes one away. -/
inductive Change (r : PollReactor) (i : Nat) : ReactorCall → Prop
  | same {op : ReactorCall} (hslots : (r.exec op).slots = r.slots) (hadded : (r.exec op).added = r.added)
      (hmoved : r.moved i op = none) (hregistry : ∀ g : Registry, g.entries = r.slots.map Slot.entry → g.exec op = g) :
      Change r i op
  | added {fd : Int32} {interest : IoEvent} (hnew : fd ∉ r.slots.map Slot.fd)
      (hslots : (r.exec (.add fd interest)).slots = r.slots ++ [⟨fd, 0, r.added⟩])
      (hadded : (r.exec (.add fd interest)).added = r.added + 1) : Change r i (.add fd interest)
  | removed {fd : Int32} {k : Nat} (hfind : r.slots.findIdx? (fun x => x.fd = fd) = some k)
      (hslots : (r.exec (.remove fd)).slots = r.slots.eraseIdx k) (hadded : (r.exec (.remove fd)).added = r.added)
      (hmoved : r.moved i (.remove fd) =
        (r.slots[i + 1]?.filter fun x => k ≤ i ∧ x.revents ≠ 0).map Slot.callback) : Change r i (.remove fd)

include hlen in
theorem length_exec (op : ReactorCall) : (r.exec op).pollfds.length = (r.exec op).callbacks.length := by
  cases op with
  | add fd interest =>
    simp only [exec, add]
    split
    · exact hlen
    · simp [hlen]
  | modify fd interest =>
    simp only [exec, modify]
    split
    · exact hlen
    · simpa using hlen
  | remove fd =>
    simp only [exec, remove]
    split
    · exact hlen
    · simp [List.length_eraseIdx, hlen]

include hlen in
theorem change (i : Nat) (op : ReactorCall) : r.Change i op := by
  cases op with
  | add fd interest =>
    have hmem : (r.findIndex fd).isSome ↔ fd ∈ r.slots.map Slot.fd := by
      rw [findIndex_eq hlen, List.findIdx?_isSome, List.any_eq_true, List.mem_map]
      simp
    by_cases hthere : (r.findIndex fd).isSome
    · refine .same ?_ ?_ rfl ?_
      · simp [exec, add, hthere]
      · simp [exec, add, hthere]
      · intro g hg
        have hfd : fd ∈ g.entries.map Prod.fst := by
          rw [hg, List.map_map]
          exact hmem.1 hthere
        exact if_pos hfd
    · refine .added (fun h => hthere (hmem.2 h)) ?_ ?_
      · simp only [exec, add, if_neg hthere]
        exact List.zipWith_append hlen
      · simp only [exec, add, if_neg hthere]
  | modify fd interest =>
    refine .same (r.slots_modify fd interest) ?_ rfl fun _ _ => rfl
    simp only [exec, modify]
    split <;> rfl
  | remove fd =>
    cases hfind : r.findIndex fd with
    | none =>
      refine .same ?_ ?_ ?_ ?_
      · simp [exec, remove, hfind]
      · simp [exec, remove, hfind]
      · simp [moved, hfind]
      · intro g hg
        rw [findIndex_eq hlen, List.findIdx?_eq_none_iff] at hfind
        have hall : g.entries.filter (fun e => e.1 ≠ fd) = g.entries := by
          rw [List.filter_eq_self, hg]
          simpa [Slot.entry] using hfind
        simp only [Registry.exec, hall]
    | some k =>
      refine .removed (k := k) ?_ ?_ ?_ ?_
      · rw [← findIndex_eq hlen, hfind]
      · simp only [exec, remove, hfind]
        exact (eraseIdx_zipWith _ _ _ _).symm
      · simp only [exec, remove, hfind]
      · simp only [moved, hfind, slots, List.getElem?_zipWith]
        cases r.pollfds[i + 1]? with
        | none => rfl
        | some p =>
          cases r.callbacks[i + 1]? with
          | none => rfl
          | some cb =>
            by_cases hready : k ≤ i ∧ p.revents ≠ 0
            · simp [slot, hready]
            · have hkept : k ≤ i → p.revents = 0 := by simpa using hready
              simpa [slot, hready] using hkept

end PollReactor

end BistColo.Net
