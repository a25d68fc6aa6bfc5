import BistColo.Net.Reactor
import BistColo.StreamKit.Runs
import Mathlib.Data.List.Nodup
/-!
# The epoll reactor

`net/epoll_reactor.hpp`, meant as a drop-in replacement of the poll reactor. It
keeps its callbacks by descriptor, and the kernel keeps what it waits for. The
kernel is a parameter: an `EpollCtl` answers each call of `epoll_ctl` by all that
has happened before. `drop_in_iff` says that only a refused call tells the two
reactors apart, `closed_stays_registered` what becomes of a descriptor that was
closed while it was registered, and `removals_skip_nothing` that its rounds are
not disturbed by removals as those of the poll reactor are.
-/

open StreamKit

namespace BistColo.Net

/-! ## The kernel -/

def epollIn : UInt32 := 0x1
def epollOut : UInt32 := 0x4
def epollErr : UInt32 := 0x8
def epollHup : UInt32 := 0x10
def epollRdHup : UInt32 := 0x2000
def epollEt : UInt32 := 0x80000000

/-- What the kernel gets to see of a program whose descriptors share no open files:
one is opened or closed, or `epoll_ctl` is called. -/
inductive KernelEvent
  | opened (fd : Int32)
  | closed (fd : Int32)
  | ctlAdd (fd : Int32) (events : UInt32)
  | ctlMod (fd : Int32) (events : UInt32)
  | ctlDel (fd : Int32)
deriving DecidableEq

/-- Whether `epoll_ctl` succeeds, by what came before and what it is asked. -/
abbrev EpollCtl := List KernelEvent → KernelEvent → Bool

/-- With its open file, a descriptor leaves the set: until it is added again,
`EPOLL_CTL_MOD` and `EPOLL_CTL_DEL` fail for it. -/
def EpollCtl.ForgetsClosed (ctl : EpollCtl) : Prop :=
  ∀ before fd after, (∀ events, .ctlAdd fd events ∉ after) →
    (∀ events, ctl (before ++ .closed fd :: after) (.ctlMod fd events) = false) ∧
      ctl (before ++ .closed fd :: after) (.ctlDel fd) = false

/-! ## The reactor -/

structure EpollReactor where
  /-- `epoll_create1` has succeeded. -/
  created : Bool := true
  callbacks : List (Int32 × Nat) := []
  /-- how often `add` has registered something -/
  added : Nat := 0
  /-- what the kernel has seen -/
  history : List KernelEvent := []
deriving DecidableEq

/-- A descriptor is opened or closed, or the reactor is called. -/
inductive FdEvent
  | opened (fd : Int32)
  | closed (fd : Int32)
  | call (op : ReactorCall)
deriving DecidableEq

namespace EpollReactor

def eventsFor (e : IoEvent) : UInt32 :=
  let ev := epollEt
  let ev := if e.has .readable then ev ||| (epollIn ||| epollRdHup) else ev
  if e.has .writable then ev ||| epollOut else ev

/-- What a callback is told of the events that `epoll_wait` reported. -/
def eventOf (e : UInt32) : IoEvent :=
  let ev : IoEvent := .none
  let ev := if e &&& epollIn ≠ 0 then ev.or .readable else ev
  let ev := if e &&& epollOut ≠ 0 then ev.or .writable else ev
  if e &&& (epollErr ||| epollHup ||| epollRdHup) ≠ 0 then ev.or .error else ev

/-- `callbacks_.find(fd)` -/
def lookup (r : EpollReactor) (fd : Int32) : Option Nat := (r.callbacks.find? fun e => e.1 = fd).map Prod.snd

def saw (r : EpollReactor) (k : KernelEvent) : EpollReactor := { r with history := r.history ++ [k] }

variable (ctl : EpollCtl)

def add (r : EpollReactor) (fd : Int32) (interest : IoEvent) : Result Unit × EpollReactor :=
  if r.created = false then (.error (makeError .io "epoll_create1 failed"), r)
  else if (r.lookup fd).isSome then (.error (makeError .validation "fd already registered"), r)
  else
    let k := .ctlAdd fd (eventsFor interest)
    if ctl r.history k then
      (.ok (), { r.saw k with callbacks := r.callbacks ++ [(fd, r.added)], added := r.added + 1 })
    else (.error (makeError .io "epoll_ctl ADD failed"), r.saw k)

def modify (r : EpollReactor) (fd : Int32) (interest : IoEvent) : Result Unit × EpollReactor :=
  if r.lookup fd = none then (.error (makeError .validation "fd not registered"), r)
  else
    let k := .ctlMod fd (eventsFor interest)
    if ctl r.history k then (.ok (), r.saw k) else (.error (makeError .io "epoll_ctl MOD failed"), r.saw k)

def remove (r : EpollReactor) (fd : Int32) : Result Unit × EpollReactor :=
  if r.lookup fd = none then (.error (makeError .validation "fd not registered"), r)
  else
    let k := .ctlDel fd
    if ctl r.history k then (.ok (), { r.saw k with callbacks := r.callbacks.filter fun e => e.1 ≠ fd })
    else (.error (makeError .io "epoll_ctl DEL failed"), r.saw k)

def answer (r : EpollReactor) : ReactorCall → Result Unit × EpollReactor
  | .add fd interest => r.add ctl fd interest
  | .modify fd interest => r.modify ctl fd interest
  | .remove fd => r.remove ctl fd

def exec (r : EpollReactor) : FdEvent → EpollReactor
  | .opened fd => r.saw (.opened fd)
  | .closed fd => r.saw (.closed fd)
  | .call op => (r.answer ctl op).2

/-! ## The dispatch loop -/

/-- One of the events that `epoll_wait` fills in. -/
structure Ready where
  fd : Int32
  events : UInt32
deriving DecidableEq

/-- A callback that is called, and for which descriptor. -/
structure Call where
  fd : Int32
  callback : Nat
  event : IoEvent
deriving DecidableEq

/-- The loop of `run_for` after some of the events. -/
structure Round where
  reactor : EpollReactor
  calls : List Call := []
  /-- the descriptors whose callbacks were destroyed while they ran -/
  destroyed : List Int32 := []

/-- What a callback does. It runs in the map, where only its own removal destroys it. -/
def Round.exec (fd : Int32) (callback : Nat) (s : Round) (ev : FdEvent) : Round :=
  let r := s.reactor.exec ctl ev
  { s with
    reactor := r
    destroyed := if r.lookup fd = some callback then s.destroyed else s.destroyed ++ [fd] }

/-- The callback is looked up by descriptor when its event is reached. What the
callbacks do is told by how many were called before, and by their descriptors. -/
def Round.dispatch (behaviour : Nat → Int32 → List FdEvent) (s : Round) (x : Ready) : Round :=
  match s.reactor.lookup x.fd with
  | none => s
  | some callback =>
    (behaviour s.calls.length x.fd).foldl (Round.exec ctl x.fd callback)
      { s with calls := s.calls ++ [⟨x.fd, callback, eventOf x.events⟩] }

/-- `run_for`, where `epoll_wait` fills in `ready`, or fails. -/
def runFor (r : EpollReactor) (ready : Option (List Ready)) (behaviour : Nat → Int32 → List FdEvent) :
    Result Nat × Round :=
  if r.callbacks = [] then (.ok 0, { reactor := r })
  else
    match ready with
    | none => (.error (makeError .io "epoll_wait failed"), { reactor := r })
    | some ready =>
      let s := ready.foldl (Round.dispatch ctl behaviour) { reactor := r }
      (.ok s.calls.length, s)

/-! ## What a call leaves -/

variable {ctl}

theorem lookup_isSome {r : EpollReactor} {fd : Int32} : (r.lookup fd).isSome ↔ fd ∈ r.callbacks.map Prod.fst := by
  rw [lookup, Option.isSome_map, List.find?_isSome, List.mem_map]
  simp

theorem mem_of_lookup {r : EpollReactor} {fd : Int32} {callback : Nat} (h : r.lookup fd = some callback) :
    (fd, callback) ∈ r.callbacks := by
  obtain ⟨e, hfind, rfl⟩ := Option.map_eq_some_iff.1 h
  have hfd : e.1 = fd := by simpa using List.find?_some hfind
  rw [← hfd]
  exact List.mem_of_find?_eq_some hfind

/-- The `epoll_ctl` that a call makes, if it comes to it. -/
def asks (r : EpollReactor) : ReactorCall → Option KernelEvent
  | .add fd interest =>
    if r.created = true ∧ r.lookup fd = none then some (.ctlAdd fd (eventsFor interest)) else none
  | .modify fd interest => if r.lookup fd = none then none else some (.ctlMod fd (eventsFor interest))
  | .remove fd => if r.lookup fd = none then none else some (.ctlDel fd)

/-- What a call does to the map once `epoll_ctl` has succeeded. -/
def keep (r : EpollReactor) : ReactorCall → EpollReactor
  | .add fd _ => { r with callbacks := r.callbacks ++ [(fd, r.added)], added := r.added + 1 }
  | .modify _ _ => r
  | .remove fd => { r with callbacks := r.callbacks.filter fun e => e.1 ≠ fd }

/-- A call that comes to no `epoll_ctl` changes nothing. -/
theorem answer_unasked {r : EpollReactor} {op : ReactorCall} (h : r.asks op = none) : (r.answer ctl op).2 = r := by
  cases op with
  | add fd interest =>
    simp only [asks, ite_eq_right_iff, reduceCtorEq, imp_false, not_and] at h
    simp only [answer, add]
    split
    · rfl
    · rename_i hcreated
      rw [if_pos (Option.isSome_iff_ne_none.2 (h (Bool.not_eq_false _ ▸ hcreated)))]
  | modify fd interest =>
    have hnone : r.lookup fd = none := by
      by_contra hsome
      rw [asks, if_neg hsome] at h
      cases h
    rw [answer, modify, if_pos hnone]
  | remove fd =>
    have hnone : r.lookup fd = none := by
      by_contra hsome
      rw [asks, if_neg hsome] at h
      cases h
    rw [answer, remove, if_pos hnone]

/-- A call that comes to an `epoll_ctl` does what is asked exactly if the kernel does. -/
theorem answer_asked (ctl : EpollCtl) {r : EpollReactor} {op : ReactorCall} {k : KernelEvent} (h : r.asks op = some k) :
    ((r.answer ctl op).1 = .ok () ↔ ctl r.history k = true) ∧
      (r.answer ctl op).2 = if ctl r.history k then (r.saw k).keep op else r.saw k := by
  cases op with
  | add fd interest =>
    obtain ⟨⟨hcreated, hnew⟩, hk⟩ := Option.ite_none_right_eq_some.1 h
    cases hk
    simp only [answer, add, hcreated, hnew]
    by_cases hctl : ctl r.history (.ctlAdd fd (eventsFor interest)) = true
    · simp [hctl, keep, saw]
    · simp [hctl]
  | modify fd interest =>
    obtain ⟨hknown, hk⟩ := Option.ite_none_left_eq_some.1 h
    cases hk
    simp only [answer, modify, if_neg hknown]
    by_cases hctl : ctl r.history (.ctlMod fd (eventsFor interest)) = true
    · simp [hctl, keep]
    · simp [hctl]
  | remove fd =>
    obtain ⟨hknown, hk⟩ := Option.ite_none_left_eq_some.1 h
    cases hk
    simp only [answer, remove, if_neg hknown]
    by_cases hctl : ctl r.history (.ctlDel fd) = true
    · simp [hctl, keep, saw]
    · simp [hctl]

/-- An event leaves the callbacks as they are, or adds one for a descriptor that
has none, or takes that of a descriptor away. -/
theorem callbacks_exec (ctl : EpollCtl) (r : EpollReactor) (ev : FdEvent) :
    (r.exec ctl ev).callbacks = r.callbacks ∨
      (∃ fd interest, ev = .call (.add fd interest) ∧ r.lookup fd = none ∧
        (r.exec ctl ev).callbacks = r.callbacks ++ [(fd, r.added)]) ∨
      ∃ fd, ev = .call (.remove fd) ∧ (r.exec ctl ev).callbacks = r.callbacks.filter fun e => e.1 ≠ fd := by
  cases ev with
  | opened fd => exact .inl rfl
  | closed fd => exact .inl rfl
  | call op =>
    rw [exec]
    cases hasks : r.asks op with
    | none => exact .inl (congrArg callbacks (answer_unasked hasks))
    | some k =>
      rw [(answer_asked ctl hasks).2]
      split
      · cases op with
        | add fd interest =>
          exact .inr (.inl ⟨fd, interest, rfl, (Option.ite_none_right_eq_some.1 hasks).1.2, rfl⟩)
        | modify fd interest => exact .inl rfl
        | remove fd => exact .inr (.inr ⟨fd, rfl, rfl⟩)
      · exact .inl rfl

theorem created_exec (r : EpollReactor) (ev : FdEvent) : (r.exec ctl ev).created = r.created := by
  cases ev with
  | opened fd => rfl
  | closed fd => rfl
  | call op =>
    rw [exec]
    cases hasks : r.asks op with
    | none => exact congrArg created (answer_unasked hasks)
    | some k =>
      rw [(answer_asked ctl hasks).2]
      split
      · cases op with
        | add fd interest => rfl
        | modify fd interest => rfl
        | remove fd => rfl
      · rfl

/-- Taking another descriptor's callback away does not change what is found. -/
theorem find_without {fd fd' : Int32} (hne : fd ≠ fd') (callbacks : List (Int32 × Nat)) :
    ((callbacks.filter fun e => e.1 ≠ fd').find? fun e => e.1 = fd) = callbacks.find? fun e => e.1 = fd := by
  rw [List.find?_filter]
  congr 1
  funext e
  by_cases he : e.1 = fd
  · simp [he, hne]
  · simp [he]

/-- A descriptor keeps its callback unless it is removed. -/
theorem lookup_exec {r : EpollReactor} {ev : FdEvent} {fd : Int32} {callback : Nat} (hkeeps : ev ≠ .call (.remove fd))
    (h : r.lookup fd = some callback) : (r.exec ctl ev).lookup fd = some callback := by
  rcases r.callbacks_exec ctl ev with hsame | ⟨fd', interest, rfl, -, hadded⟩ | ⟨fd', rfl, hremoved⟩
  · rwa [lookup, hsame]
  · obtain ⟨e, hfind, rfl⟩ := Option.map_eq_some_iff.1 h
    rw [lookup, hadded, List.find?_append, hfind]
    rfl
  · have hne : fd ≠ fd' := by
      rintro rfl
      exact hkeeps rfl
    rw [lookup, hremoved, find_without hne, ← lookup, h]

/-- Unless it is added, a descriptor has no callback that it did not have before. -/
theorem lookup_of_exec {r : EpollReactor} {ev : FdEvent} {fd : Int32} {callback : Nat}
    (hkeeps : ∀ interest, ev ≠ .call (.add fd interest)) (h : (r.exec ctl ev).lookup fd = some callback) :
    r.lookup fd = some callback := by
  rcases r.callbacks_exec ctl ev with hsame | ⟨fd', interest, rfl, -, hadded⟩ | ⟨fd', rfl, hremoved⟩
  · rwa [lookup, hsame] at h
  · have hne : ¬ fd' = fd := by
      rintro rfl
      exact hkeeps interest rfl
    rwa [lookup, hadded, List.find?_append, List.find?_singleton, if_neg (by simpa using hne), Option.or_none] at h
  · rw [lookup, hremoved] at h
    have hne : fd ≠ fd' := by
      rintro rfl
      obtain ⟨e, hfind, -⟩ := Option.map_eq_some_iff.1 h
      have hkept : e.1 ≠ fd := by simpa using (List.mem_filter.1 (List.mem_of_find?_eq_some hfind)).2
      exact hkept (by simpa using List.find?_some hfind)
    rwa [find_without hne, ← lookup] at h

/-! ## A descriptor that is closed first -/

/-- It has a callback, and was closed and not added since. -/
structure Lost (r : EpollReactor) (fd : Int32) : Prop where
  created : r.created = true
  called : (r.lookup fd).isSome = true
  closed : ∃ before after, r.history = before ++ .closed fd :: after ∧ ∀ events, .ctlAdd fd events ∉ after

/-- The kernel sees something that is no `EPOLL_CTL_ADD` of the descriptor. -/
theorem Lost.saw {r : EpollReactor} {fd : Int32} (h : r.Lost fd) {k : KernelEvent} (hk : ∀ events, k ≠ .ctlAdd fd events) :
    (r.saw k).Lost fd := by
  obtain ⟨before, after, hhistory, hnone⟩ := h.closed
  refine ⟨h.created, h.called, before, after ++ [k], ?_, ?_⟩
  · rw [EpollReactor.saw, hhistory, List.append_assoc, List.cons_append]
  · intro events hmem
    rcases List.mem_append.1 hmem with hmem | hmem
    · exact hnone events hmem
    · exact hk events (List.mem_singleton.1 hmem).symm

section Lost

variable {r : EpollReactor} {fd : Int32} (interest : IoEvent)

theorem Lost.add (h : r.Lost fd) : r.add ctl fd interest = (.error (makeError .validation "fd already registered"), r) := by
  rw [EpollReactor.add, if_neg (by rw [h.created]; decide), if_pos h.called]

theorem Lost.modify (h : r.Lost fd) (hctl : ctl.ForgetsClosed) : r.modify ctl fd interest =
    (.error (makeError .io "epoll_ctl MOD failed"), r.saw (.ctlMod fd (eventsFor interest))) := by
  obtain ⟨before, after, hhistory, hnone⟩ := h.closed
  have hrefused := (hctl before fd after hnone).1 (eventsFor interest)
  rw [← hhistory] at hrefused
  rw [EpollReactor.modify, if_neg (Option.isSome_iff_ne_none.1 h.called)]
  simp [hrefused]

theorem Lost.remove (h : r.Lost fd) (hctl : ctl.ForgetsClosed) :
    r.remove ctl fd = (.error (makeError .io "epoll_ctl DEL failed"), r.saw (.ctlDel fd)) := by
  obtain ⟨before, after, hhistory, hnone⟩ := h.closed
  have hrefused := (hctl before fd after hnone).2
  rw [← hhistory] at hrefused
  rw [EpollReactor.remove, if_neg (Option.isSome_iff_ne_none.1 h.called)]
  simp [hrefused]

end Lost

theorem Lost.exec (hctl : ctl.ForgetsClosed) {r : EpollReactor} {fd : Int32} (h : r.Lost fd) (ev : FdEvent) :
    (r.exec ctl ev).Lost fd := by
  cases ev with
  | opened fd' => exact h.saw fun events => nofun
  | closed fd' => exact h.saw fun events => nofun
  | call op =>
    by_cases hremove : op = .remove fd
    · rw [hremove]
      change (r.remove ctl fd).2.Lost fd
      rw [h.remove hctl]
      exact h.saw fun events => nofun
    · obtain ⟨callback, hcallback⟩ := Option.isSome_iff_exists.1 h.called
      have hcalled : ((r.exec ctl (.call op)).lookup fd).isSome = true := by
        rw [lookup_exec (fun heq => hremove (FdEvent.call.inj heq)) hcallback]
        rfl
      refine ⟨(r.created_exec _).trans h.created, hcalled, ?_⟩
      rw [EpollReactor.exec]
      cases hasks : r.asks op with
      | none =>
        rw [answer_unasked hasks]
        exact h.closed
      | some k =>
        have hk : ∀ events, k ≠ .ctlAdd fd events := by
          rintro events rfl
          cases op with
          | add fd' interest =>
            obtain ⟨⟨-, hnew⟩, hk⟩ := Option.ite_none_right_eq_some.1 hasks
            cases hk
            rw [hnew] at hcallback
            cases hcallback
          | modify fd' interest => cases (Option.ite_none_left_eq_some.1 hasks).2
          | remove fd' => cases (Option.ite_none_left_eq_some.1 hasks).2
        have hsame : (r.answer ctl op).2.history = (r.saw k).history := by
          rw [(answer_asked ctl hasks).2]
          split
          · cases op with
            | add fd' interest => rfl
            | modify fd' interest => rfl
            | remove fd' => rfl
          · rfl
        rw [hsame]
        exact (h.saw hk).closed

/-- Whatever comes after, a descriptor that was closed while it was registered can
be neither added again nor modified nor removed. -/
theorem closed_stays_registered {ctl : EpollCtl} (hctl : ctl.ForgetsClosed) (before after : List FdEvent) (fd : Int32)
    (interest : IoEvent) (hregistered : ((run (exec ctl) {} before).lookup fd).isSome = true) :
    let r := run (exec ctl) {} (before ++ .closed fd :: after)
    (r.lookup fd).isSome = true ∧
      r.add ctl fd interest = (.error (makeError .validation "fd already registered"), r) ∧
      (r.modify ctl fd interest).1 = .error (makeError .io "epoll_ctl MOD failed") ∧
      (r.remove ctl fd).1 = .error (makeError .io "epoll_ctl DEL failed") := by
  have hcreated : (run (exec ctl) {} before).created = true :=
    run_inv_all (fun r : EpollReactor => r.created = true) (fun r ev hr => (r.created_exec ev).trans hr) rfl
  have hclosed : ((run (exec ctl) {} before).exec ctl (.closed fd)).Lost fd :=
    ⟨hcreated, hregistered, _, [], rfl, fun events => List.not_mem_nil⟩
  have hlost : (run (exec ctl) {} (before ++ .closed fd :: after)).Lost fd := by
    rw [run_append, run_cons]
    exact run_inv_all (fun r : EpollReactor => r.Lost fd) (fun r ev hr => hr.exec hctl ev) hclosed
  exact ⟨hlost.called, hlost.add interest, congrArg Prod.fst (hlost.modify interest hctl),
    congrArg Prod.fst (hlost.remove hctl)⟩

/-- Whether a descriptor is open, and whether it is in the set. -/
def tracked (fd : Int32) (s : Bool × Bool) : KernelEvent → Bool × Bool
  | .opened fd' => if fd' = fd then (true, s.2) else s
  | .closed fd' => if fd' = fd then (false, false) else s
  | .ctlAdd fd' _ => if fd' = fd then (s.1, s.1) else s
  | .ctlMod _ _ => s
  | .ctlDel fd' => if fd' = fd then (s.1, false) else s

/-- A kernel for descriptors of sockets that are not shared. -/
def plainCtl : EpollCtl := fun history k =>
  let state := fun fd => history.foldl (tracked fd) (false, false)
  match k with
  | .ctlAdd fd _ => (state fd).1 && !(state fd).2
  | .ctlMod fd _ => (state fd).2
  | .ctlDel fd => (state fd).2
  | _ => true

theorem plainCtl_forgetsClosed : plainCtl.ForgetsClosed := by
  have hstays : ∀ (fd : Int32) (after : List KernelEvent) (s : Bool × Bool), (∀ events, .ctlAdd fd events ∉ after) →
      s.2 = false → (after.foldl (tracked fd) s).2 = false := by
    intro fd after
    induction after with
    | nil => exact fun s _ hs => hs
    | cons k after ih =>
      intro s hnone hs
      refine ih _ (fun events hmem => hnone events (List.mem_cons_of_mem _ hmem)) ?_
      cases k with
      | opened fd' =>
        rw [tracked]
        split
        · exact hs
        · exact hs
      | closed fd' =>
        rw [tracked]
        split
        · rfl
        · exact hs
      | ctlAdd fd' events =>
        have hne : ¬ fd' = fd := by
          rintro rfl
          exact hnone events List.mem_cons_self
        rw [tracked, if_neg hne]
        exact hs
      | ctlMod fd' events => exact hs
      | ctlDel fd' =>
        rw [tracked]
        split
        · rfl
        · exact hs
  intro before fd after hnone
  have hout : ((before ++ .closed fd :: after).foldl (tracked fd) (false, false)).2 = false := by
    rw [List.foldl_append, List.foldl_cons]
    exact hstays fd after _ hnone (by rw [tracked, if_pos rfl])
  exact ⟨fun events => hout, hout⟩

theorem closed_stays_registered_reopened :
    let r := run (exec plainCtl) {} ([.opened 5, .call (.add 5 .readable)] ++ .closed 5 :: [.opened 5])
    (r.lookup 5).isSome = true ∧
      r.add plainCtl 5 .readable = (.error (makeError .validation "fd already registered"), r) ∧
      (r.modify plainCtl 5 .readable).1 = .error (makeError .io "epoll_ctl MOD failed") ∧
      (r.remove plainCtl 5).1 = .error (makeError .io "epoll_ctl DEL failed") :=
  closed_stays_registered plainCtl_forgetsClosed [.opened 5, .call (.add 5 .readable)] [.opened 5] 5 .readable
    (by decide)

/-! ## A round -/

section Dispatch

variable {behaviour : Nat → Int32 → List FdEvent} {ready : List Ready}

theorem calls_foldl (fd : Int32) (callback : Nat) (s : Round) (events : List FdEvent) :
    (events.foldl (Round.exec ctl fd callback) s).calls = s.calls ∧
      (events.foldl (Round.exec ctl fd callback) s).reactor = events.foldl (exec ctl) s.reactor := by
  induction events generalizing s with
  | nil => exact ⟨rfl, rfl⟩
  | cons ev events ih => exact ih (s.exec ctl fd callback ev)

/-- A callback that does not remove its own descriptor runs to its end. -/
theorem destroyed_foldl {fd : Int32} {callback : Nat} {s : Round} {events : List FdEvent}
    (hown : .call (.remove fd) ∉ events) (h : s.reactor.lookup fd = some callback) :
    (events.foldl (Round.exec ctl fd callback) s).destroyed = s.destroyed := by
  induction events generalizing s with
  | nil => rfl
  | cons ev events ih =>
    have hne : ev ≠ .call (.remove fd) := by
      rintro rfl
      exact hown List.mem_cons_self
    have hkept : (s.exec ctl fd callback ev).reactor.lookup fd = some callback := lookup_exec hne h
    rw [List.foldl_cons, ih (fun hmem => hown (List.mem_cons_of_mem _ hmem)) hkept]
    exact if_pos hkept

theorem lookup_of_run {events : List FdEvent} {fd : Int32} {callback : Nat} {r : EpollReactor}
    (hkeeps : ∀ interest, .call (.add fd interest) ∉ events)
    (h : (events.foldl (exec ctl) r).lookup fd = some callback) : r.lookup fd = some callback := by
  induction events generalizing r with
  | nil => exact h
  | cons ev events ih =>
    have hrest := ih (fun interest hmem => hkeeps interest (List.mem_cons_of_mem _ hmem)) h
    refine lookup_of_exec ?_ hrest
    rintro interest rfl
    exact hkeeps interest List.mem_cons_self

theorem dispatch_none {s : Round} {x : Ready} (h : s.reactor.lookup x.fd = none) : s.dispatch ctl behaviour x = s := by
  simp only [Round.dispatch, h]

theorem dispatch_some (ctl : EpollCtl) (behaviour : Nat → Int32 → List FdEvent) {s : Round} {x : Ready} {callback : Nat}
    (h : s.reactor.lookup x.fd = some callback) :
    (s.dispatch ctl behaviour x).calls = s.calls ++ [⟨x.fd, callback, eventOf x.events⟩] ∧
      (s.dispatch ctl behaviour x).reactor = (behaviour s.calls.length x.fd).foldl (exec ctl) s.reactor ∧
      (.call (.remove x.fd) ∉ behaviour s.calls.length x.fd → (s.dispatch ctl behaviour x).destroyed = s.destroyed) := by
  have hnext : s.dispatch ctl behaviour x = (behaviour s.calls.length x.fd).foldl (Round.exec ctl x.fd callback)
      { s with calls := s.calls ++ [⟨x.fd, callback, eventOf x.events⟩] } := by
    simp only [Round.dispatch, h]
  rw [hnext]
  exact ⟨(calls_foldl _ _ _ _).1, (calls_foldl _ _ _ _).2, fun hown => destroyed_foldl hown h⟩

theorem lookup_of_dispatch {s : Round} {fd : Int32} {callback : Nat}
    (hkeeps : ∀ k fd' interest, .call (.add fd interest) ∉ behaviour k fd')
    (h : (ready.foldl (Round.dispatch ctl behaviour) s).reactor.lookup fd = some callback) :
    s.reactor.lookup fd = some callback := by
  induction ready generalizing s with
  | nil => exact h
  | cons x ready ih =>
    have hnext : (s.dispatch ctl behaviour x).reactor.lookup fd = some callback := ih h
    cases hlookup : s.reactor.lookup x.fd with
    | none => rwa [dispatch_none hlookup] at hnext
    | some callback' =>
      rw [(dispatch_some ctl behaviour hlookup).2.1] at hnext
      exact lookup_of_run (hkeeps _ _) hnext

theorem destroyed_dispatch {s : Round} (hown : ∀ k fd, .call (.remove fd) ∉ behaviour k fd) :
    (ready.foldl (Round.dispatch ctl behaviour) s).destroyed = s.destroyed := by
  induction ready generalizing s with
  | nil => rfl
  | cons x ready ih =>
    rw [List.foldl_cons, ih]
    cases hlookup : s.reactor.lookup x.fd with
    | none => rw [dispatch_none hlookup]
    | some callback => exact (dispatch_some ctl behaviour hlookup).2.2 (hown _ _)

/-- The calls that the rest of the reported events bring. -/
theorem dispatch_all (ctl : EpollCtl) (s : Round)
    (hkeeps : ∀ x ∈ ready, ∀ k fd interest, .call (.add x.fd interest) ∉ behaviour k fd) :
    ∃ calls, (ready.foldl (Round.dispatch ctl behaviour) s).calls = s.calls ++ calls ∧
      (calls.map Call.fd).Sublist (ready.map Ready.fd) ∧
      (∀ c ∈ calls, s.reactor.lookup c.fd = some c.callback ∧
        ∃ x ∈ ready, x.fd = c.fd ∧ eventOf x.events = c.event) ∧
      ∀ x ∈ ready, ∀ callback, (ready.foldl (Round.dispatch ctl behaviour) s).reactor.lookup x.fd = some callback →
        ⟨x.fd, callback, eventOf x.events⟩ ∈ calls := by
  induction ready generalizing s with
  | nil =>
    refine ⟨[], (List.append_nil _).symm, List.Sublist.refl _, ?_, ?_⟩
    · intro c hc
      exact absurd hc List.not_mem_nil
    · intro x hx
      exact absurd hx List.not_mem_nil
  | cons x ready ih =>
    have hrest : ∀ y ∈ ready, ∀ k fd interest, .call (.add y.fd interest) ∉ behaviour k fd :=
      fun y hy => hkeeps y (List.mem_cons_of_mem _ hy)
    rw [List.foldl_cons]
    obtain ⟨calls, hcalls, hsub, hright, hall⟩ := ih (s.dispatch ctl behaviour x) hrest
    have hlast : ∀ callback, (ready.foldl (Round.dispatch ctl behaviour) (s.dispatch ctl behaviour x)).reactor.lookup x.fd =
        some callback → s.reactor.lookup x.fd = some callback := by
      intro callback h
      exact @lookup_of_dispatch ctl behaviour (x :: ready) s x.fd callback (hkeeps x List.mem_cons_self) h
    cases hlookup : s.reactor.lookup x.fd with
    | none =>
      have hsame : s.dispatch ctl behaviour x = s := dispatch_none hlookup
      rw [hsame] at hcalls hright hall hlast ⊢
      refine ⟨calls, hcalls, hsub.cons _, ?_, ?_⟩
      · intro c hc
        obtain ⟨hfirst, y, hy, hreported⟩ := hright c hc
        exact ⟨hfirst, y, List.mem_cons_of_mem _ hy, hreported⟩
      · intro y hy callback h
        rcases List.mem_cons.1 hy with rfl | hy
        · rw [hlast callback h] at hlookup
          cases hlookup
        · exact hall y hy callback h
    | some callback =>
      obtain ⟨hcalled, hreactor, -⟩ := dispatch_some ctl behaviour hlookup
      rw [hcalled] at hcalls
      rw [hreactor] at hright
      refine ⟨⟨x.fd, callback, eventOf x.events⟩ :: calls, ?_, hsub.cons_cons _, ?_, ?_⟩
      · rw [hcalls, List.append_assoc, List.singleton_append]
      · intro c hc
        rcases List.mem_cons.1 hc with rfl | hc
        · exact ⟨hlookup, x, List.mem_cons_self, rfl, rfl⟩
        · obtain ⟨hfirst, y, hy, hfd, hevent⟩ := hright c hc
          refine ⟨?_, y, List.mem_cons_of_mem _ hy, hfd, hevent⟩
          apply lookup_of_run (fun interest => ?_) hfirst
          rw [← hfd]
          exact hrest y hy _ _ interest
      · intro y hy callback' h
        rcases List.mem_cons.1 hy with rfl | hy
        · have hsame : some callback = some callback' := hlookup.symm.trans (hlast callback' h)
          rw [Option.some.inj hsame]
          exact List.mem_cons_self
        · exact List.mem_cons_of_mem _ (hall y hy callback' h)

/-- Where no callback removes its own descriptor or adds one that the round
reports: every callback runs to its end; every call is one of the callback that the
descriptor had before the round, of its event, in the order of the report; and
nothing that is still registered at the end was left out. -/
theorem removals_skip_nothing (ctl : EpollCtl) (r : EpollReactor) (ready : List Ready)
    (behaviour : Nat → Int32 → List FdEvent) (hown : ∀ k fd, .call (.remove fd) ∉ behaviour k fd)
    (hkeeps : ∀ x ∈ ready, ∀ k fd interest, .call (.add x.fd interest) ∉ behaviour k fd) :
    let s := (r.runFor ctl (some ready) behaviour).2
    (r.runFor ctl (some ready) behaviour).1 = .ok s.calls.length ∧ s.destroyed = [] ∧
      (s.calls.map Call.fd).Sublist (ready.map Ready.fd) ∧
      (∀ c ∈ s.calls, r.lookup c.fd = some c.callback ∧ ∃ x ∈ ready, x.fd = c.fd ∧ eventOf x.events = c.event) ∧
      ∀ x ∈ ready, ∀ callback, s.reactor.lookup x.fd = some callback →
        ⟨x.fd, callback, eventOf x.events⟩ ∈ s.calls := by
  unfold runFor
  by_cases hempty : r.callbacks = []
  · rw [if_pos hempty]
    refine ⟨rfl, rfl, List.nil_sublist _, ?_, ?_⟩
    · intro c hc
      exact absurd hc List.not_mem_nil
    · intro x _ callback h
      have hmem := mem_of_lookup h
      rw [hempty] at hmem
      exact absurd hmem List.not_mem_nil
  · rw [if_neg hempty]
    obtain ⟨calls, hcalls, hsub, hright, hall⟩ := dispatch_all ctl { reactor := r } hkeeps
    rw [List.nil_append] at hcalls
    rw [← hcalls] at hsub hright hall
    exact ⟨rfl, destroyed_dispatch hown, hsub, hright, hall⟩

/-- The first callback removes the second descriptor, and the third is called. -/
theorem removals_skip_nothing_three :
    let r := [FdEvent.opened 3, .opened 4, .opened 5, .call (.add 3 .readable), .call (.add 4 .readable),
      .call (.add 5 .readable)].foldl (exec plainCtl) {}
    let s := (r.runFor plainCtl (some [⟨3, epollIn⟩, ⟨4, epollIn⟩, ⟨5, epollIn⟩]) fun _ fd =>
      if fd = 3 then [.call (.remove 4)] else []).2
    s.calls = [⟨3, 0, .readable⟩, ⟨5, 2, .readable⟩] ∧ ⟨5, 2, eventOf epollIn⟩ ∈ s.calls := by
  refine ⟨by decide +kernel, ?_⟩
  refine (removals_skip_nothing plainCtl _ [⟨3, epollIn⟩, ⟨4, epollIn⟩, ⟨5, epollIn⟩] _ ?_ ?_).2.2.2.2
    ⟨5, epollIn⟩ ?_ 2 ?_
  · intro _ fd
    by_cases hfd : fd = 3
    · rw [if_pos hfd, hfd]
      decide
    · rw [if_neg hfd]
      exact List.not_mem_nil
  · intro x _ _ fd interest
    by_cases hfd : fd = 3 <;> simp [hfd]
  · simp
  · decide +kernel

end Dispatch

end EpollReactor

/-! ## The two reactors side by side -/

namespace PollReactor

def answer (r : PollReactor) : ReactorCall → Result Unit × PollReactor
  | .add fd interest => r.add fd interest
  | .modify fd interest => r.modify fd interest
  | .remove fd => r.remove fd

def fds (r : PollReactor) : List Int32 := r.pollfds.map PollFd.fd

variable {r : PollReactor} {fd : Int32}

theorem findIndex_isSome : (r.findIndex fd).isSome ↔ fd ∈ r.fds := by
  rw [findIndex, List.findIdx?_isSome, List.any_eq_true, fds, List.mem_map]
  simp

theorem findIndex_eq_none : r.findIndex fd = none ↔ fd ∉ r.fds := by
  rw [← findIndex_isSome, Option.not_isSome_iff_eq_none]

theorem add_known (h : fd ∈ r.fds) (interest : IoEvent) :
    r.add fd interest = (.error (makeError .validation "fd already registered"), r) :=
  if_pos (findIndex_isSome.2 h)

theorem add_new (h : fd ∉ r.fds) (interest : IoEvent) :
    (r.add fd interest).1 = .ok () ∧ (r.add fd interest).2.fds = r.fds ++ [fd] := by
  have hnot : ¬ (r.findIndex fd).isSome = true := fun hsome => h (findIndex_isSome.1 hsome)
  rw [add, if_neg hnot]
  exact ⟨rfl, by simp [fds]⟩

theorem modify_fds (r : PollReactor) (fd : Int32) (interest : IoEvent) :
    (r.modify fd interest).1 = (if fd ∈ r.fds then .ok () else .error (makeError .validation "fd not registered")) ∧
      (r.modify fd interest).2.fds = r.fds := by
  unfold modify
  cases hfind : r.findIndex fd with
  | none => exact ⟨(if_neg (findIndex_eq_none.1 hfind)).symm, rfl⟩
  | some idx =>
    have hmem : fd ∈ r.fds := findIndex_isSome.1 (by rw [hfind]; rfl)
    refine ⟨(if_pos hmem).symm, ?_⟩
    apply List.ext_getElem?
    intro j
    simp only [fds, List.getElem?_map, List.getElem?_modify]
    cases r.pollfds[j]? with
    | none => rfl
    | some p => by_cases hj : idx = j <;> simp [hj]

theorem modify_new (h : fd ∉ r.fds) (interest : IoEvent) :
    r.modify fd interest = (.error (makeError .validation "fd not registered"), r) := by
  simp only [modify, findIndex_eq_none.2 h]

theorem remove_new (h : fd ∉ r.fds) : r.remove fd = (.error (makeError .validation "fd not registered"), r) := by
  simp only [remove, findIndex_eq_none.2 h]

theorem remove_fds (hnodup : r.fds.Nodup) (fd : Int32) :
    (r.remove fd).1 = (if fd ∈ r.fds then .ok () else .error (makeError .validation "fd not registered")) ∧
      (r.remove fd).2.fds = r.fds.filter (· ≠ fd) := by
  unfold remove
  cases hfind : r.findIndex fd with
  | none =>
    have hnew := findIndex_eq_none.1 hfind
    refine ⟨(if_neg hnew).symm, (List.filter_eq_self.2 ?_).symm⟩
    intro fd' hmem
    apply decide_eq_true
    rintro rfl
    exact hnew hmem
  | some idx =>
    have hmem : fd ∈ r.fds := findIndex_isSome.1 (by rw [hfind]; rfl)
    refine ⟨(if_pos hmem).symm, ?_⟩
    have herase : (r.pollfds.filter fun p => p.fd ≠ fd) = r.pollfds.eraseIdx idx := filter_eq_eraseIdx hnodup hfind
    dsimp only [fds]
    rw [← herase, List.filter_map]
    rfl

theorem answer_nodup (hnodup : r.fds.Nodup) (op : ReactorCall) : (r.answer op).2.fds.Nodup := by
  cases op with
  | add fd interest =>
    by_cases hmem : fd ∈ r.fds
    · rwa [answer, add_known hmem]
    · rw [answer, (add_new hmem interest).2, List.nodup_append]
      refine ⟨hnodup, List.nodup_singleton _, ?_⟩
      intro fd' hfd' fd'' hfd''
      rw [List.mem_singleton.1 hfd'']
      rintro rfl
      exact hmem hfd'
  | modify fd interest => rwa [answer, (r.modify_fds fd interest).2]
  | remove fd =>
    rw [answer, (remove_fds hnodup fd).2]
    exact hnodup.filter _

end PollReactor

/-- Both reactors under the same events. -/
structure Twins where
  poll : PollReactor
  epoll : EpollReactor := {}

namespace Twins

variable (ctl : EpollCtl)

def step (t : Twins) (ev : FdEvent) : Twins where
  poll := match ev with
    | .call op => (t.poll.answer op).2
    | _ => t.poll
  epoll := t.epoll.exec ctl ev

/-- The reactors return the same. -/
def SameAnswer (t : Twins) : FdEvent → Prop
  | .call op => (t.poll.answer op).1 = (t.epoll.answer ctl op).1
  | _ => True

/-- The `epoll_ctl` that the call makes, if any, succeeds. -/
def Accepted (t : Twins) : FdEvent → Prop
  | .call op => ∀ k, t.epoll.asks op = some k → ctl t.epoll.history k = true
  | _ => True

/-- The same descriptors are registered with both. -/
structure Tracks (t : Twins) : Prop where
  created : t.epoll.created = true
  nodup : t.poll.fds.Nodup
  same : ∀ fd, fd ∈ t.poll.fds ↔ (t.epoll.lookup fd).isSome

variable {ctl} {t : Twins}

/-- What the poll reactor does not refuse, the epoll reactor asks the kernel for. -/
theorem Tracks.asks_iff (h : t.Tracks) (op : ReactorCall) :
    (t.epoll.asks op).isSome ↔ (t.poll.answer op).1 = .ok () := by
  cases op with
  | add fd interest =>
    have hsame := h.same fd
    by_cases hmem : fd ∈ t.poll.fds
    · have hsome : t.epoll.lookup fd ≠ none := Option.isSome_iff_ne_none.1 (hsame.1 hmem)
      rw [PollReactor.answer, PollReactor.add_known hmem, EpollReactor.asks, if_neg fun hboth => hsome hboth.2]
      exact iff_of_false Bool.false_ne_true nofun
    · have hnone : t.epoll.lookup fd = none := Option.not_isSome_iff_eq_none.1 (mt hsame.2 hmem)
      rw [PollReactor.answer, (PollReactor.add_new hmem interest).1, EpollReactor.asks, if_pos ⟨h.created, hnone⟩]
      exact iff_of_true rfl rfl
  | modify fd interest =>
    have hsame := h.same fd
    rw [PollReactor.answer, (t.poll.modify_fds fd interest).1, EpollReactor.asks]
    by_cases hmem : fd ∈ t.poll.fds
    · rw [if_pos hmem, if_neg (Option.isSome_iff_ne_none.1 (hsame.1 hmem))]
      exact iff_of_true rfl rfl
    · rw [if_neg hmem, if_pos (Option.not_isSome_iff_eq_none.1 (mt hsame.2 hmem))]
      exact iff_of_false Bool.false_ne_true nofun
  | remove fd =>
    have hsame := h.same fd
    rw [PollReactor.answer, (PollReactor.remove_fds h.nodup fd).1, EpollReactor.asks]
    by_cases hmem : fd ∈ t.poll.fds
    · rw [if_pos hmem, if_neg (Option.isSome_iff_ne_none.1 (hsame.1 hmem))]
      exact iff_of_true rfl rfl
    · rw [if_neg hmem, if_pos (Option.not_isSome_iff_eq_none.1 (mt hsame.2 hmem))]
      exact iff_of_false Bool.false_ne_true nofun

/-- What both refuse, they refuse alike. -/
theorem Tracks.refused (ctl : EpollCtl) (h : t.Tracks) {op : ReactorCall} (hnone : t.epoll.asks op = none) :
    (t.poll.answer op).1 = (t.epoll.answer ctl op).1 ∧ (t.poll.answer op).2 = t.poll := by
  have hnot : ¬ (t.poll.answer op).1 = .ok () := by
    rw [← h.asks_iff op, hnone]
    exact Bool.false_ne_true
  cases op with
  | add fd interest =>
    have hsame := h.same fd
    have hmem : fd ∈ t.poll.fds := by
      by_contra hmem
      exact hnot (PollReactor.add_new hmem interest).1
    rw [PollReactor.answer, PollReactor.add_known hmem, EpollReactor.answer, EpollReactor.add,
      if_neg (by rw [h.created]; decide), if_pos (hsame.1 hmem)]
    exact ⟨rfl, rfl⟩
  | modify fd interest =>
    have hsame := h.same fd
    have hmem : fd ∉ t.poll.fds := by
      intro hmem
      rw [PollReactor.answer, (t.poll.modify_fds fd interest).1, if_pos hmem] at hnot
      exact hnot rfl
    rw [PollReactor.answer, PollReactor.modify_new hmem, EpollReactor.answer, EpollReactor.modify,
      if_pos (Option.not_isSome_iff_eq_none.1 (mt hsame.2 hmem))]
    exact ⟨rfl, rfl⟩
  | remove fd =>
    have hsame := h.same fd
    have hmem : fd ∉ t.poll.fds := by
      intro hmem
      rw [PollReactor.answer, (PollReactor.remove_fds h.nodup fd).1, if_pos hmem] at hnot
      exact hnot rfl
    rw [PollReactor.answer, PollReactor.remove_new hmem, EpollReactor.answer, EpollReactor.remove,
      if_pos (Option.not_isSome_iff_eq_none.1 (mt hsame.2 hmem))]
    exact ⟨rfl, rfl⟩

theorem Tracks.sameAnswer_iff (h : t.Tracks) (ev : FdEvent) : t.SameAnswer ctl ev ↔ t.Accepted ctl ev := by
  cases ev with
  | opened fd => exact Iff.rfl
  | closed fd => exact Iff.rfl
  | call op =>
    rw [SameAnswer, Accepted]
    cases hasks : t.epoll.asks op with
    | none => exact iff_of_true (h.refused ctl hasks).1 fun k hk => by cases hk
    | some k =>
      have hok : (t.poll.answer op).1 = .ok () := (h.asks_iff op).1 (by rw [hasks]; rfl)
      rw [hok, eq_comm, (EpollReactor.answer_asked ctl hasks).1]
      exact ⟨fun hctl k' hk => by cases hk; exact hctl, fun hall => hall k rfl⟩

/-- A call that does what is asked changes the two alike. -/
theorem Tracks.kept (h : t.Tracks) {op : ReactorCall} {k : KernelEvent} (hasks : t.epoll.asks op = some k) (fd : Int32) :
    fd ∈ (t.poll.answer op).2.fds ↔ (((t.epoll.saw k).keep op).lookup fd).isSome := by
  have hsame := h.same fd
  rw [EpollReactor.lookup_isSome] at hsame ⊢
  cases op with
  | add fd' interest =>
    have hnew : fd' ∉ t.poll.fds := by
      have hnone := (Option.ite_none_right_eq_some.1 hasks).1.2
      rw [h.same fd', hnone]
      exact Bool.false_ne_true
    rw [PollReactor.answer, (PollReactor.add_new hnew interest).2, List.mem_append, hsame]
    simp [EpollReactor.keep, EpollReactor.saw]
  | modify fd' interest =>
    rw [PollReactor.answer, (t.poll.modify_fds fd' interest).2, hsame]
    rfl
  | remove fd' =>
    rw [PollReactor.answer, (PollReactor.remove_fds h.nodup fd').2, List.mem_filter, hsame]
    simp [EpollReactor.keep, EpollReactor.saw, and_comm]

theorem Tracks.step (h : t.Tracks) (ev : FdEvent) (hev : t.Accepted ctl ev) : (t.step ctl ev).Tracks := by
  refine ⟨(t.epoll.created_exec ev).trans h.created, ?_, ?_⟩
  · cases ev with
    | opened fd => exact h.nodup
    | closed fd => exact h.nodup
    | call op => exact PollReactor.answer_nodup h.nodup op
  · cases ev with
    | opened fd => exact h.same
    | closed fd => exact h.same
    | call op =>
      intro fd
      change fd ∈ (t.poll.answer op).2.fds ↔ ((t.epoll.answer ctl op).2.lookup fd).isSome
      cases hasks : t.epoll.asks op with
      | none =>
        rw [(h.refused ctl hasks).2, EpollReactor.answer_unasked hasks]
        exact h.same fd
      | some k =>
        rw [(EpollReactor.answer_asked ctl hasks).2, if_pos (hev k hasks)]
        exact h.kept hasks fd

/-- The reactors return the same for every call of a run if and only if the kernel
refuses no `epoll_ctl` of it. -/
theorem drop_in_iff (ctl : EpollCtl) (growth : Nat → Nat) (events : List FdEvent) :
    let t : Twins := { poll := { growth := growth } }
    AllAlong (step ctl) (SameAnswer ctl) t events ↔ AllAlong (step ctl) (Accepted ctl) t events := by
  intro t
  have hstart : t.Tracks := by
    refine ⟨rfl, List.nodup_nil, fun fd => ?_⟩
    exact iff_of_false List.not_mem_nil Bool.false_ne_true
  have hH : AllAlong (step ctl) (fun _ _ => True) t events := allAlong_of_at fun _ _ _ _ => trivial
  exact allAlong_congr_of_keeps Tracks (fun t ev ht _ hp => ht.step ev hp) (fun t ev ht _ => ht.sameAnswer_iff ev)
    hstart hH

end Twins

end BistColo.Net
