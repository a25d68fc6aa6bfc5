import BistColo.Net.Reactor
import BistColo.StreamKit.Runs
/-!
# Poll rounds

What a round of the poll reactor keeps at every step: the places that are
passed, those that are ahead, and what each callback was told. A round ends,
since every call uses up a ready place. A callback that is left in its cell moves
no other, so `undisturbed_iff` asks for no more than that, over whole rounds.
-/

open StreamKit

namespace BistColo.Net

/-! ## Places that are passed -/

/-- The places in a round that began with `g`, with the first `b` of them passed. -/
structure Laid (g : Registry) (report : Int32 → UInt16) (told : Nat → List IoEvent) (b : Nat) (slots : List Slot)
    (added : Nat) (skipped : List Nat) : Prop where
  fds : (slots.map Slot.fd).Nodup
  callbacks : (slots.map Slot.callback).Nodup
  slotOld : ∀ x ∈ slots, x.callback < added
  beginOld : ∀ e ∈ g.entries, e.2 < added
  skippedOld : ∀ cb ∈ skipped, cb < added
  ready : ∀ x ∈ slots, x.revents ≠ 0 → x.entry ∈ g.entries ∧ x.revents = report x.fd ∧ told x.callback = []
  served : ∀ x ∈ slots, x.revents = 0 → x.entry ∈ g.entries → report x.fd ≠ 0 →
    told x.callback = [eventOf (report x.fd)]
  passed : ∀ x ∈ slots.take b, x.revents ≠ 0 → x.callback ∈ skipped
  ahead : ∀ x ∈ slots.drop b, x.callback ∉ skipped
  skippedReady : ∀ x ∈ slots, x.callback ∈ skipped → x.revents ≠ 0

namespace Laid

variable {g : Registry} {report : Int32 → UInt16} {told : Nat → List IoEvent} {b i k added : Nat} {slots : List Slot}
  {skipped : List Nat}

/-- A new place is not ready. -/
theorem append (h : Laid g report told b slots added skipped) {fd : Int32} (hnew : fd ∉ slots.map Slot.fd) :
    Laid g report told b (slots ++ [⟨fd, 0, added⟩]) (added + 1) skipped := by
  have hcallback : added ∉ slots.map Slot.callback := by
    intro hmem
    obtain ⟨x, hx, hxa⟩ := List.mem_map.1 hmem
    exact Nat.lt_irrefl added (hxa ▸ h.slotOld x hx)
  have hskipped : added ∉ skipped := fun hmem => Nat.lt_irrefl added (h.skippedOld added hmem)
  have hbegin : (fd, added) ∉ g.entries := fun hmem => Nat.lt_irrefl added (h.beginOld _ hmem)
  constructor
  case fds => simpa [List.nodup_append, h.fds] using hnew
  case callbacks => simpa [List.nodup_append, h.callbacks] using hcallback
  case slotOld =>
    intro x hx
    rcases List.mem_append.1 hx with hx | hx
    · exact Nat.lt_succ_of_lt (h.slotOld x hx)
    · rw [List.mem_singleton.1 hx]
      exact Nat.lt_succ_self added
  case beginOld => exact fun e he => Nat.lt_succ_of_lt (h.beginOld e he)
  case skippedOld => exact fun cb hcb => Nat.lt_succ_of_lt (h.skippedOld cb hcb)
  case ready =>
    intro x hx hready
    rcases List.mem_append.1 hx with hx | hx
    · exact h.ready x hx hready
    · rw [List.mem_singleton.1 hx] at hready
      exact absurd rfl hready
  case served =>
    intro x hx hquiet hentry
    rcases List.mem_append.1 hx with hx | hx
    · exact h.served x hx hquiet hentry
    · rw [List.mem_singleton.1 hx] at hentry
      exact absurd hentry hbegin
  case passed =>
    intro x hx hready
    rw [List.take_append] at hx
    rcases List.mem_append.1 hx with hx | hx
    · exact h.passed x hx hready
    · rw [List.mem_singleton.1 (List.mem_of_mem_take hx)] at hready
      exact absurd rfl hready
  case ahead =>
    intro x hx
    rw [List.drop_append] at hx
    rcases List.mem_append.1 hx with hx | hx
    · exact h.ahead x hx
    · rw [List.mem_singleton.1 (List.mem_of_mem_drop hx)]
      exact hskipped
  case skippedReady =>
    intro x hx hmem
    rcases List.mem_append.1 hx with hx | hx
    · exact h.skippedReady x hx hmem
    · rw [List.mem_singleton.1 hx] at hmem
      exact absurd hmem hskipped

/-- Places with one callback are one place. -/
theorem index_unique (h : Laid g report told b slots added skipped) {j j' : Nat} {x y : Slot} (hx : slots[j]? = some x)
    (hy : slots[j']? = some y) (heq : x.callback = y.callback) : j = j' := by
  have hj : j < (slots.map Slot.callback).length := by
    rw [List.length_map]
    exact (List.getElem?_eq_some_iff.1 hx).1
  apply (List.getElem?_inj hj h.callbacks).1
  rw [List.getElem?_map, List.getElem?_map, hx, hy]
  exact congrArg some heq

/-- A place is taken away, and the one behind the index may be moved to it. -/
theorem erase (h : Laid g report told (i + 1) slots added skipped) (k : Nat) :
    Laid g report told (i + 1) (slots.eraseIdx k) added
      (skipped ++ ((slots[i + 1]?.filter fun x => k ≤ i ∧ x.revents ≠ 0).map Slot.callback).toList) := by
  have hmoved : ∀ cb, cb ∈ ((slots[i + 1]?.filter fun x => k ≤ i ∧ x.revents ≠ 0).map Slot.callback).toList ↔
      ∃ x, slots[i + 1]? = some x ∧ k ≤ i ∧ x.revents ≠ 0 ∧ x.callback = cb := by
    intro cb
    rw [Option.mem_toList, Option.map_eq_some_iff]
    simp only [Option.filter_eq_some_iff, decide_eq_true_eq, and_assoc]
  have hsub : ∀ x ∈ slots.eraseIdx k, x ∈ slots := fun x hx => List.mem_of_mem_eraseIdx hx
  have hsublist := List.eraseIdx_sublist slots k
  constructor
  case fds => exact h.fds.sublist (hsublist.map _)
  case callbacks => exact h.callbacks.sublist (hsublist.map _)
  case slotOld => exact fun x hx => h.slotOld x (hsub x hx)
  case beginOld => exact h.beginOld
  case skippedOld =>
    intro cb hcb
    rcases List.mem_append.1 hcb with hcb | hcb
    · exact h.skippedOld cb hcb
    · obtain ⟨x, hx, -, -, rfl⟩ := (hmoved cb).1 hcb
      exact h.slotOld x (List.mem_of_getElem? hx)
  case ready => exact fun x hx => h.ready x (hsub x hx)
  case served => exact fun x hx => h.served x (hsub x hx)
  case passed =>
    intro x hx hready
    rcases mem_take_eraseIdx hx with hx | ⟨hk, hx⟩
    · exact List.mem_append_left _ (h.passed x hx hready)
    · exact List.mem_append_right _ ((hmoved _).2 ⟨x, hx, hk, hready, rfl⟩)
  case ahead =>
    intro x hx hmem
    obtain ⟨j, hij, hj, hmove⟩ := mem_drop_eraseIdx hx
    rcases List.mem_append.1 hmem with hmem | hmem
    · have hdrop : x ∈ slots.drop (i + 1) := by
        apply List.mem_iff_getElem?.2
        exact ⟨j - (i + 1), by rw [List.getElem?_drop, Nat.add_sub_cancel' hij, hj]⟩
      exact h.ahead x hdrop hmem
    · obtain ⟨y, hy, hk, -, heq⟩ := (hmoved _).1 hmem
      exact hmove hk (h.index_unique hj hy heq.symm)
  case skippedReady =>
    intro x hx hmem
    rcases List.mem_append.1 hmem with hmem | hmem
    · exact h.skippedReady x (hsub x hx) hmem
    · obtain ⟨y, hy, -, hready, heq⟩ := (hmoved _).1 hmem
      obtain ⟨j, hj⟩ := List.mem_iff_getElem?.1 (hsub x hx)
      obtain rfl := h.index_unique hj hy heq.symm
      cases hj.symm.trans hy
      exact hready

/-- The place at the index, once `revents` is zeroed there. -/
def zeroed (x : Slot) : Slot := { x with revents := 0 }

theorem getElem?_zeroed {slots : List Slot} {x y : Slot} (hx : slots[i]? = some x) {j : Nat}
    (h : (slots.modify i zeroed)[j]? = some y) : (j ≠ i ∧ slots[j]? = some y) ∨ (j = i ∧ y = zeroed x) := by
  by_cases hij : i = j
  · subst hij
    rw [List.getElem?_modify_eq, hx] at h
    exact .inr ⟨rfl, (Option.some.inj h).symm⟩
  · rw [List.getElem?_modify_ne _ _ hij] at h
    exact .inl ⟨Ne.symm hij, h⟩

/-- The place at the index is passed, and if it was ready its callback is told. -/
theorem pass (h : Laid g report told i slots added skipped) {x : Slot} (hx : slots[i]? = some x)
    {told' : Nat → List IoEvent} (hothers : ∀ cb, cb ≠ x.callback → told' cb = told cb)
    (htold : told' x.callback = if x.revents = 0 then told x.callback else told x.callback ++ [eventOf x.revents]) :
    Laid g report told' (i + 1) (slots.modify i zeroed) added skipped := by
  have hmem : x ∈ slots := List.mem_of_getElem? hx
  have hplace : ∀ y ∈ slots.modify i zeroed, (y ∈ slots ∧ y.callback ≠ x.callback) ∨ y = zeroed x := by
    intro y hy
    obtain ⟨j, hj⟩ := List.mem_iff_getElem?.1 hy
    rcases getElem?_zeroed hx hj with ⟨hne, hj⟩ | ⟨-, rfl⟩
    · exact .inl ⟨List.mem_of_getElem? hj, fun heq => hne (h.index_unique hj hx heq)⟩
    · exact .inr rfl
  have hkey : ∀ {β : Type} (f : Slot → β), (∀ y, f (zeroed y) = f y) →
      (slots.modify i zeroed).map f = slots.map f := by
    intro β f hf
    apply List.ext_getElem?
    intro j
    rw [List.getElem?_map, List.getElem?_map]
    by_cases hij : i = j
    · subst hij
      rw [List.getElem?_modify_eq, hx]
      exact congrArg some (hf x)
    · rw [List.getElem?_modify_ne _ _ hij]
  constructor
  case fds => exact (hkey Slot.fd fun _ => rfl) ▸ h.fds
  case callbacks => exact (hkey Slot.callback fun _ => rfl) ▸ h.callbacks
  case slotOld =>
    intro y hy
    rcases hplace y hy with ⟨hy, -⟩ | rfl
    · exact h.slotOld y hy
    · exact h.slotOld x hmem
  case beginOld => exact h.beginOld
  case skippedOld => exact h.skippedOld
  case ready =>
    intro y hy hready
    rcases hplace y hy with ⟨hy, hne⟩ | rfl
    · rw [hothers _ hne]
      exact h.ready y hy hready
    · exact absurd rfl hready
  case served =>
    intro y hy hquiet hentry hreport
    rcases hplace y hy with ⟨hy, hne⟩ | rfl
    · rw [hothers _ hne]
      exact h.served y hy hquiet hentry hreport
    · change told' x.callback = [eventOf (report x.fd)]
      rw [htold]
      split
      · rename_i hx0
        exact h.served x hmem hx0 hentry hreport
      · rename_i hx0
        obtain ⟨-, hrevents, hnone⟩ := h.ready x hmem hx0
        rw [hnone, hrevents]
        rfl
  case passed =>
    intro y hy hready
    obtain ⟨j, hj, hy⟩ := getElem?_of_mem_take hy
    rcases getElem?_zeroed hx hy with ⟨hne, hy⟩ | ⟨-, rfl⟩
    · exact h.passed y (mem_take_of_getElem? (by omega) hy) hready
    · exact absurd rfl hready
  case ahead =>
    intro y hy
    obtain ⟨j, hj, hy⟩ := getElem?_of_mem_drop hy
    rcases getElem?_zeroed hx hy with ⟨-, hy⟩ | ⟨hij, -⟩
    · exact h.ahead y (mem_drop_of_getElem? (by omega) hy)
    · omega
  case skippedReady =>
    intro y hy hskipped
    rcases hplace y hy with ⟨hy, -⟩ | rfl
    · exact h.skippedReady y hy hskipped
    · exact absurd hskipped (h.ahead x (mem_drop_of_getElem? (Nat.le_refl i) hx))

end Laid

/-! ## The invariant -/

namespace Round

/-- What a callback was told. -/
def told (s : Round) (callback : Nat) : List IoEvent := (s.calls.filter fun c => c.callback = callback).map Dispatch.event

/-- Every call is that of a descriptor which was reported, with its own callback
and events, while it is registered. -/
def Own (g : Registry) (report : Int32 → UInt16) (s : Round) : Prop :=
  ∀ c ∈ s.calls, ∃ fd, (fd, c.callback) ∈ g.entries ∧ report fd ≠ 0 ∧ c.event = eventOf (report fd) ∧
    (fd, c.callback) ∈ c.registry.entries

structure Inv (g : Registry) (report : Int32 → UInt16) (b : Nat) (s : Round) : Prop where
  length : s.reactor.pollfds.length = s.reactor.callbacks.length
  entries : s.registry.entries = s.reactor.slots.map Slot.entry
  added : s.registry.added = s.reactor.added
  own : s.Own g report
  laid : Laid g report s.told b s.reactor.slots s.reactor.added s.skipped

variable {g : Registry} {report : Int32 → UInt16} {behaviour : Nat → List ReactorCall} {b : Nat} {s : Round}

theorem map_fst_entry (slots : List Slot) : (slots.map Slot.entry).map Prod.fst = slots.map Slot.fd := List.map_map

/-- A call from the callback at the index. -/
theorem Inv.exec (h : s.Inv g report (s.i + 1)) (op : ReactorCall) : (s.exec op).Inv g report (s.i + 1) := by
  have hlen := PollReactor.length_exec h.length op
  cases PollReactor.change h.length s.i op with
  | same hslots hadded hmoved hregistry =>
    have hreg : (s.exec op).registry = s.registry := hregistry _ h.entries
    refine ⟨hlen, ?_, ?_, h.own, ?_⟩
    · rw [hreg, h.entries]
      exact congrArg _ hslots.symm
    · rw [hreg, h.added]
      exact hadded.symm
    · have hlaid := h.laid
      have hskipped : (s.exec op).skipped = s.skipped := by simp [Round.exec, hmoved]
      rw [← hslots, ← hadded, ← hskipped] at hlaid
      exact hlaid
  | @added fd interest hnew hslots hadded =>
    have hreg : (s.exec (.add fd interest)).registry =
        ⟨s.registry.entries ++ [(fd, s.registry.added)], s.registry.added + 1⟩ := by
      apply if_neg
      rw [h.entries, map_fst_entry]
      exact hnew
    refine ⟨hlen, ?_, ?_, h.own, ?_⟩
    · rw [hreg, h.entries, h.added]
      exact (congrArg (List.map Slot.entry) hslots).trans List.map_append |>.symm
    · rw [hreg, h.added]
      exact hadded.symm
    · have hlaid := h.laid.append hnew
      have hskipped : (s.exec (.add fd interest)).skipped = s.skipped := List.append_nil _
      rw [← hslots, ← hadded, ← hskipped] at hlaid
      exact hlaid
  | @removed fd k hfind hslots hadded hmoved =>
    refine ⟨hlen, ?_, ?_, h.own, ?_⟩
    · change s.registry.entries.filter _ = (s.reactor.exec (.remove fd)).slots.map Slot.entry
      rw [h.entries, hslots, ← filter_eq_eraseIdx h.laid.fds hfind, List.filter_map]
      rfl
    · exact h.added.trans hadded.symm
    · have hlaid := h.laid.erase k
      rw [← hslots, ← hadded, ← hmoved] at hlaid
      exact hlaid

theorem Inv.foldl (h : s.Inv g report (s.i + 1)) (ops : List ReactorCall) :
    (ops.foldl Round.exec s).Inv g report (s.i + 1) := by
  induction ops generalizing s with
  | nil => exact h
  | cons op ops ih => exact ih (s := s.exec op) (h.exec op)

theorem getElem?_slots {r : PollReactor} {i : Nat} {p : PollFd} {callback : Nat} (hp : r.pollfds[i]? = some p)
    (hcallback : r.callbacks[i]? = some callback) : r.slots[i]? = some (slot p callback) := by
  rw [PollReactor.slots, List.getElem?_zipWith, hp, hcallback]

theorem told_append (s : Round) (c : Dispatch) (callback : Nat) : { s with calls := s.calls ++ [c] }.told callback =
    if c.callback = callback then s.told callback ++ [c.event] else s.told callback := by
  simp only [told, List.filter_append, List.map_append]
  split
  · rename_i heq
    simp [heq]
  · rename_i hne
    simp [hne]

section Look

variable {p : PollFd} {callback : Nat}

theorem Inv.length_clear (h : s.Inv g report s.i) :
    (s.reactor.clear s.i).pollfds.length = (s.reactor.clear s.i).callbacks.length := by
  simpa [PollReactor.clear] using h.length

theorem Inv.entries_clear (h : s.Inv g report s.i) : s.registry.entries = (s.reactor.clear s.i).slots.map Slot.entry := by
  rw [h.entries, PollReactor.slots_clear]
  apply List.ext_getElem?
  intro j
  rw [List.getElem?_map, List.getElem?_map, List.getElem?_modify]
  cases s.reactor.slots[j]? with
  | none => rfl
  | some y => by_cases hj : s.i = j <;> simp [hj, Slot.entry]

/-- The callback at the index is called. -/
theorem Inv.called (h : s.Inv g report s.i) (hp : s.reactor.pollfds[s.i]? = some p)
    (hcallback : s.reactor.callbacks[s.i]? = some callback) (hready : p.revents ≠ 0) :
    (s.called p callback).Inv g report (s.i + 1) := by
  have hx := getElem?_slots hp hcallback
  have hmem := List.mem_of_getElem? hx
  have hin : (p.fd, callback) ∈ s.registry.entries := by
    rw [h.entries]
    exact List.mem_map_of_mem hmem
  obtain ⟨hbegin, hrevents, -⟩ := h.laid.ready _ hmem hready
  refine ⟨h.length_clear, h.entries_clear, h.added, ?_, ?_⟩
  · intro c hc
    rcases List.mem_append.1 hc with hc | hc
    · exact h.own c hc
    · rw [List.mem_singleton.1 hc]
      exact ⟨p.fd, hbegin, fun h0 => hready (hrevents.trans h0), congrArg eventOf hrevents, hin⟩
  · change Laid g report _ (s.i + 1) (s.reactor.clear s.i).slots _ _
    rw [PollReactor.slots_clear]
    apply h.laid.pass hx
    · intro cb hne
      exact (told_append _ _ cb).trans (if_neg fun heq => hne heq.symm)
    · exact (told_append _ _ callback).trans ((if_pos rfl).trans (if_neg hready).symm)

/-- The place at the index is looked at. -/
theorem Inv.dispatch (h : s.Inv g report s.i) (hp : s.reactor.pollfds[s.i]? = some p)
    (hcallback : s.reactor.callbacks[s.i]? = some callback) :
    (s.dispatch behaviour p callback).Inv g report (s.i + 1) := by
  unfold Round.dispatch
  split
  · rename_i hquiet
    refine ⟨h.length_clear, h.entries_clear, h.added, h.own, ?_⟩
    change Laid g report s.told _ (s.reactor.clear s.i).slots _ _
    rw [PollReactor.slots_clear]
    exact h.laid.pass (getElem?_slots hp hcallback) (fun _ _ => rfl) (if_pos hquiet).symm
  · rename_i hready
    exact Inv.foldl (s := s.called p callback) (h.called hp hcallback hready) _

end Look

theorem Inv.step (h : s.Inv g report s.i) : (s.step behaviour).Inv g report (s.step behaviour).i := by
  unfold Round.step
  split
  · rename_i p callback hp hcallback
    have hnext : (s.dispatch behaviour p callback).Inv g report (s.i + 1) := h.dispatch hp hcallback
    exact ⟨hnext.length, hnext.entries, hnext.added, hnext.own, hnext.laid⟩
  · exact h

theorem Inv.iterate (h : s.Inv g report s.i) (n : Nat) :
    ((Round.step behaviour)^[n] s).Inv g report ((Round.step behaviour)^[n] s).i := by
  induction n generalizing s with
  | zero => exact h
  | succ n ih => exact ih h.step

/-! ## The end of the round -/

/-- How many places are ready. -/
def pending (s : Round) : Nat := s.reactor.slots.countP fun x => x.revents ≠ 0

theorem exec_growth (h : s.reactor.pollfds.length = s.reactor.callbacks.length) (op : ReactorCall) :
    (s.exec op).reactor.slots.length ≤ s.reactor.slots.length + 1 ∧ (s.exec op).pending ≤ s.pending := by
  have hreactor : (s.exec op).reactor = s.reactor.exec op := rfl
  rw [pending, pending, hreactor]
  cases PollReactor.change h s.i op with
  | same hslots =>
    rw [hslots]
    exact ⟨Nat.le_succ _, Nat.le_refl _⟩
  | added _ hslots =>
    rw [hslots, List.countP_append, List.length_append]
    exact ⟨Nat.le_refl _, Nat.le_refl _⟩
  | removed _ hslots =>
    have hsub := List.eraseIdx_sublist s.reactor.slots
    rw [hslots]
    exact ⟨Nat.le_succ_of_le (hsub _).length_le, (hsub _).countP_le⟩

theorem foldl_growth (h : s.reactor.pollfds.length = s.reactor.callbacks.length) (ops : List ReactorCall) :
    (ops.foldl Round.exec s).reactor.slots.length ≤ s.reactor.slots.length + ops.length ∧
      (ops.foldl Round.exec s).pending ≤ s.pending ∧ (ops.foldl Round.exec s).calls = s.calls := by
  induction ops generalizing s with
  | nil => exact ⟨Nat.le_refl _, Nat.le_refl _, rfl⟩
  | cons op ops ih =>
    obtain ⟨hslots, hpending⟩ := exec_growth h op
    obtain ⟨hslots', hpending', hcalls⟩ := @ih (s.exec op) (PollReactor.length_exec h op)
    rw [List.length_cons]
    exact ⟨hslots'.trans (by omega), hpending'.trans hpending, hcalls⟩

/-- How many calls of the reactor the callbacks from the `c`-th to the `n`-th make. -/
def rest (behaviour : Nat → List ReactorCall) (n c : Nat) : Nat :=
  (((List.range n).drop c).map fun k => (behaviour k).length).sum

theorem rest_succ {n c : Nat} (h : c < n) : rest behaviour n c = (behaviour c).length + rest behaviour n (c + 1) := by
  have hc : c < (List.range n).length := by rwa [List.length_range]
  rw [rest, List.drop_eq_getElem_cons hc, List.map_cons, List.sum_cons, List.getElem_range]
  rfl

/-- What is left to do, if at most `n` callbacks are called. -/
def left (behaviour : Nat → List ReactorCall) (n : Nat) (s : Round) : Nat :=
  s.reactor.slots.length - s.i + rest behaviour n s.calls.length

theorem pending_clear {x : Slot} (hx : s.reactor.slots[s.i]? = some x) :
    (s.reactor.clear s.i).slots.length = s.reactor.slots.length ∧
      (s.reactor.clear s.i).slots.countP (fun x => x.revents ≠ 0) + (if x.revents = 0 then 0 else 1) = s.pending := by
  obtain ⟨hlt, hget⟩ := List.getElem?_eq_some_iff.1 hx
  rw [PollReactor.slots_clear]
  refine ⟨List.length_modify _ _ _, ?_⟩
  have hsplit := List.take_append_drop s.i s.reactor.slots
  rw [List.drop_eq_getElem_cons hlt, hget] at hsplit
  rw [pending, List.modify_eq_take_cons_drop hlt, hget]
  conv_rhs => rw [← hsplit]
  simp only [List.countP_append, List.countP_cons]
  by_cases hquiet : x.revents = 0
  · simp [hquiet]
  · simp [hquiet]
    omega

/-- Each iteration leaves less to do. -/
theorem step_left (h : s.Inv g report s.i) {n : Nat} (hroom : s.calls.length + s.pending ≤ n) (hover : ¬ s.Over) :
    (s.step behaviour).left behaviour n < s.left behaviour n ∧
      (s.step behaviour).calls.length + (s.step behaviour).pending ≤ n := by
  have hi : s.i < s.reactor.pollfds.length := Nat.not_le.1 hover
  have hslots := PollReactor.length_slots h.length
  obtain ⟨p, hp⟩ : ∃ p, s.reactor.pollfds[s.i]? = some p := ⟨_, List.getElem?_eq_getElem hi⟩
  obtain ⟨callback, hcallback⟩ : ∃ callback, s.reactor.callbacks[s.i]? = some callback :=
    ⟨_, List.getElem?_eq_getElem (h.length ▸ hi)⟩
  obtain ⟨hlength, hpending⟩ := pending_clear (getElem?_slots hp hcallback)
  have hclear : (s.reactor.clear s.i).pollfds.length = (s.reactor.clear s.i).callbacks.length := by
    simpa [PollReactor.clear] using h.length
  have hstep : s.step behaviour = { s.dispatch behaviour p callback with i := s.i + 1 } := by
    unfold Round.step
    rw [hp, hcallback]
  by_cases hquiet : p.revents = 0
  · have hsame : s.dispatch behaviour p callback = { s with reactor := s.reactor.clear s.i } := if_pos hquiet
    have hcount : (s.reactor.clear s.i).slots.countP (fun x => x.revents ≠ 0) = s.pending := by
      simpa [slot, hquiet] using hpending
    rw [hstep, hsame]
    simp only [left, pending, hlength] at hcount hroom ⊢
    omega
  · have hcalled : s.dispatch behaviour p callback =
        (behaviour s.calls.length).foldl Round.exec (s.called p callback) := if_neg hquiet
    have hcount : (s.called p callback).pending + 1 = s.pending := by
      rw [if_neg (show (slot p callback).revents ≠ 0 from hquiet)] at hpending
      exact hpending
    have hlen : (s.called p callback).reactor.slots.length = s.reactor.slots.length := hlength
    obtain ⟨hgrown, hkept, hcalls⟩ := foldl_growth (s := s.called p callback) hclear (behaviour s.calls.length)
    have hmore : (s.called p callback).calls.length = s.calls.length + 1 := List.length_append
    have hrest := @rest_succ behaviour n s.calls.length (by omega)
    rw [hstep, hcalled]
    simp only [left, hcalls]
    change _ ∧ (s.called p callback).calls.length +
      ((behaviour s.calls.length).foldl Round.exec (s.called p callback)).pending ≤ n
    rw [hmore]
    omega

/-- Once the index is behind the last descriptor, nothing more is done. -/
theorem step_over (h : s.Over) : s.step behaviour = s := by
  unfold Round.step
  rw [List.getElem?_eq_none h]

theorem iterate_step_over (h : s.Over) (n : Nat) : (Round.step behaviour)^[n] s = s :=
  Function.iterate_fixed (step_over h) n

/-- Enough iterations end the round. -/
theorem iterate_over (h : s.Inv g report s.i) {n m : Nat} (hroom : s.calls.length + s.pending ≤ n)
    (hleft : s.left behaviour n ≤ m) : ((Round.step behaviour)^[m] s).Over := by
  induction m generalizing s with
  | zero =>
    have hslots := PollReactor.length_slots h.length
    unfold left at hleft
    change s.reactor.pollfds.length ≤ s.i
    omega
  | succ m ih =>
    rw [Function.iterate_succ_apply]
    by_cases hover : s.Over
    · rw [step_over hover, iterate_step_over hover]
      exact hover
    · obtain ⟨hless, hroom'⟩ := step_left h hroom hover
      exact ih h.step hroom' (by omega)

/-! ## Whole rounds -/

theorem reactor_foldl (s : Round) (ops : List ReactorCall) :
    (ops.foldl Round.exec s).reactor = ops.foldl PollReactor.exec s.reactor ∧
      (ops.foldl Round.exec s).registry = ops.foldl Registry.exec s.registry := by
  induction ops generalizing s with
  | nil => exact ⟨rfl, rfl⟩
  | cons op ops ih => exact ih (s.exec op)

theorem empty_inv (growth : Nat → Nat) :
    Inv {} (fun _ => 0) 1 { reactor := { growth := growth }, registry := {} } := by
  refine ⟨rfl, rfl, rfl, nofun, ?_⟩
  constructor
  case fds => exact List.nodup_nil
  case callbacks => exact List.nodup_nil
  all_goals exact nofun

theorem slots_polled (r : PollReactor) (report : Int32 → UInt16) :
    (r.polled report).slots = r.slots.map fun x => { x with revents := report x.fd } := by
  simp only [PollReactor.slots, PollReactor.polled, List.zipWith_map_left, List.map_zipWith]
  rfl

/-- `poll` has reported, and no place is passed. -/
theorem polled_inv (growth : Nat → Nat) (setup : List ReactorCall) (report : Int32 → UInt16) :
    ((enrolled growth setup).polled report).Inv (enrolled growth setup).registry report 0 := by
  have h := Inv.foldl (s := { reactor := { growth := growth }, registry := {} }) (empty_inv growth) setup
  obtain ⟨hreactor, hregistry⟩ := reactor_foldl { reactor := { growth := growth }, registry := {} } setup
  have hlength := h.length
  have hentries := h.entries
  have hadded := h.added
  have hfds := h.laid.fds
  have hcallbacks := h.laid.callbacks
  have hold := h.laid.slotOld
  rw [hreactor] at hlength hfds hcallbacks hold
  rw [hreactor, hregistry] at hentries hadded
  change (enrolled growth setup).registry.entries = (enrolled growth setup).reactor.slots.map Slot.entry at hentries
  have hplace : ∀ x ∈ ((enrolled growth setup).reactor.polled report).slots,
      x.entry ∈ (enrolled growth setup).registry.entries ∧ x.revents = report x.fd := by
    intro x hx
    rw [slots_polled] at hx
    obtain ⟨y, hy, rfl⟩ := List.mem_map.1 hx
    rw [hentries]
    exact ⟨List.mem_map.2 ⟨y, hy, rfl⟩, rfl⟩
  have hkey : ∀ {β : Type} (f : Slot → β), (∀ x re, f { x with revents := re } = f x) →
      ((enrolled growth setup).reactor.polled report).slots.map f = (enrolled growth setup).reactor.slots.map f := by
    intro β f hf
    rw [slots_polled, List.map_map]
    exact List.map_congr_left fun x _ => hf x _
  refine ⟨?_, ?_, hadded, nofun, ?_⟩
  · exact (List.length_map _).trans hlength
  · exact hentries.trans (hkey Slot.entry fun _ _ => rfl).symm
  · constructor
    case fds => exact (hkey Slot.fd fun _ _ => rfl) ▸ hfds
    case callbacks => exact (hkey Slot.callback fun _ _ => rfl) ▸ hcallbacks
    case slotOld =>
      intro x hx
      rw [show ((enrolled growth setup).polled report).reactor.slots = _ from slots_polled _ _] at hx
      obtain ⟨y, hy, rfl⟩ := List.mem_map.1 hx
      exact hold y hy
    case beginOld =>
      intro e he
      rw [hentries] at he
      obtain ⟨y, hy, rfl⟩ := List.mem_map.1 he
      exact hold y hy
    case skippedOld => exact nofun
    case ready =>
      intro x hx _
      obtain ⟨hin, hrevents⟩ := hplace x hx
      exact ⟨hin, hrevents, rfl⟩
    case served =>
      intro x hx hquiet _ hreport
      exact absurd ((hplace x hx).2.symm.trans hquiet) hreport
    case passed => exact nofun
    case ahead => exact fun x _ => List.not_mem_nil
    case skippedReady => exact fun x _ hmem => absurd hmem List.not_mem_nil

theorem finish_inv (growth : Nat → Nat) (setup : List ReactorCall) (report : Int32 → UInt16) (behaviour : Nat → List ReactorCall) :
    (((enrolled growth setup).polled report).finish behaviour).Inv (enrolled growth setup).registry report
        (((enrolled growth setup).polled report).finish behaviour).i ∧
      (((enrolled growth setup).polled report).finish behaviour).Over := by
  have hinv := polled_inv growth setup report
  have hslots := PollReactor.length_slots hinv.length
  have hpending : ((enrolled growth setup).polled report).pending ≤ ((enrolled growth setup).polled report).reactor.pollfds.length := by
    rw [← hslots]
    exact List.countP_le_length
  refine ⟨hinv.iterate _, iterate_over hinv (n := ((enrolled growth setup).polled report).reactor.pollfds.length) ?_ ?_⟩
  · exact (Nat.zero_add _).trans_le hpending
  · rw [left, hslots]
    exact Nat.le_refl _

/-! ## Callbacks in their cells -/

theorem slots_map_callback {r : PollReactor} (hlen : r.pollfds.length = r.callbacks.length) :
    r.slots.map Slot.callback = r.callbacks := by
  apply List.ext_getElem
  · rw [List.length_map, PollReactor.length_slots hlen, hlen]
  · intro k h₁ h₂
    simp [PollReactor.slots, slot]

/-- A callback stays in its cell exactly if the call leaves it there. -/
theorem in_cell_iff {r : PollReactor} {i callback : Nat} (hnodup : r.callbacks.Nodup) (hi : r.callbacks[i]? = some callback) (op : ReactorCall) :
    ((r.exec op).buffer = r.buffer ∧ (r.exec op).callbacks[i]? = some callback) ↔ r.Leaves i op := by
  have hlt := (List.getElem?_eq_some_iff.1 hi).1
  cases op with
  | add fd interest =>
    simp only [PollReactor.exec, PollReactor.add, PollReactor.Leaves]
    by_cases hthere : (r.findIndex fd).isSome
    · rw [if_pos hthere]
      exact iff_of_true ⟨rfl, hi⟩ (.inl hthere)
    · rw [if_neg hthere, or_iff_right hthere]
      dsimp only
      rw [List.getElem?_append_left hlt, and_iff_left hi]
      by_cases hroom : r.callbacks.length < r.capacity
      · rw [if_pos hroom]
        exact iff_of_true rfl hroom
      · rw [if_neg hroom]
        exact iff_of_false (Nat.succ_ne_self _) hroom
  | modify fd interest =>
    refine iff_of_true ?_ trivial
    simp only [PollReactor.exec, PollReactor.modify]
    split
    · exact ⟨rfl, hi⟩
    · exact ⟨rfl, hi⟩
  | remove fd =>
    simp only [PollReactor.exec, PollReactor.remove, PollReactor.Leaves]
    cases hfind : r.findIndex fd with
    | none => exact iff_of_true ⟨rfl, hi⟩ fun idx h => by cases h
    | some idx =>
      dsimp only
      rw [and_iff_right rfl]
      by_cases hbehind : i < idx
      · refine iff_of_true ?_ fun idx' h => by cases h; exact hbehind
        rw [List.getElem?_eraseIdx_of_lt hbehind, hi]
      · refine iff_of_false ?_ fun h => hbehind (h idx rfl)
        -- the callback behind `i` has come to its place, and is another one
        rw [List.getElem?_eraseIdx_of_ge (Nat.not_lt.1 hbehind)]
        intro hnext
        have heq := (List.getElem?_inj (List.getElem?_eq_some_iff.1 hnext).1 hnodup).1 (hnext.trans hi.symm)
        omega

theorem moved_of_leaves {r : PollReactor} {i : Nat} {op : ReactorCall} (h : r.Leaves i op) : r.moved i op = none := by
  cases op with
  | add fd interest => rfl
  | modify fd interest => rfl
  | remove fd =>
    unfold PollReactor.moved
    dsimp only
    split
    · rename_i idx _ _ hfind _ _
      exact if_neg fun hboth => absurd (h idx hfind) (Nat.not_lt.2 hboth.1)
    · rfl

/-- The running callback is in the cell where it was called. -/
def InCell (s : Round) : Prop := s.reactor.buffer = s.buffer ∧ s.reactor.callbacks[s.i]? = some s.running

instance (s : Round) : Decidable s.InCell := inferInstanceAs (Decidable (_ ∧ _))

theorem displaced_exec (s : Round) (op : ReactorCall) :
    (s.exec op).displaced = s.displaced ++ (if (s.exec op).InCell then [] else [s.running]) := by
  have hcell : (s.exec op).InCell ↔ (s.reactor.exec op).buffer = s.buffer ∧
      (s.reactor.exec op).callbacks[s.i]? = some s.running := Iff.rfl
  simp only [hcell]
  unfold Round.exec
  dsimp only
  split
  · exact (List.append_nil _).symm
  · rfl

theorem displaced_foldl (s : Round) (ops : List ReactorCall) : s.displaced <+: (ops.foldl Round.exec s).displaced := by
  induction ops generalizing s with
  | nil => exact List.prefix_rfl
  | cons op ops ih =>
    refine List.IsPrefix.trans ?_ (ih (s.exec op))
    rw [displaced_exec]
    exact List.prefix_append _ _

/-- What a callback does displaces none exactly if every call of it leaves it in its cell. -/
theorem displaced_iff (h : s.Inv g report (s.i + 1)) (hcell : s.InCell) (ops : List ReactorCall) :
    (ops.foldl Round.exec s).displaced = s.displaced ↔
      AllAlong Round.exec (fun s op => s.reactor.Leaves s.i op) s ops := by
  induction ops generalizing s with
  | nil => exact iff_of_true rfl trivial
  | cons op ops ih =>
    have hnodup : s.reactor.callbacks.Nodup := slots_map_callback h.length ▸ h.laid.callbacks
    have hiff := in_cell_iff hnodup hcell.2 op
    have hsame : (s.exec op).InCell ↔ s.reactor.Leaves s.i op := by
      rw [← hiff, hcell.1]
      exact Iff.rfl
    rw [List.foldl_cons, allAlong_cons, ← hsame]
    by_cases hin : (s.exec op).InCell
    · rw [and_iff_right hin, ← ih (s := s.exec op) (h.exec op) hin, displaced_exec, if_pos hin, List.append_nil]
    · refine iff_of_false ?_ fun hboth => hin hboth.1
      intro heq
      have hlen := (displaced_foldl (s.exec op) ops).length_le
      rw [heq, displaced_exec, if_neg hin, List.length_append] at hlen
      exact absurd hlen (Nat.not_succ_le_self _)

theorem skipped_foldl (ops : List ReactorCall) (h : AllAlong Round.exec (fun s op => s.reactor.Leaves s.i op) s ops) :
    (ops.foldl Round.exec s).skipped = s.skipped := by
  induction ops generalizing s with
  | nil => rfl
  | cons op ops ih =>
    obtain ⟨hop, hops⟩ := h
    refine (ih (s := s.exec op) hops).trans ?_
    simp [Round.exec, moved_of_leaves hop]

/-- The callback at the index, if it is called, is left in its cell by all that it does. -/
def LeavesCell (behaviour : Nat → List ReactorCall) (s : Round) : Prop :=
  ∀ p callback, s.reactor.pollfds[s.i]? = some p → s.reactor.callbacks[s.i]? = some callback → p.revents ≠ 0 →
    AllAlong Round.exec (fun s op => s.reactor.Leaves s.i op) (s.called p callback) (behaviour s.calls.length)

variable (behaviour) in
/-- An iteration displaces no callback exactly if all that is done leaves it in its cell. -/
theorem step_displaced (h : s.Inv g report s.i) :
    s.displaced <+: (s.step behaviour).displaced ∧
      ((s.step behaviour).displaced = s.displaced ↔ s.LeavesCell behaviour) ∧
      (s.LeavesCell behaviour → (s.step behaviour).skipped = s.skipped) := by
  cases hp : s.reactor.pollfds[s.i]? with
  | none =>
    have hstep : s.step behaviour = s := by
      unfold Round.step
      rw [hp]
    rw [hstep]
    refine ⟨List.prefix_rfl, iff_of_true rfl ?_, fun _ => rfl⟩
    intro p callback hp'
    cases hp.symm.trans hp'
  | some p =>
    obtain ⟨callback, hcallback⟩ : ∃ callback, s.reactor.callbacks[s.i]? = some callback := by
      have hlt := (List.getElem?_eq_some_iff.1 hp).1
      exact ⟨_, List.getElem?_eq_getElem (h.length ▸ hlt)⟩
    have hstep : s.step behaviour = { s.dispatch behaviour p callback with i := s.i + 1 } := by
      unfold Round.step
      rw [hp, hcallback]
    by_cases hquiet : p.revents = 0
    · have hsame : s.dispatch behaviour p callback = { s with reactor := s.reactor.clear s.i } := if_pos hquiet
      rw [hstep, hsame]
      refine ⟨List.prefix_rfl, iff_of_true rfl ?_, fun _ => rfl⟩
      intro p' callback' hp' _ hready
      cases hp.symm.trans hp'
      exact absurd hquiet hready
    · have hcalled : s.dispatch behaviour p callback =
          (behaviour s.calls.length).foldl Round.exec (s.called p callback) := if_neg hquiet
      have hinv := h.called hp hcallback hquiet
      have hcell : (s.called p callback).InCell := ⟨rfl, hcallback⟩
      have hiff := displaced_iff hinv hcell (behaviour s.calls.length)
      have hleaves : s.LeavesCell behaviour ↔ AllAlong Round.exec (fun s op => s.reactor.Leaves s.i op)
          (s.called p callback) (behaviour s.calls.length) := by
        constructor
        · exact fun hall => hall p callback hp hcallback hquiet
        · intro hall p' callback' hp' hcallback' _
          cases hp.symm.trans hp'
          cases hcallback.symm.trans hcallback'
          exact hall
      rw [hstep, hcalled, hleaves]
      exact ⟨displaced_foldl (s.called p callback) _, hiff, skipped_foldl (s := s.called p callback) _⟩

/-- Every callback that is called is left in its cell while it runs. -/
def AllLeft (behaviour : Nat → List ReactorCall) (s : Round) : Prop :=
  ∀ n, ((Round.step behaviour)^[n] s).LeavesCell behaviour

variable (behaviour) in
theorem iterate_displaced (h : s.Inv g report s.i) (n : Nat) :
    s.displaced <+: ((Round.step behaviour)^[n] s).displaced ∧
      (((Round.step behaviour)^[n] s).displaced = s.displaced ↔
        ∀ k < n, ((Round.step behaviour)^[k] s).LeavesCell behaviour) ∧
      ((∀ k < n, ((Round.step behaviour)^[k] s).LeavesCell behaviour) →
        ((Round.step behaviour)^[n] s).skipped = s.skipped) := by
  induction n with
  | zero => exact ⟨List.prefix_rfl, iff_of_true rfl fun k hk => absurd hk (Nat.not_lt_zero k), fun _ => rfl⟩
  | succ n ih =>
    obtain ⟨hgrows, hiff, hskipped⟩ := ih
    have hiter : ((Round.step behaviour)^[n] s).Inv g report ((Round.step behaviour)^[n] s).i := h.iterate n
    obtain ⟨hgrows', hiff', hskipped'⟩ := step_displaced behaviour hiter
    rw [Function.iterate_succ_apply']
    have hsplit : (∀ k < n + 1, ((Round.step behaviour)^[k] s).LeavesCell behaviour) ↔
        (∀ k < n, ((Round.step behaviour)^[k] s).LeavesCell behaviour) ∧
          ((Round.step behaviour)^[n] s).LeavesCell behaviour := by
      constructor
      · exact fun hall => ⟨fun k hk => hall k (Nat.lt_succ_of_lt hk), hall n (Nat.lt_succ_self n)⟩
      · rintro ⟨hall, hlast⟩ k hk
        rcases Nat.lt_succ_iff_lt_or_eq.1 hk with hk | rfl
        · exact hall k hk
        · exact hlast
    refine ⟨hgrows.trans hgrows', ?_, ?_⟩
    · rw [hsplit, ← hiff, ← hiff']
      constructor
      · intro heq
        -- what was displaced before is displaced still
        rw [heq] at hgrows'
        have hbefore := hgrows'.eq_of_length_le hgrows.length_le
        exact ⟨hbefore, heq.trans hbefore.symm⟩
      · exact fun hboth => hboth.2.trans hboth.1
    · intro hall
      obtain ⟨hearlier, hlast⟩ := hsplit.1 hall
      exact (hskipped' hlast).trans (hskipped hearlier)

/-- Behind the last descriptor nothing is called. -/
theorem leavesCell_over (h : s.Over) : s.LeavesCell behaviour := by
  intro p callback hp
  rw [List.getElem?_eq_none h] at hp
  cases hp

theorem allLeft_iff {n : Nat} (hover : ((Round.step behaviour)^[n] s).Over) :
    s.AllLeft behaviour ↔ ∀ k < n, ((Round.step behaviour)^[k] s).LeavesCell behaviour := by
  refine ⟨fun hall k _ => hall k, ?_⟩
  intro hall k
  rcases Nat.lt_or_ge k n with hk | hk
  · exact hall k hk
  · obtain ⟨m, rfl⟩ := Nat.exists_eq_add_of_le' hk
    rw [Function.iterate_add_apply, iterate_step_over hover]
    exact leavesCell_over hover

/-! ## The property -/

/-- Every call was right, and every descriptor that was ready and is still
registered was called exactly once with its events. -/
structure Dispatched (g : Registry) (report : Int32 → UInt16) (s : Round) : Prop where
  own : s.Own g report
  once : ∀ e ∈ g.entries, report e.1 ≠ 0 → e ∈ s.registry.entries → s.told e.2 = [eventOf (report e.1)]

/-- Every callback has run to its end where it was called, and every descriptor
got its due. -/
structure Undisturbed (g : Registry) (report : Int32 → UInt16) (s : Round) : Prop extends s.Dispatched g report where
  inPlace : s.displaced = []

/-- No ready descriptor that is still registered was moved from behind the index
to it by a removal there or before. -/
def NoneSkipped (s : Round) : Prop := ∀ e ∈ s.registry.entries, e.2 ∉ s.skipped

theorem Inv.skips_iff (h : s.Inv g report s.i) (hover : s.Over) : s.Dispatched g report ↔ s.NoneSkipped := by
  have hall : s.reactor.slots.take s.i = s.reactor.slots := by
    rw [List.take_of_length_le]
    rw [PollReactor.length_slots h.length]
    exact hover
  unfold NoneSkipped
  rw [h.entries]
  constructor
  · intro hu e he hmem
    obtain ⟨x, hx, rfl⟩ := List.mem_map.1 he
    have hready := h.laid.skippedReady x hx hmem
    obtain ⟨hbegin, hrevents, hnone⟩ := h.laid.ready x hx hready
    have htold := hu.once _ hbegin (fun h0 => hready (hrevents.trans h0)) (h.entries ▸ he)
    cases hnone.symm.trans htold
  · intro hnone
    refine ⟨h.own, ?_⟩
    intro e hbegin hreport he
    rw [h.entries] at he
    obtain ⟨x, hx, rfl⟩ := List.mem_map.1 he
    by_cases hquiet : x.revents = 0
    · exact h.laid.served x hx hquiet hbegin hreport
    · exact absurd (h.laid.passed x (hall.symm ▸ hx) hquiet) (hnone _ he)

/-- A round without calls in which nothing is ready. -/
theorem quiet_undisturbed {g : Registry} {report : Int32 → UInt16} {s : Round} (hcalls : s.calls = [])
    (hdisplaced : s.displaced = []) (hnone : ∀ e ∈ g.entries, report e.1 = 0) : s.Undisturbed g report := by
  refine ⟨⟨?_, ?_⟩, hdisplaced⟩
  · intro c hc
    rw [hcalls] at hc
    cases hc
  · intro e he hreport
    exact absurd (hnone e he) hreport

/-- For every set of descriptors, every report of `poll` and everything that the
callbacks do, a round is undisturbed exactly if none of them, while it runs at a
place, removes what stands there or before, or adds to a full vector. -/
theorem undisturbed_iff (growth : Nat → Nat) (setup : List ReactorCall) (rc : Int32) (report : Int32 → UInt16)
    (behaviour : Nat → List ReactorCall) :
    ((enrolled growth setup).runFor rc report behaviour).2.Undisturbed (enrolled growth setup).registry
        (reported rc report) ↔
      (0 < rc → ((enrolled growth setup).polled report).AllLeft behaviour) := by
  have hinv := polled_inv growth setup report
  unfold runFor
  split
  · rename_i hempty
    have hnone : (enrolled growth setup).registry.entries = [] := by
      have hentries : (enrolled growth setup).registry.entries =
          ((enrolled growth setup).polled report).reactor.slots.map Slot.entry := hinv.entries
      rw [hentries]
      simp [polled, PollReactor.polled, PollReactor.slots, hempty]
    refine iff_of_true (quiet_undisturbed rfl rfl ?_) fun _ => ?_
    · intro e he
      rw [hnone] at he
      cases he
    · have hover : ((Round.step behaviour)^[0] ((enrolled growth setup).polled report)).Over := by
        change ((enrolled growth setup).reactor.polled report).pollfds.length ≤ 0
        simp [PollReactor.polled, hempty]
      exact (allLeft_iff hover).2 fun k hk => absurd hk (Nat.not_lt_zero k)
  · split
    · rename_i hfailed
      refine iff_of_true (quiet_undisturbed rfl rfl fun e _ => if_neg (Int32.lt_asymm hfailed)) ?_
      exact fun hpos => absurd hpos (Int32.lt_asymm hfailed)
    · split
      · rename_i hzero
        have hnone : ¬ 0 < rc := by
          rw [hzero]
          exact Int32.lt_irrefl
        exact iff_of_true (quiet_undisturbed rfl rfl fun e _ => if_neg hnone) fun hpos => absurd hpos hnone
      · rename_i hnonneg hnonzero
        have hpos : 0 < rc := Int32.lt_of_le_of_ne (Int32.not_lt.1 hnonneg) (Ne.symm hnonzero)
        have hreported : reported rc report = report := by
          funext fd
          exact if_pos hpos
        rw [hreported, forall_prop_of_true hpos]
        obtain ⟨hend, hover⟩ := finish_inv growth setup report behaviour
        obtain ⟨-, hdisplaced, hskipped⟩ := iterate_displaced (s := (enrolled growth setup).polled report)
          behaviour hinv (iterations behaviour ((enrolled growth setup).polled report).reactor.pollfds.length)
        rw [allLeft_iff (s := (enrolled growth setup).polled report) hover]
        constructor
        · exact fun hu => hdisplaced.1 hu.inPlace
        · intro hall
          have hnone : ((enrolled growth setup).polled report |>.finish behaviour).NoneSkipped := by
            intro e _ hmem
            have hsame : ((enrolled growth setup).polled report |>.finish behaviour).skipped = [] := hskipped hall
            rw [hsame] at hmem
            cases hmem
          exact ⟨(hend.skips_iff hover).2 hnone, hdisplaced.2 hall⟩

/-- Three descriptors are ready, and the callback of the first removes its own. -/
def removesItself : Nat → List ReactorCall
  | 0 => [.remove 3]
  | _ => []

/-- The second descriptor moves to the first place and is not called. -/
theorem removal_disturbs : ¬ ∀ (growth : Nat → Nat) (setup : List ReactorCall) (rc : Int32) (report : Int32 → UInt16)
    (behaviour : Nat → List ReactorCall),
    ((enrolled growth setup).runFor rc report behaviour).2.Undisturbed (enrolled growth setup).registry
      (reported rc report) := by
  intro hall
  have honce := (hall (2 * ·) [.add 3 .readable, .add 4 .readable, .add 5 .readable] 3 (fun _ => pollIn) removesItself).once
    (4, 1) (by decide) (by decide) (by decide +kernel)
  revert honce
  decide +kernel

end Round

end BistColo.Net
