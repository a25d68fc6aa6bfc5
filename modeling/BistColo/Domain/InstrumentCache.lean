import BistColo.Domain.Instrument
import BistColo.StreamKit.Runs
import BistColo.StreamKit.TwoWay
/-!
# The instrument cache as a two-way map

The cache is called a bidirectional map. `put` writes to both of its maps and
never removes what an update makes stale, so it stays one exactly as long as a
symbol keeps its book and a book its symbol (`two_way_iff`).
-/

open StreamKit

namespace BistColo.Domain

namespace InstrumentCache

def step (c : InstrumentCache) (inst : Instrument) : InstrumentCache := (c.put inst).2

/-- The last instrument that was put under the symbol. -/
def latest (puts : List Instrument) (symbol : Bytes) : Option Instrument :=
  (puts.filter fun inst => inst.symbol = symbol).getLast?

/-- The cache after `puts` is a two-way map that knows the latest of each symbol. -/
structure Bidirectional (c : InstrumentCache) (puts : List Instrument) : Prop where
  /-- What is found under a book is found under its symbol, and the other way round. -/
  twoWay : ∀ symbol book inst, (c.findByBookId book = some inst ∧ inst.symbol = symbol) ↔
    (c.findBySymbol symbol = some inst ∧ inst.orderBookId = book)
  latest : ∀ symbol inst, latest puts symbol = some inst →
    c.findBySymbol symbol = some inst ∧ c.findByBookId inst.orderBookId = some inst

/-- The symbol is new or keeps its book, and the book is new or keeps its symbol. -/
def KeepsKeys (c : InstrumentCache) (inst : Instrument) : Prop :=
  (∀ i, c.findBySymbol inst.symbol = some i → i.orderBookId = inst.orderBookId) ∧
    ∀ i, c.findByBookId inst.orderBookId = some i → i.symbol = inst.symbol

abbrev IsTwoWay (c : InstrumentCache) : Prop :=
  TwoWay Instrument.symbol Instrument.orderBookId c.findBySymbol c.findByBookId

theorem put_isTwoWay {c : InstrumentCache} (h : c.IsTwoWay) (inst : Instrument) :
    (c.step inst).IsTwoWay ↔ c.KeepsKeys inst := h.put_iff inst

theorem latest_append (puts : List Instrument) (inst : Instrument) (symbol : Bytes) :
    latest (puts ++ [inst]) symbol = if inst.symbol = symbol then some inst else latest puts symbol := by
  rw [latest, List.filter_append]
  by_cases h : inst.symbol = symbol
  · simp [h]
  · simp [h, latest]

/-- The map by symbol always holds the latest instruments. -/
theorem findBySymbol_run (puts : List Instrument) (symbol : Bytes) :
    (run step {} puts).findBySymbol symbol = latest puts symbol := by
  induction puts using List.reverseRecOn with
  | nil => rfl
  | append_singleton puts inst ih =>
    rw [run_append, latest_append, ← ih]
    by_cases h : inst.symbol = symbol
    · rw [if_pos h, ← h]
      exact Function.update_self ..
    · rw [if_neg h]
      exact Function.update_of_ne (Ne.symm h) ..

theorem bidirectional_iff (puts : List Instrument) :
    (run step {} puts).Bidirectional puts ↔ (run step {} puts).IsTwoWay := by
  constructor
  · intro h
    exact h.twoWay
  · intro h
    refine ⟨h, ?_⟩
    intro symbol inst hlatest
    rw [← findBySymbol_run] at hlatest
    exact ⟨hlatest, (h.found hlatest).2⟩

/-- After each put the cache is a two-way map exactly if every put keeps the
pairs of symbol and book that are there. -/
theorem two_way_iff (puts : List Instrument) :
    (∀ pre post, puts = pre ++ post → (run step {} pre).Bidirectional pre) ↔ AllAlong step KeepsKeys {} puts := by
  have hempty : IsTwoWay {} := TwoWay.empty _ _
  have hany : AllAlong step (fun _ _ => True) {} puts := allAlong_of_at fun _ _ _ _ => trivial
  rw [← allAlong_congr_of_keeps (C := fun c inst => (c.step inst).IsTwoWay) IsTwoWay
    (fun c inst h _ hkeeps => (put_isTwoWay h inst).2 hkeeps) (fun c inst h _ => put_isTwoWay h inst) hempty hany,
    allAlong_iff_at]
  constructor
  · rintro h pre inst post rfl
    have hafter := (bidirectional_iff (pre ++ [inst])).1 (h (pre ++ [inst]) post (by simp))
    rw [run_append] at hafter
    exact hafter
  · rintro h pre post rfl
    rw [bidirectional_iff]
    rcases List.eq_nil_or_concat pre with rfl | ⟨pre, inst, rfl⟩
    · exact hempty
    · have hlast := h pre inst post (by simp)
      rw [List.concat_eq_append, run_append]
      exact hlast

/-- Two instruments of one book. -/
def sharedBook : List Instrument := [{ symbol := ascii "ADEL.E", orderBookId := 70676 },
  { symbol := ascii "ACSEL.E", orderBookId := 70676 }]

/-- The first is found by its symbol, and its book finds the second. -/
theorem shared_book_one_way : (run step {} sharedBook).findBySymbol (ascii "ADEL.E") = sharedBook.head? ∧
    (run step {} sharedBook).findByBookId 70676 = sharedBook.getLast? ∧
    ¬ (run step {} sharedBook).Bidirectional sharedBook := by
  have hsymbol : (run step {} sharedBook).findBySymbol (ascii "ADEL.E") = sharedBook.head? := by decide
  have hbook : (run step {} sharedBook).findByBookId 70676 = sharedBook.getLast? := by decide
  refine ⟨hsymbol, hbook, ?_⟩
  intro h
  have hfirst := ((h.twoWay (ascii "ADEL.E") 70676 { symbol := ascii "ADEL.E", orderBookId := 70676 }).2
    ⟨hsymbol, rfl⟩).1
  rw [hbook] at hfirst
  exact absurd hfirst (by decide)

end InstrumentCache

end BistColo.Domain
