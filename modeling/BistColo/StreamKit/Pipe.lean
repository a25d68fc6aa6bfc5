import Mathlib.Data.List.Basic
/-!
# An ordered pipe

What an output buffer in front of a byte stream is for: what is offered comes
out in order. `sent` has gone through, `queued` waits. Offering appends to the
queue and passing moves its head over, so `contents` grows by exactly what was
offered, whatever the passes.
-/

namespace StreamKit

/-- Items that went through, and items that still wait behind them. -/
structure Pipe (α : Type*) where
  sent : List α
  queued : List α

namespace Pipe

variable {α : Type*}

/-- Everything put in so far, in order. -/
def contents (p : Pipe α) : List α := p.sent ++ p.queued

/-- Put `xs` in behind everything that waits. -/
def offer (p : Pipe α) (xs : List α) : Pipe α := { p with queued := p.queued ++ xs }

/-- Let the first `n` waiting items through. -/
def pass (p : Pipe α) (n : Nat) : Pipe α where
  sent := p.sent ++ p.queued.take n
  queued := p.queued.drop n

@[simp] theorem contents_offer (p : Pipe α) (xs : List α) : (p.offer xs).contents = p.contents ++ xs := by
  simp [contents, offer]

@[simp] theorem contents_pass (p : Pipe α) (n : Nat) : (p.pass n).contents = p.contents := by
  simp [contents, pass]

@[simp] theorem pass_zero (p : Pipe α) : p.pass 0 = p := by
  simp [pass]

@[simp] theorem offer_nil (p : Pipe α) : p.offer [] = p := by
  simp [offer]

end Pipe

end StreamKit
