import BistColo.Core
/-!
# The token registry

`domain/token_registry.hpp`. The set of taken tokens is the list of its
members in the order they were taken; it holds the texts as they were given,
not the fourteen bytes that go on the wire.
-/

open StreamKit

namespace BistColo.Domain

structure TokenRegistry where
  tokenPrefix : Bytes := ascii "C-"
  sequence : UInt64 := 0
  seen : List Bytes := []
deriving DecidableEq

namespace TokenRegistry

/-- The text that `allocate` formats into its fifteen byte buffer, as the
string it reads back. -/
def formatted (r : TokenRegistry) (seq : UInt64) : Bytes :=
  cstr (snprintf (List.replicate 15 0) (cstr r.tokenPrefix ++ padded 11 seq))

/-- The token the next `allocate` returns. -/
def nextToken (r : TokenRegistry) : OrderToken := OrderToken.ofText (r.formatted (r.sequence + 1))

/-- `insert` of the set: whether the text is new, and the set with it. -/
def register (r : TokenRegistry) (tok : Bytes) : Bool × TokenRegistry :=
  if tok ∈ r.seen then (false, r) else (true, { r with seen := r.seen ++ [tok] })

/-- The result of the set's `emplace` is not looked at. -/
def allocate (r : TokenRegistry) : OrderToken × TokenRegistry :=
  (r.nextToken, ({ r with sequence := r.sequence + 1 }.register r.nextToken.view).2)

def registerExternal (r : TokenRegistry) (tok : Bytes) : Bool × TokenRegistry := r.register tok

/-- Spaces at the end of a token are the padding of the shorter text. -/
theorem ofText_view (t : OrderToken) : OrderToken.ofText t.view = t := Field.pad_trim 32 t

theorem register_eq (r : TokenRegistry) (tok : Bytes) :
    (r.register tok).2 = { r with seen := if tok ∈ r.seen then r.seen else r.seen ++ [tok] } := by
  unfold register
  split <;> rfl

theorem register_seen (r : TokenRegistry) (tok : Bytes) :
    (r.register tok).2.seen = if tok ∈ r.seen then r.seen else r.seen ++ [tok] := by
  unfold register
  split <;> rfl

end TokenRegistry

end BistColo.Domain
