import BistColo.Runner.Lint
import BistColo.Runner.Ordering
/-!
# Tokens that the linter does not see

The linter compares the texts of place, replace and mass_quote steps.
`lint_unrepeated` says what has to hold besides for a run without duplicates:
a burst's texts are its own, texts that differ do so on the wire, and none is
one of the tokens that the registry makes. `burst_repeats` is a file without
issues whose burst takes the token of a place.
-/

open StreamKit

namespace BistColo.Runner

open Ouch OuchClient Domain ScenarioLint

/-! ## What the linter has seen -/

theorem Reads.scalar {n : Option Yaml} {v : Bytes} (h : Reads n some [] v) (hne : v ≠ []) : n = some (.scalar v) := by
  match n with
  | some (.scalar t) => rw [h.1 t t rfl rfl]
  | none | some .null | some (.seq items) | some (.map entries) => exact absurd (h.2 nofun) hne

section Linted

variable {conv : Conversions} {isFix : Bool} {n : Yaml} {s : Step}

/-- A text of the arguments of an action is one that the linter has seen. -/
theorem produced_of_find {a : Yaml} {key : String} {t : Bytes} (hargs : n.find "args" = some a)
    (hkey : key ∈ producerKeys (actionOf n)) (ht : a.find key = some (.scalar t)) : t ∈ produced n := by
  cases a with
  | map entries =>
    rw [produced, hargs]
    refine List.mem_filterMap.2 ⟨key, hkey, ?_⟩
    rw [scalarAt, ht]
  | null | scalar text | seq items => cases ht

theorem read_args (h : StepReads conv isFix n s) (hargs : s.args ≠ .other) :
    ∃ a, n.find "args" = some a ∧ ArgsRead conv isFix s.action a.find s.args := by
  cases hfind : n.find "args" with
  | none => exact absurd (h.noArgs hfind) hargs
  | some a => exact ⟨a, rfl, h.args a hfind⟩

theorem produced_of_place (h : StepReads conv isFix n s) (hact : s.action = "place") {t : Bytes} (ht : t ∈ orderTexts s)
    (hne : t ≠ []) : t ∈ produced n := by
  have haction : actionOf n = "place" := h.action.symm.trans hact
  rw [orderTexts, hact] at ht
  cases hargs : s.args with
  | place args =>
    rw [hargs] at ht
    obtain rfl := List.mem_singleton.1 ht
    obtain ⟨a, hfind, hread⟩ := read_args h (by rw [hargs]; nofun)
    rw [hargs] at hread
    cases hread with
    | place _ reads => exact produced_of_find hfind (by rw [haction]; decide) (reads.token.scalar hne)
    | noOrder hno => exact absurd (by rw [hact]; decide) hno
  | _ =>
    rw [hargs] at ht
    exact absurd (List.mem_singleton.1 ht) hne

theorem produced_of_replace (h : StepReads conv isFix n s) (hact : s.action = "replace") {t : Bytes}
    (ht : t ∈ orderTexts s) (hne : t ≠ []) : t ∈ produced n := by
  have haction : actionOf n = "replace" := h.action.symm.trans hact
  rw [orderTexts, hact] at ht
  cases hargs : s.args with
  | replace args =>
    simp only [hargs] at ht
    split at ht
    · cases ht
    · obtain rfl := List.mem_singleton.1 ht
      obtain ⟨a, hfind, hread⟩ := read_args h (by rw [hargs]; nofun)
      rw [hargs] at hread
      cases hread with
      | replace _ reads => exact produced_of_find hfind (by rw [haction]; decide) (reads.newToken.scalar hne)
      | noOrder hno => exact absurd (by rw [hact]; decide) hno
  | _ =>
    rw [hargs] at ht
    cases ht

theorem produced_of_quote (h : StepReads conv isFix n s) (hact : s.action = "mass_quote") {t : Bytes}
    (ht : t ∈ orderTexts s) (hne : t ≠ []) : t ∈ produced n := by
  have haction : actionOf n = "mass_quote" := h.action.symm.trans hact
  rw [orderTexts, hact] at ht
  cases hargs : s.args with
  | massQuote args =>
    simp only [hargs] at ht
    split at ht
    · cases ht
    · obtain rfl := List.mem_singleton.1 ht
      obtain ⟨a, hfind, hread⟩ := read_args h (by rw [hargs]; nofun)
      rw [hargs] at hread
      cases hread with
      | massQuote _ reads => exact produced_of_find hfind (by rw [haction]; decide) (reads.token.scalar hne)
      | noOrder hno => exact absurd (by rw [hact]; decide) hno
  | _ =>
    rw [hargs] at ht
    cases ht

/-- The text of an order that is not of a burst. -/
theorem produced_of_orders (h : StepReads conv isFix n s) {o : Order} (ho : o ∈ orders s) (hburst : o.burst = false)
    (hne : o.text ≠ []) : o.text ∈ produced n := by
  obtain ⟨t, ht, rfl⟩ := List.mem_map.1 ho
  have hother : s.action ≠ "burst_place" := of_decide_eq_false hburst
  by_cases hproduces : s.action ∈ ScenarioRunner.producers
  · simp only [ScenarioRunner.producers, List.mem_cons, List.not_mem_nil, or_false] at hproduces
    rcases hproduces with hact | hact | hact | hact
    · exact produced_of_place h hact ht hne
    · exact produced_of_replace h hact ht hne
    · exact produced_of_quote h hact ht hne
    · exact absurd hact hother
  · rw [ScenarioRunner.no_orders hproduces] at ho
    cases ho

/-- The event that the step expects, as the linter reads it. -/
theorem expectMsg_parseStep (h : parseStep conv isFix n = .ok s) : expectMsg n = (s.expect.map Expect.msg).getD "" := by
  obtain ⟨get, hget, h⟩ := bind_eq_ok.1 h
  obtain ⟨args, -, h⟩ := bind_eq_ok.1 h
  obtain ⟨expect, hexpect, h⟩ := bind_eq_ok.1 h
  cases h
  rw [Yaml.subscript_ok hget] at hexpect
  unfold expectMsg
  cases hfind : n.find "expect" with
  | none =>
    rw [hfind] at hexpect
    cases hexpect
    rfl
  | some e =>
    rw [hfind] at hexpect
    obtain ⟨exp, hexp, rfl⟩ := map_eq_ok.1 hexpect
    cases e with
    | map entries =>
      obtain ⟨fields, -, rfl⟩ := map_eq_ok.1 hexp
      rfl
    | null | scalar msg | seq items =>
      cases hexp
      rfl

/-- A step that expects no reject does not to the linter either. -/
theorem rejects_parseStep (h : parseStep conv isFix n = .ok s) (hexp : Expectable "ouch" n)
    (hno : ScenarioRunner.expectsReject s = false) : rejects n = false := by
  have hmsg := expectMsg_parseStep h
  have hother : expectMsg n ≠ "order_rejected" := by
    intro heq
    rw [heq] at hmsg
    unfold ScenarioRunner.expectsReject at hno
    split at hno
    · rename_i exp hsome
      rw [hsome] at hmsg
      exact of_decide_eq_false hno hmsg.symm
    · rename_i hnone
      rw [hnone] at hmsg
      exact absurd hmsg (by decide)
  have hfix : expectMsg n ≠ "fix_cancel_reject" := by
    intro heq
    rw [Expectable, heq] at hexp
    revert hexp
    decide
  rw [rejects, decide_eq_false hother, decide_eq_false hfix]
  rfl

end Linted

/-! ## Pairs of orders -/

/-- The second order's text is not the first one's, as far as the linter compares them. -/
def Linted (o o' : Order) : Prop :=
  o'.expectsReject = false → o.burst = false → o'.burst = false → o'.text ≠ [] → o.text ≠ o'.text

theorem pairwise_atMostOne {α : Type} {R : α → α → Prop} {c : Prop} [Decidable c] (a : α) :
    (if c then [] else [a]).Pairwise R := by
  split
  · exact .nil
  · exact List.pairwise_singleton R a

theorem linted_step (s : Step) : (orders s).Pairwise Linted := by
  apply List.pairwise_map.2
  by_cases hburst : s.action = "burst_place"
  · apply List.pairwise_of_forall_mem_list
    intro t _ t' _ _ hno
    exact absurd hburst (of_decide_eq_false hno)
  · -- any other step has one order at most
    unfold orderTexts
    split
    · exact List.pairwise_singleton _ _
    · exact pairwise_atMostOne _
    · exact pairwise_atMostOne _
    · contradiction
    · exact .nil

theorem forall₂_pairwise {α β : Type} {R : α → β → Prop} {S : α → α → Prop} {T : β → β → Prop}
    (hT : ∀ a b a' b', R a b → R a' b' → S a a' → T b b') {as : List α} {bs : List β} (h : List.Forall₂ R as bs)
    (hpair : as.Pairwise S) : bs.Pairwise T := by
  rw [List.pairwise_iff_getElem] at hpair ⊢
  intro i j hi hj hij
  have hlen := h.length_eq
  exact hT _ _ _ _ (h.get (by omega) hi) (h.get (by omega) hj) (hpair i j (by omega) (by omega) hij)

/-- The tokens of a file without issues. -/
theorem lint_orders {conv : Conversions} {path : String} {root : Yaml} {ok : Bool} {sc : Scenario}
    (hlint : lintOne conv path (.ok root) = .ok ⟨ok, []⟩) (hprotocol : protocolOf (root.find "preconditions") = "ouch")
    (hload : loadScenario conv path (.ok root) = .ok sc) : (sc.steps.flatMap orders).Pairwise Linted := by
  obtain ⟨items, hitems, hclean⟩ := lintOne_clean hlint
  obtain ⟨preconditions, items', -, hitems', hsteps⟩ := loadScenario_steps conv hload
  obtain rfl : items = items' := by
    rw [hitems] at hitems'
    exact Yaml.seq.inj (Option.some.inj hitems')
  rw [hprotocol] at hclean
  obtain ⟨heach, hpair⟩ := lintSteps_clean hclean
  have hboth := (List.forall₂_and_left items sc.steps).2 ⟨fun n hn => (heach n hn).1, hsteps⟩
  refine List.pairwise_flatMap.2 ⟨fun s _ => linted_step s, forall₂_pairwise ?_ hboth hpair⟩
  rintro n s n' s' ⟨-, hparse⟩ ⟨hexp', hparse'⟩ hfresh o ho o' ho' hno hburst hburst' hne
  have hreject : o'.expectsReject = ScenarioRunner.expectsReject s' := by
    obtain ⟨t, -, rfl⟩ := List.mem_map.1 ho'
    rfl
  rw [hreject] at hno
  have hnew := produced_of_orders (step_read conv hparse') ho' hburst' hne
  intro hsame
  rw [← hsame] at hne hnew
  exact hfresh (rejects_parseStep hparse' hexp' hno) _ hnew hne (produced_of_orders (step_read conv hparse) ho hburst hne)

/-! ## The condition -/

/-- The orders, each with the number of tokens that the registry can have made
before it. -/
def numbered : Nat → List Order → List (Nat × Order)
  | _, [] => []
  | made, o :: os => (made, o) :: numbered (if o.text = [] then made + 1 else made) os

/-- The token that the registry makes after `k` others. -/
def madeToken (tokenPrefix : Bytes) (k : Nat) : OrderToken :=
  ({ tokenPrefix, sequence := UInt64.ofNat k } : TokenRegistry).nextToken

/-- What the linter does not compare in two orders, the second of which expects no reject. -/
structure Apart (tokenPrefix : Bytes) (p q : Nat × Order) : Prop where
  /-- a burst has its texts to itself -/
  burst : p.2.burst = true ∨ q.2.burst = true → p.2.text ≠ [] → p.2.text ≠ q.2.text
  /-- texts that differ do so in the fourteen bytes of the wire -/
  padded : p.2.expectsReject = false → p.2.text ≠ [] → q.2.text ≠ [] → p.2.text ≠ q.2.text →
    OrderToken.ofText p.2.text ≠ OrderToken.ofText q.2.text
  /-- a text is none that the registry can have made before -/
  unmade : p.2.text = [] → q.2.text ≠ [] → ∀ k ≤ p.1, (madeToken tokenPrefix k).view ≠ q.2.text
  /-- nor do the tokens that the registry makes meet a text or one another on the wire -/
  madeBefore : p.2.expectsReject = false → p.2.text = [] → q.2.text ≠ [] →
    ∀ k ≤ p.1, madeToken tokenPrefix k ≠ OrderToken.ofText q.2.text
  madeAfter : p.2.expectsReject = false → p.2.text ≠ [] → q.2.text = [] →
    ∀ k ≤ q.1, madeToken tokenPrefix k ≠ OrderToken.ofText p.2.text
  madeTwice : p.2.expectsReject = false → p.2.text = [] → q.2.text = [] →
    ∀ k ≤ p.1, ∀ l ≤ q.1, k < l → madeToken tokenPrefix k ≠ madeToken tokenPrefix l

/-- Every order that expects no reject is apart from those before it. -/
def Separate (tokenPrefix : Bytes) (sc : Scenario) : Prop :=
  (numbered 0 (sc.steps.flatMap orders)).Pairwise fun p q => q.2.expectsReject = false → Apart tokenPrefix p q

/-! ## What the registry knows -/

/-- A text that the registry may know from an order. -/
def Known (tokenPrefix : Bytes) (p : Nat × Order) (u : Bytes) : Prop :=
  if p.2.text = [] then ∃ j ≤ p.1, u = (madeToken tokenPrefix j).view else u = p.2.text

/-- A token that may have gone out for an order, with `k` tokens made so far. -/
def Carries (tokenPrefix : Bytes) (k : Nat) (p : Nat × Order) (w : Bytes) : Prop :=
  if p.2.text = [] then ∃ j ≤ p.1, j < k ∧ w = (madeToken tokenPrefix j).bytes else w = (OrderToken.ofText p.2.text).bytes

/-- The registry knows what comes of the orders so far, and the tokens sent are
those of orders that expect no reject, once each. -/
structure Entered (tokenPrefix : Bytes) (passed : List (Nat × Order)) (k : Nat) (tokens : TokenRegistry)
    (wire : List Bytes) : Prop where
  prefix_eq : tokens.tokenPrefix = tokenPrefix
  sequence_eq : tokens.sequence = UInt64.ofNat k
  known : ∀ u ∈ tokens.seen, ∃ p ∈ passed, Known tokenPrefix p u
  carried : ∀ w ∈ wire, ∃ p ∈ passed, p.2.expectsReject = false ∧ Carries tokenPrefix k p w
  nodup : wire.Nodup

/-- The linter and the condition together. -/
def Fits (tokenPrefix : Bytes) (p q : Nat × Order) : Prop :=
  q.2.expectsReject = false → Linted p.2 q.2 ∧ Apart tokenPrefix p q

section Entered

variable {tokenPrefix : Bytes} {passed : List (Nat × Order)} {k : Nat} {tokens : TokenRegistry} {wire : List Bytes}
  {q : Nat × Order}

theorem Fits.text_ne {p : Nat × Order} (h : Fits tokenPrefix p q) (hno : q.2.expectsReject = false)
    (hp : p.2.text ≠ []) (hq : q.2.text ≠ []) : p.2.text ≠ q.2.text := by
  obtain ⟨hlinted, hapart⟩ := h hno
  by_cases hburst : p.2.burst = true ∨ q.2.burst = true
  · exact hapart.burst hburst hp
  · rw [not_or, Bool.not_eq_true, Bool.not_eq_true] at hburst
    exact hlinted hno hburst.1 hburst.2 hq

theorem Entered.more (h : Entered tokenPrefix passed k tokens wire) (q : Nat × Order) :
    Entered tokenPrefix (passed ++ [q]) k tokens wire where
  prefix_eq := h.prefix_eq
  sequence_eq := h.sequence_eq
  known u hu := by
    obtain ⟨p, hp, hknown⟩ := h.known u hu
    exact ⟨p, List.mem_append_left _ hp, hknown⟩
  carried w hw := by
    obtain ⟨p, hp, hcarries⟩ := h.carried w hw
    exact ⟨p, List.mem_append_left _ hp, hcarries⟩
  nodup := h.nodup

theorem Entered.nextToken (h : Entered tokenPrefix passed k tokens wire) : tokens.nextToken = madeToken tokenPrefix k := by
  rw [madeToken, TokenRegistry.nextToken, TokenRegistry.nextToken, TokenRegistry.formatted, TokenRegistry.formatted,
    h.prefix_eq, h.sequence_eq]

/-- The text of an order that expects no reject is new to the registry. -/
theorem Entered.new_text (h : Entered tokenPrefix passed k tokens wire) (hfits : ∀ p ∈ passed, Fits tokenPrefix p q)
    (hno : q.2.expectsReject = false) (hne : q.2.text ≠ []) : q.2.text ∉ tokens.seen := by
  intro hseen
  obtain ⟨p, hp, hknown⟩ := h.known _ hseen
  unfold Known at hknown
  split at hknown
  · rename_i hempty
    obtain ⟨j, hj, heq⟩ := hknown
    exact (hfits p hp hno).2.unmade hempty hne j hj heq.symm
  · rename_i hsome
    exact (hfits p hp).text_ne hno hsome hne hknown.symm

/-- Its token is new on the wire. -/
theorem Entered.new_wire (h : Entered tokenPrefix passed k tokens wire) (hfits : ∀ p ∈ passed, Fits tokenPrefix p q)
    (hno : q.2.expectsReject = false) (hne : q.2.text ≠ []) : (OrderToken.ofText q.2.text).bytes ∉ wire := by
  intro hwire
  obtain ⟨p, hp, hnop, hcarries⟩ := h.carried _ hwire
  have hapart := (hfits p hp hno).2
  unfold Carries at hcarries
  split at hcarries
  · rename_i hempty
    obtain ⟨j, hj, -, heq⟩ := hcarries
    exact hapart.madeBefore hnop hempty hne j hj (StreamKit.Field.ext heq.symm)
  · rename_i hsome
    exact hapart.padded hnop hsome hne ((hfits p hp).text_ne hno hsome hne) (StreamKit.Field.ext hcarries.symm)

/-- So is the token that the registry makes for it. -/
theorem Entered.new_made (h : Entered tokenPrefix passed k tokens wire) (hfits : ∀ p ∈ passed, Fits tokenPrefix p q)
    (hno : q.2.expectsReject = false) (hempty : q.2.text = []) (hk : k ≤ q.1) :
    (madeToken tokenPrefix k).bytes ∉ wire := by
  intro hwire
  obtain ⟨p, hp, hnop, hcarries⟩ := h.carried _ hwire
  have hapart := (hfits p hp hno).2
  unfold Carries at hcarries
  split at hcarries
  · rename_i hemptyp
    obtain ⟨j, hj, hlt, heq⟩ := hcarries
    exact hapart.madeTwice hnop hemptyp hempty j hj k hk hlt (StreamKit.Field.ext heq.symm)
  · rename_i hsome
    exact hapart.madeAfter hnop hsome hempty k hk (StreamKit.Field.ext hcarries)

theorem Carries.mono {k' : Nat} (hk : k ≤ k') {p : Nat × Order} {w : Bytes} (h : Carries tokenPrefix k p w) :
    Carries tokenPrefix k' p w := by
  unfold Carries at h ⊢
  split
  · rename_i hempty
    rw [if_pos hempty] at h
    obtain ⟨j, hj, hlt, heq⟩ := h
    exact ⟨j, hj, Nat.lt_of_lt_of_le hlt hk, heq⟩
  · rename_i hsome
    rwa [if_neg hsome] at h

/-- The registry takes a text and the wire a token of the order. -/
theorem Entered.grows (h : Entered tokenPrefix passed k tokens wire) {k' : Nat} (hk : k ≤ k') {u w : Bytes}
    {tokens' : TokenRegistry} (hkept : tokens'.tokenPrefix = tokens.tokenPrefix)
    (hsequence : tokens'.sequence = UInt64.ofNat k') (hseen : ∀ v ∈ tokens'.seen, v ∈ tokens.seen ∨ v = u)
    (hknown : Known tokenPrefix q u) (hcarries : Carries tokenPrefix k' q w) (hnew : q.2.expectsReject = false → w ∉ wire) :
    Entered tokenPrefix (passed ++ [q]) k' tokens' (wire ++ if q.2.expectsReject then [] else [w]) where
  prefix_eq := hkept.trans h.prefix_eq
  sequence_eq := hsequence
  known v hv := by
    rcases hseen v hv with hold | rfl
    · obtain ⟨p, hp, hpknown⟩ := h.known v hold
      exact ⟨p, List.mem_append_left _ hp, hpknown⟩
    · exact ⟨q, List.mem_append_right _ (List.mem_singleton_self q), hknown⟩
  carried v hv := by
    rcases List.mem_append.1 hv with hold | hlast
    · obtain ⟨p, hp, hnop, hpcarries⟩ := h.carried v hold
      exact ⟨p, List.mem_append_left _ hp, hnop, hpcarries.mono hk⟩
    · split at hlast
      · cases hlast
      · rename_i hno
        rw [List.mem_singleton] at hlast
        exact ⟨q, List.mem_append_right _ (List.mem_singleton_self q), Bool.eq_false_iff.2 hno, by rwa [hlast]⟩
  nodup := by
    split
    · rw [List.append_nil]
      exact h.nodup
    · rename_i hno
      rw [List.nodup_append]
      refine ⟨h.nodup, List.nodup_singleton w, ?_⟩
      intro v hv v' hv' heq
      rw [List.mem_singleton] at hv'
      rw [heq, hv'] at hv
      exact hnew (Bool.eq_false_iff.2 hno) hv

/-- What the registry and the wire come to when an order gets its token. -/
theorem Entered.claims {c : OuchClient} {r : Request} (h : Entered tokenPrefix passed k c.tokens wire)
    (hfits : ∀ p ∈ passed, Fits tokenPrefix p q) (hk : k ≤ q.1) (hclaim : r.claim = some q.2.text) :
    ∃ k' ≤ (if q.2.text = [] then q.1 + 1 else q.1), Entered tokenPrefix (passed ++ [q]) k' (c.claimed r).2
      (wire ++ if q.2.expectsReject then [] else [(c.claimed r).1.bytes]) := by
  unfold claimed
  rw [hclaim]
  cases htext : q.2.text with
  | nil =>
    have hnext := h.nextToken
    refine ⟨k + 1, by rw [if_pos rfl]; omega, ?_⟩
    dsimp only [TokenRegistry.allocate]
    rw [hnext, TokenRegistry.register_eq]
    refine h.grows (u := (madeToken tokenPrefix k).view) (Nat.le_succ k) rfl ?_ ?_ ?_ ?_ ?_
    · dsimp only
      rw [h.sequence_eq, Nat.succ_eq_add_one, UInt64.ofNat_add]
      rfl
    · intro v hv
      dsimp only at hv
      split at hv
      · exact .inl hv
      · rwa [List.mem_append, List.mem_singleton] at hv
    · rw [Known, if_pos htext]
      exact ⟨k, hk, rfl⟩
    · rw [Carries, if_pos htext]
      exact ⟨k, hk, Nat.lt_succ_self k, rfl⟩
    · exact fun hno => h.new_made hfits hno htext hk
  | cons b t =>
    have hne : q.2.text ≠ [] := by rw [htext]; exact List.cons_ne_nil b t
    refine ⟨k, by rw [if_neg (List.cons_ne_nil b t)]; exact hk, ?_⟩
    refine h.grows (u := b :: t) le_rfl rfl h.sequence_eq ?_ ?_ ?_ ?_
    · intro v hv
      rwa [List.mem_append, List.mem_singleton] at hv
    · rw [Known, if_neg hne, htext]
    · rw [Carries, if_neg hne, htext]
    · intro hno
      have hnew := h.new_wire hfits hno hne
      rwa [htext] at hnew

theorem carried_of_handed {x : Asked} {ms : List OuchSession.Outgoing} (h : x.outcome.2.handed = x.client.handed ++ ms) :
    x.carried = wireTokens ms := by
  rw [Asked.carried, h, wireTokens_append, List.drop_left]

theorem carried_of_kept {x : Asked} (h : x.outcome.2.handed = x.client.handed) : x.carried = [] := by
  rw [Asked.carried, h, List.drop_length]

/-- A call for an order: it is not refused if it expects no reject, and its
token is new on the wire. -/
theorem Entered.call {x : Asked} (h : Entered tokenPrefix passed k x.client.tokens wire)
    (hfits : ∀ p ∈ passed, Fits tokenPrefix p q) (hk : k ≤ q.1) (hclaim : x.request.claim = some q.2.text) :
    (q.2.expectsReject = false → ¬ x.Refused) ∧
      ∃ k' ≤ (if q.2.text = [] then q.1 + 1 else q.1), Entered tokenPrefix (passed ++ [q]) k' x.outcome.2.tokens
        (wire ++ if q.2.expectsReject then [] else x.carried) := by
  refine ⟨?_, ?_⟩
  · intro hno hrefused
    obtain ⟨-, hadm⟩ := (call_taken_iff _ _ _).1 hrefused
    apply hadm
    intro t ht hne
    obtain rfl : q.2.text = t := Option.some.inj (hclaim.symm.trans ht)
    exact h.new_text hfits hno hne
  · rcases x.client.step_request x.now x.request with ⟨-, hhanded, htokens⟩ | ⟨-, -, hhanded, htokens⟩
    · have hnothing : x.carried = [] := carried_of_kept hhanded
      refine ⟨k, by split <;> omega, ?_⟩
      rw [hnothing, ite_self, List.append_nil, Asked.outcome, htokens]
      exact h.more q
    · have htoken : x.carried = [(x.client.claimed x.request).1.bytes] := by
        rw [carried_of_handed hhanded, wireTokens, List.filterMap_cons_some, List.filterMap_nil]
        rw [tokenField_message, hclaim]
        rfl
      rw [htoken, Asked.outcome, htokens]
      exact h.claims hfits hk hclaim

end Entered

/-! ## Runs -/

/-- No call of a step that expects no reject is refused because its token is
already used, and no two of them send the same token. -/
structure Unrepeated (xs : List Asked) : Prop where
  refused : ∀ x ∈ xs, ScenarioRunner.expectsReject x.step = false → ¬ x.Refused
  distinct : (xs.flatMap fun x => if ScenarioRunner.expectsReject x.step then [] else x.carried).Nodup

theorem Orders.unrepeated {d d' : Desk} {xs : List Asked} {os : List Order} (h : Orders d xs os d') {tokenPrefix : Bytes}
    {passed : List (Nat × Order)} {k n : Nat} {wire : List Bytes} (hin : Entered tokenPrefix passed k d.tokens wire)
    (hk : k ≤ n) (hpair : (passed ++ numbered n os).Pairwise (Fits tokenPrefix)) :
    (∀ x ∈ xs, ScenarioRunner.expectsReject x.step = false → ¬ x.Refused) ∧
      (wire ++ xs.flatMap fun x => if ScenarioRunner.expectsReject x.step then [] else x.carried).Nodup := by
  induction h generalizing passed k n wire with
  | done d =>
    rw [List.flatMap_nil, List.append_nil]
    exact ⟨fun x hx => absurd hx List.not_mem_nil, hin.nodup⟩
  | skip o rest ih =>
    rw [numbered, List.append_cons] at hpair
    refine ih (hin.more (n, o)) ?_ hpair
    split <;> omega
  | @idle x xs os d' hidle rest ih =>
    have hkept := x.client.step_request x.now x.request
    obtain ⟨-, hhanded, htokens⟩ := hkept.resolve_right fun h => hidle h.1
    have hnothing : x.carried = [] := carried_of_kept hhanded
    have hsame : (deskOf x.outcome.2).tokens = (deskOf x.client).tokens := htokens
    rw [← hsame] at hin
    obtain ⟨hrefused, hnodup⟩ := ih hin hk hpair
    refine ⟨?_, ?_⟩
    · intro y hy hno
      rcases List.mem_cons.1 hy with rfl | hy
      · intro hused
        exact hidle ((call_taken_iff _ _ _).1 hused).1
      · exact hrefused y hy hno
    · rwa [List.flatMap_cons, hnothing, ite_self, List.nil_append]
  | @call x xs o os d' hclaim hreject rest ih =>
    rw [numbered] at hpair
    have hfits : ∀ p ∈ passed, Fits tokenPrefix p (n, o) := by
      intro p hp
      exact (List.pairwise_append.1 hpair).2.2 p hp (n, o) List.mem_cons_self
    rw [List.append_cons] at hpair
    obtain ⟨hnot, k', hk', hnext⟩ := hin.call (q := (n, o)) hfits hk hclaim
    obtain ⟨hrefused, hnodup⟩ := ih hnext hk' hpair
    refine ⟨?_, ?_⟩
    · intro y hy hno
      rcases List.mem_cons.1 hy with rfl | hy
      · exact hnot (hreject.symm.trans hno)
      · exact hrefused y hy hno
    · rwa [List.flatMap_cons, hreject, ← List.append_assoc]

theorem map_numbered (os : List Order) (n : Nat) : (numbered n os).map Prod.snd = os := by
  induction os generalizing n with
  | nil => rfl
  | cons o os ih => rw [numbered, List.map_cons, ih]

theorem numbered_pairwise {R : Order → Order → Prop} {os : List Order} (h : os.Pairwise R) (n : Nat) :
    (numbered n os).Pairwise fun p q => R p.2 q.2 := by
  rw [← List.pairwise_map (f := Prod.snd), map_numbered]
  exact h

/-- Orders that all have texts of their own need no more than tokens that differ. -/
theorem separate_of_texts {tokenPrefix : Bytes} {sc : Scenario} (htexts : ∀ o ∈ sc.steps.flatMap orders, o.text ≠ [])
    (htokens : ((sc.steps.flatMap orders).map fun o => OrderToken.ofText o.text).Nodup) : Separate tokenPrefix sc := by
  have hpair := numbered_pairwise (List.pairwise_map.1 htokens) 0
  refine hpair.imp_of_mem ?_
  intro p q hp hq hwire _
  have htext {p : Nat × Order} (hp : p ∈ numbered 0 (sc.steps.flatMap orders)) : p.2.text ≠ [] := by
    apply htexts
    rw [← map_numbered (sc.steps.flatMap orders) 0]
    exact List.mem_map_of_mem hp
  have hdiffer : p.2.text ≠ q.2.text := fun hsame => hwire (congrArg OrderToken.ofText hsame)
  exact ⟨fun _ _ => hdiffer, fun _ _ _ _ => hwire, fun hempty => absurd hempty (htext hp),
    fun _ hempty => absurd hempty (htext hp), fun _ _ hempty => absurd hempty (htext hq),
    fun _ hempty => absurd hempty (htext hp)⟩

/-- A scenario without issues whose orders are apart is run without duplicates,
whatever the throttler, the gateway and the transport do. -/
theorem lint_unrepeated {conv : Conversions} {path : String} {root : Yaml} {ok : Bool} {sc : Scenario}
    (hlint : lintOne conv path (.ok root) = .ok ⟨ok, []⟩) (hprotocol : protocolOf (root.find "preconditions") = "ouch")
    (hload : loadScenario conv path (.ok root) = .ok sc) {r : ScenarioRunner} {tokenPrefix : Bytes}
    (hfresh : r.client.tokens = { tokenPrefix }) (hseparate : Separate tokenPrefix sc) :
    Unrepeated (r.askedBy sc sc.steps) := by
  obtain ⟨d, hd⟩ := r.run_orders sc sc.steps
  have hfits : (numbered 0 (sc.steps.flatMap orders)).Pairwise (Fits tokenPrefix) := by
    have hboth := (numbered_pairwise (lint_orders hlint hprotocol hload) 0).and hseparate
    exact hboth.imp fun h hno => ⟨h.1, h.2 hno⟩
  have hstart : Entered tokenPrefix [] 0 r.client.tokens [] := by
    rw [hfresh]
    exact ⟨rfl, rfl, nofun, nofun, List.nodup_nil⟩
  obtain ⟨hrefused, hnodup⟩ := hd.unrepeated hstart le_rfl hfits
  exact ⟨hrefused, hnodup⟩

/-! ## A burst that takes the token of a place -/

/-- A file of a place with the token 1000 and a burst of two. -/
def burstFile (tokenPrefix : String) : Yaml :=
  .map [entry "name" "burst", (.scalar (ascii "preconditions"), .map [entry "protocol" "ouch"]),
    (.scalar (ascii "steps"), .seq [
      .map [entry "id" "1", entry "action" "place", (.scalar (ascii "args"),
        .map [entry "symbol" "ACSEL.E", entry "side" "BUY", entry "qty" "1", entry "price" "6.000", entry "token" "1000"])],
      .map [entry "id" "2", entry "action" "burst_place", (.scalar (ascii "args"),
        .map [entry "count" "2", (.scalar (ascii "pattern"), .seq [
          .map [entry "symbol" "ACSEL.E", entry "side" "BUY", entry "qty" "1", entry "price" "6.000",
            entry "token_prefix" tokenPrefix]])])]])]

def burstScenario (tokenPrefix : String) : Scenario where
  steps := [
    { id := 1, action := "place",
      args := .place { symbol := ascii "ACSEL.E", quantity := 1, priceStr := ascii "6.000", token := ascii "1000" } },
    { id := 2, action := "burst_place",
      args := .burstPlace { count := 2, pattern := [{ symbol := ascii "ACSEL.E", quantity := 1, priceStr := ascii "6.000",
                                                      tokenPrefix := ascii tokenPrefix }] } }]

/-- A runner whose session is logged in. -/
def tradingRunner : ScenarioRunner where
  client := OuchClient.trading
  instruments := { findBySymbol := fun symbol => some { symbol } }
  around := { throttle := ⟨fun _ => 0, 0⟩, wall := ⟨fun _ => 0, 0⟩, patience := fun _ _ => 0 }

theorem burstFile_clean (tokenPrefix : String) :
    lintOne plainConversions "burst.yaml" (.ok (burstFile tokenPrefix)) = .ok ⟨true, []⟩ := by
  rfl

theorem burstFile_loads (tokenPrefix : String) :
    loadScenario plainConversions "burst.yaml" (.ok (burstFile tokenPrefix)) = .ok (burstScenario tokenPrefix) := by
  rfl

theorem burstScenario_separate : Separate (ascii "C-") (burstScenario "2000") := by
  apply separate_of_texts
  · decide +kernel
  · decide +kernel

theorem lint_unrepeated_burst :
    Unrepeated (tradingRunner.askedBy (burstScenario "2000") (burstScenario "2000").steps) :=
  lint_unrepeated (burstFile_clean "2000") rfl (burstFile_loads "2000") rfl burstScenario_separate

/-- The linter has no issue with the file, and the client refuses the first
order of the burst. -/
theorem burst_repeats : ¬ ∀ (conv : Conversions) (path : String) (root : Yaml) (ok : Bool) (sc : Scenario)
    (r : ScenarioRunner) (tokenPrefix : Bytes), lintOne conv path (.ok root) = .ok ⟨ok, []⟩ →
    protocolOf (root.find "preconditions") = "ouch" → loadScenario conv path (.ok root) = .ok sc →
    r.client.tokens = { tokenPrefix } → Unrepeated (r.askedBy sc sc.steps) := by
  intro h
  have hrun := h _ _ _ _ _ tradingRunner (ascii "C-") (burstFile_clean "1000") rfl (burstFile_loads "1000") rfl
  obtain ⟨x, hx, hno, hclaim, he⟩ : ∃ x ∈ tradingRunner.askedBy (burstScenario "1000") (burstScenario "1000").steps,
      ScenarioRunner.expectsReject x.step = false ∧ x.request.claim = some (ascii "1000") ∧
        x.outcome.1 = .error (makeError .validation (x.request.taken ++ text (ascii "1000"))) := by
    decide +kernel
  exact hrun.refused x hx hno ⟨_, hclaim, he⟩

end BistColo.Runner
