import BistColo.Runner.Ordering
import BistColo.StreamKit.Counters
/-!
# The tokens of a burst

Each entry of a burst's pattern counts up from the number that its prefix
begins with. `burst_distinct_iff` says which prefixes give every order a token
of its own.
-/

open StreamKit

namespace BistColo.Runner

namespace ScenarioRunner

/-- The tokens of `burstLoop`: `seq` counts the orders of each pattern entry. -/
def burstTokens (a : BurstPlaceArgs) : Nat → Nat → (Nat → UInt64) → List Bytes
  | 0, _, _ => []
  | left + 1, i, seq =>
    match a.pattern[i % a.pattern.length]? with
    | none => []
    | some pat =>
      let k := i % a.pattern.length
      decText (strtoull (pat.tokenPrefix ++ [0]) + seq k).toNat ::
        burstTokens a left (i + 1) (Function.update seq k (seq k + 1))

/-- The tokens of a burst, if the client takes every order. -/
def tokensOfBurst (a : BurstPlaceArgs) : List Bytes :=
  if a.count = 0 ∨ a.pattern = [] then []
  else if a.ratePerSec = 0 then []
  else burstTokens a a.count.toNat 0 fun _ => 0

theorem burstArgs_token (inst : Domain.Instrument) (pat : BurstPlacePatternEntry) (seq : UInt64) :
    (burstArgs inst pat seq).explicitToken = decText (strtoull (pat.tokenPrefix ++ [0]) + seq).toNat := rfl

theorem burstSendAsked_request {s : Step} {args : Ouch.PlaceArgs} {attempts : Nat} {r : ScenarioRunner} {x : Asked}
    (h : x ∈ burstSendAsked s args attempts r) : x.request = .place args := by
  induction attempts generalizing r with
  | zero => cases h
  | succ attempts ih =>
    rw [burstSendAsked] at h
    rcases List.mem_cons.1 h with rfl | hrest
    · rfl
    · split at hrest
      · cases hrest
      · split at hrest
        · cases hrest
        · exact ih hrest

/-- The calls of the loop place orders with its tokens. -/
theorem burstLoopAsked_token {s : Step} {a : BurstPlaceArgs} {left i : Nat} {seq : Nat → UInt64} {r : ScenarioRunner}
    {x : Asked} (h : x ∈ burstLoopAsked s a left i seq r) : ∃ t ∈ burstTokens a left i seq, x.request.claim = some t := by
  induction left generalizing i seq r with
  | zero => cases h
  | succ left ih =>
    rw [burstLoopAsked] at h
    rw [burstTokens]
    cases hpat : a.pattern[i % a.pattern.length]? with
    | none =>
      rw [hpat] at h
      cases h
    | some pat =>
      simp only [hpat] at h
      split at h
      · cases h
      · rename_i inst _
        rcases List.mem_append.1 h with hsend | hrest
        · refine ⟨_, List.mem_cons_self, ?_⟩
          rw [burstSendAsked_request hsend]
          rfl
        · split at hrest
          · cases hrest
          · obtain ⟨t, ht, hclaim⟩ := ih hrest
            exact ⟨t, List.mem_cons_of_mem _ ht, hclaim⟩

theorem burstTokens_eq {a : BurstPlaceArgs} (hpattern : a.pattern ≠ []) (left i : Nat) {seq : Nat → UInt64}
    (hseq : Counts a.pattern.length i seq) : burstTokens a left i seq = (List.range' i left).map (burstText a) := by
  have hlen : 0 < a.pattern.length := List.length_pos_iff.2 hpattern
  induction left generalizing i seq with
  | zero => rfl
  | succ left ih =>
    have hturn : i % a.pattern.length < a.pattern.length := Nat.mod_lt i hlen
    rw [burstTokens, List.range'_succ, List.map_cons, burstText, List.getElem?_eq_getElem hturn, ← ih (i + 1) (hseq.next hlen)]
    dsimp only
    rw [hseq.here hlen]

theorem tokensOfBurst_eq (a : BurstPlaceArgs) : tokensOfBurst a = burstTexts a := by
  unfold tokensOfBurst burstTexts
  split
  · rfl
  · rename_i hsome
    split
    · rfl
    · rw [List.range_eq_range']
      exact burstTokens_eq (fun hnone => hsome (.inr hnone)) _ 0 .start

end ScenarioRunner

/-! ## Numbers that stay apart -/

namespace BurstPlaceArgs

/-- The number that an entry counts up from. -/
def first (a : BurstPlaceArgs) (k : Nat) : UInt64 :=
  match a.pattern[k]? with
  | none => 0
  | some pat => strtoull (pat.tokenPrefix ++ [0])

/-- How many of the orders an entry has. -/
def turns (a : BurstPlaceArgs) (k : Nat) : Nat := (a.count.toNat + (a.pattern.length - 1 - k)) / a.pattern.length

/-- Between the first numbers of two entries there is room for the orders of the one. -/
def Apart (a : BurstPlaceArgs) : Prop :=
  ∀ k < a.pattern.length, ∀ l < a.pattern.length, k ≠ l → 0 < a.turns k → 0 < a.turns l → a.turns k ≤ ahead (a.first l) (a.first k)

end BurstPlaceArgs

theorem burstText_eq (a : BurstPlaceArgs) {i : Nat} (hlen : 0 < a.pattern.length) :
    burstText a i = decText (a.first (i % a.pattern.length) + UInt64.ofNat (i / a.pattern.length)).toNat := by
  have hturn : i % a.pattern.length < a.pattern.length := Nat.mod_lt i hlen
  unfold burstText BurstPlaceArgs.first
  rw [List.getElem?_eq_getElem hturn]

theorem burstText_inj {a : BurstPlaceArgs} {i j : Nat} (hlen : 0 < a.pattern.length) : burstText a i = burstText a j ↔
    a.first (i % a.pattern.length) + UInt64.ofNat (i / a.pattern.length) =
      a.first (j % a.pattern.length) + UInt64.ofNat (j / a.pattern.length) := by
  rw [burstText_eq a hlen, burstText_eq a hlen]
  constructor
  · intro htext
    have hread := congrArg (readDigits 0) htext
    rw [readDigits_decText, readDigits_decText] at hread
    exact UInt64.toNat_inj.1 hread
  · intro hsame
    rw [hsame]

section Turns

variable {a : BurstPlaceArgs} (hlen : 0 < a.pattern.length)

include hlen

/-- Order number `i` is one of those of its entry. -/
theorem turns_order {i : Nat} (hi : i < a.count.toNat) : i / a.pattern.length < a.turns (i % a.pattern.length) := by
  have hmod := Nat.mod_lt i hlen
  have hdiv := Nat.div_add_mod i a.pattern.length
  have hcomm : i / a.pattern.length * a.pattern.length = a.pattern.length * (i / a.pattern.length) := Nat.mul_comm ..
  unfold BurstPlaceArgs.turns
  apply Nat.lt_of_succ_le
  rw [Nat.le_div_iff_mul_le hlen, Nat.succ_mul]
  omega

/-- Order number `j` of an entry is an order of the burst. -/
theorem order_turns {k j : Nat} (hk : k < a.pattern.length) (hj : j < a.turns k) :
    j * a.pattern.length + k < a.count.toNat := by
  unfold BurstPlaceArgs.turns at hj
  have hle := (Nat.le_div_iff_mul_le hlen).1 (Nat.succ_le_of_lt hj)
  rw [Nat.succ_mul] at hle
  omega

end Turns

theorem turns_lt (a : BurstPlaceArgs) {k : Nat} (hk : k < a.pattern.length) : a.turns k < 2 ^ 64 := by
  have hcount := a.count.toNat_lt
  have hle : a.turns k ≤ a.count.toNat := by
    unfold BurstPlaceArgs.turns
    apply Nat.le_of_lt_succ
    rw [Nat.div_lt_iff_lt_mul (by omega), Nat.succ_mul]
    have hgrow : a.count.toNat ≤ a.count.toNat * a.pattern.length := Nat.le_mul_of_pos_right _ (by omega)
    omega
  omega

/-- The tokens of two entries are distinct exactly if their numbers stay apart. -/
theorem entries_distinct_iff {a : BurstPlaceArgs} {k l : Nat} (hk : k < a.pattern.length) (hl : l < a.pattern.length)
    (hturns : 0 < a.turns k) (hturns' : 0 < a.turns l) :
    (∀ i < a.turns k, ∀ j < a.turns l, a.first k + UInt64.ofNat i ≠ a.first l + UInt64.ofNat j) ↔
      a.turns k ≤ ahead (a.first l) (a.first k) ∧ a.turns l ≤ ahead (a.first k) (a.first l) :=
  apart_iff hturns hturns' (turns_lt a hk) (turns_lt a hl)

theorem order_entry {len k : Nat} (hk : k < len) (j : Nat) : (j * len + k) % len = k ∧ (j * len + k) / len = j := by
  rw [Nat.mul_comm, Nat.mul_add_mod, Nat.mod_eq_of_lt hk, Nat.mul_add_div (by omega), Nat.div_eq_of_lt hk]
  exact ⟨rfl, rfl⟩

theorem BurstPlaceArgs.Apart.of_distinct {a : BurstPlaceArgs} (hlen : 0 < a.pattern.length)
    (h : ∀ i < a.count.toNat, ∀ j < a.count.toNat, burstText a i = burstText a j → i = j) : a.Apart := by
  intro k hk l hl hne hturns hturns'
  refine ((entries_distinct_iff hk hl hturns hturns').1 ?_).1
  intro i hi j hj heq
  have hi' := order_entry hk i
  have hj' := order_entry hl j
  have htext : burstText a (i * a.pattern.length + k) = burstText a (j * a.pattern.length + l) := by
    rw [burstText_inj hlen, hi'.1, hi'.2, hj'.1, hj'.2]
    exact heq
  have hsame := h _ (order_turns hlen hk hi) _ (order_turns hlen hl hj) htext
  rw [← hi'.1, ← hj'.1, hsame] at hne
  exact hne rfl

theorem BurstPlaceArgs.Apart.distinct {a : BurstPlaceArgs} (hlen : 0 < a.pattern.length) (h : a.Apart) {i j : Nat} (hi : i < a.count.toNat)
    (hj : j < a.count.toNat) (htext : burstText a i = burstText a j) : i = j := by
  rw [burstText_inj hlen] at htext
  have hturn := turns_order hlen hi
  have hturn' := turns_order hlen hj
  have hk := Nat.mod_lt i hlen
  have hl := Nat.mod_lt j hlen
  by_cases hsame : i % a.pattern.length = j % a.pattern.length
  · -- one entry counts up
    rw [hsame] at htext hturn
    have hlt := turns_lt a hl
    have hturns : i / a.pattern.length = j / a.pattern.length := by
      rcases (ahead_add_ofNat (hturn.trans hlt) (hturn'.trans hlt)).1 htext with heq | heq
      · rwa [ahead_self, Nat.zero_add] at heq
      · rw [ahead_self, Nat.zero_add] at heq
        have hover : 2 ^ 64 ≤ j / a.pattern.length := heq ▸ Nat.le_add_left ..
        exact absurd (hturn'.trans hlt) (Nat.not_lt.2 hover)
    rw [← Nat.div_add_mod i a.pattern.length, ← Nat.div_add_mod j a.pattern.length, hturns, hsame]
  · have hpos := Nat.zero_lt_of_lt hturn
    have hpos' := Nat.zero_lt_of_lt hturn'
    have hroom := h _ hk _ hl hsame hpos hpos'
    have hroom' := h _ hl _ hk (Ne.symm hsame) hpos' hpos
    exact absurd htext ((entries_distinct_iff hk hl hpos hpos').2 ⟨hroom, hroom'⟩ _ hturn _ hturn')

/-- An entry without an order is apart from every other. -/
theorem BurstPlaceArgs.Apart.of_none {a : BurstPlaceArgs} (h : a.count = 0 ∨ a.pattern = []) : a.Apart := by
  intro k hk l hl hne hturns
  rcases h with hcount | hpattern
  · unfold BurstPlaceArgs.turns at hturns
    rw [hcount, UInt32.toNat_zero, Nat.zero_add, Nat.div_eq_of_lt (by omega)] at hturns
    exact absurd hturns (Nat.lt_irrefl 0)
  · rw [hpattern] at hk
    exact absurd hk (Nat.not_lt_zero k)

/-- The tokens of a burst are distinct exactly if the numbers of its entries
stay apart. -/
theorem burst_distinct_iff (a : BurstPlaceArgs) : (ScenarioRunner.tokensOfBurst a).Nodup ↔ a.ratePerSec = 0 ∨ a.Apart := by
  rw [ScenarioRunner.tokensOfBurst_eq, burstTexts]
  split
  · rename_i hnone
    exact iff_of_true List.nodup_nil (.inr (.of_none hnone))
  · rename_i hsome
    have hlen : 0 < a.pattern.length := List.length_pos_iff.2 fun hnil => hsome (.inr hnil)
    split
    · rename_i hrate
      exact iff_of_true List.nodup_nil (.inl hrate)
    · rename_i hrate
      rw [List.nodup_map_iff_inj_on List.nodup_range, or_iff_right hrate]
      simp only [List.mem_range]
      constructor
      · exact .of_distinct hlen
      · intro hapart i hi j hj htext
        exact hapart.distinct hlen hi hj htext

/-- Two entries without a number in their prefixes count up from 0 both. -/
theorem burst_repeats_token : ¬ ∀ a : BurstPlaceArgs, a.pattern ≠ [] → (ScenarioRunner.tokensOfBurst a).Nodup := by
  intro hall
  have hnodup := hall { count := 2, pattern := [{ tokenPrefix := ascii "A" }, { tokenPrefix := ascii "B" }] } (by decide)
  exact absurd hnodup (by decide +kernel)

end BistColo.Runner
