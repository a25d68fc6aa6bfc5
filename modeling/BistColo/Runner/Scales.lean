import BistColo.Runner.Ordering
import BistColo.Domain.Prices
/-!
# The scale of a replace

`run_place` takes the decimals of the instrument, `run_replace` those of the
instrument that is stored under the empty symbol, or three. The table is the
same throughout a run, so `scale_kept_iff` can say of any state that a run
reaches for which orders a replace keeps the scale.
-/

open StreamKit

namespace BistColo.Runner

open Ouch OuchClient Domain

namespace ScenarioRunner

/-! ## The table stays -/

theorem instruments_ofCall (s : Step) (p : Result Unit × ScenarioRunner) : (ofCall s p).2.instruments = p.2.instruments :=
  congrArg Prod.snd (aside_ofCall s p)

theorem instruments_runPlace (r : ScenarioRunner) (s : Step) (a : PlaceArgs) :
    (r.runPlace s a).2.instruments = r.instruments := by
  unfold runPlace
  split
  · rfl
  · split
    · rename_i he
      have hrequest := congrArg (fun p : Result Unit × ScenarioRunner => p.2.instruments) he
      split
      · exact hrequest.symm
      · exact hrequest.symm
    · rename_i he
      exact (congrArg (fun p : Result Unit × ScenarioRunner => p.2.instruments) he).symm

theorem instruments_runCancelId {r r' : ScenarioRunner} {s : Step} {a : CancelByOrderIdArgs} {result : StepResult}
    (h : r.runCancelId s a = some (result, r')) : r'.instruments = r.instruments := by
  unfold runCancelId at h
  obtain ⟨turned, hrotate, heq⟩ := Option.map_eq_some_iff.1 h
  have hturn := congrArg Prod.snd (aside_rotate hrotate)
  split at heq
  · cases heq
    exact hturn
  · have hcall := congrArg (fun p => p.2.instruments) heq
    dsimp only at hcall
    rw [instruments_ofCall] at hcall
    exact hcall.symm.trans hturn

theorem instruments_runQuote (r : ScenarioRunner) (s : Step) (a : MassQuoteArgs) :
    (r.runQuote s a).2.instruments = r.instruments := by
  unfold runQuote
  split
  · rfl
  · exact instruments_ofCall ..

theorem instruments_burstSend (args : Ouch.PlaceArgs) (attempts : Nat) (r : ScenarioRunner) :
    (burstSend args attempts r).2.instruments = r.instruments := by
  induction attempts generalizing r with
  | zero => rfl
  | succ attempts ih =>
    rw [burstSend]
    split
    · rename_i he
      exact (congrArg (fun p : Result Unit × ScenarioRunner => p.2.instruments) he).symm
    · rename_i he
      have hrequest := (congrArg (fun p : Result Unit × ScenarioRunner => p.2.instruments) he).symm
      split
      · exact hrequest
      · exact (ih _).trans hrequest

theorem instruments_burstLoop (s : Step) (a : BurstPlaceArgs) (left i : Nat) (seq : Nat → UInt64) (r : ScenarioRunner) :
    (burstLoop s a left i seq r).2.instruments = r.instruments := by
  induction left generalizing i seq r with
  | zero => rfl
  | succ left ih =>
    rw [burstLoop]
    split
    · rfl
    · rename_i pat _
      split
      · rfl
      · rename_i inst _
        have hsend := instruments_burstSend (burstArgs inst pat (seq (i % a.pattern.length))) 1000 r
        dsimp only
        split
        · rename_i he
          rwa [he] at hsend
        · rename_i he
          rw [he] at hsend
          exact (ih _ _ _).trans hsend

theorem instruments_runBurstPlace (r : ScenarioRunner) (s : Step) (a : BurstPlaceArgs) :
    (r.runBurstPlace s a).2.instruments = r.instruments := by
  unfold runBurstPlace
  split
  · rfl
  · split
    · rfl
    · exact instruments_burstLoop ..

theorem instruments_act {r r' : ScenarioRunner} {s : Step} {result : StepResult} (h : r.act s = some (result, r')) :
    r'.instruments = r.instruments := by
  have hdone : ∀ p : StepResult × ScenarioRunner, p.2.instruments = r.instruments → some p = some (result, r') →
      r'.instruments = r.instruments := by
    rintro p hp heq
    cases heq
    exact hp
  unfold act at h
  split at h
  · exact congrArg Prod.snd (aside_runLogin h)
  · exact hdone _ (instruments_ofCall ..) h
  · exact hdone _ (r.instruments_runPlace s _) h
  · exact hdone _ (instruments_ofCall ..) h
  · exact instruments_runCancelId h
  · exact hdone _ (instruments_ofCall ..) h
  · exact hdone _ (r.instruments_runQuote s _) h
  · exact congrArg Prod.snd (aside_runSwitchGateway h)
  · exact hdone _ (r.instruments_runBurstPlace s _) h
  all_goals exact hdone _ rfl h

theorem instruments_runStep {sc : Scenario} {r r' : ScenarioRunner} {s : Step} {result : StepResult}
    (h : runStep sc r s = some (result, r')) : r'.instruments = r.instruments := by
  obtain ⟨p, hact, hjudge⟩ := Option.map_eq_some_iff.1 h
  have hkept := congrArg Prod.snd (aside_judge sc s p)
  rw [hjudge] at hkept
  exact hkept.trans (instruments_act hact)

/-! ## Runs -/

/-- The calls of the steps so far, and the runner behind them. -/
inductive Runs (sc : Scenario) (r : ScenarioRunner) : List Asked → ScenarioRunner → Prop
  | start : Runs sc r [] r
  | step {xs : List Asked} {now next : ScenarioRunner} {s : Step} {result : StepResult} (before : Runs sc r xs now)
    (h : runStep sc now s = some (result, next)) : Runs sc r (xs ++ now.asked s) next

theorem Runs.instruments {sc : Scenario} {r now : ScenarioRunner} {xs : List Asked} (h : Runs sc r xs now) :
    now.instruments = r.instruments := by
  induction h with
  | start => rfl
  | step _ hstep ih => exact (instruments_runStep hstep).trans ih

/-- The decimals that a replace takes. -/
def replaceDecimals (table : InstrumentCache) : Int8 :=
  match table.findBySymbol [] with
  | some inst => inst.priceDecimals
  | none => 3

theorem replaceAsked_eq (r : ScenarioRunner) (s : Step) {a : ReplaceArgs} (h : a.existingToken ≠ []) :
    r.replaceAsked s a = [r.asks s (.replace (replaceArgs (replaceDecimals r.instruments) a))] := by
  have hinst : (if a.existingToken = [] then none else r.instruments.findBySymbol []) = r.instruments.findBySymbol [] := if_neg h
  exact congrArg (fun inst : Option Instrument =>
    [r.asks s (.replace (replaceArgs (match inst with | some i => i.priceDecimals | none => 3) a))]) hinst

end ScenarioRunner

/-! ## Orders and what replaces them -/

namespace Asked

/-- The token that the message of the call carries. -/
def token (x : Asked) : OrderToken := (x.client.claimed x.request).1

def Sent (x : Asked) : Prop := x.outcome.1 = .ok ()

instance (x : Asked) : Decidable x.Sent := inferInstanceAs (Decidable (_ = _))

end Asked

/-- The arguments of a place step. -/
def placeOf (s : Step) : PlaceArgs :=
  match s.args with
  | .place a => a
  | _ => {}

/-- A token of an order that a place step sent for the instrument, its own or a later one. -/
inductive TokenOf (table : InstrumentCache) (inst : Instrument) : List Asked → OrderToken → Prop
  | placed {xs : List Asked} {x : Asked} (hact : x.step.action = "place")
    (hinst : table.findBySymbol (placeOf x.step).symbol = some inst) (hsent : x.Sent) :
    TokenOf table inst (xs ++ [x]) x.token
  | replaced {xs : List Asked} {x : Asked} {ra : Ouch.ReplaceArgs} (h : x.request = .replace ra)
    (before : TokenOf table inst xs (OrderToken.ofText ra.existingToken)) (hsent : x.Sent) :
    TokenOf table inst (xs ++ [x]) x.token
  | later {xs : List Asked} {x : Asked} {tok : OrderToken} (before : TokenOf table inst xs tok) :
    TokenOf table inst (xs ++ [x]) tok

/-- Whatever text the next step replaces one of the orders with, its message has
the price that an order of the same instrument has for it. A replace that names
no token is refused. -/
def KeepsScale (xs : List Asked) (r : ScenarioRunner) : Prop :=
  ∀ inst tok, TokenOf r.instruments inst xs tok → ∀ (s : Step) (a : ReplaceArgs), s.action = "replace" → s.args = .replace a →
    a.existingToken ≠ [] → OrderToken.ofText a.existingToken = tok →
    ∃ x ra, r.asked s = [x] ∧ x.request = .replace ra ∧
      ∀ (b : PlaceArgs) (t u : OrderToken), b.priceStr = a.priceStr →
        (ra.message t).price = ((ScenarioRunner.placeArgs inst b).message u).price

/-! ## Scales -/

theorem toWirePrice_scale {d e : Int8} (h : d.toInt.toNat = e.toInt.toNat) (txt : Bytes) :
    InstrumentCache.toWirePrice txt d = InstrumentCache.toWirePrice txt e := by
  unfold InstrumentCache.toWirePrice
  rw [h]

theorem finest_whole : Digits [48] := by decide

theorem finest_digits (n : Nat) : ∀ p ∈ some ((46 : UInt8), List.replicate n (48 : UInt8) ++ [49]),
    InstrumentCache.isPoint p.1 = true ∧ Digits p.2 := by
  rintro p hp
  cases hp
  refine ⟨rfl, fun b hb => ?_⟩
  rcases List.mem_append.1 hb with hzero | hone
  · rw [List.eq_of_mem_replicate hzero]
    rfl
  · rw [List.mem_singleton.1 hone]
    rfl

/-- The smallest price of a scale: one, in the last of its places. -/
def finest (n : Nat) : InstrumentCache.Numeral where
  whole := [48]
  frac := some (46, List.replicate n 48 ++ [49])
  whole_digits := finest_whole
  frac_digits := finest_digits n

theorem finest_shifted {n k : Nat} (hk : k ≤ n + 1) :
    shifted [48] (List.replicate n 48 ++ [49]) k = if k = n + 1 then 1 else 0 := by
  have hwhole : readDigits 0 [48] = 0 := rfl
  have hlen : (List.replicate n (48 : UInt8) ++ [49]).length = n + 1 := by simp
  unfold shifted
  rw [hwhole, Nat.zero_mul, Nat.zero_add, hlen]
  by_cases heq : k = n + 1
  · have hone : readDigits 0 [49] = 1 := rfl
    rw [List.take_of_length_le (by omega), readDigits_append, readDigits_zeros, hone, if_pos heq, heq, Nat.sub_self]
    rfl
  · -- only zeros are left
    have htake : (List.replicate n (48 : UInt8) ++ [49]).take k = List.replicate k 48 := by
      rw [List.take_append_of_le_length (by simp; omega), List.take_replicate, Nat.min_eq_left (by omega)]
    rw [htake, readDigits_zeros, Nat.zero_mul, if_neg heq]

theorem finest_price (n : Nat) (d : Int8) (hd : d.toInt.toNat ≤ n + 1) :
    InstrumentCache.toWirePrice (finest n).text d = if d.toInt.toNat = n + 1 then 1 else 0 := by
  have hmagnitude : InstrumentCache.magnitude (finest n).text d = if d.toInt.toNat = n + 1 then 1 else 0 :=
    (finest n).magnitude_text d ▸ finest_shifted hd
  have hpositive : (InstrumentCache.sign (finest n).text).1 = false := by rw [(finest n).sign_text]; rfl
  rw [InstrumentCache.toWirePrice_clean (finest n).clean, hmagnitude, InstrumentCache.signed, hpositive,
    if_neg Bool.false_ne_true]
  split
  · rfl
  · rfl

theorem scale_of_toWirePrice {d e : Int8}
    (h : ∀ txt, InstrumentCache.toWirePrice txt d = InstrumentCache.toWirePrice txt e) : d.toInt.toNat = e.toInt.toNat := by
  have hless : ∀ {d e : Int8}, (∀ txt, InstrumentCache.toWirePrice txt d = InstrumentCache.toWirePrice txt e) →
      ¬ d.toInt.toNat < e.toInt.toNat := by
    intro d e h hlt
    have hfine := h (finest (e.toInt.toNat - 1)).text
    rw [finest_price _ d (by omega), finest_price _ e (by omega), if_neg (by omega), if_pos (by omega)] at hfine
    exact absurd hfine (by decide)
  have hd := hless h
  have he := hless fun txt => (h txt).symm
  omega

theorem ofText_bytes (t : OrderToken) : OrderToken.ofText t.bytes = t := Field.ext (Field.pad_full 32 t.size)

/-- In every state that a run reaches, a replace keeps the scale of the orders
placed so far exactly if their instruments have the decimals it takes. -/
theorem scale_kept_iff {sc : Scenario} {r now : ScenarioRunner} {xs : List Asked} (h : r.Runs sc xs now) :
    KeepsScale xs now ↔ ∀ inst tok, TokenOf r.instruments inst xs tok →
      inst.priceDecimals.toInt.toNat = (ScenarioRunner.replaceDecimals r.instruments).toInt.toNat := by
  have htable := h.instruments
  have hasked : ∀ (s : Step) (a : ReplaceArgs), s.action = "replace" → s.args = .replace a → a.existingToken ≠ [] →
      now.asked s = [now.asks s (.replace (ScenarioRunner.replaceArgs (ScenarioRunner.replaceDecimals r.instruments) a))] := by
    intro s a hact hargs hne
    rw [← htable, ← now.replaceAsked_eq s hne, ScenarioRunner.asked, hact, hargs]
    rfl
  unfold KeepsScale
  rw [htable]
  constructor
  · intro hkeeps inst tok htok
    apply scale_of_toWirePrice
    intro txt
    let a : ReplaceArgs := { existingToken := tok.bytes, priceStr := txt }
    have hne : tok.bytes ≠ [] := by
      intro hnil
      have hlen := tok.length_bytes
      rw [hnil] at hlen
      cases hlen
    obtain ⟨x, ra, hx, hra, hprice⟩ := hkeeps inst tok htok { action := "replace", args := .replace a } a rfl rfl hne
      (ofText_bytes tok)
    rw [hasked _ a rfl rfl hne] at hx
    cases hx
    cases hra
    exact (hprice { priceStr := txt } tok tok rfl).symm
  · intro hscale inst tok htok s a hact hargs hne hexisting
    refine ⟨_, _, hasked s a hact hargs hne, rfl, ?_⟩
    rintro b t u hb
    have hprice := toWirePrice_scale (hscale inst tok htok) b.priceStr
    rw [hb] at hprice
    exact hprice.symm.trans (congrArg (InstrumentCache.toWirePrice · inst.priceDecimals) hb.symm)

theorem TokenOf.known {table : InstrumentCache} {inst : Instrument} {xs : List Asked} {tok : OrderToken}
    (h : TokenOf table inst xs tok) : ∃ symbol, table.findBySymbol symbol = some inst := by
  induction h with
  | placed _ hinst _ => exact ⟨_, hinst⟩
  | replaced _ _ _ ih => exact ih
  | later _ ih => exact ih

/-- A runner that is logged in, for instruments with these decimals. -/
def scaledRunner (decimals : Int8) : ScenarioRunner where
  client := OuchClient.trading
  instruments := { findBySymbol := fun symbol => if symbol = [] then none else some { symbol, priceDecimals := decimals } }
  around := { throttle := ⟨fun _ => 0, 0⟩, wall := ⟨fun _ => 0, 0⟩, patience := fun _ _ => 0 }

def placeStep : Step where
  id := 1
  action := "place"
  args := .place { symbol := ascii "ACSEL.E", quantity := 1, priceStr := ascii "6.00", token := ascii "1" }

def placed (decimals : Int8) : ScenarioRunner := ((scaledRunner decimals).runPlace placeStep (placeOf placeStep)).2

theorem placed_runs (decimals : Int8) : (scaledRunner decimals).Runs { steps := [placeStep] }
    ((scaledRunner decimals).asked placeStep) (placed decimals) := by
  have hstep : ScenarioRunner.runStep { steps := [placeStep] } (scaledRunner decimals) placeStep =
      some ((scaledRunner decimals).runPlace placeStep (placeOf placeStep)) := rfl
  rw [← Prod.mk.eta (p := (scaledRunner decimals).runPlace placeStep (placeOf placeStep))] at hstep
  exact .step .start hstep

theorem known_decimals {decimals : Int8} {symbol : Bytes} {inst : Instrument}
    (h : (scaledRunner decimals).instruments.findBySymbol symbol = some inst) : inst.priceDecimals = decimals := by
  change (if symbol = [] then none else some { symbol, priceDecimals := decimals }) = some inst at h
  split at h
  · cases h
  · cases h
    rfl

theorem scale_kept_iff_three : KeepsScale ((scaledRunner 3).asked placeStep) (placed 3) := by
  refine (scale_kept_iff (placed_runs 3)).2 fun inst tok htok => ?_
  obtain ⟨symbol, hsymbol⟩ := htok.known
  rw [known_decimals hsymbol]
  rfl

def replacing : ReplaceArgs where
  existingToken := ascii "1"
  newToken := ascii "2"
  quantity := 1
  priceStr := ascii "6.00"

def replaceStep : Step where
  id := 2
  action := "replace"
  args := .replace replacing

/-- The price of an order message. -/
def priceOf : OuchSession.Outgoing → Option Int32
  | .enterOrder m => some m.price
  | .replaceOrder m => some m.price
  | .cancel _ | .cancelById _ | .massQuote _ => none

/-- With two decimals the order has the price 600, and its replacement with the
same text 6000. -/
theorem replace_rescales :
    (((scaledRunner 2).run { steps := [placeStep, replaceStep] }).map fun p => p.2.client.handed.filterMap priceOf) =
      some [600, 6000] ∧
      ¬ ∀ (sc : Scenario) (r now : ScenarioRunner) (xs : List Asked), r.Runs sc xs now → KeepsScale xs now := by
  refine ⟨by decide +kernel, fun hall => ?_⟩
  have hkeeps := hall _ _ _ _ (placed_runs 2)
  have htable : (placed 2).instruments = (scaledRunner 2).instruments := ScenarioRunner.instruments_runPlace ..
  let inst : Instrument := { symbol := ascii "ACSEL.E", priceDecimals := 2 }
  let x : Asked := (scaledRunner 2).asks placeStep (.place (ScenarioRunner.placeArgs inst (placeOf placeStep)))
  have hinst : (scaledRunner 2).instruments.findBySymbol (placeOf placeStep).symbol = some inst := by decide +kernel
  have hx : (scaledRunner 2).asked placeStep = [x] := by
    change (scaledRunner 2).placeAsked placeStep (placeOf placeStep) = [x]
    rw [ScenarioRunner.placeAsked, hinst]
  have htok : TokenOf (placed 2).instruments inst ((scaledRunner 2).asked placeStep) x.token := by
    rw [htable, hx]
    exact @TokenOf.placed _ _ [] x rfl hinst (by decide +kernel)
  have hne : replacing.existingToken ≠ [] := by decide +kernel
  have hasked : ∀ r : ScenarioRunner, r.asked replaceStep = [r.asks replaceStep
      (.replace (ScenarioRunner.replaceArgs (ScenarioRunner.replaceDecimals r.instruments) replacing))] :=
    fun r => r.replaceAsked_eq replaceStep hne
  obtain ⟨y, ra, hy, hra, hprice⟩ := hkeeps inst x.token htok replaceStep replacing rfl rfl hne (by decide +kernel)
  rw [hasked, htable] at hy
  cases hy
  cases hra
  have hsame := hprice { priceStr := ascii "6.00" } (OrderToken.ofText []) (OrderToken.ofText []) rfl
  exact absurd hsame (by decide +kernel)

end BistColo.Runner
