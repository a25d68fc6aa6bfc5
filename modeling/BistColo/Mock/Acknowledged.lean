import BistColo.Mock.LifeCycle
/-!
# Acknowledged tokens

The tokens a gateway acknowledges are those of its OrderAccepteds and the
replacement tokens of its OrderReplaceds. An enter order is compared with the
tokens of earlier enter orders, and a replace is always answered, also for a
token under which nothing rests.
-/

open StreamKit

namespace BistColo.Mock

open Soup Ouch

/-- A gateway and what it has answered so far. -/
structure Served where
  gateway : Gateway
  replies : List Reply := []

namespace Served

def step (s : Served) (r : OrderRequest) : Served :=
  ⟨(s.gateway.handle r).2, s.replies ++ (s.gateway.handle r).1⟩

/-! ## Tokens -/

def acceptedToken : Reply → Option OrderToken
  | .accepted m => some m.orderToken
  | _ => none

def replacementToken : Reply → Option OrderToken
  | .replaced m => some m.replacementOrderToken
  | _ => none

/-- The tokens of the orders accepted so far. -/
def accepted (s : Served) : List OrderToken := s.replies.filterMap acceptedToken

/-- The tokens of the replacements so far. -/
def replacements (s : Served) : List OrderToken := s.replies.filterMap replacementToken

/-- All of them, in the order of the answers. -/
def acknowledged (s : Served) : List OrderToken :=
  s.replies.filterMap fun r => (acceptedToken r).or (replacementToken r)

theorem mem_acknowledged {s : Served} {token : OrderToken} :
    token ∈ s.acknowledged ↔ token ∈ s.accepted ∨ token ∈ s.replacements := by
  simp only [acknowledged, accepted, replacements, List.mem_filterMap, ← exists_or, ← and_or_left]
  refine exists_congr fun r => and_congr_right fun _ => ?_
  cases r with
  | accepted m => simp [acceptedToken, replacementToken]
  | _ => simp [acceptedToken, replacementToken]

/-! ## What is asked of a request -/

/-- A token that is to be acknowledged has not been: that of an enter order not
as a replacement's, a replacement's not at all. -/
def Fresh (s : Served) : OrderRequest → Prop
  | .enter m => m.orderToken ∉ s.replacements
  | .replace m => m.replacementOrderToken ∉ s.acknowledged
  | .cancel _ | .cancelById _ => True

/-- One OrderReplaced answers a replace, with the book and the side of the
order that rests under the existing token, and with zeros if none does. -/
def AnswersReplace (s : Served) (r : OrderRequest) : Prop :=
  ∀ m, r = .replace m → ∃ rep, (s.gateway.handle r).1 = [.replaced rep] ∧
    rep.previousOrderToken = m.existingOrderToken ∧ rep.replacementOrderToken = m.replacementOrderToken ∧
    (∀ order, s.gateway.resting m.existingOrderToken = some order →
      rep.orderBookId = order.orderBookId ∧ rep.side = order.side) ∧
    (s.gateway.resting m.existingOrderToken = none → rep.orderBookId = 0 ∧ rep.side = 0)

/-- The token of the order that a request ends. -/
def ended : OrderRequest → Option OrderToken
  | .cancel m => some m.orderToken
  | .replace m => some m.existingOrderToken
  | .enter _ | .cancelById _ => none

/-- Every other order rests on as it was. -/
def Spares (s : Served) (r : OrderRequest) : Prop :=
  ∀ token order, ended r ≠ some token → s.gateway.resting token = some order →
    (s.step r).gateway.resting token = some order

/-! ## One request -/

theorem answersReplace (s : Served) (r : OrderRequest) : s.AnswersReplace r := by
  rintro m rfl
  obtain ⟨⟨now, hreplaced⟩, -, -⟩ := s.gateway.replaceOrder_spec m
  refine ⟨_, hreplaced, rfl, rfl, ?_, ?_⟩
  · intro order hrest
    have hfound : s.gateway.found m.existingOrderToken = order := by rw [Gateway.found, hrest]; rfl
    rw [hfound]
    exact ⟨rfl, rfl⟩
  · intro hrest
    have hfound : s.gateway.found m.existingOrderToken = {} := by rw [Gateway.found, hrest]; rfl
    rw [hfound]
    exact ⟨rfl, rfl⟩

/-- A token once seen stays seen, and an enter order's has been. -/
theorem handle_seenTokens (g : Gateway) (r : OrderRequest) :
    (∀ token ∈ g.seenTokens, token ∈ (g.handle r).2.seenTokens) ∧
      ∀ m, r = .enter m → m.orderToken ∈ (g.handle r).2.seenTokens := by
  cases r with
  | enter m =>
    have hseen : (g.handle (.enter m)).2.seenTokens = _ := g.enterOrder_seen m
    rw [hseen]
    split
    · rename_i hmem
      refine ⟨fun _ h => h, ?_⟩
      rintro _ ⟨⟩
      exact hmem
    · refine ⟨fun token h => List.mem_append_left _ h, ?_⟩
      rintro _ ⟨⟩
      exact List.mem_append_right _ List.mem_cons_self
  | cancel m =>
    have hseen : (g.handle (.cancel m)).2.seenTokens = g.seenTokens := g.cancelOrder_seen m
    rw [hseen]
    exact ⟨fun _ h => h, nofun⟩
  | cancelById m => exact ⟨fun _ h => h, nofun⟩
  | replace m => exact ⟨fun _ h => h, nofun⟩

/-- The gateway knows the tokens it has acknowledged. -/
structure Tracks (s : Served) : Prop where
  seen : ∀ token ∈ s.accepted, token ∈ s.gateway.seenTokens
  resting : ∀ token order, s.gateway.resting token = some order → token ∈ s.acknowledged
  once : s.accepted.Nodup

theorem step_accepted (s : Served) (r : OrderRequest) {m : OrderAccepted}
    (h : (s.gateway.handle r).1 = [.accepted m]) :
    (s.step r).accepted = s.accepted ++ [m.orderToken] ∧ (s.step r).acknowledged = s.acknowledged ++ [m.orderToken] := by
  rw [accepted, acknowledged, step, h, List.filterMap_append, List.filterMap_append]
  exact ⟨rfl, rfl⟩

theorem step_replaced (s : Served) (r : OrderRequest) {m : OrderReplaced}
    (h : (s.gateway.handle r).1 = [.replaced m]) :
    (s.step r).accepted = s.accepted ∧ (s.step r).acknowledged = s.acknowledged ++ [m.replacementOrderToken] := by
  rw [accepted, acknowledged, step, h, List.filterMap_append, List.filterMap_append]
  exact ⟨List.append_nil _, rfl⟩

theorem step_silent (s : Served) (r : OrderRequest) {reply : Reply} (h : (s.gateway.handle r).1 = [reply])
    (haccepted : acceptedToken reply = none) (hreplacement : replacementToken reply = none) :
    (s.step r).accepted = s.accepted ∧ (s.step r).acknowledged = s.acknowledged := by
  rw [accepted, acknowledged, step, h, List.filterMap_append, List.filterMap_append]
  simp [haccepted, hreplacement, accepted, acknowledged]

/-- After an answer that acknowledges nothing, and with no new order at rest. -/
theorem Tracks.silent {s : Served} (h : s.Tracks) {r : OrderRequest} {reply : Reply}
    (hreply : (s.gateway.handle r).1 = [reply]) (haccepted : acceptedToken reply = none)
    (hreplacement : replacementToken reply = none)
    (hrest : ∀ token order, (s.step r).gateway.resting token = some order → s.gateway.resting token = some order) :
    (s.step r).Tracks := by
  obtain ⟨hsame, hacknowledged⟩ := step_silent s r hreply haccepted hreplacement
  refine ⟨?_, ?_, hsame ▸ h.once⟩
  · intro token htoken
    rw [hsame] at htoken
    exact (handle_seenTokens s.gateway r).1 token (h.seen token htoken)
  · intro token order hsome
    rw [hacknowledged]
    exact h.resting token order (hrest token order hsome)

theorem Tracks.step {s : Served} (h : s.Tracks) (r : OrderRequest) : (s.step r).Tracks := by
  obtain ⟨hgrows, hentered⟩ := handle_seenTokens s.gateway r
  cases r with
  | enter m =>
    rcases s.gateway.enterOrder_cases m with ⟨-, ⟨j, hj⟩, hrest, -⟩ | ⟨hnew, -, ⟨now, hacc⟩, hrest, -⟩
    · refine h.silent hj rfl rfl ?_
      intro token order hsome
      exact hrest ▸ hsome
    · obtain ⟨haccepted, hacknowledged⟩ := step_accepted s (.enter m) hacc
      refine ⟨?_, ?_, ?_⟩
      · intro token htoken
        rw [haccepted] at htoken
        rcases List.mem_append.1 htoken with htoken | htoken
        · exact hgrows token (h.seen token htoken)
        · rw [List.mem_singleton.1 htoken]
          exact hentered m rfl
      · intro token order hsome
        rw [hacknowledged]
        by_cases htoken : token = m.orderToken
        · rw [htoken]
          exact List.mem_append_right _ List.mem_cons_self
        · have hbefore : s.gateway.resting token = some order := by
            have hsome : (s.gateway.enterOrder m).2.resting token = some order := hsome
            rw [hrest] at hsome
            split at hsome
            · rwa [Function.update_of_ne htoken] at hsome
            · exact hsome
          exact List.mem_append_left _ (h.resting token order hbefore)
      · rw [haccepted, List.nodup_append]
        refine ⟨h.once, List.nodup_singleton _, ?_⟩
        intro token htoken token' htoken'
        rw [List.mem_singleton.1 htoken']
        rintro rfl
        exact hnew (h.seen _ htoken)
  | cancel m =>
    obtain ⟨⟨now, hcanceled⟩, hrest, -⟩ := s.gateway.cancelOrder_spec m
    refine h.silent hcanceled rfl rfl ?_
    intro token order hsome
    have hsome : (s.gateway.cancelOrder m).2.resting token = some order := hsome
    rw [hrest] at hsome
    by_cases htoken : token = m.orderToken
    · rw [htoken, Function.update_self] at hsome
      cases hsome
    · rwa [Function.update_of_ne htoken] at hsome
  | cancelById m => exact h.silent (s.gateway.cancelByOrderId_spec m).1.choose_spec rfl rfl fun _ _ hsome => hsome
  | replace m =>
    obtain ⟨⟨now, hreplaced⟩, hrest, -⟩ := s.gateway.replaceOrder_spec m
    obtain ⟨haccepted, hacknowledged⟩ := step_replaced s (.replace m) hreplaced
    refine ⟨haccepted ▸ h.seen, ?_, haccepted ▸ h.once⟩
    intro token order hsome
    have hsome : (s.gateway.replaceOrder m).2.resting token = some order := hsome
    rw [hacknowledged]
    rw [hrest] at hsome
    by_cases htoken : token = m.replacementOrderToken
    · rw [htoken]
      exact List.mem_append_right _ List.mem_cons_self
    · rw [Function.update_of_ne htoken] at hsome
      by_cases hold : token = m.existingOrderToken
      · rw [hold, Function.update_self] at hsome
        cases hsome
      · rw [Function.update_of_ne hold] at hsome
        exact List.mem_append_left _ (h.resting token order hsome)

/-- A request for a fresh token spares the orders it does not end. -/
theorem Tracks.spares {s : Served} (h : s.Tracks) {r : OrderRequest} (hf : s.Fresh r) : s.Spares r := by
  intro token order hended hrest
  unfold Served.step Gateway.handle
  cases r with
  | enter m =>
    rcases s.gateway.enterOrder_cases m with ⟨-, -, hsame, -⟩ | ⟨hnew, -, -, hafter, -⟩
    · exact hsame ▸ hrest
    · -- an order under the token would have been acknowledged
      have hne : token ≠ m.orderToken := by
        rintro rfl
        rcases mem_acknowledged.1 (h.resting _ order hrest) with haccepted | hreplacement
        · exact hnew (h.seen _ haccepted)
        · exact hf hreplacement
      dsimp only
      rw [hafter]
      split
      · rwa [Function.update_of_ne hne]
      · exact hrest
  | cancel m =>
    have hne : token ≠ m.orderToken := fun heq => hended (congrArg some heq.symm)
    dsimp only
    rw [(s.gateway.cancelOrder_spec m).2.1, Function.update_of_ne hne]
    exact hrest
  | cancelById m => exact hrest
  | replace m =>
    have hne : token ≠ m.existingOrderToken := fun heq => hended (congrArg some heq.symm)
    have hnew : token ≠ m.replacementOrderToken := by
      rintro rfl
      exact hf (h.resting _ order hrest)
    dsimp only
    rw [(s.gateway.replaceOrder_spec m).2.1, Function.update_of_ne hnew, Function.update_of_ne hne]
    exact hrest

/-- A request for a fresh token acknowledges no token twice. -/
theorem Tracks.once_step {s : Served} (h : s.Tracks) (hnodup : s.acknowledged.Nodup) {r : OrderRequest}
    (hf : s.Fresh r) : (s.step r).acknowledged.Nodup := by
  have hadded : ∀ token, token ∉ s.acknowledged → (s.acknowledged ++ [token]).Nodup := by
    intro token hnew
    refine List.nodup_append.2 ⟨hnodup, List.nodup_singleton _, ?_⟩
    intro token' htoken' added hadded
    rw [List.mem_singleton.1 hadded]
    rintro rfl
    exact hnew htoken'
  cases r with
  | enter m =>
    rcases s.gateway.enterOrder_cases m with ⟨-, ⟨j, hj⟩, -⟩ | ⟨hnew, -, ⟨now, hacc⟩, -⟩
    · rw [(step_silent s (.enter m) hj rfl rfl).2]
      exact hnodup
    · rw [(step_accepted s (.enter m) hacc).2]
      apply hadded
      intro hmem
      rcases mem_acknowledged.1 hmem with haccepted | hreplacement
      · exact hnew (h.seen _ haccepted)
      · exact hf hreplacement
  | cancel m =>
    obtain ⟨⟨now, hcanceled⟩, -⟩ := s.gateway.cancelOrder_spec m
    rw [(step_silent s (.cancel m) hcanceled rfl rfl).2]
    exact hnodup
  | cancelById m =>
    obtain ⟨⟨now, hcanceled⟩, -⟩ := s.gateway.cancelByOrderId_spec m
    rw [(step_silent s (.cancelById m) hcanceled rfl rfl).2]
    exact hnodup
  | replace m =>
    obtain ⟨⟨now, hreplaced⟩, -⟩ := s.gateway.replaceOrder_spec m
    rw [(step_replaced s (.replace m) hreplaced).2]
    exact hadded _ hf

/-! ## Runs -/

theorem Tracks.init {g : Gateway} (hresting : ∀ token, g.resting token = none) : Tracks { gateway := g } where
  seen token htoken := absurd htoken List.not_mem_nil
  resting token order hsome := by
    rw [show _ = none from hresting token] at hsome
    cases hsome
  once := List.nodup_nil

theorem Tracks.run {s : Served} (h : s.Tracks) (rs : List OrderRequest) : (run Served.step s rs).Tracks :=
  run_inv_all Tracks (fun _ r h => h.step r) h

/-- No token is accepted twice; every replace is answered with the book and
side of the order it names; a request for a fresh token spares every order it
does not end; and while all requests are for fresh tokens, no token is
acknowledged twice. -/
theorem acknowledged_once {g : Gateway} (hresting : ∀ token, g.resting token = none) (rs : List OrderRequest) :
    (run step { gateway := g } rs).accepted.Nodup ∧
      AllAlong step AnswersReplace { gateway := g } rs ∧
      AllAlong step (fun s r => s.Fresh r → s.Spares r) { gateway := g } rs ∧
      (AllAlong step Fresh { gateway := g } rs → (run step { gateway := g } rs).acknowledged.Nodup) := by
  have hinit : Tracks { gateway := g } := Tracks.init hresting
  refine ⟨(hinit.run rs).once, ?_, ?_, ?_⟩
  · exact allAlong_of_at fun _ r _ _ => answersReplace _ r
  · exact allAlong_of_at fun pre _ _ _ => (hinit.run pre).spares
  · intro hfresh
    have hkeep : ∀ (s : Served) r, s.Tracks ∧ s.acknowledged.Nodup → s.Fresh r →
        (s.step r).Tracks ∧ (s.step r).acknowledged.Nodup := fun s r h hf => ⟨h.1.step r, h.1.once_step h.2 hf⟩
    exact (run_inv _ hkeep ⟨hinit, List.nodup_nil⟩ hfresh).2

/-- A day order is replaced. -/
def replacedOnce : List OrderRequest := [.enter TradingDay.dayOrder, .replace (TradingDay.replaceOf (ascii "D1") (ascii "D2"))]

theorem acknowledged_once_replacedOnce :
    (run step { gateway := TradingDay.newGateway } replacedOnce).accepted.Nodup ∧
      (run step { gateway := TradingDay.newGateway } replacedOnce).acknowledged.Nodup := by
  have hnone : ∀ token, TradingDay.newGateway.resting token = none := fun _ => rfl
  have hnew : OrderToken.ofText (ascii "D2") ∉ [OrderToken.ofText (ascii "D1")] := by decide
  exact ⟨(acknowledged_once hnone replacedOnce).1,
    (acknowledged_once hnone replacedOnce).2.2.2 ⟨List.not_mem_nil, hnew, trivial⟩⟩

/-- A replace names an order that does not exist, and asks for the token of one that does. -/
def replacedUnknown : List OrderRequest := [.enter TradingDay.dayOrder, .replace (TradingDay.replaceOf (ascii "X1") (ascii "D1"))]

/-- It is acknowledged, with book 0 and no side, and overwrites the order of the token. -/
theorem unknown_token_replaced :
    (run step { gateway := TradingDay.newGateway } replacedUnknown).acknowledged =
        [OrderToken.ofText (ascii "D1"), OrderToken.ofText (ascii "D1")] ∧
      ¬ (run step { gateway := TradingDay.newGateway } replacedUnknown).acknowledged.Nodup ∧
      (run step { gateway := TradingDay.newGateway } replacedUnknown.dropLast).gateway.resting
        (OrderToken.ofText (ascii "X1")) = none ∧
      (run step { gateway := TradingDay.newGateway } replacedUnknown.dropLast).gateway.resting
        (OrderToken.ofText (ascii "D1")) = some TradingDay.dayRest.2 ∧
      (run step { gateway := TradingDay.newGateway } replacedUnknown).gateway.resting
        (OrderToken.ofText (ascii "D1")) = some ⟨0, 0, 2⟩ := by
  decide

end Served

end BistColo.Mock
