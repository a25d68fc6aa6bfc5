import BistColo.Fix.Orders
import BistColo.StreamKit.Runs
import Mathlib.Data.List.Flatten
/-!
# Sessions with the mock acceptor

One acceptor and the sessions of any number of `OeApp`s and `RdApp`s, with the
messages between them in queues: a logon, which resets the sequence numbers of its
session (`ResetOnLogon=Y`) and empties its queues, a logout, a call, the acceptor's
turn for a message and the application's for an answer, in any order. Ids and
successful subscriptions are marks that the acceptor gives once (`Apart.step`).
What QuickFIX makes of the queues is told in `Fix.QuickFix`.
-/

open StreamKit

namespace BistColo.Fix

/-- A session of an application, by the text of its id. -/
abbrev Session := Client × Bytes

structure Sessions where
  acceptor : AcceptorMockApp := {}
  bound : Session → Bool := fun _ => false
  links : Session → Exchange Message Message := fun _ => {}
  /-- The requests whose calls have returned their ids. -/
  requests : Session → List Request := fun _ => []

inductive SessionEvent
  | logon (s : Session)
  | logout (s : Session)
  | call (s : Session) (r : Request)
  | serve (s : Session)
  | deliver (s : Session)
deriving DecidableEq

namespace Sessions

variable (D : Doubles) (known : Session → Bool)

def withLink (w : Sessions) (s : Session) (link : Exchange Message Message) : Sessions :=
  { w with links := Function.update w.links s link }

@[simp] theorem links_withLink (w : Sessions) (s t : Session) (link : Exchange Message Message) :
    (w.withLink s link).links t = if t = s then link else w.links t := by
  simp [withLink, Function.update_apply]

@[simp] theorem requests_withLink (w : Sessions) (s : Session) (link : Exchange Message Message) :
    (w.withLink s link).requests = w.requests := rfl

@[simp] theorem acceptor_withLink (w : Sessions) (s : Session) (link : Exchange Message Message) :
    (w.withLink s link).acceptor = w.acceptor := rfl

/-- What is still under way from before the logon is lost. -/
def logon (w : Sessions) (s : Session) : Sessions :=
  { w with acceptor := w.acceptor.onLogon s.2, bound := Function.update w.bound s true }.withLink s (w.links s).reset

/-- A call on a session of the application that has it. -/
def call (w : Sessions) (s : Session) (r : Request) : Sessions :=
  if r.client = s.1 then
    match r.submit (w.bound s) (known s) with
    | .error _ => w
    | .ok _ =>
      { w with requests := Function.update w.requests s (w.requests s ++ [r]) }.withLink s ((w.links s).send (r.message D))
  else w

def serve (w : Sessions) (s : Session) : Sessions :=
  match (w.links s).outbound with
  | [] => w
  | m :: _ =>
    let p := w.acceptor.fromApp D s.2 m
    { w with acceptor := p.2 }.withLink s ((w.links s).answer p.1)

def step (w : Sessions) : SessionEvent → Sessions
  | .logon s => w.logon s
  | .logout s => { w with acceptor := w.acceptor.onLogout s.2 }
  | .call s r => w.call D known s r
  | .serve s => w.serve D s
  | .deliver s => w.withLink s (w.links s).take

/-! ## Reports in order -/

variable {D known}

/-- The acceptor, in some state of its own, gives the answer. -/
def Answers (D : Doubles) (s : Session) (request answer : Message) : Prop :=
  ∃ app : AcceptorMockApp, (app.fromApp D s.2 request).1 = some answer

/-- The messages of a session are those of its requests, and each answer is the acceptor's to one of them. -/
structure Ordered (D : Doubles) (s : Session) (link : Exchange Message Message) (requests : List Request) : Prop where
  sound : link.Sound (Answers D s)
  sent : link.sent = requests.map (Request.message D)
  client : ∀ r ∈ requests, r.client = s.1

def InOrder (D : Doubles) (w : Sessions) : Prop := ∀ s, Ordered D s (w.links s) (w.requests s)

theorem inOrder_empty : InOrder D {} := fun _ => ⟨Exchange.sound_empty, rfl, nofun⟩

/-- A step for one session, with no new request. -/
theorem InOrder.withLink {w : Sessions} (h : InOrder D w) (s : Session) {link : Exchange Message Message}
    (hlink : link.Sound (Answers D s)) (hsent : link.sent = (w.links s).sent) : InOrder D (w.withLink s link) := by
  intro t
  rw [links_withLink, requests_withLink]
  split
  · rename_i ht
    subst ht
    exact ⟨hlink, hsent.trans (h t).sent, (h t).client⟩
  · exact h t

theorem InOrder.call {w : Sessions} (h : InOrder D w) (s : Session) (r : Request) : InOrder D (w.call D known s r) := by
  unfold Sessions.call
  split
  · rename_i hclient
    split
    · exact h
    · intro t
      rw [links_withLink, requests_withLink]
      dsimp only
      rw [Function.update_apply]
      by_cases ht : t = s
      · subst ht
        rw [if_pos rfl, if_pos rfl]
        refine ⟨(h t).sound.send _, ?_, ?_⟩
        · rw [Exchange.send, (h t).sent, List.map_append]
          rfl
        · rw [List.forall_mem_append, List.forall_mem_singleton]
          exact ⟨(h t).client, hclient⟩
      · rw [if_neg ht, if_neg ht]
        exact h t
  · exact h

/-- What is under way is the message of a request. -/
theorem InOrder.outbound {w : Sessions} (h : InOrder D w) {s : Session} {m : Message} (hm : m ∈ (w.links s).outbound) :
    ∃ r ∈ w.requests s, r.message D = m := by
  have hsent := (h s).sound.outbound.subset hm
  rw [(h s).sent] at hsent
  exact List.mem_map.1 hsent

theorem InOrder.serve {w : Sessions} (h : InOrder D w) (s : Session) : InOrder D (w.serve D s) := by
  unfold Sessions.serve
  split
  · exact h
  · rename_i m rest hnext
    obtain ⟨r, -, hr⟩ := h.outbound (s := s) (m := m) (by rw [hnext]; exact List.mem_cons_self)
    obtain ⟨answer, hanswer, -⟩ := reports_answer (D := D) w.acceptor s.2 r
    rw [hr] at hanswer
    dsimp only
    rw [hanswer]
    have hafter : InOrder D { w with acceptor := (w.acceptor.fromApp D s.2 m).2 } := h
    exact hafter.withLink s ((h s).sound.answer hnext ⟨w.acceptor, hanswer⟩) rfl

theorem InOrder.step {w : Sessions} (h : InOrder D w) (e : SessionEvent) : InOrder D (w.step D known e) := by
  cases e with
  | logon s =>
    have hafter : InOrder D { w with acceptor := w.acceptor.onLogon s.2, bound := Function.update w.bound s true } := h
    exact hafter.withLink s (h s).sound.reset rfl
  | logout s => exact h
  | call s r => exact h.call s r
  | serve s => exact h.serve s
  | deliver s => exact h.withLink s (h s).sound.take rfl

/-- An answer reports the request, to the application that made it. -/
theorem reports_of_answers {s : Session} {rs : List Request} (hclient : ∀ r ∈ rs, r.client = s.1) {answers : List Message}
    (h : List.Forall₂ (Answers D s) (rs.map (Request.message D)) answers) :
    List.Forall₂ (fun r m => Reports D r (received D s.1 m)) rs answers := by
  induction rs generalizing answers with
  | nil =>
    cases h
    exact .nil
  | cons r rs ih =>
    rw [List.forall_mem_cons] at hclient
    cases h with
    | cons ha hrest =>
      obtain ⟨app, happ⟩ := ha
      obtain ⟨m, hm, hreports⟩ := reports_answer (D := D) app s.2 r
      rw [happ, Option.some.injEq] at hm
      subst hm
      rw [hclient.1] at hreports
      exact .cons hreports (ih hclient.2 hrest)

/-- The answers that an application has taken report some of its requests, in
their order and none twice; and all of them when no logon has lost a message and
none is under way. -/
theorem links_in_order (D : Doubles) (known : Session → Bool) (es : List SessionEvent) (s : Session) :
    let w := run (step D known) {} es
    ∃ answered, answered.Sublist (w.requests s) ∧
      List.Forall₂ (fun r m => Reports D r (received D s.1 m)) answered (w.links s).taken ∧
      ((w.links s).intact = true → (w.links s).Quiet → answered = w.requests s) := by
  have h : InOrder D (run (step D known) {} es) := run_inv_all (InOrder D) (fun _ e h => h.step e) inOrder_empty
  generalize run (step D known) {} es = w at h
  obtain ⟨messages, hsub, hanswers, hall⟩ := (h s).sound.taken_of_sent
  rw [(h s).sent] at hsub
  obtain ⟨answered, hanswered, rfl⟩ := List.sublist_map_iff.1 hsub
  refine ⟨answered, hanswered, ?_, ?_⟩
  · exact reports_of_answers (fun r hr => (h s).client r (hanswered.subset hr)) hanswers
  · intro hintact hquiet
    have hlen := congrArg List.length (hall hintact hquiet)
    rw [(h s).sent, List.length_map, List.length_map] at hlen
    exact hanswered.eq_of_length hlen

/-! ## Marks -/

/-- What marks the answers of a session, and which marks the acceptor has given. -/
structure Marks (κ : Type) where
  of : Session → Message → List κ
  Given : AcceptorMockApp → κ → Prop
  onLogon : ∀ app s k, Given (AcceptorMockApp.onLogon app s) k ↔ Given app k
  onLogout : ∀ app s k, Given (AcceptorMockApp.onLogout app s) k ↔ Given app k

section Marks

variable {κ : Type} {M : Marks κ}

/-- The marks of all answers of a session, those under way included. -/
def marks (M : Marks κ) (w : Sessions) (s : Session) : List κ := (w.links s).answers.flatMap (M.of s)

/-- No mark is given twice, in one session or in two. -/
structure Apart (M : Marks κ) (w : Sessions) : Prop where
  given : ∀ s, ∀ k ∈ w.marks M s, M.Given w.acceptor k
  nodup : ∀ s, (w.marks M s).Nodup
  disjoint : ∀ s t, s ≠ t → (w.marks M s).Disjoint (w.marks M t)

/-- The marks of an answer are new, and given from then on. -/
structure GivesNew (M : Marks κ) (app app' : AcceptorMockApp) (ks : List κ) : Prop where
  keeps : ∀ k, M.Given app k → M.Given app' k
  nodup : ks.Nodup
  new : ∀ k ∈ ks, ¬ M.Given app k ∧ M.Given app' k

theorem apart_empty (M : Marks κ) : Apart M {} := ⟨fun _ => nofun, fun _ => List.nodup_nil, fun _ _ _ _ => nofun⟩

/-- A step without an answer, in which answers may get lost. -/
theorem Apart.mono {w w' : Sessions} (h : Apart M w) (hgiven : ∀ k, M.Given w.acceptor k → M.Given w'.acceptor k)
    (hmarks : ∀ s, (w'.marks M s).Sublist (w.marks M s)) : Apart M w' where
  given s k hk := hgiven k (h.given s k ((hmarks s).subset hk))
  nodup s := (h.nodup s).sublist (hmarks s)
  disjoint s t hst _ hs ht := h.disjoint s t hst ((hmarks s).subset hs) ((hmarks t).subset ht)

theorem marks_withLink (w : Sessions) (s t : Session) (link : Exchange Message Message) :
    (w.withLink s link).marks M t = if t = s then link.answers.flatMap (M.of t) else w.marks M t := by
  unfold marks
  rw [links_withLink]
  split <;> rfl

theorem Apart.withLink {w : Sessions} (h : Apart M w) (s : Session) {link : Exchange Message Message}
    (hlink : link.answers.Sublist (w.links s).answers) : Apart M (w.withLink s link) := by
  refine h.mono (fun _ hk => hk) ?_
  intro t
  rw [marks_withLink]
  split
  · rename_i ht
    subst ht
    exact hlink.flatMap _
  · exact List.Sublist.refl _

theorem Apart.answer {w : Sessions} (h : Apart M w) (s : Session) {app : AcceptorMockApp} {a : Option Message}
    (hnew : GivesNew M w.acceptor app (a.toList.flatMap (M.of s))) :
    Apart M ({ w with acceptor := app }.withLink s ((w.links s).answer a)) := by
  have hmarks : ∀ t, ({ w with acceptor := app }.withLink s ((w.links s).answer a)).marks M t =
      if t = s then w.marks M s ++ a.toList.flatMap (M.of s) else w.marks M t := by
    intro t
    rw [marks_withLink, Exchange.answers_answer, List.flatMap_append]
    split
    · rename_i ht
      rw [ht]
      rfl
    · rfl
  have hold : ∀ t, ∀ k ∈ w.marks M t, k ∉ a.toList.flatMap (M.of s) := fun t k hk hk' =>
    (hnew.new k hk').1 (h.given t k hk)
  refine ⟨?_, ?_, ?_⟩
  · intro t k hk
    rw [hmarks] at hk
    split at hk
    · obtain hk | hk := List.mem_append.1 hk
      · exact hnew.keeps k (h.given s k hk)
      · exact (hnew.new k hk).2
    · exact hnew.keeps k (h.given t k hk)
  · intro t
    rw [hmarks]
    split
    · exact List.Nodup.append (h.nodup s) hnew.nodup fun k hk hk' => hold s k hk hk'
    · exact h.nodup t
  · intro t u htu k ht hu
    rw [hmarks] at ht hu
    by_cases hts : t = s
    · have hus : u ≠ s := fun hus => htu (hts.trans hus.symm)
      rw [if_pos hts] at ht
      rw [if_neg hus] at hu
      obtain ht | ht := List.mem_append.1 ht
      · exact h.disjoint s u (Ne.symm hus) ht hu
      · exact hold u k hu ht
    · rw [if_neg hts] at ht
      split at hu
      · obtain hu | hu := List.mem_append.1 hu
        · exact h.disjoint t s hts ht hu
        · exact hold t k ht hu
      · exact h.disjoint t u htu ht hu

theorem answers_reset (e : Exchange Message Message) : e.reset.answers.Sublist e.answers := by
  rw [Exchange.answers, Exchange.reset, List.append_nil]
  exact List.sublist_append_left _ _

/-- A step keeps the marks apart if an answer of the acceptor, as it is, has new ones. -/
theorem Apart.step {w : Sessions} (h : Apart M w)
    (hnew : ∀ s m, GivesNew M w.acceptor (w.acceptor.fromApp D s.2 m).2
      ((w.acceptor.fromApp D s.2 m).1.toList.flatMap (M.of s))) (e : SessionEvent) : Apart M (w.step D known e) := by
  cases e with
  | logon s =>
    have hbase : Apart M { w with acceptor := w.acceptor.onLogon s.2, bound := Function.update w.bound s true } :=
      h.mono (fun k => (M.onLogon w.acceptor s.2 k).2) fun _ => List.Sublist.refl _
    exact hbase.withLink s (answers_reset _)
  | logout s => exact h.mono (fun k => (M.onLogout w.acceptor s.2 k).2) fun _ => List.Sublist.refl _
  | call s r =>
    unfold Sessions.step Sessions.call
    dsimp only
    split
    · split
      · exact h
      · have hbase : Apart M { w with requests := Function.update w.requests s (w.requests s ++ [r]) } :=
          h.mono (fun _ hk => hk) fun _ => List.Sublist.refl _
        exact hbase.withLink s (List.Sublist.refl _)
    · exact h
  | serve s =>
    unfold Sessions.step Sessions.serve
    dsimp only
    split
    · exact h
    · exact h.answer s (hnew s _)
  | deliver s =>
    refine h.withLink s ?_
    rw [Exchange.answers_take]

/-- So the answers that the applications have taken are marked apart. -/
theorem Apart.taken {w : Sessions} (h : Apart M w) (s : Session) : ((w.links s).taken.flatMap (M.of s)).Nodup ∧
    ∀ t, s ≠ t → ((w.links s).taken.flatMap (M.of s)).Disjoint ((w.links t).taken.flatMap (M.of t)) := by
  have htaken : ∀ s, ((w.links s).taken.flatMap (M.of s)).Sublist (w.marks M s) := fun s =>
    (List.sublist_append_left _ _).flatMap _
  refine ⟨(h.nodup s).sublist (htaken s), ?_⟩
  intro t hst k hs ht
  exact h.disjoint s t hst ((htaken s).subset hs) ((htaken t).subset ht)

end Marks

/-! ## Ids -/

/-- The ids of the answers; the given ones are of numbers up to the counter. -/
def idMarks : Marks Bytes where
  of _ m := m.ids
  Given app id := Numbered 0 app.idCounter.toNat id
  onLogon _ _ _ := Iff.rfl
  onLogout _ _ _ := Iff.rfl

theorem givesNew_ids {app app' : AcceptorMockApp} {ids : List Bytes} (h : Gives app app' ids) :
    GivesNew idMarks app app' ids := by
  have hle : app.idCounter.toNat ≤ app'.idCounter.toNat := by
    rw [h.counts]
    exact Nat.le_add_right _ _
  refine ⟨fun id hid => hid.mono (Nat.le_refl _) hle, h.nodup, ?_⟩
  intro id hid
  refine ⟨fun hold => numbered_apart (Nat.le_refl _) hold (h.numbered id hid), ?_⟩
  exact (h.numbered id hid).mono (Nat.zero_le _) (Nat.le_refl _)

theorem counter_step {w : Sessions} {n : Nat} (hcounter : w.acceptor.idCounter.toNat ≤ n) (hroom : n + 2 < 2 ^ 64)
    (e : SessionEvent) : (w.step D known e).acceptor.idCounter.toNat ≤ n + 2 := by
  have hle : w.acceptor.idCounter.toNat ≤ n + 2 := by omega
  cases e with
  | logon s => exact hle
  | logout s => exact hle
  | call s r =>
    unfold Sessions.step Sessions.call
    dsimp only
    split
    · split <;> exact hle
    · exact hle
  | serve s =>
    unfold Sessions.step Sessions.serve
    dsimp only
    split
    · exact hle
    · rename_i m rest hnext
      have hsmall : w.acceptor.idCounter.toNat + 2 < 2 ^ 64 := by omega
      have hgives := gives_fromApp D hsmall s.2 m
      have hcounts := hgives.counts
      have hfew := hgives.few
      rw [acceptor_withLink]
      dsimp only
      omega
  | deliver s => exact hle

theorem apart_ids {w : Sessions} (h : Apart idMarks w) {n : Nat} (hcounter : w.acceptor.idCounter.toNat ≤ n)
    (es : List SessionEvent) (hroom : n + 2 * es.length < 2 ^ 64) : Apart idMarks (run (step D known) w es) := by
  induction es generalizing w n with
  | nil => exact h
  | cons e es ih =>
    rw [List.length_cons] at hroom
    have hsmall : w.acceptor.idCounter.toNat + 2 < 2 ^ 64 := by omega
    have hstep : Apart idMarks (w.step D known e) := h.step (fun s m => givesNew_ids (gives_fromApp D hsmall s.2 m)) e
    exact ih hstep (counter_step hcounter (by omega) e) (by omega)

/-- No two answers that the applications have taken share an id, be they of one
session or of two, as long as the counter does not wrap. -/
theorem ids_apart (D : Doubles) (known : Session → Bool) (es : List SessionEvent) (h : 2 * es.length < 2 ^ 64) :
    let w := run (step D known) {} es
    ∀ s, ((w.links s).taken.flatMap Message.ids).Nodup ∧
      ∀ t, s ≠ t → ((w.links s).taken.flatMap Message.ids).Disjoint ((w.links t).taken.flatMap Message.ids) := by
  have hapart : Apart idMarks (run (step D known) {} es) :=
    apart_ids (apart_empty idMarks) (Nat.le_refl 0) es (by omega)
  exact fun s => hapart.taken s

/-- Whole quantities, with their digits as texts. -/
def wholeDoubles : Doubles where
  Double := Int64
  ofQuantity q := q
  toQuantity q := q
  ofPrice v := v.toInt64
  toPrice v := v.toInt32
  one := 1
  ten := 10
  half := 0
  minusHalf := 0
  add := (· + ·)
  mul := (· * ·)
  div := (· / ·)
  nonneg v := 0 ≤ v
  convert v := decText v.toInt.toNat
  read text := some (Int64.ofNat (readDigits 0 text))

/-- An order and a subscription, answered and taken. -/
def twoSessions : List SessionEvent :=
  [.logon (.oe, [79]), .logon (.rd, [82]),
    .call (.oe, [79]) (.place { clOrdId := [49], symbol := ascii "GARAN.E", quantity := 5, account := [], afk := [] }),
    .call (.rd, [82]) (.subscribeAll [65]), .serve (.rd, [82]), .serve (.oe, [79]), .deliver (.oe, [79]), .deliver (.rd, [82])]

theorem ids_apart_twoSessions :
    let w := run (step wholeDoubles fun _ => true) {} twoSessions
    let taken := fun s => (w.links s).taken.flatMap Message.ids
    (taken (.oe, [79])).Nodup ∧ (taken (.oe, [79])).Disjoint (taken (.rd, [82])) :=
  have hapart := ids_apart wholeDoubles (fun _ => true) twoSessions (by decide) (.oe, [79])
  ⟨hapart.1, hapart.2 (.rd, [82]) (by decide)⟩

/-! ## Subscriptions -/

/-- The answer to a subscription that has succeeded. -/
def Subscribes (m : Message) : Prop :=
  m.msgType = .applicationMessageRequestAck ∧ m.fields .text = some (ascii "Request successfully processed")

instance (m : Message) : Decidable (Subscribes m) := inferInstanceAs (Decidable (_ ∧ _))

/-- A subscription is marked by its session and by its id. -/
def subscriptionMarks : Marks (Bytes ⊕ Bytes) where
  of s m := if Subscribes m then .inl s.2 :: (m.fields .applReqId).toList.map .inr else []
  Given app
    | .inl s => s ∈ app.subscribedSessions
    | .inr id => id ∈ app.applReqIds
  onLogon _ _ _ := Iff.rfl
  onLogout _ _ _ := Iff.rfl

theorem marks_subscribes {m : Message} (h : Subscribes m) (s : Session) :
    subscriptionMarks.of s m = .inl s.2 :: (m.fields .applReqId).toList.map .inr := if_pos h

theorem marks_other {m : Message} (h : ¬ Subscribes m) (s : Session) : subscriptionMarks.of s m = [] := if_neg h

theorem session_marked {m : Message} (h : Subscribes m) (s : Session) : .inl s.2 ∈ subscriptionMarks.of s m := by
  rw [marks_subscribes h]
  exact List.mem_cons_self

theorem id_marked {m : Message} (h : Subscribes m) {id : Bytes} (hid : m.fields .applReqId = some id) (s : Session) :
    .inr id ∈ subscriptionMarks.of s m := by
  rw [marks_subscribes h, hid]
  exact List.mem_cons_of_mem _ List.mem_cons_self

/-- What was judged stays judged. -/
theorem keeps_judge (app : AcceptorMockApp) (s id : Bytes) (k : Bytes ⊕ Bytes) (hk : subscriptionMarks.Given app k) :
    subscriptionMarks.Given (app.judge s id).2 k := by
  cases k with
  | inl s' =>
    change s' ∈ (app.judge s id).2.subscribedSessions
    rw [AcceptorMockApp.subscribed_judge]
    exact Finset.mem_insert_of_mem hk
  | inr id' => exact (AcceptorMockApp.mem_ids_judge app s id id').2 (.inl hk)

/-- A request that is no duplicate has a new session, and a new id if it has one. -/
theorem judge_new {app : AcceptorMockApp} {s id : Bytes} (h : (app.judge s id).1 = false) :
    s ∉ app.subscribedSessions ∧ (id ≠ [] → id ∉ app.applReqIds) := by
  unfold AcceptorMockApp.judge at h
  dsimp only at h
  split at h
  · cases h
  · rename_i hnew
    split at h
    · rename_i hempty
      exact ⟨hnew, fun hid => absurd hempty hid⟩
    · exact ⟨hnew, fun _ => of_decide_eq_false h⟩

theorem given_nextId (app : AcceptorMockApp) (pre : Bytes) (k : Bytes ⊕ Bytes) :
    subscriptionMarks.Given (app.nextId pre).2 k ↔ subscriptionMarks.Given app k := by
  cases k with
  | inl s => exact Iff.rfl
  | inr id => exact Iff.rfl

theorem applReqId_answerRequest (app : AcceptorMockApp) (s : Bytes) (m : Message) :
    (app.answerRequest s m).1.fields .applReqId = nonEmpty ((m.fields .applReqId).getD []) := by
  simp [AcceptorMockApp.answerRequest, AcceptorMockApp.onApplicationMessageRequest, nonEmpty]

/-- A request succeeds exactly if it is judged no duplicate. -/
theorem subscribes_answerRequest (app : AcceptorMockApp) (s : Bytes) (m : Message) :
    Subscribes (app.answerRequest s m).1 ↔ (app.judge s ((m.fields .applReqId).getD [])).1 = false := by
  have hother : ascii "Duplicate Application ID" ≠ ascii "Request successfully processed" := by decide +kernel
  have htype : (app.answerRequest s m).1.msgType = .applicationMessageRequestAck := by
    simp [AcceptorMockApp.answerRequest]
  have htext : (app.answerRequest s m).1.fields .text =
      some (app.onApplicationMessageRequest s ((m.fields .applReqId).getD [])).1.text := by
    simp [AcceptorMockApp.answerRequest]
  rw [Subscribes, htext, Option.some.injEq, and_iff_right htype, AcceptorMockApp.onApplicationMessageRequest]
  cases hdup : (app.judge s ((m.fields .applReqId).getD [])).1 with
  | false => simp [hdup]
  | true => simpa [hdup] using hother

theorem givesNew_answerRequest (app : AcceptorMockApp) (s : Session) (m : Message) :
    GivesNew subscriptionMarks app (app.answerRequest s.2 m).2 (subscriptionMarks.of s (app.answerRequest s.2 m).1) := by
  have hkeeps := keeps_judge app s.2 ((m.fields .applReqId).getD [])
  have hgiven : ∀ k, subscriptionMarks.Given (app.answerRequest s.2 m).2 k ↔
      subscriptionMarks.Given (app.judge s.2 ((m.fields .applReqId).getD [])).2 k := fun k => given_nextId _ (ascii "AR") k
  have hid := applReqId_answerRequest app s.2 m
  have hiff := subscribes_answerRequest app s.2 m
  generalize (m.fields .applReqId).getD [] = id at hkeeps hgiven hid hiff
  by_cases hsubscribes : Subscribes (app.answerRequest s.2 m).1
  · obtain ⟨hsession, hnew⟩ := judge_new (hiff.1 hsubscribes)
    rw [marks_subscribes hsubscribes, hid]
    refine ⟨fun k hk => (hgiven k).2 (hkeeps k hk), ?_, ?_⟩
    · unfold nonEmpty
      split <;> simp
    · intro k hk
      rw [hgiven]
      obtain rfl | hk := List.mem_cons.1 hk
      · refine ⟨hsession, ?_⟩
        change s.2 ∈ (app.judge s.2 id).2.subscribedSessions
        rw [AcceptorMockApp.subscribed_judge]
        exact Finset.mem_insert_self _ _
      · unfold nonEmpty at hk
        split at hk
        · cases hk
        · rename_i hne
          obtain rfl := List.mem_singleton.1 hk
          exact ⟨hnew hne, (AcceptorMockApp.mem_ids_judge app s.2 id id).2 (.inr ⟨hsession, hne, rfl⟩)⟩
  · rw [marks_other hsubscribes]
    exact ⟨fun k hk => (hgiven k).2 (hkeeps k hk), .nil, nofun⟩

/-- An answer of another kind has no marks, and leaves the subscriptions alone. -/
theorem givesNew_other {app app' : AcceptorMockApp} (s : Session) {a : Message}
    (ha : a.msgType ≠ .applicationMessageRequestAck)
    (hgiven : ∀ k, subscriptionMarks.Given app k → subscriptionMarks.Given app' k) :
    GivesNew subscriptionMarks app app' (subscriptionMarks.of s a) := by
  rw [marks_other fun h => ha h.1]
  exact ⟨hgiven, .nil, nofun⟩

theorem givesNew_execution (app : AcceptorMockApp) (s : Session) (m : Message) (execType ordStatus : UInt8)
    (leaves : D.Double) : GivesNew subscriptionMarks app (app.execution D m execType ordStatus leaves).2
      (subscriptionMarks.of s (app.execution D m execType ordStatus leaves).1) := by
  refine givesNew_other s ?_ ?_
  · simp [AcceptorMockApp.execution, copyBasic]
  · intro k hk
    exact (given_nextId _ (ascii "O") k).2 ((given_nextId app (ascii "E") k).2 hk)

theorem givesNew_fromApp (app : AcceptorMockApp) (s : Session) (m : Message) :
    GivesNew subscriptionMarks app (app.fromApp D s.2 m).2
      ((app.fromApp D s.2 m).1.toList.flatMap (subscriptionMarks.of s)) := by
  have hnone : GivesNew subscriptionMarks app app [] := ⟨fun _ hk => hk, .nil, nofun⟩
  unfold AcceptorMockApp.fromApp
  cases m.msgType with
  | newOrderSingle =>
    simp only [Option.toList_some, List.flatMap_singleton]
    have hgives := givesNew_execution (D := D) app s m 48 48 (AcceptorMockApp.orderQty D m)
    unfold AcceptorMockApp.onNewOrderSingle
    dsimp only
    split
    · refine givesNew_other s ?_ hgives.keeps
      simp [AcceptorMockApp.execution, copyBasic]
    · exact hgives
  | orderCancelRequest =>
    simp only [Option.toList_some, List.flatMap_singleton]
    exact givesNew_execution app s m 52 52 (D.ofQuantity 0)
  | orderCancelReplaceRequest =>
    simp only [Option.toList_some, List.flatMap_singleton]
    exact givesNew_execution app s m 53 48 (AcceptorMockApp.orderQty D m)
  | tradeCaptureReport =>
    simp only [Option.toList_some, List.flatMap_singleton]
    refine givesNew_other s ?_ hnone.keeps
    simp [AcceptorMockApp.onTradeCaptureReport]
  | applicationMessageRequest =>
    simp only [Option.toList_some, List.flatMap_singleton]
    exact givesNew_answerRequest app s m
  | executionReport | tradeCaptureReportAck | applicationMessageRequestAck => exact hnone

/-- Of a list whose marks are apart, at most one has a given mark. -/
theorem countP_le_one {α κ : Type} {f : α → List κ} {p : α → Bool} {k : κ} (hp : ∀ a, p a = true → k ∈ f a)
    {l : List α} (h : (l.flatMap f).Nodup) : l.countP p ≤ 1 := by
  induction l with
  | nil => exact Nat.zero_le 1
  | cons a l ih =>
    rw [List.flatMap_cons, List.nodup_append'] at h
    obtain ⟨-, hrest, hapart⟩ := h
    by_cases ha : p a = true
    · have hno : l.countP p = 0 := by
        rw [List.countP_eq_zero]
        intro b hb hpb
        exact hapart (hp a ha) (List.mem_flatMap.2 ⟨b, hb, hp b hpb⟩)
      rw [List.countP_cons_of_pos ha, hno]
    · rw [List.countP_cons_of_neg ha]
      exact ih hrest

/-- A session has one subscription at most that succeeds, however often it logs
on, and no id is that of two. -/
theorem subscribes_once (D : Doubles) (known : Session → Bool) (es : List SessionEvent) :
    let w := run (step D known) {} es
    ∀ s, (w.links s).taken.countP (fun m => decide (Subscribes m)) ≤ 1 ∧
      ∀ t, s ≠ t → ∀ m ∈ (w.links s).taken, ∀ m' ∈ (w.links t).taken, Subscribes m → Subscribes m' →
        s.2 ≠ t.2 ∧ ∀ id, m.fields .applReqId = some id → m'.fields .applReqId ≠ some id := by
  have h : Apart subscriptionMarks (run (step D known) {} es) :=
    run_inv_all (Apart subscriptionMarks) (fun w e h => h.step (givesNew_fromApp w.acceptor) e) (apart_empty _)
  generalize run (step D known) {} es = w at h
  intro w' s
  obtain ⟨hnodup, hdisjoint⟩ := h.taken s
  refine ⟨countP_le_one (fun m hm => session_marked (of_decide_eq_true hm) s) hnodup, ?_⟩
  intro t hst m hm m' hm' hsub hsub'
  have hof : ∀ k, k ∈ subscriptionMarks.of s m → k ∉ subscriptionMarks.of t m' := fun k hk hk' =>
    hdisjoint t hst (List.mem_flatMap.2 ⟨m, hm, hk⟩) (List.mem_flatMap.2 ⟨m', hm', hk'⟩)
  refine ⟨?_, ?_⟩
  · intro heq
    refine hof _ (session_marked hsub s) ?_
    rw [heq]
    exact session_marked hsub' t
  · intro id hfield hfield'
    exact hof _ (id_marked hsub hfield s) (id_marked hsub' hfield' t)

end Sessions

end BistColo.Fix
