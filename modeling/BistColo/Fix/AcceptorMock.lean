import BistColo.Core
import BistColo.StreamKit.Runs
import Mathlib.Data.Finset.Basic
/-!
# Subscriptions at the mock acceptor

What `AcceptorMockApp` of `fix/internal/acceptor_mock.hpp` keeps of its sessions
and of their requests for reference data. A logon leaves the subscriptions as
they are, and of an id only the first requests of the sessions are noted, so a
duplicate is not judged per logon. `judged_per_logon_iff` says in which
histories it comes to the same.
-/

open StreamKit

namespace BistColo.Fix

/-! ## The acceptor -/

structure ApplicationMessageRequestAck where
  applResponseId : Bytes
  applReqId : Option Bytes
  applResponseType : Nat
  text : Bytes
deriving DecidableEq

structure AcceptorMockApp where
  sessions : Finset Bytes := ∅
  applReqIds : Finset Bytes := ∅
  subscribedSessions : Finset Bytes := ∅
  idCounter : UInt64 := 0

namespace AcceptorMockApp

def onLogon (app : AcceptorMockApp) (s : Bytes) : AcceptorMockApp := { app with sessions := insert s app.sessions }

def onLogout (app : AcceptorMockApp) (s : Bytes) : AcceptorMockApp := { app with sessions := app.sessions.erase s }

def nextId (app : AcceptorMockApp) (pre : Bytes) : Bytes × AcceptorMockApp :=
  (pre ++ decText (app.idCounter + 1).toNat, { app with idCounter := app.idCounter + 1 })

/-- Whether a request is a duplicate. Its id is looked at and noted only if the
session is new. -/
def judge (app : AcceptorMockApp) (s id : Bytes) : Bool × AcceptorMockApp :=
  let subscribed := { app with subscribedSessions := insert s app.subscribedSessions }
  if s ∈ app.subscribedSessions then (true, subscribed)
  else if id = [] then (false, subscribed)
  else (id ∈ app.applReqIds, { subscribed with applReqIds := insert id app.applReqIds })

/-- `onMessage(ApplicationMessageRequest)`. A request without an id has an empty one. -/
def onApplicationMessageRequest (app : AcceptorMockApp) (s id : Bytes) :
    ApplicationMessageRequestAck × AcceptorMockApp :=
  let (dup, app) := app.judge s id
  let (responseId, app) := app.nextId (ascii "AR")
  ({ applResponseId := responseId
     applReqId := if id = [] then none else some id
     applResponseType := if dup then 2 else 0
     text := ascii (if dup then "Duplicate Application ID" else "Request successfully processed") }, app)

end AcceptorMockApp

inductive AcceptorEvent
  | logon (s : Bytes)
  | logout (s : Bytes)
  | request (s id : Bytes)
deriving DecidableEq

namespace AcceptorMockApp

def handle (app : AcceptorMockApp) : AcceptorEvent → AcceptorMockApp
  | .logon s => app.onLogon s
  | .logout s => app.onLogout s
  | .request s id => (app.onApplicationMessageRequest s id).2

/-! ## Histories -/

/-- The session has sent a request. -/
def Sent (history : List AcceptorEvent) (s : Bytes) : Prop := ∃ id, .request s id ∈ history

/-- The session has sent a request since its latest logon, if it has logged on. -/
def SentSinceLogon (history : List AcceptorEvent) (s : Bytes) : Prop :=
  ∃ before id after, history = before ++ .request s id :: after ∧ .logon s ∉ after

/-- A request has had the id. -/
def Used (history : List AcceptorEvent) (id : Bytes) : Prop := ∃ s, .request s id ∈ history

/-- The first request of some session has had the id. -/
def UsedFirst (history : List AcceptorEvent) (id : Bytes) : Prop :=
  ∃ before s after, history = before ++ .request s id :: after ∧ ¬ Sent before s

def IsDuplicate (history : List AcceptorEvent) (s id : Bytes) : Prop :=
  SentSinceLogon history s ∨ id ≠ [] ∧ Used history id

/-- Every request is answered as a duplicate if and only if it is one. -/
def JudgedPerLogon (events : List AcceptorEvent) : Prop :=
  ∀ before s id after, events = before ++ .request s id :: after →
    ((((run handle {} before).onApplicationMessageRequest s id).1.text = ascii "Duplicate Application ID") ↔
      IsDuplicate before s id)

/-- The session has sent nothing yet, or something since its latest logon, or the
id is known; and an id that is known to a new session was in the first request of another. -/
def Foreseen (history : List AcceptorEvent) (s id : Bytes) : Prop :=
  (Sent history s → SentSinceLogon history s ∨ id ≠ [] ∧ Used history id) ∧
    (¬ Sent history s → id ≠ [] → Used history id → UsedFirst history id)

theorem SentSinceLogon.sent {history : List AcceptorEvent} {s : Bytes} (h : SentSinceLogon history s) : Sent history s := by
  obtain ⟨before, id, after, rfl, -⟩ := h
  exact ⟨id, by simp⟩

theorem UsedFirst.used {history : List AcceptorEvent} {id : Bytes} (h : UsedFirst history id) : Used history id := by
  obtain ⟨before, s, after, rfl, -⟩ := h
  exact ⟨s, by simp⟩

section Step

variable {history : List AcceptorEvent} {s s' id id' : Bytes}

theorem sent_request : Sent (history ++ [.request s' id']) s ↔ s = s' ∨ Sent history s := by
  simp [Sent, exists_or, or_comm]

theorem sent_other {ev : AcceptorEvent} (h : ∀ s id, ev ≠ .request s id) : Sent (history ++ [ev]) s ↔ Sent history s := by
  have hne : ∀ id, AcceptorEvent.request s id ≠ ev := fun id hid => h s id hid.symm
  simp [Sent, hne]

theorem usedFirst_snoc {ev : AcceptorEvent} :
    UsedFirst (history ++ [ev]) id ↔ UsedFirst history id ∨ ∃ s, ev = .request s id ∧ ¬ Sent history s := by
  constructor
  · rintro ⟨before, s, after, h, hfirst⟩
    obtain rfl | ⟨after, last, rfl⟩ := List.eq_nil_or_concat after
    · obtain ⟨rfl, hev⟩ := List.append_inj' h rfl
      exact .inr ⟨s, by simpa using hev, hfirst⟩
    · rw [List.concat_eq_append, ← List.cons_append, ← List.append_assoc] at h
      obtain ⟨rfl, -⟩ := List.append_inj' h rfl
      exact .inl ⟨before, s, after, rfl, hfirst⟩
  · rintro (⟨before, s, after, rfl, hfirst⟩ | ⟨s, rfl, hfirst⟩)
    · exact ⟨before, s, after ++ [ev], by simp, hfirst⟩
    · exact ⟨history, s, [], rfl, hfirst⟩

/-- A logon starts anew. -/
theorem not_sentSinceLogon_logon : ¬ SentSinceLogon (history ++ [.logon s]) s := by
  rintro ⟨before, id, after, h, hlogon⟩
  obtain rfl | ⟨after, last, rfl⟩ := List.eq_nil_or_concat after
  · obtain ⟨-, hev⟩ := List.append_inj' h rfl
    cases hev
  · rw [List.concat_eq_append, ← List.cons_append, ← List.append_assoc] at h
    obtain ⟨-, hev⟩ := List.append_inj' h rfl
    cases hev
    simp at hlogon

end Step

/-! ## What the acceptor keeps -/

/-- The sessions that have sent a request, and the ids of their first ones. -/
structure Keeps (history : List AcceptorEvent) (app : AcceptorMockApp) : Prop where
  sessions : ∀ s, s ∈ app.subscribedSessions ↔ Sent history s
  ids : ∀ id, id ∈ app.applReqIds ↔ id ≠ [] ∧ UsedFirst history id

theorem keeps_other {history : List AcceptorEvent} {app app' : AcceptorMockApp} (h : Keeps history app)
    {ev : AcceptorEvent} (hev : ∀ s id, ev ≠ .request s id) (hsessions : app'.subscribedSessions = app.subscribedSessions)
    (hids : app'.applReqIds = app.applReqIds) : Keeps (history ++ [ev]) app' where
  sessions s := by rw [hsessions, h.sessions, sent_other hev]
  ids id := by simp [hids, h.ids, usedFirst_snoc, hev]

theorem subscribed_judge (app : AcceptorMockApp) (s id : Bytes) :
    (app.judge s id).2.subscribedSessions = insert s app.subscribedSessions := by
  unfold judge
  dsimp only
  split
  · rfl
  · split <;> rfl

/-- An id is noted with the first request of a session. -/
theorem mem_ids_judge (app : AcceptorMockApp) (s id id' : Bytes) : id' ∈ (app.judge s id).2.applReqIds ↔
    id' ∈ app.applReqIds ∨ s ∉ app.subscribedSessions ∧ id ≠ [] ∧ id' = id := by
  unfold judge
  dsimp only
  split
  · rename_i hknown
    simp [hknown]
  · rename_i hnew
    split
    · rename_i hempty
      simp [hempty]
    · rename_i hid
      simp [hnew, hid, or_comm]

theorem keeps_request {history : List AcceptorEvent} {app : AcceptorMockApp} (h : Keeps history app) (s id : Bytes) :
    Keeps (history ++ [.request s id]) (app.judge s id).2 where
  sessions s' := by rw [subscribed_judge, Finset.mem_insert, h.sessions, sent_request]
  ids id' := by
    rw [mem_ids_judge, h.ids, h.sessions, usedFirst_snoc]
    constructor
    · rintro (⟨hid, hused⟩ | ⟨hfirst, hid, rfl⟩)
      · exact ⟨hid, .inl hused⟩
      · exact ⟨hid, .inr ⟨s, rfl, hfirst⟩⟩
    · rintro ⟨hid, hused | ⟨s', heq, hfirst⟩⟩
      · exact .inl ⟨hid, hused⟩
      · cases heq
        exact .inr ⟨hfirst, hid, rfl⟩

theorem keeps_run (history : List AcceptorEvent) : Keeps history (run handle {} history) := by
  induction history using List.reverseRecOn with
  | nil =>
    constructor
    · simp [Sent]
    · simp [UsedFirst]
  | append_singleton history ev ih =>
    rw [run_append]
    cases ev with
    | logon s => exact keeps_other ih (fun _ _ h => nomatch h) rfl rfl
    | logout s => exact keeps_other ih (fun _ _ h => nomatch h) rfl rfl
    | request s id => exact ⟨(keeps_request ih s id).sessions, (keeps_request ih s id).ids⟩

theorem text_duplicate_iff (app : AcceptorMockApp) (s id : Bytes) :
    (app.onApplicationMessageRequest s id).1.text = ascii "Duplicate Application ID" ↔ (app.judge s id).1 = true := by
  have hother : ascii "Request successfully processed" ≠ ascii "Duplicate Application ID" := by decide +kernel
  unfold onApplicationMessageRequest
  dsimp only
  split
  · simp_all
  · simp_all

/-- What counts: any request of the session, or the id in the first request of any. -/
theorem answered_duplicate_iff (history : List AcceptorEvent) (s id : Bytes) :
    ((run handle {} history).onApplicationMessageRequest s id).1.text = ascii "Duplicate Application ID" ↔
      Sent history s ∨ id ≠ [] ∧ UsedFirst history id := by
  have hkeeps := keeps_run history
  rw [text_duplicate_iff, ← hkeeps.sessions, ← hkeeps.ids]
  unfold judge
  dsimp only
  split
  · rename_i hknown
    exact iff_of_true rfl (.inl hknown)
  · rename_i hnew
    split
    · rename_i hempty
      have hnone : id ∉ (run handle {} history).applReqIds := fun hid => ((hkeeps.ids id).1 hid).1 hempty
      exact iff_of_false Bool.false_ne_true (not_or.2 ⟨hnew, hnone⟩)
    · rw [or_iff_right hnew, decide_eq_true_iff]

/-- Requests are judged per logon exactly if each of them is foreseen. -/
theorem judged_per_logon_iff (events : List AcceptorEvent) :
    JudgedPerLogon events ↔ ∀ before s id after, events = before ++ .request s id :: after → Foreseen before s id := by
  refine forall_congr' fun before => forall_congr' fun s => forall_congr' fun id => forall_congr' fun after =>
    imp_congr_right fun _ => ?_
  have hsent : SentSinceLogon before s → Sent before s := SentSinceLogon.sent
  have hused : UsedFirst before id → Used before id := UsedFirst.used
  rw [answered_duplicate_iff, IsDuplicate, Foreseen]
  grind

/-- A session that has sent a request, and is on its second logon. -/
def secondLogon : List AcceptorEvent := [.logon [1], .request [1] [65], .logout [1]] ++ [.logon [1]]

/-- Its first request there is answered as a duplicate. -/
theorem relogon_duplicate : ¬ ∀ events, JudgedPerLogon events := by
  intro hall
  have hsent : Sent secondLogon [1] := ⟨[65], by decide⟩
  have hjudged := hall (secondLogon ++ [.request [1] [66]]) secondLogon [1] [66] [] rfl
  obtain hsince | ⟨-, s, hused⟩ := hjudged.1 ((answered_duplicate_iff secondLogon [1] [66]).2 (.inl hsent))
  · exact not_sentSinceLogon_logon hsince
  · simp [secondLogon] at hused

end AcceptorMockApp

end BistColo.Fix
