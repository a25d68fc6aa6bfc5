import Mathlib.Data.List.Forall2
/-!
# Requests and their answers

A client and a server with a queue in each direction. The server answers what
comes, one answer to a request, and a reset loses what is under way. Whatever
happens, what the client takes answers some of its requests in order
(`Exchange.Sound.taken_of_sent`), and all of them when nothing was lost or is
under way.
-/

namespace StreamKit

variable {ρ α : Type*}

structure Exchange (ρ α : Type*) where
  outbound : List ρ := []
  inbound : List α := []
  sent : List ρ := []
  taken : List α := []
  /-- No reset has lost anything. -/
  intact : Bool := true

namespace Exchange

def send (e : Exchange ρ α) (r : ρ) : Exchange ρ α := { e with outbound := e.outbound ++ [r], sent := e.sent ++ [r] }

/-- The next request is served, with an answer or without. -/
def answer (e : Exchange ρ α) (a : Option α) : Exchange ρ α :=
  { e with outbound := e.outbound.tail, inbound := e.inbound ++ a.toList }

def take (e : Exchange ρ α) : Exchange ρ α :=
  { e with inbound := e.inbound.tail, taken := e.taken ++ e.inbound.head?.toList }

def reset (e : Exchange ρ α) : Exchange ρ α :=
  { e with outbound := [], inbound := [], intact := e.intact && e.outbound.isEmpty && e.inbound.isEmpty }

/-- Nothing is under way. -/
def Quiet (e : Exchange ρ α) : Prop := e.outbound = [] ∧ e.inbound = []

/-- All answers that the client has or will get. -/
def answers (e : Exchange ρ α) : List α := e.taken ++ e.inbound

/-- The answers are those of some requests, in order. -/
def Sound (A : ρ → α → Prop) (e : Exchange ρ α) : Prop :=
  ∃ served, List.Forall₂ A served e.answers ∧ (served ++ e.outbound).Sublist e.sent ∧
    (e.intact = true → served ++ e.outbound = e.sent)

variable {A : ρ → α → Prop} {e : Exchange ρ α}

theorem sound_empty : Sound A {} := ⟨[], .nil, .slnil, fun _ => rfl⟩

theorem Sound.send (h : e.Sound A) (r : ρ) : (e.send r).Sound A := by
  obtain ⟨served, hserved, hsub, hall⟩ := h
  refine ⟨served, hserved, ?_, ?_⟩
  · rw [Exchange.send, ← List.append_assoc]
    exact hsub.append (List.Sublist.refl [r])
  · intro hintact
    rw [Exchange.send, ← List.append_assoc, hall hintact]

theorem answers_answer (a : Option α) : (e.answer a).answers = e.answers ++ a.toList :=
  (List.append_assoc ..).symm

theorem answers_take : e.take.answers = e.answers := by
  unfold answers Exchange.take
  cases e.inbound with
  | nil => simp
  | cons a inbound => simp

theorem Sound.answer (h : e.Sound A) {r : ρ} {rest : List ρ} {a : α} (hnext : e.outbound = r :: rest) (ha : A r a) :
    (e.answer (some a)).Sound A := by
  obtain ⟨served, hserved, hsub, hall⟩ := h
  rw [hnext] at hsub hall
  have hshift : served ++ [r] ++ (e.answer (some a)).outbound = served ++ r :: rest := by
    rw [Exchange.answer, hnext, List.append_assoc]
    rfl
  refine ⟨served ++ [r], ?_, ?_, ?_⟩
  · rw [answers_answer]
    exact List.rel_append hserved (.cons ha .nil)
  · rw [hshift]
    exact hsub
  · intro hintact
    rw [hshift]
    exact hall hintact

theorem Sound.take (h : e.Sound A) : e.take.Sound A := by
  obtain ⟨served, hserved, hsub, hall⟩ := h
  refine ⟨served, ?_, hsub, hall⟩
  rw [answers_take]
  exact hserved

theorem Sound.reset (h : e.Sound A) : e.reset.Sound A := by
  obtain ⟨served, hserved, hsub, hall⟩ := h
  -- the requests whose answers the client has
  refine ⟨served.take e.taken.length, ?_, ?_, ?_⟩
  · rw [answers, Exchange.reset, List.append_nil]
    exact List.forall₂_take_append served _ _ hserved
  · rw [Exchange.reset, List.append_nil]
    exact ((List.take_sublist _ _).trans (List.sublist_append_left ..)).trans hsub
  · intro hintact
    simp only [Exchange.reset, Bool.and_eq_true, List.isEmpty_iff] at hintact
    obtain ⟨⟨hintact, hout⟩, hin⟩ := hintact
    rw [answers, hin, List.append_nil] at hserved
    have hsent := hall hintact
    rw [hout, List.append_nil] at hsent
    rw [Exchange.reset, List.append_nil, ← hserved.length_eq, List.take_length]
    exact hsent

theorem Sound.outbound (h : e.Sound A) : e.outbound.Sublist e.sent := by
  obtain ⟨served, -, hsub, -⟩ := h
  exact (List.sublist_append_right ..).trans hsub

/-- What the client has taken. -/
theorem Sound.taken_of_sent (h : e.Sound A) : ∃ answered, answered.Sublist e.sent ∧ List.Forall₂ A answered e.taken ∧
    (e.intact = true → e.Quiet → answered = e.sent) := by
  obtain ⟨served, hserved, hsub, hall⟩ := h
  refine ⟨served.take e.taken.length, ?_, List.forall₂_take_append served _ _ hserved, ?_⟩
  · exact ((List.take_sublist _ _).trans (List.sublist_append_left ..)).trans hsub
  · rintro hintact ⟨hout, hin⟩
    rw [answers, hin, List.append_nil] at hserved
    have hsent := hall hintact
    rw [hout, List.append_nil] at hsent
    rw [← hserved.length_eq, List.take_length, hsent]

end Exchange

end StreamKit
