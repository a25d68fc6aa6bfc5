import BistColo.Fix.Facade
import BistColo.StreamKit.Runs
import Mathlib.Data.List.Infix
/-!
# Logging on again

`login` of the three FIX applications, and the callbacks that QuickFIX makes on a
thread of its own once it was told to log on: two threads, one mutex and one
atomic state. `login` stores LoggingIn when the lock is free again, so the state
of a callback that was quicker is lost. `login_agrees_iff` says which schedules
leave the state of the last callback.
-/

open StreamKit

namespace BistColo.Fix

/-! ## The applications -/

/-- What the applications differ in. -/
structure FixApp where
  notBound : String
  loginException : String
  active : Bytes
  loggedOut : Bytes

def oeApp : FixApp where
  notBound := "OE session not bound"
  loginException := "OE login() exception"
  active := ascii "Active"
  loggedOut := ascii "LoggedOut"

def rdApp : FixApp where
  notBound := "RD session not bound"
  loginException := "RD login() exception"
  active := ascii "Active"
  loggedOut := ascii "LoggedOut"

def dcApp : FixApp where
  notBound := "DC session not bound"
  loginException := "DC login() exception"
  active := ascii "DC Active"
  loggedOut := ascii "DC LoggedOut"

def fixApp : Client → FixApp
  | .oe => oeApp
  | .rd => rdApp
  | .dc => dcApp

/-! ## The threads -/

inductive Thread | login | quickfix
deriving DecidableEq

inductive Callback
  | onLogon (s : Bytes)
  | onLogout

/-- A step of a callback. -/
inductive CallbackStep
  | lock
  | bind (s : Bytes)
  | store (st : FixSessionState)
  | unlock
  | fire (m : LogonResult)

/-- The next step of `login`, or what it returned. -/
inductive LoginStep
  | lock
  | check
  | logon
  | unlock (result : Result Unit)
  | store
  | returned (result : Result Unit)
deriving DecidableEq

/-- What `lookupSession` finds, and whether its `logon` throws. -/
inductive Lookup | nothing | session | throwing

structure AppState where
  state : FixSessionState
  sessionId : Bytes
  bound : Bool
  mutex : Option Thread := none
  login : LoginStep := .lock
  /-- `Session::logon` was called. -/
  logonCalled : Bool := false
  /-- The steps that the callbacks still make. -/
  callbacks : List CallbackStep
  /-- What `on_session` gets. -/
  fired : List LogonResult := []

/-- The state that a callback stores. -/
def Callback.leaves : Callback → FixSessionState
  | onLogon _ => .active
  | onLogout => .loggedOut

namespace FixApp

variable (app : FixApp)

def steps : Callback → List CallbackStep
  | .onLogon s => [.lock, .bind s, .store .active, .unlock, .fire ⟨.active, 0, app.active⟩]
  | .onLogout => [.store .loggedOut, .fire ⟨.loggedOut, -1, app.loggedOut⟩]

def loginStep (lookup : Bytes → Lookup) (s : AppState) : AppState :=
  match s.login with
  | .lock => if s.mutex = none then { s with mutex := some .login, login := .check } else s
  | .check =>
    if s.bound then { s with login := .logon }
    else { s with login := .unlock (.error (makeError .stateMismatch app.notBound)) }
  | .logon =>
    match lookup s.sessionId with
    | .nothing => { s with login := .unlock (.ok ()) }
    | .session => { s with logonCalled := true, login := .unlock (.ok ()) }
    | .throwing => { s with logonCalled := true, login := .unlock (.error (makeError .io app.loginException)) }
  | .unlock (.error e) => { s with mutex := none, login := .returned (.error e) }
  | .unlock (.ok ()) => { s with mutex := none, login := .store }
  | .store => { s with state := .loggingIn, login := .returned (.ok ()) }
  | .returned _ => s

/-- A step of QuickFIX's thread, which makes no callback before it was told to log on. -/
def quickfixStep (s : AppState) : AppState :=
  if s.logonCalled then
    match s.callbacks with
    | [] => s
    | .lock :: rest => if s.mutex = none then { s with mutex := some .quickfix, callbacks := rest } else s
    | .bind id :: rest => { s with sessionId := id, bound := true, callbacks := rest }
    | .store st :: rest => { s with state := st, callbacks := rest }
    | .unlock :: rest => { s with mutex := none, callbacks := rest }
    | .fire m :: rest => { s with fired := s.fired ++ [m], callbacks := rest }
  else s

/-- The next step of a thread; one that has to wait for the lock makes none. -/
def step (lookup : Bytes → Lookup) (s : AppState) : Thread → AppState
  | .login => app.loginStep lookup s
  | .quickfix => quickfixStep s

/-- `login` is called, and the callbacks are still to come. -/
def calling (st : FixSessionState) (sessionId : Bytes) (bound : Bool) (callbacks : List Callback) : AppState where
  state := st
  sessionId := sessionId
  bound := bound
  callbacks := callbacks.flatMap app.steps

end FixApp

/-! ## The property -/

def CallbackStep.stored : CallbackStep → Option FixSessionState
  | store st => some st
  | _ => none

/-- The states that the callbacks still store. -/
def AppState.stores (s : AppState) : List FixSessionState := s.callbacks.filterMap CallbackStep.stored

/-- `login` has returned and all callbacks have run. -/
def Done (s : AppState) : Prop := (∃ result, s.login = .returned result) ∧ s.callbacks = []

/-- The state is that of the last callback, and LoggingIn only if there was none. -/
def Agrees (callbacks : List Callback) (s : AppState) : Prop :=
  (∀ cb ∈ callbacks.getLast?, s.state = cb.leaves) ∧ (s.state = .loggingIn → callbacks = [])

/-- When `login` stores its state, there are no callbacks or one is still to store its own. -/
def StoresBefore (callbacks : List Callback) (s : AppState) (t : Thread) : Prop :=
  t = .login → s.login = .store → callbacks = [] ∨ s.stores ≠ []

/-! ## One step -/

/-- The callbacks have stored their states in order, and the last is there if all have. -/
structure Kept (callbacks : List Callback) (s : AppState) : Prop where
  inOrder : s.stores <:+ callbacks.map Callback.leaves
  last : s.stores = [] → ∀ cb ∈ callbacks.getLast?, s.state = cb.leaves

/-- `login` stored its state behind the last callback. -/
structure Overwritten (callbacks : List Callback) (s : AppState) : Prop where
  some : callbacks ≠ []
  none_left : s.stores = []
  state : s.state = .loggingIn
  returned : ∃ result, s.login = .returned result

section Step

variable {app : FixApp} {lookup : Bytes → Lookup} {s : AppState} {callbacks : List Callback}

theorem stores_login : (app.loginStep lookup s).stores = s.stores := by
  unfold AppState.stores FixApp.loginStep
  split
  any_goals split
  all_goals rfl

theorem state_login (h : s.login ≠ .store) : (app.loginStep lookup s).state = s.state := by
  unfold FixApp.loginStep
  split
  any_goals split
  any_goals rfl
  exact absurd ‹_› h

/-- The thread of QuickFIX stores the next state, or leaves the state alone. -/
theorem quickfix_cases (s : AppState) : (FixApp.quickfixStep s).login = s.login ∧
    ((FixApp.quickfixStep s).stores = s.stores ∧ (FixApp.quickfixStep s).state = s.state ∨
      s.stores = (FixApp.quickfixStep s).state :: (FixApp.quickfixStep s).stores) := by
  unfold FixApp.quickfixStep AppState.stores
  split
  · split
    · exact ⟨rfl, .inl ⟨rfl, rfl⟩⟩
    · rename_i hnext
      split
      · exact ⟨rfl, .inl ⟨by rw [hnext]; rfl, rfl⟩⟩
      · exact ⟨rfl, .inl ⟨rfl, rfl⟩⟩
    · rename_i hnext
      exact ⟨rfl, .inl ⟨by rw [hnext]; rfl, rfl⟩⟩
    · rename_i hnext
      exact ⟨rfl, .inr (by rw [hnext]; rfl)⟩
    · rename_i hnext
      exact ⟨rfl, .inl ⟨by rw [hnext]; rfl, rfl⟩⟩
    · rename_i hnext
      exact ⟨rfl, .inl ⟨by rw [hnext]; rfl, rfl⟩⟩
  · exact ⟨rfl, .inl ⟨rfl, rfl⟩⟩

/-- The last state that is stored is that of the last callback. -/
theorem last_leaves {st : FixSessionState} (h : [st] <:+ callbacks.map Callback.leaves) :
    ∀ cb ∈ callbacks.getLast?, st = cb.leaves := by
  obtain ⟨front, hfront⟩ := h
  intro cb hcb
  have hlast := congrArg List.getLast? hfront
  rw [List.getLast?_map, hcb] at hlast
  simpa using hlast

theorem kept_step (t : Thread) (h : Kept callbacks s) (hstores : StoresBefore callbacks s t) :
    Kept callbacks (app.step lookup s t) := by
  cases t with
  | login =>
    refine ⟨?_, ?_⟩
    · exact stores_login.symm ▸ h.inOrder
    · intro hnone cb hcb
      have hnone' : s.stores = [] := stores_login.symm.trans hnone
      by_cases hat : s.login = .store
      · obtain rfl | hleft := hstores rfl hat
        · cases hcb
        · exact absurd hnone' hleft
      · exact (state_login hat).trans (h.last hnone' cb hcb)
  | quickfix =>
    obtain ⟨-, ⟨hsame, hstate⟩ | hnext⟩ := quickfix_cases s
    · refine ⟨?_, ?_⟩
      · exact hsame.symm ▸ h.inOrder
      · intro hnone cb hcb
        exact hstate.trans (h.last (hsame.symm.trans hnone) cb hcb)
    · have hinOrder := h.inOrder
      rw [hnext] at hinOrder
      refine ⟨(List.suffix_cons _ _).trans hinOrder, ?_⟩
      intro hnone
      change (FixApp.quickfixStep s).stores = [] at hnone
      rw [hnone] at hinOrder
      exact last_leaves hinOrder

theorem overwritten_step (t : Thread) (hlate : ¬ StoresBefore callbacks s t) :
    Overwritten callbacks (app.step lookup s t) := by
  unfold StoresBefore at hlate
  push Not at hlate
  obtain ⟨rfl, hat, hsome, hnone⟩ := hlate
  refine ⟨hsome, stores_login.trans hnone, ?_, .ok (), ?_⟩
  all_goals simp only [FixApp.step, FixApp.loginStep, hat]

theorem overwritten_stays (t : Thread) (h : Overwritten callbacks s) : Overwritten callbacks (app.step lookup s t) := by
  obtain ⟨hsome, hnone, hstate, result, hat⟩ := h
  cases t with
  | login =>
    have hsame : app.step lookup s .login = s := by simp only [FixApp.step, FixApp.loginStep, hat]
    rw [hsame]
    exact ⟨hsome, hnone, hstate, result, hat⟩
  | quickfix =>
    obtain ⟨hlogin, ⟨hsame, hsameState⟩ | hnext⟩ := quickfix_cases s
    · exact ⟨hsome, hsame.trans hnone, hsameState.trans hstate, result, hlogin.trans hat⟩
    · rw [hnone] at hnext
      cases hnext

end Step

/-! ## Runs -/

theorem stores_steps (app : FixApp) (cb : Callback) : (app.steps cb).filterMap CallbackStep.stored = [cb.leaves] := by
  cases cb <;> rfl

theorem stores_calling (app : FixApp) (st : FixSessionState) (sessionId : Bytes) (bound : Bool)
    (callbacks : List Callback) : (app.calling st sessionId bound callbacks).stores = callbacks.map Callback.leaves := by
  unfold AppState.stores FixApp.calling
  induction callbacks with
  | nil => rfl
  | cons cb callbacks ih => simp_all [stores_steps]

theorem kept_calling (app : FixApp) (st : FixSessionState) (sessionId : Bytes) (bound : Bool)
    (callbacks : List Callback) : Kept callbacks (app.calling st sessionId bound callbacks) := by
  have hstores := stores_calling app st sessionId bound callbacks
  refine ⟨hstores ▸ List.suffix_rfl, ?_⟩
  intro hnone cb hcb
  rw [hstores, List.map_eq_nil_iff] at hnone
  rw [hnone] at hcb
  cases hcb

theorem leaves_ne (cb : Callback) : cb.leaves ≠ .loggingIn := by
  cases cb <;> nofun

theorem Kept.agrees {callbacks : List Callback} {s : AppState} (h : Kept callbacks s) (hdone : s.callbacks = []) :
    Agrees callbacks s := by
  have hlast := h.last (by rw [AppState.stores, hdone]; rfl)
  refine ⟨hlast, ?_⟩
  intro hstate
  cases hcb : callbacks.getLast? with
  | none => exact List.getLast?_eq_none_iff.1 hcb
  | some cb => exact absurd ((hlast cb hcb).symm.trans hstate) (leaves_ne cb)

/-- A schedule leaves the state of the last callback exactly if `login` never
stores its own behind it. -/
theorem login_agrees_iff (c : Client) (lookup : Bytes → Lookup) (st : FixSessionState) (sessionId : Bytes) (bound : Bool)
    (callbacks : List Callback) (turns : List Thread)
    (hdone : Done (run ((fixApp c).step lookup) ((fixApp c).calling st sessionId bound callbacks) turns)) :
    Agrees callbacks (run ((fixApp c).step lookup) ((fixApp c).calling st sessionId bound callbacks) turns) ↔
      AllAlong ((fixApp c).step lookup) (StoresBefore callbacks) ((fixApp c).calling st sessionId bound callbacks) turns := by
  have hkept := kept_calling (fixApp c) st sessionId bound callbacks
  constructor
  · intro hagrees
    by_contra hlate
    have hover := run_breaks (Kept callbacks) (Overwritten callbacks) (fun s t => kept_step t)
      (fun s t _ => overwritten_step t) (fun s t => overwritten_stays t) hkept hlate
    exact hover.some (hagrees.2 hover.state)
  · intro hstores
    exact (run_inv (Kept callbacks) (fun s t => kept_step t) hkept hstores).agrees hdone.2

/-- `login` up to the unlock, the whole of `onLogon`, and then the store of `login`. -/
def quickLogon : List Thread := List.replicate 4 .login ++ List.replicate 5 .quickfix ++ [.login]

/-- `login` returns before `onLogon` starts. -/
def slowLogon : List Thread := List.replicate 5 .login ++ List.replicate 5 .quickfix

theorem login_agrees_slow :
    Agrees [.onLogon [1]] (run ((fixApp .oe).step fun _ => .session)
      ((fixApp .oe).calling .loggedOut [1] true [.onLogon [1]]) slowLogon) :=
  (login_agrees_iff .oe (fun _ => .session) .loggedOut [1] true [.onLogon [1]] slowLogon ⟨⟨.ok (), rfl⟩, rfl⟩).2
    (by unfold StoresBefore; decide)

/-- The session is active and the application says LoggingIn. -/
theorem login_overwrites : ¬ ∀ (c : Client) (lookup : Bytes → Lookup) (st : FixSessionState) (sessionId : Bytes)
    (bound : Bool) (callbacks : List Callback) (turns : List Thread),
    Done (run ((fixApp c).step lookup) ((fixApp c).calling st sessionId bound callbacks) turns) →
      Agrees callbacks (run ((fixApp c).step lookup) ((fixApp c).calling st sessionId bound callbacks) turns) := by
  intro hall
  have hagrees := hall .oe (fun _ => .session) .loggedOut [1] true [.onLogon [1]] quickLogon ⟨⟨.ok (), rfl⟩, rfl⟩
  exact absurd (hagrees.2 rfl) (List.cons_ne_nil _ _)

end BistColo.Fix
