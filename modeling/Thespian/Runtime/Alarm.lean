import Thespian.Runtime.Instance
import Thespian.Transition.Runs

/-!
Timeouts and signals. An actor hands the executor a wait whose handler sends the actor a
message, or the report of a cancellation that it asked for itself. The wait can be
cancelled as long as it is pending; a handler that is queued runs on any thread of the
executor, at any time and beside the actor. It does nothing once the executor's object is
destroyed, unless it was inside by then.

Both are one definition here: they differ in the message of the cancellation.
-/

namespace Thespian.Runtime
open Cbor Transition

/-- The wait, from the start of the operation to the end of its handler. -/
inductive Wait where
  | pending
  | queued (aborted : Bool)
  | entered (aborted : Bool)
  | done
  deriving DecidableEq

/-- The owner uses the alarm, or stands behind a line of its destructor. -/
inductive Owner where
  | using
  | flagged
  | cancelled
  | destroyed
  deriving DecidableEq

/-- `timeout_impl` and `signal_impl`, with what the handler has sent to the owner. -/
structure Alarm where
  m : Bytes
  errorName : Bytes
  wait : Wait := .pending
  owner : Owner := .using
  dtorCancelled : Bool := false
  token : Bool := true
  pendingTasks : Nat := 1
  sent : List Bytes := []
  deriving DecidableEq

inductive AlarmAction where
  | expire
  | cancel
  | enter
  | fire (value : Int64) (message : Bytes)
  | destroy
  | destroyCancels
  | destroyTimer
  deriving DecidableEq

namespace Alarm

def timeout (m : Bytes) : Alarm := { m, errorName := text "timeout_error" }

def signal (m : Bytes) : Alarm := { m, errorName := text "signal_error" }

/-- A cancellation that finds nothing pending does nothing. -/
def cancelWait (s : Alarm) : Alarm :=
  if s.wait = .pending then { s with wait := .queued true } else s

/-- The exit message that reports a cancellation. -/
def cancellation (errorName : Bytes) (value : Int64) (message : Bytes) : Bytes :=
  array [.string (text "exit"), .string errorName, .int value, .string message]

/-- The handler that the constructor has given to the executor. -/
def onFired (s : Alarm) (error : Bool) (value : Int64) (message : Bytes) : Alarm :=
  if !error then { s with sent := s.sent ++ [s.m] }
  else if !s.dtorCancelled then 
    { s with sent := s.sent ++ [cancellation s.errorName value message] }
  else s

def step (s : Alarm) : AlarmAction → Option Alarm
  | .expire => if s.wait = .pending then some { s with wait := .queued false } else none
  | .cancel => if s.owner = .using then some s.cancelWait else none
  | .enter =>
      match s.wait with
      | .queued aborted =>
          some { s with pendingTasks := s.pendingTasks - 1,
                        wait := if s.token then .entered aborted else .done }
      | _ => none
  | .fire value message =>
      match s.wait with
      | .entered aborted => some { s.onFired aborted value message with wait := .done }
      | _ => none
  | .destroy =>
      if s.owner = .using then some { s with owner := .flagged, dtorCancelled := true } else none
  | .destroyCancels =>
      if s.owner = .flagged then some { s.cancelWait with owner := .cancelled } else none
  | .destroyTimer =>
      if s.owner = .cancelled then some { s with owner := .destroyed, token := false } else none

/-- The operations of the executor that have not come to their handler. -/
def outstanding (s : Alarm) : Nat :=
  match s.wait with
  | .pending | .queued _ => 1
  | .entered _ | .done => 0

structure Sound (m errorName : Bytes) (s : Alarm) : Prop where
  message : s.m = m
  name : s.errorName = errorName
  pendingTasks : s.pendingTasks = s.outstanding
  unsent : s.wait ≠ .done → s.sent = []
  sent : s.sent = [] ∨ s.sent = [m] ∨ 
    ∃ value message, s.sent = [cancellation errorName value message]
  waited : s.owner = .cancelled ∨ s.owner = .destroyed → s.wait ≠ .pending
  token : s.owner = .destroyed → s.token = false

/-- Without a cancellation by its owner an alarm is aborted by its destructor only. -/
structure Unreported (m : Bytes) (s : Alarm) : Prop where
  message : s.m = m
  aborted : s.wait = .queued true ∨ s.wait = .entered true → s.dtorCancelled = true
  flagged : s.owner = .using ∨ s.dtorCancelled = true
  sent : ∀ x ∈ s.sent, x = m

/-- An alarm that is neither cancelled nor destroyed. -/
structure Undisturbed (m : Bytes) (s : Alarm) : Prop where
  message : s.m = m
  owner : s.owner = .using
  token : s.token = true
  wait : s.wait = .pending ∨ s.wait = .queued false ∨ s.wait = .entered false ∨ s.wait = .done
  sent : s.sent = if s.wait = .done then [m] else []

/-- The handler is too late for the executor's object. -/
structure Silent (sent : List Bytes) (s : Alarm) : Prop where
  owner : s.owner = .destroyed
  token : s.token = false
  wait : (∃ aborted, s.wait = .queued aborted) ∨ s.wait = .done
  sent : s.sent = sent

variable {m errorName : Bytes} {s s' : Alarm}

theorem sound_step : Keeps step (fun _ _ => True) (Sound m errorName) := by
  intro s a s' sound _ h
  obtain ⟨rfl, rfl, pending, unsent, sent, waited, token⟩ := sound
  cases a with
  | expire | destroy | destroyTimer =>
      simp only [step] at h
      split at h <;> cases h
      constructor <;> grind -linarith [outstanding]
  | cancel | destroyCancels =>
      simp only [step, cancelWait] at h
      split at h
      · split at h <;> cases h <;> constructor <;> grind -linarith [outstanding]
      · cases h
  | enter =>
      simp only [step] at h
      split at h <;> cases h
      constructor <;> grind -linarith [outstanding]
  | fire value message =>
      simp only [step] at h
      split at h <;> cases h
      next aborted entered =>
        have none : s.sent = [] := unsent (by simp [entered])
        cases aborted <;> cases flag : s.dtorCancelled <;>
          constructor <;> simp_all [onFired, outstanding]

theorem unreported_step : Keeps step (fun _ a => a ≠ .cancel) (Unreported m) := by
  intro s a s' quiet uncancelled h
  obtain ⟨rfl, aborted, flagged, sent⟩ := quiet
  cases a with
  | expire | destroy | destroyTimer =>
      simp only [step] at h
      split at h <;> cases h
      constructor <;> grind -linarith
  | cancel => exact absurd rfl uncancelled
  | destroyCancels =>
      simp only [step, cancelWait] at h
      split at h
      · split at h <;> cases h <;> constructor <;> grind -linarith
      · cases h
  | enter =>
      simp only [step] at h
      split at h <;> cases h
      constructor <;> grind -linarith
  | fire value message =>
      simp only [step, onFired] at h
      split at h <;> cases h
      constructor <;> grind -linarith

theorem undisturbed_step :
    Keeps step (fun _ a => a ≠ .cancel ∧ a ≠ .destroy) (Undisturbed m) := by
  intro s a s' calm ⟨uncancelled, undestroyed⟩ h
  obtain ⟨rfl, owner, token, wait, sent⟩ := calm
  cases a with
  | cancel => exact absurd rfl uncancelled
  | destroy => exact absurd rfl undestroyed
  | expire =>
      simp only [step] at h
      split at h <;> cases h
      constructor <;> grind -linarith
  | destroyCancels | destroyTimer =>
      simp only [step, owner] at h
      cases h
  | enter =>
      simp only [step] at h
      split at h <;> cases h
      constructor <;> grind -linarith
  | fire value message =>
      simp only [step, onFired] at h
      split at h <;> cases h
      constructor <;> grind -linarith

theorem silent_step {sent : List Bytes} : Keeps step (fun _ _ => True) (Silent sent) := by
  intro s a s' silent _ h
  obtain ⟨owner, token, wait, rfl⟩ := silent
  cases a with
  | enter =>
      simp only [step] at h
      split at h <;> cases h
      constructor <;> grind -linarith
  | _ =>
      simp only [step] at h
      grind -linarith

/-- Over every order of the steps of the owner and the executor's threads, the owner is
sent at most one message: its own, or the report of a cancellation that it asked for. Once
the destructor is through, what has not entered the handler stays silent; an alarm that is
left alone sends its message; and the executor counts the waits that are outstanding. -/
theorem alarm_sends {acts : List AlarmAction}
    (h : run step { m, errorName : Alarm } acts = some s) :
    (s.sent = [] ∨ s.sent = [m] ∨
      .cancel ∈ acts ∧ ∃ value message, s.sent = [cancellation errorName value message]) ∧
    (s.owner = .destroyed → (∀ aborted, s.wait ≠ .entered aborted) →
      ∀ rest s', run step s rest = some s' → s'.sent = s.sent) ∧
    (s.wait = .done → .cancel ∉ acts → .destroy ∉ acts → s.sent = [m]) ∧
    s.pendingTasks = s.outstanding := by
  have sound : Sound m errorName s := by
    apply sound_step.run _ (along_true acts) h
    constructor <;> simp [outstanding]
  refine ⟨?_, ?_, ?_, sound.pendingTasks⟩
  · rcases sound.sent with none | own | ⟨value, message, report⟩
    · exact .inl none
    · exact .inr (.inl own)
    · by_cases asked : .cancel ∈ acts
      · exact .inr (.inr ⟨asked, value, message, report⟩)
      · have quiet : Unreported m s := by
          apply unreported_step.run _ (along_of_forall _) h
          · constructor <;> simp
          · rintro a member rfl
            exact asked member
        have same := quiet.sent _ (report ▸ List.mem_singleton_self _)
        exact .inr (.inl (same ▸ report))
  · intro destroyed outside rest s' more
    have silent : Silent s.sent s := by
      refine ⟨destroyed, sound.token destroyed, ?_, rfl⟩
      have wait := sound.waited (.inr destroyed)
      cases at' : s.wait <;> grind -linarith
    exact (silent_step.run silent (along_true rest) more).sent
  · intro completed uncancelled undestroyed
    have calm : Undisturbed m s := by
      apply undisturbed_step.run _ (along_of_forall _) h
      · constructor <;> simp
      · rintro a member
        constructor <;> rintro rfl
        · exact uncancelled member
        · exact undestroyed member
    rw [calm.sent, if_pos completed]

/-- The alarm is destroyed when its handler is queued. -/
def overtaken : List AlarmAction := [.expire, .destroy, .destroyCancels, .destroyTimer]

theorem alarm_sends_overtaken : ∃ s, run step (timeout nullValue) overtaken = some s ∧
    ∀ rest s', run step s rest = some s' → s'.sent = [] := by
  have checked : (run step (timeout nullValue) overtaken).any (fun s =>
      s.owner = .destroyed ∧ s.wait = .queued false ∧ s.sent = []) = true := by
    decide +kernel
  obtain ⟨s, ran, checked⟩ := (Option.any_eq_true _ _).mp checked
  rw [decide_eq_true_eq] at checked
  obtain ⟨destroyed, queued, unsent⟩ := checked
  obtain ⟨-, silent, -⟩ := alarm_sends ran
  rw [← unsent]
  exact ⟨s, ran, silent destroyed (by simp [queued])⟩

end Alarm

end Thespian.Runtime
