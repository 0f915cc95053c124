import Thespian.Hub.Receiver
import Thespian.Transition.Runs
import Mathlib.Logic.Function.Basic

/-!
A hub and the actors that call it, one step at a time. The filters of the filtered
subscriptions go through a queue next to the mailbox; its lock is held from the push
to the send, and again by the hub for the pop. A send to a hub that has ended gets
nowhere. The calls that were posted and what was sent for each mail are kept as a
history that no step reads.
-/

namespace Thespian.Hub
open Cbor

variable {α : Type}

/-- The filter object of an argument of `subscribe`. -/
def filterObject (f : Option (Bytes → Bool)) : Filter := f.map fun accepts m => .ok (accepts m)

/-- How far an actor is in its call. -/
inductive Stage where
  | idle
  | called (c : Call)
  | linked (c : Call)
  | locked (f : Option (Bytes → Bool))
  | pushed (f : Option (Bytes → Bool))
  | sent

inductive Holder (α : Type) where
  | actor (a : α)
  | hub

/-- Where the hub is: between two mails, at the steps of a pop, or ended. -/
inductive Phase (α : Type) where
  | waiting
  | popping (sender : α)
  | locked (sender : α)
  | popped (sender : α) (f : Filter)
  /-- `front` of an empty queue -/
  | undefined
  | ended (result : Result)

structure State (α : Type) where
  stage : α → Stage := fun _ => .idle
  links : List α := []
  holder : Option (Holder α) := none
  queue : List Filter := []
  mailbox : List (α × Bytes) := []
  phase : Phase α := .waiting
  subscribers : List (α × Filter) := []
  listened : List Bytes := []
  posted : List (α × Call) := []
  outbox : List (List (α × Bytes)) := []

inductive Event (α : Type) where
  | call (a : α) (c : Call)
  | link (a : α)
  | post (a : α)
  | lock (a : α)
  | push (a : α)
  | send (a : α)
  | unlock (a : α)
  | take
  | hubLock
  | pop
  | hubUnlock

/-- Both overloads of subscribe link the caller first. -/
def Call.links : Call → Bool
  | .subscribe | .subscribeFiltered _ => true
  | _ => false

/-- The call whose message is sent next, without a lock. -/
def Stage.next : Stage → Option Call
  | .linked .subscribe => some .subscribe
  | .called (.broadcast parms) => some (.broadcast parms)
  | .called (.listen desc) => some (.listen desc)
  | .called .shutdown => some .shutdown
  | _ => none

def Phase.isEnded : Phase α → Bool
  | .ended _ => true
  | _ => false

namespace State

def set [DecidableEq α] (s : State α) (a : α) (stage : Stage) : State α :=
  { s with stage := Function.update s.stage a stage }

def deliver (s : State α) (a : α) (c : Call) : State α :=
  if s.phase.isEnded then s
  else { s with mailbox := s.mailbox ++ [(a, c.message)], posted := s.posted ++ [(a, c)] }

/-- What comes of a mail. -/
def handle (s : State α) (sender : α) (r : Reception α) : State α :=
  let s := { s with listened := s.listened ++ r.listened, outbox := s.outbox ++ [r.sent] }
  match r.result with
  | .ok => s
  | .subscribe f => { s with subscribers := s.subscribers ++ [(sender, f)] }
  | .pop => { s with phase := .popping sender }
  | .exit reason => { s with phase := .ended (.exit reason), mailbox := [] }
  | .throws e => { s with phase := .ended (.throws e), mailbox := [] }

end State

section Step
variable [DecidableEq α] (toChars : Float → Bytes)

def step (s : State α) : Event α → Option (State α)
  | .call a c =>
      match s.stage a with
      | .idle => some (s.set a (.called c))
      | _ => none
  | .link a =>
      match s.stage a with
      | .called c =>
          if c.links then some { s.set a (.linked c) with links := s.links ++ [a] } else none
      | _ => none
  | .post a =>
      match (s.stage a).next with
      | some c => some ((s.deliver a c).set a .idle)
      | none => none
  | .lock a =>
      match s.stage a, s.holder with
      | .linked (.subscribeFiltered f), none =>
          some { s.set a (.locked f) with holder := some (.actor a) }
      | _, _ => none
  | .push a =>
      match s.stage a with
      | .locked f => some { s.set a (.pushed f) with queue := s.queue ++ [filterObject f] }
      | _ => none
  | .send a =>
      match s.stage a with
      | .pushed f => some ((s.deliver a (.subscribeFiltered f)).set a .sent)
      | _ => none
  | .unlock a =>
      match s.stage a with
      | .sent => some { s.set a .idle with holder := none }
      | _ => none
  | .take =>
      match s.phase, s.mailbox with
      | .waiting, (sender, msg) :: mailbox =>
          some ({ s with mailbox }.handle sender (receive toChars s.subscribers msg))
      | _, _ => none
  | .hubLock =>
      match s.phase, s.holder with
      | .popping a, none => some { s with phase := .locked a, holder := some .hub }
      | _, _ => none
  | .pop =>
      match s.phase, s.queue with
      | .locked a, f :: queue => some { s with phase := .popped a f, queue }
      | .locked _, [] => some { s with phase := .undefined }
      | _, _ => none
  | .hubUnlock =>
      match s.phase with
      | .popped a f =>
          some { s with phase := .waiting, holder := none,
                        subscribers := s.subscribers ++ [(a, f)] }
      | _ => none

/-- Every step with its guard and its effect. -/
inductive Moves (s : State α) : Event α → State α → Prop
  | call {a : α} {c : Call} : s.stage a = .idle → Moves s (.call a c) (s.set a (.called c))
  | link {a : α} {c : Call} : s.stage a = .called c → c.links →
      Moves s (.link a) { s.set a (.linked c) with links := s.links ++ [a] }
  | post {a : α} {c : Call} : (s.stage a).next = some c →
      Moves s (.post a) ((s.deliver a c).set a .idle)
  | lock {a : α} {f : Option (Bytes → Bool)} :
      s.stage a = .linked (.subscribeFiltered f) → s.holder = none →
      Moves s (.lock a) { s.set a (.locked f) with holder := some (.actor a) }
  | push {a : α} {f : Option (Bytes → Bool)} : s.stage a = .locked f →
      Moves s (.push a) { s.set a (.pushed f) with queue := s.queue ++ [filterObject f] }
  | send {a : α} {f : Option (Bytes → Bool)} : s.stage a = .pushed f →
      Moves s (.send a) ((s.deliver a (.subscribeFiltered f)).set a .sent)
  | unlock {a : α} : s.stage a = .sent →
      Moves s (.unlock a) { s.set a .idle with holder := none }
  | take {sender : α} {msg : Bytes} {mailbox : List (α × Bytes)} :
      s.phase = .waiting → s.mailbox = (sender, msg) :: mailbox →
      Moves s .take ({ s with mailbox }.handle sender (receive toChars s.subscribers msg))
  | hubLock {a : α} : s.phase = .popping a → s.holder = none →
      Moves s .hubLock { s with phase := .locked a, holder := some .hub }
  | pop {a : α} {f : Filter} {queue : List Filter} : s.phase = .locked a → s.queue = f :: queue →
      Moves s .pop { s with phase := .popped a f, queue }
  | popEmpty {a : α} : s.phase = .locked a → s.queue = [] →
      Moves s .pop { s with phase := .undefined }
  | hubUnlock {a : α} {f : Filter} : s.phase = .popped a f →
      Moves s .hubUnlock { s with
        phase := .waiting, holder := none, subscribers := s.subscribers ++ [(a, f)] }

theorem moves_of_step {s s' : State α} {e : Event α} (h : step toChars s e = some s') :
    Moves toChars s e s' := by
  cases e with
  | call a c | link a | post a | lock a | push a | send a | unlock a | take | hubLock | pop
  | hubUnlock =>
      simp only [step] at h
      repeat' split at h
      all_goals first
        | cases h; constructor <;> assumption
        | cases h

end Step

/-- A hub nobody has called yet. -/
def created : State α := {}

end Thespian.Hub
