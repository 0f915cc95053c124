import Thespian.Runtime.Invariants

/-!
The moves of an actor as its mail and its links see them. Most moves touch
neither; the others take a mail from the mailbox, record a link, start the loop
over the links or end a call of spawn.
-/

namespace Thespian.Runtime
open Cbor Actor Transition

section Postal
variable {toChars : Float → Bytes} {s s' : System} {act : Action} {x x' : Actor} {e : Event}

/-- The link entry made of a link message by its receiver. -/
def Mail.link (mail : Mail) : Link := ⟨mail.sender, some mail.serial, .callee⟩

def Actor.running? (x : Actor) : Option Mail :=
  match x.control with
  | .running mail => some mail
  | _ => none

/-- How often the mail is still to be looked at by the link branch of run. -/
def Actor.pending (x : Actor) (mail : Mail) : Nat :=
  x.mailbox.count mail + if x.running? = some mail then 1 else 0

/-- The mail is being processed. -/
def Actor.holds (x : Actor) (mail : Mail) : Prop :=
  x.control = .running mail ∨ x.control = .checking mail

/-- The links the given execution of handle_exit has still to notify. -/
def Actor.remaining (x : Actor) (n : Nat) : List Link :=
  match x.control with
  | .notifying k _ _ rest => if k = n then rest else []
  | _ => []

def Event.isQuiet : Event → Bool
  | .received _ _ | .exitHandler _ _ _ | .internal _ => true
  | _ => false

/-- A move that touches neither mail nor links nor the loop over the links. -/
structure Quiet (x : Actor) (e : Event) (x' : Actor) : Prop where
  mailbox : x'.mailbox = x.mailbox
  links : x'.links = x.links
  call : x'.call = x.call
  inShutdown : x'.inShutdown = x.inShutdown
  event : e.isQuiet = true
  pending : ∀ mail, isLinkMsg mail.body = true → x'.pending mail = x.pending mail
  remaining : ∀ n, x'.remaining n = x.remaining n
  notifying : ∀ n guarded m rest, x'.control ≠ .notifying n guarded m rest
  holds : ∀ mail, x'.holds mail → x.holds mail

/-- The moves of an actor as its mail and its links see them. -/
inductive Postal (self : InstanceId) (now : Nat) (x : Actor) : Event → Actor → Prop
  | quiet (e : Event) (x' : Actor) (quiet : Quiet x e x') : Postal self now x e x'
  | delivered (mail : Mail) (rest : List Mail) (control : x.control = .idle)
      (mailbox : x.mailbox = mail :: rest) :
      Postal self now x (.ran self mail) { x with mailbox := rest, control := .running mail }
  | dispatched (m : Bytes) (control : x.control = .idle) (owns : x.ownsIo = true)
      (lives : x.inShutdown = false) :
      Postal self now x (.ran self ⟨none, m, now⟩) { x with control := .running ⟨none, m, now⟩ }
  | recorded (mail : Mail) (control : x.control = .running mail)
      (link : isLinkMsg mail.body = true) :
      Postal self now x (.linked self mail.link) (x.runLink mail)
  | exited (guarded : Bool) (m : Bytes) (control : x.control = .exits guarded m) :
      Postal self now x (.exit self m x.links) (x.handleExit now guarded m)
  | unlinked (child : InstanceId) (link : Bool) (call : x.call = .spawn child link .created)
      (skipped : ¬ (link = true ∧ x.lifetime = true)) :
      Postal self now x (.internal (some self))
        { x with call := .spawn child link (.linked none) }
  | spawned (child : InstanceId) (link : Bool) (request : Option Nat)
      (call : x.call = .spawn child link (.scheduled request)) :
      Postal self now x (.spawned self child link request)
        { x with
          links := if link then ⟨some child, request, .caller⟩ :: x.links else x.links
          call := .none }

/-- Neither the old nor the new control processes mail or notifies links. -/
theorem quiet_of_control (mailbox : x'.mailbox = x.mailbox) (links : x'.links = x.links)
    (call : x'.call = x.call) (inShutdown : x'.inShutdown = x.inShutdown)
    (event : e.isQuiet = true) (before : x.running? = none)
    (after : x'.running? = none) (rest : ∀ n, x.remaining n = [])
    (notifying : ∀ n guarded m rest, x'.control ≠ .notifying n guarded m rest)
    (checking : ∀ mail, x'.control ≠ .checking mail) : Quiet x e x' where
  mailbox := mailbox
  links := links
  call := call
  inShutdown := inShutdown
  event := event
  pending := fun mail _ => by simp only [Actor.pending, mailbox, before, after]
  remaining := fun n => by
    rw [rest n]
    unfold Actor.remaining
    split
    · exact absurd ‹_› (notifying _ _ _ _)
    · rfl
  notifying := notifying
  holds := fun mail held => by
    rcases held with running | looking
    · simp [Actor.running?, running] at after
    · exact absurd looking (checking mail)

theorem Local.postal {self : InstanceId} {now : Nat} (move : Local toChars self now x act e x') :
    Postal self now x e x' := by
  cases move with
  | user u free =>
      have control := (free_control free).2
      refine .quiet _ _ ?_
      cases u <;> rcases control with control | ⟨guarded, err, rest, control⟩ <;>
        exact quiet_of_control rfl rfl rfl rfl rfl (by simp [running?, control])
          (by simp [running?, Actor.user, control]) (by simp [remaining, control])
          (by simp [Actor.user, control]) (by simp [Actor.user, control])
  | returned o control call =>
      rcases returned_cases x o with eq | ⟨guarded, m, -, eq⟩ <;> rw [eq] <;>
        exact .quiet _ _ (quiet_of_control rfl rfl rfl rfl rfl (by simp [running?, control])
          (by simp [running?, finish]) (by simp [remaining, control]) (by simp [finish])
          (by simp [finish]))
  | handlerThrew guarded err rest e control call =>
      cases guarded <;>
        exact .quiet _ _ (quiet_of_control rfl rfl rfl rfl rfl (by simp [running?, control])
          (by simp [running?, raise]) (by simp [remaining, control]) (by simp [raise])
          (by simp [raise]))
  | handlerReturned guarded err rest control call =>
      exact .quiet _ _ (quiet_of_control rfl rfl rfl rfl rfl (by simp [running?, control])
        (by simp [running?]) (by simp [remaining, control]) (by simp) (by simp))
  | delivered mail rest control mailbox => exact .delivered mail rest control mailbox
  | dispatched m control owns lives => exact .dispatched m control owns lives
  | recorded mail control link => exact .recorded mail control link
  | passed mail control other =>
      refine .quiet _ _ ⟨rfl, rfl, rfl, rfl, rfl, ?_, ?_, by simp, ?_⟩
      · intro mail' link
        have apart : mail ≠ mail' := by
          rintro rfl
          rw [link] at other
          cases other
        simp [Actor.pending, running?, control, apart]
      · simp [remaining, control]
      · intro mail' held
        rcases held with running | looking
        · cases running
        · cases looking
          exact .inl control
  | message mail control =>
      rcases runMessage_cases x self mail with
        ⟨-, eq⟩ | ⟨-, ⟨guarded, m, -, eq⟩ | eq | ⟨receiver, eq⟩⟩ <;> rw [eq] <;>
        exact .quiet _ _ (quiet_of_control rfl rfl rfl rfl rfl (by simp [running?, control])
          (by simp [running?, finish]) (by simp [remaining, control]) (by simp [finish])
          (by simp [finish]))
  | exited guarded m control => exact .exited guarded m control
  | notified n guarded m control =>
      have none : ∀ k, x.remaining k = [] := by simp [remaining, control]
      rcases callHandlers_cases x toChars guarded m with ⟨-, eq⟩ | ⟨err, -, eq⟩ | ⟨e, -, eq⟩
      · rw [eq]
        exact .quiet _ _ (quiet_of_control rfl rfl rfl rfl rfl (by simp [running?, control])
          (by simp [running?, conclude, finish]) none (by simp [conclude, finish])
          (by simp [conclude, finish]))
      · rw [eq]
        exact .quiet _ _ (quiet_of_control rfl rfl rfl rfl rfl (by simp [running?, control])
          (by simp [running?]) none (by simp) (by simp))
      · rw [eq]
        cases guarded <;>
          exact .quiet _ _ (quiet_of_control rfl rfl rfl rfl rfl (by simp [running?, control])
            (by simp [running?, raise]) none (by simp [raise]) (by simp [raise]))
  | handler guarded err h rest control =>
      exact .quiet _ _ (quiet_of_control rfl rfl rfl rfl rfl (by simp [running?, control])
        (by simp [running?]) (by simp [remaining, control]) (by simp) (by simp))
  | concluded guarded err control =>
      exact .quiet _ _ (quiet_of_control rfl rfl rfl rfl rfl (by simp [running?, control])
        (by simp [running?, conclude, finish]) (by simp [remaining, control])
        (by simp [conclude, finish]) (by simp [conclude, finish]))
  | unlinked child link call skipped => exact .unlinked child link call skipped
  | spawned child link request call => exact .spawned child link request call
  | destroyed control mailbox lifetime =>
      exact .quiet _ _ (quiet_of_control rfl rfl rfl rfl rfl (by simp [running?, control])
        (by simp [running?, control]) (by simp [remaining, control]) (by simp [control])
        (by simp [control]))

end Postal

section Receives
variable (x : Actor) (b : InstanceId) (target : Handle) (mail : Mail) (d : Delivery)

@[simp] theorem receives_links : (x.receives b target mail d).links = x.links := by
  unfold Actor.receives
  split <;> rfl

@[simp] theorem receives_call : (x.receives b target mail d).call = x.call := by
  unfold Actor.receives
  split <;> rfl

@[simp] theorem receives_control : (x.receives b target mail d).control = x.control := by
  unfold Actor.receives
  split <;> rfl

@[simp] theorem receives_inShutdown :
    (x.receives b target mail d).inShutdown = x.inShutdown := by
  unfold Actor.receives
  split <;> rfl

@[simp] theorem receives_remaining (n : Nat) :
    (x.receives b target mail d).remaining n = x.remaining n := by
  simp only [remaining, receives_control]

@[simp] theorem receives_holds (mail' : Mail) :
    (x.receives b target mail d).holds mail' ↔ x.holds mail' := by
  simp only [holds, receives_control]

theorem receives_mailbox :
    (x.receives b target mail d).mailbox =
      if reaches b target d then x.mailbox ++ [mail] else x.mailbox := by
  unfold Actor.receives
  split <;> rfl

end Receives

end Thespian.Runtime
