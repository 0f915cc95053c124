import Thespian.Runtime.System

/-!
What a step can do, said once. A step is a move of one actor, a call of queue,
or the creation of an instance; every invariant of the runtime is proved on
these forms and not on the step function.
-/

namespace Thespian.Runtime
open Cbor Actor

section Functions
variable (x : Actor)

/-- The messages run makes an actor exit with by itself. -/
inductive OwnExit : Bytes → Prop
  | noreceive : OwnExit exitNoreceiveMsg
  | unhandled (e : Exception) : OwnExit e.exitMessage

theorem raise_guarded (e : Exception) :
    x.raise true e = { x with control := .exits false e.exitMessage } := rfl

theorem raise_unguarded (e : Exception) : x.raise false e = { x with control := .escaped } := rfl

section RunLink
variable (mail : Mail)

@[simp] theorem runLink_links :
    (x.runLink mail).links = ⟨mail.sender, some mail.serial, .callee⟩ :: x.links := by
  unfold runLink
  dsimp only
  split <;> rfl

@[simp] theorem runLink_mailbox : (x.runLink mail).mailbox = x.mailbox := by
  unfold runLink
  dsimp only
  split <;> rfl

@[simp] theorem runLink_call : (x.runLink mail).call = x.call := by
  unfold runLink
  dsimp only
  split <;> rfl

@[simp] theorem runLink_inShutdown : (x.runLink mail).inShutdown = x.inShutdown := by
  unfold runLink
  dsimp only
  split <;> rfl

@[simp] theorem runLink_exitHandlers : (x.runLink mail).exitHandlers = x.exitHandlers := by
  unfold runLink
  dsimp only
  split <;> rfl

theorem runLink_control :
    (x.runLink mail).control = .checking mail ∨ (x.runLink mail).control = .idle := by
  unfold runLink
  dsimp only
  split
  · exact .inl rfl
  · exact .inr rfl

end RunLink

theorem runMessage_cases (self : InstanceId) (mail : Mail) :
    (x.inShutdown = true ∧
      x.runMessage self mail = ({ x with control := .idle }, .internal (some self))) ∨
    (x.inShutdown = false ∧
      ((∃ guarded m, (m = mail.body ∨ OwnExit m) ∧
          x.runMessage self mail =
            ({ x with control := .exits guarded m }, .internal (some self))) ∨
        x.runMessage self mail = (x.finish, .internal (some self)) ∨
        ∃ receiver, x.runMessage self mail =
          ({ x with receiver := receiver, control := .receiving }, .received self mail))) := by
  by_cases shutdown : x.inShutdown = true
  · exact .inl ⟨shutdown, if_pos shutdown⟩
  · refine .inr ⟨by simpa using shutdown, ?_⟩
    rw [Actor.runMessage, if_neg shutdown]
    dsimp only
    split
    · split
      · exact .inl ⟨false, _, .inr (.unhandled badFunctionCall), rfl⟩
      · exact .inr (.inr ⟨none, rfl⟩)
      · exact .inr (.inr ⟨_, rfl⟩)
    · split
      · exact .inl ⟨false, _, .inr (.unhandled _), rfl⟩
      · split
        · exact .inr (.inl rfl)
        · exact .inl ⟨true, _, .inl rfl, rfl⟩
      · split
        · exact .inl ⟨false, _, .inr (.unhandled badFunctionCall), rfl⟩
        · exact .inr (.inr ⟨none, rfl⟩)
        · exact .inr (.inr ⟨_, rfl⟩)

theorem returned_cases (o : Outcome) :
    x.returned o = x.finish ∨
    ∃ guarded m, (o = .returns (.error m) ∨ OwnExit m) ∧
      x.returned o = { x with control := .exits guarded m } := by
  unfold Actor.returned
  split
  · split
    · exact .inr ⟨true, _, .inr .noreceive, rfl⟩
    · exact .inl rfl
  · exact .inr ⟨true, _, .inl rfl, rfl⟩
  · exact .inr ⟨false, _, .inr (.unhandled _), rfl⟩

theorem callHandlers_cases (toChars : Float → Bytes) (guarded : Bool) (m : Bytes) :
    x.exitHandlers = [] ∧ x.callHandlers toChars guarded m = x.conclude ∨
    (∃ err, exitReason toChars m = .ok err ∧ x.callHandlers toChars guarded m =
      { x with exitHandlers := [], control := .handlers guarded err x.exitHandlers }) ∨
    ∃ e, exitReason toChars m = .error e ∧ x.callHandlers toChars guarded m =
      Actor.raise { x with exitHandlers := [] } guarded (.std e.what) := by
  unfold Actor.callHandlers
  split
  · exact .inl ⟨‹_›, rfl⟩
  · dsimp only
    split
    · exact .inr (.inl ⟨_, ‹_›, rfl⟩)
    · exact .inr (.inr ⟨_, ‹_›, rfl⟩)

end Functions

section Local
variable (toChars : Float → Bytes)

/-- The moves an actor makes on its own. -/
inductive Local (self : InstanceId) (now : Nat) (x : Actor) : Action → Event → Actor → Prop
  | user (u : UserAction) (free : x.free = true) :
      Local self now x (.user self u) (.internal (some self)) (x.user u)
  | returned (o : Outcome) (control : x.control = .receiving) (call : x.call = .none) :
      Local self now x (.returns self o) (.internal (some self)) (x.returned o)
  | handlerThrew (guarded : Bool) (err : Bytes) (rest : List ExitHandler) (e : Exception)
      (control : x.control = .handler guarded err rest) (call : x.call = .none) :
      Local self now x (.handlerReturns self (some e)) (.internal (some self)) (x.raise guarded e)
  | handlerReturned (guarded : Bool) (err : Bytes) (rest : List ExitHandler)
      (control : x.control = .handler guarded err rest) (call : x.call = .none) :
      Local self now x (.handlerReturns self none) (.internal (some self))
        { x with control := .handlers guarded err rest }
  | delivered (mail : Mail) (rest : List Mail) (control : x.control = .idle)
      (mailbox : x.mailbox = mail :: rest) :
      Local self now x (.deliver self) (.ran self mail)
        { x with mailbox := rest, control := .running mail }
  | dispatched (m : Bytes) (control : x.control = .idle) (owns : x.ownsIo = true)
      (lives : x.inShutdown = false) :
      Local self now x (.dispatchSync self m) (.ran self ⟨none, m, now⟩)
        { x with control := .running ⟨none, m, now⟩ }
  | recorded (mail : Mail) (control : x.control = .running mail)
      (link : isLinkMsg mail.body = true) :
      Local self now x (.advance self) (.linked self ⟨mail.sender, some mail.serial, .callee⟩)
        (x.runLink mail)
  | passed (mail : Mail) (control : x.control = .running mail)
      (other : isLinkMsg mail.body = false) :
      Local self now x (.advance self) (.internal (some self)) { x with control := .checking mail }
  | message (mail : Mail) (control : x.control = .checking mail) :
      Local self now x (.advance self) (x.runMessage self mail).2 (x.runMessage self mail).1
  | exited (guarded : Bool) (m : Bytes) (control : x.control = .exits guarded m) :
      Local self now x (.advance self) (.exit self m x.links) (x.handleExit now guarded m)
  | notified (n : Nat) (guarded : Bool) (m : Bytes)
      (control : x.control = .notifying n guarded m []) :
      Local self now x (.advance self) (.internal (some self)) (x.callHandlers toChars guarded m)
  | handler (guarded : Bool) (err : Bytes) (h : ExitHandler) (rest : List ExitHandler)
      (control : x.control = .handlers guarded err (h :: rest)) :
      Local self now x (.advance self) (.exitHandler self h err)
        { x with control := .handler guarded err rest }
  | concluded (guarded : Bool) (err : Bytes) (control : x.control = .handlers guarded err []) :
      Local self now x (.advance self) (.internal (some self)) x.conclude
  | unlinked (child : InstanceId) (link : Bool) (call : x.call = .spawn child link .created)
      (skipped : ¬ (link = true ∧ x.lifetime = true)) :
      Local self now x (.call self) (.internal (some self))
        { x with call := .spawn child link (.linked none) }
  | spawned (child : InstanceId) (link : Bool) (request : Option Nat)
      (call : x.call = .spawn child link (.scheduled request)) :
      Local self now x (.call self) (.spawned self child link request)
        { x with
          links := if link then ⟨some child, request, .caller⟩ :: x.links else x.links
          call := .none }
  | destroyed (control : x.control = .idle) (mailbox : x.mailbox = [])
      (lifetime : x.lifetime = false) :
      Local self now x (.destroy self) (.internal (some self)) { x with destroyed := true }

/-- The calls of queue made on the thread of an actor. -/
inductive Calls (s : System) (self : InstanceId) (x : Actor) :
    Action → Cause → Handle → Mail → Delivery → Actor → Prop
  | send (target : Handle) (m : Bytes) (free : x.free = true) (valid : s.valid target = true) :
      Calls s self x (.send self target m) .send target ⟨some self, m, s.now⟩
        (s.sendRaw (some self) target m) x
  | link (target : Handle) (free : x.free = true) (valid : s.valid target = true) :
      Calls s self x (.link self target) .link target ⟨some self, linkMsg, s.now⟩
        (s.sendRaw (some self) target linkMsg)
        { x with
          links := if (s.sendRaw (some self) target linkMsg).isOk then
              ⟨target, some s.now, .caller⟩ :: x.links
            else x.links }
  | spawnLink (child : InstanceId) (call : x.call = .spawn child true .created)
      (lifetime : x.lifetime = true) :
      Calls s self x (.call self) .spawnLink (some child) ⟨some self, linkMsg, s.now⟩
        (s.queue (some self) (some self) child linkMsg)
        { x with
          call := if (s.queue (some self) (some self) child linkMsg).isOk then
              .spawn child true (.linked (some s.now))
            else .none }
  | schedule (child : InstanceId) (link : Bool) (request : Option Nat)
      (call : x.call = .spawn child link (.linked request)) :
      Calls s self x (.call self) .schedule (some child) ⟨none, nullValue, s.now⟩
        (s.queue (some self) none child nullValue)
        { x with
          call := if (s.queue (some self) none child nullValue).isOk then
              .spawn child link (.scheduled request)
            else .none }
  | notice (n : Nat) (guarded : Bool) (m : Bytes) (l : Link) (rest : List Link)
      (control : x.control = .notifying n guarded m (l :: rest)) :
      Calls s self x (.advance self) (.notice n l) l.peer ⟨some self, m, s.now⟩
        (s.sendRaw (some self) l.peer m) { x with control := .notifying n guarded m rest }

/-- The steps of the system. -/
inductive Step (s : System) : Action → System → Prop
  | act (self : InstanceId) (x x' : Actor) (act : Action) (e : Event)
      (hx : s.actors self = some x) (move : Local toChars self s.now x act e x') :
      Step s act ((s.set self x').log e)
  | call (self : InstanceId) (x x' : Actor) (act : Action) (cause : Cause) (target : Handle)
      (mail : Mail) (d : Delivery) (hx : s.actors self = some x)
      (move : Calls s self x act cause target mail d x') :
      Step s act ((s.set self x').post cause target mail d)
  | spawn (self : InstanceId) (x : Actor) (name : Bytes) (link : Bool)
      (hx : s.actors self = some x) (free : x.free = true) :
      Step s (.spawn self name link)
        ((s.set self { x with call := .spawn s.nextInstanceId link .created }).create (some self)
          link name [])
  | outsideSend (target : Handle) (m : Bytes) (valid : s.valid target = true) :
      Step s (.outsideSend target m)
        (s.post .send target ⟨none, m, s.now⟩ (s.sendRaw none target m))
  | contextSpawn (name : Bytes) (handler : Option ExitHandler) :
      Step s (.contextSpawn name handler)
        { s.create none false name handler.toList with
          outside := s.nextInstanceId :: s.outside }
  | schedule (child : InstanceId) (waiting : child ∈ s.outside) :
      Step s (.schedule child)
        (({ s with outside := s.outside.erase child } : System).post .schedule (some child)
          ⟨none, nullValue, s.now⟩ (s.queue none none child nullValue))

variable {toChars} {s s' : System}

theorem step_call {a : InstanceId} {x : Actor} (hx : s.actors a = some x)
    (h : stepCall s a x = some s') : Step toChars s (.call a) s' := by
  unfold stepCall at h
  split at h
  · cases h
  · rename_i child link call
    split at h
    · rename_i both
      obtain ⟨rfl, lifetime⟩ := both
      cases h
      exact .call a x _ _ _ _ _ _ hx (.spawnLink child call lifetime)
    · rename_i skipped
      cases h
      exact .act a x _ _ _ hx (.unlinked child link call skipped)
  · rename_i child link request call
    cases h
    exact .call a x _ _ _ _ _ _ hx (.schedule child link request call)
  · rename_i child link request call
    cases h
    exact .act a x _ _ _ hx (.spawned child link request call)

theorem step_advance {a : InstanceId} {x : Actor} (hx : s.actors a = some x)
    (h : stepAdvance toChars s a x = some s') : Step toChars s (.advance a) s' := by
  unfold stepAdvance at h
  split at h
  · rename_i mail control
    split at h
    · rename_i link
      cases h
      exact .act a x _ _ _ hx (.recorded mail control link)
    · rename_i other
      cases h
      exact .act a x _ _ _ hx (.passed mail control (by simpa using other))
  · rename_i mail control
    cases h
    exact .act a x _ _ _ hx (.message mail control)
  · rename_i guarded m control
    cases h
    exact .act a x _ _ _ hx (.exited guarded m control)
  · rename_i n guarded m l rest control
    cases h
    exact .call a x _ _ _ _ _ _ hx (.notice n guarded m l rest control)
  · rename_i n guarded m control
    cases h
    exact .act a x _ _ _ hx (.notified n guarded m control)
  · rename_i guarded err h' rest control
    cases h
    exact .act a x _ _ _ hx (.handler guarded err h' rest control)
  · rename_i guarded err control
    cases h
    exact .act a x _ _ _ hx (.concluded guarded err control)
  all_goals cases h

/-- The step function takes only the steps described above. -/
theorem step_sound {act : Action} (h : step toChars s act = some s') : Step toChars s act s' := by
  cases act with
  | outsideSend target m =>
      simp only [step] at h
      split at h
      · cases h
        exact .outsideSend target m ‹_›
      · cases h
  | contextSpawn name handler =>
      cases h
      exact .contextSpawn name handler
  | schedule child =>
      simp only [step] at h
      split at h
      · cases h
        exact .schedule child ‹_›
      · cases h
  | call a =>
      obtain ⟨x, hx, h⟩ := Option.bind_eq_some_iff.mp h
      exact step_call hx h
  | advance a =>
      obtain ⟨x, hx, h⟩ := Option.bind_eq_some_iff.mp h
      exact step_advance hx h
  | send a target m =>
      obtain ⟨x, hx, h⟩ := Option.bind_eq_some_iff.mp h
      split at h
      · rename_i enabled
        cases h
        exact .call a x _ _ _ _ _ _ hx (.send target m enabled.1 enabled.2)
      · cases h
  | link a target =>
      obtain ⟨x, hx, h⟩ := Option.bind_eq_some_iff.mp h
      split at h
      · rename_i enabled
        cases h
        exact .call a x _ _ _ _ _ _ hx (.link target enabled.1 enabled.2)
      · cases h
  | spawn a name link =>
      obtain ⟨x, hx, h⟩ := Option.bind_eq_some_iff.mp h
      split at h
      · rename_i free
        cases h
        exact .spawn a x name link hx free
      · cases h
  | user a u =>
      obtain ⟨x, hx, h⟩ := Option.bind_eq_some_iff.mp h
      split at h
      · rename_i free
        cases h
        exact .act a x _ _ _ hx (.user u free)
      · cases h
  | returns a outcome =>
      obtain ⟨x, hx, h⟩ := Option.bind_eq_some_iff.mp h
      split at h
      · rename_i control call
        cases h
        exact .act a x _ _ _ hx (.returned outcome control call)
      · cases h
  | handlerReturns a thrown =>
      obtain ⟨x, hx, h⟩ := Option.bind_eq_some_iff.mp h
      split at h
      · rename_i guarded err rest control call
        cases thrown with
        | none =>
            cases h
            exact .act a x _ _ _ hx (.handlerReturned guarded err rest control call)
        | some e =>
            cases h
            exact .act a x _ _ _ hx (.handlerThrew guarded err rest e control call)
      · cases h
  | deliver a =>
      obtain ⟨x, hx, h⟩ := Option.bind_eq_some_iff.mp h
      split at h
      · rename_i mail rest control mailbox
        cases h
        exact .act a x _ _ _ hx (.delivered mail rest control mailbox)
      · cases h
  | dispatchSync a m =>
      obtain ⟨x, hx, h⟩ := Option.bind_eq_some_iff.mp h
      split at h
      · rename_i control
        split at h
        · rename_i enabled
          cases h
          exact .act a x _ _ _ hx (.dispatched m control enabled.1 (by simpa using enabled.2))
        · cases h
      · cases h
  | destroy a =>
      obtain ⟨x, hx, h⟩ := Option.bind_eq_some_iff.mp h
      split at h
      · rename_i control mailbox
        split at h
        · cases h
        · rename_i lifetime
          cases h
          exact .act a x _ _ _ hx (.destroyed control mailbox (by simpa using lifetime))
      · cases h

end Local

end Thespian.Runtime
