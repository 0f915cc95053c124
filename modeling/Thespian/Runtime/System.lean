import Thespian.Runtime.Instance
import Thespian.Transition.Runs
import Mathlib.Logic.Function.Basic

/-!
The instances of a process. A step is one task of one strand up to its next call
of `queue`, or one call of the library by user code; between two steps of an
actor any steps of the others may happen. The body of `spawn` is several steps,
since its child is published before the link message is queued. A call of
`queue` is one step: the check of in_shutdown and the post to the strand.

Code that runs outside every actor, such as a timer or the main thread, sends
without a current instance and spawns without a parent. Callbacks of the I/O
objects an actor owns run on its strand and dispatch synchronously.

Every step adds one event to the trace, so a position in the trace is a time.
-/

namespace Thespian.Runtime
open Cbor

structure System where
  actors : InstanceId → Option Actor
  nextInstanceId : InstanceId
  /-- Spawned by the context and not yet scheduled. -/
  outside : List InstanceId
  trace : List Event

namespace System

def initial : System where
  actors := fun _ => none
  nextInstanceId := 1
  outside := []
  trace := []

def now (s : System) : Nat := s.trace.length

def log (s : System) (e : Event) : System := { s with trace := s.trace ++ [e] }

def set (s : System) (a : InstanceId) (x : Actor) : System :=
  { s with actors := Function.update s.actors a (some x) }

/-- The body of the PID arrays in a dead letter report. -/
def refM (s : System) (h : Handle) : Bytes :=
  let pid (id : InstanceId) (name : Bytes) : Bytes :=
    array [.string (text "PID"), .uint (UInt64.ofNat id), .string name]
  match h with
  | none => pid 0 (text "none")
  | some a =>
      match s.actors a with
      | none => pid 0 (text "none")
      | some x => if x.destroyed then pid 0 (text "none") else pid a x.name

def deadsend (s : System) (current : Handle) (m : Bytes) (sender : Handle) :
    Except DomainError Result :=
  match current.bind s.actors with
  | none => return .ok ()
  | some x => do
      if x.inShutdown then
        return .ok ()
      if (← matchBuffer m (.cons (.string (text "exit")) (.last (.type .more)))).1 then
        return .ok ()
      return .error (arrayHeader 5 ++ pushString (text "exit") ++ pushString (text "DEADSEND") ++
        m ++ s.refM sender ++ s.refM current)

/-- `instance::queue`, called while the given instance is the current one. -/
def queue (s : System) (current sender : Handle) (target : InstanceId) (m : Bytes) : Delivery :=
  match s.actors target with
  | none => .dead (s.deadsend current m sender)
  | some x => if x.inShutdown then .dead (s.deadsend current m sender) else .posted

/-- `handle::send_raw` -/
def sendRaw (s : System) (current target : Handle) (m : Bytes) : Delivery :=
  match target with
  | none => .dead (s.deadsend current m target)
  | some b =>
      match s.actors b with
      | none => .dead (s.deadsend current m target)
      | some x =>
          if x.destroyed then .dead (s.deadsend current m target)
          else s.queue current current b m

/-- The effect of a call of queue. -/
def post (s : System) (cause : Cause) (target : Handle) (mail : Mail) (d : Delivery) : System :=
  let s := s.log (.queued cause target mail d)
  match target, d with
  | some b, .posted =>
      match s.actors b with
      | some x => s.set b { x with mailbox := x.mailbox ++ [mail] }
      | none => s
  | _, _ => s

/-- The instance made by spawn, published under the next instance id. -/
def create (s : System) (caller : Handle) (link : Bool) (name : Bytes)
    (handlers : List ExitHandler) : System :=
  let s' := s.set s.nextInstanceId { name := name, exitHandlers := handlers }
  { s' with nextInstanceId := s.nextInstanceId + 1 }.log
    (.created s.nextInstanceId caller link handlers)

/-- User code holds handles of published instances only. -/
def valid (s : System) : Handle → Bool
  | none => true
  | some b => (s.actors b).isSome

end System

inductive UserAction where
  | receive (installed : Bool)
  | trap (on : Bool)
  | observeLinks (on : Bool)
  | ownIo

inductive Action where
  | send (a : InstanceId) (target : Handle) (m : Bytes)
  | link (a : InstanceId) (target : Handle)
  | spawn (a : InstanceId) (name : Bytes) (link : Bool)
  | call (a : InstanceId)
  | user (a : InstanceId) (u : UserAction)
  | returns (a : InstanceId) (outcome : Outcome)
  | handlerReturns (a : InstanceId) (thrown : Option Exception)
  | deliver (a : InstanceId)
  | dispatchSync (a : InstanceId) (m : Bytes)
  | advance (a : InstanceId)
  | destroy (a : InstanceId)
  | outsideSend (target : Handle) (m : Bytes)
  | contextSpawn (name : Bytes) (handler : Option ExitHandler)
  | schedule (child : InstanceId)

namespace Actor

def user (x : Actor) : UserAction → Actor
  | .receive installed => { x with receiver := if installed then some .installed else none }
  | .trap on => { x with trapExit := on }
  | .observeLinks on => { x with observeLinks := on }
  | .ownIo => { x with ownsIo := true }

end Actor

section Step
variable (toChars : Float → Bytes)

/-- The next part of the library call a is inside of. -/
def stepCall (s : System) (a : InstanceId) (x : Actor) : Option System :=
  match x.call with
  | .none => none
  | .spawn child link .created =>
      if link ∧ x.lifetime then
        let d := s.queue (some a) (some a) child linkMsg
        let call : Call := if d.isOk then .spawn child link (.linked (some s.now)) else .none
        some ((s.set a { x with call := call }).post .spawnLink (some child)
          ⟨some a, linkMsg, s.now⟩ d)
      else
        some ((s.set a { x with call := .spawn child link (.linked none) }).log
          (.internal (some a)))
  | .spawn child link (.linked request) =>
      let d := s.queue (some a) none child nullValue
      let call : Call := if d.isOk then .spawn child link (.scheduled request) else .none
      some ((s.set a { x with call := call }).post .schedule (some child)
        ⟨none, nullValue, s.now⟩ d)
  | .spawn child link (.scheduled request) =>
      let links := if link then ⟨some child, request, .caller⟩ :: x.links else x.links
      some ((s.set a { x with links := links, call := .none }).log
        (.spawned a child link request))

/-- The next part of run and handle_exit on the strand of a. -/
def stepAdvance (s : System) (a : InstanceId) (x : Actor) : Option System :=
  match x.control with
  | .running mail =>
      if isLinkMsg mail.body then
        some ((s.set a (x.runLink mail)).log
          (.linked a ⟨mail.sender, some mail.serial, .callee⟩))
      else some ((s.set a { x with control := .checking mail }).log (.internal (some a)))
  | .checking mail =>
      let (x, e) := x.runMessage a mail
      some ((s.set a x).log e)
  | .exits guarded m => some ((s.set a (x.handleExit s.now guarded m)).log (.exit a m x.links))
  | .notifying n guarded m (l :: rest) =>
      let d := s.sendRaw (some a) l.peer m
      some ((s.set a { x with control := .notifying n guarded m rest }).post (.notice n l) l.peer
        ⟨some a, m, s.now⟩ d)
  | .notifying _ guarded m [] =>
      some ((s.set a (x.callHandlers toChars guarded m)).log (.internal (some a)))
  | .handlers guarded err (h :: rest) =>
      some ((s.set a { x with control := .handler guarded err rest }).log (.exitHandler a h err))
  | .handlers _ _ [] => some ((s.set a x.conclude).log (.internal (some a)))
  | .idle | .receiving | .handler _ _ _ | .escaped => none

def step (s : System) : Action → Option System
  | .send a target m => do
      let x ← s.actors a
      if x.free ∧ s.valid target then
        some ((s.set a x).post .send target ⟨some a, m, s.now⟩ (s.sendRaw (some a) target m))
      else none
  | .link a target => do
      let x ← s.actors a
      if x.free ∧ s.valid target then
        let d := s.sendRaw (some a) target linkMsg
        let links := if d.isOk then ⟨target, some s.now, .caller⟩ :: x.links else x.links
        some ((s.set a { x with links := links }).post .link target ⟨some a, linkMsg, s.now⟩ d)
      else none
  | .spawn a name link => do
      let x ← s.actors a
      if x.free then
        some ((s.set a { x with call := .spawn s.nextInstanceId link .created }).create (some a)
          link name [])
      else none
  | .call a => do stepCall s a (← s.actors a)
  | .user a u => do
      let x ← s.actors a
      if x.free then some ((s.set a (x.user u)).log (.internal (some a))) else none
  | .returns a outcome => do
      let x ← s.actors a
      match x.control, x.call with
      | .receiving, .none => some ((s.set a (x.returned outcome)).log (.internal (some a)))
      | _, _ => none
  | .handlerReturns a thrown => do
      let x ← s.actors a
      match x.control, x.call with
      | .handler guarded err rest, .none =>
          let x := match thrown with
            | some e => x.raise guarded e
            | none => { x with control := .handlers guarded err rest }
          some ((s.set a x).log (.internal (some a)))
      | _, _ => none
  | .deliver a => do
      let x ← s.actors a
      match x.control, x.mailbox with
      | .idle, mail :: rest =>
          some ((s.set a { x with mailbox := rest, control := .running mail }).log (.ran a mail))
      | _, _ => none
  | .dispatchSync a m => do
      let x ← s.actors a
      match x.control with
      | .idle =>
          if x.ownsIo ∧ !x.inShutdown then
            let mail : Mail := ⟨none, m, s.now⟩
            some ((s.set a { x with control := .running mail }).log (.ran a mail))
          else none
      | _ => none
  | .advance a => do stepAdvance toChars s a (← s.actors a)
  | .destroy a => do
      let x ← s.actors a
      match x.control, x.mailbox with
      | .idle, [] =>
          if x.lifetime then none
          else some ((s.set a { x with destroyed := true }).log (.internal (some a)))
      | _, _ => none
  | .outsideSend target m =>
      if s.valid target then
        some (s.post .send target ⟨none, m, s.now⟩ (s.sendRaw none target m))
      else none
  | .contextSpawn name handler =>
      let s' := s.create none false name handler.toList
      some { s' with outside := s.nextInstanceId :: s'.outside }
  | .schedule child =>
      if child ∈ s.outside then
        some (({ s with outside := s.outside.erase child } : System).post .schedule (some child)
          ⟨none, nullValue, s.now⟩ (s.queue none none child nullValue))
      else none

end Step

end Thespian.Runtime
