import Thespian.Remote.Proxy
import Thespian.Transition.Runs

/-!
The steps of a node. A user actor may send any message to anybody, link, return an
error, or make another actor; its own receiver is not modelled beyond what the
runtime does with exit messages. The endpoint is handed bytes in chunks, and may be
ended by its transport at any time; its receiver is dropped some time after.

A process does not live to make 2^64 actors, so ids are not reused.
-/

namespace Thespian.Remote
open Cbor Zig Transition

namespace Node
variable {ε : Type} (ext : Externals ε)

def settle (a : InstanceId) : Outcome → Node
  | (n, none) => n
  | (n, some f) => n.fail a f

/-- `set_trap` and `set_observe_links` of the three kinds. -/
def traps : Kind → Bool
  | .user trap => trap
  | .endpoint | .proxy _ => true

def observesLinks : Kind → Bool
  | .proxy _ => true
  | .user _ | .endpoint => false

/-- The receiver of the actor. -/
def receive (n : Node) (a : InstanceId) (kind : Kind) (mail : Mail) : Outcome :=
  match kind with
  | .user _ => (n, none)
  | .endpoint => endpointReceive ext n mail.body
  | .proxy remoteId => proxyReceive ext n a remoteId mail

/-- `instance::run` -/
def runMail (n : Node) (a : InstanceId) (x : Actor) (mail : Mail) : Node :=
  let isLink := Runtime.isLinkMsg mail.body
  let n := if isLink then n.update a fun x => { x with links := mail.sender :: x.links } else n
  if isLink && !observesLinks x.kind then n
  else if x.status ≠ .alive then n
  else if traps x.kind then settle a (n.receive ext a x.kind mail)
  else match Runtime.isExitMsg mail.body with
    | .error e => n.handleExit a (Runtime.Exception.std e.what).exitMessage
    | .ok true => if mail.body ≠ Runtime.exitNormalMsg then n.handleExit a mail.body else n
    | .ok false => settle a (n.receive ext a x.kind mail)

/-- The mail at the head of the mailbox is taken. -/
def take (n : Node) (a : InstanceId) : Node :=
  n.update a fun x =>
    { x with mailbox := x.mailbox.tail, received := x.received ++ x.mailbox.take 1 }

def turn (n : Node) (a : InstanceId) : Option Node :=
  match n.actors a with
  | none => none
  | some x =>
      match x.mailbox with
      | [] => none
      | mail :: _ => some ((n.take a).runMail ext a x mail)

def isUser (n : Node) (a : InstanceId) : Bool :=
  match n.actors a with
  | some x => match x.kind, x.status with
      | .user _, .alive => true
      | _, _ => false
  | none => false

end Node

inductive Action where
  | spawn (name : Bytes) (trap : Bool)
  | send (a : InstanceId) (target : Handle) (m : Bytes)
  | link (a : InstanceId) (target : Handle)
  | quit (a : InstanceId) (m : Bytes)
  | turn (a : InstanceId)
  | destroy (a : InstanceId)
  | arrive (bytes : Bytes)
  | stop (m : Bytes)
  | deinit

namespace Node
variable {ε : Type} (ext : Externals ε)

/-- What an action does where it is possible. -/
def perform (n : Node) : Action → Option Node
  | .spawn name trap => some (n.spawn name (.user trap))
  | .send a target m => if n.isUser a then some (n.sendRaw (some a) target m .own).1 else none
  | .link a target => if n.isUser a then some (n.link a target) else none
  | .quit a m => if n.isUser a then some (n.handleExit a m) else none
  | .turn a => n.turn ext a
  | .destroy a =>
      match n.actors a with
      | some x =>
          if x.status = .exiting ∧ x.mailbox = [] then
            some (n.update a fun x => { x with status := .destroyed })
          else none
      | none => none
  | .arrive bytes =>
      if n.isAlive n.endpoint then some (settle n.endpoint (feedNode ext n bytes)) else none
  | .stop m => if n.isAlive n.endpoint then some (n.handleExit n.endpoint m) else none
  | .deinit => if n.isAlive n.endpoint || n.deinited then none else some (Remote.deinit ext n)

def step (n : Node) (act : Action) : Option Node :=
  if n.crashed then none else (n.perform ext act).filter fun n => n.next < 2 ^ 64

/-- A process with an endpoint and the given names. -/
def start (procs : Bytes → Handle) : Node where
  actors := fun a => if a = 1 then some { name := text "endpoint", kind := .endpoint } else none
  next := 2
  endpoint := 1
  procs := procs

end Node

/-- Before the first step: the endpoint, and user actors that have done nothing. -/
structure Initial (n : Node) : Prop where
  endpoint : ∃ name, n.actors n.endpoint = some { name := name, kind := .endpoint }
  others : ∀ a x, n.actors a = some x → a ≠ n.endpoint →
    ∃ name trap, x = { name := name, kind := .user trap }
  bound : ∀ a x, n.actors a = some x → 0 < a.toNat ∧ a.toNat < n.next
  remoteProxies : n.remoteProxies = []
  accumulator : n.accumulator = []
  outgoing : n.outgoing = []
  deinited : n.deinited = false
  framesOut : n.framesOut = []
  framesIn : n.framesIn = []

theorem start_initial (procs : Bytes → Handle) : Initial (Node.start procs) where
  endpoint := ⟨text "endpoint", rfl⟩
  others := by
    intro a x known other
    have same : a ≠ 1 := other
    simp [Node.start, same] at known
  bound := by
    intro a x known
    by_cases same : a = 1
    · subst same
      have small : (1 : UInt64).toNat < 2 := by decide
      exact ⟨by decide, small⟩
    · simp [Node.start, same] at known
  remoteProxies := rfl
  accumulator := rfl
  outgoing := rfl
  deinited := rfl
  framesOut := rfl
  framesIn := rfl

end Thespian.Remote
