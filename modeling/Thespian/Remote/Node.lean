import Thespian.Remote.Matching
import Thespian.Runtime.Instance
import Mathlib.Logic.Function.Basic

/-!
The actors of one process with a remote endpoint: user actors, the endpoint and
the proxies it has spawned. A turn of an actor is one step, with everything its
receiver does in it, for only the mailboxes are shared. A proxy is started by its
first message, which nothing can precede, and is taken as started when it is made.
The endpoint stands for endpoint_common; what a transport does with messages of
its own is not part of it.

The record of what an actor was handed, the routes of mails and the lists of
frames encoded and dispatched are not in the source.
-/

namespace Thespian.Remote
open Cbor Zig

/-- `piid`; zero is that of an empty handle. -/
abbrev InstanceId := UInt64

abbrev Handle := Option InstanceId

def handleId : Handle → InstanceId
  | some a => a
  | none => 0

/-- How a mail came to its mailbox: by a send of its sender's own, or as the payload
of a frame that names the target by id or by name. -/
inductive Route where
  | own
  | byId
  | byName
deriving DecidableEq

structure Mail where
  sender : Handle
  body : Bytes
  route : Route := .own
deriving DecidableEq

inductive Kind where
  | user (trap : Bool)
  | endpoint
  | proxy (remoteId : Rpiid)
deriving DecidableEq

/-- An actor in shutdown is destroyed once its mailbox is empty. -/
inductive Status where
  | alive
  | exiting
  | destroyed
deriving DecidableEq

structure Actor where
  name : Bytes
  kind : Kind
  status : Status := .alive
  links : List Handle := []
  mailbox : List Mail := []
  received : List Mail := []
deriving DecidableEq

structure Node where
  actors : InstanceId → Option Actor
  /-- `next_instance_id` -/
  next : Nat
  endpoint : InstanceId
  /-- The env of the endpoint, which its proxies inherit. -/
  procs : Bytes → Handle
  remoteProxies : List (Rpiid × InstanceId) := []
  accumulator : Bytes := []
  outgoing : Bytes := []
  deinited : Bool := false
  crashed : Bool := false
  framesOut : List ProtocolMessage := []
  framesIn : List ProtocolMessage := []

/-- What the modules use from outside the repository. -/
structure Externals (ε : Type) where
  cbor : Package ε
  errorName : ε → Bytes
  /-- `cbor.toJson` into a buffer of the given size, or the name of its error. -/
  toJson : Nat → Bytes → Except Bytes Bytes

/-- What a call leaves behind, and how it failed if it did. -/
abbrev Outcome := Node × Option Failure

namespace Node

def update (n : Node) (a : InstanceId) (f : Actor → Actor) : Node :=
  { n with actors := Function.update n.actors a ((n.actors a).map f) }

def status (n : Node) (h : Handle) : Option Status := (h.bind n.actors).map Actor.status

def isAlive (n : Node) (a : InstanceId) : Bool := n.status (some a) = some .alive

/-- The PID arrays in a dead letter report. -/
def refM (n : Node) (h : Handle) : Bytes :=
  let pid (id : InstanceId) (name : Bytes) : Bytes :=
    array [.string (text "PID"), .uint id, .string name]
  match h, h.bind n.actors with
  | some a, some x => if x.status = .destroyed then pid 0 (text "none") else pid a x.name
  | _, _ => pid 0 (text "none")

def deadsend (n : Node) (current : Handle) (m : Bytes) (sender : Handle) : Option Failure :=
  if n.status current = some .alive then
    match matchBuffer m (.cons (.string (text "exit")) (.last (.type .more))) with
    | .error e => some (.exception e)
    | .ok (true, _) => none
    | .ok (false, _) =>
        some (.exit (arrayHeader 5 ++ pushString (text "exit") ++ pushString (text "DEADSEND") ++
          m ++ n.refM sender ++ n.refM current))
  else none

def post (n : Node) (b : InstanceId) (mail : Mail) : Node :=
  n.update b fun x => { x with mailbox := x.mailbox ++ [mail] }

/-- `handle::send_raw`, called while the given actor is the current one. -/
def sendRaw (n : Node) (current target : Handle) (m : Bytes) (route : Route) : Outcome :=
  match target, n.status target with
  | some b, some .alive => (n.post b ⟨current, m, route⟩, none)
  | _, some .exiting => (n, n.deadsend current m current)
  | _, _ => (n, n.deadsend current m target)

/-- `pid.from_id` -/
def fromId (n : Node) (id : InstanceId) : Option InstanceId :=
  match n.status (some id) with
  | some .alive | some .exiting => some id
  | _ => none

/-- `instance::link`, whose error the C interface drops. -/
def link (n : Node) (a : InstanceId) (target : Handle) : Node :=
  match n.sendRaw (some a) target Runtime.linkMsg .own with
  | (n, none) => n.update a fun x => { x with links := target :: x.links }
  | (n, some _) => n

/-- `instance::handle_exit` -/
def handleExit (n : Node) (a : InstanceId) (m : Bytes) : Node :=
  match n.actors a with
  | none => n
  | some x =>
      x.links.foldl (fun n h => (n.sendRaw (some a) h m .own).1)
        (n.update a fun x => { x with status := .exiting })

/-- The receiver returns an error, or the process comes to its end. -/
def fail (n : Node) (a : InstanceId) : Failure → Node
  | .exit m => n.handleExit a m
  | .reachedUnreachable | .outOfBounds | .exception _ => { n with crashed := true }

def nextId (n : Node) : InstanceId := UInt64.ofNat n.next

/-- `instance::spawn`, unlinked. -/
def spawn (n : Node) (name : Bytes) (kind : Kind) : Node :=
  { n with
    actors := Function.update n.actors n.nextId (some { name := name, kind := kind })
    next := n.next + 1 }

end Node

namespace Node
variable {n : Node} {a b : InstanceId} {f : Actor → Actor} {x : Actor}

@[simp] theorem actors_update_self : (n.update a f).actors a = (n.actors a).map f := by
  simp [update]

@[simp] theorem actors_update_of_ne (other : b ≠ a) : (n.update a f).actors b = n.actors b := by
  simp [update, other]

theorem actors_update_of_some (h : n.actors a = some x) : (n.update a f).actors a = some (f x) := by
  rw [actors_update_self, h]
  rfl

@[simp] theorem update_endpoint : (n.update a f).endpoint = n.endpoint := rfl

@[simp] theorem update_procs : (n.update a f).procs = n.procs := rfl

@[simp] theorem update_next : (n.update a f).next = n.next := rfl

@[simp] theorem update_remoteProxies : (n.update a f).remoteProxies = n.remoteProxies := rfl

@[simp] theorem update_crashed : (n.update a f).crashed = n.crashed := rfl

theorem isAlive_iff : n.isAlive a = true ↔ ∃ x, n.actors a = some x ∧ x.status = .alive := by
  simp [isAlive, status]

theorem isAlive_congr {n' : Node} (h : n'.actors a = n.actors a) : n'.isAlive a = n.isAlive a := by
  simp [isAlive, status, h]

theorem status_of_some (h : n.actors a = some x) : n.status (some a) = some x.status := by
  simp [status, h]

/-- A message is posted to an actor that is alive, and otherwise nothing is changed. -/
theorem sendRaw_of_alive (h : n.actors b = some x) (alive : x.status = .alive) (current : Handle)
    (m : Bytes) (route : Route) :
    n.sendRaw current (some b) m route = (n.post b ⟨current, m, route⟩, none) := by
  simp [sendRaw, status_of_some h, alive]

theorem sendRaw_of_not_alive {target : Handle} (dead : n.status target ≠ some .alive)
    (current : Handle) (m : Bytes) (route : Route) :
    ∃ sender, n.sendRaw current target m route = (n, n.deadsend current m sender) := by
  unfold sendRaw
  split
  · rename_i alive
    exact absurd alive dead
  · exact ⟨_, rfl⟩
  · exact ⟨_, rfl⟩

theorem sendRaw_cases (n : Node) (current target : Handle) (m : Bytes) (route : Route) :
    (∃ b x, target = some b ∧ n.actors b = some x ∧ x.status = .alive ∧
      n.sendRaw current target m route = (n.post b ⟨current, m, route⟩, none)) ∨
    (n.status target ≠ some .alive ∧
      ∃ sender, n.sendRaw current target m route = (n, n.deadsend current m sender)) := by
  by_cases alive : n.status target = some .alive
  · obtain ⟨x, found, status⟩ := Option.map_eq_some_iff.mp alive
    obtain ⟨b, rfl, known⟩ := Option.bind_eq_some_iff.mp found
    exact .inl ⟨b, x, rfl, known, status, sendRaw_of_alive known status current m route⟩
  · exact .inr ⟨alive, sendRaw_of_not_alive alive current m route⟩

end Node

section Errors
variable {ε : Type} (ext : Externals ε)

def maxMessageSize : Nat := 8 * 4096

/-- `tp.unexpected` -/
def unexpected (m : Bytes) : Failure :=
  let txt := text "UNEXPECTED_MESSAGE: "
  match ext.toJson (maxMessageSize - txt.length) m with
  | .error e => exitError ext.cbor e
  | .ok json => .exit (ext.cbor.writeValue (.tuple [.string (text "exit"), .string (txt ++ json)]))

end Errors

end Thespian.Remote
