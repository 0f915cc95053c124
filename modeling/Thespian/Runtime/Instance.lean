import Thespian.Cbor.Match
import Thespian.Cbor.ToJson

/-!
An actor instance. Its strand runs one task at a time, so what the instance is
doing is a value: the control says where in `run` and `handle_exit` its thread
stands, the call which library function its user code is inside of. Receivers,
behaviours and exit handlers are user code and may do anything the library
offers; only whether a receiver is installed is part of the state.

Trace channels, debug taps and the synchronous receiver are left out: nothing
here reads them. The serial number of a mail and the identity of a link entry
are not in the source; they say which call a message or an entry comes from.
-/

namespace Thespian.Runtime
open Cbor

abbrev InstanceId := Nat

/-- A weak reference to an instance, or an empty handle. -/
abbrev Handle := Option InstanceId

abbrev ExitHandler := Nat

/-- `expected<void, error>` -/
abbrev Result := Except Bytes Unit

def nullValue : Bytes := pushNull

def linkMsg : Bytes := array [.string (text "link")]

def isLinkMsg (m : Bytes) : Bool := m = linkMsg

def exitPattern : Patterns :=
  .cons (.string (text "exit")) (.cons (.type .any) (.last (.type .more)))

def isExitMsg (m : Bytes) : Except DomainError Bool := (matchBuffer m exitPattern).map Prod.fst

def exitMessage (e : Bytes) : Bytes := array [.string (text "exit"), .string e]

def exitNormalMsg : Bytes := exitMessage (text "normal")

def exitNoreceiveMsg : Bytes := exitMessage (text "noreceive")

inductive Exception where
  | std (what : Bytes)
  | other

/-- The exit messages of the two catch clauses of run. -/
def Exception.exitMessage : Exception → Bytes
  | .std what => Runtime.exitMessage (text "UNHANDLED_EXCEPTION: " ++ what)
  | .other => Runtime.exitMessage (text "UNHANDLED_EXCEPTION")

def badFunctionCall : Exception := .std (text "bad_function_call")

structure Mail where
  sender : Handle
  body : Bytes
  serial : Nat
deriving DecidableEq

/-- The two halves of a link are recorded by the actor that sent the link
message and by the one that received it. -/
inductive Side where
  | caller
  | callee
deriving DecidableEq

/-- An entry of links_; the request is the serial number of the link message. -/
structure Link where
  peer : Handle
  request : Option Nat
  side : Side
deriving DecidableEq

/-- The start-up stub set by the constructor, or what the behaviour installed. -/
inductive Receiver where
  | behaviour
  | installed
deriving DecidableEq

inductive Outcome where
  | returns (ret : Result)
  | throws (e : Exception)

/-- Guarded code is inside the try block of run, other code in its handlers. -/
inductive Control where
  | idle
  | running (mail : Mail)
  | checking (mail : Mail)
  | receiving
  | exits (guarded : Bool) (m : Bytes)
  | notifying (exit : Nat) (guarded : Bool) (m : Bytes) (rest : List Link)
  | handlers (guarded : Bool) (err : Bytes) (rest : List ExitHandler)
  | handler (guarded : Bool) (err : Bytes) (rest : List ExitHandler)
  | escaped

inductive SpawnStage where
  | created
  | linked (request : Option Nat)
  | scheduled (request : Option Nat)
deriving DecidableEq

inductive Call where
  | none
  | spawn (child : InstanceId) (link : Bool) (stage : SpawnStage)
deriving DecidableEq

structure Actor where
  name : Bytes
  receiver : Option Receiver := some .behaviour
  exitedReceiver : Option Receiver := none
  exitHandlers : List ExitHandler
  lifetime : Bool := true
  trapExit : Bool := false
  observeLinks : Bool := false
  inShutdown : Bool := false
  links : List Link := []
  mailbox : List Mail := []
  control : Control := .idle
  call : Call := .none
  ownsIo : Bool := false
  destroyed : Bool := false

/-- Why queue was called. -/
inductive Cause where
  | send
  | link
  | spawnLink
  | schedule
  | notice (exit : Nat) (link : Link)
deriving DecidableEq

/-- A message is posted to the strand or handed to deadsend, which may throw. -/
inductive Delivery where
  | posted
  | dead (ret : Except DomainError Result)

/-- Neither an error result nor an exception. -/
def Delivery.isOk : Delivery → Bool
  | .posted => true
  | .dead (.ok (.ok _)) => true
  | .dead _ => false

def Delivery.isPosted : Delivery → Bool
  | .posted => true
  | .dead _ => false

inductive Event where
  | created (child : InstanceId) (caller : Handle) (link : Bool) (handlers : List ExitHandler)
  | queued (cause : Cause) (target : Handle) (mail : Mail) (delivery : Delivery)
  | ran (self : InstanceId) (mail : Mail)
  | linked (self : InstanceId) (link : Link)
  | received (self : InstanceId) (mail : Mail)
  | exit (self : InstanceId) (m : Bytes) (links : List Link)
  | exitHandler (self : InstanceId) (h : ExitHandler) (err : Bytes)
  | spawned (self : InstanceId) (child : InstanceId) (link : Bool) (request : Option Nat)
  | internal (self : Handle)

namespace Actor

/-- User code is running and is not inside a library call. -/
def free (x : Actor) : Bool :=
  match x.control, x.call with
  | .receiving, .none => true
  | .handler _ _ _, .none => true
  | _, _ => false

/-- The end of run past its try block. -/
def finish (x : Actor) : Actor := { x with control := .idle, exitedReceiver := none }

/-- An exception thrown below run. It reaches a catch clause of run from inside
the try block and leaves run from inside a catch clause. -/
def raise (x : Actor) (guarded : Bool) (e : Exception) : Actor :=
  if guarded then { x with control := .exits false e.exitMessage } else { x with control := .escaped }

/-- The link branch of run. -/
def runLink (x : Actor) (mail : Mail) : Actor :=
  let x := { x with links := ⟨mail.sender, some mail.serial, .callee⟩ :: x.links }
  if x.observeLinks then { x with control := .checking mail } else { x with control := .idle }

/-- Run from the shutdown check to the call of the receiver. The stub empties
receiver_ before it runs the behaviour. -/
def runMessage (self : InstanceId) (x : Actor) (mail : Mail) : Actor × Event :=
  if x.inShutdown then ({ x with control := .idle }, .internal (some self))
  else
    let receive : Actor × Event :=
      match x.receiver with
      | none => (x.raise true badFunctionCall, .internal (some self))
      | some .behaviour =>
          ({ x with receiver := none, control := .receiving }, .received self mail)
      | some .installed => ({ x with control := .receiving }, .received self mail)
    if x.trapExit then receive
    else
      match isExitMsg mail.body with
      | .error e => (x.raise true (.std e.what), .internal (some self))
      | .ok true =>
          if mail.body = exitNormalMsg then (x.finish, .internal (some self))
          else ({ x with control := .exits true mail.body }, .internal (some self))
      | .ok false => receive

/-- Run behind the call of the receiver. -/
def returned (x : Actor) : Outcome → Actor
  | .returns (.ok _) =>
      if x.receiver = none then { x with control := .exits true exitNoreceiveMsg } else x.finish
  | .returns (.error e) => { x with control := .exits true e }
  | .throws e => x.raise true e

/-- Handle_exit up to the loop over links_. -/
def handleExit (x : Actor) (now : Nat) (guarded : Bool) (m : Bytes) : Actor :=
  { x with inShutdown := true, control := .notifying now guarded m x.links }

/-- The end of handle_exit and of the run it was called from. -/
def conclude (x : Actor) : Actor :=
  finish { x with receiver := x.exitedReceiver, exitedReceiver := x.receiver, lifetime := false }

section
variable (toChars : Float → Bytes)

def reasonPattern : Patterns :=
  .cons (.type .string) (.cons (.extract .string 0) (.last (.type .more)))

/-- The text handle_exit passes to the exit handlers. -/
def exitReason (m : Bytes) : Except DomainError Bytes := do
  match ← matchBuffer m reasonPattern with
  | (true, [(_, .string err)]) => return err
  | _ => return text "bad_exit_message: " ++ (← toJson toChars m)

/-- Handle_exit behind the loop over links_. -/
def callHandlers (x : Actor) (guarded : Bool) (m : Bytes) : Actor :=
  if x.exitHandlers = [] then x.conclude
  else
    let handlers := x.exitHandlers
    let x := { x with exitHandlers := [] }
    match exitReason toChars m with
    | .ok err => { x with control := .handlers guarded err handlers }
    | .error e => x.raise guarded (.std e.what)

end

end Actor

end Thespian.Runtime
