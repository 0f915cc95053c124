import Thespian.Endpoint.Connection
import Thespian.Endpoint.Reports
import Thespian.Transition.Runs

/-!
The actor that accepts the connections of an endpoint, with its acceptor and the accept
operation of the executor. The handler of the operation runs on the strand of the actor
and hands it a new connection in a message that it does not queue. The actor starts an
actor for the connection and the acceptor asks for the next one.

A file descriptor is only a number from the time the executor gives it away until an actor
is started for it. What becomes of each of them is recorded.
-/

namespace Thespian.Endpoint
open Cbor Transition Thespian.Runtime

namespace Transport

def acceptorTag : Transport → Bytes
  | tcp => text "endpoint::tcp::acceptor"
  | unx => text "endpoint::unx::acceptor"

/-- What an acceptor can be asked for. -/
def property : Transport → Bytes
  | tcp => text "port"
  | unx => text "path"

end Transport

/-- The accept operation: not running, waiting for the system, or with its handler queued.
An accepted descriptor is in the executor's socket until the handler takes it. -/
inductive Accept where
  | none
  | pending
  | accepted (fd : Int32)
  | failed (ec : ErrorCode)
  deriving DecidableEq

structure Acceptor where
  transport : Transport
  listening : Value
  accept : Accept := .none
  isOpen : Bool := false
  alive : Bool := true
  mailbox : List (Handle × Bytes) := []
  inShutdown : Bool := false
  exits : List Bytes := []
  sent : List (Handle × Bytes) := []
  accepted : List Int := []
  started : List Int := []
  closed : List Int := []
  lost : List Int := []
  /-- A second operation was started on the executor's socket. -/
  fault : Bool := false

/-- What the world answers: whether an actor can be spawned, and whether the sender of a
request is there to be answered. -/
structure Answers where
  spawns : Bool
  replies : Bool
  deriving DecidableEq

inductive AcceptorAction where
  | post (sender : Handle) (m : Bytes)
  | connect (fd : Int32)
  | fail (ec : ErrorCode)
  | handle (answers : Answers)
  | deliver (answers : Answers)

namespace Acceptor

def event (a : Acceptor) : Bytes → List Value → Bytes :=
  report (text "acceptor") a.transport.acceptorTag

def eventPattern (a : Acceptor) : Bytes → List Pattern → Patterns :=
  reportPattern (text "acceptor") a.transport.acceptorTag

/-- `owner_.send(...)`: what the acceptor sends to the actor that it belongs to. -/
def tell (a : Acceptor) (m : Bytes) : Acceptor :=
  if a.inShutdown then a else { a with mailbox := a.mailbox ++ [(Option.none, m)] }

def startAccept (a : Acceptor) : Acceptor :=
  { a with accept := .pending, fault := a.fault || a.accept ≠ .none }

/-- The constructors of the acceptor and its actor, up to the accept loop. -/
def listen (transport : Transport) (listening : Value) : Option ErrorCode → Acceptor
  | some ec =>
      let a : Acceptor := { transport, listening }
      a.tell (a.event (text "error") [.int ec.value.toInt64, .string ec.message])
  | Option.none => { ({ transport, listening } : Acceptor).startAccept with isOpen := true }

/-- `acceptor_impl::close`; an operation that waits for the system is aborted. -/
def close (a : Acceptor) (aborted : ErrorCode) : Acceptor :=
  let a := if a.accept = .pending then { a with accept := .failed aborted } else a
  { a.tell (a.event (text "closed") []) with isOpen := false }

/-- The destructor. A descriptor that is still in the executor's socket is closed with it. -/
def destroy (a : Acceptor) : Acceptor :=
  match a.accept with
  | .accepted fd => { a with alive := false, accept := .none, closed := a.closed ++ [fd.toInt] }
  | _ => { a with alive := false, accept := .none }

/-- `from.send(...)`: an error when the sender of the request is gone. -/
def reply (a : Acceptor) (answers : Answers) (refs : Bytes) (sender : Handle) (m : Bytes) :
    Acceptor × Outcome :=
  if answers.replies then ({ a with sent := a.sent ++ [(sender, m)] }, .ok)
  else (a, .exit (arrayHeader 5 ++ pushString (text "exit") ++ pushString (text "DEADSEND") ++
    m ++ refs))

/-- `connection::start`, whose result is not looked at. -/
def startConnection (a : Acceptor) (answers : Answers) (fd : Int) : Acceptor :=
  if answers.spawns then { a with started := a.started ++ [fd] }
  else { a with lost := a.lost ++ [fd] }

section
variable (toChars : Float → Bytes) (refs : Bytes) (aborted : ErrorCode)

/-- The receiver of the actor. -/
def receive (a : Acceptor) (answers : Answers) (sender : Handle) (m : Bytes) :
    Except DomainError (Acceptor × Outcome) := do
  let (matched, ws) ←
    matchBuffer m (a.eventPattern (text "accept") [.extract (.int .signedInt) 0])
  if matched then
    return (a.startConnection answers (boundInt ws 0), .ok)
  let (matched, _) ← matchBuffer m (a.eventPattern (text "closed") [])
  if matched then
    return (a, .exit (array [.string (text "exit"), .string (text "closed")]))
  let (matched, ws) ← matchBuffer m
    (a.eventPattern (text "error") [.extract (.int .signedInt) 0, .extract .string 1])
  if matched then
    return (a, .exit (array [.string (text "exit"), .string (text "listen_error"),
      .string (boundString ws 1)]))
  let (matched, _) ← matchBuffer m (.last (.string (text "ping")))
  if matched then
    return a.reply answers refs sender (array [.string (text "pong")])
  let (matched, _) ← matchBuffer m
    (.cons (.string (text "get")) (.last (.string a.transport.property)))
  if matched then
    return a.reply answers refs sender
      (array [.string a.transport.property, a.listening])
  let (matched, _) ← matchBuffer m isExitPattern
  if matched then
    return (a.close aborted, .ok)
  return (a, .exit (exitMessage (text "UNEXPECTED_MESSAGE:" ++ (← toJson toChars m))))

/-- `instance::handle_exit`, and the end of the receiver with its acceptor. -/
def handleExit (a : Acceptor) (m : Bytes) : Acceptor :=
  { a.destroy with inShutdown := true, exits := a.exits ++ [m] }

/-- `instance::run` for an actor that traps exits. -/
def run (a : Acceptor) (answers : Answers) (sender : Handle) (m : Bytes) : Acceptor :=
  if isLinkMsg m then a
  else if a.inShutdown then a
  else match a.receive toChars refs aborted answers sender m with
    | .error e => a.handleExit (Exception.std e.what).exitMessage
    | .ok (a, .ok) => a
    | .ok (a, .exit e) => a.handleExit e

/-- `dispatch_sync` from the executor's thread, to which a dead letter is no error. -/
def dispatchSync (a : Acceptor) (answers : Answers) (m : Bytes) : Acceptor :=
  if a.inShutdown then a else a.run toChars refs aborted answers Option.none m

/-- The handler of the operation and `acceptor_impl::accept`. -/
def handleAccept (a : Acceptor) (answers : Answers) : Option Acceptor :=
  match a.accept with
  | .none | .pending => Option.none
  | .failed ec =>
      let a := { a with accept := .none }
      if !a.isOpen then some a
      else some (a.dispatchSync toChars refs aborted answers
        (a.event (text "error") [.int ec.value.toInt64, .string ec.message]))
  | .accepted fd =>
      let a := { a with accept := .none }
      if !a.isOpen then some { a with lost := a.lost ++ [fd.toInt] }
      else
        let a := a.dispatchSync toChars refs aborted answers
          (a.event (text "accept") [.int fd.toInt64])
        if a.alive then some a.startAccept else some a

def step (a : Acceptor) : AcceptorAction → Option Acceptor
  | .post sender m =>
      if a.inShutdown then some a else some { a with mailbox := a.mailbox ++ [(sender, m)] }
  | .connect fd =>
      if a.accept = .pending then
        some { a with accept := .accepted fd, accepted := a.accepted ++ [fd.toInt] }
      else Option.none
  | .fail ec => if a.accept = .pending then some { a with accept := .failed ec } else Option.none
  | .handle answers => a.handleAccept toChars refs aborted answers
  | .deliver answers =>
      match a.mailbox with
      | [] => Option.none
      | (sender, m) :: rest =>
          some ({ a with mailbox := rest }.run toChars refs aborted answers sender m)

end

end Acceptor

end Thespian.Endpoint
