import Thespian.Cbor.Buffer
import Thespian.Transition.Runs

/-!
Acceptors of Unix sockets on one file system. Each system call is a step:
listen looks the file up, probes it by a connect, unlinks it when it is stale,
binds, restricts the file to its owner and listens; close and the destructor close
the socket and then unlink the path. An acceptor is used by one thread, so its own
calls do not overlap; those of different acceptors do, in any order.

A path leads to one directory entry, or to none. A step carries whether its system
call succeeds where the state of the file system and of the socket lets it.
-/

namespace Thespian.Socket.Unx
open Cbor

abbrev AcceptorId := Nat

inductive Mode where
  | file | abstract
  deriving DecidableEq, Repr

/-- The socket of an acceptor. It is never opened again. -/
inductive Status where
  | opened | bound | listening | closed
  deriving DecidableEq, Repr

/-- The system call an acceptor comes to next. -/
inductive Next where
  | idle
  | lstat (path : Bytes)
  | connect (path : Bytes)
  | unlink (path : Bytes)
  | bind (path : Bytes) (mode : Mode)
  | chmod
  | listen
  | releasePath (destroying : Bool)
  | destroyed
  deriving DecidableEq, Repr

structure Acceptor where
  socket : Status := .opened
  path : Bytes := []
  next : Next := .idle
  deriving DecidableEq, Repr

/-- What an entry holds that no acceptor here has bound: a socket that refuses
connections or not, or no socket at all. -/
inductive Foreign where
  | stale | served | notSocket
  deriving DecidableEq, Repr

inductive File where
  | acceptor (a : AcceptorId)
  | foreign (f : Foreign)
  deriving DecidableEq, Repr

def File.isSocket : File → Bool
  | .foreign .notSocket => false
  | _ => true

structure State (ν : Type) where
  files : ν → Option File
  acceptors : List Acceptor

inductive Action where
  | create
  | listen (a : AcceptorId) (path : Bytes) (mode : Mode)
  | close (a : AcceptorId)
  | destroy (a : AcceptorId)
  | advance (a : AcceptorId) (succeeds : Bool)
  deriving DecidableEq, Repr

def Action.acceptor : Action → Option AcceptorId
  | .create => none
  | .listen a _ _ | .close a | .destroy a | .advance a _ => some a

/-- The size of sun_path, which a path and its terminator have to fit in. -/
def sunPathSize : Nat := 108

def unxModePath : Mode → Bytes → Bytes
  | .file, path => path
  | .abstract, path => 0 :: path

namespace State
variable {ν : Type}

def initial (foreign : ν → Option Foreign) : State ν := ⟨fun e => (foreign e).map .foreign, []⟩

variable (s : State ν)

def status (a : AcceptorId) : Status := (s.acceptors[a]?.map (·.socket)).getD .closed

def set (a : AcceptorId) (x : Acceptor) : State ν := { s with acceptors := s.acceptors.set a x }

/-- A connect to the file is refused. -/
def refuses : File → Bool
  | .acceptor a => s.status a ≠ .listening
  | .foreign f => f ≠ .served

variable [DecidableEq ν]

def put (e : ν) (f : Option File) : State ν :=
  { s with files := fun e' => if e' = e then f else s.files e' }

def remove : Option ν → State ν
  | some e => s.put e none
  | none => s

end State

section Steps
variable {ν : Type} (entry : Bytes → Option ν)

/-- The entry the path that an acceptor has to release leads to. -/
def Acceptor.held (x : Acceptor) : Option ν := if x.path = [] then none else entry x.path

def State.fileAt (s : State ν) (path : Bytes) : Option File := (entry path).bind s.files

/-- A bind finds the socket open and unbound, and no file under the path. -/
def State.canBind (s : State ν) (x : Acceptor) (path : Bytes) (mode : Mode) : Bool :=
  x.socket = .opened && path.length < sunPathSize &&
    (mode = .abstract || s.fileAt entry path = none)

variable [DecidableEq ν]

/-- The next system call of an acceptor. -/
def State.advance (s : State ν) (a : AcceptorId) (x : Acceptor) (succeeds : Bool) :
    Option (State ν) :=
  match x.next with
  | .idle | .destroyed => none
  | .lstat path =>
      if succeeds && (s.fileAt entry path).any File.isSocket then
        some (s.set a { x with next := .connect path })
      else some (s.set a { x with next := .bind path .file })
  | .connect path =>
      if succeeds && (s.fileAt entry path).any s.refuses then
        some (s.set a { x with next := .unlink path })
      else some (s.set a { x with next := .bind path .file })
  | .unlink path =>
      let t := if succeeds then s.remove (entry path) else s
      some (t.set a { x with next := .bind path .file })
  | .bind path mode =>
      if succeeds && s.canBind entry x path mode then
        match mode with
        | .abstract => some (s.set a { x with socket := .bound, next := .listen })
        | .file =>
            let t := match entry path with
              | some e => s.put e (some (.acceptor a))
              | none => s
            some (t.set a { socket := .bound, path, next := .chmod })
      else some (s.set a { x with next := .idle })
  | .chmod => some (s.set a { x with next := .listen })
  | .listen =>
      if succeeds && x.socket = .bound then
        some (s.set a { x with socket := .listening, next := .idle })
      else some (s.set a { x with next := .idle })
  | .releasePath destroying =>
      let t := if succeeds then s.remove (x.held entry) else s
      some (t.set a { x with path := [], next := if destroying then .destroyed else .idle })

def step (s : State ν) : Action → Option (State ν)
  | .create => some { s with acceptors := s.acceptors ++ [{}] }
  | .listen a path mode =>
      match s.acceptors[a]? with
      | some x =>
          if x.next = .idle then
            let path := unxModePath mode path
            if mode = .file ∧ path.length < sunPathSize then
              some (s.set a { x with next := .lstat path })
            else some (s.set a { x with next := .bind path mode })
          else none
      | none => none
  | .close a =>
      match s.acceptors[a]? with
      | some x =>
          if x.next = .idle then
            some (s.set a { x with socket := .closed, next := .releasePath false })
          else none
      | none => none
  | .destroy a =>
      match s.acceptors[a]? with
      | some x =>
          if x.next = .idle then
            some (s.set a { x with socket := .closed, next := .releasePath true })
          else none
      | none => none
  | .advance a succeeds =>
      match s.acceptors[a]? with
      | some x => s.advance entry a x succeeds
      | none => none

end Steps

end Thespian.Socket.Unx
