import Thespian.Cbor.JsonBuffer
import Thespian.Cbor.PrintedLines
import Thespian.Console.Fields
import Thespian.Debug.Registry

/-!
A connection of the debug console and the proxies of its calls. What the rest of the
context answers while a command is handled (the registry, whether a message could be
queued, whether a proxy could be started) is given with the command.

The commands that were handled in JSON mode are recorded, and every write with what it
is a response to, and how many calls were numbered; the connection reads none of them.
-/

namespace Thespian.Console
open Cbor Cbor.Json Decoding

/-- What a write is about: the response to a command, the response to a call that was
started, an event, or anything else. -/
inductive Origin where
  | command (i : Nat)
  | call (seq : UInt64)
  | event
  | other
  deriving DecidableEq, Repr

structure Entry where
  origin : Origin
  data : Bytes
  deriving DecidableEq, Repr

/-- A JSON mode line that is not blank; the call it has started, if any. -/
structure Command where
  line : Bytes
  id : Bytes
  call : Option UInt64
  deriving DecidableEq, Repr

/-- A message for the connection: the three reports of a call proxy, or any other. -/
inductive Mail where
  | reply (seq : UInt64) (name m : Bytes)
  | timeout (seq : UInt64)
  | error (seq : UInt64) (e : Bytes)
  | other (m : Bytes)
  deriving DecidableEq, Repr

inductive Stage where
  | starting | waiting | timedOut | exited
  deriving DecidableEq, Repr

/-- A `call_proxy` with what it was started with. -/
structure Proxy where
  seq : UInt64
  to_ : Debug.ActorId
  msg : Bytes
  timeoutMs : Int
  stage : Stage := .starting
  deriving DecidableEq, Repr

structure Connection where
  prompt : Bytes
  prevBuf : Bytes := []
  jsonMode : Bool := false
  closeOnWriteComplete : Bool := false
  unwritten : Nat := 0
  nextCall : UInt64 := 0
  pendingCalls : Std.TreeMap UInt64 Bytes := ∅
  taps : List Bytes := []
  socketClosed : Bool := false
  inShutdown : Bool := false
  mailbox : List Mail := []
  proxies : List Proxy := []
  written : List Entry := []
  commands : List Command := []
  calls : Nat := 0

/-- How a message to an actor was taken; the checks for a dead actor may throw. -/
inductive Delivery where
  | queued
  | refused (e : Bytes)
  | throws (e : DomainError)

/-- `e.what()` ends at a zero byte. -/
def cString (s : Bytes) : Bytes := s.takeWhile (· ≠ 0)

section Surroundings
variable (toChars : Float → Bytes)

/-- The text of an error that was returned. Where it cannot be printed the handler of
domain errors answers, with the text of that. -/
def errorText (e : Bytes) : Bytes :=
  match toJson toChars e with
  | .ok t => t
  | .error e => cString e.what

def Delivery.Fits : Delivery → Prop
  | .queued => True
  | .refused e => (errorText toChars e).length < 2 ^ 64
  | .throws e => e.what.length < 2 ^ 64

/-- What the context answers while a command is handled. Texts that exist can be
addressed. -/
structure Surroundings where
  ctx : Debug.Context
  send : Debug.ActorId → Bytes → Delivery
  start : Option Bytes
  sendFits : ∀ a m, (send a m).Fits toChars
  startFits : ∀ e, start = some e → (errorText toChars e).length < 2 ^ 64
  namesFit : (ctx.names false).length < 2 ^ 64 ∧ ∀ n ∈ ctx.names false, n.length < 2 ^ 64

end Surroundings

namespace Connection
variable (c : Connection)

def write (origin : Origin) (data : Bytes) : Connection :=
  { c with unwritten := c.unwritten + data.length, written := c.written ++ [⟨origin, data⟩] }

def writeLine (origin : Origin) (line : Bytes) : Connection :=
  (c.write origin line).write .other [newline]

/-- The command is recorded. -/
def record (command : Command) : Connection := { c with commands := c.commands ++ [command] }

/-- `tap_add` for the connection -/
def tapAdd (name : Bytes) : Connection :=
  if name ∈ c.taps then c else { c with taps := c.taps ++ [name] }

/-- `tap_remove` for the connection -/
def tapRemove (name : Bytes) : Bool × Connection :=
  let held := fun tap => name.isEmpty || tap = name
  (c.taps.any held, { c with taps := c.taps.filter fun tap => !held tap })

end Connection

def okResponse (id : Bytes) (more : List (Bytes × Bytes)) : Bytes :=
  mapHeader (UInt64.ofNat (more.length + 2)) ++ (pushString (text "id") ++ (id ++
    (pushString (text "ok") ++ pushBool true ++
      more.flatMap fun field => pushString field.1 ++ field.2)))

def errorResponse (id : Bytes) (err : Bytes) : Bytes :=
  mapHeader (UInt64.ofNat (1 + 2)) ++ (pushString (text "id") ++ (id ++
    (pushString (text "ok") ++ pushBool false ++
      (pushString (text "error") ++ pushString err))))

/-- What a command has done before its response is written; a call that was started
has no response yet. -/
structure Performed where
  connection : Connection
  response : Option Bytes
  continues : Bool := true
  call : Option UInt64 := none

section Commands
variable (toChars : Float → Bytes) (fromChars : Bytes → Option Float)

/-- The live actor of the name. -/
def lookup (s : Surroundings toChars) (name : Bytes) : Except IterationError Debug.ActorId :=
  match s.ctx.getName name with
  | some a => if s.ctx.expired a then domainError (name ++ text " not found") else .ok a
  | none => domainError (name ++ text " not found")

def performSend (s : Surroundings toChars) (c : Connection) (id : Bytes) (f : Fields) :
    Except IterationError Performed := do
  let name ← requireString f (text "to")
  let to_ ← lookup toChars s name
  let msg ← require f (text "msg")
  match s.send to_ msg with
  | .queued => return { connection := c, response := some (okResponse id []) }
  | .refused e => return { connection := c, response := some (errorResponse id (errorText toChars e)) }
  | .throws e => .error (.domain e)

/-- The entry of a call that could not be started is taken back before the text of
the error is printed. -/
def performCall (s : Surroundings toChars) (c : Connection) (id : Bytes) (f : Fields) :
    Except IterationError Performed := do
  let name ← requireString f (text "to")
  let to_ ← lookup toChars s name
  let msg ← require f (text "msg")
  let timeoutMs ← optionalInt f (text "timeout_ms") 5000
  let seq := c.nextCall
  let counted := { c with nextCall := seq + 1, calls := c.calls + 1 }
  match s.start with
  | none =>
      return {
        connection := { counted with
          pendingCalls := c.pendingCalls.insert seq id
          proxies := c.proxies ++ [{ seq := seq, to_ := to_, msg := msg, timeoutMs := timeoutMs }] }
        response := none
        call := some seq }
  | some e =>
      let erased := { counted with pendingCalls := (c.pendingCalls.insert seq id).erase seq }
      return { connection := erased, response := some (errorResponse id (errorText toChars e)) }

/-- Returns an error message on failure. -/
def Connection.tap (c : Connection) (name : Bytes) : Bytes × Connection :=
  if (text "debug_").isPrefixOf name then (text "cannot tap debug interface actors", c)
  else ([], c.tapAdd name)

def performTap (c : Connection) (id : Bytes) (f : Fields) : Except IterationError Performed := do
  let name ← requireString f (text "name")
  let (err, c) := c.tap name
  if err.isEmpty then
    return { connection := c, response := some (okResponse id []) }
  else
    return { connection := c, response := some (errorResponse id err) }

def performUntap (c : Connection) (id : Bytes) (f : Fields) : Except IterationError Performed := do
  let name ← requireString f (text "name")
  let (found, c) := c.tapRemove name
  if found then
    return { connection := c, response := some (okResponse id []) }
  else
    return { connection := c, response := some (errorResponse id (name ++ text " not tapped")) }

/-- `get_names` -/
def getNames (ctx : Debug.Context) : Bytes := encode (.array ((ctx.names false).map .string))

/-- The branches of dispatch_json. -/
def perform (s : Surroundings toChars) (c : Connection) (id : Bytes) (f : Fields) :
    Except IterationError Performed := do
  let op ← requireString f (text "cmd")
  if op = text "list" then
    return { connection := c, response := some (okResponse id [(text "result", getNames s.ctx)]) }
  else if op = text "send" then performSend toChars s c id f
  else if op = text "call" then performCall toChars s c id f
  else if op = text "tap" then performTap c id f
  else if op = text "untap" then performUntap c id f
  else if op = text "bye" then
    return { connection := c, response := some (okResponse id []), continues := false }
  else
    return { connection := c, response := some (errorResponse id (text "unknown cmd: " ++ op)) }

/-- What a handler returns or throws, and the connection behind it. -/
abbrev Handled (α : Type) := Except IterationError α × Connection

/-- A response to the command that is handled now. -/
def Connection.respond (c : Connection) (line id body : Bytes) (continues : Bool) : Except DomainError (Handled Bool) :=
  match toJson toChars body with
  | .ok t => .ok (.ok continues, (c.writeLine (.command c.commands.length) t).record ⟨line, id, none⟩)
  | .error e => .error e

/-- `reply_error`, as the handler of domain errors does it. -/
def Connection.replyError (c : Connection) (line id what : Bytes) : Handled Bool :=
  match c.respond toChars line id (errorResponse id what) true with
  | .ok handled => handled
  | .error e => (.error (.domain e), c.record ⟨line, id, none⟩)

def parseFields (line : Bytes) : Except IterationError Fields := do
  match Buffered.pushJson fromChars [] line with
  | (.ok (), cmd) => getFields cmd
  | (.error e, _) => .error (.domain e)

/-- The id of a command: null where it has none or cannot be parsed. -/
def fieldId (f : Fields) : Bytes := f[text "id"]?.getD pushNull

def dispatchJson (s : Surroundings toChars) (c : Connection) (line : Bytes) : Handled Bool :=
  match parseFields fromChars line with
  | .error (.domain e) => c.replyError toChars line pushNull (cString e.what)
  | .error .outOfRange => (.error .outOfRange, c.record ⟨line, pushNull, none⟩)
  | .ok f =>
      let id := fieldId f
      match perform toChars s c id f with
      | .error (.domain e) => c.replyError toChars line id (cString e.what)
      | .error .outOfRange => (.error .outOfRange, c.record ⟨line, id, none⟩)
      | .ok p =>
          match p.response with
          | none => (.ok p.continues, p.connection.record ⟨line, id, p.call⟩)
          | some body =>
              match p.connection.respond toChars line id body p.continues with
              | .ok handled => handled
              | .error e => p.connection.replyError toChars line id (cString e.what)

end Commands

end Thespian.Console
