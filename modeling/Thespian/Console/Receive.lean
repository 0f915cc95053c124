import Thespian.Console.Connection
import Thespian.Runtime.Instance
import Thespian.Transition.Runs

/-!
The receiver of a connection, the call proxies, and the system they make up. Others
send the connection whatever messages they like (lines to dispatch, what becomes of
the socket, taps, exits), and a proxy whatever message its target or its timer sends
to it. An exit of a proxy reaches the connection through their link.
-/

namespace Thespian.Console
open Cbor Cbor.Json Decoding
open Thespian.Runtime

/-- What `send` makes of a message. -/
def Mail.message : Mail → Bytes
  | .reply seq name m =>
      arrayHeader 4 ++ (pushString (text "debug_call_reply") ++ (pushUint seq ++
        (pushString name ++ m)))
  | .timeout seq => arrayHeader 2 ++ (pushString (text "debug_call_timeout") ++ pushUint seq)
  | .error seq e =>
      arrayHeader 3 ++ (pushString (text "debug_call_error") ++ (pushUint seq ++ e))
  | .other m => m

/-- The call a message reports on. -/
def Mail.seq? : Mail → Option UInt64
  | .reply seq _ _ | .timeout seq | .error seq _ => some seq
  | .other _ => none

def isBlank (c : UInt8) : Bool := c = 0x20 || c = 0x09

/-- The loop over the lines of a text: what it dispatches and what it leaves. Every round
erases at least the newline, so the length of the text bounds the number of rounds. -/
def lineLoop : Nat → Bytes → List Bytes × Bytes
  | 0, buf => ([], buf)
  | fuel + 1, buf =>
      if buf = [] then ([], buf)
      else
        match buf.findIdx? (· = newline) with
        | none => ([], buf)
        | some pos =>
            let (lines, behind) := lineLoop fuel (buf.drop (pos + 1))
            (buf.take pos :: lines, behind)

/-- `getword` -/
def getword (buf : Bytes) : Bytes × Bytes :=
  (buf.takeWhile (· ≠ 0x20), (buf.dropWhile (· ≠ 0x20)).drop 1)

inductive Result where
  | ok
  | exit (m : Bytes)
  | throws (e : IterationError)

def dispatchMsg (line : Bytes) : Bytes := array [.string (text "dispatch"), .string line]

def tag : Bytes := text "debug_connection"

section Receiver
variable (toChars : Float → Bytes) (fromChars : Bytes → Option Float) (s : Surroundings toChars)

/-- The text mode. What is thrown is written. -/
def dispatchText (c : Connection) (buf : Bytes) : Bool × Connection :=
  let failed (c : Connection) (what : Bytes) : Bool × Connection :=
    (true, c.write .other (text "error: " ++ what ++ text "\n"))
  if buf = [] then (true, c.write .other (Debug.listing (s.ctx.names false)))
  else if buf = text "bye" then (false, c.write .other (text "bye\n"))
  else
    let (word, rest) := getword buf
    if word = text "tap" ∧ rest ≠ [] then
      let (err, c) := c.tap rest
      if err.isEmpty then (true, c) else failed c err
    else if word = text "untap" ∧ rest ≠ [] then
      let (found, c) := c.tapRemove rest
      if found then (true, c) else failed c (rest ++ text " not tapped")
    else
      match lookup toChars s word with
      | .error _ => failed c (word ++ text " not found")
      | .ok a =>
          match Buffered.pushJson fromChars [] rest with
          | (.error e, _) => failed c (cString e.what)
          | (.ok (), m) =>
              match s.send a m with
              | .queued => (true, c)
              | .throws e => failed c (cString e.what)
              | .refused e =>
                  match toJson toChars e with
                  | .ok t => failed c t
                  | .error e => failed (c.write .other (text "error: ")) (cString e.what)

def dispatch (c : Connection) (buf : Bytes) : Handled Bool :=
  let buf := if buf.getLast? = some 0x0D then buf.dropLast else buf
  match buf.dropWhile isBlank with
  | [] =>
      if c.jsonMode then (.ok true, c)
      else
        match dispatchText toChars fromChars s c buf with
        | (true, c) => (.ok true, c.write .other c.prompt)
        | (false, c) => (.ok false, c)
  | first :: _ =>
      if first = 0x7b then dispatchJson toChars fromChars s { c with jsonMode := true } buf
      else if c.jsonMode then c.replyError toChars buf pushNull (text "expected a JSON object")
      else
        match dispatchText toChars fromChars s c buf with
        | (true, c) => (.ok true, c.write .other c.prompt)
        | (false, c) => (.ok false, c)

def Connection.takeCall (c : Connection) (seq : UInt64) : Bytes × Connection :=
  match c.pendingCalls[seq]? with
  | some id => (id, { c with pendingCalls := c.pendingCalls.erase seq })
  | none => (pushNull, c)

def Connection.writeJson (c : Connection) (origin : Origin) (body : Bytes) : Result × Connection :=
  match toJson toChars body with
  | .ok t => (.ok, c.writeLine origin t)
  | .error e => (.throws (.domain e), c)

def Connection.shutdown (c : Connection) (reason msg : Bytes) : Result × Connection :=
  let c := (c.tapRemove []).2
  if msg.isEmpty then (.exit (exitMessage reason), c)
  else (.exit (array [.string (text "exit"), .string reason, .string msg]), c)

/-- Go on with the branch that fits the outcome of a test, or throw. -/
def test (c : Connection) (m : Bytes) (parms : Patterns) (matched : Writes → Result × Connection)
    (otherwise : Result × Connection) : Result × Connection :=
  match matchBuffer m parms with
  | .ok (true, writes) => matched writes
  | .ok (false, _) => otherwise
  | .error e => (.throws (.domain e), c)

def receiveDispatch (c : Connection) (buf : Bytes) : Result × Connection :=
  match dispatch toChars fromChars s c buf with
  | (.ok true, c) => (.ok, c)
  | (.ok false, c) => (.ok, { c with closeOnWriteComplete := true })
  | (.error e, c) => (.throws e, c)

/-- The text of the previous read is swapped into the buffer, and what was read appended
to it. A connection that receives is alive, so what it sends itself is queued. -/
def receiveRead (c : Connection) (buf : Bytes) : Result × Connection :=
  if buf = [] then (.ok, { c with socketClosed := true })
  else
    let (buf, prevBuf) := (c.prevBuf, buf)
    let buf := buf ++ prevBuf
    let (lines, behind) := lineLoop buf.length buf
    (.ok, { c with
      mailbox := c.mailbox ++ lines.map fun line => .other (dispatchMsg line)
      prevBuf := behind })

def receiveWritten (c : Connection) (written : Int) : Result × Connection :=
  let left := c.unwritten - min c.unwritten (written % 2 ^ 64).toNat
  (.ok, { c with
    unwritten := left
    socketClosed := c.socketClosed || (c.closeOnWriteComplete && left = 0) })

def receiveReply (c : Connection) (seq : UInt64) (name r : Bytes) : Result × Connection :=
  let (id, c) := c.takeCall seq
  c.writeJson toChars (.call seq)
    (okResponse id [(text "from", pushString name), (text "result", r)])

def receiveTimeout (c : Connection) (seq : UInt64) : Result × Connection :=
  let (id, c) := c.takeCall seq
  c.writeJson toChars (.call seq) (errorResponse id (text "timeout"))

/-- The id is taken before the error is printed or after it; if that throws, nobody
sees the difference. -/
def receiveError (c : Connection) (seq : UInt64) (r : Bytes) : Result × Connection :=
  match toJson toChars r with
  | .error e => (.throws (.domain e), c)
  | .ok t =>
      let (id, c) := c.takeCall seq
      c.writeJson toChars (.call seq) (errorResponse id t)

def eventBody (fields : List (Bytes × Bytes)) : Bytes :=
  mapHeader (UInt64.ofNat fields.length) ++
    fields.flatMap fun field => pushString field.1 ++ field.2

def receiveTap (c : Connection) (name dir peer r : Bytes) : Result × Connection :=
  if c.jsonMode then
    let fields := [(text "event", pushString (text "tap")), (text "actor", pushString name),
      (text "dir", pushString dir)]
    let fields := if dir = text "exit" then fields else fields ++ [(text "peer", pushString peer)]
    c.writeJson toChars .event (eventBody (fields ++ [(text "msg", r)]))
  else
    match toJson toChars r with
    | .error e => (.throws (.domain e), c)
    | .ok t =>
        if dir = text "exit" then
          (.ok, c.writeLine .other (text "tap " ++ name ++ text " exit " ++ t))
        else
          (.ok, c.writeLine .other
            (text "tap " ++ name ++ text " " ++ dir ++ text " " ++ peer ++ text " " ++ t))

def receiveOther (c : Connection) (name m : Bytes) : Result × Connection :=
  let name := if name.isEmpty then text "expired" else name
  if c.jsonMode then
    c.writeJson toChars .event (eventBody [(text "event", pushString (text "message")),
      (text "from", pushString name), (text "msg", m)])
  else
    let c := c.write .other (name ++ text " ")
    match toJson toChars m with
    | .error e => (.throws (.domain e), c)
    | .ok t => (.ok, c.write .other (t ++ text "\n"))

def socketPattern (event : String) (rest : Patterns) : Patterns :=
  .cons (.string (text "socket")) (.cons (.string tag) (.cons (.string (text event)) rest))

def replyPattern : Patterns :=
  .cons (.string (text "debug_call_reply")) (.cons (.extract (.int .unsignedLong) 0)
    (.cons (.extract .string 1) (.last (.extract .range 2))))

def timeoutPattern : Patterns :=
  .cons (.string (text "debug_call_timeout")) (.last (.extract (.int .unsignedLong) 0))

def errorPattern : Patterns :=
  .cons (.string (text "debug_call_error")) (.cons (.extract (.int .unsignedLong) 0)
    (.last (.extract .range 1)))

/-- `connection::receive`, for a message from an actor of the name. -/
def receive (c : Connection) (name m : Bytes) : Result × Connection :=
  test c m (.cons (.string (text "dispatch")) (.last (.extract .string 0)))
    (fun writes => match writes with
      | [(_, .string buf)] => receiveDispatch toChars fromChars s c buf
      | _ => (.ok, c)) <|
  test c m (socketPattern "read_complete" (.last (.extract .string 0)))
    (fun writes => match writes with
      | [(_, .string buf)] => receiveRead c buf
      | _ => (.ok, c)) <|
  test c m (socketPattern "write_complete" (.last (.extract (.int .signedInt) 0)))
    (fun writes => match writes with
      | [(_, .int written)] => receiveWritten c written
      | _ => (.ok, c)) <|
  test c m (.cons (.string (text "socket")) (.cons (.string tag) (.last (.string (text "closed")))))
    (fun _ => c.shutdown (text "closed") []) <|
  test c m (socketPattern "read_error"
      (.cons (.extract (.int .signedInt) 0) (.last (.extract .string 1))))
    (fun writes => match writes with
      | [_, (_, .string msg)] => c.shutdown (text "read_error") msg
      | _ => (.ok, c)) <|
  test c m (socketPattern "write_error"
      (.cons (.extract (.int .signedInt) 0) (.last (.extract .string 1))))
    (fun writes => match writes with
      | [_, (_, .string msg)] => c.shutdown (text "write_error") msg
      | _ => (.ok, c)) <|
  test c m replyPattern
    (fun writes => match writes with
      | [(_, .int seq), (_, .string name), (_, .range r)] =>
          receiveReply toChars c (UInt64.ofNat seq.toNat) name r
      | _ => (.ok, c)) <|
  test c m timeoutPattern
    (fun writes => match writes with
      | [(_, .int seq)] => receiveTimeout toChars c (UInt64.ofNat seq.toNat)
      | _ => (.ok, c)) <|
  test c m errorPattern
    (fun writes => match writes with
      | [(_, .int seq), (_, .range r)] => receiveError toChars c (UInt64.ofNat seq.toNat) r
      | _ => (.ok, c)) <|
  test c m (.cons (.string (text "debug_tap")) (.cons (.extract .string 0)
      (.cons (.extract .string 1) (.cons (.extract .string 2) (.last (.extract .range 3))))))
    (fun writes => match writes with
      | [(_, .string name), (_, .string dir), (_, .string peer), (_, .range r)] =>
          receiveTap toChars c name dir peer r
      | _ => (.ok, c))
    (receiveOther toChars c name m)

/-- `instance::run` of the connection, which traps no exits. -/
def Connection.run (c : Connection) (name m : Bytes) : Connection :=
  if isLinkMsg m || c.inShutdown then c
  else
    match isExitMsg m with
    | .error _ => { c with inShutdown := true }
    | .ok true => if m = exitNormalMsg then c else { c with inShutdown := true }
    | .ok false =>
        match receive toChars fromChars s c name m with
        | (.ok, c) => c
        | (_, c) => { c with inShutdown := true }

end Receiver

section Proxies

/-- A message to the connection is queued unless the connection has exited. -/
def Connection.post (c : Connection) (mail : Mail) : Connection :=
  if c.inShutdown then c else { c with mailbox := c.mailbox ++ [mail] }

def Connection.setStage (c : Connection) (p : Nat) (x : Proxy) (stage : Stage) : Connection :=
  { c with proxies := c.proxies.set p { x with stage } }

/-- A proxy exits and tells the connection, to which it is linked. -/
def Connection.proxyExit (c : Connection) (p : Nat) (x : Proxy) (m : Bytes) : Connection :=
  (c.setStage p x .exited).post (.other m)

/-- How the behaviour of a proxy ends. -/
inductive Started where
  | sent
  | refused (e : Bytes)
  | throws (what : Bytes)
  deriving DecidableEq, Repr

/-- Errors of results are exit messages. -/
def Started.isError : Started → Bool
  | .refused e => match isExitMsg e with | .ok exit => exit | .error _ => false
  | _ => true

def unhandled (what : Bytes) : Bytes := exitMessage (text "UNHANDLED_EXCEPTION: " ++ what)

def Connection.startProxy (c : Connection) (p : Nat) (x : Proxy) : Started → Connection
  | .sent => c.setStage p x .waiting
  | .refused e => (c.post (.error x.seq e)).proxyExit p x exitNormalMsg
  | .throws what => c.proxyExit p x (unhandled what)

/-- `call_proxy::receive` -/
def Connection.proxyReceive (c : Connection) (p : Nat) (x : Proxy) (name m : Bytes) : Connection :=
  if x.stage = .timedOut then c
  else
    match matchBuffer m (.last (.string (text "debug_call_timeout"))) with
    | .error e => c.proxyExit p x (unhandled (cString e.what))
    | .ok (true, _) => (c.setStage p x .timedOut).post (.timeout x.seq)
    | .ok (false, _) => (c.post (.reply x.seq name m)).proxyExit p x exitNormalMsg

/-- `instance::run` of a proxy whose behaviour has run. -/
def Connection.runProxy (c : Connection) (p : Nat) (x : Proxy) (name m : Bytes) : Connection :=
  if isLinkMsg m then c
  else
    match isExitMsg m with
    | .error e => c.proxyExit p x (unhandled (cString e.what))
    | .ok true => if m = exitNormalMsg then c else c.proxyExit p x m
    | .ok false => c.proxyReceive p x name m

end Proxies

section System
variable (toChars : Float → Bytes) (fromChars : Bytes → Option Float)

inductive Action where
  | send (m : Bytes)
  | deliver (s : Surroundings toChars) (name : Bytes)
  | start (p : Nat) (started : Started)
  | proxy (p : Nat) (name m : Bytes)

/-- Messages and names can be addressed. -/
def step (c : Connection) : Action toChars → Option Connection
  | .send m => if m.length < 2 ^ 63 then some (c.post (.other m)) else none
  | .deliver s name =>
      match c.mailbox with
      | [] => none
      | mail :: mailbox =>
          if mail.message.length < 2 ^ 63 then
            some (Connection.run toChars fromChars s { c with mailbox } name mail.message)
          else none
  | .start p started =>
      match c.proxies[p]? with
      | some x =>
          if x.stage = .starting ∧ started.isError then some (c.startProxy p x started) else none
      | none => none
  | .proxy p name m =>
      match c.proxies[p]? with
      | some x =>
          if (x.stage = .waiting ∨ x.stage = .timedOut) ∧ name.length < 2 ^ 63 ∧
              m.length < 2 ^ 63 then
            some (c.runProxy p x name m)
          else none
      | none => none

end System

end Thespian.Console
