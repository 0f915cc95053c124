import Thespian.Remote.Node

/-!
The proxy of a remote actor, and the endpoint it belongs to. Both take a message
for the first of their patterns it matches. A proxy has one mailbox for its
control messages and for the messages it passes on, and looks at the sender only
to tell an exit of the remote actor from one of a linked local actor.
-/

namespace Thespian.Remote
open Cbor Zig

/-- What Proxy.receive_safe takes a message for. -/
inductive ProxyMessage where
  | endpointExit (reason : Bytes)
  | exit (reason : Bytes)
  | link
  | setNotify (targetId : Lpiid)
  | deliverNamed (toName payload : Bytes)
  | deliverPid (targetId : Lpiid) (payload : Bytes)
  | other
deriving DecidableEq

/-- What the endpoint's receive takes a message for. -/
inductive EndpointMessage where
  | send (fromId : Lpiid) (toId : Rpiid) (payload : Bytes)
  | sendNamed (fromId : Lpiid) (toName payload : Bytes)
  | linkWire (fromId : Lpiid) (toId : Rpiid)
  | localLinkExit (fromId : Lpiid) (reason : Bytes)
  | proxyExit (toId : Rpiid)
  | other
deriving DecidableEq

section Messages
variable {ε : Type} (cbor : Package ε)

def lpiidVal (id : Lpiid) : Val := cborEncode cbor lpiidTag id.value

def rpiidVal (id : Rpiid) : Val := cborEncode cbor rpiidTag id.value

def ProxyMessage.patterns : List (List (Pat ε) × (List Extracted → ProxyMessage)) :=
  let targetId := cborExtract cbor lpiidTag
  [([.literal (text "endpoint_exit"), .string], fun values => .endpointExit (stringAt values 0)),
    ([.literal (text "exit"), .string], fun values => .exit (stringAt values 0)),
    ([.literal (text "link")], fun _ => .link),
    ([.literal (text "set_notify"), targetId], fun values => .setNotify ⟨uintAt values 0⟩),
    ([.literal (text "deliver_named"), .string, .raw],
      fun values => .deliverNamed (stringAt values 0) (rawAt values 1)),
    ([.literal (text "deliver_pid"), targetId, .raw],
      fun values => .deliverPid ⟨uintAt values 0⟩ (rawAt values 1))]

def EndpointMessage.patterns : List (List (Pat ε) × (List Extracted → EndpointMessage)) :=
  let fromId := cborExtract cbor lpiidTag
  let toId := cborExtract cbor rpiidTag
  [([.literal (text "send"), fromId, toId, .raw],
      fun values => .send ⟨uintAt values 0⟩ ⟨uintAt values 1⟩ (rawAt values 2)),
    ([.literal (text "send"), fromId, .string, .raw],
      fun values => .sendNamed ⟨uintAt values 0⟩ (stringAt values 1) (rawAt values 2)),
    ([.literal (text "link_wire"), fromId, toId],
      fun values => .linkWire ⟨uintAt values 0⟩ ⟨uintAt values 1⟩),
    ([.literal (text "local_link_exit"), fromId, .string],
      fun values => .localLinkExit ⟨uintAt values 0⟩ (stringAt values 1)),
    ([.literal (text "proxy_exit"), toId, .raw], fun values => .proxyExit ⟨uintAt values 0⟩)]

def ProxyMessage.classify (errorName : ε → Bytes) (m : Bytes) : Except Failure ProxyMessage :=
  firstMatch cbor errorName m .other (patterns cbor)

def EndpointMessage.classify (errorName : ε → Bytes) (m : Bytes) :
    Except Failure EndpointMessage :=
  firstMatch cbor errorName m .other (patterns cbor)

/-- The messages the two send each other, as message.fmt writes them. -/
def sendMessage (fromId : Lpiid) (remoteId : Rpiid) (m : Bytes) : Bytes :=
  cbor.writeValue (.tuple [.string (text "send"), lpiidVal cbor fromId, rpiidVal cbor remoteId,
    .raw m])

def linkWireMessage (fromId : Lpiid) (remoteId : Rpiid) : Bytes :=
  cbor.writeValue (.tuple [.string (text "link_wire"), lpiidVal cbor fromId,
    rpiidVal cbor remoteId])

def localLinkExitMessage (fromId : Lpiid) (reason : Bytes) : Bytes :=
  cbor.writeValue (.tuple [.string (text "local_link_exit"), lpiidVal cbor fromId,
    .string reason])

def proxyExitMessage (remoteId : Rpiid) (reason : Bytes) : Bytes :=
  cbor.writeValue (.tuple [.string (text "proxy_exit"), rpiidVal cbor remoteId, .string reason])

def endpointExitMessage : Bytes :=
  cbor.writeValue (.tuple [.string (text "endpoint_exit"), .string (text "transport_closed")])

def exitReasonMessage (reason : Bytes) : Bytes :=
  cbor.writeValue (.tuple [.string (text "exit"), .string reason])

def setNotifyMessage (targetId : Lpiid) : Bytes :=
  cbor.writeValue (.tuple [.string (text "set_notify"), lpiidVal cbor targetId])

def deliverNamedMessage (toName payload : Bytes) : Bytes :=
  cbor.writeValue (.tuple [.string (text "deliver_named"), .string toName, .raw payload])

def deliverPidMessage (toId : Lpiid) (payload : Bytes) : Bytes :=
  cbor.writeValue (.tuple [.string (text "deliver_pid"), lpiidVal cbor toId, .raw payload])

end Messages

section Receive
variable {ε : Type} (ext : Externals ε)

/-- `Proxy.receive_safe` of the proxy with the given id. -/
def proxyReceive (n : Node) (self : InstanceId) (remoteId : Rpiid) (mail : Mail) : Outcome :=
  let toEndpoint (m : Bytes) := n.sendRaw (some self) (some n.endpoint) m .own
  match ProxyMessage.classify ext.cbor ext.errorName mail.body with
  | .error f => (n, some f)
  | .ok (.endpointExit reason) => (n, some (Zig.exit ext.cbor reason))
  | .ok (.exit reason) =>
      if handleId mail.sender ≠ n.endpoint then
        ((toEndpoint (localLinkExitMessage ext.cbor ⟨handleId mail.sender⟩ reason)).1, none)
      else
        ((toEndpoint (proxyExitMessage ext.cbor remoteId reason)).1,
          some (Zig.exit ext.cbor reason))
  | .ok .link => toEndpoint (linkWireMessage ext.cbor ⟨handleId mail.sender⟩ remoteId)
  | .ok (.setNotify targetId) =>
      match n.fromId targetId.value with
      | some actor => (n.link self (some actor), none)
      | none => (n, none)
  | .ok (.deliverNamed toName payload) =>
      n.sendRaw (some self) (n.procs toName) payload .byName
  | .ok (.deliverPid targetId payload) =>
      match n.fromId targetId.value with
      | some actor => n.sendRaw (some self) (some actor) payload .byId
      | none => (n, none)
  | .ok .other => toEndpoint (sendMessage ext.cbor ⟨handleId mail.sender⟩ remoteId mail.body)

/-- The frame is handed to the transport. -/
def Node.sendFrame (n : Node) (msg : ProtocolMessage) (frame : Bytes) : Node :=
  { n with outgoing := n.outgoing ++ frame, framesOut := n.framesOut ++ [msg] }

def sendWire (n : Node) (msg : ProtocolMessage) : Outcome :=
  match msg.encode ext.cbor maxFrameSize with
  | .ok frame => (n.sendFrame msg frame, none)
  | .error e => (n, some (exitError ext.cbor (protocolErrorName ext.errorName e)))

/-- `self.remote_proxies.fetchRemove(to_id)` -/
def Node.fetchRemove (n : Node) (toId : Rpiid) : Node :=
  { n with remoteProxies := n.remoteProxies.filter fun entry => entry.1 ≠ toId }

/-- The endpoint's receive, which does not look at the sender. -/
def endpointReceive (n : Node) (m : Bytes) : Outcome :=
  match EndpointMessage.classify ext.cbor ext.errorName m with
  | .error f => (n, some f)
  | .ok (.send fromId toId payload) => sendWire ext n (.send fromId toId payload)
  | .ok (.sendNamed fromId toName payload) => sendWire ext n (.sendNamed fromId toName payload)
  | .ok (.linkWire fromId toId) => sendWire ext n (.link fromId toId)
  | .ok (.localLinkExit fromId reason) => sendWire ext n (.exit fromId reason)
  | .ok (.proxyExit toId) => (n.fetchRemove toId, none)
  | .ok .other => (n, some (unexpected ext m))

/-- A new proxy is spawned and recorded. -/
def Node.spawnProxy (n : Node) (remoteId : Rpiid) : Node :=
  { n.spawn (text "proxy") (.proxy remoteId) with
    remoteProxies := (remoteId, n.nextId) :: n.remoteProxies }

/-- The proxy recorded for the remote id, or a new one. -/
def getOrCreateProxy (n : Node) (remoteId : Rpiid) : Node × InstanceId :=
  match n.remoteProxies.lookup remoteId with
  | some p => (n, p)
  | none => (n.spawnProxy remoteId, n.nextId)

/-- `dispatch_inbound` behind the decoder. -/
def dispatchMessage (n : Node) : ProtocolMessage → Outcome
  | .send fromId toId payload =>
      let (n, prx) := getOrCreateProxy n ⟨fromId.value⟩
      n.sendRaw (some n.endpoint) (some prx) (deliverPidMessage ext.cbor ⟨toId.value⟩ payload) .own
  | .sendNamed fromId toName payload =>
      if fromId ≠ ⟨0⟩ then
        let (n, prx) := getOrCreateProxy n ⟨fromId.value⟩
        n.sendRaw (some n.endpoint) (some prx) (deliverNamedMessage ext.cbor toName payload) .own
      else n.sendRaw (some n.endpoint) (n.procs toName) payload .byName
  | .exit localId reason =>
      match n.remoteProxies.lookup ⟨localId.value⟩ with
      | some p =>
          ((n.sendRaw (some n.endpoint) (some p) (exitReasonMessage ext.cbor reason) .own).1, none)
      | none => (n, none)
  | .link localId remoteId =>
      let (n, prx) := getOrCreateProxy n ⟨localId.value⟩
      n.sendRaw (some n.endpoint) (some prx) (setNotifyMessage ext.cbor ⟨remoteId.value⟩) .own
  | .transportError reason => (n, some (Zig.exit ext.cbor reason))

def dispatchInbound (n : Node) (frame : Bytes) : Outcome :=
  match ProtocolMessage.decode ext.cbor frame with
  | .ok msg => dispatchMessage ext { n with framesIn := n.framesIn ++ [msg] } msg
  | .error e => (n, some (exitError ext.cbor (protocolErrorName ext.errorName e)))

/-- The loop of feed; every round removes a frame from the accumulator. -/
def feedRounds : Nat → Node → Option Bytes → Outcome
  | 0, n, _ => (n, none)
  | _ + 1, n, none => (n, none)
  | fuel + 1, n, some frame =>
      match dispatchInbound ext n frame with
      | (n, some f) => (n, some f)
      | (n, none) =>
          let (buf, next) := accumulatorFeed ext.cbor n.accumulator []
          feedRounds fuel { n with accumulator := buf } next

def feedNode (n : Node) (bytes : Bytes) : Outcome :=
  let (buf, first) := accumulatorFeed ext.cbor n.accumulator bytes
  feedRounds ext ((n.accumulator ++ bytes).length + 1) { n with accumulator := buf } first

/-- The endpoint's deinit runs when the receiver is dropped, with no current actor. -/
def deinit (n : Node) : Node :=
  let n := n.remoteProxies.foldl
    (fun n entry => (n.sendRaw none (some entry.2) (endpointExitMessage ext.cbor) .own).1) n
  { n with remoteProxies := [], deinited := true }

end Receive

end Thespian.Remote
