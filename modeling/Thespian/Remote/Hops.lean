import Thespian.Remote.Transparent

/-!
The way of a message from an actor to a remote one. It waits in the mailbox of a
proxy, in that of the endpoint, on the wire, in the mailbox of the proxy on the other
side, and arrives. Between any two of these places what has left the one is what has
come to the other, in order; an invariant for each hop says so in terms of what the
actors were sent and have received.
-/

namespace Thespian.Remote
open Cbor Zig Transition

namespace Node

/-- What was ever sent to the actor, and what of it the actor was handed. -/
def arrived (n : Node) (a : InstanceId) : List Mail := ((n.actors a).map Actor.arrived).getD []

def received (n : Node) (a : InstanceId) : List Mail := ((n.actors a).map Actor.received).getD []

def mailbox (n : Node) (a : InstanceId) : List Mail := ((n.actors a).map Actor.mailbox).getD []

def kindOf (n : Node) (a : InstanceId) : Option Kind := (n.actors a).map Actor.kind

theorem arrived_eq (n : Node) (a : InstanceId) : n.arrived a = n.received a ++ n.mailbox a := by
  unfold arrived received mailbox
  cases n.actors a with
  | none => rfl
  | some x => rfl

theorem mem_arrived {n : Node} {a : InstanceId} {mail : Mail} (waits : mail ∈ n.mailbox a) :
    mail ∈ n.arrived a := by
  rw [arrived_eq]
  exact List.mem_append_right _ waits

theorem arrived_of_some {n : Node} {a : InstanceId} {x : Actor} (h : n.actors a = some x) :
    n.arrived a = x.arrived := by
  simp [arrived, h]

theorem kindOf_eq_some {n : Node} {a : InstanceId} {kind : Kind} :
    n.kindOf a = some kind ↔ ∃ x, n.actors a = some x ∧ x.kind = kind :=
  Option.map_eq_some_iff

end Node

theorem Framed.kindOf {n n' : Node} (h : Framed Later n n') (a : InstanceId) :
    n'.kindOf a = n.kindOf a := by
  cases known : n.actors a with
  | none => rw [Node.kindOf, Node.kindOf, known, h.absent a known]
  | some x =>
      obtain ⟨x', known', later⟩ := h.actor a x known
      simp only [Node.kindOf, known, known', Option.map_some, later.kind]

theorem spawn_kinds {n : Node} (fresh : n.actors n.nextId = none) {name : Bytes} {kind k : Kind}
    {a : InstanceId} (known : n.kindOf a = some k) : (n.spawn name kind).kindOf a = some k := by
  obtain ⟨x, here, kind⟩ := Node.kindOf_eq_some.mp known
  exact Node.kindOf_eq_some.mpr ⟨x, spawn_known fresh here, kind⟩

section Hops
variable {ε : Type} (ext : Externals ε)

/-- A message of the actor that the proxy passes on. -/
def passedOn (a : InstanceId) (mail : Mail) : Option Bytes :=
  if mail.sender = some a ∧
      ProxyMessage.classify ext.cbor ext.errorName mail.body = .ok .other then
    some mail.body
  else none

/-- The payload of a request of the proxy for the remote id, on behalf of the actor. -/
def requested (a : InstanceId) (r : Rpiid) (mail : Mail) : Option Bytes :=
  match EndpointMessage.classify ext.cbor ext.errorName mail.body with
  | .ok (.send fromId toId payload) =>
      if fromId = ⟨a⟩ ∧ toId = r then some payload else none
  | _ => none

/-- The frame that the endpoint makes of a mail. -/
def framed (mail : Mail) : Option ProtocolMessage :=
  if Runtime.isLinkMsg mail.body then none
  else match EndpointMessage.classify ext.cbor ext.errorName mail.body with
    | .ok message => message.frame?
    | .error _ => none

/-- The target and payload of a send frame on behalf of the actor. -/
def sentFrom (a : InstanceId) : ProtocolMessage → Option (InstanceId × Bytes)
  | .send fromId toId payload => if fromId = ⟨a⟩ then some (toId.value, payload) else none
  | _ => none

/-- The target and payload of a delivery that a proxy is asked for. -/
def delivery (mail : Mail) : Option (InstanceId × Bytes) :=
  match ProxyMessage.classify ext.cbor ext.errorName mail.body with
  | .ok (.deliverPid targetId payload) => some (targetId.value, payload)
  | _ => none

/-- The payload of what the proxy has delivered to an actor by its id. -/
def deliveredBy (q : InstanceId) (mail : Mail) : Option Bytes :=
  if mail.sender = some q ∧ mail.route = .byId then some mail.body else none

def toTarget (b : InstanceId) (entry : InstanceId × Bytes) : Option Bytes :=
  if entry.1 = b then some entry.2 else none

end Hops

section Mails
variable {ε : Type} (ext : Externals ε)

/-- A message of a user that has no shape of the protocol between a proxy and the
endpoint. -/
structure Plain (m : Bytes) : Prop where
  item : Item m
  proxy : Shapeless ext.cbor m
  endpoint : ∀ branch ∈ EndpointMessage.patterns ext.cbor,
    ext.cbor.matchFrame m branch.1 = .ok none

def Known (n : Node) (a : InstanceId) : Prop := ∃ kind, n.kindOf a = some kind

/-- What a proxy may be sent. -/
inductive ProxyMail (n : Node) (mail : Mail) : Prop
  | plain (plain : Plain ext mail.body)
  | link (body : mail.body = Runtime.linkMsg)
  | deliverPid (targetId : Lpiid) (payload : Bytes) (sender : mail.sender = some n.endpoint)
      (body : mail.body = deliverPidMessage ext.cbor targetId payload)
      (plain : Plain ext payload) (known : Known n targetId.value)
  | deliverNamed (toName payload : Bytes) (sender : mail.sender = some n.endpoint)
      (body : mail.body = deliverNamedMessage ext.cbor toName payload)
      (small : toName.length < 2 ^ 62) (plain : Plain ext payload)
  | setNotify (targetId : Lpiid) (sender : mail.sender = some n.endpoint)
      (body : mail.body = setNotifyMessage ext.cbor targetId)

/-- What the endpoint may be sent. A named request is sent by users as well, on behalf of
an actor there is or of nobody. -/
inductive EndpointMail (n : Node) (mail : Mail) : Prop
  | plain (plain : Plain ext mail.body)
  | link (body : mail.body = Runtime.linkMsg)
  | send (a : InstanceId) (r : Rpiid) (m : Bytes)
      (body : mail.body = sendMessage ext.cbor ⟨a⟩ r m) (plain : Plain ext m) (known : Known n a)
      (proxy : ∃ p, n.kindOf p = some (.proxy r))
  | linkWire (a : InstanceId) (r : Rpiid) (body : mail.body = linkWireMessage ext.cbor ⟨a⟩ r)
      (known : Known n a) (proxy : ∃ p, n.kindOf p = some (.proxy r))
  | named (fromId : Lpiid) (toName payload : Bytes)
      (classified : EndpointMessage.classify ext.cbor ext.errorName mail.body =
        .ok (.sendNamed fromId toName payload))
      (plain : Plain ext payload)
      (known : fromId ≠ ⟨0⟩ → Known n fromId.value)

variable {ext}

theorem Plain.classify_proxy {m : Bytes} (h : Plain ext m) :
    ProxyMessage.classify ext.cbor ext.errorName m = .ok .other :=
  classify_other_iff.mpr h.proxy

theorem Plain.classify_endpoint {m : Bytes} (h : Plain ext m) :
    EndpointMessage.classify ext.cbor ext.errorName m = .ok .other := by
  refine (firstMatch_other_iff ?_).mpr h.endpoint
  simp only [EndpointMessage.patterns, List.forall_mem_cons]
  simp

theorem Plain.not_link (doc : Selective ext.cbor) {m : Bytes} (h : Plain ext m) :
    Runtime.isLinkMsg m = false := by
  have classified := h.classify_proxy
  refine decide_eq_false fun same => ?_
  rw [same, classify_linkMsg doc] at classified
  cases classified

theorem linkMsg_eq : Runtime.linkMsg = arrayOf [pushString (text "link")] := by decide

/-- The endpoint does not listen for a link. -/
theorem classify_endpoint_linkMsg (doc : Selective ext.cbor) :
    EndpointMessage.classify ext.cbor ext.errorName Runtime.linkMsg = .ok .other := by
  have items : Items [pushString (text "link")] :=
    items_of_forall (by decide) (by simpa using item_string (by decide))
  rw [linkMsg_eq]
  unfold EndpointMessage.classify EndpointMessage.patterns
  rw [firstMatch_skip doc items (by decide), firstMatch_skip doc items (by decide),
    firstMatch_skip doc items (by decide), firstMatch_skip doc items (by decide),
    firstMatch_skip doc items (by decide)]
  rfl

/-- What a proxy takes its mails for. -/
theorem classify_deliverPid (doc : Selective ext.cbor) (targetId : Lpiid) {payload : Bytes}
    (item : Item payload) :
    ProxyMessage.classify ext.cbor ext.errorName (deliverPidMessage ext.cbor targetId payload) =
      .ok (.deliverPid targetId payload) := by
  rw [deliverPidMessage_eq doc.toDocumented]
  refine ProxyMessage.classify_elements doc nofun (items_of_forall ?_ ?_)
  · simp [ProxyMessage.elements]
  · simp only [ProxyMessage.elements, List.forall_mem_cons]
    exact ⟨item_string (by decide), item_lpiid targetId, item, by simp⟩

theorem classify_deliverNamed (doc : Selective ext.cbor) {toName payload : Bytes}
    (small : toName.length < 2 ^ 62) (item : Item payload) :
    ProxyMessage.classify ext.cbor ext.errorName (deliverNamedMessage ext.cbor toName payload) =
      .ok (.deliverNamed toName payload) := by
  rw [deliverNamedMessage_eq doc.toDocumented]
  refine ProxyMessage.classify_elements doc nofun (items_of_forall ?_ ?_)
  · simp [ProxyMessage.elements]
  · simp only [ProxyMessage.elements, List.forall_mem_cons]
    exact ⟨item_string (by decide), item_string small, item, by simp⟩

theorem classify_setNotify (doc : Selective ext.cbor) (targetId : Lpiid) :
    ProxyMessage.classify ext.cbor ext.errorName (setNotifyMessage ext.cbor targetId) =
      .ok (.setNotify targetId) := by
  rw [setNotifyMessage_eq doc.toDocumented]
  refine ProxyMessage.classify_elements doc nofun (items_of_forall ?_ ?_)
  · simp [ProxyMessage.elements]
  · simp only [ProxyMessage.elements, List.forall_mem_cons]
    exact ⟨item_string (by decide), item_lpiid targetId, by simp⟩

/-- What the endpoint takes the requests of its proxies for. -/
theorem classify_send (doc : Selective ext.cbor) (fromId : Lpiid) (toId : Rpiid) {m : Bytes}
    (item : Item m) :
    EndpointMessage.classify ext.cbor ext.errorName (sendMessage ext.cbor fromId toId m) =
      .ok (.send fromId toId m) := by
  rw [sendMessage_eq doc.toDocumented fromId toId m []]
  refine EndpointMessage.classify_elements doc nofun (items_of_forall ?_ ?_)
  · simp [EndpointMessage.elements]
  · simp only [EndpointMessage.elements, List.forall_mem_cons]
    exact ⟨item_string (by decide), item_lpiid fromId, item_rpiid toId, item, by simp⟩

theorem classify_linkWire (doc : Selective ext.cbor) (fromId : Lpiid) (toId : Rpiid) :
    EndpointMessage.classify ext.cbor ext.errorName (linkWireMessage ext.cbor fromId toId) =
      .ok (.linkWire fromId toId) := by
  rw [linkWireMessage_eq doc.toDocumented fromId toId []]
  refine EndpointMessage.classify_elements doc nofun (items_of_forall ?_ ?_)
  · simp [EndpointMessage.elements]
  · simp only [EndpointMessage.elements, List.forall_mem_cons]
    exact ⟨item_string (by decide), item_lpiid fromId, item_rpiid toId, by simp⟩

end Mails

end Thespian.Remote
