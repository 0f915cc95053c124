import Thespian.Remote.Network

/-!
Delivery of the messages of an actor to a remote one, in a network in which no actor
exits. The hops of either side and the stream between them are put together: what has
come to the target is a beginning of what was sent to the proxy, and all of it once
nothing is left on the way. Replies take the same way back.
-/

namespace Thespian.Remote
open Decoding Decoding.Decoder Cbor Zig Transition

/-- What an actor has sent to a proxy, apart from requests to link. -/
def sentTo (n : Node) (a p : InstanceId) : List Bytes :=
  (n.arrived p).filterMap fun mail =>
    if mail.sender = some a ∧ mail.body ≠ Runtime.linkMsg then some mail.body else none

/-- What has come to an actor, by its id, from a proxy of the remote actor. -/
def deliveredFrom (n : Node) (a b : InstanceId) : List Bytes :=
  (n.arrived b).filterMap fun mail =>
    if mail.route = .byId ∧ mail.sender.bind n.kindOf = some (.proxy ⟨a⟩) then some mail.body
    else none

/-- Nobody on the way from the actor through the proxy has anything left to do. -/
structure Idle {ε : Type} (ext : Externals ε) (L R : Node) (a p : InstanceId) : Prop where
  proxy : L.turn ext p = none
  endpoint : L.turn ext L.endpoint = none
  outgoing : L.outgoing = []
  proxies : ∀ q, R.kindOf q = some (.proxy ⟨a⟩) → R.turn ext q = none

/-- The messages of an actor of the left side to its proxy of an actor of the right one. -/
structure Carries {ε : Type} (ext : Externals ε) (L R : Node) (a b p : InstanceId) : Prop where
  target : Known R b
  onePid : ∀ q q', R.kindOf q = some (.proxy ⟨a⟩) → R.kindOf q' = some (.proxy ⟨a⟩) → q = q'
  inOrder : deliveredFrom R a b <+: sentTo L a p
  whole : Idle ext L R a p → deliveredFrom R a b = sentTo L a p

/-- The messages of all actors of the left side to actors of the right one. -/
structure Delivers {ε : Type} (ext : Externals ε) (L R : Node) : Prop where
  carries : ∀ a b p, L.kindOf p = some (.proxy ⟨b⟩) → a ≠ L.endpoint → Carries ext L R a b p
  nothingElse : ∀ a b, deliveredFrom R a b ≠ [] → ∃ p, L.kindOf p = some (.proxy ⟨b⟩)

section Carries
variable {ε : Type} {ext : Externals ε} {n L R : Node} {a b p q : InstanceId} {mail : Mail}

/-- The payload of a frame from the one actor to the other. -/
def carried (a b : InstanceId) (msg : ProtocolMessage) : Option Bytes :=
  (sentFrom a msg).bind (toTarget b)

theorem filterMap_carried (a b : InstanceId) (frames : List ProtocolMessage) :
    frames.filterMap (carried a b) = (frames.filterMap (sentFrom a)).filterMap (toTarget b) := by
  rw [List.filterMap_filterMap]
  rfl

theorem mailbox_of_turn (h : n.turn ext a = none) : n.mailbox a = [] := by
  unfold Node.turn at h
  unfold Node.mailbox
  split at h
  · rename_i unknown
    rw [unknown]
    rfl
  · rename_i x known
    rw [known]
    split at h
    · rename_i empty
      exact empty
    · cases h

/-- Of the mails of a proxy, the endpoint's apart, all but the requests to link are passed
on. -/
theorem Regular.sentTo_eq (doc : Selective ext.cbor) (h : Regular ext n) {r : Rpiid}
    (kind : n.kindOf p = some (.proxy r)) (other : a ≠ n.endpoint) :
    sentTo n a p = (n.arrived p).filterMap (passedOn ext a) := by
  refine List.filterMap_congr fun mail member => ?_
  unfold passedOn
  refine if_congr ?_ rfl rfl
  have control (sender : mail.sender = some n.endpoint) : mail.sender ≠ some a := by
    rw [sender]
    exact fun same => other (Option.some.inj same).symm
  cases h.proxyMail p r kind mail member with
  | plain plain =>
      have notLink : mail.body ≠ Runtime.linkMsg := of_decide_eq_false (plain.not_link doc)
      simp [plain.classify_proxy, notLink]
  | link body => simp [body, classify_linkMsg doc]
  | deliverPid _ _ sender _ _ _ => simp [control sender]
  | deliverNamed _ _ sender _ _ _ => simp [control sender]
  | setNotify _ sender _ => simp [control sender]

/-- A request for a send is made a frame of. -/
theorem requested_eq (doc : Selective ext.cbor) (a b : InstanceId) (mail : Mail) :
    requested ext a ⟨b⟩ mail = (framed ext mail).bind (carried a b) := by
  unfold requested framed
  split
  · rename_i fromId toId payload classified
    have notLink : Runtime.isLinkMsg mail.body = false := by
      refine decide_eq_false fun same => ?_
      rw [same, classify_endpoint_linkMsg doc] at classified
      cases classified
    simp only [notLink, classified, EndpointMessage.frame?, Bool.false_eq_true, if_false,
      Option.bind_some, carried, sentFrom]
    by_cases from' : fromId = ⟨a⟩
    · by_cases to' : toId = ⟨b⟩
      · simp [from', to', toTarget]
      · have other : toId.value ≠ b := by
          rintro rfl
          exact to' rfl
        simp [from', to', other, toTarget]
    · simp [from']
  · rename_i noSend
    split
    · rfl
    · split
      · rename_i message classified
        cases message with
        | send fromId toId payload => exact absurd classified (noSend fromId toId payload)
        | sendNamed _ _ _ | linkWire _ _ | localLinkExit _ _ | proxyExit _ | other => rfl
      · rfl

/-- From the sender's proxy to the wire. -/
theorem Regular.sentTo_frames (doc : Selective ext.cbor) (h : Regular ext n)
    (kind : n.kindOf p = some (.proxy ⟨b⟩)) (other : a ≠ n.endpoint) :
    sentTo n a p = n.framesOut.filterMap (carried a b) ++
      ((n.mailbox n.endpoint).filterMap (requested ext a ⟨b⟩) ++
        (n.mailbox p).filterMap (passedOn ext a)) := by
  have endpoint : (n.received n.endpoint).filterMap (requested ext a ⟨b⟩) =
      n.framesOut.filterMap (carried a b) := by
    rw [h.sent, List.filterMap_filterMap]
    exact List.filterMap_congr fun mail _ => requested_eq doc a b mail
  rw [h.sentTo_eq doc kind other, n.arrived_eq, List.filterMap_append, h.passed p ⟨b⟩ a kind,
    n.arrived_eq, List.filterMap_append, endpoint, List.append_assoc]

/-- Only the proxy there is for a remote actor delivers its messages. -/
theorem Regular.deliveredFrom_eq (h : Regular ext n) (kind : n.kindOf q = some (.proxy ⟨a⟩)) :
    deliveredFrom n a b = (n.arrived b).filterMap (deliveredBy q) := by
  refine List.filterMap_congr fun mail member => ?_
  unfold deliveredBy
  refine if_congr ?_ rfl rfl
  obtain ⟨s, sender, -⟩ := h.senders b mail member
  rw [sender, Option.bind_some]
  constructor
  · rintro ⟨route, kind'⟩
    have same : s = q := Option.some.inj ((h.recorded s _ kind').symm.trans (h.recorded q _ kind))
    exact ⟨congrArg some same, route⟩
  · rintro ⟨same, route⟩
    cases same
    exact ⟨route, kind⟩

/-- From the wire to the target, where there is a proxy for the sender. -/
theorem Regular.frames_delivered (h : Regular ext n) (kind : n.kindOf q = some (.proxy ⟨a⟩)) :
    n.framesIn.filterMap (carried a b) = deliveredFrom n a b ++
      (n.mailbox q).filterMap fun mail => (delivery ext mail).bind (toTarget b) := by
  rw [filterMap_carried, h.handed q a kind, List.filterMap_filterMap, n.arrived_eq,
    List.filterMap_append, h.delivered q ⟨a⟩ b kind, h.deliveredFrom_eq kind]

/-- Without a proxy for the sender, nothing of it has come. -/
theorem Regular.frames_nobody (h : Regular ext n) (nobody : ∀ q, n.kindOf q ≠ some (.proxy ⟨a⟩)) :
    n.framesIn.filterMap (carried a b) = [] ∧ deliveredFrom n a b = [] := by
  constructor
  · refine List.filterMap_eq_nil_iff.mpr fun msg member => ?_
    cases msg with
    | send fromId toId payload =>
        have other : fromId ≠ ⟨a⟩ := by
          rintro rfl
          obtain ⟨q, kind⟩ := h.source _ toId payload member
          exact nobody q kind
        simp [carried, sentFrom, other]
    | sendNamed _ _ _ | link _ _ | exit _ _ | transportError _ => rfl
  · refine List.filterMap_eq_nil_iff.mpr fun mail member => if_neg ?_
    rintro ⟨-, kind⟩
    obtain ⟨s, sender, -⟩ := h.senders b mail member
    rw [sender] at kind
    exact nobody s kind

theorem Linked.carries (doc : Selective ext.cbor) (h : Linked ext L R)
    (kind : L.kindOf p = some (.proxy ⟨b⟩)) (other : a ≠ L.endpoint) : Carries ext L R a b p := by
  obtain ⟨rest, inFlight, out⟩ := h.stream
  have sent := h.regular.sentTo_frames doc kind other
  rw [out, List.filterMap_append] at sent
  have clear (idle : Idle ext L R a p) : (rest.map Prod.snd).filterMap (carried a b) ++
      ((L.mailbox L.endpoint).filterMap (requested ext a ⟨b⟩) ++
        (L.mailbox p).filterMap (passedOn ext a)) = [] := by
    rw [inFlight.whole idle.outgoing, mailbox_of_turn idle.endpoint, mailbox_of_turn idle.proxy]
    rfl
  refine ⟨h.mirrors p ⟨b⟩ kind, ?_, ?_, ?_⟩
  · intro q q' first second
    exact Option.some.inj
      ((h.regular'.recorded q _ first).symm.trans (h.regular'.recorded q' _ second))
  · rw [sent]
    by_cases there : ∃ q, R.kindOf q = some (.proxy ⟨a⟩)
    · obtain ⟨q, proxy⟩ := there
      rw [h.regular'.frames_delivered proxy, List.append_assoc, List.append_assoc]
      exact List.prefix_append _ _
    · rw [(h.regular'.frames_nobody (not_exists.mp there)).2]
      exact List.nil_prefix
  · intro idle
    rw [sent, List.append_assoc, clear idle, List.append_nil]
    by_cases there : ∃ q, R.kindOf q = some (.proxy ⟨a⟩)
    · obtain ⟨q, proxy⟩ := there
      rw [h.regular'.frames_delivered proxy, mailbox_of_turn (idle.proxies q proxy)]
      exact (List.append_nil _).symm
    · obtain ⟨none, none'⟩ := h.regular'.frames_nobody (b := b) (not_exists.mp there)
      rw [none, none']

/-- What is delivered was sent to a proxy of the target. -/
theorem Linked.delivered_proxy (doc : Selective ext.cbor) (h : Linked ext L R)
    (something : deliveredFrom R a b ≠ []) : ∃ p, L.kindOf p = some (.proxy ⟨b⟩) := by
  obtain ⟨q, proxy⟩ : ∃ q, R.kindOf q = some (.proxy ⟨a⟩) := by
    by_contra nobody
    exact something (h.regular'.frames_nobody (not_exists.mp nobody)).2
  obtain ⟨payload, member⟩ := List.exists_mem_of_ne_nil _ something
  have dispatched : payload ∈ R.framesIn.filterMap (carried a b) := by
    rw [h.regular'.frames_delivered proxy]
    exact List.mem_append_left _ member
  obtain ⟨msg, came, carries⟩ := List.mem_filterMap.mp dispatched
  obtain ⟨rest, -, out⟩ := h.stream
  have outbound : Outbound ext L msg := by
    refine h.regular.outbound doc ?_
    rw [out]
    exact List.mem_append_left _ came
  cases msg with
  | send fromId toId payload' =>
      obtain ⟨-, ⟨p, kind⟩, -⟩ := outbound
      have target : toId = ⟨b⟩ := by
        obtain ⟨entry, sent, toB⟩ := Option.bind_eq_some_iff.mp carries
        simp only [sentFrom, Option.ite_none_right_eq_some, Option.some.injEq] at sent
        obtain ⟨-, rfl⟩ := sent
        simp only [toTarget, Option.ite_none_right_eq_some] at toB
        exact congrArg Rpiid.mk toB.1
      exact ⟨p, target ▸ kind⟩
  | sendNamed _ _ _ | link _ _ | exit _ _ | transportError _ => cases carries

theorem Linked.delivers (doc : Selective ext.cbor) (h : Linked ext L R) : Delivers ext L R :=
  ⟨fun _ _ _ kind other => h.carries doc kind other, fun _ _ => h.delivered_proxy doc⟩

/-- In every run in which no actor exits, what an actor sends to its proxy of a remote
actor is delivered to that actor, each message once and in order, from the one proxy of
the sender; what is sent to that proxy is delivered back in the same way. -/
theorem remote_delivery (doc : Selective ext.cbor) {w w' : Network} (left : Initial w.left)
    (right : Initial w.right) {acts : List NetworkAction}
    (sends : Along (Network.step ext) (NetworkSends ext) w acts)
    (ran : run (Network.step ext) w acts = some w') (noExit : w'.NoExit) :
    Delivers ext w'.left w'.right ∧ Delivers ext w'.right w'.left := by
  have linked := linked_run doc (linked_initial left right) sends ran noExit
  exact ⟨linked.delivers doc, linked.symm.delivers doc⟩

end Carries

section Example

def ping : Bytes := arrayOf [pushString (text "ping")]

def pong : Bytes := arrayOf [pushString (text "pong")]

/-- The request of actor 3 to send a message to a name. -/
def pingNamed : Bytes :=
  arrayOf ((EndpointMessage.sendNamed ⟨3⟩ (text "pong") ping).elements [])

/-- The name of actor 2. -/
def pongName (name : Bytes) : Handle := if name = text "pong" then some 2 else none

def pingPongStart : Network := ⟨Node.start pongName, Node.start noNames⟩

/-- Actor 3 of the right side writes to actor 2 of the left one by its name. Actor 2
answers to the proxy that it was written from, and actor 3 to the proxy of actor 2. -/
def pingPong : List NetworkAction :=
  [.left (.act (.spawn (text "pong") true)), .right (.act (.spawn (text "other") true)),
    .right (.act (.spawn (text "ping") true)), .right (.act (.send 3 (some 1) pingNamed)),
    .right (.act (.turn 1)), .right (.chunk 7), .right (.chunk 100), .left (.act (.turn 3)),
    .left (.act (.send 2 (some 3) pong)), .left (.act (.turn 3)), .left (.act (.turn 1)),
    .left (.chunk 20), .left (.chunk 100), .right (.act (.turn 4)),
    .right (.act (.send 3 (some 4) ping)), .right (.act (.turn 4)), .right (.act (.turn 1)),
    .right (.chunk 100), .left (.act (.turn 3))]

/-- What is sent in it. -/
def pingPongSends (w : Network) : NetworkAction → Bool
  | .left (.act (.send _ _ m)) => m = pong
  | .right (.act (.send _ target m)) =>
      m = ping || (m = pingNamed && target = some w.right.endpoint && (w.right.kindOf 3).isSome)
  | _ => true

theorem plain_of_classify {m : Bytes} (item : Item m)
    (proxy : ProxyMessage.classify lenient DomainError.what m = .ok .other)
    (endpoint : EndpointMessage.classify lenient DomainError.what m = .ok .other) :
    Plain lenientExternals m := by
  refine ⟨item, classify_other_iff.mp proxy, (firstMatch_other_iff ?_).mp endpoint⟩
  simp only [EndpointMessage.patterns, List.forall_mem_cons]
  simp

theorem ping_plain : Plain lenientExternals ping :=
  plain_of_classify ⟨by decide, by decide⟩ (by decide +kernel) (by decide +kernel)

theorem pong_plain : Plain lenientExternals pong :=
  plain_of_classify ⟨by decide, by decide⟩ (by decide +kernel) (by decide +kernel)

theorem pingNamed_classify :
    EndpointMessage.classify lenient DomainError.what pingNamed =
      .ok (.sendNamed ⟨3⟩ (text "pong") ping) := by
  refine EndpointMessage.classify_elements lenient_selective nofun (items_of_forall (by decide) ?_)
  simp only [EndpointMessage.elements, List.forall_mem_cons]
  exact ⟨item_string (by decide), item_lpiid _, item_string (by decide), ping_plain.item, by simp⟩

theorem pingPong_sends : Along (Network.step lenientExternals) (NetworkSends lenientExternals)
    pingPongStart pingPong := by
  have checked : Along (Network.step lenientExternals) (fun w act => pingPongSends w act = true)
      pingPongStart pingPong := by decide +kernel
  refine checked.mono fun w act check => ?_
  unfold pingPongSends at check
  split at check
  · cases of_decide_eq_true check
    exact .inl pong_plain
  · simp only [Bool.or_eq_true, Bool.and_eq_true, decide_eq_true_eq] at check
    rcases check with rfl | ⟨⟨rfl, rfl⟩, somebody⟩
    · exact .inl ping_plain
    · refine .inr ⟨rfl, _, _, _, pingNamed_classify, ping_plain, fun _ => ?_⟩
      exact Option.isSome_iff_exists.mp somebody
  · rename_i noSend noSend'
    cases act with
    | left adv =>
        cases adv with
        | act act =>
            cases act with
            | send a target m => exact (noSend a target m rfl).elim
            | spawn _ _ | link _ _ | quit _ _ | turn _ | destroy _ | arrive _ | stop _ | deinit =>
                trivial
        | chunk count => trivial
    | right adv =>
        cases adv with
        | act act =>
            cases act with
            | send a target m => exact (noSend' a target m rfl).elim
            | spawn _ _ | link _ _ | quit _ _ | turn _ | destroy _ | arrive _ | stop _ | deinit =>
                trivial
        | chunk count => trivial

theorem remote_delivery_pingPong : ∃ w,
    run (Network.step lenientExternals) pingPongStart pingPong = some w ∧
    Carries lenientExternals w.left w.right 2 3 3 ∧ Carries lenientExternals w.right w.left 3 2 4 ∧
    deliveredFrom w.right 2 3 = [pong] ∧ deliveredFrom w.left 3 2 = [ping] := by
  have people : (run (Network.step lenientExternals) pingPongStart pingPong).map (fun w =>
      ([w.left.kindOf 3, w.right.kindOf 4], [w.left.endpoint, w.right.endpoint])) =
        some ([some (.proxy ⟨3⟩), some (.proxy ⟨2⟩)], [1, 1]) := by decide +kernel
  have mails : (run (Network.step lenientExternals) pingPongStart pingPong).map (fun w =>
      ([deliveredFrom w.right 2 3, deliveredFrom w.left 3 2],
        [w.left.allAlive, w.right.allAlive])) = some ([[pong], [ping]], [true, true]) := by
    decide +kernel
  obtain ⟨w, ran, eq⟩ := Option.map_eq_some_iff.mp people
  rw [ran, Option.map_some, Option.some.injEq] at mails
  simp only [Prod.mk.injEq, List.cons.injEq, and_true] at eq mails
  obtain ⟨⟨left, right⟩, endpoint, endpoint'⟩ := eq
  obtain ⟨⟨pongs, pings⟩, alive, alive'⟩ := mails
  have consistent := network_consistent (start_initial pongName) (start_initial noNames) ran
  have noExit : w.NoExit := ⟨noExit_of_allAlive consistent.1 alive, noExit_of_allAlive consistent.2 alive'⟩
  obtain ⟨forth, back⟩ := remote_delivery lenient_selective (start_initial pongName)
    (start_initial noNames) pingPong_sends ran noExit
  refine ⟨w, ran, forth.carries 2 3 3 left ?_, back.carries 3 2 4 right ?_, pongs, pings⟩
  · rw [endpoint]
    decide
  · rw [endpoint']
    decide

end Example

end Thespian.Remote
