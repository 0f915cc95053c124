import Thespian.Remote.Regular

/-!
The steps of a node in which no actor exits. A user's message that has no shape of the
protocol stays where it is sent; a proxy passes on, links or delivers; the endpoint
makes a frame of every request. Each of these is a balanced move.
-/

namespace Thespian.Remote
open Decoding Decoding.Decoder Cbor Zig Transition

/-- No actor has exited. -/
structure NoExit (n : Node) : Prop where
  alive : ∀ a x, n.actors a = some x → x.status = .alive
  up : n.crashed = false

/-- The condition on what users send: no message has a shape of the protocol, apart from
requests to the endpoint to send to a name, on behalf of an actor there is or of nobody. -/
def UserSends {ε : Type} (ext : Externals ε) (n : Node) : Action → Prop
  | .send _ target m => Plain ext m ∨ target = some n.endpoint ∧ ∃ fromId toName payload,
      EndpointMessage.classify ext.cbor ext.errorName m = .ok (.sendNamed fromId toName payload) ∧
        Plain ext payload ∧ (fromId ≠ ⟨0⟩ → Known n fromId.value)
  | _ => True

/-- What a step adds to the stream. -/
structure Emitted {ε : Type} (ext : Externals ε) (n n' : Node)
    (frames : List (Frame UInt8 ProtocolMessage)) : Prop where
  framesOut : n'.framesOut = n.framesOut ++ frames.map Prod.snd
  outgoing : n'.outgoing = n.outgoing ++ wire frames
  encoded : ∀ f ∈ frames, f.2.encode ext.cbor maxFrameSize = .ok f.1
  framesIn : n'.framesIn = n.framesIn
  accumulator : n'.accumulator = n.accumulator

section Balanced
variable {ε : Type} {ext : Externals ε} {n n' : Node} {mail : Mail}

theorem Regular.endpoint_kind (h : Regular ext n) : n.kindOf n.endpoint = some .endpoint :=
  Node.kindOf_eq_some.mpr h.consistent.endpoint

theorem Regular.endpoint_not_proxy (h : Regular ext n) {p : InstanceId} {r : Rpiid}
    (kind : n.kindOf p = some (.proxy r)) : p ≠ n.endpoint := by
  rintro rfl
  rw [h.endpoint_kind] at kind
  cases kind

theorem mem_single {b c : InstanceId} {new : Mail} (h : new ∈ single b mail c) :
    c = b ∧ new = mail := by
  unfold single at h
  split at h
  · rename_i same
    exact ⟨same, List.mem_singleton.mp h⟩
  · cases h

/-- A mail that is on nobody's way. -/
theorem Regular.post_inert (h : Regular ext n) {b s : InstanceId} (known : Known n b)
    (sender : mail.sender = some s) (sends : Known n s)
    (proxyMail : ∀ r, n.kindOf b = some (.proxy r) → ProxyMail ext n mail ∧ delivery ext mail = none)
    (endpointMail : b = n.endpoint →
      EndpointMail ext n mail ∧ ∀ a r, requested ext a r mail = none)
    (route : mail.route ≠ .byId) : Regular ext (n.post b mail) := by
  refine h.move (.post known mail) ⟨?_, ?_, ?_, ?_, rfl, nofun, ?_, ?_⟩
  · intro c new here
    obtain ⟨-, rfl⟩ := mem_single here
    exact ⟨s, sender, sends⟩
  · intro p r kind new here
    obtain ⟨rfl, rfl⟩ := mem_single here
    exact (proxyMail r kind).1
  · intro new here
    obtain ⟨same, rfl⟩ := mem_single here
    exact (endpointMail same.symm).1
  · intro p r a kind
    symm
    refine List.filterMap_eq_nil_iff.mpr fun new here => ?_
    obtain ⟨same, rfl⟩ := mem_single here
    exact (endpointMail same.symm).2 a r
  · intro q a kind
    symm
    refine List.filterMap_eq_nil_iff.mpr fun new here => ?_
    obtain ⟨rfl, rfl⟩ := mem_single here
    exact (proxyMail _ kind).2
  · intro q r c kind
    symm
    refine List.filterMap_eq_nil_iff.mpr fun new here => ?_
    obtain ⟨-, rfl⟩ := mem_single here
    exact if_neg fun both => route both.2

theorem requested_of_other (classified : EndpointMessage.classify ext.cbor ext.errorName mail.body =
    .ok .other) (a : InstanceId) (r : Rpiid) : requested ext a r mail = none := by
  rw [requested, classified]

theorem delivery_of_other (classified : ProxyMessage.classify ext.cbor ext.errorName mail.body =
    .ok .other) : delivery ext mail = none := by
  rw [delivery, classified]

theorem Regular.post_plain (h : Regular ext n) {b s : InstanceId} (known : Known n b)
    (sender : mail.sender = some s) (sends : Known n s) (plain : Plain ext mail.body)
    (route : mail.route ≠ .byId) : Regular ext (n.post b mail) :=
  h.post_inert known sender sends (fun _ _ => ⟨.plain plain, delivery_of_other plain.classify_proxy⟩)
    (fun _ => ⟨.plain plain, requested_of_other plain.classify_endpoint⟩) route

theorem Regular.post_link (doc : Selective ext.cbor) (h : Regular ext n) {b s : InstanceId}
    (known : Known n b) (sends : Known n s) :
    Regular ext (n.post b ⟨some s, Runtime.linkMsg, .own⟩) := by
  refine h.post_inert known rfl sends (fun _ _ => ⟨.link rfl, ?_⟩) (fun _ => ⟨.link rfl, ?_⟩) nofun
  · rw [delivery, classify_linkMsg doc]
  · exact requested_of_other (classify_endpoint_linkMsg doc)

theorem Regular.links (h : Regular ext n) {b : InstanceId} (known : Known n b) (target : Handle) :
    Regular ext (n.update b fun x => { x with links := target :: x.links }) :=
  h.unmoved (.links known target)

theorem Regular.link (doc : Selective ext.cbor) (h : Regular ext n) {a : InstanceId}
    (sends : Known n a) (target : Handle) : Regular ext (n.link a target) := by
  unfold Node.link
  rcases n.sendRaw_cases (some a) target Runtime.linkMsg .own with
    ⟨b, y, -, found, -, eq⟩ | ⟨-, sender, eq⟩
  · have known : Known n b := ⟨_, Node.kindOf_eq_some.mpr ⟨y, found, rfl⟩⟩
    have move := Move.post known ⟨some a, Runtime.linkMsg, .own⟩
    rw [eq]
    exact (h.post_link doc known sends).links (sends.mono fun c k => ((move.kind c).trans ·)) target
  · rw [eq]
    split
    · rename_i n' same
      obtain ⟨rfl, -⟩ := Prod.mk.inj same
      exact h.links sends target
    · rename_i n' f same
      obtain ⟨rfl, -⟩ := Prod.mk.inj same
      exact h

/-- A mail of which nothing comes. -/
theorem Regular.take_inert (h : Regular ext n) {a : InstanceId} {x : Actor} {rest : List Mail}
    (known : n.actors a = some x) (mailbox : x.mailbox = mail :: rest)
    (proxy : ∀ r, x.kind = .proxy r → (∀ c, passedOn ext c mail = none) ∧ delivery ext mail = none)
    (endpoint : x.kind = .endpoint → framed ext mail = none) : Regular ext (n.take a) := by
  have kind : n.kindOf a = some x.kind := Node.kindOf_eq_some.mpr ⟨x, known, rfl⟩
  refine h.move (.take known mailbox) ⟨nofun, fun _ _ _ => nofun, nofun, ?_, ?_, nofun,
    fun _ _ _ => rfl, ?_⟩
  · intro p r c isProxy
    refine List.filterMap_eq_nil_iff.mpr fun new here => ?_
    obtain ⟨rfl, rfl⟩ := mem_single here
    exact (proxy r (Option.some.inj (kind.symm.trans isProxy))).1 c
  · symm
    refine List.filterMap_eq_nil_iff.mpr fun new here => ?_
    obtain ⟨same, rfl⟩ := mem_single here
    rw [← same, h.endpoint_kind] at kind
    exact endpoint (Option.some.inj kind).symm
  · intro q r b isProxy
    refine List.filterMap_eq_nil_iff.mpr fun new here => ?_
    obtain ⟨rfl, rfl⟩ := mem_single here
    rw [(proxy r (Option.some.inj (kind.symm.trans isProxy))).2]
    rfl

/-- A proxy passes a message on. -/
theorem Regular.passes (doc : Selective ext.cbor) (h : Regular ext n) {p s : InstanceId} {x : Actor}
    {rest : List Mail} {r : Rpiid} (known : n.actors p = some x) (mailbox : x.mailbox = mail :: rest)
    (kind : x.kind = .proxy r) (plain : Plain ext mail.body) (sender : mail.sender = some s) :
    Regular ext ((n.take p).post n.endpoint
      ⟨some p, sendMessage ext.cbor ⟨s⟩ r mail.body, .own⟩) := by
  have isProxy : n.kindOf p = some (.proxy r) := Node.kindOf_eq_some.mpr ⟨x, known, kind⟩
  have came : mail ∈ n.arrived p := by
    rw [Node.arrived_of_some known, Actor.arrived, mailbox]
    simp
  have sends : Known n s := by
    obtain ⟨s', sender', sends⟩ := h.senders p mail came
    cases sender.symm.trans sender'
    exact sends
  have apart := h.endpoint_not_proxy isProxy
  have none : delivery ext mail = none := delivery_of_other plain.classify_proxy
  refine h.move (.take_post known mailbox ⟨_, h.endpoint_kind⟩ _) ⟨?_, ?_, ?_, ?_, ?_, by simp, ?_, ?_⟩
  · intro c new here
    obtain ⟨-, rfl⟩ := mem_single here
    exact ⟨p, rfl, _, isProxy⟩
  · intro q r' isProxy' new here
    obtain ⟨rfl, -⟩ := mem_single here
    exact absurd rfl (h.endpoint_not_proxy isProxy')
  · intro new here
    obtain ⟨-, rfl⟩ := mem_single here
    exact .send s r mail.body rfl plain sends ⟨p, isProxy⟩
  · intro q r' a isProxy'
    rw [single_filterMap, single_filterMap, if_pos rfl]
    simp only [requested, classify_send doc _ _ plain.item, passedOn, plain.classify_proxy, sender,
      and_true, Option.some.injEq, Lpiid.mk.injEq]
    by_cases same : q = p
    · subst same
      cases isProxy.symm.trans isProxy'
      simp
    · have other : r ≠ r' := by
        rintro rfl
        exact same (Option.some.inj ((h.recorded q r isProxy').symm.trans (h.recorded p r isProxy)))
      simp [same, other]
  · rw [single_filterMap, if_neg apart.symm]
  · intro q a isProxy'
    rw [single_filterMap, if_neg (h.endpoint_not_proxy isProxy')]
    rfl
  · intro q r' b isProxy'
    rw [single_filterMap, single_filterMap, none]
    simp [deliveredBy]

/-- A proxy delivers a payload to an actor by its id. -/
theorem Regular.delivers (doc : Selective ext.cbor) (h : Regular ext n) {p : InstanceId} {x : Actor}
    {rest : List Mail} {r : Rpiid} (known : n.actors p = some x) (mailbox : x.mailbox = mail :: rest)
    (kind : x.kind = .proxy r) {targetId : Lpiid} {payload : Bytes} (plain : Plain ext payload)
    (body : mail.body = deliverPidMessage ext.cbor targetId payload)
    (target : Known n targetId.value) :
    Regular ext ((n.take p).post targetId.value ⟨some p, payload, .byId⟩) := by
  have isProxy : n.kindOf p = some (.proxy r) := Node.kindOf_eq_some.mpr ⟨x, known, kind⟩
  have classified : ProxyMessage.classify ext.cbor ext.errorName mail.body =
      .ok (.deliverPid targetId payload) := body ▸ classify_deliverPid doc targetId plain.item
  have asked : delivery ext mail = some (targetId.value, payload) := by
    rw [delivery, classified]
  refine h.move (.take_post known mailbox target _) ⟨?_, ?_, ?_, ?_, ?_, nofun, ?_, ?_⟩
  · intro c new here
    obtain ⟨-, rfl⟩ := mem_single here
    exact ⟨p, rfl, _, isProxy⟩
  · intro q r' isProxy' new here
    obtain ⟨-, rfl⟩ := mem_single here
    exact .plain plain
  · intro new here
    obtain ⟨-, rfl⟩ := mem_single here
    exact .plain plain
  · intro q r' a isProxy'
    rw [single_filterMap, single_filterMap, requested_of_other plain.classify_endpoint]
    simp [passedOn, classified]
  · rw [single_filterMap, if_neg (h.endpoint_not_proxy isProxy).symm]
  · intro q a isProxy'
    rw [single_filterMap, delivery_of_other plain.classify_proxy]
    simp
  · intro q r' b isProxy'
    rw [single_filterMap, single_filterMap, asked]
    by_cases same : q = p
    · subst same
      by_cases here : targetId.value = b
      · simp [toTarget, deliveredBy, here]
      · simp [toTarget, here, Ne.symm here]
    · have other : p ≠ q := fun eq => same eq.symm
      simp [deliveredBy, same, other]

end Balanced

section Turns
variable {ε : Type} {ext : Externals ε} {n n' : Node} {mail : Mail} {a p : InstanceId} {x : Actor}
  {rest : List Mail} {r : Rpiid}

theorem NoExit.of_known (h : NoExit n) (known : Known n a) :
    ∃ x, n.actors a = some x ∧ x.status = .alive := by
  obtain ⟨k, kind⟩ := known
  obtain ⟨x, known, -⟩ := Node.kindOf_eq_some.mp kind
  exact ⟨x, known, h.alive a x known⟩

theorem NoExit.isAlive (h : NoExit n) (known : n.actors a = some x) : n.isAlive a = true :=
  Node.isAlive_iff.mpr ⟨x, known, h.alive a x known⟩

/-- Nobody who is alive after a call has failed in it. -/
theorem settle_fine {outcome : Outcome} (known : outcome.1.actors a = some x)
    (up : (Node.settle a outcome).isAlive a = true)
    (running : (Node.settle a outcome).crashed = false) :
    outcome.2 = none ∧ Node.settle a outcome = outcome.1 := by
  obtain ⟨m, f⟩ := outcome
  cases f with
  | none => exact ⟨rfl, rfl⟩
  | some f =>
      rcases fail_down known f with down | down
      · exact absurd up (Bool.eq_false_iff.mp down)
      · exact absurd down (Bool.eq_false_iff.mp running)

theorem NoExit.settle {outcome : Outcome} (known : outcome.1.actors a = some x)
    (h : NoExit (Node.settle a outcome)) : outcome.2 = none ∧ Node.settle a outcome = outcome.1 := by
  have framed : Framed Moved outcome.1 (Node.settle a outcome) :=
    .settle a (.refl _) fun _ _ => trivial
  obtain ⟨x', known', -⟩ := framed.actor a x known
  exact settle_fine known (h.isAlive known') h.up

theorem NoExit.not_handleExit (known : n.actors a = some x) {m : Bytes}
    (h : NoExit (n.handleExit a m)) : False := by
  have framed : Framed Moved n (n.handleExit a m) := .handleExit n a m trivial
  obtain ⟨x', known', -⟩ := framed.actor a x known
  exact absurd (h.isAlive known') (Bool.eq_false_iff.mp (handleExit_dead known m))

theorem user_runMail {trap : Bool} (known : n.actors a = some x) {y : Actor}
    (kind : y.kind = .user trap) (after : NoExit (n.runMail ext a y mail)) :
    n.runMail ext a y mail = n ∨ n.runMail ext a y mail =
      n.update a fun x => { x with links := mail.sender :: x.links } := by
  unfold Node.runMail at after ⊢
  cases link : Runtime.isLinkMsg mail.body with
  | true =>
      right
      simp only [if_true, kind, Node.observesLinks, Bool.not_false, Bool.and_true]
  | false =>
      left
      simp only [link, Bool.false_eq_true, if_false, Bool.false_and, kind, Node.traps,
        Node.receive] at after ⊢
      split
      · rfl
      · rename_i alive
        rw [if_neg alive] at after
        split
        · rfl
        · rename_i noTrap
          rw [if_neg noTrap] at after
          split
          · rename_i e failed
            rw [failed] at after
            exact (after.not_handleExit known).elim
          · rename_i matched
            rw [matched] at after
            split
            · rename_i abnormal
              dsimp only at after
              rw [if_pos abnormal] at after
              exact (after.not_handleExit known).elim
            · rfl
          · rfl

theorem take_known (known : n.actors a = some x) : (n.take a).actors a = some { x with
    mailbox := x.mailbox.tail, received := x.received ++ x.mailbox.take 1 } :=
  Node.actors_update_of_some known

theorem take_others (other : p ≠ a) : (n.take a).actors p = n.actors p :=
  Node.actors_update_of_ne other

/-- A turn of a user. -/
theorem Regular.user_turn (h : Regular ext n) {trap : Bool} (known : n.actors a = some x)
    (mailbox : x.mailbox = mail :: rest) (kind : x.kind = .user trap)
    (after : NoExit ((n.take a).runMail ext a x mail)) :
    Regular ext ((n.take a).runMail ext a x mail) := by
  have taken : Regular ext (n.take a) := by
    refine h.take_inert known mailbox ?_ ?_
    · intro r proxy
      rw [kind] at proxy
      cases proxy
    · intro endpoint
      rw [kind] at endpoint
      cases endpoint
  have move := Move.take known mailbox
  have here : Known (n.take a) a :=
    ⟨x.kind, (move.kind a).trans (Node.kindOf_eq_some.mpr ⟨x, known, rfl⟩)⟩
  rcases user_runMail (take_known known) kind after with eq | eq
  · rw [eq]
    exact taken
  · rw [eq]
    exact taken.links here mail.sender

theorem not_link_of_classify (doc : Selective ext.cbor) {m : Bytes} {message : ProxyMessage}
    (classified : ProxyMessage.classify ext.cbor ext.errorName m = .ok message)
    (other : message ≠ .link) : Runtime.isLinkMsg m = false := by
  refine decide_eq_false fun same => ?_
  rw [same, classify_linkMsg doc] at classified
  exact other (Except.ok.inj classified).symm

/-- What is left of a proxy's turn when it has not failed. -/
theorem proxy_runMail (known : n.actors p = some x) (kind : x.kind = .proxy r)
    (before : NoExit n) (after : NoExit ((n.take p).runMail ext p x mail)) :
    ∃ n₀, (Runtime.isLinkMsg mail.body = false ∧ n₀ = n.take p ∨
        Runtime.isLinkMsg mail.body = true ∧
          n₀ = (n.take p).update p fun x => { x with links := mail.sender :: x.links }) ∧
      (proxyReceive ext n₀ p r mail).2 = none ∧
      (n.take p).runMail ext p x mail = (proxyReceive ext n₀ p r mail).1 := by
  obtain ⟨n₀, start, run⟩ := runMail_proxy ext (n.take p) p mail kind
  rw [if_neg (by simp [before.alive p x known])] at run
  rw [run] at after
  have here : ∃ y, n₀.actors p = some y := by
    rcases start with ⟨-, rfl⟩ | ⟨-, rfl⟩
    · exact ⟨_, take_known known⟩
    · exact ⟨_, Node.actors_update_of_some (take_known known)⟩
  obtain ⟨y, here⟩ := here
  obtain ⟨z, there, -⟩ := (Framed.proxyReceive ext n₀ p r mail).actor p y here
  obtain ⟨fine, eq⟩ := after.settle there
  exact ⟨n₀, start, fine, run.trans eq⟩

/-- A turn of a proxy. -/
theorem Regular.proxy_turn (doc : Selective ext.cbor) (h : Regular ext n) (before : NoExit n)
    (known : n.actors p = some x) (mailbox : x.mailbox = mail :: rest) (kind : x.kind = .proxy r)
    (after : NoExit ((n.take p).runMail ext p x mail)) :
    Regular ext ((n.take p).runMail ext p x mail) := by
  have isProxy : n.kindOf p = some (.proxy r) := Node.kindOf_eq_some.mpr ⟨x, known, kind⟩
  have came : mail ∈ n.arrived p := by
    rw [Node.arrived_of_some known, Actor.arrived, mailbox]
    simp
  obtain ⟨s, sender, sends⟩ := h.senders p mail came
  have byS : handleId mail.sender = s := by rw [sender, handleId]
  have apart := h.endpoint_not_proxy isProxy
  obtain ⟨e, endpoint, up⟩ := before.of_known ⟨_, h.endpoint_kind⟩
  have endpoint' : (n.take p).actors n.endpoint = some e := (take_others apart.symm).trans endpoint
  have move := Move.take known mailbox
  have kinds : ∀ c k, n.kindOf c = some k → (n.take p).kindOf c = some k :=
    fun c k => ((move.kind c).trans ·)
  have inert {message : ProxyMessage}
      (classified : ProxyMessage.classify ext.cbor ext.errorName mail.body = .ok message)
      (notOther : message ≠ .other) (notDeliver : ∀ t m, message ≠ .deliverPid t m) :
      Regular ext (n.take p) := by
    refine h.take_inert known mailbox (fun _ _ => ⟨?_, ?_⟩) ?_
    · intro c
      refine if_neg fun both => notOther ?_
      exact Except.ok.inj (classified.symm.trans both.2)
    · unfold delivery
      rw [classified]
      split
      · rename_i same
        exact absurd (Except.ok.inj same) (notDeliver _ _)
      · rfl
    · intro endpoint
      rw [kind] at endpoint
      cases endpoint
  obtain ⟨n₀, start, fine, eq⟩ := proxy_runMail known kind before after
  rw [eq]
  cases h.proxyMail p r isProxy mail came with
  | plain plain =>
      have same : n₀ = n.take p := by
        rcases start with ⟨-, same⟩ | ⟨link, -⟩
        · exact same
        · rw [plain.not_link doc] at link
          cases link
      subst same
      unfold proxyReceive
      dsimp only
      rw [plain.classify_proxy]
      dsimp only
      change Regular ext ((n.take p).sendRaw (some p) (some n.endpoint) _ .own).1
      rw [Node.sendRaw_of_alive endpoint' up, byS]
      exact h.passes doc known mailbox kind plain sender
  | link body =>
      have classified : ProxyMessage.classify ext.cbor ext.errorName mail.body = .ok .link :=
        body ▸ classify_linkMsg doc
      have taken := inert classified (by simp) fun _ _ => by simp
      have linked := taken.links ⟨_, kinds p _ isProxy⟩ mail.sender
      have same : n₀ = (n.take p).update p fun x => { x with links := mail.sender :: x.links } := by
        rcases start with ⟨plain, -⟩ | ⟨-, same⟩
        · rw [body] at plain
          cases plain
        · exact same
      subst same
      have links := Move.links (n := n.take p) ⟨_, kinds p _ isProxy⟩ mail.sender
      have kinds' : ∀ c k, n.kindOf c = some k → ((n.take p).update p fun x =>
          { x with links := mail.sender :: x.links }).kindOf c = some k :=
        fun c k found => (links.kind c).trans (kinds c k found)
      unfold proxyReceive
      dsimp only
      rw [classified]
      dsimp only
      have up' : ((n.take p).update p fun x => { x with links := mail.sender :: x.links }).actors
          n.endpoint = some e := (Node.actors_update_of_ne apart.symm).trans endpoint'
      change Regular ext (((n.take p).update p fun x =>
        { x with links := mail.sender :: x.links }).sendRaw (some p) (some n.endpoint) _ .own).1
      rw [Node.sendRaw_of_alive up' up, byS]
      refine linked.post_inert ⟨_, kinds' _ _ h.endpoint_kind⟩ (s := p) ?_ ⟨_, kinds' p _ isProxy⟩
        ?_ ?_ ?_
      · rfl
      · intro r' proxy
        rw [kinds' _ _ h.endpoint_kind] at proxy
        cases proxy
      · intro _
        refine ⟨.linkWire s r rfl (sends.mono kinds') ⟨p, kinds' p _ isProxy⟩, fun c r' => ?_⟩
        rw [requested, classify_linkWire doc]
      · simp
  | deliverPid targetId payload byEndpoint body plain target =>
      have classified : ProxyMessage.classify ext.cbor ext.errorName mail.body =
          .ok (.deliverPid targetId payload) := body ▸ classify_deliverPid doc targetId plain.item
      have same : n₀ = n.take p := by
        rcases start with ⟨-, same⟩ | ⟨link, -⟩
        · exact same
        · rw [not_link_of_classify doc classified (by simp)] at link
          cases link
      subst same
      obtain ⟨y, found, status⟩ : ∃ y, (n.take p).actors targetId.value = some y ∧
          y.status = .alive := by
        obtain ⟨y, found, status⟩ := before.of_known target
        by_cases own : targetId.value = p
        · rw [own] at found ⊢
          exact ⟨_, take_known found, status⟩
        · exact ⟨y, (take_others own).trans found, status⟩
      have resolved : (n.take p).fromId targetId.value = some targetId.value := by
        simp [Node.fromId, Node.status_of_some found, status]
      unfold proxyReceive
      dsimp only
      rw [classified]
      dsimp only
      rw [resolved]
      dsimp only
      rw [Node.sendRaw_of_alive found status]
      exact h.delivers doc known mailbox kind plain body target
  | deliverNamed toName payload byEndpoint body small plain =>
      have classified : ProxyMessage.classify ext.cbor ext.errorName mail.body =
          .ok (.deliverNamed toName payload) := body ▸ classify_deliverNamed doc small plain.item
      have taken := inert classified (by simp) fun _ _ => by simp
      have same : n₀ = n.take p := by
        rcases start with ⟨-, same⟩ | ⟨link, -⟩
        · exact same
        · rw [not_link_of_classify doc classified (by simp)] at link
          cases link
      subst same
      unfold proxyReceive
      dsimp only
      rw [classified]
      dsimp only
      rcases (n.take p).sendRaw_cases (some p) ((n.take p).procs toName) payload .byName with
        ⟨b, y, -, found, -, eq⟩ | ⟨-, sender, eq⟩
      · rw [eq]
        exact taken.post_plain ⟨_, Node.kindOf_eq_some.mpr ⟨y, found, rfl⟩⟩ rfl
          ⟨_, kinds p _ isProxy⟩ plain (by simp)
      · rw [eq]
        exact taken
  | setNotify targetId byEndpoint body =>
      have classified : ProxyMessage.classify ext.cbor ext.errorName mail.body =
          .ok (.setNotify targetId) := body ▸ classify_setNotify doc targetId
      have taken := inert classified (by simp) fun _ _ => by simp
      have same : n₀ = n.take p := by
        rcases start with ⟨-, same⟩ | ⟨link, -⟩
        · exact same
        · rw [not_link_of_classify doc classified (by simp)] at link
          cases link
      subst same
      unfold proxyReceive
      dsimp only
      rw [classified]
      dsimp only
      split
      · exact taken.link doc ⟨_, kinds p _ isProxy⟩ _
      · exact taken

theorem Emitted.of_framed {R : Actor → Actor → Prop} (h : Framed R n n') : Emitted ext n n' [] :=
  ⟨h.framesOut.trans (List.append_nil _).symm, h.outgoing.trans (List.append_nil _).symm, nofun,
    h.framesIn, h.accumulator⟩

theorem endpointReceive_wire {m : Bytes} {message : EndpointMessage} {msg : ProtocolMessage}
    (classified : EndpointMessage.classify ext.cbor ext.errorName m = .ok message)
    (asked : message.frame? = some msg) : endpointReceive ext n m = sendWire ext n msg := by
  rw [endpointReceive, classified]
  cases message with
  | send _ _ _ | sendNamed _ _ _ | linkWire _ _ | localLinkExit _ _ =>
      cases asked
      rfl
  | proxyExit _ | other => cases asked

/-- A turn of the endpoint. -/
theorem Regular.endpoint_turn (doc : Selective ext.cbor) (h : Regular ext n)
    (before : NoExit n) (known : n.actors n.endpoint = some x) (mailbox : x.mailbox = mail :: rest)
    (kind : x.kind = .endpoint) (after : NoExit ((n.take n.endpoint).runMail ext n.endpoint x mail)) :
    Regular ext ((n.take n.endpoint).runMail ext n.endpoint x mail) ∧
      ∃ frames, Emitted ext n ((n.take n.endpoint).runMail ext n.endpoint x mail) frames := by
  have came : mail ∈ n.arrived n.endpoint := by
    rw [Node.arrived_of_some known, Actor.arrived, mailbox]
    simp
  have alive := before.alive _ x known
  have move := Move.take known mailbox
  have notProxy : ∀ r, x.kind ≠ .proxy r := by simp [kind]
  have given (plain : Runtime.isLinkMsg mail.body = false) :
      (n.take n.endpoint).runMail ext n.endpoint x mail =
        .settle n.endpoint (endpointReceive ext (n.take n.endpoint) mail.body) := by
    simp [Node.runMail, plain, kind, alive, Node.traps, Node.receive]
  have request {message : EndpointMessage} {msg : ProtocolMessage}
      (classified : EndpointMessage.classify ext.cbor ext.errorName mail.body = .ok message)
      (asked : message.frame? = some msg) :
      Regular ext ((n.take n.endpoint).runMail ext n.endpoint x mail) ∧
        ∃ frames, Emitted ext n ((n.take n.endpoint).runMail ext n.endpoint x mail) frames := by
    have plain : Runtime.isLinkMsg mail.body = false := by
      refine decide_eq_false fun same => ?_
      rw [same, classify_endpoint_linkMsg doc] at classified
      cases classified
      cases asked
    have made : framed ext mail = some msg := by
      simp [framed, plain, classified, asked]
    rw [given plain, endpointReceive_wire classified asked] at after ⊢
    unfold sendWire at after ⊢
    cases encoded : msg.encode ext.cbor maxFrameSize with
    | error e =>
        rw [encoded] at after
        cases (after.settle (take_known known)).1
    | ok frame =>
        refine ⟨h.move (.take_sendFrame known mailbox msg frame) ?_, [(frame, msg)], ?_⟩
        · refine ⟨fun _ _ here => ?_, fun _ _ _ _ here => ?_, fun _ here => ?_, ?_, ?_,
            fun _ _ _ here => ?_, fun _ _ _ => rfl, ?_⟩
          · cases here
          · cases here
          · cases here
          · intro p r c proxy
            rw [single_filterMap, if_neg (h.endpoint_not_proxy proxy)]
            rfl
          · rw [single_filterMap, if_pos rfl, made]
            rfl
          · cases here
          · intro q r b proxy
            rw [single_filterMap, if_neg (h.endpoint_not_proxy proxy)]
            rfl
        · exact ⟨rfl, by simp [Node.settle, Node.sendFrame, Node.take, Node.update, wire],
            by simpa using encoded, rfl, rfl⟩
  cases h.endpointMail mail came with
  | plain plain =>
      rw [given (plain.not_link doc)] at after
      unfold endpointReceive at after
      rw [plain.classify_endpoint] at after
      cases (after.settle (take_known known)).1
  | link body =>
      have linked : (n.take n.endpoint).runMail ext n.endpoint x mail =
          (n.take n.endpoint).update n.endpoint fun x =>
            { x with links := mail.sender :: x.links } := by
        simp [Node.runMail, body, Runtime.isLinkMsg, kind, Node.observesLinks]
      have taken : Regular ext (n.take n.endpoint) := by
        refine h.take_inert known mailbox (fun r proxy => absurd proxy (notProxy r)) fun _ => ?_
        simp [framed, body, Runtime.isLinkMsg]
      rw [linked]
      refine ⟨taken.links ⟨_, (move.kind _).trans h.endpoint_kind⟩ mail.sender, [], ?_⟩
      have links : Framed Moved (n.take n.endpoint) ((n.take n.endpoint).update n.endpoint fun x =>
          { x with links := mail.sender :: x.links }) := .links _ _ mail.sender
      have whole : Framed Later n ((n.take n.endpoint).update n.endpoint fun x =>
          { x with links := mail.sender :: x.links }) :=
        (Framed.take n n.endpoint).comp Later.trans links.later
      exact .of_framed whole
  | send a r m body plain known proxy =>
      exact request (body ▸ classify_send doc ⟨a⟩ r plain.item) rfl
  | linkWire a r body known proxy => exact request (body ▸ classify_linkWire doc ⟨a⟩ r) rfl
  | named fromId toName payload classified plain known => exact request classified rfl

theorem Regular.user_known (user : n.isUser a = true) : Known n a := by
  obtain ⟨x, trap, known, kind, -⟩ := isUser_iff.mp user
  exact ⟨_, Node.kindOf_eq_some.mpr ⟨x, known, kind⟩⟩

/-- A user sends a message. -/
theorem Regular.user_send (h : Regular ext n) {target : Handle} {m : Bytes}
    (user : n.isUser a = true) (sends : UserSends ext n (.send a target m)) :
    Regular ext (n.sendRaw (some a) target m .own).1 := by
  have here := Regular.user_known user
  rcases n.sendRaw_cases (some a) target m .own with ⟨b, y, same, found, -, eq⟩ | ⟨-, sender, eq⟩
  · have known : Known n b := ⟨_, Node.kindOf_eq_some.mpr ⟨y, found, rfl⟩⟩
    rw [eq]
    rcases sends with plain | ⟨toEndpoint, fromId, toName, payload, classified, plain, some⟩
    · exact h.post_plain known rfl here plain nofun
    · rw [toEndpoint] at same
      cases same
      refine h.post_inert known (s := a) rfl here ?_ ?_ nofun
      · intro r proxy
        exact absurd rfl (h.endpoint_not_proxy proxy)
      · intro _
        refine ⟨.named fromId toName payload classified plain some, fun c r => ?_⟩
        rw [requested, classified]
  · rw [eq]
    exact h

/-- A step of the node's own. -/
theorem Regular.local_step (doc : Selective ext.cbor) {act : Action} (h : Regular ext n)
    (before : NoExit n) (sends : UserSends ext n act) (own : ∀ bytes, act ≠ .arrive bytes)
    (next : n.step ext act = some n') (after : NoExit n') :
    Regular ext n' ∧ ∃ frames, Emitted ext n n' frames := by
  obtain ⟨-, performed, bound⟩ := step_eq_some next
  cases act with
  | spawn name trap =>
      cases performed
      exact ⟨h.spawn doc bound name trap, [], (List.append_nil _).symm, (List.append_nil _).symm,
        nofun, rfl, rfl⟩
  | send a target m =>
      simp only [Node.perform, Option.ite_none_right_eq_some] at performed
      cases performed.2
      have framed : Framed Moved n _ := .sendRaw n (some a) target m .own trivial
      exact ⟨h.user_send performed.1 sends, [], .of_framed framed⟩
  | link a target =>
      simp only [Node.perform, Option.ite_none_right_eq_some] at performed
      cases performed.2
      have framed : Framed Moved n _ := .link n a target trivial
      exact ⟨h.link doc (Regular.user_known performed.1) target, [], .of_framed framed⟩
  | quit a m =>
      simp only [Node.perform, Option.ite_none_right_eq_some] at performed
      cases performed.2
      obtain ⟨x, -, known, -⟩ := isUser_iff.mp performed.1
      exact (after.not_handleExit known).elim
  | turn a =>
      obtain ⟨x, mail, rest, known, mailbox, eq⟩ := turn_eq_some performed
      subst eq
      have emitted (framed : Framed (SentBy (some a)) (n.take a) ((n.take a).runMail ext a x mail)) :
          Emitted ext n ((n.take a).runMail ext a x mail) [] := by
        have whole : Framed Later n ((n.take a).runMail ext a x mail) :=
          (Framed.take n a).comp Later.trans framed.later
        exact .of_framed whole
      cases kind : x.kind with
      | user trap =>
          refine ⟨h.user_turn known mailbox kind after, [], emitted ?_⟩
          rcases runMail_cases ext (n.take a) a x mail with ⟨endpoint, -⟩ | framed
          · rw [kind] at endpoint
            cases endpoint
          · exact framed
      | proxy r =>
          refine ⟨h.proxy_turn doc before known mailbox kind after, [], emitted ?_⟩
          rcases runMail_cases ext (n.take a) a x mail with ⟨endpoint, -⟩ | framed
          · rw [kind] at endpoint
            cases endpoint
          · exact framed
      | endpoint =>
          have here := h.consistent.only a x known kind
          subst here
          exact h.endpoint_turn doc before known mailbox kind after
  | destroy a =>
      simp only [Node.perform] at performed
      split at performed
      · rename_i x known
        simp only [Option.ite_none_right_eq_some] at performed
        have alive := before.alive a x known
        rw [performed.1.1] at alive
        cases alive
      · cases performed
  | arrive bytes => exact absurd rfl (own bytes)
  | stop m =>
      simp only [Node.perform, Option.ite_none_right_eq_some] at performed
      cases performed.2
      obtain ⟨x, known, -⟩ := Node.isAlive_iff.mp performed.1
      exact (after.not_handleExit known).elim
  | deinit =>
      simp only [Node.perform, Option.ite_none_left_eq_some, Bool.or_eq_true, not_or] at performed
      obtain ⟨x, known, -⟩ := h.consistent.endpoint
      exact absurd (before.isAlive known) performed.1.1

end Turns


end Thespian.Remote
