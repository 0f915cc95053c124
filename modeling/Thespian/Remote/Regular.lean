import Thespian.Remote.Hops

/-!
The invariant of a node in which no actor exits: what its actors may be sent, and that
nothing is lost, repeated or reordered between two places on the way of a message. A
move is what a step does to the mailboxes and the frames; it keeps the invariant where
what it takes from one place is what it puts into the next.
-/

namespace Thespian.Remote
open Cbor Zig Transition

section Regular
variable {ε : Type} (ext : Externals ε)

/-- The invariant of a node whose actors are all alive. -/
structure Regular (n : Node) : Prop where
  consistent : Consistent n
  senders : ∀ a, ∀ mail ∈ n.arrived a, ∃ s, mail.sender = some s ∧ Known n s
  proxyMail : ∀ p r, n.kindOf p = some (.proxy r) → ∀ mail ∈ n.arrived p, ProxyMail ext n mail
  endpointMail : ∀ mail ∈ n.arrived n.endpoint, EndpointMail ext n mail
  recorded : ∀ p r, n.kindOf p = some (.proxy r) → n.remoteProxies.lookup r = some p
  /-- From a proxy to the endpoint. -/
  passed : ∀ p r a, n.kindOf p = some (.proxy r) →
    (n.received p).filterMap (passedOn ext a) =
      (n.arrived n.endpoint).filterMap (requested ext a r)
  /-- From the endpoint to the wire. -/
  sent : n.framesOut = (n.received n.endpoint).filterMap (framed ext)
  source : ∀ fromId toId payload, .send fromId toId payload ∈ n.framesIn →
    ∃ q, n.kindOf q = some (.proxy ⟨fromId.value⟩)
  /-- From the wire to a proxy. -/
  handed : ∀ q a, n.kindOf q = some (.proxy ⟨a⟩) →
    n.framesIn.filterMap (sentFrom a) = (n.arrived q).filterMap (delivery ext)
  /-- From a proxy to an actor. -/
  delivered : ∀ q r b, n.kindOf q = some (.proxy r) →
    (n.received q).filterMap (fun mail => (delivery ext mail).bind (toTarget b)) =
      (n.arrived b).filterMap (deliveredBy q)

/-- What a step does to the mailboxes and the frames. -/
structure Move (n n' : Node) (taken posted : InstanceId → List Mail)
    (out inn : List ProtocolMessage) : Prop where
  kind : ∀ a, n'.kindOf a = n.kindOf a
  arrived : ∀ a, n'.arrived a = n.arrived a ++ posted a
  received : ∀ a, n'.received a = n.received a ++ taken a
  endpoint : n'.endpoint = n.endpoint
  next : n'.next = n.next
  remoteProxies : n'.remoteProxies = n.remoteProxies
  framesOut : n'.framesOut = n.framesOut ++ out
  framesIn : n'.framesIn = n.framesIn ++ inn

/-- What is taken from one place is put into the next. -/
structure Balanced (n : Node) (taken posted : InstanceId → List Mail)
    (out inn : List ProtocolMessage) : Prop where
  senders : ∀ a, ∀ mail ∈ posted a, ∃ s, mail.sender = some s ∧ Known n s
  proxyMail : ∀ p r, n.kindOf p = some (.proxy r) → ∀ mail ∈ posted p, ProxyMail ext n mail
  endpointMail : ∀ mail ∈ posted n.endpoint, EndpointMail ext n mail
  passed : ∀ p r a, n.kindOf p = some (.proxy r) →
    (taken p).filterMap (passedOn ext a) = (posted n.endpoint).filterMap (requested ext a r)
  sent : out = (taken n.endpoint).filterMap (framed ext)
  source : ∀ fromId toId payload, .send fromId toId payload ∈ inn →
    ∃ q, n.kindOf q = some (.proxy ⟨fromId.value⟩)
  handed : ∀ q a, n.kindOf q = some (.proxy ⟨a⟩) →
    inn.filterMap (sentFrom a) = (posted q).filterMap (delivery ext)
  delivered : ∀ q r b, n.kindOf q = some (.proxy r) →
    (taken q).filterMap (fun mail => (delivery ext mail).bind (toTarget b)) =
      (posted b).filterMap (deliveredBy q)

variable {ext} {n n' : Node} {taken posted : InstanceId → List Mail}
  {out inn : List ProtocolMessage} {mail : Mail}

theorem Known.mono (kind : ∀ a k, n.kindOf a = some k → n'.kindOf a = some k) {a : InstanceId}
    (h : Known n a) : Known n' a := by
  obtain ⟨k, known⟩ := h
  exact ⟨k, kind a k known⟩

theorem ProxyMail.mono (kind : ∀ a k, n.kindOf a = some k → n'.kindOf a = some k)
    (endpoint : n'.endpoint = n.endpoint) (h : ProxyMail ext n mail) : ProxyMail ext n' mail := by
  cases h with
  | plain plain => exact .plain plain
  | link body => exact .link body
  | deliverPid targetId payload sender body plain known =>
      exact .deliverPid targetId payload (endpoint ▸ sender) body plain (known.mono kind)
  | deliverNamed toName payload sender body small plain =>
      exact .deliverNamed toName payload (endpoint ▸ sender) body small plain
  | setNotify targetId sender body => exact .setNotify targetId (endpoint ▸ sender) body

theorem EndpointMail.mono (kind : ∀ a k, n.kindOf a = some k → n'.kindOf a = some k)
    (h : EndpointMail ext n mail) : EndpointMail ext n' mail := by
  cases h with
  | plain plain => exact .plain plain
  | link body => exact .link body
  | send a r m body plain known proxy =>
      obtain ⟨p, here⟩ := proxy
      exact .send a r m body plain (known.mono kind) ⟨p, kind p _ here⟩
  | linkWire a r body known proxy =>
      obtain ⟨p, here⟩ := proxy
      exact .linkWire a r body (known.mono kind) ⟨p, kind p _ here⟩
  | named fromId toName payload classified plain known =>
      exact .named fromId toName payload classified plain fun some => (known some).mono kind

theorem Consistent.of_kinds (h : Consistent n) (kind : ∀ a, n'.kindOf a = n.kindOf a)
    (endpoint : n'.endpoint = n.endpoint) (next : n'.next = n.next)
    (remoteProxies : n'.remoteProxies = n.remoteProxies) : Consistent n' := by
  have back {a : InstanceId} {x' : Actor} (known : n'.actors a = some x') :
      ∃ x, n.actors a = some x ∧ x.kind = x'.kind :=
    Node.kindOf_eq_some.mp ((kind a).symm.trans (Node.kindOf_eq_some.mpr ⟨x', known, rfl⟩))
  have forth {a : InstanceId} {x : Actor} (known : n.actors a = some x) :
      ∃ x', n'.actors a = some x' ∧ x'.kind = x.kind :=
    Node.kindOf_eq_some.mp ((kind a).trans (Node.kindOf_eq_some.mpr ⟨x, known, rfl⟩))
  refine ⟨?_, ?_, ?_, ?_⟩
  · obtain ⟨x, known, kind⟩ := h.endpoint
    obtain ⟨x', known', same⟩ := forth known
    exact ⟨x', endpoint ▸ known', same.trans kind⟩
  · intro a x' known kind
    obtain ⟨x, before, same⟩ := back known
    rw [endpoint]
    exact h.only a x before (same.trans kind)
  · intro a x' known
    obtain ⟨x, before, -⟩ := back known
    rw [next]
    exact h.bound a x before
  · intro r p member
    rw [remoteProxies] at member
    obtain ⟨x, before, kind⟩ := h.table r p member
    obtain ⟨x', after, same⟩ := forth before
    exact ⟨x', after, same.trans kind⟩

/-- A balanced move keeps the invariant. -/
theorem Regular.move (h : Regular ext n) (move : Move n n' taken posted out inn)
    (balanced : Balanced ext n taken posted out inn) : Regular ext n' := by
  have kind : ∀ a k, n.kindOf a = some k → n'.kindOf a = some k := by
    intro a k known
    rw [move.kind]
    exact known
  refine ⟨h.consistent.of_kinds move.kind move.endpoint move.next move.remoteProxies,
    ?_, ?_, ?_, ?_, ?_, ?_, ?_, ?_, ?_⟩
  · intro a mail member
    rw [move.arrived] at member
    have before : ∃ s, mail.sender = some s ∧ Known n s := by
      rcases List.mem_append.mp member with old | new
      · exact h.senders a mail old
      · exact balanced.senders a mail new
    obtain ⟨s, sender, known⟩ := before
    exact ⟨s, sender, known.mono kind⟩
  · intro p r proxy mail member
    rw [move.kind] at proxy
    rw [move.arrived] at member
    have before : ProxyMail ext n mail := by
      rcases List.mem_append.mp member with old | new
      · exact h.proxyMail p r proxy mail old
      · exact balanced.proxyMail p r proxy mail new
    exact before.mono kind move.endpoint
  · intro mail member
    rw [move.endpoint, move.arrived] at member
    have before : EndpointMail ext n mail := by
      rcases List.mem_append.mp member with old | new
      · exact h.endpointMail mail old
      · exact balanced.endpointMail mail new
    exact before.mono kind
  · intro p r proxy
    rw [move.kind] at proxy
    rw [move.remoteProxies]
    exact h.recorded p r proxy
  · intro p r a proxy
    rw [move.kind] at proxy
    rw [move.endpoint, move.received, move.arrived, List.filterMap_append, List.filterMap_append,
      h.passed p r a proxy, balanced.passed p r a proxy]
  · rw [move.endpoint, move.framesOut, move.received, List.filterMap_append, ← h.sent,
      ← balanced.sent]
  · intro fromId toId payload member
    rw [move.framesIn] at member
    have before : ∃ q, n.kindOf q = some (.proxy ⟨fromId.value⟩) := by
      rcases List.mem_append.mp member with old | new
      · exact h.source fromId toId payload old
      · exact balanced.source fromId toId payload new
    obtain ⟨q, proxy⟩ := before
    exact ⟨q, kind q _ proxy⟩
  · intro q a proxy
    rw [move.kind] at proxy
    rw [move.framesIn, move.arrived, List.filterMap_append, List.filterMap_append,
      h.handed q a proxy, balanced.handed q a proxy]
  · intro q r b proxy
    rw [move.kind] at proxy
    rw [move.received, move.arrived, List.filterMap_append, List.filterMap_append,
      h.delivered q r b proxy, balanced.delivered q r b proxy]

/-- A send is requested by a proxy for the remote id only. -/
theorem requested_none (doc : Selective ext.cbor) (h : EndpointMail ext n mail) {r : Rpiid}
    (nobody : ∀ p, n.kindOf p ≠ some (.proxy r)) (a : InstanceId) :
    requested ext a r mail = none := by
  unfold requested
  cases h with
  | plain plain => rw [plain.classify_endpoint]
  | link body => rw [body, classify_endpoint_linkMsg doc]
  | send a' r' m body plain known proxy =>
      rw [body, classify_send doc _ _ plain.item]
      refine if_neg ?_
      rintro ⟨-, rfl⟩
      obtain ⟨p, here⟩ := proxy
      exact nobody p here
  | linkWire a' r' body known proxy => rw [body, classify_linkWire doc]
  | named fromId toName payload classified plain known => rw [classified]

/-- A new actor has nothing behind it. -/
theorem Regular.spawned (doc : Selective ext.cbor) (h : Regular ext n) {id : InstanceId} {k : Kind} (fresh : n.actors id = none)
    (actors : ∃ name, n'.actors = Function.update n.actors id (some { name := name, kind := k }))
    (consistent : Consistent n') (endpoint : n'.endpoint = n.endpoint)
    (framesOut : n'.framesOut = n.framesOut) (framesIn : n'.framesIn = n.framesIn)
    (table : ∀ r p, n.remoteProxies.lookup r = some p → n'.remoteProxies.lookup r = some p)
    (new : ∀ r, k = .proxy r →
      n.remoteProxies.lookup r = none ∧ n'.remoteProxies.lookup r = some id) :
    Regular ext n' := by
  obtain ⟨name, actors⟩ := actors
  have view {β : Type} (f : Actor → β) {c : InstanceId} (other : c ≠ id) :
      (n'.actors c).map f = (n.actors c).map f := by
    rw [actors, Function.update_of_ne other]
  have arrived : ∀ c, n'.arrived c = n.arrived c := by
    intro c
    by_cases same : c = id
    · subst same
      simp [Node.arrived, actors, fresh, Actor.arrived]
    · rw [Node.arrived, Node.arrived, view _ same]
  have received : ∀ c, n'.received c = n.received c := by
    intro c
    by_cases same : c = id
    · subst same
      simp [Node.received, actors, fresh]
    · rw [Node.received, Node.received, view _ same]
  have kind : ∀ c k, n.kindOf c = some k → n'.kindOf c = some k := by
    intro c k known
    have other : c ≠ id := by
      rintro rfl
      simp [Node.kindOf, fresh] at known
    rw [Node.kindOf, view _ other]
    exact known
  have back {c : InstanceId} {r : Rpiid} (proxy : n'.kindOf c = some (.proxy r)) :
      n.kindOf c = some (.proxy r) ∨ c = id ∧ k = .proxy r := by
    by_cases same : c = id
    · subst same
      simp only [Node.kindOf, actors, Function.update_self, Option.map_some,
        Option.some.injEq] at proxy
      exact .inr ⟨rfl, proxy⟩
    · rw [Node.kindOf, view _ same] at proxy
      exact .inl proxy
  have nothing : n.received id = [] := by simp [Node.received, fresh]
  have unheard : n.arrived id = [] := by simp [Node.arrived, fresh]
  have strange {s : InstanceId} (known : Known n s) : s ≠ id := by
    rintro rfl
    obtain ⟨k, known⟩ := known
    simp [Node.kindOf, fresh] at known
  refine ⟨consistent, ?_, ?_, ?_, ?_, ?_, ?_, ?_, ?_, ?_⟩
  · intro a mail member
    rw [arrived] at member
    obtain ⟨s, sender, known⟩ := h.senders a mail member
    exact ⟨s, sender, known.mono kind⟩
  · intro p r proxy mail member
    rw [arrived] at member
    rcases back proxy with proxy | ⟨rfl, -⟩
    · exact (h.proxyMail p r proxy mail member).mono kind endpoint
    · rw [unheard] at member
      cases member
  · intro mail member
    rw [endpoint, arrived] at member
    exact (h.endpointMail mail member).mono kind
  · intro p r proxy
    rcases back proxy with proxy | ⟨rfl, same⟩
    · exact table r p (h.recorded p r proxy)
    · exact (new r same).2
  · intro p r a proxy
    rw [endpoint, arrived, received]
    rcases back proxy with proxy | ⟨rfl, same⟩
    · exact h.passed p r a proxy
    · rw [nothing]
      symm
      refine List.filterMap_eq_nil_iff.mpr fun mail member => ?_
      refine requested_none doc (h.endpointMail mail member) (fun p' proxy' => ?_) a
      have recorded := h.recorded p' r proxy'
      rw [(new r same).1] at recorded
      cases recorded
  · rw [endpoint, framesOut, received]
    exact h.sent
  · intro fromId toId payload member
    rw [framesIn] at member
    obtain ⟨q, proxy⟩ := h.source fromId toId payload member
    exact ⟨q, kind q _ proxy⟩
  · intro q a proxy
    rw [framesIn, arrived]
    rcases back proxy with proxy | ⟨rfl, same⟩
    · exact h.handed q a proxy
    · rw [unheard]
      refine List.filterMap_eq_nil_iff.mpr fun msg member => ?_
      cases msg with
      | send fromId toId payload =>
          refine if_neg ?_
          rintro rfl
          obtain ⟨q', proxy'⟩ := h.source _ toId payload member
          have recorded := h.recorded q' _ proxy'
          rw [(new _ same).1] at recorded
          cases recorded
      | sendNamed _ _ _ | link _ _ | exit _ _ | transportError _ => rfl
  · intro q r b proxy
    rw [received, arrived]
    rcases back proxy with proxy | ⟨rfl, -⟩
    · exact h.delivered q r b proxy
    · rw [nothing]
      symm
      refine List.filterMap_eq_nil_iff.mpr fun mail member => if_neg ?_
      rintro ⟨sender, -⟩
      obtain ⟨s, sender', known⟩ := h.senders b mail member
      cases sender.symm.trans sender'
      exact strange known rfl

theorem Regular.spawn (doc : Selective ext.cbor) (h : Regular ext n) (bound : n.next + 1 < 2 ^ 64)
    (name : Bytes) (trap : Bool) : Regular ext (n.spawn name (.user trap)) :=
  h.spawned doc (h.consistent.fresh (Nat.lt_of_succ_lt bound)) ⟨name, rfl⟩
    (h.consistent.spawn bound name nofun) rfl rfl rfl (fun _ _ => id) nofun

theorem Regular.spawnProxy (doc : Selective ext.cbor) (h : Regular ext n)
    (bound : n.next + 1 < 2 ^ 64) {r : Rpiid} (missing : n.remoteProxies.lookup r = none) :
    Regular ext (n.spawnProxy r) := by
  refine h.spawned doc (h.consistent.fresh (Nat.lt_of_succ_lt bound)) ⟨text "proxy", rfl⟩
    (h.consistent.spawnProxy bound r) rfl rfl rfl ?_ ?_
  · intro r' p recorded
    have other : r' ≠ r := by
      rintro rfl
      rw [missing] at recorded
      cases recorded
    change List.lookup r' ((r, n.nextId) :: n.remoteProxies) = some p
    rw [List.lookup_cons, beq_false_of_ne other]
    exact recorded
  · intro r' same
    cases same
    exact ⟨missing, List.lookup_cons_self⟩

/-- A single mail, in the mailbox of one actor. -/
def single (b : InstanceId) (mail : Mail) (c : InstanceId) : List Mail := if c = b then [mail] else []

def nothing (_ : InstanceId) : List Mail := []

theorem single_filterMap {β : Type} (f : Mail → Option β) (b : InstanceId) (mail : Mail)
    (c : InstanceId) : (single b mail c).filterMap f = if c = b then (f mail).toList else [] := by
  unfold single
  split
  · cases h : f mail <;> simp [h]
  · rfl

section Moves
variable {b : InstanceId} {f : Actor → Actor}

theorem Move.trans {n'' : Node} {taken' posted' : InstanceId → List Mail}
    {out' inn' : List ProtocolMessage} (h : Move n n' taken posted out inn)
    (h' : Move n' n'' taken' posted' out' inn') :
    Move n n'' (fun c => taken c ++ taken' c) (fun c => posted c ++ posted' c) (out ++ out')
      (inn ++ inn') where
  kind := fun a => (h'.kind a).trans (h.kind a)
  arrived := fun a => by rw [h'.arrived, h.arrived, List.append_assoc]
  received := fun a => by rw [h'.received, h.received, List.append_assoc]
  endpoint := h'.endpoint.trans h.endpoint
  next := h'.next.trans h.next
  remoteProxies := h'.remoteProxies.trans h.remoteProxies
  framesOut := by rw [h'.framesOut, h.framesOut, List.append_assoc]
  framesIn := by rw [h'.framesIn, h.framesIn, List.append_assoc]

/-- One actor moves on. -/
theorem Move.update {x : Actor} (more handed : List Mail) (known : n.actors b = some x)
    (kind : (f x).kind = x.kind) (arrived : (f x).arrived = x.arrived ++ more)
    (received : (f x).received = x.received ++ handed) :
    Move n (n.update b f) (fun c => if c = b then handed else [])
      (fun c => if c = b then more else []) [] [] := by
  have here := Node.actors_update_of_some (f := f) known
  refine ⟨?_, ?_, ?_, rfl, rfl, rfl, by simp [Node.update], by simp [Node.update]⟩
  · intro c
    by_cases same : c = b
    · subst same
      simp [Node.kindOf, known, kind]
    · simp [Node.kindOf, same]
  · intro c
    by_cases same : c = b
    · subst same
      simp [Node.arrived, known, arrived]
    · simp [Node.arrived, same]
  · intro c
    by_cases same : c = b
    · subst same
      simp [Node.received, known, received]
    · simp [Node.received, same]

theorem if_nothing (b : InstanceId) : (fun c => if c = b then ([] : List Mail) else []) = nothing := by
  funext c
  simp [nothing]

theorem Move.post (known : Known n b) (mail : Mail) :
    Move n (n.post b mail) nothing (single b mail) [] [] := by
  obtain ⟨k, kind⟩ := known
  obtain ⟨x, known, -⟩ := Node.kindOf_eq_some.mp kind
  have move := Move.update (f := fun x => { x with mailbox := x.mailbox ++ [mail] })
    [mail] [] known rfl (by simp [Actor.arrived]) (by simp)
  rw [if_nothing] at move
  exact move

theorem Move.links (known : Known n b) (links : Handle) :
    Move n (n.update b fun x => { x with links := links :: x.links }) nothing nothing [] [] := by
  obtain ⟨k, kind⟩ := known
  obtain ⟨x, known, -⟩ := Node.kindOf_eq_some.mp kind
  have move := Move.update (f := fun x => { x with links := links :: x.links })
    [] [] known rfl (by simp [Actor.arrived]) (by simp)
  rw [if_nothing] at move
  exact move

theorem Move.take {x : Actor} {rest : List Mail} (known : n.actors b = some x)
    (mailbox : x.mailbox = mail :: rest) :
    Move n (n.take b) (single b mail) nothing [] [] := by
  have move := Move.update (f := fun x => { x with
    mailbox := x.mailbox.tail, received := x.received ++ x.mailbox.take 1 })
    [] [mail] known rfl (by simp [Actor.arrived, mailbox])
    (by simp [mailbox])
  rw [if_nothing] at move
  exact move

theorem Move.take_post {t : InstanceId} {x : Actor} {rest : List Mail} (known : n.actors b = some x)
    (mailbox : x.mailbox = mail :: rest) (target : Known n t) (new : Mail) :
    Move n ((n.take b).post t new) (single b mail) (single t new) [] [] := by
  have take := Move.take known mailbox
  have target' : Known (n.take b) t := target.mono fun a k => ((take.kind a).trans ·)
  have move := take.trans (.post target' new)
  simpa [nothing] using move

theorem Move.sendFrame (n : Node) (msg : ProtocolMessage) (frame : Bytes) :
    Move n (n.sendFrame msg frame) nothing nothing [msg] [] :=
  ⟨fun _ => rfl, fun _ => (List.append_nil _).symm, fun _ => (List.append_nil _).symm, rfl, rfl,
    rfl, rfl, (List.append_nil _).symm⟩

theorem Move.take_sendFrame {x : Actor} {rest : List Mail} (known : n.actors b = some x)
    (mailbox : x.mailbox = mail :: rest) (msg : ProtocolMessage) (frame : Bytes) :
    Move n ((n.take b).sendFrame msg frame) (single b mail) nothing [msg] [] := by
  have move := (Move.take known mailbox).trans (.sendFrame _ msg frame)
  simp only [nothing, List.append_nil, List.nil_append] at move
  exact move

theorem Move.dispatched (n : Node) (msg : ProtocolMessage) :
    Move n { n with framesIn := n.framesIn ++ [msg] } nothing nothing [] [msg] :=
  ⟨fun _ => rfl, fun _ => (List.append_nil _).symm, fun _ => (List.append_nil _).symm, rfl, rfl,
    rfl, (List.append_nil _).symm, rfl⟩

/-- Nothing of the invariant is touched. -/
theorem Regular.unmoved (h : Regular ext n) (move : Move n n' nothing nothing [] []) :
    Regular ext n' :=
  h.move move ⟨nofun, fun _ _ _ => nofun, nofun, fun _ _ _ _ => rfl, rfl, nofun, fun _ _ _ => rfl,
    fun _ _ _ _ => rfl⟩

end Moves

end Regular

end Thespian.Remote
