import Thespian.Remote.Frames

/-!
The steps of a node, taken apart. A turn of a user actor or of a proxy moves actors
on and nothing else; a turn of the endpoint may also emit a frame or drop an entry
of its table, and a frame that arrives may add one. Who is there and of what kind,
and what the table says of it, is consistent in every state.
-/

namespace Thespian.Remote
open Cbor Zig Transition

section Turns
variable {ε : Type} {ext : Externals ε} {n n' : Node} {a : InstanceId} {x : Actor} {mail : Mail}

theorem turn_eq_some (h : n.turn ext a = some n') :
    ∃ x mail rest, n.actors a = some x ∧ x.mailbox = mail :: rest ∧
      n' = (n.take a).runMail ext a x mail := by
  unfold Node.turn at h
  split at h
  · cases h
  · rename_i x known
    split at h
    · cases h
    · rename_i mail rest mailbox
      exact ⟨x, mail, rest, known, mailbox, (Option.some.inj h).symm⟩

/-- The receiver runs, or only the links and the status of the actor are touched. -/
theorem runMail_cases (ext : Externals ε) (n : Node) (a : InstanceId) (x : Actor) (mail : Mail) :
    (x.kind = .endpoint ∧ x.status = .alive ∧ Runtime.isLinkMsg mail.body = false ∧
      n.runMail ext a x mail = .settle a (endpointReceive ext n mail.body)) ∨
    Framed (SentBy (some a)) n (n.runMail ext a x mail) := by
  unfold Node.runMail
  dsimp only
  cases link : Runtime.isLinkMsg mail.body with
  | true =>
      right
      have linked : Framed (SentBy (some a)) n
          (n.update a fun x => { x with links := mail.sender :: x.links }) := .links n a mail.sender
      simp only [if_true, Bool.true_and]
      split
      · exact linked
      · rename_i observes
        split
        · exact linked
        · cases kind : x.kind with
          | user trap => simp [kind, Node.observesLinks] at observes
          | endpoint => simp [kind, Node.observesLinks] at observes
          | proxy r =>
              simp only [Node.traps, if_true, Node.receive]
              exact linked.trans (.settle a (.proxyReceive ext _ a r mail) fun _ _ => rfl)
  | false =>
      simp only [Bool.false_eq_true, if_false, Bool.false_and]
      split
      · exact .inr (.refl n)
      · rename_i alive
        have alive : x.status = .alive := Decidable.not_not.mp alive
        cases kind : x.kind with
        | endpoint =>
            left
            simp [alive, Node.traps, Node.receive]
        | proxy r =>
            right
            simp only [Node.traps, if_true, Node.receive]
            exact .settle a (.proxyReceive ext n a r mail) fun _ _ => rfl
        | user trap =>
            right
            have user : Framed (SentBy (some a)) n (Node.settle a (n.receive ext a (.user trap) mail)) :=
              .refl n
            split
            · exact user
            · split
              · exact .handleExit n a _ rfl
              · split
                · exact .handleExit n a _ rfl
                · exact .refl n
              · exact user

/-- A proxy is given every mail it takes while it is alive. -/
theorem runMail_proxy (ext : Externals ε) (n : Node) (a : InstanceId) {x : Actor} (mail : Mail)
    {r : Rpiid} (kind : x.kind = .proxy r) :
    ∃ n₀, (Runtime.isLinkMsg mail.body = false ∧ n₀ = n ∨ Runtime.isLinkMsg mail.body = true ∧
        n₀ = n.update a fun x => { x with links := mail.sender :: x.links }) ∧
      n.runMail ext a x mail =
        if x.status ≠ .alive then n₀ else .settle a (proxyReceive ext n₀ a r mail) := by
  cases link : Runtime.isLinkMsg mail.body with
  | true =>
      refine ⟨_, .inr ⟨rfl, rfl⟩, ?_⟩
      simp only [Node.runMail, link, kind, Node.observesLinks, Node.traps, Node.receive, if_true,
        Bool.not_true, Bool.and_false, Bool.false_eq_true, if_false]
  | false =>
      refine ⟨n, .inl ⟨rfl, rfl⟩, ?_⟩
      simp only [Node.runMail, link, kind, Node.traps, Node.receive, if_true, Bool.false_and,
        Bool.false_eq_true, if_false]

theorem step_eq_some {act : Action} (h : n.step ext act = some n') :
    n.crashed = false ∧ n.perform ext act = some n' ∧ n'.next < 2 ^ 64 := by
  unfold Node.step at h
  split at h
  · cases h
  · rename_i crashed
    obtain ⟨performed, bound⟩ := Option.filter_eq_some_iff.mp h
    exact ⟨by simpa using crashed, performed, of_decide_eq_true bound⟩

/-- The frame a message for the endpoint asks for. -/
def EndpointMessage.frame? : EndpointMessage → Option ProtocolMessage
  | .send fromId toId payload => some (.send fromId toId payload)
  | .sendNamed fromId toName payload => some (.sendNamed fromId toName payload)
  | .linkWire fromId toId => some (.link fromId toId)
  | .localLinkExit fromId reason => some (.exit fromId reason)
  | .proxyExit _ | .other => none

/-- A message for the endpoint fails, becomes a frame, or drops an entry. -/
inductive EndpointEffect (ext : Externals ε) (n : Node) (m : Bytes) : Outcome → Prop
  | failed (f : Failure) : EndpointEffect ext n m (n, some f)
  | sent {message : EndpointMessage} {msg : ProtocolMessage} {frame : Bytes}
      (classified : EndpointMessage.classify ext.cbor ext.errorName m = .ok message)
      (asked : message.frame? = some msg)
      (encoded : msg.encode ext.cbor maxFrameSize = .ok frame) :
      EndpointEffect ext n m (n.sendFrame msg frame, none)
  | removed {r : Rpiid}
      (classified : EndpointMessage.classify ext.cbor ext.errorName m = .ok (.proxyExit r)) :
      EndpointEffect ext n m (n.fetchRemove r, none)

theorem endpointReceive_effect (ext : Externals ε) (n : Node) (m : Bytes) :
    EndpointEffect ext n m (endpointReceive ext n m) := by
  have wire {message : EndpointMessage} {msg : ProtocolMessage}
      (classified : EndpointMessage.classify ext.cbor ext.errorName m = .ok message)
      (asked : message.frame? = some msg) : EndpointEffect ext n m (sendWire ext n msg) := by
    unfold sendWire
    split
    · rename_i frame encoded
      exact .sent classified asked encoded
    · exact .failed _
  unfold endpointReceive
  split
  · exact .failed _
  · rename_i classified
    exact wire classified rfl
  · rename_i classified
    exact wire classified rfl
  · rename_i classified
    exact wire classified rfl
  · rename_i classified
    exact wire classified rfl
  · rename_i classified
    exact .removed classified
  · exact .failed _

/-- What a step can do. -/
inductive Effect (ext : Externals ε) (n : Node) : Action → Node → Prop
  | spawned (name : Bytes) (trap : Bool) :
      Effect ext n (.spawn name trap) (n.spawn name (.user trap))
  | moved {act : Action} {n' : Node} {sender : Handle}
      (other : ∀ a, sender = some a → ∃ x, n.actors a = some x ∧ ∀ r, x.kind ≠ .proxy r)
      (framed : Framed (SentBy sender) n n') : Effect ext n act n'
  | turned {a : InstanceId} {x : Actor} {mail : Mail} {rest : List Mail} {n' : Node}
      (known : n.actors a = some x) (mailbox : x.mailbox = mail :: rest)
      (run : n' = (n.take a).runMail ext a x mail) (framed : Framed (SentBy (some a)) (n.take a) n') :
      Effect ext n (.turn a) n'
  | received {a : InstanceId} {x : Actor} {mail : Mail} {rest : List Mail}
      (known : n.actors a = some x) (mailbox : x.mailbox = mail :: rest)
      (kind : x.kind = .endpoint) (alive : x.status = .alive)
      (plain : Runtime.isLinkMsg mail.body = false) :
      Effect ext n (.turn a) (.settle a (endpointReceive ext (n.take a) mail.body))
  | fed {bytes : Bytes} (alive : n.isAlive n.endpoint = true) :
      Effect ext n (.arrive bytes) (.settle n.endpoint (feedNode ext n bytes))
  | deinited (dead : n.isAlive n.endpoint = false) (first : n.deinited = false) :
      Effect ext n .deinit (deinit ext n)

theorem isUser_iff : n.isUser a = true ↔
    ∃ x trap, n.actors a = some x ∧ x.kind = .user trap ∧ x.status = .alive := by
  unfold Node.isUser
  constructor
  · intro user
    split at user
    · rename_i x known
      split at user
      · rename_i trap kind alive
        exact ⟨x, trap, known, kind, alive⟩
      · cases user
    · cases user
  · rintro ⟨x, trap, known, kind, alive⟩
    simp [known, kind, alive]

theorem perform_effect (consistent : ∃ x, n.actors n.endpoint = some x ∧ x.kind = .endpoint)
    {act : Action} (h : n.perform ext act = some n') : Effect ext n act n' := by
  have byUser {a : InstanceId} (user : n.isUser a = true) (b : InstanceId)
      (same : some a = some b) : ∃ x, n.actors b = some x ∧ ∀ r, x.kind ≠ .proxy r := by
    cases same
    obtain ⟨x, trap, known, kind, -⟩ := isUser_iff.mp user
    exact ⟨x, known, by simp [kind]⟩
  cases act with
  | spawn name trap =>
      cases h
      exact .spawned name trap
  | send a target m =>
      simp only [Node.perform, Option.ite_none_right_eq_some] at h
      cases h.2
      exact .moved (byUser h.1) (.sendRaw n _ _ _ _ rfl)
  | link a target =>
      simp only [Node.perform, Option.ite_none_right_eq_some] at h
      cases h.2
      exact .moved (byUser h.1) (.link n _ _ rfl)
  | quit a m =>
      simp only [Node.perform, Option.ite_none_right_eq_some] at h
      cases h.2
      exact .moved (byUser h.1) (.handleExit n _ _ rfl)
  | turn a =>
      obtain ⟨x, mail, rest, known, mailbox, eq⟩ := turn_eq_some h
      rcases runMail_cases ext (n.take a) a x mail with ⟨kind, alive, plain, run⟩ | framed
      · rw [eq, run]
        exact .received known mailbox kind alive plain
      · exact .turned known mailbox eq (eq ▸ framed)
  | destroy a =>
      simp only [Node.perform] at h
      split at h
      · simp only [Option.ite_none_right_eq_some] at h
        cases h.2
        have nobody (b : InstanceId) (same : (none : Handle) = some b) :
            ∃ x, n.actors b = some x ∧ ∀ r, x.kind ≠ .proxy r := nomatch same
        refine .moved nobody (.update n a Posted.refl fun _ => ?_)
        exact .of_mailbox ⟨rfl, rfl, fun _ => nofun, List.prefix_rfl, fun _ => id⟩ rfl rfl
      · cases h
  | arrive bytes =>
      simp only [Node.perform, Option.ite_none_right_eq_some] at h
      cases h.2
      exact .fed h.1
  | stop m =>
      simp only [Node.perform, Option.ite_none_right_eq_some] at h
      cases h.2
      refine .moved ?_ (.handleExit n _ _ rfl)
      intro b same
      cases same
      obtain ⟨x, known, kind⟩ := consistent
      exact ⟨x, known, by simp [kind]⟩
  | deinit =>
      simp only [Node.perform, Option.ite_none_left_eq_some, Bool.or_eq_true, not_or,
        Bool.not_eq_true] at h
      cases h.2
      exact .deinited h.1.1 h.1.2

theorem getOrCreateProxy_cases (n : Node) (r : Rpiid) :
    (∃ p, n.remoteProxies.lookup r = some p ∧ getOrCreateProxy n r = (n, p)) ∨
    (n.remoteProxies.lookup r = none ∧ getOrCreateProxy n r = (n.spawnProxy r, n.nextId)) := by
  unfold getOrCreateProxy
  split
  · rename_i p found
    exact .inl ⟨p, found, rfl⟩
  · rename_i missing
    exact .inr ⟨missing, rfl⟩

/-- The sender a frame names, who gets a proxy. -/
def ProtocolMessage.source? : ProtocolMessage → Option InstanceId
  | .send fromId _ _ => some fromId.value
  | .sendNamed fromId _ _ => if fromId ≠ ⟨0⟩ then some fromId.value else none
  | .link localId _ => some localId.value
  | .exit _ _ | .transportError _ => none

/-- A frame makes at most one proxy, and then sends at most one mail. -/
theorem dispatchMessage_sends (ext : Externals ε) (n : Node) (msg : ProtocolMessage) :
    ∃ n₁, (n₁ = n ∨ ∃ r, msg.source? = some r.value ∧ n.remoteProxies.lookup r = none ∧
        n₁ = n.spawnProxy r) ∧
      ((dispatchMessage ext n msg).1 = n₁ ∨ ∃ target m route,
        (dispatchMessage ext n msg).1 = (n₁.sendRaw (some n₁.endpoint) target m route).1) := by
  have created (fromId : Lpiid) (m : Bytes) (source : msg.source? = some fromId.value) :
      ∃ n₁, (n₁ = n ∨ ∃ r, msg.source? = some r.value ∧ n.remoteProxies.lookup r = none ∧
          n₁ = n.spawnProxy r) ∧
        ((getOrCreateProxy n ⟨fromId.value⟩).1.sendRaw
          (some (getOrCreateProxy n ⟨fromId.value⟩).1.endpoint)
          (some (getOrCreateProxy n ⟨fromId.value⟩).2) m .own).1 =
        (n₁.sendRaw (some n₁.endpoint) (some (getOrCreateProxy n ⟨fromId.value⟩).2) m .own).1 := by
    rcases getOrCreateProxy_cases n ⟨fromId.value⟩ with ⟨p, -, eq⟩ | ⟨missing, eq⟩
    · rw [eq]
      exact ⟨n, .inl rfl, rfl⟩
    · rw [eq]
      exact ⟨_, .inr ⟨⟨fromId.value⟩, source, missing, rfl⟩, rfl⟩
  cases msg with
  | send fromId toId payload =>
      obtain ⟨n₁, made, eq⟩ := created fromId (deliverPidMessage ext.cbor ⟨toId.value⟩ payload) rfl
      exact ⟨n₁, made, .inr ⟨_, _, _, eq⟩⟩
  | sendNamed fromId toName payload =>
      simp only [dispatchMessage]
      split
      · rename_i some
        obtain ⟨n₁, made, eq⟩ := created fromId (deliverNamedMessage ext.cbor toName payload)
          (if_pos some)
        exact ⟨n₁, made, .inr ⟨_, _, _, eq⟩⟩
      · exact ⟨n, .inl rfl, .inr ⟨_, _, _, rfl⟩⟩
  | link localId remoteId =>
      obtain ⟨n₁, made, eq⟩ := created localId (setNotifyMessage ext.cbor ⟨remoteId.value⟩) rfl
      exact ⟨n₁, made, .inr ⟨_, _, _, eq⟩⟩
  | exit localId reason =>
      simp only [dispatchMessage]
      split
      · exact ⟨n, .inl rfl, .inr ⟨_, _, _, rfl⟩⟩
      · exact ⟨n, .inl rfl, .inl rfl⟩
  | transportError reason => exact ⟨n, .inl rfl, .inl rfl⟩

/-- What the endpoint's handling of received bytes keeps. -/
structure Fed (P : Node → Prop) : Prop where
  sent : ∀ {n} target m route, P n → P (n.sendRaw (some n.endpoint) target m route).1
  spawned : ∀ {n r}, P n → n.next + 1 < 2 ^ 64 → n.remoteProxies.lookup r = none →
    P (n.spawnProxy r)
  dispatched : ∀ {n} msg, P n → P { n with framesIn := n.framesIn ++ [msg] }
  buffered : ∀ {n} buf, P n → P { n with accumulator := buf }

theorem dispatchMessage_next (ext : Externals ε) (n : Node) (msg : ProtocolMessage) :
    n.next ≤ (dispatchMessage ext n msg).1.next := by
  obtain ⟨n₁, created, sent⟩ := dispatchMessage_sends ext n msg
  have same : (dispatchMessage ext n msg).1.next = n₁.next := by
    rcases sent with eq | ⟨target, m, route, eq⟩
    · rw [eq]
    · rw [eq]
      exact (Framed.sendRaw n₁ _ target m route trivial : Framed Moved _ _).next
  rw [same]
  rcases created with rfl | ⟨r, -, -, rfl⟩
  · exact Nat.le_refl _
  · exact Nat.le_succ _

theorem dispatchInbound_next (ext : Externals ε) (n : Node) (frame : Bytes) :
    n.next ≤ (dispatchInbound ext n frame).1.next := by
  unfold dispatchInbound
  split
  · rename_i msg decoded
    exact dispatchMessage_next ext { n with framesIn := n.framesIn ++ [msg] } msg
  · exact Nat.le_refl _

theorem feedRounds_next (ext : Externals ε) (fuel : Nat) (n : Node) (frame : Option Bytes) :
    n.next ≤ (feedRounds ext fuel n frame).1.next := by
  induction fuel generalizing n frame with
  | zero => exact Nat.le_refl _
  | succ fuel ih =>
      cases frame with
      | none => exact Nat.le_refl _
      | some frame =>
          have first := dispatchInbound_next ext n frame
          unfold feedRounds
          split
          · rename_i n' f eq
            rw [eq] at first
            exact first
          · rename_i n' eq
            rw [eq] at first
            exact first.trans (ih { n' with
              accumulator := (accumulatorFeed ext.cbor n'.accumulator []).1 }
              (accumulatorFeed ext.cbor n'.accumulator []).2)

theorem Fed.dispatchMessage {P : Node → Prop} (fed : Fed P) (msg : ProtocolMessage) (h : P n)
    (bound : (dispatchMessage ext n msg).1.next < 2 ^ 64) : P (dispatchMessage ext n msg).1 := by
  obtain ⟨n₁, created, sent⟩ := dispatchMessage_sends ext n msg
  have made (small : n₁.next < 2 ^ 64) : P n₁ := by
    rcases created with rfl | ⟨r, -, missing, rfl⟩
    · exact h
    · exact fed.spawned h small missing
  rcases sent with eq | ⟨target, m, route, eq⟩
  · rw [eq] at bound ⊢
    exact made bound
  · have moved : Framed Moved n₁ (n₁.sendRaw (some n₁.endpoint) target m route).1 :=
      .sendRaw n₁ _ target m route trivial
    rw [eq] at bound ⊢
    rw [moved.next] at bound
    exact fed.sent target m route (made bound)

theorem Fed.feedRounds {P : Node → Prop} (fed : Fed P) (fuel : Nat) (frame : Option Bytes) (h : P n)
    (bound : (feedRounds ext fuel n frame).1.next < 2 ^ 64) : P (feedRounds ext fuel n frame).1 := by
  induction fuel generalizing n frame with
  | zero => exact h
  | succ fuel ih =>
      cases frame with
      | none => exact h
      | some frame =>
          have dispatched (small : (dispatchInbound ext n frame).1.next < 2 ^ 64) :
              P (dispatchInbound ext n frame).1 := by
            unfold dispatchInbound at small ⊢
            split
            · rename_i msg decoded
              rw [decoded] at small
              exact fed.dispatchMessage msg (fed.dispatched msg h) small
            · exact h
          unfold Remote.feedRounds at bound ⊢
          split
          · rename_i n' f eq
            rw [eq] at bound dispatched
            exact dispatched bound
          · rename_i n' eq
            rw [eq] at bound dispatched
            have rest := feedRounds_next ext fuel { n' with
              accumulator := (accumulatorFeed ext.cbor n'.accumulator []).1 }
              (accumulatorFeed ext.cbor n'.accumulator []).2
            have first : P n' := dispatched (Nat.lt_of_le_of_lt rest bound)
            exact ih _ (fed.buffered _ first) bound

theorem Fed.feedNode {P : Node → Prop} (fed : Fed P) (bytes : Bytes) (h : P n)
    (bound : (feedNode ext n bytes).1.next < 2 ^ 64) : P (feedNode ext n bytes).1 :=
  fed.feedRounds _ _ (fed.buffered _ h) bound

theorem sendRaw_endpoint (current target : Handle) (m : Bytes) (route : Route) :
    (n.sendRaw current target m route).1.endpoint = n.endpoint :=
  (Framed.sendRaw n current target m route trivial : Framed Moved _ _).endpoint

theorem endpoint_fed (e : InstanceId) : Fed fun n => n.endpoint = e where
  sent := fun target m route h => (sendRaw_endpoint _ target m route).trans h
  spawned := fun h _ _ => h
  dispatched := fun _ h => h
  buffered := fun _ h => h

/-- The whole step, with the end of the endpoint where it fails. -/
theorem Fed.arrive {P : Node → Prop} (fed : Fed P)
    (framed : ∀ {n n'}, P n → Framed (SentBy (some n.endpoint)) n n' → P n') (bytes : Bytes) (h : P n)
    (bound : (Node.settle n.endpoint (Remote.feedNode ext n bytes)).next < 2 ^ 64) :
    P (Node.settle n.endpoint (Remote.feedNode ext n bytes)) := by
  have settled : Framed (SentBy (some n.endpoint)) (Remote.feedNode ext n bytes).1
      (Node.settle n.endpoint (Remote.feedNode ext n bytes)) := .settle _ (.refl _) fun _ _ => rfl
  rw [settled.next] at bound
  have same := (endpoint_fed n.endpoint).feedNode bytes rfl bound
  refine framed (fed.feedNode bytes h bound) ?_
  rw [same]
  exact settled

end Turns

/-- Who is there, and what the table says of it. -/
structure Consistent (n : Node) : Prop where
  endpoint : ∃ x, n.actors n.endpoint = some x ∧ x.kind = .endpoint
  only : ∀ a x, n.actors a = some x → x.kind = .endpoint → a = n.endpoint
  bound : ∀ a x, n.actors a = some x → 0 < a.toNat ∧ a.toNat < n.next
  table : ∀ r p, (r, p) ∈ n.remoteProxies → ∃ x, n.actors p = some x ∧ x.kind = .proxy r

section Consistency
variable {ε : Type} {ext : Externals ε} {n n' : Node}

theorem Consistent.framed {R : Actor → Actor → Prop} (later : ∀ x x', R x x' → x'.kind = x.kind)
    (h : Consistent n) (framed : Framed R n n') : Consistent n' where
  endpoint := by
    obtain ⟨x, known, kind⟩ := h.endpoint
    obtain ⟨x', known', moved⟩ := framed.actor _ x known
    exact ⟨x', framed.endpoint ▸ known', (later x x' moved).trans kind⟩
  only := by
    intro a x' known kind
    obtain ⟨x, before, moved⟩ := framed.back known
    rw [framed.endpoint]
    exact h.only a x before ((later x x' moved).symm.trans kind)
  bound := by
    intro a x' known
    obtain ⟨x, before, -⟩ := framed.back known
    rw [framed.next]
    exact h.bound a x before
  table := by
    intro r p member
    rw [framed.remoteProxies] at member
    obtain ⟨x, known, kind⟩ := h.table r p member
    obtain ⟨x', known', moved⟩ := framed.actor p x known
    exact ⟨x', known', (later x x' moved).trans kind⟩

theorem Consistent.moved (h : Consistent n) (framed : Framed Moved n n') : Consistent n' :=
  h.framed (fun _ _ moved => moved.kind) framed

theorem Consistent.take (h : Consistent n) (a : InstanceId) : Consistent (n.take a) :=
  h.framed (fun _ _ later => later.kind) (.take n a)

theorem Consistent.fresh (h : Consistent n) (bound : n.next < 2 ^ 64) :
    n.actors n.nextId = none := by
  cases known : n.actors n.nextId with
  | none => rfl
  | some x =>
      have below := (h.bound _ x known).2
      rw [Node.nextId, UInt64.toNat_ofNat_of_lt' bound] at below
      exact absurd below (Nat.lt_irrefl _)

theorem spawn_cases {name : Bytes} {kind : Kind} {a : InstanceId} {x : Actor}
    (after : (n.spawn name kind).actors a = some x) :
    n.actors a = some x ∨ a = n.nextId ∧ x = { name := name, kind := kind } := by
  by_cases same : a = n.nextId
  · subst same
    simp only [Node.spawn, Function.update_self] at after
    exact .inr ⟨rfl, (Option.some.inj after).symm⟩
  · simp only [Node.spawn, ne_eq, same, not_false_eq_true, Function.update_of_ne] at after
    exact .inl after

theorem spawn_known (fresh : n.actors n.nextId = none) {name : Bytes} {kind : Kind}
    {a : InstanceId} {x : Actor} (before : n.actors a = some x) :
    (n.spawn name kind).actors a = some x := by
  have different : a ≠ n.nextId := by
    rintro rfl
    rw [fresh] at before
    cases before
  simp [Node.spawn, different, before]

theorem Consistent.spawn (h : Consistent n) (bound : n.next + 1 < 2 ^ 64) (name : Bytes) {kind : Kind}
    (other : kind ≠ .endpoint) : Consistent (n.spawn name kind) := by
  have id : n.nextId.toNat = n.next := UInt64.toNat_ofNat_of_lt' (Nat.lt_of_succ_lt bound)
  have fresh := h.fresh (Nat.lt_of_succ_lt bound)
  refine ⟨?_, ?_, ?_, ?_⟩
  · obtain ⟨x, before, endpoint⟩ := h.endpoint
    exact ⟨x, spawn_known fresh before, endpoint⟩
  · intro a x after endpoint
    rcases spawn_cases after with before | ⟨-, rfl⟩
    · exact h.only a x before endpoint
    · exact absurd endpoint other
  · intro a x after
    change 0 < a.toNat ∧ a.toNat < n.next + 1
    rcases spawn_cases after with before | ⟨rfl, -⟩
    · have below := h.bound a x before
      omega
    · obtain ⟨x, before, -⟩ := h.endpoint
      have positive := h.bound _ x before
      omega
  · intro r p member
    obtain ⟨x, before, proxy⟩ := h.table r p member
    exact ⟨x, spawn_known fresh before, proxy⟩

theorem Consistent.of_fields (h : Consistent n) (actors : n'.actors = n.actors)
    (endpoint : n'.endpoint = n.endpoint) (next : n'.next = n.next)
    (table : ∀ entry ∈ n'.remoteProxies, entry ∈ n.remoteProxies) : Consistent n' := by
  refine ⟨?_, ?_, ?_, ?_⟩
  · rw [actors, endpoint]
    exact h.endpoint
  · rw [actors, endpoint]
    exact h.only
  · rw [actors, next]
    exact h.bound
  · intro r p member
    rw [actors]
    exact h.table r p (table _ member)

theorem Consistent.spawnProxy (h : Consistent n) (bound : n.next + 1 < 2 ^ 64) (r : Rpiid) :
    Consistent (n.spawnProxy r) := by
  have spawned := h.spawn bound (text "proxy") (show Kind.proxy r ≠ .endpoint from nofun)
  refine ⟨spawned.endpoint, spawned.only, spawned.bound, ?_⟩
  intro r' p member
  rcases List.mem_cons.mp member with new | old
  · cases new
    exact ⟨_, Function.update_self .., rfl⟩
  · exact spawned.table r' p old

theorem consistent_fed : Fed Consistent where
  sent := fun target m route h => h.moved (.sendRaw _ _ target m route trivial)
  spawned := fun h bound _ => h.spawnProxy bound _
  dispatched := fun _ h => h.of_fields rfl rfl rfl fun _ => id
  buffered := fun _ h => h.of_fields rfl rfl rfl fun _ => id

theorem Consistent.settle {r : Outcome} (h : Consistent r.1) (a : InstanceId) :
    Consistent (Node.settle a r) :=
  h.moved (.settle a (.refl r.1) fun _ _ => trivial)

theorem tells_framed (ext : Externals ε) (entries : List (Rpiid × InstanceId)) (n : Node) :
    Framed (SentBy none) n (entries.foldl
      (fun n entry => (n.sendRaw none (some entry.2) (endpointExitMessage ext.cbor) .own).1) n) := by
  induction entries generalizing n with
  | nil => exact .refl n
  | cons entry entries ih =>
      have told : Framed (SentBy none) n
          (n.sendRaw none (some entry.2) (endpointExitMessage ext.cbor) .own).1 :=
        .sendRaw n _ _ _ _ rfl
      exact told.trans (ih _)

/-- The proxies of the table are told, and the table is emptied. -/
theorem deinit_framed (ext : Externals ε) (n : Node) :
    ∃ n₁, Framed (SentBy none) n n₁ ∧ deinit ext n = { n₁ with remoteProxies := [], deinited := true } :=
  ⟨_, tells_framed ext n.remoteProxies n, rfl⟩

theorem consistent_step {act : Action} (h : Consistent n) (next : n.step ext act = some n') :
    Consistent n' := by
  obtain ⟨-, performed, bound⟩ := step_eq_some next
  cases perform_effect h.endpoint performed with
  | spawned name trap => exact h.spawn bound name nofun
  | moved _ framed => exact h.moved framed.moved
  | turned _ _ _ framed => exact (h.take _).moved framed.moved
  | @received a x mail rest known mailbox kind alive plain =>
      have effect := endpointReceive_effect ext (n.take a) mail.body
      generalize endpointReceive ext (n.take a) mail.body = r at effect
      refine Consistent.settle ?_ a
      cases effect with
      | failed f => exact h.take a
      | sent _ _ _ => exact (h.take a).of_fields rfl rfl rfl fun _ => id
      | removed _ => exact (h.take a).of_fields rfl rfl rfl fun _ member => List.mem_of_mem_filter member
  | fed alive =>
      exact consistent_fed.arrive (fun h framed => h.moved framed.moved) _ h bound
  | deinited dead first =>
      obtain ⟨n₁, framed, eq⟩ := deinit_framed ext n
      rw [eq]
      exact (h.moved framed.moved).of_fields rfl rfl rfl nofun

end Consistency

end Thespian.Remote
