import Thespian.Remote.Notices

/-!
What a step of one side does for a link across the connection: for the request of a local
actor, for the exit of the remote one, and for the entry of the proxy between the two. The
conditions under which it works say that whoever is handed a mail of the link is alive to
act on it.
-/

namespace Thespian.Remote
open Decoding Decoding.Decoder Cbor Zig Transition

/-- While the proxy is alive, it is the one recorded for the id. -/
def Entered (r : Rpiid) (p : InstanceId) (n : Node) : Prop :=
  n.kindOf p = some (.proxy r) → n.isAlive p = true → n.remoteProxies.lookup r = some p

/-- No proxy_exit message takes the entry of the proxy while it is alive. -/
def LeavesEntry {ε : Type} (ext : Externals ε) (n : Node) (r : Rpiid) (p : InstanceId)
    (act : Action) : Prop :=
  ∀ mail rest, act = .turn n.endpoint → n.mailbox n.endpoint = mail :: rest →
    EndpointMessage.classify ext.cbor ext.errorName mail.body = .ok (.proxyExit r) →
    n.remoteProxies.lookup r = some p → n.isAlive p = false

/-- The proxy that takes a request of the actor for a link is alive. -/
def TakesRequest (n : Node) (a p : InstanceId) (act : Action) : Prop :=
  ∀ mail rest, act = .turn p → n.mailbox p = mail :: rest → mail.sender = some a →
    mail.body = Runtime.linkMsg → n.isAlive p = true

/-- A request of the remote actor for a link with the actor finds everybody alive. -/
structure Answers {ε : Type} (ext : Externals ε) (n : Node) (a b : InstanceId) (act : Action) :
    Prop where
  /-- A proxy that takes a set_notify message is alive, and so is its target. -/
  notify : ∀ p mail rest, act = .turn p → n.mailbox p = mail :: rest →
    n.kindOf p = some (.proxy ⟨b⟩) → mail.body = setNotifyMessage ext.cbor ⟨a⟩ →
    n.isAlive p = true ∧ n.isAlive a = true
  /-- The actor is alive when it takes the proxy's request. -/
  link : ∀ p mail rest, act = .turn a → n.mailbox a = mail :: rest →
    n.kindOf p = some (.proxy ⟨b⟩) → mail.sender = some p → mail.body = Runtime.linkMsg →
    n.isAlive a = true

/-- The exit of the actor is passed on by the proxies that it is linked with. -/
structure Reports {ε : Type} (ext : Externals ε) (n : Node) (a b : InstanceId) (act : Action) :
    Prop where
  /-- The actor exits with a reason alone, and the proxies are alive then. -/
  leave : ∀ m, n.exitOf ext act = some (a, m) →
    (∃ reason, reason.length < 2 ^ 62 ∧ m = exitText reason) ∧
      ∀ p, n.kindOf p = some (.proxy ⟨b⟩) → some p ∈ n.linksOf a → n.isAlive p = true
  /-- They still are when they take its exit message. -/
  exit : ∀ p mail rest reason, act = .turn p → n.mailbox p = mail :: rest →
    n.kindOf p = some (.proxy ⟨b⟩) → mail.sender = some a → mail.body = exitText reason →
    n.isAlive p = true

section Entries
variable {ε : Type} {ext : Externals ε} {n n' : Node} {r : Rpiid} {p : InstanceId}

theorem LeavesEntry.arrive (n : Node) (r : Rpiid) (p : InstanceId) (bytes : Bytes) :
    LeavesEntry ext n r p (.arrive bytes) := by
  intro mail rest same
  cases same

/-- Where nobody leaves, everybody stays. -/
theorem Passes.stays {taker : Handle} (h : Passes taker none n n') {a : InstanceId}
    (alive : n.isAlive a = true) : n'.isAlive a = true := h.alive a (by simp) alive

theorem Framed.isAlive_back (framed : Framed Later n n') {a : InstanceId}
    (after : n'.isAlive a = true) : n.isAlive a = true := by
  by_contra dead
  have still := framed.not_alive (Bool.eq_false_iff.mpr dead)
  rw [after] at still
  cases still

theorem Entered.later (h : Entered r p n) (framed : Framed Later n n') : Entered r p n' := by
  intro kind alive
  rw [framed.kindOf] at kind
  rw [framed.remoteProxies]
  exact h kind (framed.isAlive_back alive)

theorem Entered.of_fields (h : Entered r p n) (actors : n'.actors = n.actors)
    (remoteProxies : n'.remoteProxies = n.remoteProxies) : Entered r p n' := by
  simp only [Entered, Node.kindOf, Node.isAlive, Node.status, actors, remoteProxies]
  exact h

/-- Who was made is alive, and everybody else is as before. -/
theorem spawn_back {name : Bytes} {kind k : Kind} {a : InstanceId}
    (known : (n.spawn name kind).kindOf a = some k)
    (alive : (n.spawn name kind).isAlive a = true) :
    n.kindOf a = some k ∧ n.isAlive a = true ∨ a = n.nextId ∧ k = kind := by
  obtain ⟨x, here, kinds⟩ := Node.kindOf_eq_some.mp known
  obtain ⟨y, here', status⟩ := Node.isAlive_iff.mp alive
  cases here.symm.trans here'
  rcases spawn_cases here with before | ⟨same, rfl⟩
  · exact .inl ⟨Node.kindOf_eq_some.mpr ⟨x, before, kinds⟩,
      Node.isAlive_iff.mpr ⟨x, before, status⟩⟩
  · exact .inr ⟨same, kinds.symm⟩

theorem entered_fed (r : Rpiid) (p : InstanceId) : Fed (Entered r p) where
  sent := by
    intro n target m route h
    have framed : Framed Moved n _ := .sendRaw n (some n.endpoint) target m route trivial
    exact h.later framed.later
  spawned := by
    intro n s h _ missing kind alive
    change List.lookup r ((s, n.nextId) :: n.remoteProxies) = some p
    rcases spawn_back kind alive with ⟨kind, alive⟩ | ⟨rfl, same⟩
    · have held := h kind alive
      have other : r ≠ s := by
        rintro rfl
        rw [missing] at held
        cases held
      rw [List.lookup_cons, beq_false_of_ne other]
      exact held
    · cases same
      exact List.lookup_cons_self
  dispatched := fun _ h => h.of_fields rfl rfl
  buffered := fun _ h => h.of_fields rfl rfl

/-- A step keeps the entry of the proxy. -/
theorem entered_step (consistent : Consistent n) (h : Entered r p n) {act : Action}
    (entry : LeavesEntry ext n r p act) (next : n.step ext act = some n')
    (up : n'.isAlive n'.endpoint = true) : Entered r p n' := by
  obtain ⟨-, performed, bound⟩ := step_eq_some next
  cases perform_effect consistent.endpoint performed with
  | spawned name trap =>
      intro kind alive
      rcases spawn_back kind alive with ⟨kind, alive⟩ | ⟨-, same⟩
      · exact h kind alive
      · cases same
  | moved _ framed => exact h.later framed.later
  | @turned a x mail rest _ _ _ _ framed => exact (h.later (.take n a)).later framed.later
  | @received a x mail rest known mailbox kind alive _ =>
      have here := consistent.only a x known kind
      subst here
      have taken := h.later (.take n n.endpoint)
      have effect := endpointReceive_effect ext (n.take n.endpoint) mail.body
      generalize endpointReceive ext (n.take n.endpoint) mail.body = outcome at effect
      cases effect with
      | failed f =>
          have settled : Framed Moved (n.take n.endpoint)
              (Node.settle n.endpoint (n.take n.endpoint, some f)) :=
            .settle _ (.refl _) fun _ _ => trivial
          exact taken.later settled.later
      | sent _ _ _ => exact taken.of_fields rfl rfl
      | @removed s classified =>
          intro proxy alive
          have held := taken proxy alive
          have other : r ≠ s := by
            rintro rfl
            have mailbox' : n.mailbox n.endpoint = mail :: rest := by
              rw [mailbox_of_some known, mailbox]
            have dead := entry mail rest rfl mailbox' classified held
            have before := (Framed.take n n.endpoint).isAlive_back alive
            rw [dead] at before
            cases before
          exact (lookup_filter_ne other _).trans held
  | fed _ =>
      exact (entered_fed r p).arrive (fun h framed => h.later framed.later) _ h bound
  | deinited dead _ =>
      obtain ⟨n₁, framed, eq⟩ := deinit_framed ext n
      rw [eq] at up
      have down := framed.later.not_alive dead
      have same : n₁.endpoint = n.endpoint := framed.endpoint
      change n₁.isAlive n₁.endpoint = true at up
      rw [same, down] at up
      cases up

end Entries

/-- A step of the side's own, with who takes a mail in it and who exits. -/
structure Turned {ε : Type} (ext : Externals ε) (n : Node) (act : Action) (n' : Node)
    (taker leaver : Handle) : Prop where
  passes : Passes taker leaver n n'
  turn : ∀ a, taker = some a → act = .turn a
  departs : ∀ a, leaver = some a → ∃ m, n.exitOf ext act = some (a, m) ∧ Departs taker n n' a m

section Own
variable {ε : Type} {ext : Externals ε} {n n' : Node} {act : Action} {taker leaver : Handle}
  {a p : InstanceId} {mail : Mail}

theorem step_turned (consistent : Consistent n) (own : act.isArrive = false)
    (next : n.step ext act = some n') (up : Up n') :
    ∃ taker leaver, Turned ext n act n' taker leaver := by
  obtain ⟨taker, turn, passes | ⟨a, m, exits, departs⟩⟩ :=
    step_passes consistent own next up.2.1 up.2.2
  · exact ⟨taker, none, passes, turn, nofun⟩
  · refine ⟨taker, some a, departs.passes, turn, ?_⟩
    rintro b same
    cases same
    exact ⟨m, exits, departs⟩

/-- A mail waits until it is the turn of its actor. -/
theorem Turned.waits (h : Turned ext n act n' taker leaver) (waits : mail ∈ n.mailbox a) :
    mail ∈ n'.mailbox a ∨ act = .turn a ∧ ∃ rest, n.mailbox a = mail :: rest := by
  by_cases takes : taker = some a
  · have passed := h.passes.mailbox a mail
    rw [if_pos takes] at passed
    cases mailbox : n.mailbox a with
    | nil =>
        rw [mailbox] at waits
        cases waits
    | cons first rest =>
        rw [mailbox] at waits passed
        rcases List.mem_cons.mp waits with rfl | later
        · exact .inr ⟨h.turn a takes, rest, rfl⟩
        · exact .inl (passed later)
  · have passed := h.passes.mailbox a mail
    rw [if_neg takes] at passed
    exact .inl (passed waits)

/-- Who is alive stays so, or exits. -/
theorem Turned.stays (h : Turned ext n act n' taker leaver) (alive : n.isAlive a = true) :
    n'.isAlive a = true ∨ ∃ m, n.exitOf ext act = some (a, m) ∧ Departs taker n n' a m := by
  by_cases leaves : leaver = some a
  · exact .inr (h.departs a leaves)
  · exact .inl (h.passes.alive a leaves alive)

theorem linkWireMessage_plain (doc : Documented ext.cbor) (fromId : Lpiid) (r : Rpiid) :
    Runtime.isLinkMsg (linkWireMessage ext.cbor fromId r) = false := by
  refine decide_eq_false fun same => ?_
  have start := linkWireMessage_start doc fromId r
  rw [same, linkMsg_start] at start
  cases start

theorem localLinkExitMessage_plain (doc : Documented ext.cbor) (fromId : Lpiid) (reason : Bytes) :
    Runtime.isLinkMsg (localLinkExitMessage ext.cbor fromId reason) = false := by
  refine decide_eq_false fun same => ?_
  have start := localLinkExitMessage_start doc fromId reason
  rw [same, linkMsg_start] at start
  cases start

theorem classify_localLinkExit (doc : Selective ext.cbor) (fromId : Lpiid) {reason : Bytes}
    (small : reason.length < 2 ^ 62) :
    EndpointMessage.classify ext.cbor ext.errorName (localLinkExitMessage ext.cbor fromId reason) =
      .ok (.localLinkExit fromId reason) := by
  rw [localLinkExitMessage_eq doc.toDocumented fromId reason []]
  refine EndpointMessage.classify_elements doc nofun (items_of_forall ?_ ?_)
  · simp [EndpointMessage.elements]
  · simp only [EndpointMessage.elements, List.forall_mem_cons]
    exact ⟨item_string (by decide), item_lpiid fromId, item_string small, by simp⟩

/-- The endpoint writes what a proxy asks for. -/
theorem request_written (up : Up n) (up' : Up n') {message : EndpointMessage}
    {msg : ProtocolMessage} {rest : List Mail} {new : List (Frame UInt8 ProtocolMessage)}
    (mailbox : n.mailbox n.endpoint = mail :: rest) (plain : Runtime.isLinkMsg mail.body = false)
    (classified : EndpointMessage.classify ext.cbor ext.errorName mail.body = .ok message)
    (asked : message.frame? = some msg) (next : n.step ext (.turn n.endpoint) = some n')
    (emitted : Emitted ext n n' new) : ∃ f ∈ new, f.2 = msg := by
  obtain ⟨frame, written⟩ := request_emits up.1 mailbox up.2.1 plain classified asked next
    up'.2.1 up'.2.2
  rw [emitted.unique written]
  exact ⟨(frame, msg), List.mem_singleton.mpr rfl, rfl⟩

/-- Nobody but a proxy hears of a link that it is asked for. -/
theorem lastWords_link {x : Actor} (kind : ∀ r, x.kind ≠ .proxy r)
    (body : mail.body = Runtime.linkMsg) : n.lastWords ext a x mail = none := by
  have link : Runtime.isLinkMsg mail.body = true := by simp [body, Runtime.isLinkMsg]
  have deaf : Node.observesLinks x.kind = false := by
    cases kinds : x.kind with
    | proxy r => exact absurd kinds (kind r)
    | user _ | endpoint => rfl
  simp [Node.lastWords, link, deaf]

/-- Who is alive when it takes a request for a link, and is no proxy, stays so. -/
theorem Turned.takes_link (h : Turned ext n (.turn a) n' taker leaver) {rest : List Mail}
    (mailbox : n.mailbox a = mail :: rest) (body : mail.body = Runtime.linkMsg)
    (kind : ∀ r, n.kindOf a ≠ some (.proxy r)) (alive : n.isAlive a = true) :
    n'.isAlive a = true := by
  rcases h.stays alive with stays | ⟨m, exits, -⟩
  · exact stays
  · obtain ⟨x, known, -⟩ := Node.isAlive_iff.mp alive
    rw [mailbox_of_some known] at mailbox
    have silent : (n.take a).lastWords ext a x mail = none :=
      lastWords_link (fun r same => kind r (Node.kindOf_eq_some.mpr ⟨x, known, same⟩)) body
    simp [Node.exitOf, known, mailbox, silent] at exits

end Own

section Dispatch
variable {ε : Type} {ext : Externals ε} {n n' : Node} {x y p : InstanceId}

/-- The entries stay while frames are dispatched. -/
structure Feeds (n n' : Node) : Prop where
  passes : Passes none none n n'
  entries : ∀ r p, n.remoteProxies.lookup r = some p → n'.remoteProxies.lookup r = some p

theorem Feeds.refl (n : Node) : Feeds n n := ⟨.refl n, fun _ _ => id⟩

theorem Feeds.trans {n'' : Node} (h : Feeds n n') (h' : Feeds n' n'') : Feeds n n'' :=
  ⟨h.passes.trans h'.passes, fun r p held => h'.entries r p (h.entries r p held)⟩

theorem Feeds.dispatchMessage (ext : Externals ε) (consistent : Consistent n)
    (msg : ProtocolMessage) (bound : (dispatchMessage ext n msg).1.next < 2 ^ 64) :
    Feeds n (Remote.dispatchMessage ext n msg).1 := by
  refine ⟨.dispatchMessage ext consistent msg bound, ?_⟩
  intro r p held
  obtain ⟨n₁, made, sent⟩ := dispatchMessage_sends ext n msg
  have same : (Remote.dispatchMessage ext n msg).1.remoteProxies = n₁.remoteProxies := by
    rcases sent with eq | ⟨target, m, route, eq⟩
    · rw [eq]
    · rw [eq]
      exact (Framed.sendRaw n₁ _ target m route trivial : Framed Moved _ _).remoteProxies
  rw [same]
  rcases made with rfl | ⟨s, -, missing, rfl⟩
  · exact held
  · have other : r ≠ s := by
      rintro rfl
      rw [missing] at held
      cases held
    change List.lookup r ((s, n.nextId) :: n.remoteProxies) = some p
    rw [List.lookup_cons, beq_false_of_ne other]
    exact held

/-- The proxy for the one actor is told to notify of the exit of the other. -/
def Notified (ext : Externals ε) (x y : InstanceId) (n : Node) : Prop :=
  ∃ q, n.kindOf q = some (.proxy ⟨x⟩) ∧
    ∃ mail ∈ n.mailbox q, mail.body = setNotifyMessage ext.cbor ⟨y⟩

theorem Notified.passes (h : Notified ext x y n) (passes : Passes none none n n') :
    Notified ext x y n' := by
  obtain ⟨q, kind, mail, waits, body⟩ := h
  exact ⟨q, passes.kind q _ kind, mail, passes.mailbox q mail waits, body⟩

theorem dispatches_link (doc : Selective ext.cbor) (up : Up n)
    (dispatched : dispatchMessage ext n (.link ⟨x⟩ ⟨y⟩) = (n', none)) : Notified ext x y n' := by
  have deliverable := (dispatchMessage_none_iff doc.toDocumented up.2.1 rfl).mp
    (congrArg Prod.snd dispatched)
  have outcome := congrArg Prod.fst dispatched
  simp only [dispatchMessage] at outcome
  have notified {m : Node} {q : InstanceId} (kind : m.kindOf q = some (.proxy ⟨x⟩))
      (alive : m.isAlive q = true) : Notified ext x y
        (m.sendRaw (some m.endpoint) (some q) (setNotifyMessage ext.cbor ⟨y⟩) .own).1 := by
    have sent : Framed Moved m _ := .sendRaw m (some m.endpoint) (some q)
      (setNotifyMessage ext.cbor ⟨y⟩) .own trivial
    exact ⟨q, (sent.later.kindOf q).trans kind, _, sendRaw_mem alive _ _ _, rfl⟩
  rw [← outcome]
  rcases getOrCreateProxy_cases n ⟨x⟩ with ⟨q, found, eq⟩ | ⟨missing, eq⟩
  · rw [eq]
    obtain ⟨before, after, split, -⟩ := List.lookup_eq_some_iff.mp found
    obtain ⟨z, known, kind⟩ := up.1.table ⟨x⟩ q (by simp [split])
    exact notified (Node.kindOf_eq_some.mpr ⟨z, known, kind⟩) (deliverable q found)
  · rw [eq]
    have made : (n.spawnProxy ⟨x⟩).actors n.nextId =
        some { name := text "proxy", kind := .proxy ⟨x⟩ } := Function.update_self ..
    exact notified (Node.kindOf_eq_some.mpr ⟨_, made, rfl⟩) (Node.isAlive_iff.mpr ⟨_, made, rfl⟩)

/-- The proxy is told of the exit of its remote actor. -/
def Informed (e p : InstanceId) (reason : Bytes) (n : Node) : Prop :=
  ∃ mail ∈ n.mailbox p, mail.sender = some e ∧ mail.body = exitText reason

theorem Informed.passes {e : InstanceId} {reason : Bytes} (h : Informed e p reason n)
    (passes : Passes none none n n') : Informed e p reason n' := by
  obtain ⟨mail, waits, sender, body⟩ := h
  exact ⟨mail, passes.mailbox p mail waits, sender, body⟩

theorem dispatches_exit (doc : Documented ext.cbor) {reason : Bytes}
    (held : n.remoteProxies.lookup ⟨y⟩ = some p) (alive : n.isAlive p = true)
    (dispatched : dispatchMessage ext n (.exit ⟨y⟩ reason) = (n', none)) :
    Informed n.endpoint p reason n' := by
  have outcome := congrArg Prod.fst dispatched
  simp only [dispatchMessage, held] at outcome
  rw [← outcome]
  refine ⟨_, sendRaw_mem alive _ _ _, rfl, ?_⟩
  exact exitReasonMessage_eq doc reason

end Dispatch

end Thespian.Remote
