import Thespian.Remote.ProxyExits

/-!
The table of an endpoint over whole runs. Where every proxy_exit message comes from
a proxy of the id it names, the table records every proxy that is alive, there is
one for a remote id, and all of them are told when the endpoint ends. A peer can
send the message to the endpoint's own id; then the proxy it names stays behind
without an entry, and the next frame makes another.
-/

namespace Thespian.Remote
open Cbor Zig Transition

section Invariant
variable {ε : Type} {ext : Externals ε} {n n' : Node}

/-- What the steps keep. -/
structure Kept (ext : Externals ε) (n : Node) : Prop where
  consistent : Consistent n
  stopped : Stopped n
  tabled : Tabled ext n
  announced : n.crashed = false → Announced ext n

theorem Stopped.running (h : Stopped n) (alive : n.isAlive n.endpoint = true) :
    n.deinited = false := by
  rw [Bool.eq_false_iff]
  intro ended
  rw [h ended] at alive
  cases alive

theorem Stopped.spawn (h : Stopped n) (consistent : Consistent n) (bound : n.next + 1 < 2 ^ 64)
    (name : Bytes) (kind : Kind) : Stopped (n.spawn name kind) := by
  intro ended
  obtain ⟨x, known, -⟩ := consistent.endpoint
  have fresh := consistent.fresh (Nat.lt_of_succ_lt bound)
  have same : (n.spawn name kind).actors n.endpoint = some x := spawn_known fresh known
  have dead := h ended
  rw [Bool.eq_false_iff] at dead ⊢
  intro alive
  obtain ⟨y, after, status⟩ := Node.isAlive_iff.mp alive
  cases same.symm.trans after
  exact dead (Node.isAlive_iff.mpr ⟨x, known, status⟩)

theorem Consistent.endpoint_other (h : Consistent n) (a : InstanceId)
    (same : some n.endpoint = some a) : ∃ x, n.actors a = some x ∧ ∀ r, x.kind ≠ .proxy r := by
  cases same
  obtain ⟨x, known, kind⟩ := h.endpoint
  exact ⟨x, known, by simp [kind]⟩

theorem Consistent.endpoint_known (h : Consistent n) : ∃ e, n.actors n.endpoint = some e := by
  obtain ⟨x, known, -⟩ := h.endpoint
  exact ⟨x, known⟩

/-- A turn of a user actor or of a proxy. -/
theorem kept_turned (doc : Selective ext.cbor) (kept : Kept ext n) (up : n.crashed = false)
    {a : InstanceId} {x : Actor} {mail : Mail} {rest : List Mail} (known : n.actors a = some x)
    (mailbox : x.mailbox = mail :: rest) (run : n' = (n.take a).runMail ext a x mail)
    (framed : Framed (SentBy (some a)) (n.take a) n') :
    Stopped n' ∧ Tabled ext n' ∧ (n'.crashed = false → Announced ext n') := by
  have taken := kept.consistent.take a
  have stopped := kept.stopped.later (.take n a)
  have known' := Node.actors_update_of_some (f := fun x => { x with
    mailbox := x.mailbox.tail, received := x.received ++ x.mailbox.take 1 }) known
  refine ⟨stopped.moved framed.moved, ?_, ?_⟩
  · refine kept.tabled.taken known mailbox framed.moved fun r kind alive body => ?_
    rw [run]
    exact told_proxy_exits doc known' kind alive body
  · intro running
    have announced := (kept.announced up).take a
    by_cases proxy : ∃ r, x.kind = .proxy r
    · obtain ⟨r, kind⟩ := proxy
      rw [run] at running ⊢
      refine announced.proxy_turn doc.toDocumented stopped taken.endpoint_known known' ⟨rfl, rfl⟩
        kind ?_ running
      exact fun early alive => kept.tabled.entry early a r x ⟨known, kind, alive⟩
    · refine announced.sent_by taken.endpoint_known ?_ framed
      intro b same
      cases same
      exact ⟨_, known', fun r kind => proxy ⟨r, kind⟩⟩

/-- A turn of the endpoint. -/
theorem kept_received (kept : Kept ext n) (up : n.crashed = false) {a : InstanceId} {x : Actor}
    {mail : Mail} {rest : List Mail} (own : OwnExits ext n (.turn a))
    (known : n.actors a = some x) (mailbox : x.mailbox = mail :: rest)
    (kind : x.kind = .endpoint) (alive : x.status = .alive) :
    Stopped (.settle a (endpointReceive ext (n.take a) mail.body)) ∧
      Tabled ext (.settle a (endpointReceive ext (n.take a) mail.body)) ∧
      Announced ext (.settle a (endpointReceive ext (n.take a) mail.body)) := by
  have here := kept.consistent.only a x known kind
  subst here
  have announced := (kept.announced up).take n.endpoint
  have consistent := kept.consistent.take n.endpoint
  have stopped := kept.stopped.later (.take n n.endpoint)
  have taken : Tabled ext (n.take n.endpoint) := by
    refine kept.tabled.taken known mailbox (.refl _) fun r proxy => ?_
    rw [kind] at proxy
    cases proxy
  have effect := endpointReceive_effect ext (n.take n.endpoint) mail.body
  generalize endpointReceive ext (n.take n.endpoint) mail.body = outcome at effect
  cases effect with
  | failed f =>
      have settled : Framed (SentBy (some n.endpoint)) (n.take n.endpoint)
          (Node.settle n.endpoint (n.take n.endpoint, some f)) :=
        .settle _ (.refl _) fun _ _ => rfl
      exact ⟨stopped.moved settled.moved, taken.moved settled.moved,
        announced.sent_by consistent.endpoint_known consistent.endpoint_other settled⟩
  | sent _ _ _ =>
      exact ⟨stopped, taken.of_fields rfl rfl rfl, announced.of_fields rfl rfl (fun _ _ => id) rfl⟩
  | removed classified =>
      obtain ⟨p, announces⟩ := own rfl x mail rest _ known alive mailbox classified
      have running := kept.stopped.running (Node.isAlive_iff.mpr ⟨x, known, alive⟩)
      have pending := (kept.announced up).dead running x mail p _ known (by simp [mailbox]) announces
      refine ⟨stopped, taken.fetchRemove fun p' recorded => ?_,
        (kept.announced up).handled running known mailbox announces⟩
      have same : p = p' := Option.some.inj (pending.2.symm.trans recorded)
      exact (Framed.take n n.endpoint).not_alive (same ▸ pending.1)

/-- One step keeps the table. -/
theorem kept_step (doc : Selective ext.cbor) {act : Action} (kept : Kept ext n)
    (own : OwnExits ext n act) (next : n.step ext act = some n') : Kept ext n' := by
  have consistent := kept.consistent
  suffices rest : Stopped n' ∧ Tabled ext n' ∧ (n'.crashed = false → Announced ext n') from
    ⟨consistent_step consistent next, rest.1, rest.2.1, rest.2.2⟩
  obtain ⟨up, performed, bound⟩ := step_eq_some next
  have announced := kept.announced up
  cases perform_effect consistent.endpoint performed with
  | spawned name trap =>
      exact ⟨kept.stopped.spawn consistent bound name (.user trap), kept.tabled.spawn name trap,
        fun _ => announced.spawn consistent bound name (.user trap)⟩
  | moved other framed =>
      exact ⟨kept.stopped.moved framed.moved, kept.tabled.moved framed.moved,
        fun _ => announced.sent_by consistent.endpoint_known other framed⟩
  | turned known mailbox run framed => exact kept_turned doc kept up known mailbox run framed
  | received known mailbox kind alive plain =>
      obtain ⟨stopped, tabled, announced⟩ := kept_received kept up own known mailbox kind alive
      exact ⟨stopped, tabled, fun _ => announced⟩
  | fed alive =>
      have framed {n n' : Node} : Consistent n ∧ Tabled ext n ∧ Announced ext n ∧ n.deinited = false →
          Framed (SentBy (some n.endpoint)) n n' →
          Consistent n' ∧ Tabled ext n' ∧ Announced ext n' ∧ n'.deinited = false :=
        fun ⟨consistent, tabled, announced, early⟩ framed =>
          ⟨consistent.moved framed.moved, tabled.moved framed.moved,
            announced.sent_by consistent.endpoint_known consistent.endpoint_other framed,
            framed.deinited.trans early⟩
      have fed : Fed fun n => Consistent n ∧ Tabled ext n ∧ Announced ext n ∧ n.deinited = false :=
        { sent := fun target m route h => framed h (.sendRaw _ _ target m route rfl)
          spawned := fun ⟨consistent, tabled, announced, early⟩ bound missing =>
            ⟨consistent.spawnProxy bound _, tabled.spawnProxy early missing,
              announced.spawnProxy consistent bound missing, early⟩
          dispatched := fun _ ⟨consistent, tabled, announced, early⟩ =>
            ⟨consistent.of_fields rfl rfl rfl fun _ => id, tabled.of_fields rfl rfl rfl,
              announced.of_fields rfl rfl (fun _ _ => id) rfl, early⟩
          buffered := fun _ ⟨consistent, tabled, announced, early⟩ =>
            ⟨consistent.of_fields rfl rfl rfl fun _ => id, tabled.of_fields rfl rfl rfl,
              announced.of_fields rfl rfl (fun _ _ => id) rfl, early⟩ }
      obtain ⟨-, tabled, announced, early⟩ := fed.arrive framed _
        ⟨consistent, kept.tabled, announced, kept.stopped.running alive⟩ bound
      refine ⟨fun ended => ?_, tabled, fun _ => announced⟩
      rw [early] at ended
      cases ended
  | deinited dead first =>
      have framed := tells_framed ext n.remoteProxies n
      have nobody (a : InstanceId) (none : (none : Handle) = some a) :
          ∃ x, n.actors a = some x ∧ ∀ r, x.kind ≠ .proxy r := nomatch none
      have told := announced.sent_by consistent.endpoint_known nobody framed
      have quiet := framed.later.not_alive dead
      rw [← framed.endpoint] at quiet
      exact ⟨fun _ => quiet, kept.tabled.deinit first, fun _ => ⟨told.known, nofun, told.once⟩⟩

theorem kept_initial (h : Initial n) : Kept ext n := by
  obtain ⟨name, endpoint⟩ := h.endpoint
  have nobody {p : InstanceId} {r : Rpiid} {x : Actor} (live : LiveProxy n p r x) : False := by
    by_cases same : p = n.endpoint
    · subst same
      cases endpoint.symm.trans live.1
      cases live.2.1
    · obtain ⟨name, trap, rfl⟩ := h.others p x live.1 same
      cases live.2.1
  have empty : ∀ e, n.actors n.endpoint = some e → e.mailbox = [] := by
    intro e known
    cases endpoint.symm.trans known
    rfl
  refine ⟨⟨⟨_, endpoint, rfl⟩, ?_, h.bound, ?_⟩, ?_, ⟨?_, ?_, ?_⟩, fun _ => ⟨?_, ?_, ?_⟩⟩
  · intro a x known kind
    by_contra other
    obtain ⟨name, trap, rfl⟩ := h.others a x known other
    cases kind
  · intro r p member
    rw [h.remoteProxies] at member
    cases member
  · intro ended
    rw [h.deinited] at ended
    cases ended
  · exact fun p p' r x x' live => (nobody live).elim
  · exact fun _ p r x live => (nobody live).elim
  · exact fun _ p r x live => (nobody live).elim
  · intro e mail s known member
    rw [empty e known] at member
    cases member
  · intro _ e mail p r known member
    rw [empty e known] at member
    cases member
  · intro e known
    rw [empty e known]
    exact .nil

/-- In every run in which the endpoint handles only the proxy_exit messages of its
proxies, the table is right in every state, and a message removes the entry of its
sender. -/
theorem proxies_tabled (doc : Selective ext.cbor) (initial : Initial n) {acts : List Action}
    (along : Along (Node.step ext) (OwnExits ext) n acts)
    (h : run (Node.step ext) n acts = some n') :
    Tabled ext n' ∧ ∀ x mail rest r p, OwnExits ext n' (.turn n'.endpoint) → n'.crashed = false →
      n'.actors n'.endpoint = some x → x.status = .alive → x.mailbox = mail :: rest →
      EndpointMessage.classify ext.cbor ext.errorName mail.body = .ok (.proxyExit r) →
      n'.remoteProxies.lookup r = some p → mail.sender = some p ∧ n'.isAlive p = false := by
  have keeps : Keeps (Node.step ext) (OwnExits ext) (Kept ext) :=
    fun _ _ _ kept own next => kept_step doc kept own next
  have kept := keeps.run (kept_initial initial) along h
  refine ⟨kept.tabled, ?_⟩
  intro x mail rest r p own up known alive mailbox classified recorded
  obtain ⟨p', announces⟩ := own rfl x mail rest r known alive mailbox classified
  have running := kept.stopped.running (Node.isAlive_iff.mpr ⟨x, known, alive⟩)
  have pending := (kept.announced up).dead running x mail p' r known (by simp [mailbox]) announces
  cases pending.2.symm.trans recorded
  exact ⟨announces.2.1, pending.1⟩

end Invariant

section Examples

/-- A frame as the peer writes it. -/
def frame (msg : ProtocolMessage) : Bytes := frameOf (arrayOf msg.elements)

/-- A check of the condition, with the reason of the announcements given. -/
def ownExitsFor (reason : Bytes) (n : Node) : Action → Bool
  | .turn a =>
      match (n.actors a).bind fun x => x.mailbox.head? with
      | some mail =>
          match EndpointMessage.classify lenient DomainError.what mail.body, mail.sender with
          | .ok (.proxyExit r), some p =>
              (n.actors p).map Actor.kind = some (.proxy r) ∧ mail.route = .own ∧
                mail.body = proxyExitMessage lenient r reason
          | .ok (.proxyExit _), none => false
          | _, _ => true
      | none => true
  | _ => true

theorem ownExits_of_reason {reason : Bytes} {n : Node} {act : Action}
    (h : ownExitsFor reason n act = true) : OwnExits lenientExternals n act := by
  cases act with
  | turn a =>
      intro _ x mail rest r known alive mailbox classified
      have classified : EndpointMessage.classify lenient DomainError.what mail.body =
        .ok (.proxyExit r) := classified
      have head : (n.actors a).bind (fun x => x.mailbox.head?) = some mail := by
        simp [known, mailbox]
      simp only [ownExitsFor, head, classified] at h
      cases sender : mail.sender with
      | none =>
          rw [sender] at h
          cases h
      | some p =>
          rw [sender] at h
          have h := of_decide_eq_true h
          obtain ⟨y, proxy, kind⟩ := Option.map_eq_some_iff.mp h.1
          exact ⟨p, ⟨y, proxy, kind⟩, sender, h.2.1, reason, h.2.2⟩
  | _ => trivial

def noNames : Bytes → Handle := fun _ => none

/-- A proxy for the remote id 7 is made, told that its actor is gone, and made again. -/
def proxyComesBack : List Action :=
  let hello := frame (.send ⟨7⟩ ⟨2⟩ (pushString (text "hello")))
  [.spawn (text "user") true, .arrive hello, .turn 3,
    .arrive (frame (.exit ⟨7⟩ (text "normal"))), .turn 3, .turn 1, .arrive hello]

theorem proxyComesBack_own : Along (Node.step lenientExternals) (OwnExits lenientExternals)
    (Node.start noNames) proxyComesBack :=
  Along.mono (fun _ _ => ownExits_of_reason)
    (show Along _ (fun n act => ownExitsFor (text "normal") n act = true) _ _ by decide +kernel)

theorem proxyComesBack_runs : ∃ n, run (Node.step lenientExternals) (Node.start noNames)
    proxyComesBack = some n ∧ n.isAlive 3 = false ∧ n.isAlive 4 = true ∧
      n.remoteProxies = [(⟨7⟩, 4)] := by
  have facts : (run (Node.step lenientExternals) (Node.start noNames) proxyComesBack).map
      (fun n => (n.isAlive 3, n.isAlive 4, n.remoteProxies)) =
        some (false, true, [(⟨7⟩, 4)]) := by decide +kernel
  obtain ⟨n, ran, eq⟩ := Option.map_eq_some_iff.mp facts
  simp only [Prod.mk.injEq] at eq
  exact ⟨n, ran, eq⟩

theorem proxies_tabled_again : ∃ n, run (Node.step lenientExternals) (Node.start noNames)
    proxyComesBack = some n ∧ n.isAlive 4 = true ∧ Tabled lenientExternals n := by
  obtain ⟨n, ran, -, alive, -⟩ := proxyComesBack_runs
  exact ⟨n, ran, alive,
    (proxies_tabled lenient_selective (start_initial noNames) proxyComesBack_own ran).1⟩

/-- Between the two proxies the remote id stands in no table. -/
example : (run (Node.step lenientExternals) (Node.start noNames) proxyComesBack.dropLast).map
    (fun n => (n.isAlive 3, n.remoteProxies)) = some (false, []) := by
  decide +kernel

/-- The peer sends a proxy_exit message for the id 7 to the endpoint. -/
def proxyForged : List Action :=
  let hello := frame (.send ⟨7⟩ ⟨2⟩ (pushString (text "hello")))
  let forged := proxyExitMessage lenient ⟨7⟩ (text "normal")
  [.spawn (text "user") true, .arrive hello, .arrive (frame (.send ⟨8⟩ ⟨1⟩ forged)), .turn 4,
    .turn 1, .arrive hello]

theorem proxies_not_tabled : ¬ ∀ acts n, run (Node.step lenientExternals) (Node.start noNames) acts =
    some n → Tabled lenientExternals n := by
  intro tabled
  have facts : (run (Node.step lenientExternals) (Node.start noNames) proxyForged).map
      (fun n => ((n.actors 3).map fun x => (x.kind, x.status),
        (n.actors 5).map fun x => (x.kind, x.status))) =
      some (some (.proxy ⟨7⟩, .alive), some (.proxy ⟨7⟩, .alive)) := by decide +kernel
  obtain ⟨n, ran, eq⟩ := Option.map_eq_some_iff.mp facts
  obtain ⟨first, second⟩ := Prod.mk.injEq .. ▸ eq
  obtain ⟨x, known, kind⟩ := Option.map_eq_some_iff.mp first
  obtain ⟨x', known', kind'⟩ := Option.map_eq_some_iff.mp second
  simp only [Prod.mk.injEq] at kind kind'
  have same : (3 : InstanceId) = 5 := (tabled proxyForged n ran).unique 3 5 ⟨7⟩ x x'
    ⟨known, kind⟩ ⟨known', kind'⟩
  exact absurd same (by decide)

end Examples

end Thespian.Remote
