import Thespian.Remote.ProxyTable

/-!
How the endpoint learns that a proxy is gone. A proxy that is told the exit of its
remote actor announces its own to the endpoint and exits in the same turn, so an
announcement in the endpoint's mailbox is the only one of its sender, who is no
longer alive and still recorded. The endpoint takes the message from anybody else
as well; as long as it is not sent by anybody else, the table is right.
-/

namespace Thespian.Remote
open Cbor Zig Transition

/-- The mail is the one that a proxy for the remote id sends as it exits. -/
def Announces {ε : Type} (ext : Externals ε) (n : Node) (p : InstanceId) (r : Rpiid)
    (mail : Mail) : Prop :=
  (∃ x, n.actors p = some x ∧ x.kind = .proxy r) ∧ mail.sender = some p ∧ mail.route = .own ∧
    ∃ reason, mail.body = proxyExitMessage ext.cbor r reason

/-- The condition on a step: a proxy_exit message the endpoint handles is one that a
proxy for the id has sent of its own. -/
def OwnExits {ε : Type} (ext : Externals ε) (n : Node) : Action → Prop
  | .turn a => a = n.endpoint → ∀ x mail rest r, n.actors a = some x → x.status = .alive →
      x.mailbox = mail :: rest →
      EndpointMessage.classify ext.cbor ext.errorName mail.body = .ok (.proxyExit r) →
      ∃ p, Announces ext n p r mail
  | _ => True

/-- What the endpoint has yet to learn. -/
structure Announced {ε : Type} (ext : Externals ε) (n : Node) : Prop where
  known : ∀ e mail s, n.actors n.endpoint = some e → mail ∈ e.mailbox → mail.sender = some s →
    ∃ x, n.actors s = some x
  dead : n.deinited = false → ∀ e mail p r, n.actors n.endpoint = some e → mail ∈ e.mailbox →
    Announces ext n p r mail → n.isAlive p = false ∧ n.remoteProxies.lookup r = some p
  once : ∀ e, n.actors n.endpoint = some e → e.mailbox.Pairwise fun mail mail' =>
    ∀ p r, Announces ext n p r mail → ¬ Announces ext n p r mail'

section Messages
variable {ε : Type} {ext : Externals ε} {n : Node}

/-- The bytes are not those of a proxy_exit message. -/
def Quiet (m : Bytes) : Prop := m.take 2 ≠ [0x83, 0x6a]

theorem quiet_of_start {m start : Bytes} (h : m.take 2 = start) (differs : start ≠ [0x83, 0x6a]) :
    Quiet m :=
  fun loud => differs (h.symm.trans loud)

/-- A proxy announces its exit, or says nothing of the kind. -/
theorem proxyReceive_announces (doc : Documented ext.cbor) (n : Node) (self : InstanceId)
    (r : Rpiid) (mail : Mail) :
    (∃ reason, proxyReceive ext n self r mail =
      ((n.sendRaw (some self) (some n.endpoint) (proxyExitMessage ext.cbor r reason) .own).1,
        some (Zig.exit ext.cbor reason))) ∨
    (Framed (Posted fun mail => mail.sender = some self ∧ (mail.route = .own → Quiet mail.body)) n
        (proxyReceive ext n self r mail).1 ∧
      ∀ m, (proxyReceive ext n self r mail).2 = some (.exit m) → Quiet m) := by
  unfold proxyReceive
  dsimp only
  split
  · rename_i f failed
    refine .inr ⟨.refl n, ?_⟩
    rintro m same
    cases same
    exact quiet_of_start (firstMatch_start doc failed) (by decide)
  · exact .inr ⟨.refl n, fun m same =>
      quiet_of_start (exit_start doc (Option.some.inj same)) (by decide)⟩
  · split
    · exact .inr ⟨.sendRaw n _ _ _ _ ⟨rfl, fun _ =>
        quiet_of_start (localLinkExitMessage_start doc _ _) (by decide)⟩, nofun⟩
    · exact .inl ⟨_, rfl⟩
  · exact .inr ⟨.sendRaw n _ _ _ _ ⟨rfl, fun _ =>
      quiet_of_start (linkWireMessage_start doc _ _) (by decide)⟩,
      fun m same =>
      quiet_of_start (sendRaw_start same) (by decide)⟩
  · split
    · exact .inr ⟨.link n _ _ ⟨rfl, fun _ => quiet_of_start linkMsg_start (by decide)⟩, nofun⟩
    · exact .inr ⟨.refl n, nofun⟩
  · exact .inr ⟨.sendRaw n _ _ _ _ ⟨rfl, nofun⟩, fun m same =>
      quiet_of_start (sendRaw_start same) (by decide)⟩
  · split
    · exact .inr ⟨.sendRaw n _ _ _ _ ⟨rfl, nofun⟩, fun m same =>
      quiet_of_start (sendRaw_start same) (by decide)⟩
    · exact .inr ⟨.refl n, nofun⟩
  · exact .inr ⟨.sendRaw n _ _ _ _ ⟨rfl, fun _ =>
      quiet_of_start (sendMessage_start doc _ _ _) (by decide)⟩,
      fun m same =>
      quiet_of_start (sendRaw_start same) (by decide)⟩

end Messages

section Announcements
variable {ε : Type} {ext : Externals ε} {n n' : Node} {p : InstanceId} {r : Rpiid} {mail : Mail}

theorem Announces.back (framed : Framed Later n n') (h : Announces ext n' p r mail) :
    Announces ext n p r mail := by
  obtain ⟨⟨x', known', kind⟩, sent⟩ := h
  obtain ⟨x, known, later⟩ := framed.back known'
  exact ⟨⟨x, known, later.kind.symm.trans kind⟩, sent⟩

theorem Announces.loud (doc : Documented ext.cbor) (h : Announces ext n p r mail) :
    ¬ Quiet mail.body := by
  obtain ⟨-, -, -, reason, body⟩ := h
  rw [body]
  exact fun quiet => quiet (proxyExitMessage_start doc r reason)

/-- What is added to the endpoint's mailbox. -/
theorem Announced.append (h : Announced ext n) (framed : Framed Later n n') {e : Actor}
    {new : List Mail} (endpoint : n.actors n.endpoint = some e)
    (mailbox : ∀ e', n'.actors n.endpoint = some e' → e'.mailbox = e.mailbox ++ new)
    (senders : ∀ mail ∈ new, ∀ s, mail.sender = some s → ∃ x, n.actors s = some x)
    (dead : n.deinited = false → ∀ mail ∈ new, ∀ p r, Announces ext n p r mail →
      n'.isAlive p = false ∧ n.remoteProxies.lookup r = some p)
    (once : (e.mailbox ++ new).Pairwise fun mail mail' =>
      ∀ p r, Announces ext n p r mail → ¬ Announces ext n p r mail') : Announced ext n' where
  known := by
    intro e' mail s endpoint' member sender
    rw [framed.endpoint] at endpoint'
    rw [mailbox e' endpoint'] at member
    have before : ∃ x, n.actors s = some x := by
      rcases List.mem_append.mp member with old | added
      · exact h.known e mail s endpoint old sender
      · exact senders mail added s sender
    obtain ⟨x, known⟩ := before
    obtain ⟨x', known', -⟩ := framed.actor s x known
    exact ⟨x', known'⟩
  dead := by
    intro running e' mail p r endpoint' member announces
    rw [framed.endpoint] at endpoint'
    rw [mailbox e' endpoint'] at member
    rw [framed.deinited] at running
    rw [framed.remoteProxies]
    rcases List.mem_append.mp member with old | added
    · obtain ⟨gone, recorded⟩ := h.dead running e mail p r endpoint old (announces.back framed)
      exact ⟨framed.not_alive gone, recorded⟩
    · exact dead running mail added p r (announces.back framed)
  once := by
    intro e' endpoint'
    rw [framed.endpoint] at endpoint'
    rw [mailbox e' endpoint']
    refine once.imp ?_
    intro mail mail' apart p r announces announces'
    exact apart p r (announces.back framed) (announces'.back framed)

/-- Mails that announce nothing. -/
theorem Announced.posted {Q : Mail → Prop} (h : Announced ext n)
    (endpoint : ∃ e, n.actors n.endpoint = some e) (framed : Framed (Posted Q) n n')
    (senders : ∀ mail s, Q mail → mail.sender = some s → ∃ x, n.actors s = some x)
    (silent : ∀ mail p r, Q mail → ¬ Announces ext n p r mail) : Announced ext n' := by
  obtain ⟨e, known⟩ := endpoint
  obtain ⟨e', known', posted⟩ := framed.actor _ e known
  obtain ⟨new, mailbox, allowed⟩ := posted.posted
  have quiet : ∀ mail ∈ new, ∀ p r, ¬ Announces ext n p r mail :=
    fun mail member p r => silent mail p r (allowed mail member)
  have after : ∀ e'', n'.actors n.endpoint = some e'' → e''.mailbox = e.mailbox ++ new := by
    intro e'' same
    rw [known'] at same
    cases same
    exact mailbox
  refine h.append framed.later known after ?_ ?_ ?_
  · exact fun mail member s => senders mail s (allowed mail member)
  · exact fun _ mail member p r announces => absurd announces (quiet mail member p r)
  · refine List.pairwise_append.mpr ⟨h.once e known, ?_, ?_⟩
    · exact List.pairwise_of_forall_mem_list fun mail member mail' _ p r announces =>
        absurd announces (quiet mail member p r)
    · exact fun mail _ mail' member p r _ => quiet mail' member p r

theorem Announced.of_fields (h : Announced ext n) (actors : n'.actors = n.actors)
    (endpoint : n'.endpoint = n.endpoint)
    (table : ∀ r p, n.remoteProxies.lookup r = some p → n'.remoteProxies.lookup r = some p)
    (deinited : n'.deinited = n.deinited) : Announced ext n' := by
  have same : ∀ p r mail, Announces ext n' p r mail = Announces ext n p r mail := by
    intro p r mail
    rw [Announces, Announces, actors]
  have alive : ∀ p, n'.isAlive p = n.isAlive p := by
    intro p
    rw [Node.isAlive, Node.isAlive, Node.status, Node.status, actors]
  refine ⟨?_, ?_, ?_⟩
  · rw [actors, endpoint]
    exact h.known
  · simp only [same, alive, actors, endpoint, deinited]
    intro running e mail p r known member announces
    obtain ⟨gone, recorded⟩ := h.dead running e mail p r known member announces
    exact ⟨gone, table r p recorded⟩
  · simp only [same, actors, endpoint]
    exact h.once

/-- A mail was taken from a mailbox. -/
theorem Announced.take (h : Announced ext n) (a : InstanceId) : Announced ext (n.take a) := by
  have framed := Framed.take n a
  have shorter : ∀ e', (n.take a).actors n.endpoint = some e' →
      ∃ e, n.actors n.endpoint = some e ∧ e'.mailbox.Sublist e.mailbox := by
    intro e' known'
    obtain ⟨e, known, -⟩ := framed.back known'
    refine ⟨e, known, ?_⟩
    by_cases same : n.endpoint = a
    · subst same
      rw [Node.take, Node.actors_update_of_some known] at known'
      cases known'
      exact List.tail_sublist _
    · rw [Node.take, Node.actors_update_of_ne same, known] at known'
      cases known'
      exact List.Sublist.refl _
  refine ⟨?_, ?_, ?_⟩
  · intro e' mail s known' member sender
    obtain ⟨e, known, sub⟩ := shorter e' known'
    obtain ⟨x, before⟩ := h.known e mail s known (sub.subset member) sender
    obtain ⟨x', after, -⟩ := framed.actor s x before
    exact ⟨x', after⟩
  · intro running e' mail p r known' member announces
    obtain ⟨e, known, sub⟩ := shorter e' known'
    obtain ⟨gone, recorded⟩ := h.dead running e mail p r known (sub.subset member)
      (announces.back framed)
    exact ⟨framed.not_alive gone, recorded⟩
  · intro e' known'
    obtain ⟨e, known, sub⟩ := shorter e' known'
    refine ((h.once e known).sublist sub).imp ?_
    intro mail mail' apart p r announces announces'
    exact apart p r (announces.back framed) (announces'.back framed)

/-- Nobody has heard from a new actor yet. -/
theorem Announced.spawn (h : Announced ext n) (consistent : Consistent n)
    (bound : n.next + 1 < 2 ^ 64) (name : Bytes) (kind : Kind) :
    Announced ext (n.spawn name kind) := by
  have fresh := consistent.fresh (Nat.lt_of_succ_lt bound)
  obtain ⟨e, endpoint, -⟩ := consistent.endpoint
  have same : (n.spawn name kind).actors n.endpoint = some e := spawn_known fresh endpoint
  have back {p : InstanceId} {r : Rpiid} {mail : Mail} (member : mail ∈ e.mailbox)
      (announces : Announces ext (n.spawn name kind) p r mail) : Announces ext n p r mail := by
    obtain ⟨⟨x', after, proxy⟩, sender, sent⟩ := announces
    obtain ⟨x, before⟩ := h.known e mail p endpoint member sender
    rw [spawn_known fresh before] at after
    cases after
    exact ⟨⟨_, before, proxy⟩, sender, sent⟩
  refine ⟨?_, ?_, ?_⟩
  · intro e' mail s known' member sender
    cases same.symm.trans known'
    obtain ⟨x, before⟩ := h.known e mail s endpoint member sender
    exact ⟨x, spawn_known fresh before⟩
  · intro running e' mail p r known' member announces
    cases same.symm.trans known'
    obtain ⟨gone, recorded⟩ := h.dead running e mail p r endpoint member (back member announces)
    refine ⟨?_, recorded⟩
    obtain ⟨x, before⟩ := h.known e mail p endpoint member announces.2.1
    rw [Bool.eq_false_iff] at gone ⊢
    intro alive
    obtain ⟨x', after, status⟩ := Node.isAlive_iff.mp alive
    rw [spawn_known fresh before] at after
    cases after
    exact gone (Node.isAlive_iff.mpr ⟨x, before, status⟩)
  · intro e' known'
    cases same.symm.trans known'
    refine (h.once e endpoint).imp_of_mem ?_
    intro mail mail' member member' apart p r announces announces'
    exact apart p r (back member announces) (back member' announces')

theorem Announced.spawnProxy (h : Announced ext n) (consistent : Consistent n)
    (bound : n.next + 1 < 2 ^ 64) (missing : n.remoteProxies.lookup r = none) :
    Announced ext (n.spawnProxy r) := by
  refine (h.spawn consistent bound (text "proxy") (.proxy r)).of_fields rfl rfl ?_ rfl
  intro r' p (recorded : n.remoteProxies.lookup r' = some p)
  have other : r' ≠ r := by
    rintro rfl
    rw [missing] at recorded
    cases recorded
  change List.lookup r' ((r, n.nextId) :: n.remoteProxies) = some p
  rw [List.lookup_cons, beq_false_of_ne other]
  exact recorded

/-- The announcement that is handled was the only one for the id. -/
theorem Announced.handled {e : Actor} {rest : List Mail} (h : Announced ext n)
    (running : n.deinited = false) (endpoint : n.actors n.endpoint = some e)
    (mailbox : e.mailbox = mail :: rest) (announces : Announces ext n p r mail) :
    Announced ext ((n.take n.endpoint).fetchRemove r) := by
  have taken := h.take n.endpoint
  refine ⟨taken.known, ?_, taken.once⟩
  intro _ e' mail' p' r' known' member announces'
  obtain ⟨gone, recorded⟩ := taken.dead running e' mail' p' r' known' member announces'
  refine ⟨gone, (lookup_filter_ne ?_ _).trans recorded⟩
  rintro rfl
  have first := (h.dead running e mail p r' endpoint (by simp [mailbox]) announces).2
  have same : p = p' := Option.some.inj (first.symm.trans recorded)
  subst same
  have apart := h.once e endpoint
  rw [mailbox, List.pairwise_cons] at apart
  have later : mail' ∈ rest := by
    have after : (n.take n.endpoint).actors n.endpoint = some e' := known'
    rw [Node.take, Node.actors_update_of_some endpoint] at after
    cases after
    simpa [mailbox] using member
  exact apart.1 mail' later p r' announces (announces'.back (.take n n.endpoint))

/-- A proxy announces its exit and exits. -/
theorem Announced.exits (doc : Documented ext.cbor) {a : InstanceId} {x e : Actor}
    {reason m : Bytes} (h : Announced ext n) (stopped : Stopped n)
    (endpoint : n.actors n.endpoint = some e) (known : n.actors a = some x)
    (kind : x.kind = .proxy r) (alive : x.status = .alive)
    (recorded : n.deinited = false → n.remoteProxies.lookup r = some a) (quiet : Quiet m) :
    Announced ext ((n.sendRaw (some a) (some n.endpoint) (proxyExitMessage ext.cbor r reason)
      .own).1.handleExit a m) := by
  have exits (n : Node) : Framed (Posted fun mail => mail.sender = some a ∧ Quiet mail.body) n
      (n.handleExit a m) := .handleExit n a m ⟨rfl, quiet⟩
  have silent (mail : Mail) (p : InstanceId) (r : Rpiid)
      (sent : mail.sender = some a ∧ Quiet mail.body) : ¬ Announces ext n p r mail :=
    fun announces => announces.loud doc sent.2
  rcases n.sendRaw_cases (some a) (some n.endpoint) (proxyExitMessage ext.cbor r reason) .own with
    ⟨b, y, same, known', up, eq⟩ | ⟨-, sender, eq⟩
  · cases same
    cases endpoint.symm.trans known'
    have running : n.deinited = false := by
      rw [Bool.eq_false_iff]
      intro ended
      exact absurd (Node.isAlive_iff.mpr ⟨e, endpoint, up⟩) (Bool.eq_false_iff.mp (stopped ended))
    rw [eq]
    generalize sent : (⟨some a, proxyExitMessage ext.cbor r reason, .own⟩ : Mail) = mail
    have posted : Framed Moved n (n.post n.endpoint mail) := .post n n.endpoint trivial
    obtain ⟨x', after, moved⟩ := posted.actor a x known
    have gone := handleExit_dead after m
    have framed := exits (n.post n.endpoint mail)
    obtain ⟨e', final, later⟩ := framed.actor n.endpoint _ (Node.actors_update_of_some endpoint)
    obtain ⟨new, mailbox, allowed⟩ := later.posted
    have own : ∀ p r', Announces ext n p r' mail → p = a ∧ r' = r := by
      rintro p r' ⟨⟨z, proxy, kind'⟩, sender, -⟩
      rw [← sent] at sender
      cases sender
      cases known.symm.trans proxy
      rw [kind] at kind'
      exact ⟨rfl, (Kind.proxy.inj kind').symm⟩
    have after : ∀ e'', ((n.post n.endpoint mail).handleExit a m).actors n.endpoint = some e'' →
        e''.mailbox = e.mailbox ++ (mail :: new) := by
      intro e'' same
      cases final.symm.trans same
      rw [mailbox, List.append_assoc]
      rfl
    refine h.append (posted.later.comp Later.trans framed.later) endpoint after ?_ ?_ ?_
    · intro mail' member s sender
      have byProxy : mail'.sender = some a := by
        rcases List.mem_cons.mp member with rfl | member
        · rw [← sent]
        · exact (allowed mail' member).1
      rw [byProxy] at sender
      cases sender
      exact ⟨x, known⟩
    · intro _ mail' member p r' announces
      rcases List.mem_cons.mp member with rfl | member
      · obtain ⟨rfl, rfl⟩ := own p r' announces
        exact ⟨gone, recorded running⟩
      · exact absurd announces (silent mail' p r' (allowed mail' member))
    · refine List.pairwise_append.mpr ⟨h.once e endpoint, ?_, ?_⟩
      · refine List.pairwise_cons.mpr ⟨?_, ?_⟩
        · exact fun mail' member p r' _ => silent mail' p r' (allowed mail' member)
        · exact List.pairwise_of_forall_mem_list fun mail' member mail'' _ p r' announces =>
            absurd announces (silent mail' p r' (allowed mail' member))
      · intro old member mail' member' p r' announces announces'
        rcases List.mem_cons.mp member' with rfl | member'
        · obtain ⟨rfl, rfl⟩ := own p r' announces'
          have dead := (h.dead running e old p r' endpoint member announces).1
          exact absurd (Node.isAlive_iff.mpr ⟨x, known, alive⟩) (Bool.eq_false_iff.mp dead)
        · exact silent mail' p r' (allowed mail' member') announces'
  · rw [eq]
    refine h.posted ⟨e, endpoint⟩ (exits n) ?_ fun mail p r => silent mail p r
    intro mail s sent sender
    rw [sent.1] at sender
    cases sender
    exact ⟨x, known⟩

/-- Whoever is not a proxy announces nothing. -/
theorem Announced.sent_by (h : Announced ext n) (endpoint : ∃ e, n.actors n.endpoint = some e)
    {sender : Handle}
    (other : ∀ a, sender = some a → ∃ x, n.actors a = some x ∧ ∀ r, x.kind ≠ .proxy r)
    (framed : Framed (SentBy sender) n n') : Announced ext n' := by
  refine h.posted endpoint framed ?_ ?_
  · rintro mail s rfl sent
    obtain ⟨x, known, -⟩ := other s sent
    exact ⟨x, known⟩
  · rintro mail p r rfl ⟨⟨x, known, kind⟩, sent, -⟩
    obtain ⟨y, known', apart⟩ := other p sent
    cases known.symm.trans known'
    exact apart r kind

theorem Announced.proxyReceive (doc : Documented ext.cbor) {a : InstanceId} {x : Actor}
    (h : Announced ext n) (stopped : Stopped n) (endpoint : ∃ e, n.actors n.endpoint = some e)
    (known : n.actors a = some x) (kind : x.kind = .proxy r) (alive : x.status = .alive)
    (recorded : n.deinited = false → n.remoteProxies.lookup r = some a)
    (running : (Node.settle a (proxyReceive ext n a r mail)).crashed = false) :
    Announced ext (Node.settle a (Remote.proxyReceive ext n a r mail)) := by
  rcases proxyReceive_announces doc n a r mail with ⟨reason, eq⟩ | ⟨framed, quiet⟩
  · rw [eq] at running ⊢
    cases failed : Zig.exit ext.cbor reason with
    | exit m =>
        obtain ⟨e, endpoint⟩ := endpoint
        exact h.exits doc stopped endpoint known kind alive recorded (quiet_of_start (exit_start doc failed) (by decide))
    | reachedUnreachable | outOfBounds | exception _ =>
        rw [failed] at running
        cases running
  · have settled := framed.settle a fun m same => ⟨rfl, fun _ => quiet m same⟩
    refine h.posted endpoint settled ?_ ?_
    · rintro mail s ⟨sent, -⟩ sender
      rw [sent] at sender
      cases sender
      exact ⟨x, known⟩
    · rintro mail p r ⟨-, quiet⟩ announces
      exact announces.loud doc (quiet announces.2.2.1)

/-- A turn of a proxy. -/
theorem Announced.proxy_turn (doc : Documented ext.cbor) {a : InstanceId} {x y : Actor}
    (h : Announced ext n) (stopped : Stopped n) (endpoint : ∃ e, n.actors n.endpoint = some e)
    (known : n.actors a = some y) (same : y.kind = x.kind ∧ y.status = x.status)
    (kind : x.kind = .proxy r)
    (recorded : n.deinited = false → x.status = .alive → n.remoteProxies.lookup r = some a)
    (running : (n.runMail ext a x mail).crashed = false) :
    Announced ext (n.runMail ext a x mail) := by
  obtain ⟨n₀, start, run⟩ := runMail_proxy ext n a mail kind
  rw [run] at running ⊢
  rcases start with ⟨-, rfl⟩ | ⟨-, rfl⟩
  · split
    · exact h
    · rename_i alive
      have alive : x.status = .alive := Decidable.not_not.mp alive
      rw [if_neg (by simp [alive])] at running
      exact h.proxyReceive doc stopped endpoint known (same.1.trans kind) (same.2.trans alive)
        (fun up => recorded up alive) running
  · have nobody (b : InstanceId) (none : (none : Handle) = some b) :
        ∃ x, n.actors b = some x ∧ ∀ r, x.kind ≠ .proxy r := nomatch none
    have framed : Framed (SentBy none) n
        (n.update a fun x => { x with links := mail.sender :: x.links }) := .links n a mail.sender
    have linked := h.sent_by endpoint nobody framed
    split
    · exact linked
    · rename_i alive
      have alive : x.status = .alive := Decidable.not_not.mp alive
      rw [if_neg (by simp [alive])] at running
      obtain ⟨e, before⟩ := endpoint
      obtain ⟨e', after, -⟩ := framed.actor _ e before
      exact linked.proxyReceive doc (stopped.later framed.later) ⟨e', after⟩
        (Node.actors_update_of_some known) (same.1.trans kind) (same.2.trans alive)
        (fun up => recorded up alive) running

end Announcements

end Thespian.Remote
