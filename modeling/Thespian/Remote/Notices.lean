import Thespian.Remote.Exits
import Thespian.Remote.Reasons

/-!
What becomes of the mails by which links and exits cross a connection, one turn at a time.
A link request that a proxy takes is put to the endpoint; a set_notify message makes it
link to the actor; the exit of a linked actor is passed on to the endpoint; and the exit
of its remote actor ends it.
-/

namespace Thespian.Remote
open Decoding Decoding.Decoder Cbor Zig Transition

/-- An array that begins with the word exit. -/
def ExitWords (m : Bytes) : Prop :=
  ∃ count rest, m = arrayHeader count ++ (pushString (text "exit") ++ rest)

/-- The message of an actor that exits with a reason. -/
def exitText (reason : Bytes) : Bytes := arrayOf (ProxyMessage.exit reason).elements

section Words
variable {ε : Type} {ext : Externals ε} {n : Node}

theorem exit_words (doc : Documented ext.cbor) {reason m : Bytes}
    (h : Zig.exit ext.cbor reason = .exit m) : ExitWords m := by
  unfold Zig.exit at h
  rw [exitMessage_eq doc] at h
  by_cases small : reason.length ≤ maxReason
  · rw [if_pos small] at h
    cases h
    exact ⟨_, _, rfl⟩
  · rw [if_neg small] at h
    cases h

theorem sendRaw_words {current target : Handle} {m m' : Bytes} {route : Route}
    (h : (n.sendRaw current target m route).2 = some (.exit m')) : ExitWords m' := by
  rcases n.sendRaw_cases current target m route with ⟨b, x, rfl, -, -, eq⟩ | ⟨-, sender, eq⟩
  · rw [eq] at h
    cases h
  · rw [eq] at h
    change n.deadsend current m sender = some (.exit m') at h
    unfold Node.deadsend at h
    split at h
    · split at h
      · cases h
      · cases h
      · cases h
        refine ⟨5, pushString (text "DEADSEND") ++ (m ++ (n.refM sender ++ n.refM current)), ?_⟩
        simp only [List.append_assoc]
    · cases h

theorem firstMatch_words {β : Type} (doc : Documented ext.cbor) {m m' : Bytes} {other : β}
    {chain : List (List (Pat ε) × (List Extracted → β))}
    (h : firstMatch ext.cbor ext.errorName m other chain = .error (.exit m')) : ExitWords m' := by
  induction chain with
  | nil => cases h
  | cons branch chain ih =>
      rw [firstMatch] at h
      split at h
      · cases h
      · exact ih h
      · exact exit_words doc (Except.error.inj h)

/-- A proxy exits with an exit message. -/
theorem proxyReceive_words (doc : Documented ext.cbor) {self : InstanceId} {r : Rpiid} {mail : Mail}
    {m : Bytes} (h : (proxyReceive ext n self r mail).2 = some (.exit m)) : ExitWords m := by
  unfold proxyReceive at h
  dsimp only at h
  split at h
  · rename_i failed
    cases h
    exact firstMatch_words doc failed
  · exact exit_words doc (Option.some.inj h)
  · split at h
    · cases h
    · exact exit_words doc (Option.some.inj h)
  · exact sendRaw_words h
  · split at h
    · cases h
    · cases h
  · exact sendRaw_words h
  · split at h
    · exact sendRaw_words h
    · cases h
  · exact sendRaw_words h

theorem lastWords_proxy (doc : Documented ext.cbor) {a : InstanceId} {x : Actor} {r : Rpiid}
    (kind : x.kind = .proxy r) {mail : Mail} {m : Bytes} (h : n.lastWords ext a x mail = some m) :
    ExitWords m := by
  unfold Node.lastWords at h
  simp only [kind, Node.observesLinks, Node.traps, Node.receive, Bool.not_true, Bool.and_false,
    Bool.false_eq_true, if_false, if_true] at h
  split at h
  · cases h
  · split at h
    · rename_i failed
      cases h
      exact proxyReceive_words doc failed
    · cases h

/-- So does it in any step. -/
theorem exitOf_proxy (doc : Documented ext.cbor) (consistent : Consistent n) {act : Action}
    {p : InstanceId} {r : Rpiid} (kind : n.kindOf p = some (.proxy r)) {m : Bytes} {n' : Node}
    (next : n.step ext act = some n') (h : n.exitOf ext act = some (p, m)) : ExitWords m := by
  obtain ⟨x, known, proxy⟩ := Node.kindOf_eq_some.mp kind
  obtain ⟨-, performed, -⟩ := step_eq_some next
  cases act with
  | turn a =>
      obtain ⟨y, mail, rest, here, mailbox, -⟩ := turn_eq_some performed
      simp only [Node.exitOf, here, mailbox, Option.map_eq_some_iff, Prod.mk.injEq] at h
      obtain ⟨m', words, rfl, rfl⟩ := h
      cases known.symm.trans here
      exact lastWords_proxy doc proxy words
  | quit a m' =>
      cases h
      simp only [Node.perform, Option.ite_none_right_eq_some] at performed
      obtain ⟨y, trap, here, user, -⟩ := isUser_iff.mp performed.1
      cases known.symm.trans here
      rw [proxy] at user
      cases user
  | stop m' =>
      cases h
      obtain ⟨y, here, endpoint⟩ := consistent.endpoint
      cases known.symm.trans here
      rw [proxy] at endpoint
      cases endpoint
  | spawn _ _ | send _ _ _ | link _ _ | destroy _ | arrive _ | deinit => cases h

end Words

section Turns
variable {ε : Type} {ext : Externals ε} {n n' : Node} {p : InstanceId} {r : Rpiid} {mail : Mail}
  {rest : List Mail}

/-- What a proxy that is alive does with the mail it takes. -/
theorem proxy_turn_eq (kind : n.kindOf p = some (.proxy r)) (alive : n.isAlive p = true)
    (mailbox : n.mailbox p = mail :: rest) (next : n.step ext (.turn p) = some n') :
    ∃ n₀, Passes (some p) none n n₀ ∧
      (Runtime.isLinkMsg mail.body = true → mail.sender ∈ n₀.linksOf p) ∧
      n' = Node.settle p (proxyReceive ext n₀ p r mail) := by
  obtain ⟨-, performed, -⟩ := step_eq_some next
  obtain ⟨x, known, proxy⟩ := Node.kindOf_eq_some.mp kind
  obtain ⟨x', mail', rest', known', mailbox', eq⟩ := turn_eq_some performed
  cases known.symm.trans known'
  rw [mailbox_of_some known] at mailbox
  cases mailbox.symm.trans mailbox'
  have status : x.status = .alive := by
    obtain ⟨y, here, status⟩ := Node.isAlive_iff.mp alive
    cases known.symm.trans here
    exact status
  obtain ⟨n₀, start, run⟩ := runMail_proxy ext (n.take p) p mail proxy
  rw [if_neg (by simp [status])] at run
  refine ⟨n₀, ?_, ?_, eq.trans run⟩
  · rcases start with ⟨-, rfl⟩ | ⟨-, rfl⟩
    · exact .take n p
    · exact (Passes.take n p).trans (.addLink _ p mail.sender)
  · intro link
    rcases start with ⟨plain, -⟩ | ⟨-, rfl⟩
    · rw [plain] at link
      cases link
    · rw [linksOf_of_some (Node.actors_update_of_some (take_known known))]
      exact List.mem_cons_self

theorem sendRaw_mem {b : InstanceId} (alive : n.isAlive b = true) (current : Handle) (m : Bytes)
    (route : Route) : ⟨current, m, route⟩ ∈ (n.sendRaw current (some b) m route).1.mailbox b := by
  obtain ⟨x, known, status⟩ := Node.isAlive_iff.mp alive
  rw [Node.sendRaw_of_alive known status]
  exact mem_post known _

theorem sendRaw_fine {b : InstanceId} (alive : n.isAlive b = true) (current : Handle) (m : Bytes)
    (route : Route) : (n.sendRaw current (some b) m route).2 = none := by
  obtain ⟨x, known, status⟩ := Node.isAlive_iff.mp alive
  rw [Node.sendRaw_of_alive known status]

/-- A link request is put to the endpoint. -/
theorem takes_link (doc : Selective ext.cbor) {x : InstanceId} (kind : n.kindOf p = some (.proxy r))
    (alive : n.isAlive p = true) (endpoint : n.isAlive n.endpoint = true)
    (mailbox : n.mailbox p = mail :: rest) (sender : mail.sender = some x)
    (body : mail.body = Runtime.linkMsg) (next : n.step ext (.turn p) = some n') :
    some x ∈ n'.linksOf p ∧ n'.isAlive p = true ∧
      ⟨some p, linkWireMessage ext.cbor ⟨x⟩ r, .own⟩ ∈ n'.mailbox n.endpoint := by
  obtain ⟨n₀, passes, linked, eq⟩ := proxy_turn_eq kind alive mailbox next
  have up := passes.alive _ (by simp) endpoint
  rw [← passes.endpoint] at up
  have received : proxyReceive ext n₀ p r mail =
      n₀.sendRaw (some p) (some n₀.endpoint) (linkWireMessage ext.cbor ⟨x⟩ r) .own := by
    rw [proxyReceive, body, classify_linkMsg doc, sender]
    rfl
  have fine := sendRaw_fine up (some p) (linkWireMessage ext.cbor ⟨x⟩ r) .own
  have sent := sendRaw_mem up (some p) (linkWireMessage ext.cbor ⟨x⟩ r) .own
  have after : n' = (n₀.sendRaw (some p) (some n₀.endpoint) (linkWireMessage ext.cbor ⟨x⟩ r) .own).1 := by
    rw [eq, received]
    generalize n₀.sendRaw (some p) (some n₀.endpoint) (linkWireMessage ext.cbor ⟨x⟩ r) .own =
      outcome at fine
    obtain ⟨n₁, failure⟩ := outcome
    cases fine
    rfl
  have later := Passes.sendRaw n₀ (some p) (some n₀.endpoint) (linkWireMessage ext.cbor ⟨x⟩ r) .own
  rw [after, ← passes.endpoint]
  refine ⟨later.links p _ ?_, later.alive p (by simp) (passes.alive p (by simp) alive), sent⟩
  rw [← sender]
  exact linked (by simp [body, Runtime.isLinkMsg])

/-- A set_notify message makes the proxy link to the actor. -/
theorem takes_setNotify (doc : Selective ext.cbor) {y : InstanceId}
    (kind : n.kindOf p = some (.proxy r)) (alive : n.isAlive p = true) (actor : n.isAlive y = true)
    (mailbox : n.mailbox p = mail :: rest) (body : mail.body = setNotifyMessage ext.cbor ⟨y⟩)
    (next : n.step ext (.turn p) = some n') :
    n'.isAlive p = true ∧ n'.isAlive y = true ∧ ⟨some p, Runtime.linkMsg, .own⟩ ∈ n'.mailbox y := by
  obtain ⟨n₀, passes, -, eq⟩ := proxy_turn_eq kind alive mailbox next
  have up := passes.alive y nofun actor
  obtain ⟨z, known, status⟩ := Node.isAlive_iff.mp up
  have resolved : n₀.fromId y = some y := by
    simp [Node.fromId, Node.status_of_some known, status]
  have received : proxyReceive ext n₀ p r mail = (n₀.link p (some y), none) := by
    rw [proxyReceive, body, classify_setNotify doc]
    dsimp only
    rw [resolved]
  have later := Passes.link n₀ p (some y)
  have sent : ⟨some p, Runtime.linkMsg, .own⟩ ∈ (n₀.link p (some y)).mailbox y := by
    rw [Node.link, Node.sendRaw_of_alive known status]
    have posted := mem_post known ⟨some p, Runtime.linkMsg, .own⟩
    exact (Passes.addLink _ p (some y)).mailbox y _ posted
  rw [eq, received]
  exact ⟨later.alive p nofun (passes.alive p nofun alive), later.alive y nofun up, sent⟩

/-- The exit of a linked actor is passed on to the endpoint. -/
theorem takes_exit (doc : Selective ext.cbor) {y : InstanceId} {reason : Bytes}
    (kind : n.kindOf p = some (.proxy r)) (alive : n.isAlive p = true)
    (endpoint : n.isAlive n.endpoint = true) (mailbox : n.mailbox p = mail :: rest)
    (sender : mail.sender = some y) (other : y ≠ n.endpoint) (body : mail.body = exitText reason)
    (small : reason.length < 2 ^ 62) (next : n.step ext (.turn p) = some n') :
    n'.isAlive p = true ∧
      ⟨some p, localLinkExitMessage ext.cbor ⟨y⟩ reason, .own⟩ ∈ n'.mailbox n.endpoint := by
  obtain ⟨n₀, passes, -, eq⟩ := proxy_turn_eq kind alive mailbox next
  have up := passes.alive _ (by simp) endpoint
  rw [← passes.endpoint] at up
  have classified : ProxyMessage.classify ext.cbor ext.errorName mail.body = .ok (.exit reason) := by
    rw [body, exitText, ← exitReasonMessage_eq doc.toDocumented]
    exact classify_exitReason doc small
  have received : proxyReceive ext n₀ p r mail = ((n₀.sendRaw (some p) (some n₀.endpoint)
      (localLinkExitMessage ext.cbor ⟨y⟩ reason) .own).1, none) := by
    have local' : handleId mail.sender ≠ n₀.endpoint := by
      rw [sender, handleId, passes.endpoint]
      exact other
    rw [proxyReceive, classified]
    dsimp only
    rw [if_pos local', sender, handleId]
  have later := Passes.sendRaw n₀ (some p) (some n₀.endpoint)
    (localLinkExitMessage ext.cbor ⟨y⟩ reason) .own
  rw [eq, received, ← passes.endpoint]
  exact ⟨later.alive p (by simp) (passes.alive p (by simp) alive), sendRaw_mem up _ _ _⟩

/-- The exit of the remote actor ends the proxy. -/
theorem takes_remoteExit (doc : Selective ext.cbor) {reason : Bytes}
    (kind : n.kindOf p = some (.proxy r)) (alive : n.isAlive p = true)
    (mailbox : n.mailbox p = mail :: rest) (sender : mail.sender = some n.endpoint)
    (body : mail.body = exitText reason) (small : reason.length < 2 ^ 62)
    (next : n.step ext (.turn p) = some n') (running : n'.crashed = false) :
    n'.isAlive p = false := by
  obtain ⟨n₀, passes, -, eq⟩ := proxy_turn_eq kind alive mailbox next
  have classified : ProxyMessage.classify ext.cbor ext.errorName mail.body = .ok (.exit reason) := by
    rw [body, exitText, ← exitReasonMessage_eq doc.toDocumented]
    exact classify_exitReason doc small
  have failed : (proxyReceive ext n₀ p r mail).2 = some (Zig.exit ext.cbor reason) := by
    have remote : ¬ handleId mail.sender ≠ n₀.endpoint := by
      rw [sender, handleId, passes.endpoint]
      exact fun different => different rfl
    rw [proxyReceive, classified]
    dsimp only
    rw [if_neg remote]
  have still := (passes.trans (.proxyReceive ext n₀ p r mail)).alive p (by simp) alive
  obtain ⟨z, known, -⟩ := Node.isAlive_iff.mp still
  generalize proxyReceive ext n₀ p r mail = outcome at eq failed known
  obtain ⟨n₁, failure⟩ := outcome
  cases failed
  subst eq
  rcases fail_down known (Zig.exit ext.cbor reason) with down | down
  · exact down
  · exact absurd down (Bool.eq_false_iff.mp running)

/-- Whoever takes a link request records its sender. -/
theorem takes_link_records {a b : InstanceId} (mailbox : n.mailbox a = mail :: rest)
    (sender : mail.sender = some b) (body : mail.body = Runtime.linkMsg)
    (next : n.step ext (.turn a) = some n') (running : n'.crashed = false) :
    some b ∈ n'.linksOf a := by
  obtain ⟨-, performed, -⟩ := step_eq_some next
  obtain ⟨x, mail', rest', known, mailbox', eq⟩ := turn_eq_some performed
  rw [mailbox_of_some known] at mailbox
  cases mailbox.symm.trans mailbox'
  subst eq
  obtain ⟨n₀, -, linked, goesOn⟩ := runMail_goesOn (take_known known) running
  refine goesOn.links ?_
  rw [← sender]
  exact linked (by simp [body, Runtime.isLinkMsg])

end Turns

end Thespian.Remote
