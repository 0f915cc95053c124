import Thespian.Remote.Inbound

/-!
What a proxy does with a message of a local actor. A message that has none of the
shapes the proxy listens for is passed on to the endpoint as it is, and nothing else
happens. The proxy does not ask who sent a control message, so one of a local actor
takes effect.
-/

namespace Thespian.Remote
open Cbor Zig Transition

section Shapes
variable {ε β : Type} {cbor : Package ε} {errorName : ε → Bytes} {m : Bytes} {other : β}

/-- No branch is taken exactly where no pattern matches. -/
theorem firstMatch_other_iff {chain : List (List (Pat ε) × (List Extracted → β))}
    (apart : ∀ branch ∈ chain, ∀ values, branch.2 values ≠ other) :
    firstMatch cbor errorName m other chain = .ok other ↔
      ∀ branch ∈ chain, cbor.matchFrame m branch.1 = .ok none := by
  induction chain with
  | nil => exact iff_of_true rfl (by simp)
  | cons branch chain ih =>
      rw [List.forall_mem_cons] at apart
      rw [firstMatch, List.forall_mem_cons]
      split
      · rename_i values matched
        refine iff_of_false ?_ ?_
        · exact fun same => apart.1 values (Except.ok.inj same)
        · rintro ⟨none, -⟩
          rw [matched] at none
          cases none
      · rename_i matched
        rw [ih apart.2]
        exact ⟨fun rest => ⟨matched, rest⟩, And.right⟩
      · rename_i e matched
        refine iff_of_false (by simp) ?_
        rintro ⟨none, -⟩
        rw [matched] at none
        cases none

/-- The message has none of the shapes a proxy listens for. -/
def Shapeless (cbor : Package ε) (m : Bytes) : Prop :=
  ∀ branch ∈ ProxyMessage.patterns cbor, cbor.matchFrame m branch.1 = .ok none

theorem classify_other_iff :
    ProxyMessage.classify cbor errorName m = .ok .other ↔ Shapeless cbor m := by
  refine firstMatch_other_iff ?_
  simp only [ProxyMessage.patterns, List.forall_mem_cons]
  simp

end Shapes

section Turns
variable {ε : Type} {ext : Externals ε} {n n' : Node} {p : InstanceId} {r : Rpiid} {mail : Mail}

/-- The mail is not one that passes a message on. -/
def NoSend (mail : Mail) : Prop := mail.route = .own → mail.body.take 2 ≠ [0x84, 0x64]

/-- A proxy passes a message on, or sends nothing that looks like it. -/
theorem proxyReceive_passes (doc : Documented ext.cbor) (n : Node) (self : InstanceId) (r : Rpiid)
    (mail : Mail) :
    (ProxyMessage.classify ext.cbor ext.errorName mail.body = .ok .other ∧
      n.isAlive n.endpoint = true) ∨
    (Framed (Posted NoSend) n (proxyReceive ext n self r mail).1 ∧
      ∀ m, (proxyReceive ext n self r mail).2 = some (.exit m) → m.take 2 ≠ [0x84, 0x64]) := by
  have differs {m start : Bytes} (h : m.take 2 = start) (other : start ≠ [0x84, 0x64]) :
      m.take 2 ≠ [0x84, 0x64] := h ▸ other
  unfold proxyReceive
  dsimp only
  split
  · rename_i f failed
    refine .inr ⟨.refl n, ?_⟩
    rintro m same
    cases same
    exact differs (firstMatch_start doc failed) (by decide)
  · exact .inr ⟨.refl n, fun m same => differs (exit_start doc (Option.some.inj same)) (by decide)⟩
  · split
    · exact .inr ⟨.sendRaw n _ _ _ _ fun _ => differs (localLinkExitMessage_start doc _ _)
        (by decide), nofun⟩
    · exact .inr ⟨.sendRaw n _ _ _ _ fun _ => differs (proxyExitMessage_start doc _ _) (by decide),
        fun m same => differs (exit_start doc (Option.some.inj same)) (by decide)⟩
  · exact .inr ⟨.sendRaw n _ _ _ _ fun _ => differs (linkWireMessage_start doc _ _) (by decide),
      fun m same => differs (sendRaw_start same) (by decide)⟩
  · split
    · exact .inr ⟨.link n _ _ fun _ => differs linkMsg_start (by decide), nofun⟩
    · exact .inr ⟨.refl n, nofun⟩
  · exact .inr ⟨.sendRaw n _ _ _ _ nofun, fun m same => differs (sendRaw_start same) (by decide)⟩
  · split
    · exact .inr ⟨.sendRaw n _ _ _ _ nofun, fun m same => differs (sendRaw_start same) (by decide)⟩
    · exact .inr ⟨.refl n, nofun⟩
  · rename_i classified
    cases alive : n.isAlive n.endpoint with
    | true => exact .inl ⟨classified, rfl⟩
    | false =>
        have dead : n.status (some n.endpoint) ≠ some .alive := of_decide_eq_false alive
        obtain ⟨sender, eq⟩ := Node.sendRaw_of_not_alive dead (some self)
          (sendMessage ext.cbor ⟨handleId mail.sender⟩ r mail.body) .own
        rw [eq]
        exact .inr ⟨.refl n, fun m same => differs (deadsend_start same) (by decide)⟩

/-- The whole turn of a proxy that is alive. -/
theorem proxy_turn (doc : Documented ext.cbor) {x : Actor} (kind : x.kind = .proxy r)
    (alive : x.status = .alive) :
    (ProxyMessage.classify ext.cbor ext.errorName mail.body = .ok .other ∧
      n.isAlive n.endpoint = true) ∨
    Framed (Posted NoSend) n (n.runMail ext p x mail) := by
  obtain ⟨n₀, start, run⟩ := runMail_proxy ext n p mail kind
  rw [if_neg (by simp [alive])] at run
  have first : Framed (Posted NoSend) n n₀ := by
    rcases start with ⟨-, rfl⟩ | ⟨-, rfl⟩
    · exact .refl _
    · exact .links n p mail.sender
  have same : n₀.isAlive n₀.endpoint = n.isAlive n.endpoint := by
    rcases start with ⟨-, rfl⟩ | ⟨-, rfl⟩
    · rfl
    · by_cases here : n.endpoint = p
      · subst here
        cases known : n.actors n.endpoint with
        | none => simp [Node.isAlive, Node.status, known]
        | some y => simp [Node.isAlive, Node.status, known]
      · exact Node.isAlive_congr (Node.actors_update_of_ne here)
  rcases proxyReceive_passes doc n₀ p r mail with ⟨classified, up⟩ | ⟨framed, quiet⟩
  · exact .inl ⟨classified, same ▸ up⟩
  · right
    rw [run]
    exact first.trans (framed.settle p fun m failed _ => quiet m failed)

theorem classify_linkMsg (doc : Selective ext.cbor) :
    ProxyMessage.classify ext.cbor ext.errorName Runtime.linkMsg = .ok .link := by
  have eq : Runtime.linkMsg = arrayOf ProxyMessage.link.elements := by decide
  rw [eq]
  refine ProxyMessage.classify_elements doc nofun (items_of_forall (by decide) ?_)
  simp only [ProxyMessage.elements, List.forall_mem_cons]
  exact ⟨item_string (by decide), by simp⟩

/-- A turn of a proxy passes the message on and does nothing else exactly where the
message has none of its shapes and the endpoint is alive. -/
theorem proxy_turn_iff (doc : Selective ext.cbor) (consistent : Consistent n') {a : InstanceId}
    {x : Actor} {m : Bytes} {route : Route} {rest : List Mail} (known : n'.actors p = some x)
    (kind : x.kind = .proxy r) (alive : x.status = .alive)
    (mailbox : x.mailbox = ⟨some a, m, route⟩ :: rest) :
    n'.turn ext p = some ((n'.take p).post n'.endpoint
      ⟨some p, sendMessage ext.cbor ⟨a⟩ r m, .own⟩) ↔
    Shapeless ext.cbor m ∧ n'.isAlive n'.endpoint = true := by
  obtain ⟨e, endpoint, endpointKind⟩ := consistent.endpoint
  have apart : n'.endpoint ≠ p := by
    rintro same
    rw [same, known] at endpoint
    cases endpoint
    rw [kind] at endpointKind
    cases endpointKind
  have taken : (n'.take p).actors n'.endpoint = some e :=
    (Node.actors_update_of_ne apart).trans endpoint
  have up : (n'.take p).isAlive (n'.take p).endpoint = n'.isAlive n'.endpoint :=
    Node.isAlive_congr (taken.trans endpoint.symm)
  have turn : n'.turn ext p = some ((n'.take p).runMail ext p x ⟨some a, m, route⟩) := by
    unfold Node.turn
    rw [known]
    simp only [mailbox]
  rw [turn, Option.some.injEq, ← @classify_other_iff ε ext.cbor ext.errorName]
  constructor
  · intro passed
    rcases @proxy_turn ε ext (n'.take p) p r ⟨some a, m, route⟩ doc.toDocumented x kind alive with
      ⟨classified, running⟩ | framed
    · exact ⟨classified, up ▸ running⟩
    · rw [passed] at framed
      obtain ⟨e', after, posted⟩ := framed.actor _ e taken
      obtain ⟨new, appended, quiet⟩ := posted.posted
      rw [Node.post, Node.actors_update_of_some taken] at after
      cases after
      have sent : ⟨some p, sendMessage ext.cbor ⟨a⟩ r m, .own⟩ ∈ new := by
        rw [List.append_cancel_left appended.symm]
        exact List.mem_singleton_self _
      exact absurd (sendMessage_start doc.toDocumented ⟨a⟩ r m) (quiet _ sent rfl)
  · rintro ⟨classified, running⟩
    obtain ⟨n₀, start, run⟩ := runMail_proxy ext (n'.take p) p ⟨some a, m, route⟩ kind
    have plain : n₀ = n'.take p := by
      rcases start with ⟨-, eq⟩ | ⟨link, -⟩
      · exact eq
      · have same : m = Runtime.linkMsg := of_decide_eq_true link
        rw [same, classify_linkMsg doc] at classified
        cases classified
    subst plain
    obtain ⟨e', after, status⟩ := Node.isAlive_iff.mp (up.trans running)
    rw [run, if_neg (by simp [alive]), proxyReceive]
    dsimp only
    rw [classified]
    dsimp only
    rw [Node.sendRaw_of_alive after status]
    rfl

/-- In every reachable state this is so of every message of a local actor. -/
theorem proxy_transparent_iff (doc : Selective ext.cbor) (initial : Initial n)
    {acts : List Action} (h : run (Node.step ext) n acts = some n') {a : InstanceId} {x : Actor}
    {m : Bytes} {route : Route} {rest : List Mail} (known : n'.actors p = some x)
    (kind : x.kind = .proxy r) (alive : x.status = .alive)
    (mailbox : x.mailbox = ⟨some a, m, route⟩ :: rest) :
    n'.turn ext p = some ((n'.take p).post n'.endpoint
      ⟨some p, sendMessage ext.cbor ⟨a⟩ r m, .own⟩) ↔
    Shapeless ext.cbor m ∧ n'.isAlive n'.endpoint = true :=
  proxy_turn_iff doc (consistent_run initial h) known kind alive mailbox

end Turns

section Examples

/-- A user actor sends the proxy of remote actor 7 a message. -/
def userSends (m : Bytes) : List Action :=
  [.spawn (text "user") true, .arrive (frame (.link ⟨7⟩ ⟨2⟩)), .turn 3, .send 2 (some 3) m]

theorem userSends_runs (m : Bytes) (h : (run (Node.step lenientExternals) (Node.start noNames)
    (userSends m)).map (fun n => ((n.actors 3).map fun x => (x.kind, x.status, x.mailbox),
      n.isAlive n.endpoint)) =
        some (some (.proxy ⟨7⟩, .alive, [⟨some 2, m, .own⟩]), true)) :
    ∃ n x, run (Node.step lenientExternals) (Node.start noNames) (userSends m) = some n ∧
      n.actors 3 = some x ∧ x.kind = .proxy ⟨7⟩ ∧ x.status = .alive ∧
      x.mailbox = [⟨some 2, m, .own⟩] ∧ n.isAlive n.endpoint = true := by
  obtain ⟨n, ran, eq⟩ := Option.map_eq_some_iff.mp h
  simp only [Prod.mk.injEq] at eq
  obtain ⟨x, known, eq'⟩ := Option.map_eq_some_iff.mp eq.1
  simp only [Prod.mk.injEq] at eq'
  exact ⟨n, x, ran, known, eq'.1, eq'.2.1, eq'.2.2, eq.2⟩

theorem hello_shapeless : Shapeless lenient (arrayOf [pushString (text "hello")]) :=
  classify_other_iff.mp
    (show ProxyMessage.classify lenient DomainError.what _ = .ok .other by decide +kernel)

theorem proxy_transparent_hello : ∃ n x,
    run (Node.step lenientExternals) (Node.start noNames)
      (userSends (arrayOf [pushString (text "hello")])) = some n ∧ n.actors 3 = some x ∧
    n.turn lenientExternals 3 = some ((n.take 3).post n.endpoint
      ⟨some 3, sendMessage lenient ⟨2⟩ ⟨7⟩ (arrayOf [pushString (text "hello")]), .own⟩) := by
  obtain ⟨n, x, ran, known, kind, alive, mailbox, up⟩ :=
    userSends_runs (arrayOf [pushString (text "hello")]) (by decide +kernel)
  exact ⟨n, x, ran, known, (proxy_transparent_iff lenient_selective (start_initial noNames) ran
    known kind alive mailbox).mpr ⟨hello_shapeless, up⟩⟩

/-- A local actor ends the proxy by a message that is neither a link nor an exit. -/
theorem proxy_not_transparent : ¬ ∀ acts n p a x r m route rest,
    run (Node.step lenientExternals) (Node.start noNames) acts = some n →
    n.actors p = some x → x.kind = .proxy r → x.status = .alive →
    x.mailbox = ⟨some a, m, route⟩ :: rest → a ≠ n.endpoint → Runtime.isLinkMsg m = false →
    Runtime.isExitMsg m = .ok false →
    n.turn lenientExternals p = some ((n.take p).post n.endpoint
      ⟨some p, sendMessage lenient ⟨a⟩ r m, .own⟩) := by
  intro transparent
  obtain ⟨n, x, ran, known, kind, alive, mailbox, up⟩ :=
    userSends_runs (endpointExitMessage lenient) (by decide +kernel)
  have other : (2 : InstanceId) ≠ n.endpoint := by
    have same : (run (Node.step lenientExternals) (Node.start noNames)
      (userSends (endpointExitMessage lenient))).map Node.endpoint = some 1 := by decide +kernel
    rw [ran] at same
    rw [Option.some.inj same]
    decide
  have passed := transparent _ n 3 2 x ⟨7⟩ (endpointExitMessage lenient) .own [] ran known kind alive
    mailbox other (by decide +kernel) (by decide +kernel)
  have shapeless := ((proxy_turn_iff lenient_selective (consistent_run (start_initial noNames) ran) known
    kind alive mailbox).mp passed).1
  have classified := (@classify_other_iff _ lenient DomainError.what _).mpr shapeless
  have ended := classify_endpointExit (show Selective lenientExternals.cbor from lenient_selective)
  cases classified.symm.trans ended

end Examples

end Thespian.Remote
