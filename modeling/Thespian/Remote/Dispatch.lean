import Thespian.Remote.RegularSteps

/-!
A frame of the peer, dispatched by an endpoint whose actors are all alive. The payload
is handed to the proxy recorded for the sender; where there is none yet, one is made,
for which nothing was on the way before.
-/

namespace Thespian.Remote
open Decoding Decoding.Decoder Cbor Zig Transition

/-- What the peer may send to this node. -/
def Expected {ε : Type} (ext : Externals ε) (n : Node) : ProtocolMessage → Prop
  | .send _ toId payload => Plain ext payload ∧ Known n toId.value
  | .sendNamed _ toName payload => Plain ext payload ∧ toName.length < 2 ^ 62
  | .link _ _ => True
  | .exit _ _ | .transportError _ => False

section Dispatch
variable {ε : Type} {ext : Externals ε} {n n' : Node}

/-- A frame that is on no message's way. -/
theorem Regular.dispatched (h : Regular ext n) {msg : ProtocolMessage}
    (other : ∀ fromId toId payload, msg ≠ .send fromId toId payload) :
    Regular ext { n with framesIn := n.framesIn ++ [msg] } := by
  refine h.move (.dispatched n msg) ⟨nofun, fun _ _ _ => nofun, nofun, fun _ _ _ _ => rfl, rfl,
    ?_, ?_, fun _ _ _ _ => rfl⟩
  · intro fromId toId payload member
    exact absurd (List.mem_singleton.mp member).symm (other fromId toId payload)
  · intro q a proxy
    cases msg with
    | send fromId toId payload => exact absurd rfl (other fromId toId payload)
    | sendNamed _ _ _ | link _ _ | exit _ _ | transportError _ => rfl

/-- The proxy is there, and it is the only one for the id. -/
theorem Regular.getOrCreateProxy (doc : Selective ext.cbor) (h : Regular ext n) (r : Rpiid)
    (bound : (getOrCreateProxy n r).1.next < 2 ^ 64) :
    Regular ext (getOrCreateProxy n r).1 ∧
      (Remote.getOrCreateProxy n r).1.kindOf (Remote.getOrCreateProxy n r).2 = some (.proxy r) := by
  rcases getOrCreateProxy_cases n r with ⟨p, found, eq⟩ | ⟨missing, eq⟩
  · rw [eq]
    obtain ⟨front, back, split, -⟩ := List.lookup_eq_some_iff.mp found
    exact ⟨h, Node.kindOf_eq_some.mpr (h.consistent.table r p (by simp [split]))⟩
  · rw [eq] at bound ⊢
    exact ⟨h.spawnProxy doc bound missing,
      Node.kindOf_eq_some.mpr ⟨_, Function.update_self .., rfl⟩⟩

theorem getOrCreateProxy_noExit (h : NoExit n) (r : Rpiid) : NoExit (getOrCreateProxy n r).1 := by
  rcases getOrCreateProxy_cases n r with ⟨p, found, eq⟩ | ⟨missing, eq⟩
  · rw [eq]
    exact h
  · rw [eq]
    refine ⟨?_, h.up⟩
    intro a x known
    rcases spawn_cases known with before | ⟨-, rfl⟩
    · exact h.alive a x before
    · rfl

/-- The payload of a send frame is handed to the proxy of its sender. -/
theorem Regular.hands (doc : Selective ext.cbor) (h : Regular ext n) {q : InstanceId} {fromId : Lpiid}
    {toId : Rpiid} {payload : Bytes} (kind : n.kindOf q = some (.proxy ⟨fromId.value⟩))
    (plain : Plain ext payload) (target : Known n toId.value) :
    Regular ext (({ n with framesIn := n.framesIn ++ [.send fromId toId payload] } : Node).post q
      ⟨some n.endpoint, deliverPidMessage ext.cbor ⟨toId.value⟩ payload, .own⟩) := by
  have classified := @classify_deliverPid ε ext doc ⟨toId.value⟩ payload plain.item
  have apart := h.endpoint_not_proxy kind
  have move := (Move.dispatched n (.send fromId toId payload)).trans
    (.post (show Known { n with framesIn := n.framesIn ++ [.send fromId toId payload] } q from
      ⟨_, kind⟩) ⟨some n.endpoint, deliverPidMessage ext.cbor ⟨toId.value⟩ payload, .own⟩)
  simp only [nothing, List.append_nil, List.nil_append] at move
  refine h.move move ⟨?_, ?_, ?_, ?_, rfl, ?_, ?_, ?_⟩
  · intro c new here
    obtain ⟨-, rfl⟩ := mem_single here
    exact ⟨n.endpoint, rfl, _, h.endpoint_kind⟩
  · intro p r proxy new here
    obtain ⟨-, rfl⟩ := mem_single here
    exact .deliverPid _ payload rfl rfl plain target
  · intro new here
    obtain ⟨same, -⟩ := mem_single here
    exact absurd same.symm apart
  · intro p r a proxy
    rw [single_filterMap, if_neg apart.symm]
    rfl
  · intro fromId' toId' payload' member
    cases List.mem_singleton.mp member
    exact ⟨q, kind⟩
  · intro q' a kind'
    rw [single_filterMap]
    simp only [delivery, classified, List.filterMap_cons, List.filterMap_nil, sentFrom]
    by_cases same : q' = q
    · subst same
      cases kind.symm.trans kind'
      simp
    · have other : fromId ≠ ⟨a⟩ := by
        rintro rfl
        exact same (Option.some.inj ((h.recorded q' _ kind').symm.trans (h.recorded q _ kind)))
      simp [same, other]
  · intro q' r b kind'
    rw [single_filterMap]
    simp [deliveredBy]

theorem getOrCreateProxy_dispatched (n : Node) (frames : List ProtocolMessage) (r : Rpiid) :
    getOrCreateProxy { n with framesIn := frames } r =
      ({ (getOrCreateProxy n r).1 with framesIn := frames }, (getOrCreateProxy n r).2) := by
  rcases getOrCreateProxy_cases n r with ⟨p, found, eq⟩ | ⟨missing, eq⟩
  · rw [eq, getOrCreateProxy]
    dsimp only
    rw [found]
  · rw [eq, getOrCreateProxy]
    dsimp only
    rw [missing]
    rfl

theorem getOrCreateProxy_endpoint (n : Node) (r : Rpiid) :
    (getOrCreateProxy n r).1.endpoint = n.endpoint := by
  rcases getOrCreateProxy_cases n r with ⟨p, found, eq⟩ | ⟨missing, eq⟩
  · rw [eq]
  · rw [eq]
    rfl

theorem getOrCreateProxy_kinds (fresh : n.actors n.nextId = none) (r : Rpiid) (a : InstanceId)
    (k : Kind) (known : n.kindOf a = some k) : (getOrCreateProxy n r).1.kindOf a = some k := by
  rcases getOrCreateProxy_cases n r with ⟨p, found, eq⟩ | ⟨missing, eq⟩
  · rw [eq]
    exact known
  · rw [eq]
    exact spawn_kinds fresh known

theorem NoExit.sendRaw (h : NoExit n) (current target : Handle) (m : Bytes) (route : Route) :
    NoExit (n.sendRaw current target m route).1 := by
  have framed : Framed Moved n (n.sendRaw current target m route).1 :=
    .sendRaw n current target m route trivial
  refine ⟨?_, (sendRaw_crashed current target m route).trans h.up⟩
  intro a x' known
  obtain ⟨x, before, -⟩ := framed.back known
  have status := sendRaw_status (n := n) current target m route (some a)
  rw [Node.status_of_some known, Node.status_of_some before] at status
  exact (Option.some.inj status).trans (h.alive a x before)

/-- A request of a frame is put to the proxy of its sender. -/
theorem Regular.tells (doc : Selective ext.cbor) (h : Regular ext n) (up : NoExit n) (r : Rpiid)
    {m : Bytes} (bound : (Remote.getOrCreateProxy n r).1.next < 2 ^ 64)
    (proxyMail : ∀ n' : Node, n'.endpoint = n.endpoint → ProxyMail ext n' ⟨some n.endpoint, m, .own⟩)
    (silent : delivery ext ⟨some n.endpoint, m, .own⟩ = none) :
    Regular ext ((Remote.getOrCreateProxy n r).1.sendRaw
      (some (Remote.getOrCreateProxy n r).1.endpoint) (some (Remote.getOrCreateProxy n r).2) m
      .own).1 := by
  obtain ⟨regular, kind⟩ := h.getOrCreateProxy doc r bound
  have same := getOrCreateProxy_endpoint n r
  have there : Known (Remote.getOrCreateProxy n r).1 (Remote.getOrCreateProxy n r).2 := ⟨_, kind⟩
  obtain ⟨x, known, alive⟩ := (getOrCreateProxy_noExit up r).of_known there
  rw [Node.sendRaw_of_alive known alive, same]
  refine regular.post_inert there (s := n.endpoint) rfl ⟨_, same ▸ regular.endpoint_kind⟩ ?_ ?_ nofun
  · intro _ _
    exact ⟨proxyMail _ same, silent⟩
  · intro endpoint
    exact absurd endpoint (regular.endpoint_not_proxy kind)

/-- A frame of the peer is dispatched. -/
theorem Regular.dispatchMessage (doc : Selective ext.cbor) (h : Regular ext n) (up : NoExit n)
    {msg : ProtocolMessage} (expected : Expected ext n msg)
    (bound : (Remote.dispatchMessage ext { n with framesIn := n.framesIn ++ [msg] } msg).1.next <
      2 ^ 64) :
    Regular ext
      (Remote.dispatchMessage ext { n with framesIn := n.framesIn ++ [msg] } msg).1 := by
  have next {current target : Handle} {m : Bytes} {route : Route} {n₁ : Node}
      (bound : (n₁.sendRaw current target m route).1.next < 2 ^ 64) : n₁.next < 2 ^ 64 := by
    have framed : Framed Moved n₁ (n₁.sendRaw current target m route).1 :=
      .sendRaw n₁ current target m route trivial
    rw [framed.next] at bound
    exact bound
  have up' : NoExit { n with framesIn := n.framesIn ++ [msg] } := ⟨up.alive, up.up⟩
  cases msg with
  | send fromId toId payload =>
      obtain ⟨plain, target⟩ := expected
      unfold Remote.dispatchMessage at bound ⊢
      dsimp only at bound ⊢
      rw [getOrCreateProxy_dispatched] at bound ⊢
      have small : (Remote.getOrCreateProxy n ⟨fromId.value⟩).1.next < 2 ^ 64 := by
        have small := next bound
        exact small
      obtain ⟨regular, kind⟩ := h.getOrCreateProxy doc ⟨fromId.value⟩ small
      have there : Known (Remote.getOrCreateProxy n ⟨fromId.value⟩).1
          (Remote.getOrCreateProxy n ⟨fromId.value⟩).2 := ⟨_, kind⟩
      obtain ⟨x, known, alive⟩ := (getOrCreateProxy_noExit up ⟨fromId.value⟩).of_known there
      have frames : (Remote.getOrCreateProxy n ⟨fromId.value⟩).1.framesIn = n.framesIn := by
        rcases getOrCreateProxy_cases n ⟨fromId.value⟩ with ⟨p, -, eq⟩ | ⟨-, eq⟩
        · rw [eq]
        · rw [eq]
          rfl
      have before : n.next < 2 ^ 64 := by
        rcases getOrCreateProxy_cases n ⟨fromId.value⟩ with ⟨p, -, eq⟩ | ⟨-, eq⟩
        · rw [eq] at small
          exact small
        · rw [eq] at small
          exact Nat.lt_of_succ_lt small
      have kinds := getOrCreateProxy_kinds (h.consistent.fresh before) ⟨fromId.value⟩
      have handed := regular.hands doc kind plain (target.mono kinds)
      have known' : ({ (Remote.getOrCreateProxy n ⟨fromId.value⟩).1 with
          framesIn := n.framesIn ++ [.send fromId toId payload] } : Node).actors
            (Remote.getOrCreateProxy n ⟨fromId.value⟩).2 = some x := known
      rw [frames] at handed
      rw [Node.sendRaw_of_alive known' alive]
      exact handed
  | sendNamed fromId toName payload =>
      obtain ⟨plain, short⟩ := expected
      have dispatched : Regular ext
          { n with framesIn := n.framesIn ++ [.sendNamed fromId toName payload] } :=
        h.dispatched (by simp)
      simp only [Remote.dispatchMessage] at bound ⊢
      split
      · rename_i somebody
        rw [if_pos somebody] at bound
        refine dispatched.tells doc up' ⟨fromId.value⟩ (next bound) ?_ ?_
        · intro n' same
          exact .deliverNamed toName payload (congrArg some same.symm) rfl short plain
        · rw [delivery, classify_deliverNamed doc short plain.item]
      · rcases ({ n with framesIn := n.framesIn ++ [.sendNamed fromId toName payload] } :
          Node).sendRaw_cases (some n.endpoint) (n.procs toName) payload .byName with
          ⟨b, y, -, found, -, eq⟩ | ⟨-, sender, eq⟩
        · rw [eq]
          exact dispatched.post_plain ⟨_, Node.kindOf_eq_some.mpr ⟨y, found, rfl⟩⟩ rfl
            ⟨_, dispatched.endpoint_kind⟩ plain (by simp)
        · rw [eq]
          exact dispatched
  | link localId remoteId =>
      have dispatched : Regular ext { n with framesIn := n.framesIn ++ [.link localId remoteId] } :=
        h.dispatched (by simp)
      refine dispatched.tells doc up' ⟨localId.value⟩ (next bound) ?_ ?_
      · intro n' same
        exact .setNotify ⟨remoteId.value⟩ (congrArg some same.symm) rfl
      · rw [delivery, classify_setNotify doc]
  | exit _ _ | transportError _ => exact expected.elim

/-- What a frame leaves as it is, and who comes with it. -/
structure Grown (msg : ProtocolMessage) (n n' : Node) : Prop where
  kinds : ∀ a k, n.kindOf a = some k → n'.kindOf a = some k
  proxies : ∀ p r, n'.kindOf p = some (.proxy r) →
    n.kindOf p = some (.proxy r) ∨ msg.source? = some r.value
  accumulator : n'.accumulator = n.accumulator
  outgoing : n'.outgoing = n.outgoing
  framesOut : n'.framesOut = n.framesOut
  framesIn : n'.framesIn = n.framesIn

theorem dispatchMessage_grown (ext : Externals ε) (n : Node) (consistent : Consistent n)
    (msg : ProtocolMessage) (bound : (dispatchMessage ext n msg).1.next < 2 ^ 64) :
    Grown msg n (dispatchMessage ext n msg).1 := by
  obtain ⟨n₁, made, sent⟩ := dispatchMessage_sends ext n msg
  have moved : Framed Moved n₁ (dispatchMessage ext n msg).1 := by
    rcases sent with eq | ⟨target, m, route, eq⟩
    · rw [eq]
      exact .refl n₁
    · rw [eq]
      exact .sendRaw n₁ _ target m route trivial
  have kept (a : InstanceId) : (dispatchMessage ext n msg).1.kindOf a = n₁.kindOf a :=
    moved.later.kindOf a
  rw [moved.next] at bound
  have start : Grown msg n n₁ := by
    rcases made with rfl | ⟨r, source, -, rfl⟩
    · exact ⟨fun _ _ => id, fun _ _ => .inl, rfl, rfl, rfl, rfl⟩
    · have fresh := consistent.fresh (Nat.lt_of_succ_lt bound)
      refine ⟨fun _ _ => spawn_kinds fresh, ?_, rfl, rfl, rfl, rfl⟩
      intro p r' kind
      obtain ⟨x, here, kind⟩ := Node.kindOf_eq_some.mp kind
      rcases spawn_cases here with before | ⟨-, rfl⟩
      · exact .inl (Node.kindOf_eq_some.mpr ⟨x, before, kind⟩)
      · cases kind
        exact .inr source
  refine ⟨?_, ?_, moved.accumulator.trans start.accumulator, moved.outgoing.trans start.outgoing,
    moved.framesOut.trans start.framesOut, moved.framesIn.trans start.framesIn⟩
  · intro a k known
    exact (kept a).trans (start.kinds a k known)
  · intro p r kind
    exact start.proxies p r ((kept p).symm.trans kind)

theorem dispatchMessage_noExit (ext : Externals ε) (h : NoExit n) (msg : ProtocolMessage) :
    NoExit (dispatchMessage ext n msg).1 := by
  obtain ⟨n₁, made, sent⟩ := dispatchMessage_sends ext n msg
  have start : NoExit n₁ := by
    rcases made with rfl | ⟨r, -, missing, rfl⟩
    · exact h
    · have created := getOrCreateProxy_noExit h r
      rw [getOrCreateProxy, missing] at created
      exact created
  rcases sent with eq | ⟨target, m, route, eq⟩
  · rw [eq]
    exact start
  · rw [eq]
    exact start.sendRaw _ target m route

/-- Where the frames of a stream are dispatched one by one and none fails, what is left is
the beginning of the next. -/
theorem feedRounds_frames (doc : Documented ext.cbor)
    {Q : Node → List (Frame UInt8 ProtocolMessage) → Prop}
    (buffered : ∀ {n frames} buf, Q n frames → Q { n with accumulator := buf } frames)
    (dispatched : ∀ {n n' f frames} payload, Q n (f :: frames) → f.1 = frameOf payload →
      payload.length < 2 ^ 32 → dispatchInbound ext n payload = (n', none) → n'.next < 2 ^ 64 →
      Q n' frames ∧ n'.accumulator = n.accumulator)
    (frames : List (Frame UInt8 ProtocolMessage)) (isFramed : ∀ f ∈ frames, IsFramed f.1)
    {later : Bytes} (arrived : n.accumulator ++ later = wire frames) (fuel : Nat)
    (enough : n.accumulator.length < fuel) (start : Q n frames)
    (bound : (feedRounds ext fuel n
      ((matchStringOrFalse ext.cbor n.accumulator).map Prod.fst)).1.next < 2 ^ 64)
    (fine : (feedRounds ext fuel n
      ((matchStringOrFalse ext.cbor n.accumulator).map Prod.fst)).2 = none) :
    ∃ rest, rest <:+ frames ∧
      (feedRounds ext fuel n
        ((matchStringOrFalse ext.cbor n.accumulator).map Prod.fst)).1.accumulator ++ later =
          wire rest ∧
      Incomplete rest (feedRounds ext fuel n
        ((matchStringOrFalse ext.cbor n.accumulator).map Prod.fst)).1.accumulator ∧
      Q (feedRounds ext fuel n
        ((matchStringOrFalse ext.cbor n.accumulator).map Prod.fst)).1 rest := by
  induction frames generalizing n fuel with
  | nil =>
      obtain ⟨fuel, rfl⟩ : ∃ k, fuel = k + 1 := ⟨fuel - 1, by omega⟩
      have empty : n.accumulator = [] := (List.append_eq_nil_iff.mp arrived).1
      rw [empty, matchString_nil doc]
      exact ⟨[], List.suffix_rfl, arrived, by simp [Incomplete], start⟩
  | cons f frames ih =>
      obtain ⟨fuel, rfl⟩ : ∃ k, fuel = k + 1 := ⟨fuel - 1, by omega⟩
      obtain ⟨payload, eq, small⟩ := isFramed f (by simp)
      rcases wire_cases arrived with ⟨none, -⟩ | ⟨g, rest, same, short, first, proper⟩ |
        ⟨g, rest, t, same, whole, arrived'⟩
      · cases none
      · cases same
        rw [eq] at first proper
        rw [matchString_incomplete doc small first proper]
        exact ⟨f :: frames, List.suffix_rfl, arrived, incomplete_of_length short _, start⟩
      · cases same
        rw [eq] at whole
        rw [whole, matchString_frame doc small, Option.map_some, feedRounds] at bound fine ⊢
        rw [whole, List.length_append, frameOf_length] at enough
        generalize outcome : dispatchInbound ext n payload = result at bound fine ⊢
        obtain ⟨n₁, failure⟩ := result
        cases failure with
        | some failure => cases fine
        | none =>
            have rounds := feedRounds_next ext fuel { n₁ with
              accumulator := (accumulatorFeed ext.cbor n₁.accumulator []).1 }
              (accumulatorFeed ext.cbor n₁.accumulator []).2
            obtain ⟨kept, same⟩ := dispatched payload start eq small outcome
              (Nat.lt_of_le_of_lt rounds bound)
            dsimp only at same kept bound fine ⊢
            have next := accumulatorFeed_frame doc small t []
            rw [← whole, ← same, List.append_nil] at next
            rw [next] at bound fine ⊢
            obtain ⟨rest, suffix, left, incomplete, done⟩ := ih (n := { n₁ with accumulator := t })
              (fun g member => isFramed g (by simp [member])) arrived' fuel (by dsimp only; omega)
              (buffered t kept) bound fine
            exact ⟨rest, suffix.trans (List.suffix_cons f frames), left, incomplete, done⟩

/-- A frame of which only the payload is known. -/
theorem dispatchInbound_cases {payload : Bytes} (h : dispatchInbound ext n payload = (n', none)) :
    ∃ msg, ProtocolMessage.decode ext.cbor payload = .ok msg ∧
      dispatchMessage ext { n with framesIn := n.framesIn ++ [msg] } msg = (n', none) := by
  unfold dispatchInbound at h
  split at h
  · rename_i msg decoded
    exact ⟨msg, decoded, h⟩
  · cases h

end Dispatch

end Thespian.Remote
