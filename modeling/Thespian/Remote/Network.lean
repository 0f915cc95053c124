import Thespian.Remote.Dispatch

/-!
Two nodes joined by a byte stream in each direction. What an endpoint has written
arrives at the other in order and in chunks of any size. A step is a step of one side, or
the arrival of a chunk; the two sides are alike, so each fact about one direction is
stated once.

What an endpoint has encoded is what the other has dispatched, followed by the frames of
which nothing, or only a beginning, has arrived. An id for which one side has a proxy is
that of an actor on the other.
-/

namespace Thespian.Remote
open Decoding Decoding.Decoder Cbor Zig Transition

structure Network where
  left : Node
  right : Node

/-- What one side does: a step of its own, or some of what it has written arrives. -/
inductive Advance where
  | act (act : Action)
  | chunk (count : Nat)

inductive NetworkAction where
  | left (advance : Advance)
  | right (advance : Advance)

def Action.isArrive : Action → Bool
  | .arrive _ => true
  | _ => false

section Network
variable {ε : Type} (ext : Externals ε)

def advance (L R : Node) : Advance → Option (Node × Node)
  | .act act => if act.isArrive then none else (L.step ext act).map fun n => (n, R)
  | .chunk count =>
      (R.step ext (.arrive (L.outgoing.take count))).map fun n =>
        ({ L with outgoing := L.outgoing.drop count }, n)

def Network.step (w : Network) : NetworkAction → Option Network
  | .left adv => (advance ext w.left w.right adv).map fun (l, r) => ⟨l, r⟩
  | .right adv => (advance ext w.right w.left adv).map fun (r, l) => ⟨l, r⟩

/-- The condition on what users send, on the side that acts. -/
def AdvanceSends (n : Node) : Advance → Prop
  | .act act => UserSends ext n act
  | .chunk _ => True

def NetworkSends (w : Network) : NetworkAction → Prop
  | .left adv => AdvanceSends ext w.left adv
  | .right adv => AdvanceSends ext w.right adv

/-- The frames on the way from the one side to the other. -/
structure InFlight (L R : Node) (frames : List (Frame UInt8 ProtocolMessage)) : Prop where
  encoded : ∀ f ∈ frames, f.2.encode ext.cbor maxFrameSize = .ok f.1
  bytes : R.accumulator ++ L.outgoing = wire frames
  incomplete : Incomplete frames R.accumulator

/-- What the one side has encoded, as the other has dispatched it and as it is on the way. -/
def Stream (L R : Node) : Prop :=
  ∃ rest, InFlight ext L R rest ∧ L.framesOut = R.framesIn ++ rest.map Prod.snd

/-- The one side's proxies stand for actors of the other. -/
def Mirrors (L R : Node) : Prop := ∀ p r, L.kindOf p = some (.proxy r) → Known R r.value

structure Linked (L R : Node) : Prop where
  regular : Regular ext L
  regular' : Regular ext R
  stream : Stream ext L R
  stream' : Stream ext R L
  mirrors : Mirrors L R
  mirrors' : Mirrors R L

/-- What an endpoint writes. -/
def Outbound (n : Node) : ProtocolMessage → Prop
  | .send fromId toId payload =>
      Known n fromId.value ∧ (∃ p, n.kindOf p = some (.proxy toId)) ∧ Plain ext payload
  | .sendNamed fromId _ payload =>
      (fromId ≠ ⟨0⟩ → Known n fromId.value) ∧ Plain ext payload
  | .link fromId _ => Known n fromId.value
  | .exit _ _ | .transportError _ => False

end Network

section Streams
variable {ε : Type} {ext : Externals ε} {n n' L L' R R' : Node} {msg : ProtocolMessage}

theorem Linked.symm (h : Linked ext L R) : Linked ext R L :=
  ⟨h.regular', h.regular, h.stream', h.stream, h.mirrors', h.mirrors⟩

/-- Every frame is made of a mail that the endpoint may be sent. -/
theorem Regular.outbound (doc : Selective ext.cbor) (h : Regular ext n) (member : msg ∈ n.framesOut) :
    Outbound ext n msg := by
  rw [h.sent] at member
  obtain ⟨mail, taken, made⟩ := List.mem_filterMap.mp member
  have came : mail ∈ n.arrived n.endpoint := by
    rw [Node.arrived_eq]
    exact List.mem_append_left _ taken
  unfold framed at made
  split at made
  · cases made
  · rename_i plainBody
    cases h.endpointMail mail came with
    | plain plain =>
        rw [plain.classify_endpoint] at made
        cases made
    | link body => exact absurd (by simp [body, Runtime.isLinkMsg]) plainBody
    | send a r m body plain known proxy =>
        rw [body, classify_send doc _ _ plain.item] at made
        cases made
        exact ⟨known, proxy, plain⟩
    | linkWire a r body known proxy =>
        rw [body, classify_linkWire doc] at made
        cases made
        exact known
    | named fromId toName payload classified plain known =>
        rw [classified] at made
        cases made
        exact ⟨known, plain⟩

theorem Outbound.source (h : Outbound ext n msg) {a : InstanceId} (source : msg.source? = some a) :
    Known n a := by
  cases msg with
  | send fromId toId payload =>
      cases source
      exact h.1
  | sendNamed fromId toName payload =>
      simp only [ProtocolMessage.source?, Option.ite_none_right_eq_some] at source
      obtain ⟨somebody, same⟩ := source
      cases same
      exact h.1 somebody
  | link fromId toId =>
      cases source
      exact h
  | exit _ _ | transportError _ => exact h.elim

theorem Outbound.wellFormed (h : Outbound ext n msg) : ∀ x ∈ msg.payload?, WellFormed x := by
  intro x payload
  cases msg with
  | send fromId toId payload' =>
      cases payload
      exact h.2.2.item.2
  | sendNamed fromId toName payload' =>
      cases payload
      exact h.2.item.2
  | link _ _ | exit _ _ | transportError _ => cases payload

/-- A frame that fits the buffer is expected by the other side. -/
theorem Outbound.expected (doc : Documented ext.cbor) (h : Outbound ext L msg) (mirrors : Mirrors L R)
    {frame : Bytes} (encoded : msg.encode ext.cbor maxFrameSize = .ok frame) :
    Expected ext R msg := by
  cases msg with
  | send fromId toId payload =>
      obtain ⟨-, ⟨p, proxy⟩, plain⟩ := h
      exact ⟨plain, mirrors p toId proxy⟩
  | sendNamed fromId toName payload =>
      refine ⟨h.2, ?_⟩
      obtain ⟨-, fits⟩ := writeFrame_eq_ok encoded
      rw [writeValue_toTuple doc, maxFrameSize, arrayOf, List.length_append] at fits
      have inside : (pushString toName).length ≤
          (ProtocolMessage.sendNamed fromId toName payload).elements.flatten.length :=
        length_le_flatten (by simp [ProtocolMessage.elements, ProtocolMessage.fields])
      have longer : toName.length ≤ (pushString toName).length := by
        rw [pushString, List.length_append]
        exact Nat.le_add_left _ _
      omega
  | link _ _ => trivial
  | exit _ _ | transportError _ => exact h.elim

theorem encode_nonempty {frame : Bytes} (encoded : msg.encode ext.cbor maxFrameSize = .ok frame) :
    0 < frame.length := by
  obtain ⟨eq, -⟩ := writeFrame_eq_ok encoded
  rw [eq, frameOf_length]
  omega

/-- New frames join the stream behind the others. -/
theorem InFlight.emitted {frames new : List (Frame UInt8 ProtocolMessage)}
    (h : InFlight ext L R frames) (emitted : Emitted ext L L' new) :
    InFlight ext L' R (frames ++ new) where
  encoded := by
    intro f member
    rcases List.mem_append.mp member with old | new
    · exact h.encoded f old
    · exact emitted.encoded f new
  bytes := by
    rw [emitted.outgoing, ← List.append_assoc, h.bytes, wire, wire, wire, List.map_append,
      List.flatten_append]
  incomplete := by
    cases frames with
    | cons f frames => exact h.incomplete
    | nil =>
        intro f member
        have empty : R.accumulator = [] := (List.append_eq_nil_iff.mp h.bytes).1
        rw [empty]
        exact encode_nonempty (emitted.encoded f (List.mem_of_mem_head? member))

theorem InFlight.sender {frames : List (Frame UInt8 ProtocolMessage)} (h : InFlight ext R L frames)
    (outgoing : R'.outgoing = R.outgoing) (accumulator : L'.accumulator = L.accumulator) :
    InFlight ext R' L' frames :=
  ⟨h.encoded, outgoing ▸ accumulator ▸ h.bytes, accumulator ▸ h.incomplete⟩

/-- Where everything has arrived, no frame is on the way. -/
theorem InFlight.whole {frames : List (Frame UInt8 ProtocolMessage)} (h : InFlight ext L R frames)
    (outgoing : L.outgoing = []) : frames = [] := by
  have bytes := h.bytes
  rw [outgoing, List.append_nil] at bytes
  exact (h.incomplete.done bytes).1

theorem InFlight.framed {frames : List (Frame UInt8 ProtocolMessage)}
    (h : InFlight ext L R frames) : ∀ f ∈ frames, IsFramed f.1 := by
  intro f member
  obtain ⟨eq, fits⟩ := writeFrame_eq_ok (h.encoded f member)
  rw [maxFrameSize] at fits
  exact ⟨_, eq, by omega⟩

/-- A frame is dispatched as it was encoded, where its payload is well formed. -/
theorem decoded_as_encoded (doc : Documented ext.cbor) {f : Frame UInt8 ProtocolMessage}
    (encoded : f.2.encode ext.cbor maxFrameSize = .ok f.1) {payload : Bytes}
    (eq : f.1 = frameOf payload) (small : payload.length < 2 ^ 32)
    (decoded : ProtocolMessage.decode ext.cbor payload = .ok msg)
    (wellFormed : ∀ x ∈ f.2.payload?, WellFormed x) : msg = f.2 := by
  obtain ⟨payload', eq', small', decoded'⟩ := isFrame_of_encode doc wellFormed encoded
  have same := frameOf_injective doc small small' (eq.symm.trans eq')
  rw [same, decoded'] at decoded
  exact (Except.ok.inj decoded).symm

/-- Some of what is on the way arrives, and the frames it completes are dispatched. -/
theorem InFlight.arrive (doc : Documented ext.cbor) {frames : List (Frame UInt8 ProtocolMessage)}
    {count : Nat} {Q : Node → List (Frame UInt8 ProtocolMessage) → Prop}
    (h : InFlight ext L R frames) (consistent : Consistent R)
    (next : R.step ext (.arrive (L.outgoing.take count)) = some R')
    (up : R'.isAlive R'.endpoint = true) (running : R'.crashed = false) (start : Q R frames)
    (buffered : ∀ {n frames} buf, Q n frames → Q { n with accumulator := buf } frames)
    (dispatched : ∀ {n n' f frames msg}, Q n (f :: frames) → Consistent n →
      f.2.encode ext.cbor maxFrameSize = .ok f.1 →
      ((∀ x ∈ f.2.payload?, WellFormed x) → msg = f.2) →
      dispatchMessage ext { n with framesIn := n.framesIn ++ [msg] } msg = (n', none) →
      n'.next < 2 ^ 64 → Q n' frames) :
    ∃ rest, InFlight ext { L with outgoing := L.outgoing.drop count } R' rest ∧ Q R' rest ∧
      R'.outgoing = R.outgoing := by
  obtain ⟨-, performed, bound⟩ := step_eq_some next
  simp only [Node.perform, Option.ite_none_right_eq_some, Option.some.injEq] at performed
  obtain ⟨-, rfl⟩ := performed
  have waiting := matchString_waiting doc h.framed h.bytes h.incomplete
  have settled : Framed Moved (feedNode ext R (L.outgoing.take count)).1
      (.settle R.endpoint (feedNode ext R (L.outgoing.take count))) :=
    .settle _ (.refl _) fun _ _ => trivial
  rw [settled.next] at bound
  have fed := consistent_fed.feedNode _ consistent bound
  have same := (endpoint_fed R.endpoint).feedNode (L.outgoing.take count) rfl bound
  obtain ⟨e, known, -⟩ := fed.endpoint
  rw [settled.endpoint, same] at up
  rw [same] at known
  obtain ⟨fine, eq⟩ := settle_fine known up running
  rw [eq]
  rw [feedNode, accumulatorFeed_none waiting] at bound fine ⊢
  dsimp only at bound fine ⊢
  have arrived : (R.accumulator ++ L.outgoing.take count) ++ L.outgoing.drop count = wire frames := by
    rw [List.append_assoc, List.take_append_drop]
    exact h.bytes
  let Kept (n : Node) (frames : List (Frame UInt8 ProtocolMessage)) : Prop :=
    Q n frames ∧ Consistent n ∧ n.outgoing = R.outgoing ∧
      ∀ f ∈ frames, f.2.encode ext.cbor maxFrameSize = .ok f.1
  have round {n n' : Node} {f : Frame UInt8 ProtocolMessage}
      {rest : List (Frame UInt8 ProtocolMessage)} (payload : Bytes) (kept : Kept n (f :: rest))
      (eq : f.1 = frameOf payload) (small : payload.length < 2 ^ 32)
      (outcome : dispatchInbound ext n payload = (n', none)) (bound : n'.next < 2 ^ 64) :
      Kept n' rest ∧ n'.accumulator = n.accumulator := by
    obtain ⟨kept, consistent, outgoing, encoded⟩ := kept
    obtain ⟨msg, decoded, dispatch⟩ := dispatchInbound_cases outcome
    have consistent' : Consistent { n with framesIn := n.framesIn ++ [msg] } :=
      consistent.of_fields rfl rfl rfl fun _ => id
    have grown := dispatchMessage_grown ext _ consistent' msg
    have later (small : (dispatchMessage ext { n with framesIn := n.framesIn ++ [msg] }
        msg).1.next < 2 ^ 64) := consistent_fed.dispatchMessage msg consistent' small
    rw [dispatch] at grown later
    have first := encoded f (by simp)
    refine ⟨⟨dispatched kept consistent first ?_ dispatch bound, later bound,
      (grown bound).outgoing.trans outgoing, fun g member => encoded g (by simp [member])⟩,
      (grown bound).accumulator⟩
    exact fun wellFormed => decoded_as_encoded doc first eq small decoded wellFormed
  have begin' : Kept { R with accumulator := R.accumulator ++ L.outgoing.take count } frames :=
    ⟨buffered _ start, consistent.of_fields rfl rfl rfl fun _ => id, rfl, h.encoded⟩
  obtain ⟨left, suffix, arrived', incomplete', kept⟩ := feedRounds_frames doc
    (fun buf kept => ⟨buffered buf kept.1, kept.2.1.of_fields rfl rfl rfl fun _ => id, kept.2.2⟩)
    round frames h.framed arrived _ (Nat.lt_succ_self _) begin' bound fine
  exact ⟨left, ⟨kept.2.2.2, arrived', incomplete'⟩, kept.1, kept.2.2.1⟩

/-- What is kept where actors move on, where a user is made, and where only the rest of
the node changes. -/
structure Lasting (P : Node → Prop) : Prop where
  framed : ∀ {n n'}, P n → Framed Later n n' → P n'
  fields : ∀ {n n'}, P n → n'.actors = n.actors → P n'
  spawned : ∀ {n}, P n → n.actors n.nextId = none → ∀ name trap, P (n.spawn name (.user trap))

/-- It is kept by every step of a side's own. -/
theorem Lasting.own_step {P : Node → Prop} (lasting : Lasting P) (consistent : Consistent n)
    {act : Action} (own : act.isArrive = false) (next : n.step ext act = some n') (h : P n) :
    P n' := by
  obtain ⟨-, performed, bound⟩ := step_eq_some next
  cases perform_effect consistent.endpoint performed with
  | spawned name trap => exact lasting.spawned h (consistent.fresh (Nat.lt_of_succ_lt bound)) name trap
  | moved _ framed => exact lasting.framed h framed.later
  | @turned a x mail rest _ _ _ _ framed =>
      exact lasting.framed (lasting.framed h (.take n a)) framed.later
  | @received a x mail rest _ _ _ _ _ =>
      have effect := endpointReceive_effect ext (n.take a) mail.body
      generalize endpointReceive ext (n.take a) mail.body = outcome at effect
      have same : outcome.1.actors = (n.take a).actors := by
        cases effect with
        | failed _ | sent _ _ _ | removed _ => rfl
      have received := lasting.fields (lasting.framed h (.take n a)) same
      have settled : Framed Moved outcome.1 (.settle a outcome) :=
        .settle a (.refl _) fun _ _ => trivial
      exact lasting.framed received settled.later
  | fed _ => cases own
  | deinited _ _ =>
      obtain ⟨n₁, framed, eq⟩ := deinit_framed ext n
      rw [eq]
      exact lasting.fields (lasting.framed h framed.later) rfl

/-- Where the making of a proxy keeps it too, every step does. -/
theorem Lasting.step {P : Node → Prop} (lasting : Lasting P)
    (made : ∀ {n}, P n → n.actors n.nextId = none → ∀ name r, P (n.spawn name (.proxy r)))
    (consistent : Consistent n) {act : Action} (next : n.step ext act = some n') (h : P n) :
    P n' := by
  have fed : Fed fun n => Consistent n ∧ P n :=
    { sent := by
        rintro n target m route ⟨consistent, h⟩
        have framed : Framed Moved n _ := .sendRaw n (some n.endpoint) target m route trivial
        exact ⟨consistent.moved framed, lasting.framed h framed.later⟩
      spawned := by
        rintro n r ⟨consistent, h⟩ bound -
        have fresh := consistent.fresh (Nat.lt_of_succ_lt bound)
        exact ⟨consistent.spawnProxy bound r, lasting.fields (made h fresh _ r) rfl⟩
      dispatched := fun _ h => ⟨h.1.of_fields rfl rfl rfl fun _ => id, lasting.fields h.2 rfl⟩
      buffered := fun _ h => ⟨h.1.of_fields rfl rfl rfl fun _ => id, lasting.fields h.2 rfl⟩ }
  cases act with
  | arrive bytes =>
      obtain ⟨-, performed, bound⟩ := step_eq_some next
      simp only [Node.perform, Option.ite_none_right_eq_some, Option.some.injEq] at performed
      obtain ⟨-, rfl⟩ := performed
      have kept := fed.arrive
        (fun h framed => ⟨h.1.moved framed.moved, lasting.framed h.2 framed.later⟩) _
        ⟨consistent, h⟩ bound
      exact kept.2
  | spawn _ _ | send _ _ _ | link _ _ | quit _ _ | turn _ | destroy _ | stop _ | deinit =>
      exact lasting.own_step consistent rfl next h

/-- Nobody turns into somebody else. -/
theorem kinds_step (consistent : Consistent n) {act : Action} (next : n.step ext act = some n')
    {a : InstanceId} {k : Kind} (known : n.kindOf a = some k) : n'.kindOf a = some k := by
  have lasting : Lasting fun n => n.kindOf a = some k :=
    { framed := fun known framed => (framed.kindOf a).trans known
      fields := fun known same => by rwa [Node.kindOf, same]
      spawned := fun known fresh _ _ => spawn_kinds fresh known }
  exact lasting.step (fun known fresh _ _ => spawn_kinds fresh known) consistent next known

/-- No step of a side's own makes a proxy. -/
theorem own_step_proxies (consistent : Consistent n) {act : Action} (own : act.isArrive = false)
    (next : n.step ext act = some n') {p : InstanceId} {r : Rpiid}
    (kind : n'.kindOf p = some (.proxy r)) : n.kindOf p = some (.proxy r) := by
  have lasting : Lasting fun m => m.kindOf p = some (.proxy r) → n.kindOf p = some (.proxy r) :=
    { framed := fun h framed kind => h ((framed.kindOf p).symm.trans kind)
      fields := fun h same kind => h (by rwa [Node.kindOf, same] at kind)
      spawned := by
        intro m h _ name trap kind
        obtain ⟨x, here, kind⟩ := Node.kindOf_eq_some.mp kind
        rcases spawn_cases here with before | ⟨-, rfl⟩
        · exact h (Node.kindOf_eq_some.mpr ⟨x, before, kind⟩)
        · cases kind }
  exact lasting.own_step consistent own next id kind

theorem Regular.outgoing (h : Regular ext n) (bytes : Bytes) :
    Regular ext { n with outgoing := bytes } := by
  have move : Move n { n with outgoing := bytes } nothing nothing [] [] :=
    ⟨fun _ => rfl, fun _ => (List.append_nil _).symm, fun _ => (List.append_nil _).symm, rfl, rfl,
      rfl, (List.append_nil _).symm, (List.append_nil _).symm⟩
  exact h.unmoved move

/-- A side takes a step of its own. -/
theorem Linked.act (doc : Selective ext.cbor) {act : Action} (h : Linked ext L R) (before : NoExit L)
    (sends : UserSends ext L act) (own : act.isArrive = false) (next : L.step ext act = some L')
    (after : NoExit L') : Linked ext L' R := by
  have local' : ∀ bytes, act ≠ .arrive bytes := by
    rintro bytes rfl
    cases own
  obtain ⟨regular, frames, emitted⟩ := h.regular.local_step doc before sends local' next after
  obtain ⟨rest, inFlight, out⟩ := h.stream
  obtain ⟨rest', inFlight', out'⟩ := h.stream'
  refine ⟨regular, h.regular', ⟨_, inFlight.emitted emitted, ?_⟩,
    ⟨rest', inFlight'.sender rfl emitted.accumulator, emitted.framesIn ▸ out'⟩, ?_, ?_⟩
  · rw [emitted.framesOut, out, List.map_append, List.append_assoc]
  · intro p r kind
    exact h.mirrors p r (own_step_proxies h.regular.consistent own next kind)
  · intro p r kind
    exact (h.mirrors' p r kind).mono fun _ _ => kinds_step h.regular.consistent next

/-- The other side, while the frames of a chunk are dispatched. -/
structure Receiving (ext : Externals ε) (L R₀ R : Node) (rest : List (Frame UInt8 ProtocolMessage)) :
    Prop where
  regular : Regular ext R
  noExit : NoExit R
  mirrors : Mirrors L R
  mirrors' : Mirrors R L
  out : L.framesOut = R.framesIn ++ rest.map Prod.snd
  framesOut : R.framesOut = R₀.framesOut

theorem Receiving.buffered {R₀ : Node} {rest : List (Frame UInt8 ProtocolMessage)} (buf : Bytes)
    (h : Receiving ext L R₀ R rest) : Receiving ext L R₀ { R with accumulator := buf } rest := by
  have move : Move R { R with accumulator := buf } nothing nothing [] [] :=
    ⟨fun _ => rfl, fun _ => (List.append_nil _).symm, fun _ => (List.append_nil _).symm, rfl, rfl,
      rfl, (List.append_nil _).symm, (List.append_nil _).symm⟩
  exact ⟨h.regular.unmoved move, ⟨h.noExit.alive, h.noExit.up⟩, h.mirrors, h.mirrors', h.out,
    h.framesOut⟩

theorem Receiving.dispatched (doc : Selective ext.cbor) {R₀ : Node}
    {f : Frame UInt8 ProtocolMessage} {rest : List (Frame UInt8 ProtocolMessage)}
    (h : Receiving ext L R₀ R (f :: rest)) (encoded : f.2.encode ext.cbor maxFrameSize = .ok f.1)
    (outbound : Outbound ext L f.2)
    (bound : (dispatchMessage ext { R with framesIn := R.framesIn ++ [f.2] } f.2).1.next < 2 ^ 64) :
    Receiving ext L R₀ (dispatchMessage ext { R with framesIn := R.framesIn ++ [f.2] } f.2).1 rest := by
  have expected := outbound.expected doc.toDocumented h.mirrors encoded
  have regular := h.regular.dispatchMessage doc h.noExit expected bound
  have consistent : Consistent { R with framesIn := R.framesIn ++ [f.2] } :=
    h.regular.consistent.of_fields rfl rfl rfl fun _ => id
  have grown := dispatchMessage_grown ext _ consistent f.2 bound
  have noExit : NoExit { R with framesIn := R.framesIn ++ [f.2] } := ⟨h.noExit.alive, h.noExit.up⟩
  refine ⟨regular, dispatchMessage_noExit ext noExit f.2, ?_, ?_, ?_, ?_⟩
  · intro p r kind
    exact (h.mirrors p r kind).mono grown.kinds
  · intro p r kind
    rcases grown.proxies p r kind with old | new
    · exact h.mirrors' p r old
    · exact outbound.source new
  · rw [grown.framesIn, h.out]
    simp
  · exact grown.framesOut.trans h.framesOut

/-- Some of what a side has written arrives. -/
theorem Linked.chunk (doc : Selective ext.cbor) {count : Nat} (h : Linked ext L R) (before : NoExit R)
    (next : R.step ext (.arrive (L.outgoing.take count)) = some R') (after : NoExit R') :
    Linked ext { L with outgoing := L.outgoing.drop count } R' := by
  obtain ⟨rest, inFlight, out⟩ := h.stream
  obtain ⟨rest', inFlight', out'⟩ := h.stream'
  obtain ⟨e, known, -⟩ := (consistent_step h.regular'.consistent next).endpoint
  have start : Receiving ext L R R rest :=
    ⟨h.regular', before, h.mirrors, h.mirrors', out, rfl⟩
  have round {n n' : Node} {f : Frame UInt8 ProtocolMessage}
      {frames : List (Frame UInt8 ProtocolMessage)} {msg : ProtocolMessage}
      (kept : Receiving ext L R n (f :: frames)) (_ : Consistent n)
      (encoded : f.2.encode ext.cbor maxFrameSize = .ok f.1)
      (decoded : (∀ x ∈ f.2.payload?, WellFormed x) → msg = f.2)
      (dispatch : dispatchMessage ext { n with framesIn := n.framesIn ++ [msg] } msg = (n', none))
      (bound : n'.next < 2 ^ 64) : Receiving ext L R n' frames := by
    have outbound : Outbound ext L f.2 := by
      refine h.regular.outbound doc ?_
      rw [kept.out]
      simp
    cases decoded outbound.wellFormed
    have dispatched := kept.dispatched doc encoded outbound
    rw [dispatch] at dispatched
    exact dispatched bound
  obtain ⟨left, inFlight, received, outgoing⟩ := inFlight.arrive doc.toDocumented
    h.regular'.consistent next (after.isAlive known) after.up start
    (fun buf kept => kept.buffered buf) round
  refine ⟨h.regular.outgoing _, received.regular, ⟨left, inFlight, received.out⟩,
    ⟨rest', inFlight'.sender outgoing rfl, ?_⟩, received.mirrors, received.mirrors'⟩
  rw [received.framesOut]
  exact out'

end Streams

section Exits
variable {ε : Type} {ext : Externals ε} {n n' : Node} {a : InstanceId} {w w' : Network}

/-- Who has exited stays so. -/
def Gone (a : InstanceId) (n : Node) : Prop := ∃ x, n.actors a = some x ∧ x.status ≠ .alive

theorem Gone.not_alive (h : Gone a n) : n.isAlive a ≠ true := by
  obtain ⟨x, known, dead⟩ := h
  intro alive
  obtain ⟨x', known', status⟩ := Node.isAlive_iff.mp alive
  cases known.symm.trans known'
  exact dead status

theorem Gone.of_not_alive {x : Actor} (known : n.actors a = some x) (dead : n.isAlive a ≠ true) :
    Gone a n :=
  ⟨x, known, fun status => dead (Node.isAlive_iff.mpr ⟨x, known, status⟩)⟩

theorem Gone.framed (h : Gone a n) (framed : Framed Later n n') : Gone a n' := by
  obtain ⟨x, known, dead⟩ := h
  obtain ⟨x', known', later⟩ := framed.actor a x known
  exact ⟨x', known', later.dead dead⟩

theorem Gone.spawn (h : Gone a n) (fresh : n.actors n.nextId = none) (name : Bytes) (kind : Kind) :
    Gone a (n.spawn name kind) := by
  obtain ⟨x, known, dead⟩ := h
  exact ⟨x, spawn_known fresh known, dead⟩

theorem gone_step (consistent : Consistent n) (gone : Gone a n) {act : Action}
    (next : n.step ext act = some n') : Gone a n' := by
  have lasting : Lasting (Gone a) :=
    { framed := .framed
      fields := fun gone same => by rwa [Gone, same]
      spawned := fun gone fresh name _ => gone.spawn fresh name _ }
  exact lasting.step (fun gone fresh name _ => gone.spawn fresh name _) consistent next gone

theorem NoExit.before (consistent : Consistent n) {act : Action} (next : n.step ext act = some n')
    (after : NoExit n') : NoExit n := by
  refine ⟨?_, (step_eq_some next).1⟩
  intro a x known
  by_contra dead
  obtain ⟨x', known', dead'⟩ := gone_step consistent ⟨x, known, dead⟩ next
  exact dead' (after.alive a x' known')

/-- Whether no actor has exited, as far as ids were given. -/
def Node.allAlive (n : Node) : Bool :=
  !n.crashed && (List.range n.next).all fun i =>
    (n.status (some (UInt64.ofNat i))).all (· = .alive)

theorem noExit_of_allAlive (consistent : Consistent n) (h : n.allAlive = true) : NoExit n := by
  simp only [Node.allAlive, Bool.and_eq_true, Bool.not_eq_true', List.all_eq_true] at h
  refine ⟨?_, h.1⟩
  intro a x known
  have alive := h.2 a.toNat (List.mem_range.mpr (consistent.bound a x known).2)
  rw [UInt64.ofNat_toNat, Node.status_of_some known] at alive
  exact of_decide_eq_true alive

/-- No actor of either side has exited. -/
def Network.NoExit (w : Network) : Prop := Remote.NoExit w.left ∧ Remote.NoExit w.right

/-- What a step of one side does. -/
theorem advance_cases {L R L' R' : Node} {adv : Advance} (h : advance ext L R adv = some (L', R')) :
    (∃ act, adv = .act act ∧ act.isArrive = false ∧ L.step ext act = some L' ∧ R' = R) ∨
    (∃ count, adv = .chunk count ∧ R.step ext (.arrive (L.outgoing.take count)) = some R' ∧
      L' = { L with outgoing := L.outgoing.drop count }) := by
  cases adv with
  | act act =>
      left
      simp only [advance, Option.ite_none_left_eq_some, Option.map_eq_some_iff, Prod.mk.injEq] at h
      obtain ⟨own, m, next, rfl, rfl⟩ := h
      exact ⟨act, rfl, by simpa using own, next, rfl⟩
  | chunk count =>
      right
      simp only [advance, Option.map_eq_some_iff, Prod.mk.injEq] at h
      obtain ⟨m, next, rfl, rfl⟩ := h
      exact ⟨count, rfl, next, rfl⟩

theorem network_step_eq_some {act : NetworkAction} (h : w.step ext act = some w') :
    (∃ adv, act = .left adv ∧ advance ext w.left w.right adv = some (w'.left, w'.right)) ∨
    (∃ adv, act = .right adv ∧ advance ext w.right w.left adv = some (w'.right, w'.left)) := by
  cases act with
  | left adv =>
      obtain ⟨⟨l, r⟩, next, rfl⟩ := Option.map_eq_some_iff.mp h
      exact .inl ⟨adv, rfl, next⟩
  | right adv =>
      obtain ⟨⟨r, l⟩, next, rfl⟩ := Option.map_eq_some_iff.mp h
      exact .inr ⟨adv, rfl, next⟩

theorem advance_consistent {L R L' R' : Node} {adv : Advance}
    (h : advance ext L R adv = some (L', R')) (left : Consistent L) (right : Consistent R) :
    Consistent L' ∧ Consistent R' := by
  rcases advance_cases h with ⟨act, -, -, next, rfl⟩ | ⟨count, -, next, rfl⟩
  · exact ⟨consistent_step left next, right⟩
  · exact ⟨left.of_fields rfl rfl rfl fun _ => id, consistent_step right next⟩

theorem advance_before {L R L' R' : Node} {adv : Advance} (h : advance ext L R adv = some (L', R'))
    (left : Consistent L) (right : Consistent R) (after : NoExit L') (after' : NoExit R') :
    NoExit L ∧ NoExit R := by
  rcases advance_cases h with ⟨act, -, -, next, rfl⟩ | ⟨count, -, next, rfl⟩
  · exact ⟨after.before left next, after'⟩
  · exact ⟨⟨after.alive, after.up⟩, after'.before right next⟩

theorem network_consistent {acts : List NetworkAction} (left : Initial w.left)
    (right : Initial w.right) (h : run (Network.step ext) w acts = some w') :
    Consistent w'.left ∧ Consistent w'.right := by
  have keeps : Keeps (Network.step ext) (fun _ _ => True)
      (fun w => Consistent w.left ∧ Consistent w.right) := by
    rintro w act w' ⟨left, right⟩ - next
    rcases network_step_eq_some next with ⟨adv, -, next⟩ | ⟨adv, -, next⟩
    · exact advance_consistent next left right
    · exact (advance_consistent next right left).symm
  exact keeps.run ⟨(@kept_initial ε ext _ left).consistent, (@kept_initial ε ext _ right).consistent⟩
    (along_true acts) h

/-- In a run without an exit at the end there was none before. -/
theorem noExit_run {acts : List NetworkAction} (left : Consistent w.left) (right : Consistent w.right)
    (h : run (Network.step ext) w acts = some w') (after : w'.NoExit) : w.NoExit := by
  induction acts generalizing w with
  | nil =>
      cases h
      exact after
  | cons act acts ih =>
      obtain ⟨t, first, rest⟩ := run_cons h
      rcases network_step_eq_some first with ⟨adv, -, next⟩ | ⟨adv, -, next⟩
      · obtain ⟨left', right'⟩ := advance_consistent next left right
        obtain ⟨later, later'⟩ := ih left' right' rest
        exact advance_before next left right later later'
      · obtain ⟨right', left'⟩ := advance_consistent next right left
        obtain ⟨later, later'⟩ := ih left' right' rest
        exact (advance_before next right left later' later).symm

end Exits

section Runs
variable {ε : Type} {ext : Externals ε} {w w' : Network}

theorem Linked.advance (doc : Selective ext.cbor) {L R L' R' : Node} {adv : Advance}
    (h : Linked ext L R) (left : NoExit L) (right : NoExit R) (sends : AdvanceSends ext L adv)
    (next : advance ext L R adv = some (L', R')) (left' : NoExit L') (right' : NoExit R') :
    Linked ext L' R' := by
  rcases advance_cases next with ⟨act, rfl, own, stepped, rfl⟩ | ⟨count, rfl, stepped, rfl⟩
  · exact h.act doc left sends own stepped left'
  · exact h.chunk doc right stepped right'

theorem linked_run (doc : Selective ext.cbor) {acts : List NetworkAction}
    (h : Linked ext w.left w.right) (sends : Along (Network.step ext) (NetworkSends ext) w acts)
    (ran : run (Network.step ext) w acts = some w') (after : w'.NoExit) :
    Linked ext w'.left w'.right := by
  induction acts generalizing w with
  | nil =>
      cases ran
      exact h
  | cons act acts ih =>
      obtain ⟨t, first, rest⟩ := run_cons ran
      have consistent := h.regular.consistent
      have consistent' := h.regular'.consistent
      obtain ⟨left, right⟩ := noExit_run consistent consistent' ran after
      refine ih ?_ (sends.2 t first) rest
      rcases network_step_eq_some first with ⟨adv, rfl, next⟩ | ⟨adv, rfl, next⟩
      · obtain ⟨later, later'⟩ := advance_consistent next consistent consistent'
        obtain ⟨left', right'⟩ := noExit_run later later' rest after
        exact h.advance doc left right sends.1 next left' right'
      · obtain ⟨later', later⟩ := advance_consistent next consistent' consistent
        obtain ⟨left', right'⟩ := noExit_run later later' rest after
        exact (h.symm.advance doc right left sends.1 next right' left').symm

theorem arrived_initial {n : Node} (h : Initial n) (a : InstanceId) : n.arrived a = [] := by
  cases known : n.actors a with
  | none => simp [Node.arrived, known]
  | some x =>
      rw [Node.arrived_of_some known]
      by_cases same : a = n.endpoint
      · obtain ⟨name, endpoint⟩ := h.endpoint
        subst same
        cases endpoint.symm.trans known
        rfl
      · obtain ⟨name, trap, rfl⟩ := h.others a x known same
        rfl

theorem proxy_initial {n : Node} (h : Initial n) (p : InstanceId) (r : Rpiid) :
    n.kindOf p ≠ some (.proxy r) := by
  intro kind
  obtain ⟨x, known, kind⟩ := Node.kindOf_eq_some.mp kind
  by_cases same : p = n.endpoint
  · obtain ⟨name, endpoint⟩ := h.endpoint
    subst same
    cases endpoint.symm.trans known
    cases kind
  · obtain ⟨name, trap, rfl⟩ := h.others p x known same
    cases kind

theorem regular_initial {n : Node} (h : Initial n) : Regular ext n := by
  have consistent := (@kept_initial ε ext n h).consistent
  have nothing (a : InstanceId) : n.arrived a = [] := arrived_initial h a
  have empty (a : InstanceId) : n.received a = [] := by
    have split := n.arrived_eq a
    rw [nothing] at split
    exact (List.append_eq_nil_iff.mp split.symm).1
  have nobody {p : InstanceId} {r : Rpiid} (kind : n.kindOf p = some (.proxy r)) : False :=
    proxy_initial h p r kind
  refine ⟨consistent, ?_, ?_, ?_, ?_, ?_, ?_, ?_, ?_, ?_⟩
  · intro a mail member
    rw [nothing] at member
    cases member
  · exact fun p r kind => (nobody kind).elim
  · intro mail member
    rw [nothing] at member
    cases member
  · exact fun p r kind => (nobody kind).elim
  · exact fun p r a kind => (nobody kind).elim
  · rw [h.framesOut, empty]
    rfl
  · intro fromId toId payload member
    rw [h.framesIn] at member
    cases member
  · exact fun q a kind => (nobody kind).elim
  · exact fun q r b kind => (nobody kind).elim

theorem stream_initial {L R : Node} (left : Initial L) (right : Initial R) : Stream ext L R := by
  refine ⟨[], ⟨nofun, ?_, by simp [Incomplete]⟩, ?_⟩
  · rw [left.outgoing, right.accumulator]
    rfl
  · rw [left.framesOut, right.framesIn]
    rfl

theorem linked_initial {L R : Node} (left : Initial L) (right : Initial R) : Linked ext L R :=
  ⟨regular_initial left, regular_initial right, stream_initial left right, stream_initial right left,
    fun p r kind => (proxy_initial left p r kind).elim,
    fun p r kind => (proxy_initial right p r kind).elim⟩

end Runs

end Thespian.Remote
