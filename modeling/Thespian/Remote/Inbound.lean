import Thespian.Remote.TableInvariant

/-!
What an inbound frame can do to the endpoint. The endpoint hands the payload on to
the proxy recorded for the sender, or makes one; a proxy that has exited without
saying so is still recorded, and sending to it is an error that ends the endpoint.
So does a frame without a sender that names nobody who is alive. An exit frame is
never an error.
-/

namespace Thespian.Remote
open Decoding Decoding.Decoder Cbor Zig Transition

/-- All but a transport error, which is meant to end the endpoint. -/
def ProtocolMessage.isRequest : ProtocolMessage → Bool
  | .transportError _ => false
  | _ => true

/-- What deadsend lets pass. -/
def exitShape : Patterns := .cons (.string (text "exit")) (.last (.type .more))

def ExitShaped (m : Bytes) : Prop := ∃ ws, matchBuffer m exitShape = .ok (true, ws)

/-- No dead proxy is recorded for the sender. -/
def SenderAlive (n : Node) (fromId : Lpiid) : Prop :=
  ∀ p, n.remoteProxies.lookup ⟨fromId.value⟩ = some p → n.isAlive p = true

/-- The condition on a frame, in the state in which it is dispatched. -/
def Deliverable (n : Node) : ProtocolMessage → Prop
  | .send fromId _ _ => SenderAlive n fromId
  | .sendNamed fromId toName payload =>
      if fromId ≠ ⟨0⟩ then SenderAlive n fromId
      else n.status (n.procs toName) = some .alive ∨ ExitShaped payload
  | .link localId _ => SenderAlive n localId
  | .exit _ _ | .transportError _ => True

/-- A condition on every frame that the loop of feed comes to dispatch. -/
def EachFrame {ε : Type} (ext : Externals ε) (P : Node → ProtocolMessage → Prop) :
    Nat → Node → Option Bytes → Prop
  | 0, _, _ => True
  | _ + 1, _, none => True
  | fuel + 1, n, some frame =>
      (∃ msg, ProtocolMessage.decode ext.cbor frame = .ok msg ∧ P n msg) ∧
        ∀ n', dispatchInbound ext n frame = (n', none) →
          EachFrame ext P fuel
            { n' with accumulator := (accumulatorFeed ext.cbor n'.accumulator []).1 }
            (accumulatorFeed ext.cbor n'.accumulator []).2

/-- The same of every frame that the given bytes complete. -/
def EachInbound {ε : Type} (ext : Externals ε) (P : Node → ProtocolMessage → Prop) (n : Node)
    (bytes : Bytes) : Prop :=
  EachFrame ext P ((n.accumulator ++ bytes).length + 1)
    { n with accumulator := (accumulatorFeed ext.cbor n.accumulator bytes).1 }
    (accumulatorFeed ext.cbor n.accumulator bytes).2

section Dispatch
variable {ε : Type} {ext : Externals ε} {n n' : Node}

/-- A message that begins with another literal is not an exit message. -/
theorem not_exitShaped {s : Bytes} (differs : s ≠ text "exit") (small : s.length < 2 ^ 63)
    (rest : List Bytes) : ¬ ExitShaped (arrayOf (pushString s :: rest)) := by
  rintro ⟨ws, matched⟩
  have header := decodeArrayHeader_arrayOf (pushString s :: rest) []
  have literal : matchValue (.string (text "exit")) (pushString s ++ (rest.flatten ++ [])) =
      .ok ((false, []), rest.flatten ++ []) := by
    rw [matchValue, matchLiteral, bind_of_ok (reads_matchString small (rest.flatten ++ []))]
    simp [differs]
  rw [matchBuffer, matchArray, ← List.append_nil (arrayOf _), bind_of_ok header,
    List.flatten_cons, List.append_assoc, exitShape, matchNext] at matched
  split at matched
  · cases matched
  · rw [bind_of_ok literal] at matched
    cases matched

theorem deadsend_none_iff {current : Handle} (alive : n.status current = some .alive) (m : Bytes)
    (sender : Handle) : n.deadsend current m sender = none ↔ ExitShaped m := by
  unfold Node.deadsend ExitShaped exitShape
  rw [if_pos alive]
  split
  · rename_i matched
    simp [matched]
  · rename_i ws matched
    simp [matched]
  · rename_i matched
    simp [matched]

/-- The endpoint's own sends fail where the target is not alive. -/
theorem sendRaw_none_iff {current : Handle} (alive : n.status current = some .alive)
    (target : Handle) (m : Bytes) (route : Route) :
    (n.sendRaw current target m route).2 = none ↔
      n.status target = some .alive ∨ ExitShaped m := by
  rcases n.sendRaw_cases current target m route with ⟨b, x, rfl, known, up, eq⟩ | ⟨dead, sender, eq⟩
  · rw [eq]
    exact iff_of_true rfl (.inl ((Node.status_of_some known).trans (congrArg some up)))
  · rw [eq, deadsend_none_iff alive]
    exact ⟨.inr, fun h => h.resolve_left dead⟩

/-- A request goes to the recorded proxy, or to a new one. -/
theorem proxied_none_iff (alive : n.isAlive n.endpoint = true) (fromId : Lpiid) {m : Bytes}
    (control : ¬ ExitShaped m) :
    ((getOrCreateProxy n ⟨fromId.value⟩).1.sendRaw
      (some (getOrCreateProxy n ⟨fromId.value⟩).1.endpoint)
      (some (getOrCreateProxy n ⟨fromId.value⟩).2) m .own).2 = none ↔ SenderAlive n fromId := by
  rcases getOrCreateProxy_cases n ⟨fromId.value⟩ with ⟨p, found, eq⟩ | ⟨missing, eq⟩
  · rw [eq, sendRaw_none_iff (of_decide_eq_true alive)]
    unfold SenderAlive
    rw [found]
    constructor
    · rintro up p' same
      cases same
      exact decide_eq_true (up.resolve_right control)
    · exact fun up => .inl (of_decide_eq_true (up p rfl))
  · rw [eq]
    have made : (n.spawnProxy ⟨fromId.value⟩).actors n.nextId =
        some { name := text "proxy", kind := .proxy ⟨fromId.value⟩ } := Function.update_self ..
    rw [Node.sendRaw_of_alive made rfl]
    refine iff_of_true rfl ?_
    intro p found
    rw [missing] at found
    cases found

/-- A request does not fail exactly where it can be delivered. -/
theorem dispatchMessage_none_iff (doc : Documented ext.cbor) (alive : n.isAlive n.endpoint = true)
    {msg : ProtocolMessage} (request : msg.isRequest = true) :
    (dispatchMessage ext n msg).2 = none ↔ Deliverable n msg := by
  cases msg with
  | send fromId toId payload =>
      refine proxied_none_iff alive fromId ?_
      rw [deliverPidMessage_eq doc]
      exact not_exitShaped (by decide) (by decide) _
  | sendNamed fromId toName payload =>
      simp only [dispatchMessage, Deliverable]
      split
      · refine proxied_none_iff alive fromId ?_
        rw [deliverNamedMessage_eq doc]
        exact not_exitShaped (by decide) (by decide) _
      · exact sendRaw_none_iff (of_decide_eq_true alive) _ _ _
  | link localId remoteId =>
      refine proxied_none_iff alive localId ?_
      rw [setNotifyMessage_eq doc]
      exact not_exitShaped (by decide) (by decide) _
  | exit localId reason =>
      simp only [dispatchMessage, Deliverable, iff_true]
      split
      · rfl
      · rfl
  | transportError reason => cases request

theorem sendRaw_status (current target : Handle) (m : Bytes) (route : Route) (h : Handle) :
    (n.sendRaw current target m route).1.status h = n.status h := by
  rcases n.sendRaw_cases current target m route with ⟨b, x, rfl, known, -, eq⟩ | ⟨-, sender, eq⟩
  · rw [eq]
    cases h with
    | none => rfl
    | some a =>
        by_cases same : a = b
        · subst same
          have after : (n.post a ⟨current, m, route⟩).actors a =
            some { x with mailbox := x.mailbox ++ [⟨current, m, route⟩] } :=
            Node.actors_update_of_some known
          rw [Node.status_of_some after, Node.status_of_some known]
        · simp [Node.status, Node.post, same]
  · rw [eq]

theorem sendRaw_crashed (current target : Handle) (m : Bytes) (route : Route) :
    (n.sendRaw current target m route).1.crashed = n.crashed := by
  rcases n.sendRaw_cases current target m route with ⟨b, x, rfl, -, -, eq⟩ | ⟨-, sender, eq⟩
  · rw [eq]
    rfl
  · rw [eq]

/-- The endpoint is up while it dispatches. -/
def Up (n : Node) : Prop := Consistent n ∧ n.isAlive n.endpoint = true ∧ n.crashed = false

theorem up_fed : Fed Up where
  sent := by
    rintro n target m route ⟨consistent, alive, running⟩
    refine ⟨consistent.moved (.sendRaw _ _ _ _ _ trivial), ?_, ?_⟩
    · rw [sendRaw_endpoint, Node.isAlive, sendRaw_status]
      exact alive
    · rw [sendRaw_crashed]
      exact running
  spawned := by
    rintro n r ⟨consistent, alive, running⟩ bound _
    refine ⟨consistent.spawnProxy bound r, ?_, running⟩
    obtain ⟨x, known, status⟩ := Node.isAlive_iff.mp alive
    exact Node.isAlive_iff.mpr
      ⟨x, spawn_known (consistent.fresh (Nat.lt_of_succ_lt bound)) known, status⟩
  dispatched := fun _ h => ⟨h.1.of_fields rfl rfl rfl fun _ => id, h.2⟩
  buffered := fun _ h => ⟨h.1.of_fields rfl rfl rfl fun _ => id, h.2⟩

theorem dispatchInbound_of_decode {frame : Bytes} {msg : ProtocolMessage}
    (decoded : ProtocolMessage.decode ext.cbor frame = .ok msg) :
    dispatchInbound ext n frame =
      dispatchMessage ext { n with framesIn := n.framesIn ++ [msg] } msg := by
  rw [dispatchInbound, decoded]

theorem dispatchInbound_none_iff (doc : Documented ext.cbor) (alive : n.isAlive n.endpoint = true)
    {frame : Bytes} {msg : ProtocolMessage}
    (decoded : ProtocolMessage.decode ext.cbor frame = .ok msg) (request : msg.isRequest = true) :
    (dispatchInbound ext n frame).2 = none ↔ Deliverable n msg := by
  have up : ({ n with framesIn := n.framesIn ++ [msg] } : Node).isAlive n.endpoint = true := alive
  rw [dispatchInbound_of_decode decoded]
  refine (dispatchMessage_none_iff doc up request).trans ?_
  cases msg <;> exact Iff.rfl

/-- The loop does not fail exactly where every frame can be delivered. -/
theorem feedRounds_none_iff (doc : Documented ext.cbor) (fuel : Nat) (frame : Option Bytes)
    (up : Up n) (bound : (feedRounds ext fuel n frame).1.next < 2 ^ 64)
    (requests : EachFrame ext (fun _ msg => msg.isRequest = true) fuel n frame) :
    (feedRounds ext fuel n frame).2 = none ↔ EachFrame ext Deliverable fuel n frame := by
  induction fuel generalizing n frame with
  | zero => exact iff_of_true rfl trivial
  | succ fuel ih =>
      cases frame with
      | none => exact iff_of_true rfl trivial
      | some frame =>
          obtain ⟨⟨msg, decoded, request⟩, rest⟩ := requests
          have first := dispatchInbound_none_iff doc up.2.1 decoded request
          rw [feedRounds] at bound ⊢
          rw [EachFrame]
          cases outcome : dispatchInbound ext n frame with
          | mk n' f =>
              rw [outcome] at first
              rw [outcome] at bound
              cases f with
              | some f =>
                  refine iff_of_false nofun ?_
                  rintro ⟨⟨msg', decoded', deliverable⟩, -⟩
                  rw [decoded] at decoded'
                  cases decoded'
                  cases first.mpr deliverable
              | none =>
                  dsimp only at bound ⊢
                  have small : (dispatchInbound ext n frame).1.next < 2 ^ 64 := by
                    rw [outcome]
                    exact Nat.lt_of_le_of_lt (feedRounds_next ext fuel { n' with
                      accumulator := (accumulatorFeed ext.cbor n'.accumulator []).1 } _) bound
                  have after : Up n' := by
                    rw [dispatchInbound_of_decode decoded] at outcome small
                    have kept := up_fed.dispatchMessage msg (up_fed.dispatched msg up) small
                    rw [outcome] at kept
                    exact kept
                  rw [ih _ (up_fed.buffered _ after) bound (rest n' outcome)]
                  constructor
                  · intro later
                    refine ⟨⟨msg, decoded, first.mp rfl⟩, ?_⟩
                    rintro n'' same
                    cases same
                    exact later
                  · exact fun both => both.2 n' rfl

theorem consistent_run (initial : Initial n) {acts : List Action}
    (h : run (Node.step ext) n acts = some n') : Consistent n' :=
  have keeps : Keeps (Node.step ext) (fun _ _ => True) Consistent :=
    fun _ _ _ consistent _ next => consistent_step consistent next
  keeps.run (@kept_initial ε ext n initial).consistent (along_true acts) h

theorem fail_down {a : InstanceId} {x : Actor} (known : n.actors a = some x) (f : Failure) :
    (n.fail a f).isAlive a = false ∨ (n.fail a f).crashed = true := by
  cases f with
  | exit m => exact .inl (handleExit_dead known m)
  | reachedUnreachable | outOfBounds | exception _ => exact .inr rfl

/-- In every reachable state, a request does not fail exactly where it can be delivered,
and the endpoint outlives the bytes it receives exactly where all their frames can. -/
theorem inbound_survives_iff (doc : Documented ext.cbor) (initial : Initial n) {acts : List Action}
    (h : run (Node.step ext) n acts = some n') (alive : n'.isAlive n'.endpoint = true) :
    (∀ frame msg, ProtocolMessage.decode ext.cbor frame = .ok msg → msg.isRequest = true →
      ((dispatchInbound ext n' frame).2 = none ↔ Deliverable n' msg)) ∧
    (∀ bytes n'', n'.step ext (.arrive bytes) = some n'' →
      EachInbound ext (fun _ msg => msg.isRequest = true) n' bytes →
      (n''.isAlive n''.endpoint = true ∧ n''.crashed = false ↔
        EachInbound ext Deliverable n' bytes)) := by
  refine ⟨fun frame msg => dispatchInbound_none_iff doc alive, ?_⟩
  intro bytes n'' next requests
  obtain ⟨running, performed, bound⟩ := step_eq_some next
  simp only [Node.perform, if_pos alive, Option.some.injEq] at performed
  have up : Up n' := ⟨consistent_run initial h, alive, running⟩
  have settled : Framed Moved (feedNode ext n' bytes).1 n'' := by
    rw [← performed]
    exact .settle _ (.refl _) fun _ _ => trivial
  rw [settled.next] at bound
  have fed := up_fed.feedNode bytes up bound
  have same := (endpoint_fed n'.endpoint).feedNode bytes rfl bound
  refine Iff.trans ?_ (feedRounds_none_iff doc _ _ (up_fed.buffered _ up) bound requests)
  change _ ↔ (feedNode ext n' bytes).2 = none
  rw [settled.endpoint, same, ← performed]
  rw [Up, same] at fed
  generalize feedNode ext n' bytes = outcome at fed
  obtain ⟨m, f⟩ := outcome
  cases f with
  | none => exact iff_of_true fed.2 rfl
  | some f =>
      refine iff_of_false ?_ (by simp)
      obtain ⟨x, known, -⟩ := Node.isAlive_iff.mp fed.2.1
      rintro ⟨up, running⟩
      rcases fail_down known f with down | down
      · exact absurd up (Bool.eq_false_iff.mp down)
      · exact absurd down (Bool.eq_false_iff.mp running)

end Dispatch

section Examples

/-- A frame for a name nobody has ends the proxy of its sender. -/
def unknownName : List Action :=
  [.arrive (frame (.sendNamed ⟨7⟩ (text "nobody") (arrayOf [pushString (text "hello")]))), .turn 2]

/-- The next frame of the same sender. -/
def helloAgain : ProtocolMessage := .send ⟨7⟩ ⟨1⟩ (pushString (text "hello"))

theorem helloAgain_decodes :
    ProtocolMessage.decode lenient (arrayOf helloAgain.elements) = .ok helloAgain := by
  refine decode_elements lenient_selective.toDocumented helloAgain ?_ (by decide)
  intro x same
  cases same
  exact wellFormed_string (by decide)

theorem unknownName_runs : ∃ n, run (Node.step lenientExternals) (Node.start noNames) unknownName =
    some n ∧ n.isAlive n.endpoint = true ∧ n.isAlive 2 = false ∧
      n.remoteProxies.lookup ⟨7⟩ = some 2 := by
  have facts : (run (Node.step lenientExternals) (Node.start noNames) unknownName).map
      (fun n => (n.isAlive n.endpoint, n.isAlive 2, n.remoteProxies.lookup ⟨7⟩)) =
        some (true, false, some 2) := by decide +kernel
  obtain ⟨n, ran, eq⟩ := Option.map_eq_some_iff.mp facts
  simp only [Prod.mk.injEq] at eq
  exact ⟨n, ran, eq⟩

theorem inbound_survives_iff_stale : ∃ n, run (Node.step lenientExternals)
    (Node.start noNames) unknownName = some n ∧
    ((dispatchInbound lenientExternals n (arrayOf helloAgain.elements)).2 = none ↔
      Deliverable n helloAgain) ∧ ¬ Deliverable n helloAgain := by
  obtain ⟨n, ran, alive, dead, stale⟩ := unknownName_runs
  refine ⟨n, ran, (inbound_survives_iff lenient_selective.toDocumented (start_initial noNames)
    ran alive).1 _ _ helloAgain_decodes rfl, ?_⟩
  intro deliverable
  exact absurd (deliverable 2 stale) (Bool.eq_false_iff.mp dead)

theorem inbound_ends_endpoint : ¬ ∀ acts n frame msg,
    run (Node.step lenientExternals) (Node.start noNames) acts = some n →
    n.isAlive n.endpoint = true → ProtocolMessage.decode lenient frame = .ok msg →
    msg.isRequest = true → (dispatchInbound lenientExternals n frame).2 = none := by
  intro survives
  have facts : (run (Node.step lenientExternals) (Node.start noNames) unknownName).map
      (fun n => (n.isAlive n.endpoint, (dispatchInbound lenientExternals n
        (arrayOf helloAgain.elements)).2.isSome)) = some (true, true) := by decide +kernel
  obtain ⟨n, ran, eq⟩ := Option.map_eq_some_iff.mp facts
  simp only [Prod.mk.injEq] at eq
  have none := survives unknownName n _ helloAgain ran eq.1 helloAgain_decodes rfl
  rw [none] at eq
  cases eq.2

/-- As long as the proxy of the sender lives its frames leave the endpoint as it is. -/
example : (run (Node.step lenientExternals) (Node.start noNames) unknownName.dropLast).map
    (fun n => (dispatchInbound lenientExternals n (arrayOf helloAgain.elements)).2.isNone) =
      some true := by
  decide +kernel

end Examples

end Thespian.Remote
