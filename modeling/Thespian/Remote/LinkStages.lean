import Thespian.Remote.LinkSteps

/-!
Where a link across the connection stands. The request for it goes from the asking
actor to its proxy, the endpoint, over the wire, to the proxy on the other side and to
the remote actor, which is then linked with that proxy. The exit of the remote actor
comes back the same way. Each step of either side leaves it where it is or moves it on.
-/

namespace Thespian.Remote
open Decoding Decoding.Decoder Cbor Zig Transition

/-- The actor has been sent an exit message by the proxy. -/
def Told (n : Node) (x p : InstanceId) : Prop :=
  ∃ mail ∈ n.arrived x, mail.sender = some p ∧ ExitWords mail.body

/-- It has, or it has exited itself. -/
def Settled (n : Node) (x p : InstanceId) : Prop := Told n x p ∨ Gone x n

/-- If the actor is there, it is a user's. -/
def Person (n : Node) (a : InstanceId) : Prop := ∀ k, n.kindOf a = some k → ∃ trap, k = .user trap

section Stages
variable {ε : Type} (ext : Externals ε) (A B : Node) (x p y : InstanceId)

/-- The request is on its way from the proxy of the asking side to the remote actor. -/
inductive Requesting (forth : List (Frame UInt8 ProtocolMessage)) : Prop
  | asked (mail : Mail) (waits : mail ∈ A.mailbox A.endpoint)
      (body : mail.body = linkWireMessage ext.cbor ⟨x⟩ ⟨y⟩)
  | sent (f : Frame UInt8 ProtocolMessage) (member : f ∈ forth) (msg : f.2 = .link ⟨x⟩ ⟨y⟩)
  | notified (notified : Notified ext x y B)
  | linking (q : InstanceId) (kind : B.kindOf q = some (.proxy ⟨x⟩)) (mail : Mail)
      (waits : mail ∈ B.mailbox y) (sender : mail.sender = some q)
      (body : mail.body = Runtime.linkMsg)

/-- The remote actor is linked, or its exit is on its way back to the proxy of the asking
side. -/
inductive Telling (back : List (Frame UInt8 ProtocolMessage)) : Prop
  | linked (q : InstanceId) (kind : B.kindOf q = some (.proxy ⟨x⟩)) (link : some q ∈ B.linksOf y)
      (alive : B.isAlive y = true)
  | left (q : InstanceId) (kind : B.kindOf q = some (.proxy ⟨x⟩)) (reason : Bytes)
      (small : reason.length < 2 ^ 62) (mail : Mail) (waits : mail ∈ B.mailbox q)
      (sender : mail.sender = some y) (body : mail.body = exitText reason)
  | asked (reason : Bytes) (small : reason.length < 2 ^ 62) (mail : Mail)
      (waits : mail ∈ B.mailbox B.endpoint)
      (body : mail.body = localLinkExitMessage ext.cbor ⟨y⟩ reason)
  | sent (reason : Bytes) (small : reason.length < 2 ^ 62) (f : Frame UInt8 ProtocolMessage)
      (member : f ∈ back) (msg : f.2 = .exit ⟨y⟩ reason)
  | informed (reason : Bytes) (small : reason.length < 2 ^ 62)
      (informed : Informed A.endpoint p reason A)

/-- The proxy of the asking side is alive and recorded, and the asking actor is linked
with it. -/
structure Holds : Prop where
  alive : A.isAlive p = true
  entry : A.remoteProxies.lookup ⟨y⟩ = some p
  link : some x ∈ A.linksOf p

/-- Where a link that has reached the remote actor stands. -/
inductive Reporting (back : List (Frame UInt8 ProtocolMessage)) : Prop
  | settled (settled : Settled A x p)
  | telling (holds : Holds A x p y) (stage : Telling ext A B x p y back)

/-- Where a link stands that the actor has asked the proxy for. -/
inductive Watched (forth back : List (Frame UInt8 ProtocolMessage)) : Prop
  | waiting (entered : Entered ⟨y⟩ p A) (mail : Mail) (waits : mail ∈ A.mailbox p)
      (sender : mail.sender = some x) (body : mail.body = Runtime.linkMsg)
  | requesting (holds : Holds A x p y) (stage : Requesting ext A B x y forth)
  | reporting (stage : Reporting ext A B x p y back)

end Stages

section Turns
variable {ε : Type} {ext : Externals ε} {A A' B B' : Node} {x p y : InstanceId} {act : Action}
  {taker leaver : Handle} {forth back new : List (Frame UInt8 ProtocolMessage)}

/-- The asking side takes a step. -/
theorem Requesting.asker (doc : Selective ext.cbor) (h : Requesting ext A B x y forth) (up : Up A)
    (up' : Up A') (turned : Turned ext A act A' taker leaver) (next : A.step ext act = some A')
    (emitted : Emitted ext A A' new) : Requesting ext A' B x y (forth ++ new) := by
  cases h with
  | asked mail waits body =>
      rcases turned.waits waits with still | ⟨rfl, rest, mailbox⟩
      · exact .asked mail (turned.passes.endpoint ▸ still) body
      · have plain : Runtime.isLinkMsg mail.body = false :=
          body ▸ linkWireMessage_plain doc.toDocumented ⟨x⟩ ⟨y⟩
        obtain ⟨f, member, msg⟩ := request_written up up' mailbox plain
          (body ▸ classify_linkWire doc ⟨x⟩ ⟨y⟩) rfl next emitted
        exact .sent f (List.mem_append_right _ member) msg
  | sent f member msg => exact .sent f (List.mem_append_left _ member) msg
  | notified notified => exact .notified notified
  | linking q kind mail waits sender body => exact .linking q kind mail waits sender body

/-- The other side takes a step. -/
theorem Requesting.other (doc : Selective ext.cbor) (h : Requesting ext A B x y forth)
    (turned : Turned ext B act B' taker leaver) (next : B.step ext act = some B') (up' : Up B')
    (person : Person B y) (answers : Answers ext B y x act) :
    Requesting ext A B' x y forth ∨ Telling ext A B' x p y back := by
  cases h with
  | asked mail waits body => exact .inl (.asked mail waits body)
  | sent f member msg => exact .inl (.sent f member msg)
  | notified notified =>
      obtain ⟨q, kind, mail, waits, body⟩ := notified
      have kind' := turned.passes.kind q _ kind
      rcases turned.waits waits with still | ⟨rfl, rest, mailbox⟩
      · exact .inl (.notified ⟨q, kind', mail, still, body⟩)
      · obtain ⟨alive, actor⟩ := answers.notify q mail rest rfl mailbox kind body
        obtain ⟨-, -, sent⟩ := takes_setNotify doc kind alive actor mailbox body next
        exact .inl (.linking q kind' _ sent rfl rfl)
  | linking q kind mail waits sender body =>
      have kind' := turned.passes.kind q _ kind
      rcases turned.waits waits with still | ⟨rfl, rest, mailbox⟩
      · exact .inl (.linking q kind' mail still sender body)
      · have alive := answers.link q mail rest rfl mailbox kind sender body
        have linked := takes_link_records mailbox sender body next up'.2.2
        refine .inr (.linked q kind' linked (turned.takes_link mailbox body ?_ alive))
        intro r proxy
        obtain ⟨trap, user⟩ := person _ proxy
        cases user

/-- The asking side takes a step that its proxy survives. -/
theorem Telling.asker (doc : Selective ext.cbor) (h : Telling ext A B x p y back)
    (kind : A.kindOf p = some (.proxy ⟨y⟩)) (alive : A.isAlive p = true) (up' : Up A')
    (turned : Turned ext A act A' taker leaver) (next : A.step ext act = some A')
    (survives : A'.isAlive p = true) : Telling ext A' B x p y back := by
  cases h with
  | linked q kind link alive => exact .linked q kind link alive
  | left q kind reason small mail waits sender body =>
      exact .left q kind reason small mail waits sender body
  | asked reason small mail waits body => exact .asked reason small mail waits body
  | sent reason small f member msg => exact .sent reason small f member msg
  | informed reason small informed =>
      obtain ⟨mail, waits, sender, body⟩ := informed
      rcases turned.waits waits with still | ⟨rfl, rest, mailbox⟩
      · refine .informed reason small ?_
        rw [turned.passes.endpoint]
        exact ⟨mail, still, sender, body⟩
      · have dead := takes_remoteExit doc kind alive mailbox sender body small next up'.2.2
        rw [survives] at dead
        cases dead

/-- The other side takes a step. -/
theorem Telling.other (doc : Selective ext.cbor) (h : Telling ext A B x p y back) (up : Up B)
    (up' : Up B') (turned : Turned ext B act B' taker leaver) (next : B.step ext act = some B')
    (emitted : Emitted ext B B' new) (person : Person B y) (reports : Reports ext B y x act) :
    Telling ext A B' x p y (back ++ new) := by
  have apart : ∀ q, B.kindOf q = some (.proxy ⟨x⟩) → q ≠ y := by
    rintro q kind rfl
    obtain ⟨trap, user⟩ := person _ kind
    cases user
  cases h with
  | linked q kind link alive =>
      have kind' := turned.passes.kind q _ kind
      rcases turned.stays alive with stays | ⟨m, exits, departs⟩
      · exact .linked q kind' (turned.passes.links y _ link) stays
      · obtain ⟨⟨reason, small, rfl⟩, ready⟩ := reports.leave m exits
        have told := departs.tells q link (apart q kind) (ready q kind link)
        exact .left q kind' reason small _ told rfl rfl
  | left q kind reason small mail waits sender body =>
      have kind' := turned.passes.kind q _ kind
      rcases turned.waits waits with still | ⟨rfl, rest, mailbox⟩
      · exact .left q kind' reason small mail still sender body
      · have alive := reports.exit q mail rest reason rfl mailbox kind sender body
        have other : y ≠ B.endpoint := by
          rintro rfl
          obtain ⟨trap, user⟩ := person _ (Node.kindOf_eq_some.mpr up.1.endpoint)
          cases user
        obtain ⟨-, sent⟩ := takes_exit doc kind alive up.2.1 mailbox sender other body small next
        exact .asked reason small _ (turned.passes.endpoint ▸ sent) rfl
  | asked reason small mail waits body =>
      rcases turned.waits waits with still | ⟨rfl, rest, mailbox⟩
      · exact .asked reason small mail (turned.passes.endpoint ▸ still) body
      · have plain : Runtime.isLinkMsg mail.body = false :=
          body ▸ localLinkExitMessage_plain doc.toDocumented ⟨y⟩ reason
        obtain ⟨f, member, msg⟩ := request_written up up' mailbox plain
          (body ▸ classify_localLinkExit doc ⟨y⟩ small) rfl next emitted
        exact .sent reason small f (List.mem_append_right _ member) msg
  | sent reason small f member msg => exact .sent reason small f (List.mem_append_left _ member) msg
  | informed reason small informed => exact .informed reason small informed

theorem Settled.passes (h : Settled A x p) (passes : Passes taker leaver A A') :
    Settled A' x p := by
  rcases h with ⟨mail, came, sender, words⟩ | gone
  · exact .inl ⟨mail, (passes.arrived x).subset came, sender, words⟩
  · exact .inr (passes.gone x gone)

/-- The proxy stays, or it exits and tells the actor that it is linked with. -/
theorem Holds.turned (doc : Documented ext.cbor) (h : Holds A x p y) (up : Up A) (up' : Up A')
    {trap : Bool} (user : A.kindOf x = some (.user trap)) (kind : A.kindOf p = some (.proxy ⟨y⟩))
    (entry : LeavesEntry ext A ⟨y⟩ p act) (turned : Turned ext A act A' taker leaver)
    (next : A.step ext act = some A') : Holds A' x p y ∨ Settled A' x p := by
  rcases turned.stays h.alive with alive | ⟨m, exits, departs⟩
  · have entered := entered_step up.1 (fun _ _ => h.entry) entry next up'.2.1
    exact .inl ⟨alive, entered (turned.passes.kind p _ kind) alive, turned.passes.links p _ h.link⟩
  · have apart : x ≠ p := by
      rintro rfl
      rw [user] at kind
      cases kind
    right
    by_cases here : A.isAlive x = true
    · have sent := departs.tells x h.link apart here
      exact .inl ⟨_, Node.mem_arrived sent, rfl, exitOf_proxy doc up.1 kind next exits⟩
    · obtain ⟨z, there, -⟩ := Node.kindOf_eq_some.mp user
      exact .inr (turned.passes.gone x (.of_not_alive there here))

/-- The asking side takes a step. -/
theorem Reporting.asker (doc : Selective ext.cbor) (h : Reporting ext A B x p y back) (up : Up A)
    (up' : Up A') {trap : Bool} (user : A.kindOf x = some (.user trap))
    (kind : A.kindOf p = some (.proxy ⟨y⟩)) (entry : LeavesEntry ext A ⟨y⟩ p act)
    (turned : Turned ext A act A' taker leaver) (next : A.step ext act = some A') :
    Reporting ext A' B x p y back := by
  cases h with
  | settled settled => exact .settled (settled.passes turned.passes)
  | telling holds stage =>
      rcases holds.turned doc.toDocumented up up' user kind entry turned next with holds' | settled
      · exact .telling holds' (stage.asker doc kind holds.alive up' turned next holds'.alive)
      · exact .settled settled

/-- The other side takes a step. -/
theorem Reporting.other (doc : Selective ext.cbor) (h : Reporting ext A B x p y back) (up : Up B)
    (up' : Up B') (turned : Turned ext B act B' taker leaver) (next : B.step ext act = some B')
    (emitted : Emitted ext B B' new) (person : Person B y) (reports : Reports ext B y x act) :
    Reporting ext A B' x p y (back ++ new) := by
  cases h with
  | settled settled => exact .settled settled
  | telling holds stage =>
      exact .telling holds (stage.other doc up up' turned next emitted person reports)

/-- The asking side takes a step. -/
theorem Watched.asker (doc : Selective ext.cbor) (h : Watched ext A B x p y forth back) (up : Up A)
    (up' : Up A') {trap : Bool} (user : A.kindOf x = some (.user trap))
    (kind : A.kindOf p = some (.proxy ⟨y⟩)) (request : TakesRequest A x p act)
    (entry : LeavesEntry ext A ⟨y⟩ p act) (turned : Turned ext A act A' taker leaver)
    (next : A.step ext act = some A') (emitted : Emitted ext A A' new) :
    Watched ext A' B x p y (forth ++ new) back := by
  cases h with
  | waiting entered mail waits sender body =>
      have entered' := entered_step up.1 entered entry next up'.2.1
      rcases turned.waits waits with still | ⟨rfl, rest, mailbox⟩
      · exact .waiting entered' mail still sender body
      · have alive := request mail rest rfl mailbox sender body
        obtain ⟨link, alive', sent⟩ := takes_link doc kind alive up.2.1 mailbox sender body next
        have kind' := turned.passes.kind p _ kind
        exact .requesting ⟨alive', entered' kind' alive', link⟩
          (.asked _ (turned.passes.endpoint ▸ sent) rfl)
  | requesting holds stage =>
      rcases holds.turned doc.toDocumented up up' user kind entry turned next with holds' | settled
      · exact .requesting holds' (stage.asker doc up up' turned next emitted)
      · exact .reporting (.settled settled)
  | reporting stage => exact .reporting (stage.asker doc up up' user kind entry turned next)

/-- The other side takes a step. -/
theorem Watched.other (doc : Selective ext.cbor) (h : Watched ext A B x p y forth back) (up : Up B)
    (up' : Up B') (turned : Turned ext B act B' taker leaver) (next : B.step ext act = some B')
    (emitted : Emitted ext B B' new) (person : Person B y) (answers : Answers ext B y x act)
    (reports : Reports ext B y x act) : Watched ext A B' x p y forth (back ++ new) := by
  cases h with
  | waiting entered mail waits sender body => exact .waiting entered mail waits sender body
  | requesting holds stage =>
      rcases stage.other doc turned next up' person answers with stage' | telling
      · exact .requesting holds stage'
      · exact .reporting (.telling holds telling)
  | reporting stage =>
      exact .reporting (stage.other doc up up' turned next emitted person reports)

end Turns

section Chunks
variable {ε : Type} {ext : Externals ε} {A A' B B' L R R' : Node} {x p y : InstanceId}
  {frames forth back : List (Frame UInt8 ProtocolMessage)} {count : Nat}

/-- While the frames of a chunk are dispatched, one without a payload waits among them or
has done what it does. -/
theorem InFlight.dispatches (doc : Documented ext.cbor) {msg : ProtocolMessage} {D : Node → Prop}
    (h : InFlight ext L R frames) (up : Up R)
    (next : R.step ext (.arrive (L.outgoing.take count)) = some R') (up' : Up R')
    (simple : msg.payload? = none)
    (dispatch : ∀ {n n'}, Feeds R n → Up n → dispatchMessage ext n msg = (n', none) → D n')
    (keep : ∀ {n n'}, Passes none none n n' → D n → D n')
    (start : (∃ f ∈ frames, f.2 = msg) ∨ D R) :
    ∃ rest, InFlight ext { L with outgoing := L.outgoing.drop count } R' rest ∧ Feeds R R' ∧
      R'.outgoing = R.outgoing ∧ ((∃ f ∈ rest, f.2 = msg) ∨ D R') := by
  let Q (n : Node) (frames : List (Frame UInt8 ProtocolMessage)) : Prop :=
    Feeds R n ∧ Up n ∧ ((∃ f ∈ frames, f.2 = msg) ∨ D n)
  have buffered {n : Node} {frames : List (Frame UInt8 ProtocolMessage)} (buf : Bytes)
      (kept : Q n frames) : Q { n with accumulator := buf } frames := by
    obtain ⟨feeds, up, stage⟩ := kept
    have same : Passes none none n { n with accumulator := buf } := .of_fields rfl rfl
    exact ⟨feeds.trans ⟨same, fun _ _ => id⟩, up_fed.buffered buf up, stage.imp id (keep same)⟩
  have dispatched {n n' : Node} {f : Frame UInt8 ProtocolMessage}
      {rest : List (Frame UInt8 ProtocolMessage)} {msg' : ProtocolMessage} (kept : Q n (f :: rest))
      (decoded : (∀ x ∈ f.2.payload?, WellFormed x) → msg' = f.2)
      (outcome : dispatchMessage ext { n with framesIn := n.framesIn ++ [msg'] } msg' = (n', none))
      (bound : n'.next < 2 ^ 64) : Q n' rest := by
    obtain ⟨feeds, up, stage⟩ := kept
    have same : Passes none none n { n with framesIn := n.framesIn ++ [msg'] } := .of_fields rfl rfl
    have feeds' := feeds.trans ⟨same, fun _ _ => id⟩
    have up' := up_fed.dispatched msg' up
    have fed := Feeds.dispatchMessage ext up'.1 msg'
    have after (small : (dispatchMessage ext { n with framesIn := n.framesIn ++ [msg'] }
        msg').1.next < 2 ^ 64) := up_fed.dispatchMessage msg' up' small
    rw [outcome] at fed after
    refine ⟨feeds'.trans (fed bound), after bound, ?_⟩
    rcases stage with ⟨g, member, eq⟩ | done
    · rcases List.mem_cons.mp member with rfl | later
      · have whole : msg' = msg := by
          refine (decoded ?_).trans eq
          rw [eq, simple]
          exact nofun
        subst whole
        exact .inr (dispatch feeds' up' outcome)
      · exact .inl ⟨g, later, eq⟩
    · exact .inr (keep (same.trans (fed bound).passes) done)
  obtain ⟨rest, inFlight, ⟨feeds, -, stage⟩, outgoing⟩ := h.arrive doc (Q := Q) up.1 next up'.2.1
    up'.2.2 ⟨.refl R, up, start⟩ buffered
    (fun kept _ _ decoded outcome bound => dispatched kept decoded outcome bound)
  exact ⟨rest, inFlight, feeds, outgoing, stage⟩

/-- Both sides are up, and the frames on the way between them are these. -/
structure Wired (ext : Externals ε) (A B : Node) (forth back : List (Frame UInt8 ProtocolMessage)) :
    Prop where
  up : Up A
  up' : Up B
  forth : InFlight ext A B forth
  back : InFlight ext B A back

theorem Wired.symm (h : Wired ext A B forth back) : Wired ext B A back forth :=
  ⟨h.up', h.up, h.back, h.forth⟩

theorem Wired.act {act : Action} (h : Wired ext A B forth back) (own : act.isArrive = false)
    (next : A.step ext act = some A') (up : Up A') :
    ∃ new, Emitted ext A A' new ∧ Wired ext A' B (forth ++ new) back := by
  obtain ⟨new, emitted⟩ := step_emits h.up.1 own next
  exact ⟨new, emitted, up, h.up', h.forth.emitted emitted, h.back.sender rfl emitted.accumulator⟩

/-- A side after some of what it has written has arrived. -/
def Node.written (n : Node) (count : Nat) : Node := { n with outgoing := n.outgoing.drop count }

theorem Up.written (h : Up A) (count : Nat) : Up (A.written count) :=
  ⟨h.1.of_fields rfl rfl rfl fun _ => id, h.2⟩

/-- A chunk arrives while a frame without a payload is on the way. -/
theorem Wired.carries (doc : Documented ext.cbor) {msg : ProtocolMessage} {D : Node → Prop}
    (h : Wired ext A B forth back) (next : B.step ext (.arrive (A.outgoing.take count)) = some B')
    (up : Up B') (simple : msg.payload? = none)
    (dispatch : ∀ {n n'}, Feeds B n → Up n → dispatchMessage ext n msg = (n', none) → D n')
    (keep : ∀ {n n'}, Passes none none n n' → D n → D n')
    (start : (∃ f ∈ forth, f.2 = msg) ∨ D B) :
    ∃ rest, Wired ext (A.written count) B' rest back ∧ Feeds B B' ∧
      ((∃ f ∈ rest, f.2 = msg) ∨ D B') := by
  obtain ⟨rest, inFlight, feeds, outgoing, stage⟩ :=
    h.forth.dispatches doc h.up' next up simple dispatch keep start
  exact ⟨rest, ⟨h.up.written count, up, inFlight, h.back.sender outgoing rfl⟩, feeds, stage⟩

theorem Wired.chunk (doc : Documented ext.cbor) (h : Wired ext A B forth back)
    (next : B.step ext (.arrive (A.outgoing.take count)) = some B') (up : Up B') :
    ∃ rest, Wired ext (A.written count) B' rest back ∧ Feeds B B' := by
  have simple : (ProtocolMessage.link ⟨0⟩ ⟨0⟩).payload? = none := rfl
  obtain ⟨rest, wired, feeds, -⟩ := h.carries doc (D := fun _ => True) next up simple
    (fun _ _ _ => trivial) (fun _ _ => trivial) (.inr trivial)
  exact ⟨rest, wired, feeds⟩

/-- Some of what the asking side has written arrives. -/
theorem Requesting.arrives (doc : Selective ext.cbor) (h : Requesting ext A B x y forth)
    (wired : Wired ext A B forth back)
    (next : B.step ext (.arrive (A.outgoing.take count)) = some B') (up : Up B') :
    ∃ rest, Wired ext (A.written count) B' rest back ∧
      Requesting ext (A.written count) B' x y rest := by
  have plain := wired.chunk doc.toDocumented next up
  cases h with
  | asked mail waits body =>
      obtain ⟨rest, wired, -⟩ := plain
      exact ⟨rest, wired, .asked mail waits body⟩
  | sent f member msg =>
      obtain ⟨rest, wired, -, ⟨g, member, msg⟩ | notified⟩ :=
        wired.carries doc.toDocumented (D := Notified ext x y) next up rfl
          (fun _ up dispatched => dispatches_link doc up dispatched)
          (fun passes h => Notified.passes h passes) (.inl ⟨f, member, msg⟩)
      · exact ⟨rest, wired, .sent g member msg⟩
      · exact ⟨rest, wired, .notified notified⟩
  | notified notified =>
      obtain ⟨rest, wired, feeds⟩ := plain
      exact ⟨rest, wired, .notified (notified.passes feeds.passes)⟩
  | linking q kind mail waits sender body =>
      obtain ⟨rest, wired, feeds⟩ := plain
      exact ⟨rest, wired, .linking q (feeds.passes.kind q _ kind) mail
        (feeds.passes.mailbox y mail waits) sender body⟩

theorem Telling.fed (h : Telling ext A B x p y back) (passes : Passes none none B B') :
    Telling ext (A.written count) B' x p y back := by
  cases h with
  | linked q kind link alive =>
      exact .linked q (passes.kind q _ kind) (passes.links y _ link) (passes.stays alive)
  | left q kind reason small mail waits sender body =>
      exact .left q (passes.kind q _ kind) reason small mail (passes.mailbox q mail waits) sender
        body
  | asked reason small mail waits body =>
      exact .asked reason small mail (passes.endpoint ▸ passes.mailbox _ mail waits) body
  | sent reason small f member msg => exact .sent reason small f member msg
  | informed reason small informed => exact .informed reason small informed

/-- Some of what the other side has written arrives. -/
theorem Telling.arrives (doc : Selective ext.cbor) (h : Telling ext A B x p y back)
    (holds : Holds A x p y) (wired : Wired ext A B forth back)
    (next : A.step ext (.arrive (B.outgoing.take count)) = some A') (up : Up A') :
    ∃ rest, Wired ext A' (B.written count) forth rest ∧ Passes none none A A' ∧
      Holds A' x p y ∧ Telling ext A' (B.written count) x p y rest := by
  have held (feeds : Feeds A A') : Holds A' x p y :=
    ⟨feeds.passes.stays holds.alive, feeds.entries _ _ holds.entry,
      feeds.passes.links p _ holds.link⟩
  have plain := wired.symm.chunk doc.toDocumented next up
  cases h with
  | linked q kind link alive =>
      obtain ⟨rest, wired, feeds⟩ := plain
      exact ⟨rest, wired.symm, feeds.passes, held feeds, .linked q kind link alive⟩
  | left q kind reason small mail waits sender body =>
      obtain ⟨rest, wired, feeds⟩ := plain
      exact ⟨rest, wired.symm, feeds.passes, held feeds,
        .left q kind reason small mail waits sender body⟩
  | asked reason small mail waits body =>
      obtain ⟨rest, wired, feeds⟩ := plain
      exact ⟨rest, wired.symm, feeds.passes, held feeds, .asked reason small mail waits body⟩
  | sent reason small f member msg =>
      obtain ⟨rest, wired, feeds, ⟨g, member, msg⟩ | informed⟩ :=
        wired.symm.carries doc.toDocumented (D := Informed A.endpoint p reason) next up rfl
          (fun feeds _ dispatched => feeds.passes.endpoint ▸
            dispatches_exit doc.toDocumented (feeds.entries _ _ holds.entry)
              (feeds.passes.stays holds.alive) dispatched)
          (fun passes h => Informed.passes h passes) (.inl ⟨f, member, msg⟩)
      · exact ⟨rest, wired.symm, feeds.passes, held feeds, .sent reason small g member msg⟩
      · exact ⟨rest, wired.symm, feeds.passes, held feeds,
          .informed reason small (feeds.passes.endpoint.symm ▸ informed)⟩
  | informed reason small informed =>
      obtain ⟨rest, wired, feeds⟩ := plain
      exact ⟨rest, wired.symm, feeds.passes, held feeds,
        .informed reason small (feeds.passes.endpoint.symm ▸ informed.passes feeds.passes)⟩

theorem Reporting.fed (h : Reporting ext A B x p y back) (passes : Passes none none B B') :
    Reporting ext (A.written count) B' x p y back := by
  cases h with
  | settled settled => exact .settled settled
  | telling holds stage =>
      exact .telling ⟨holds.alive, holds.entry, holds.link⟩ (stage.fed passes)

theorem Reporting.arrives (doc : Selective ext.cbor) (h : Reporting ext A B x p y back)
    (wired : Wired ext A B forth back)
    (next : A.step ext (.arrive (B.outgoing.take count)) = some A') (up : Up A') :
    ∃ rest, Wired ext A' (B.written count) forth rest ∧
      Reporting ext A' (B.written count) x p y rest := by
  cases h with
  | settled settled =>
      obtain ⟨rest, wired, feeds⟩ := wired.symm.chunk doc.toDocumented next up
      exact ⟨rest, wired.symm, .settled (settled.passes feeds.passes)⟩
  | telling holds stage =>
      obtain ⟨rest, wired, -, holds, stage⟩ := stage.arrives doc holds wired next up
      exact ⟨rest, wired, .telling holds stage⟩

/-- Some of what the asking side has written arrives. -/
theorem Watched.feeds (doc : Selective ext.cbor) (h : Watched ext A B x p y forth back)
    (wired : Wired ext A B forth back)
    (next : B.step ext (.arrive (A.outgoing.take count)) = some B') (up : Up B') :
    ∃ rest, Wired ext (A.written count) B' rest back ∧
      Watched ext (A.written count) B' x p y rest back := by
  have plain := wired.chunk doc.toDocumented next up
  cases h with
  | waiting entered mail waits sender body =>
      obtain ⟨rest, wired, -⟩ := plain
      exact ⟨rest, wired, .waiting entered mail waits sender body⟩
  | requesting holds stage =>
      obtain ⟨rest, wired, stage⟩ := stage.arrives doc wired next up
      exact ⟨rest, wired, .requesting ⟨holds.alive, holds.entry, holds.link⟩ stage⟩
  | reporting stage =>
      obtain ⟨rest, wired, feeds⟩ := plain
      exact ⟨rest, wired, .reporting (stage.fed feeds.passes)⟩

/-- Some of what the other side has written arrives. -/
theorem Watched.arrives (doc : Selective ext.cbor) (h : Watched ext A B x p y forth back)
    (wired : Wired ext A B forth back)
    (next : A.step ext (.arrive (B.outgoing.take count)) = some A') (up : Up A') :
    ∃ rest, Wired ext A' (B.written count) forth rest ∧
      Watched ext A' (B.written count) x p y forth rest := by
  obtain ⟨rest, wired', feeds⟩ := wired.symm.chunk doc.toDocumented next up
  cases h with
  | waiting entered mail waits sender body =>
      have entered' := entered_step wired.up.1 entered (.arrive _ _ _ _) next up.2.1
      have waits' := feeds.passes.mailbox p mail waits
      exact ⟨rest, wired'.symm, .waiting entered' mail waits' sender body⟩
  | requesting holds stage =>
      refine ⟨rest, wired'.symm, .requesting ⟨feeds.passes.stays holds.alive,
        feeds.entries _ _ holds.entry, feeds.passes.links p _ holds.link⟩ ?_⟩
      cases stage with
      | asked mail waits body =>
          exact .asked mail (feeds.passes.endpoint ▸ feeds.passes.mailbox _ mail waits) body
      | sent f member msg => exact .sent f member msg
      | notified notified => exact .notified notified
      | linking q kind mail waits sender body => exact .linking q kind mail waits sender body
  | reporting stage =>
      obtain ⟨rest, wired, stage⟩ := stage.arrives doc wired next up
      exact ⟨rest, wired, .reporting stage⟩

end Chunks

end Thespian.Remote
