import Thespian.Remote.LinkRuns
import Thespian.Remote.Delivery

/-!
Links across the connection report exits. Once an actor has asked its proxy for a link,
the link stands somewhere between that proxy and the remote actor in every state, as long
as whoever takes a mail of it is alive; when nothing is in flight any more, the remote
actor is alive, or its exit has been reported. A remote actor that exits before the
request reaches it is not reported: the request is dropped.
-/

namespace Thespian.Remote
open Decoding Decoding.Decoder Cbor Zig Transition

/-- No mail waits, and everything that was written has arrived. -/
structure Network.Quiet (w : Network) : Prop where
  left : ∀ a, w.left.mailbox a = []
  right : ∀ a, w.right.mailbox a = []
  outgoing : w.left.outgoing = []
  outgoing' : w.right.outgoing = []

/-- The actor on the left is linked with its proxy of the one on the right, whose proxy on
the right is linked with that one. -/
structure Established (w : Network) (x p y q : InstanceId) : Prop where
  kind : w.left.kindOf p = some (.proxy ⟨y⟩)
  link : some p ∈ w.left.linksOf x
  alive : w.left.isAlive x = true
  kind' : w.right.kindOf q = some (.proxy ⟨x⟩)
  link' : some y ∈ w.right.linksOf q
  alive' : w.right.isAlive q = true
  entry' : w.right.remoteProxies.lookup ⟨x⟩ = some q
  user' : ∃ trap, w.right.kindOf y = some (.user trap)

/-- The condition for the request of the left actor to the proxy, until it is told. -/
def Honours {ε : Type} (ext : Externals ε) (x p y : InstanceId) (w : Network) : NetworkAction → Prop
  | .left adv => Settled w.left x p ∨
      adv.Meets fun act => TakesRequest w.left x p act ∧ LeavesEntry ext w.left ⟨y⟩ p act
  | .right adv => Settled w.left x p ∨
      adv.Meets fun act => Answers ext w.right y x act ∧ Reports ext w.right y x act

/-- The condition for an established link to tell the right actor, until it is told. -/
def TellsBack {ε : Type} (ext : Externals ε) (x y q : InstanceId) (w : Network) :
    NetworkAction → Prop
  | .left adv => Settled w.right y q ∨ adv.Meets (Reports ext w.left x y)
  | .right adv => Settled w.right y q ∨ adv.Meets (LeavesEntry ext w.right ⟨x⟩ q)

section Runs
variable {ε : Type} {ext : Externals ε} {n n' A B : Node} {x p y : InstanceId} {w w' : Network}
  {forth back : List (Frame UInt8 ProtocolMessage)}

theorem person_of_user {trap : Bool} (user : n.kindOf x = some (.user trap)) : Person n x :=
  fun _ known => ⟨trap, Option.some.inj (known.symm.trans user)⟩

/-- When nothing is in flight, an established link has told the actor, or the other one is
alive. -/
theorem Telling.quiet (h : Telling ext A B x p y back) (wired : Wired ext A B forth back)
    (left : ∀ a, A.mailbox a = []) (right : ∀ a, B.mailbox a = []) (outgoing : B.outgoing = []) :
    B.isAlive y = true := by
  have nothing := wired.back.whole outgoing
  cases h with
  | linked q kind link alive => exact alive
  | left q kind reason small mail waits sender body =>
      rw [right q] at waits
      cases waits
  | asked reason small mail waits body =>
      rw [right B.endpoint] at waits
      cases waits
  | sent reason small f member msg =>
      rw [nothing] at member
      cases member
  | informed reason small informed =>
      obtain ⟨mail, waits, -⟩ := informed
      rw [left p] at waits
      cases waits

theorem Reporting.quiet (h : Reporting ext A B x p y back) (wired : Wired ext A B forth back)
    (left : ∀ a, A.mailbox a = []) (right : ∀ a, B.mailbox a = []) (outgoing : B.outgoing = []) :
    Settled A x p ∨ B.isAlive y = true := by
  cases h with
  | settled settled => exact .inl settled
  | telling holds stage => exact .inr (stage.quiet wired left right outgoing)

/-- Then a request has reached the other actor as well. -/
theorem Watched.quiet (h : Watched ext A B x p y forth back) (wired : Wired ext A B forth back)
    (left : ∀ a, A.mailbox a = []) (right : ∀ a, B.mailbox a = []) (outgoing : A.outgoing = [])
    (outgoing' : B.outgoing = []) : Settled A x p ∨ B.isAlive y = true := by
  have nothing := wired.forth.whole outgoing
  cases h with
  | waiting entered mail waits sender body =>
      rw [left p] at waits
      cases waits
  | requesting holds stage =>
      cases stage with
      | asked mail waits body =>
          rw [left A.endpoint] at waits
          cases waits
      | sent f member msg =>
          rw [nothing] at member
          cases member
      | notified notified =>
          obtain ⟨q, kind, mail, waits, -⟩ := notified
          rw [right q] at waits
          cases waits
      | linking q kind mail waits sender body =>
          rw [right y] at waits
          cases waits
  | reporting stage => exact stage.quiet wired left right outgoing'

/-- An actor asks a proxy that is alive for a link. -/
theorem link_waits (consistent : Consistent n) (kind : n.kindOf p = some (.proxy ⟨y⟩))
    (alive : n.isAlive p = true) (entry : n.remoteProxies.lookup ⟨y⟩ = some p)
    (next : n.step ext (.link x (some p)) = some n') (up : Up n') :
    (∃ trap, n'.kindOf x = some (.user trap)) ∧ n'.kindOf p = some (.proxy ⟨y⟩) ∧
      Watched ext n' B x p y forth back := by
  obtain ⟨-, performed, -⟩ := step_eq_some next
  simp only [Node.perform, Option.ite_none_right_eq_some, Option.some.injEq] at performed
  obtain ⟨user, rfl⟩ := performed
  obtain ⟨z, trap, known, isUser, -⟩ := isUser_iff.mp user
  have entered : Entered ⟨y⟩ p n := fun _ _ => entry
  have stays : LeavesEntry ext n ⟨y⟩ p (.link x (some p)) := by
    intro mail rest same
    cases same
  refine ⟨⟨trap, ?_⟩, kinds_step consistent next kind, ?_⟩
  · exact kinds_step consistent next (Node.kindOf_eq_some.mpr ⟨z, known, isUser⟩)
  · refine .waiting (entered_step consistent entered stays next up.2.1)
      ⟨some x, Runtime.linkMsg, .own⟩ ?_ rfl rfl
    obtain ⟨z', there, status⟩ := Node.isAlive_iff.mp alive
    rw [Node.link, Node.sendRaw_of_alive there status]
    exact (Passes.addLink _ x (some p)).mailbox p _ (mem_post there _)

/-- What an actor has asked for is reported to it. -/
theorem requested_reported (doc : Selective ext.cbor) {rest : List NetworkAction}
    (left : Consistent w.left) (right : Consistent w.right)
    (wired : Stands x y w → ∃ forth back, Wired ext w.left w.right forth back)
    (ran : run (Network.step ext) w (.left (.act (.link x (some p))) :: rest) = some w')
    (after : Stands x y w') (quiet : w'.Quiet) (kind : w.left.kindOf p = some (.proxy ⟨y⟩))
    (alive : w.left.isAlive p = true) (entry : w.left.remoteProxies.lookup ⟨y⟩ = some p)
    (along : Along (Network.step ext) (Honours ext x p y) w
      (.left (.act (.link x (some p))) :: rest))
    (gone : Gone y w'.right) : Settled w'.left x p := by
  obtain ⟨t, first, ran⟩ := run_cons ran
  obtain ⟨left', right'⟩ := network_step_consistent left right first
  have keeps (w : Network) (act : NetworkAction) (w' : Network) (met : Honours ext x p y w act)
      (before : Stands x y w) (after : Stands x y w') (next : w.step ext act = some w')
      (h : Linking ext x p y (fun A B => Watched ext A B x p y) w.left w.right) :
      Linking ext x p y (fun A B => Watched ext A B x p y) w'.left w'.right := by
    have stages := watched_stages doc x p y
    rcases network_step_eq_some next with ⟨adv, rfl, took⟩ | ⟨adv, rfl, took⟩
    · exact stages.here doc.toDocumented h took after.left after.right met
    · exact stages.there doc.toDocumented h took after.left after.right before.person' met
  have start (stands : Stands x y t) :
      Linking ext x p y (fun A B => Watched ext A B x p y) t.left t.right := by
    obtain ⟨forth, back, wired⟩ := wired (stands.before left right first)
    rcases network_step_eq_some first with ⟨adv, same, next⟩ | ⟨adv, same, -⟩
    · cases same
      obtain ⟨⟨forth', back', wired'⟩, -⟩ :=
        wired.advance doc.toDocumented next stands.left stands.right
      rcases advance_cases next with ⟨act, same, -, stepped, -⟩ | ⟨count, same, -⟩
      · cases same
        obtain ⟨user, kind, waits⟩ := link_waits left kind alive entry stepped stands.left
        exact ⟨user, kind, forth', back', wired', waits⟩
      · cases same
    · cases same
  obtain ⟨⟨-, -, forth, back, wired, stage⟩, -⟩ :=
    run_stands keeps left' right' (along.2 t first) ran after start
  have stage' := stage.quiet wired quiet.left quiet.right quiet.outgoing quiet.outgoing'
  exact stage'.resolve_right gone.not_alive

/-- An established link reports the exit of the actor that asked for it, too. -/
theorem established_reported (doc : Selective ext.cbor) {acts : List NetworkAction}
    {q : InstanceId} (left : Consistent w.left) (right : Consistent w.right)
    (wired : Stands x y w → ∃ forth back, Wired ext w.left w.right forth back)
    (ran : run (Network.step ext) w acts = some w') (after : Stands x y w') (quiet : w'.Quiet)
    (established : Established w x p y q)
    (along : Along (Network.step ext) (TellsBack ext x y q) w acts) (gone : Gone x w'.left) :
    Settled w'.right y q := by
  have keeps (w : Network) (act : NetworkAction) (w' : Network) (met : TellsBack ext x y q w act)
      (before : Stands x y w) (after : Stands x y w') (next : w.step ext act = some w')
      (h : Linking ext y q x (fun A B _ back => Reporting ext A B y q x back) w.right w.left) :
      Linking ext y q x (fun A B _ back => Reporting ext A B y q x back) w'.right w'.left := by
    have stages := reporting_stages doc y q x
    rcases network_step_eq_some next with ⟨adv, rfl, took⟩ | ⟨adv, rfl, took⟩
    · exact stages.there doc.toDocumented h took after.right after.left before.person met
    · exact stages.here doc.toDocumented h took after.right after.left met
  have start (stands : Stands x y w) :
      Linking ext y q x (fun A B _ back => Reporting ext A B y q x back) w.right w.left := by
    obtain ⟨forth, back, wired⟩ := wired stands
    have holds : Holds w.right y q x := ⟨established.alive', established.entry', established.link'⟩
    exact ⟨established.user', established.kind', back, forth, wired.symm,
      .telling holds (.linked p established.kind established.link established.alive)⟩
  obtain ⟨⟨-, -, back, forth, wired, stage⟩, -⟩ := run_stands keeps left right along ran after start
  have stage' := stage.quiet wired quiet.right quiet.left quiet.outgoing
  exact stage'.resolve_right gone.not_alive

end Runs

section Example
variable {n : Node} {w : Network} {a b p : InstanceId} {r : Rpiid} {act : Action}

def Node.idle (n : Node) : Bool :=
  n.outgoing = [] && (List.range n.next).all fun i => n.mailbox (UInt64.ofNat i) = []

theorem mailbox_of_idle (consistent : Consistent n) (h : n.idle = true) :
    (∀ a, n.mailbox a = []) ∧ n.outgoing = [] := by
  simp only [Node.idle, Bool.and_eq_true, decide_eq_true_eq, List.all_eq_true] at h
  refine ⟨fun a => ?_, h.1⟩
  cases known : n.actors a with
  | none => simp [Node.mailbox, known]
  | some x =>
      have empty := h.2 a.toNat (List.mem_range.mpr (consistent.bound a x known).2)
      rwa [UInt64.ofNat_toNat] at empty

theorem quiet_of_idle (left : Consistent w.left) (right : Consistent w.right)
    (h : w.left.idle = true ∧ w.right.idle = true) : w.Quiet := by
  obtain ⟨mailbox, outgoing⟩ := mailbox_of_idle left h.1
  obtain ⟨mailbox', outgoing'⟩ := mailbox_of_idle right h.2
  exact ⟨mailbox, mailbox', outgoing, outgoing'⟩

theorem gone_of_status {status : Status} (h : n.status (some a) = some status)
    (dead : status ≠ .alive) : Gone a n := by
  cases known : n.actors a with
  | none => simp [Node.status, known] at h
  | some x =>
      rw [Node.status_of_some known] at h
      cases h
      exact ⟨x, known, dead⟩

def takesRequestCheck (n : Node) (p : InstanceId) : Action → Bool
  | .turn c => c ≠ p || n.isAlive p
  | _ => true

def leavesEntryCheck (n : Node) (p : InstanceId) : Action → Bool
  | .turn c => c ≠ n.endpoint || !n.isAlive p || (n.mailbox n.endpoint).head?.all fun mail =>
      match EndpointMessage.classify lenient DomainError.what mail.body with
      | .ok (.proxyExit _) => false
      | _ => true
  | _ => true

def answersCheck (n : Node) (a : InstanceId) : Action → Bool
  | .turn c => (n.mailbox c).head?.all fun mail =>
      (mail.body ≠ setNotifyMessage lenient ⟨a⟩ || n.isAlive c && n.isAlive a) &&
        (c ≠ a || mail.body ≠ Runtime.linkMsg || n.isAlive a) &&
          (mail.sender ≠ some a || n.isAlive c)
  | _ => true

/-- The reason with which the actors here exit. -/
def bye : Bytes := exitText (text "bye")

def leavesCheck (n : Node) (a : InstanceId) (act : Action) : Bool :=
  (n.exitOf lenientExternals act).all fun (c, m) =>
    c ≠ a || m = bye && (n.linksOf a).all fun h => h.all n.isAlive

theorem takesRequest_of_check (h : takesRequestCheck n p act = true) : TakesRequest n a p act := by
  rintro mail rest rfl - - -
  simpa [takesRequestCheck] using h

theorem leavesEntry_of_check (h : leavesEntryCheck n p act = true) :
    LeavesEntry lenientExternals n r p act := by
  rintro mail rest rfl mailbox classified -
  have classified : EndpointMessage.classify lenient DomainError.what mail.body =
    .ok (.proxyExit r) := classified
  simpa [leavesEntryCheck, mailbox, classified] using h

theorem answers_of_check (h : answersCheck n a act = true) :
    Answers lenientExternals n a b act where
  notify := by
    rintro q mail rest rfl mailbox - body
    have body : mail.body = setNotifyMessage lenient ⟨a⟩ := body
    simp only [answersCheck, mailbox, body, List.head?_cons, Option.all_some, ne_eq, not_true,
      decide_false, Bool.false_or, Bool.and_eq_true] at h
    exact h.1.1
  link := by
    rintro q mail rest rfl mailbox - - body
    simp only [answersCheck, mailbox, body, List.head?_cons, Option.all_some, ne_eq, not_true,
      decide_false, Bool.false_or, Bool.and_eq_true] at h
    exact h.1.2

theorem reports_of_check (h : answersCheck n a act = true) (leaves : leavesCheck n a act = true) :
    Reports lenientExternals n a b act where
  leave := by
    intro m exits
    simp only [leavesCheck, exits, Option.all_some, ne_eq, not_true, decide_false, Bool.false_or,
      Bool.and_eq_true, decide_eq_true_eq, List.all_eq_true] at leaves
    refine ⟨⟨text "bye", by decide, leaves.1⟩, fun q _ linked => ?_⟩
    simpa using leaves.2 _ linked
  exit := by
    rintro q mail rest reason rfl mailbox - sender -
    simp only [answersCheck, mailbox, sender, List.head?_cons, Option.all_some, ne_eq, not_true,
      decide_false, Bool.false_or, Bool.and_eq_true] at h
    exact h.2

def honoursCheck (p y : InstanceId) (w : Network) : NetworkAction → Bool
  | .left (.act act) => takesRequestCheck w.left p act && leavesEntryCheck w.left p act
  | .right (.act act) => answersCheck w.right y act && leavesCheck w.right y act
  | _ => true

def tellsBackCheck (x q : InstanceId) (w : Network) : NetworkAction → Bool
  | .left (.act act) => answersCheck w.left x act && leavesCheck w.left x act
  | .right (.act act) => leavesEntryCheck w.right q act
  | _ => true

theorem honours_of_check {x y : InstanceId} {step : NetworkAction}
    (h : honoursCheck p y w step = true) : Honours lenientExternals x p y w step := by
  cases step with
  | left adv =>
      cases adv with
      | act act =>
          obtain ⟨request, entry⟩ := Bool.and_eq_true_iff.mp h
          exact .inr ⟨takesRequest_of_check request, leavesEntry_of_check entry⟩
      | chunk count => exact .inr trivial
  | right adv =>
      cases adv with
      | act act =>
          obtain ⟨answers, leaves⟩ := Bool.and_eq_true_iff.mp h
          exact .inr ⟨answers_of_check answers, reports_of_check answers leaves⟩
      | chunk count => exact .inr trivial

theorem tellsBack_of_check {x y q : InstanceId} {step : NetworkAction}
    (h : tellsBackCheck x q w step = true) : TellsBack lenientExternals x y q w step := by
  cases step with
  | left adv =>
      cases adv with
      | act act =>
          obtain ⟨answers, leaves⟩ := Bool.and_eq_true_iff.mp h
          exact .inr (reports_of_check answers leaves)
      | chunk count => exact .inr trivial
  | right adv =>
      cases adv with
      | act act => exact .inr (leavesEntry_of_check h)
      | chunk count => exact .inr trivial

/-- Actor 3 of the right side writes to actor 2 of the left one. -/
def introduces : List NetworkAction :=
  [.left (.act (.spawn (text "pong") true)), .right (.act (.spawn (text "other") true)),
    .right (.act (.spawn (text "ping") true)), .right (.act (.send 3 (some 1) pingNamed)),
    .right (.act (.turn 1)), .right (.chunk 100), .left (.act (.turn 3)), .left (.act (.turn 2))]

/-- Actor 2 links to the proxy that it was written from. -/
def joins : List NetworkAction :=
  [.left (.act (.link 2 (some 3))), .left (.act (.turn 3)), .left (.act (.turn 1)),
    .left (.chunk 100), .right (.act (.turn 4)), .right (.act (.turn 3))]

/-- Actor 3 exits. -/
def remoteLeaves : List NetworkAction :=
  [.right (.act (.quit 3 bye)), .right (.act (.turn 4)), .right (.act (.turn 1)),
    .right (.chunk 100), .left (.act (.turn 3)), .left (.act (.turn 1)), .left (.act (.turn 2))]

/-- Actor 2 exits. -/
def localLeaves : List NetworkAction :=
  [.left (.act (.quit 2 bye)), .left (.act (.turn 3)), .left (.act (.turn 1)), .left (.chunk 100),
    .right (.act (.turn 4)), .right (.act (.turn 1)), .right (.act (.turn 3))]

/-- Actor 3 exits while the request of actor 2 is on the way to it. -/
def leavesEarly : List NetworkAction :=
  [.left (.act (.link 2 (some 3))), .left (.act (.turn 3)), .left (.act (.turn 1)),
    .right (.act (.quit 3 bye)), .right (.act (.destroy 3)), .left (.chunk 100),
    .right (.act (.turn 4))]

/-- Both sides are at rest, with their endpoints up and the two actors there. -/
def Network.rests (w : Network) : Bool :=
  w.left.idle && w.right.idle && w.left.isAlive w.left.endpoint && !w.left.crashed &&
    w.right.isAlive w.right.endpoint && !w.right.crashed &&
      w.left.kindOf 2 = some (.user true) && w.right.kindOf 3 = some (.user true)

theorem rests_of_run {acts : List NetworkAction}
    (ran : run (Network.step lenientExternals) pingPongStart acts = some w) (h : w.rests = true) :
    w.Quiet ∧ (w.left.isAlive w.left.endpoint = true ∧ w.left.crashed = false) ∧
      (w.right.isAlive w.right.endpoint = true ∧ w.right.crashed = false) ∧
        w.left.kindOf 2 = some (.user true) ∧ w.right.kindOf 3 = some (.user true) := by
  obtain ⟨left, right⟩ := network_consistent (start_initial pongName) (start_initial noNames) ran
  simp only [Network.rests, Bool.and_eq_true, Bool.not_eq_true', decide_eq_true_eq] at h
  obtain ⟨⟨⟨⟨⟨⟨⟨idle, idle'⟩, alive⟩, running⟩, alive'⟩, running'⟩, user⟩, user'⟩ := h
  exact ⟨quiet_of_idle left right ⟨idle, idle'⟩, ⟨alive, running⟩, ⟨alive', running'⟩, user, user'⟩

/-- The proxy of actor 3 is alive and recorded. -/
def Network.standsIn (w : Network) : Bool :=
  w.left.kindOf 3 = some (.proxy ⟨3⟩) && w.left.isAlive 3 &&
    w.left.remoteProxies.lookup ⟨3⟩ = some 3

/-- Actor 2 is linked with it, and actor 3 with the proxy of actor 2. -/
def Network.joined (w : Network) : Bool :=
  w.left.kindOf 3 = some (.proxy ⟨3⟩) && (w.left.linksOf 2).contains (some 3) &&
    w.left.isAlive 2 && w.right.kindOf 4 = some (.proxy ⟨2⟩) &&
      (w.right.linksOf 4).contains (some 3) && w.right.isAlive 4 &&
        w.right.remoteProxies.lookup ⟨2⟩ = some 4 && w.right.kindOf 3 = some (.user true)

theorem established_of_joined (h : w.joined = true) : Established w 2 3 3 4 := by
  simp only [Network.joined, Bool.and_eq_true, decide_eq_true_eq, List.contains_iff_mem] at h
  obtain ⟨⟨⟨⟨⟨⟨⟨kind, link⟩, alive⟩, kind'⟩, link'⟩, alive'⟩, entry'⟩, person⟩ := h
  exact ⟨kind, link, alive, kind', link', alive', entry', true, person⟩

/-- No proxy has sent an exit message to an actor that has been sent a ping alone. -/
theorem not_exitWords_ping : ¬ ExitWords ping := by
  rintro ⟨count, rest, eq⟩
  obtain ⟨w, -, header⟩ := pushTypedVal_eq cborMagicTypeArray count
  rw [arrayHeader, header, Cbor.header, List.cons_append] at eq
  have tail : pushString (text "ping") = bigEndianBytes w.bytes count.toNat ++
      (pushString (text "exit") ++ rest) := (List.cons.inj eq).2
  generalize bigEndianBytes w.bytes count.toNat = more at tail
  have sizes : (pushString (text "ping")).length = 5 ∧ (pushString (text "exit")).length = 5 := by
    decide
  have lengths := congrArg List.length tail
  rw [List.length_append, List.length_append, sizes.1, sizes.2] at lengths
  have first : more = [] := List.eq_nil_of_length_eq_zero (by omega)
  have last : rest = [] := List.eq_nil_of_length_eq_zero (by omega)
  subst first last
  exact absurd tail (by decide)

end Example

end Thespian.Remote
