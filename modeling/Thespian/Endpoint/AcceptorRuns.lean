import Thespian.Endpoint.Acceptor

/-!
What becomes of the connections that an acceptor accepts. The executor has one operation at
a time, and each descriptor is with the executor, with an actor of its own, or closed, but
for two cases: no actor can be spawned for it, or the acceptor is closed while its handler
waits.
-/

namespace Thespian.Endpoint
open Cbor Transition Thespian.Runtime
namespace Acceptor

/-- The descriptor in the executor's socket. -/
def held (a : Acceptor) : List Int :=
  match a.accept with
  | .accepted fd => [fd.toInt]
  | _ => []

/-- The message is one with a new connection, whoever made it. -/
def Accepting (a : Acceptor) (m : Bytes) : Prop :=
  Recognised m (a.eventPattern (text "accept") [.extract (.int .signedInt) 0])

section Matching
variable {a : Acceptor} {m name : Bytes} {parms : List Value}

theorem acceptorTag_length (transport : Transport) : transport.acceptorTag.length < 2 ^ 63 := by
  cases transport <;> decide

theorem not_accepting_event (short : name.length < 2 ^ 63)
    (sized : ∀ v ∈ parms, v.Sized (2 ^ 63)) (few : parms.length ≤ 2)
    (other : name ≠ text "accept") : ¬a.Accepting (a.event name parms) := by
  apply report_not_recognised (by decide) (acceptorTag_length _) short sized few _ other
  simp [Pattern.isFlat]

theorem accepting_event (fd : Int32) :
    ∃ ws, matchBuffer (a.event (text "accept") [.int fd.toInt64])
      (a.eventPattern (text "accept") [.extract (.int .signedInt) 0]) = .ok (true, ws) ∧
      boundInt ws 0 = fd.toInt :=
  report_fd (by decide) (acceptorTag_length _) (by decide) fd

/-- What a message that is not about a new connection can do to the acceptor. -/
inductive Effect (a : Acceptor) (aborted : ErrorCode) (m : Bytes) :
    Except DomainError (Acceptor × Outcome) → Prop
  | threw {e : DomainError} : Effect a aborted m (.error e)
  | answered {sent : List (Handle × Bytes)} {o : Outcome} :
      Effect a aborted m (.ok ({ a with sent }, o))
  | closed (exit : isExitMsg m = .ok true) : Effect a aborted m (.ok (a.close aborted, .ok))

variable {aborted : ErrorCode}

theorem Effect.same {o : Outcome} : Effect a aborted m (.ok (a, o)) :=
  @answered a aborted m a.sent o

/-- One round of the chain of patterns. -/
theorem Effect.round {p : Patterns} {f : Bool × Writes → Except DomainError (Acceptor × Outcome)}
    (matched : ∀ ws, matchBuffer m p = .ok (true, ws) → Effect a aborted m (f (true, ws)))
    (other : ∀ ws, Effect a aborted m (f (false, ws))) :
    Effect a aborted m (matchBuffer m p >>= f) := by
  cases run : matchBuffer m p with
  | error e => exact .threw
  | ok r =>
      obtain ⟨hit, ws⟩ := r
      cases hit with
      | true => exact matched ws run
      | false => exact other ws

theorem Effect.reply (answers : Answers) (refs : Bytes) (sender : Handle) (answer : Bytes) :
    Effect a aborted m (.ok (a.reply answers refs sender answer)) := by
  unfold Acceptor.reply
  split
  · exact .answered
  · exact .same

theorem receive_effect (toChars : Float → Bytes) (refs : Bytes) (answers : Answers)
    (sender : Handle) (other : ¬a.Accepting m) :
    Effect a aborted m (a.receive toChars refs aborted answers sender m) := by
  rw [receive]
  refine .round (fun ws run => absurd (congrArg (Except.map Prod.fst) run) other) fun _ => ?_
  refine .round (fun ws _ => .same) fun _ => ?_
  refine .round (fun ws _ => .same) fun _ => ?_
  refine .round (fun ws _ => .reply answers refs sender _) fun _ => ?_
  refine .round (fun ws _ => .reply answers refs sender _) fun _ => ?_
  refine .round (fun ws run => .closed ?_) fun _ => ?_
  · exact congrArg (Except.map Prod.fst) run
  · cases toJson toChars m with
    | error e => exact .threw
    | ok json => exact .same

/-- A new connection has an actor started for it. -/
theorem receive_accept (toChars : Float → Bytes) (refs : Bytes) (answers : Answers)
    (sender : Handle) (fd : Int32) :
    a.receive toChars refs aborted answers sender (a.event (text "accept") [.int fd.toInt64]) =
      .ok (a.startConnection answers fd.toInt, .ok) := by
  obtain ⟨ws, matched, bound⟩ := @accepting_event a fd
  rw [receive, matched]
  simp [bind, Except.bind, pure, Except.pure, bound]

end Matching

/-- What the descriptors rely on. -/
structure Balanced (a : Acceptor) : Prop where
  ledger : ∀ fd, a.accepted.count fd =
    a.started.count fd + a.closed.count fd + a.lost.count fd + a.held.count fd
  single : a.fault = false
  gone : a.alive = false → a.accept = .none
  shutdown : a.inShutdown = true → a.alive = false
  mail : ∀ p ∈ a.mailbox, ¬a.Accepting p.2

/-- No one but the acceptor makes a message with a new connection. -/
def Genuine (a : Acceptor) : AcceptorAction → Prop
  | .post _ m => ¬a.Accepting m
  | _ => True

instance decidableGenuine (a : Acceptor) :
    (action : AcceptorAction) → Decidable (a.Genuine action)
  | .post _ _ => inferInstanceAs (Decidable ¬_ = Except.ok true)
  | .connect _ | .fail _ | .handle _ | .deliver _ => .isTrue trivial

/-- A connection that waits for its handler is not overtaken by the end of the acceptor, and
an actor can be spawned for it. -/
def Settled (a : Acceptor) : AcceptorAction → Prop
  | .handle answers => a.held ≠ [] → answers.spawns = true
  | .deliver _ => ∀ p ∈ a.mailbox.head?, isExitMsg p.2 = .ok true → a.held = []
  | _ => True

instance decidableSettled (a : Acceptor) :
    (action : AcceptorAction) → Decidable (a.Settled action)
  | .handle answers => inferInstanceAs (Decidable (a.held ≠ [] → answers.spawns = true))
  | .deliver _ => inferInstanceAs (Decidable (∀ p ∈ a.mailbox.head?, _ → a.held = []))
  | .post _ _ | .connect _ | .fail _ => .isTrue trivial

/-- As long as the acceptor is not closed with a connection waiting, none is lost. -/
structure Kept (a : Acceptor) : Prop where
  lost : a.lost = []
  closed : a.isOpen = false → a.held = [] ∧ a.accept ≠ .pending

section Runs
variable {toChars : Float → Bytes} {refs : Bytes} {aborted : ErrorCode} {a a' : Acceptor}

theorem balanced_destroy (h : a.Balanced) : a.destroy.Balanced := by
  obtain ⟨ledger, single, gone, shutdown, mail⟩ := h
  unfold destroy
  split
  next fd accepted =>
    refine ⟨?_, single, fun _ => rfl, fun _ => rfl, mail⟩
    intro fd'
    have count := ledger fd'
    simp only [held, accepted] at count ⊢
    rw [List.count_append]
    simp only [List.count_nil]
    omega
  next other =>
    refine ⟨?_, single, fun _ => rfl, fun _ => rfl, mail⟩
    intro fd'
    have count := ledger fd'
    have none : a.held = [] := by
      unfold held
      split
      next fd accepted => exact absurd accepted (other fd)
      next => rfl
    rw [none] at count
    exact count

theorem balanced_handleExit (h : a.Balanced) (m : Bytes) : (a.handleExit m).Balanced := by
  obtain ⟨ledger, single, gone, shutdown, mail⟩ := balanced_destroy h
  have dead : a.destroy.alive = false := by
    unfold destroy
    split <;> rfl
  exact ⟨ledger, single, gone, fun _ => dead, mail⟩

/-- What the acceptor sends to its actor is never about a new connection. -/
theorem balanced_tell (h : a.Balanced) {m : Bytes} (other : ¬a.Accepting m) :
    (a.tell m).Balanced := by
  obtain ⟨ledger, single, gone, shutdown, mail⟩ := h
  unfold tell
  split
  · exact ⟨ledger, single, gone, shutdown, mail⟩
  · refine ⟨ledger, single, gone, shutdown, ?_⟩
    intro p member
    rcases List.mem_append.mp member with old | new
    · exact mail p old
    · cases List.mem_singleton.mp new
      exact other

theorem not_accepting_closed : ¬a.Accepting (a.event (text "closed") []) :=
  not_accepting_event (by decide) (by simp) (by simp) (by decide)

theorem not_accepting_error (ec : ErrorCode) :
    ¬a.Accepting (a.event (text "error") [.int ec.value.toInt64, .string ec.message]) := by
  apply not_accepting_event (by decide) _ (by simp) (by decide)
  simp only [List.forall_mem_cons]
  exact ⟨trivial, ec.sized, by simp⟩

theorem balanced_close (h : a.Balanced) : (a.close aborted).Balanced := by
  have abort : Balanced
      (if a.accept = .pending then { a with accept := .failed aborted } else a) := by
    split
    next pending =>
      obtain ⟨ledger, single, gone, shutdown, mail⟩ := h
      refine ⟨?_, single, ?_, shutdown, mail⟩
      · intro fd
        have count := ledger fd
        simpa [held, pending] using count
      · intro dead
        exact absurd (pending.symm.trans (gone dead)) (by decide)
    next => exact h
  obtain ⟨ledger, single, gone, shutdown, mail⟩ := balanced_tell abort not_accepting_closed
  exact ⟨ledger, single, gone, shutdown, mail⟩

/-- A message that is not about a new connection. -/
theorem balanced_run (h : a.Balanced) (answers : Answers) (sender : Handle) {m : Bytes}
    (other : ¬a.Accepting m) : (a.run toChars refs aborted answers sender m).Balanced := by
  unfold run
  split
  · exact h
  · split
    · exact h
    · have effect : Effect a aborted m (a.receive toChars refs aborted answers sender m) :=
        receive_effect toChars refs answers sender other
      generalize a.receive toChars refs aborted answers sender m = r at effect ⊢
      cases effect with
      | threw => exact balanced_handleExit h _
      | @answered sent o =>
          have same : Balanced { a with sent } := ⟨h.ledger, h.single, h.gone, h.shutdown, h.mail⟩
          cases o with
          | ok => exact same
          | exit e => exact balanced_handleExit same e
      | closed => exact balanced_close h

/-- A new connection is given to its actor, or is lost when none can be spawned. -/
theorem run_accept (answers : Answers) (sender : Handle) (fd : Int32) (up : a.inShutdown = false) :
    a.run toChars refs aborted answers sender (a.event (text "accept") [.int fd.toInt64]) =
      a.startConnection answers fd.toInt := by
  have link : isLinkMsg (a.event (text "accept") [.int fd.toInt64]) = false :=
    report_not_link (by simp)
  rw [run, link, if_neg (by decide), up, if_neg (by decide), receive_accept]

theorem Balanced.up (h : a.Balanced) (busy : a.accept ≠ .none) :
    a.alive = true ∧ a.inShutdown = false := by
  have alive : a.alive = true := by
    cases up : a.alive with
    | true => rfl
    | false => exact absurd (h.gone up) busy
  refine ⟨alive, ?_⟩
  cases down : a.inShutdown with
  | true => cases alive.symm.trans (h.shutdown down)
  | false => rfl

/-- The handler takes the descriptor from the executor's socket and passes it on. -/
theorem balanced_taken (h : a.Balanced) {fd : Int32} (held' : a.accept = .accepted fd)
    {accept : Accept} {started lost : List Int} (empty : accept = .none ∨ accept = .pending)
    (passed : ∀ fd', started.count fd' + lost.count fd' =
      a.started.count fd' + a.lost.count fd' + [fd.toInt].count fd') :
    Balanced { a with accept, started, lost } := by
  have up := h.up (by simp [held'])
  refine ⟨?_, h.single, ?_, h.shutdown, h.mail⟩
  · intro fd'
    have count := h.ledger fd'
    have taken := passed fd'
    simp only [held, held'] at count
    have none : held { a with accept, started, lost } = [] := by
      rcases empty with rfl | rfl <;> rfl
    rw [none]
    simp only [List.count_nil]
    omega
  · intro dead
    cases dead.symm.trans up.1

theorem balanced_startConnection (h : a.Balanced) {fd : Int32}
    (accepted : a.accept = .accepted fd) (answers : Answers) :
    ({ a with accept := .pending }.startConnection answers fd.toInt).Balanced := by
  unfold startConnection
  split
  · apply balanced_taken h accepted (.inr rfl)
    intro fd'
    simp only [List.count_append]
    omega
  · apply balanced_taken h accepted (.inr rfl)
    intro fd'
    simp only [List.count_append]
    omega

/-- A waiting connection goes to its actor and the loop goes on, or the acceptor is closed
and nobody gets it. -/
theorem handleAccept_accepted {fd : Int32} (accepted : a.accept = .accepted fd)
    (alive : a.alive = true) (up : a.inShutdown = false) (answers : Answers) :
    a.handleAccept toChars refs aborted answers =
      some (if a.isOpen then { a with accept := .pending }.startConnection answers fd.toInt
        else { a with accept := .none, lost := a.lost ++ [fd.toInt] }) := by
  have passed : run toChars refs aborted { a with accept := .none } answers Option.none
      (event { a with accept := .none } (text "accept") [.int fd.toInt64]) =
        startConnection { a with accept := .none } answers fd.toInt :=
    run_accept answers Option.none fd up
  rw [handleAccept, accepted]
  cases opened : a.isOpen with
  | false => rfl
  | true =>
      have dispatched : dispatchSync toChars refs aborted { a with accept := .none } answers
          (event { a with accept := .none } (text "accept") [.int fd.toInt64]) =
            startConnection { a with accept := .none } answers fd.toInt := by
        rw [dispatchSync, if_neg (by simp [up]), passed]
      simp only [opened] at dispatched
      simp only [Bool.not_true, Bool.false_eq_true, if_false, if_true, dispatched]
      cases spawns : answers.spawns <;> simp [startConnection, spawns, alive, startAccept]

theorem balanced_handleAccept (h : a.Balanced) (answers : Answers)
    (next : a.handleAccept toChars refs aborted answers = some a') : a'.Balanced := by
  cases accept : a.accept with
  | none =>
      rw [handleAccept, accept] at next
      cases next
  | pending =>
      rw [handleAccept, accept] at next
      cases next
  | failed ec =>
      have idle : Balanced { a with accept := .none } := by
        obtain ⟨ledger, single, gone, shutdown, mail⟩ := h
        refine ⟨?_, single, fun _ => rfl, shutdown, mail⟩
        intro fd
        have count := ledger fd
        simpa [held, accept] using count
      rw [handleAccept, accept] at next
      dsimp only at next
      split at next <;> cases next
      · exact idle
      · unfold dispatchSync
        split
        · exact idle
        · exact balanced_run idle answers _
            (@not_accepting_error { a with accept := .none } ec)
  | accepted fd =>
      obtain ⟨alive, up⟩ := h.up (by simp [accept])
      rw [handleAccept_accepted accept alive up] at next
      cases next
      split
      · exact balanced_startConnection h accept answers
      · apply balanced_taken h accept (.inl rfl)
        intro fd'
        rw [List.count_append, Nat.add_assoc]

theorem balanced_step (h : a.Balanced) {action : AcceptorAction} (genuine : a.Genuine action)
    (next : a.step toChars refs aborted action = some a') : a'.Balanced := by
  cases action with
  | post sender m =>
      rw [step] at next
      split at next <;> cases next
      · exact h
      · refine ⟨h.ledger, h.single, h.gone, h.shutdown, ?_⟩
        intro p member
        rcases List.mem_append.mp member with old | new
        · exact h.mail p old
        · cases List.mem_singleton.mp new
          exact genuine
  | connect fd =>
      rw [step] at next
      split at next <;> cases next
      next pending =>
        have alive := (h.up (by simp [pending])).1
        refine ⟨?_, h.single, fun dead => ?_, h.shutdown, h.mail⟩
        · intro fd'
          have count := h.ledger fd'
          simp only [held, pending, List.count_nil] at count
          simp only [held, List.count_append]
          omega
        · cases dead.symm.trans alive
  | fail ec =>
      rw [step] at next
      split at next <;> cases next
      next pending =>
        have alive := (h.up (by simp [pending])).1
        refine ⟨?_, h.single, fun dead => ?_, h.shutdown, h.mail⟩
        · intro fd
          have count := h.ledger fd
          simpa [held, pending] using count
        · cases dead.symm.trans alive
  | handle answers => exact balanced_handleAccept h answers next
  | deliver answers =>
      rw [step] at next
      split at next <;> cases next
      next sender m rest mailbox =>
        have read : Balanced { a with mailbox := rest } := by
          refine ⟨h.ledger, h.single, h.gone, h.shutdown, fun p member => ?_⟩
          apply h.mail p
          rw [mailbox]
          exact List.mem_cons_of_mem _ member
        apply balanced_run read
        apply h.mail (sender, m)
        rw [mailbox]
        exact List.mem_cons_self

theorem balanced_listen (transport : Transport) (listening : Value) (failure : Option ErrorCode) :
    (listen transport listening failure).Balanced := by
  cases failure with
  | none =>
      refine ⟨fun fd => ?_, rfl, ?_, ?_, ?_⟩ <;> simp [listen, startAccept, held]
  | some ec =>
      apply balanced_tell _ (not_accepting_error ec)
      refine ⟨fun fd => ?_, rfl, ?_, ?_, ?_⟩ <;> simp [held]

theorem held_destroy :
    a.destroy.held = [] ∧ a.destroy.accept = .none ∧ a.destroy.lost = a.lost := by
  unfold destroy
  split <;> exact ⟨rfl, rfl, rfl⟩

theorem kept_destroy (h : a.Kept) (m : Bytes) : (a.handleExit m).Kept := by
  obtain ⟨held, none, lost⟩ := @held_destroy a
  refine ⟨lost.trans h.lost, fun _ => ⟨held, ?_⟩⟩
  simp [handleExit, none]

theorem kept_close (h : a.Kept) (empty : a.held = []) : (a.close aborted).Kept := by
  unfold close tell
  split
  next pending =>
    dsimp only
    split <;> exact ⟨h.lost, fun _ => ⟨rfl, by simp⟩⟩
  next other =>
    dsimp only
    split <;> exact ⟨h.lost, fun _ => ⟨empty, other⟩⟩

theorem kept_run (h : a.Kept) (answers : Answers) (sender : Handle) {m : Bytes}
    (other : ¬a.Accepting m) (settled : isExitMsg m = .ok true → a.held = []) :
    (a.run toChars refs aborted answers sender m).Kept := by
  unfold run
  split
  · exact h
  · split
    · exact h
    · have effect : Effect a aborted m (a.receive toChars refs aborted answers sender m) :=
        receive_effect toChars refs answers sender other
      generalize a.receive toChars refs aborted answers sender m = r at effect ⊢
      cases effect with
      | threw => exact kept_destroy h _
      | @answered sent o =>
          have same : Kept { a with sent } := ⟨h.lost, h.closed⟩
          cases o with
          | ok => exact same
          | exit e => exact kept_destroy same e
      | closed exit => exact kept_close h (settled exit)

theorem kept_handleAccept (h : a.Balanced) (kept : a.Kept) (answers : Answers)
    (spawns : a.held ≠ [] → answers.spawns = true)
    (next : a.handleAccept toChars refs aborted answers = some a') : a'.Kept := by
  cases accept : a.accept with
  | none =>
      rw [handleAccept, accept] at next
      cases next
  | pending =>
      rw [handleAccept, accept] at next
      cases next
  | failed ec =>
      have idle : Kept { a with accept := .none } := ⟨kept.lost, fun _ => ⟨rfl, by simp⟩⟩
      rw [handleAccept, accept] at next
      dsimp only at next
      split at next <;> cases next
      · exact idle
      · unfold dispatchSync
        split
        · exact idle
        · exact kept_run idle answers _
            (@not_accepting_error { a with accept := .none } ec) fun _ => rfl
  | accepted fd =>
      obtain ⟨alive, up⟩ := h.up (by simp [accept])
      have opened : a.isOpen = true := by
        cases closed : a.isOpen with
        | true => rfl
        | false =>
            have empty := (kept.closed closed).1
            simp [held, accept] at empty
      have started : answers.spawns = true := spawns (by simp [held, accept])
      rw [handleAccept_accepted accept alive up, if_pos opened, startConnection, if_pos started]
        at next
      cases next
      refine ⟨kept.lost, fun closed => ?_⟩
      cases closed.symm.trans opened

theorem kept_step (h : a.Balanced) (kept : a.Kept) {action : AcceptorAction}
    (settled : a.Settled action) (next : a.step toChars refs aborted action = some a') :
    a'.Kept := by
  cases action with
  | post sender m =>
      rw [step] at next
      split at next <;> cases next
      · exact kept
      · exact ⟨kept.lost, kept.closed⟩
  | connect fd =>
      rw [step] at next
      split at next <;> cases next
      next pending => exact ⟨kept.lost, fun closed => absurd pending (kept.closed closed).2⟩
  | fail ec =>
      rw [step] at next
      split at next <;> cases next
      next pending => exact ⟨kept.lost, fun closed => absurd pending (kept.closed closed).2⟩
  | handle answers => exact kept_handleAccept h kept answers settled next
  | deliver answers =>
      rw [step] at next
      split at next <;> cases next
      next sender m rest mailbox =>
        have read : Kept { a with mailbox := rest } := ⟨kept.lost, kept.closed⟩
        apply kept_run read
        · apply h.mail (sender, m)
          rw [mailbox]
          exact List.mem_cons_self
        · intro exit
          exact settled (sender, m) (by simp [mailbox]) exit

theorem kept_listen (transport : Transport) (listening : Value) (failure : Option ErrorCode) :
    (listen transport listening failure).Kept := by
  cases failure with
  | none => exact ⟨rfl, by simp [listen]⟩
  | some ec => exact ⟨rfl, fun _ => ⟨rfl, by simp [listen, tell]⟩⟩

/-- Every accepted descriptor is accounted for, and there is never a second operation. None
is lost as long as actors can be spawned and no exit overtakes a waiting connection. -/
theorem descriptors {transport : Transport} {listening : Value} {failure : Option ErrorCode}
    {actions : List AcceptorAction}
    (reached : Transition.run (step toChars refs aborted) (listen transport listening failure)
      actions = some a)
    (genuine : Along (step toChars refs aborted) Genuine (listen transport listening failure)
      actions) :
    (∀ fd, a.accepted.count fd =
      a.started.count fd + a.closed.count fd + a.lost.count fd + a.held.count fd) ∧
    a.fault = false ∧ (a.alive = false → a.accept = .none) ∧
    (Along (step toChars refs aborted) Settled (listen transport listening failure) actions →
      a.lost = []) := by
  have keeps : Keeps (step toChars refs aborted) Genuine Balanced :=
    fun _ _ _ h allowed next => balanced_step h allowed next
  have start := balanced_listen transport listening failure
  have balanced := keeps.run start genuine reached
  refine ⟨balanced.ledger, balanced.single, balanced.gone, ?_⟩
  intro settled
  have both : Keeps (step toChars refs aborted)
      (fun a action => a.Genuine action ∧ a.Settled action) (fun a => a.Balanced ∧ a.Kept) :=
    fun _ _ _ h allowed next => ⟨balanced_step h.1 allowed.1 next, kept_step h.1 h.2 allowed.2 next⟩
  have kept := both.run ⟨start, kept_listen transport listening failure⟩
    (along_and.mpr ⟨genuine, settled⟩) reached
  exact kept.2.lost

/-- A connection is given to an actor, the next one is accepted, and an exit ends it all. -/
def visit : List AcceptorAction :=
  [.connect 7, .handle ⟨true, true⟩, .connect 8, .handle ⟨true, true⟩,
    .post Option.none (exitMessage (text "normal")), .deliver ⟨true, true⟩, .handle ⟨true, true⟩,
    .deliver ⟨true, true⟩]

def canceled : ErrorCode := ⟨125, text "Operation canceled", by decide⟩

theorem descriptors_visited :
    ∃ a, Transition.run (step (fun _ => []) [] canceled) (listen .tcp (.int 4242) Option.none)
      visit = some a ∧ a.accepted = [7, 8] ∧ a.lost = [] ∧ a.accept = .none := by
  have checked : (Transition.run (step (fun _ => []) [] canceled)
      (listen .tcp (.int 4242) Option.none) visit).any
        (fun a => a.accepted = [7, 8] ∧ a.alive = false) = true := by
    decide +kernel
  obtain ⟨a, reached, checked⟩ := (Option.any_eq_true _ _).mp checked
  rw [decide_eq_true_eq] at checked
  obtain ⟨accepted, gone⟩ := checked
  obtain ⟨-, -, ended, settled⟩ := descriptors reached (by decide +kernel)
  exact ⟨a, reached, accepted, settled (by decide +kernel), ended gone⟩

/-- The connection that waits when the exit comes is neither started nor closed. -/
example : (Transition.run (step (fun _ => []) [] canceled)
    (listen .unx (.string (text "s")) Option.none)
    [.post Option.none (exitMessage (text "normal")), .connect 7, .deliver ⟨true, true⟩,
      .handle ⟨true, true⟩]).map (fun a => (a.started, a.closed, a.lost)) =
        some ([], [], [7]) := by
  decide +kernel

end Runs

end Acceptor

end Thespian.Endpoint
