import Thespian.Runtime.Exits
import Thespian.Runtime.Messages

/-!
Actors terminate once. Handle_exit is entered from four places of run, one of
them a catch clause around the other three, so nothing in its own text keeps it
from running twice. While messages are rendered arrays and exit handlers return,
nothing that runs inside handle_exit throws, and the shutdown check of run keeps
every later message away from the receiver.
-/

namespace Thespian.Runtime
open Cbor Actor Transition

def Event.exitOf? (b : InstanceId) : Event → Option (Bytes × List Link)
  | .exit self m ls => if self = b then some (m, ls) else none
  | _ => none

/-- The executions of handle_exit by the given actor. -/
def exitsOf (b : InstanceId) (tr : List Event) : List (Bytes × List Link) :=
  tr.filterMap (Event.exitOf? b)

def Event.handlerOf? (b : InstanceId) : Event → Option ExitHandler
  | .exitHandler self h _ => if self = b then some h else none
  | _ => none

/-- The exit handlers called by the given actor. -/
def handlersOf (b : InstanceId) (tr : List Event) : List ExitHandler :=
  tr.filterMap (Event.handlerOf? b)

/-- The exit handlers an actor has still to call. -/
def Actor.waiting (x : Actor) : List ExitHandler :=
  match x.control with
  | .handlers _ _ rest | .handler _ _ rest => rest ++ x.exitHandlers
  | _ => x.exitHandlers

section Projections
variable {b : InstanceId} {tr : List Event} {e : Event}

theorem filterMap_add {α : Type} (f : Event → Option α) :
    (tr ++ [e]).filterMap f = tr.filterMap f ++ (f e).toList := by
  rw [List.filterMap_append]
  cases h : f e <;> simp [h]

theorem exitsOf_add : exitsOf b (tr ++ [e]) = exitsOf b tr ++ (e.exitOf? b).toList :=
  filterMap_add _

theorem handlersOf_add : handlersOf b (tr ++ [e]) = handlersOf b tr ++ (e.handlerOf? b).toList :=
  filterMap_add _

theorem exitsOf_eq_nil (h : ∀ (n : Nat) m ls, tr[n]? ≠ some (.exit b m ls)) :
    exitsOf b tr = [] := by
  rw [exitsOf, List.filterMap_eq_nil_iff]
  intro e he
  obtain ⟨n, logged⟩ := List.mem_iff_getElem?.mp he
  cases e with
  | exit self m ls =>
      have apart : self ≠ b := by
        rintro rfl
        exact h n m ls logged
      simp [Event.exitOf?, apart]
  | created | queued | ran | linked | received | exitHandler | spawned | internal => rfl

theorem not_exit_of_exitsOf (h : exitsOf b tr = []) (n : Nat) (m : Bytes) (ls : List Link) :
    tr[n]? ≠ some (.exit b m ls) := by
  intro logged
  have nothing := (List.filterMap_eq_nil_iff.mp h) _ (List.mem_of_getElem? logged)
  simp [Event.exitOf?] at nothing

end Projections

section Life
variable (toChars : Float → Bytes)

/-- The conditions on the environment: messages and errors are rendered arrays,
exit handlers do not throw. -/
def Benign : Action → Prop
  | .send _ _ m | .dispatchSync _ m | .outsideSend _ m => Renderable toChars m
  | .returns _ (.returns (.error e)) => Renderable toChars e
  | .handlerReturns _ (some _) => False
  | _ => True

/-- Where an actor can stand before, during and after its handle_exit. -/
def Stage (x : Actor) : Prop :=
  match x.control with
  | .idle | .running _ | .checking _ => x.inShutdown = true → x.exitHandlers = []
  | .receiving => x.inShutdown = false
  | .exits _ m => x.inShutdown = false ∧ Reasoned toChars m
  | .notifying _ _ m _ => x.inShutdown = true ∧ Reasoned toChars m
  | .handlers _ _ _ | .handler _ _ _ => x.inShutdown = true ∧ x.exitHandlers = []
  | .escaped => False

structure Life (s : System) (b : InstanceId) (x : Actor) : Prop where
  stage : Stage toChars x
  mail : ∀ mail, mail ∈ x.mailbox ∨ x.holds mail → Reasoned toChars mail.body
  before : x.inShutdown = false → exitsOf b s.trace = []
  after : x.inShutdown = true → (exitsOf b s.trace).length = 1
  handlers : ∀ (n : Nat) caller link hs, s.trace[n]? = some (.created b caller link hs) →
    handlersOf b s.trace ++ x.waiting = hs
  silent : ∀ (i j : Nat) m ls mail, s.trace[i]? = some (.exit b m ls) →
    s.trace[j]? = some (.received b mail) → j < i

variable {toChars} {s s' : System} {b : InstanceId} {x x' : Actor} {e : Event} {act : Action}

theorem reasoned_of_own {m : Bytes} (h : OwnExit m) : Reasoned toChars m := by
  cases h with
  | noreceive => exact reasoned_exitMessage _
  | unhandled e => cases e <;> exact reasoned_exitMessage _

/-- A move that is no part of handle_exit and calls no receiver. -/
theorem Life.keep (h : Life toChars s b x) (trace : s'.trace = s.trace ++ [e])
    (exit : e.exitOf? b = none) (handler : e.handlerOf? b = none)
    (received : ∀ mail, e ≠ .received b mail)
    (created : ∀ caller link hs, e ≠ .created b caller link hs)
    (shutdown : x'.inShutdown = x.inShutdown) (waiting : x'.waiting = x.waiting)
    (stage : Stage toChars x')
    (mail : ∀ mail, mail ∈ x'.mailbox ∨ x'.holds mail → Reasoned toChars mail.body) :
    Life toChars s' b x' := by
  have exits : exitsOf b s'.trace = exitsOf b s.trace := by
    rw [trace, exitsOf_add, exit]
    exact List.append_nil _
  have handlers : handlersOf b s'.trace = handlersOf b s.trace := by
    rw [trace, handlersOf_add, handler]
    exact List.append_nil _
  refine ⟨stage, mail, ?_, ?_, ?_, ?_⟩
  · rw [shutdown, exits]
    exact h.before
  · rw [shutdown, exits]
    exact h.after
  · intro n caller link hs logged
    rw [trace] at logged
    rw [handlers, waiting]
    rcases log_add_iff.mp logged with old | ⟨-, new⟩
    · exact h.handlers n caller link hs old
    · exact absurd new (created caller link hs)
  · intro i j m ls mail' exited called
    rw [trace] at exited called
    rcases log_add_iff.mp exited with old | ⟨-, rfl⟩
    · rcases log_add_iff.mp called with old' | ⟨-, new⟩
      · exact h.silent i j m ls mail' old old'
      · exact absurd new (received mail')
    · simp [Event.exitOf?] at exit

theorem holds_of_none {mail : Mail} (running : ∀ mail, x.control ≠ .running mail)
    (checking : ∀ mail, x.control ≠ .checking mail) : ¬ x.holds mail := by
  rintro (held | held)
  · exact running mail held
  · exact checking mail held

theorem Life.mail_of_mailbox (h : Life toChars s b x) (mailbox : x'.mailbox = x.mailbox)
    (running : ∀ mail, x'.control ≠ .running mail)
    (checking : ∀ mail, x'.control ≠ .checking mail) :
    ∀ mail, mail ∈ x'.mailbox ∨ x'.holds mail → Reasoned toChars mail.body := by
  rintro mail (queued | held)
  · rw [mailbox] at queued
    exact h.mail mail (.inl queued)
  · exact absurd held (holds_of_none running checking)

/-- The same for the moves that end with nothing to process. -/
theorem Life.turn (h : Life toChars s b x) (trace : s'.trace = s.trace ++ [.internal (some b)])
    (shutdown : x'.inShutdown = x.inShutdown) (waiting : x'.waiting = x.waiting)
    (stage : Stage toChars x') (mailbox : x'.mailbox = x.mailbox)
    (running : ∀ mail, x'.control ≠ .running mail)
    (checking : ∀ mail, x'.control ≠ .checking mail) : Life toChars s' b x' :=
  h.keep trace rfl rfl (by simp) (by simp) shutdown waiting stage
    (h.mail_of_mailbox mailbox running checking)

theorem Life.returned {o : Outcome} (h : Life toChars s b x)
    (trace : s'.trace = s.trace ++ [.internal (some b)]) (control : x.control = .receiving)
    (benign : Benign toChars (.returns b o)) : Life toChars s' b (x.returned o) := by
  have lives : x.inShutdown = false := by simpa [Stage, control] using h.stage
  rcases returned_cases x o with eq | ⟨guarded, m, cause, eq⟩
  · rw [eq]
    exact h.turn trace rfl (by simp [waiting, finish, control]) (by simp [Stage, finish, lives])
      rfl (by simp [finish]) (by simp [finish])
  · have reasoned : Reasoned toChars m := by
      rcases cause with rfl | own
      · exact Renderable.reasoned benign
      · exact reasoned_of_own own
    rw [eq]
    exact h.turn trace rfl (by simp [waiting, control]) ⟨lives, reasoned⟩ rfl (by simp) (by simp)

theorem Life.message {mail : Mail} (h : Life toChars s b x) (control : x.control = .checking mail)
    (trace : s'.trace = s.trace ++ [(x.runMessage b mail).2]) :
    Life toChars s' b (x.runMessage b mail).1 := by
  have idle : x.inShutdown = true → x.exitHandlers = [] := by simpa [Stage, control] using h.stage
  have reasoned := h.mail mail (.inr (.inr control))
  rcases runMessage_cases x b mail with
    ⟨-, eq⟩ | ⟨lives, ⟨guarded, m, cause, eq⟩ | eq | ⟨receiver, eq⟩⟩ <;> rw [eq] at trace ⊢
  · exact h.turn trace rfl (by simp [waiting, control]) (by simpa [Stage] using idle) rfl
      (by simp) (by simp)
  · have reason : Reasoned toChars m := by
      rcases cause with rfl | own
      · exact reasoned
      · exact reasoned_of_own own
    exact h.turn trace rfl (by simp [waiting, control]) ⟨lives, reason⟩ rfl (by simp) (by simp)
  · exact h.turn trace rfl (by simp [waiting, finish, control])
      (by simpa [Stage, finish] using idle) rfl (by simp [finish]) (by simp [finish])
  · -- the receiver is called only while no exit is in the trace
    have none := h.before lives
    have trace' : s'.trace = s.trace ++ [.received b mail] := trace
    have waiting' : Actor.waiting { x with receiver := receiver, control := .receiving } =
        x.waiting := by simp [waiting, control]
    refine ⟨lives, h.mail_of_mailbox rfl (by simp) (by simp), ?_, ?_, ?_, ?_⟩
    · intro _
      rw [trace', exitsOf_add, none]
      rfl
    · intro shutdown
      rw [lives] at shutdown
      cases shutdown
    · intro n caller link hs logged
      rw [trace'] at logged ⊢
      rw [handlersOf_add, waiting']
      rcases log_add_iff.mp logged with old | ⟨-, new⟩
      · simpa [Event.handlerOf?] using h.handlers n caller link hs old
      · cases new
    · intro i j m ls mail' exited called
      rw [trace'] at exited
      rcases log_add_iff.mp exited with old | ⟨-, new⟩
      · exact absurd old (not_exit_of_exitsOf none i m ls)
      · cases new

theorem Life.exited {guarded : Bool} {m : Bytes} (h : Life toChars s b x)
    (control : x.control = .exits guarded m) (trace : s'.trace = s.trace ++ [.exit b m x.links]) :
    Life toChars s' b (x.handleExit s.now guarded m) := by
  have stage : x.inShutdown = false ∧ Reasoned toChars m := by
    simpa [Stage, control] using h.stage
  have none := h.before stage.1
  refine ⟨⟨rfl, stage.2⟩, h.mail_of_mailbox rfl (by simp [handleExit]) (by simp [handleExit]),
    nofun, ?_, ?_, ?_⟩
  · intro _
    rw [trace, exitsOf_add, none]
    simp [Event.exitOf?]
  · intro n caller link hs logged
    rw [trace] at logged ⊢
    rw [handlersOf_add]
    rcases log_add_iff.mp logged with old | ⟨-, new⟩
    · simpa [Event.handlerOf?, waiting, control, handleExit] using h.handlers n caller link hs old
    · cases new
  · intro i j m' ls mail exited called
    rw [trace] at exited called
    rcases log_add_iff.mp exited with old | ⟨rfl, -⟩
    · exact absurd old (not_exit_of_exitsOf none i m' ls)
    · rcases log_add_iff.mp called with old | ⟨-, new⟩
      · exact log_bound old
      · cases new

theorem Life.notified {n : Nat} {guarded : Bool} {m : Bytes} (h : Life toChars s b x)
    (control : x.control = .notifying n guarded m [])
    (trace : s'.trace = s.trace ++ [.internal (some b)]) :
    Life toChars s' b (x.callHandlers toChars guarded m) := by
  have stage : x.inShutdown = true ∧ Reasoned toChars m := by
    simpa [Stage, control] using h.stage
  obtain ⟨err, reason⟩ := stage.2
  rcases callHandlers_cases x toChars guarded m with ⟨none, eq⟩ | ⟨err', -, eq⟩ | ⟨e, thrown, -⟩
  · rw [eq]
    exact h.turn trace rfl (by simp [waiting, control, conclude, finish])
      (by simp [Stage, conclude, finish, none]) rfl (by simp [conclude, finish])
      (by simp [conclude, finish])
  · rw [eq]
    exact h.turn trace rfl (by simp [waiting, control]) ⟨stage.1, rfl⟩ rfl (by simp) (by simp)
  · rw [reason] at thrown
    cases thrown

theorem Life.handler {guarded : Bool} {err : Bytes} {eh : ExitHandler} {rest : List ExitHandler}
    (h : Life toChars s b x) (control : x.control = .handlers guarded err (eh :: rest))
    (trace : s'.trace = s.trace ++ [.exitHandler b eh err]) :
    Life toChars s' b { x with control := .handler guarded err rest } := by
  have stage : x.inShutdown = true ∧ x.exitHandlers = [] := by
    simpa [Stage, control] using h.stage
  have exits : exitsOf b s'.trace = exitsOf b s.trace := by
    rw [trace, exitsOf_add]
    exact List.append_nil _
  refine ⟨stage, h.mail_of_mailbox rfl (by simp) (by simp), ?_, ?_, ?_, ?_⟩
  · rw [exits]
    exact h.before
  · rw [exits]
    exact h.after
  · intro n caller link hs logged
    rw [trace] at logged ⊢
    rcases log_add_iff.mp logged with old | ⟨-, new⟩
    · have sum := h.handlers n caller link hs old
      simp only [waiting, control, List.cons_append] at sum
      rw [handlersOf_add, ← sum]
      simp [Event.handlerOf?, waiting]
    · cases new
  · intro i j m ls mail exited called
    rw [trace] at exited called
    rcases log_add_iff.mp exited with old | ⟨-, new⟩
    · rcases log_add_iff.mp called with old' | ⟨-, new⟩
      · exact h.silent i j m ls mail old old'
      · cases new
    · cases new

theorem Life.local {now : Nat} (h : Life toChars s b x) (hn : now = s.now)
    (trace : s'.trace = s.trace ++ [e]) (benign : Benign toChars act)
    (move : Local toChars b now x act e x') : Life toChars s' b x' := by
  subst hn
  have same : ∀ y : Actor, y.inShutdown = x.inShutdown → y.exitHandlers = x.exitHandlers →
      y.control = x.control → y.waiting = x.waiting ∧ Stage toChars y := by
    intro y shutdown handlers control
    refine ⟨by simp only [waiting, control, handlers], ?_⟩
    have stage := h.stage
    unfold Stage at stage ⊢
    rw [control, shutdown, handlers]
    exact stage
  cases move with
  | user u free =>
      have kept := same (x.user u) (by cases u <;> rfl) (by cases u <;> rfl) (by cases u <;> rfl)
      refine h.keep trace rfl rfl (by simp) (by simp) (by cases u <;> rfl) kept.1 kept.2 ?_
      cases u <;> exact h.mail
  | returned o control call => exact h.returned trace control benign
  | handlerThrew guarded err rest e control call => exact benign.elim
  | handlerReturned guarded err rest control call =>
      have stage : x.inShutdown = true ∧ x.exitHandlers = [] := by
        simpa [Stage, control] using h.stage
      exact h.turn trace rfl (by simp [waiting, control]) stage rfl (by simp) (by simp)
  | delivered mail rest control mailbox =>
      have idle : x.inShutdown = true → x.exitHandlers = [] := by
        simpa [Stage, control] using h.stage
      refine h.keep trace rfl rfl (by simp) (by simp) rfl (by simp [waiting, control]) idle ?_
      rintro mail' (queued | running | checking)
      · exact h.mail mail' (.inl (by rw [mailbox]; exact List.mem_cons_of_mem mail queued))
      · cases running
        exact h.mail mail (.inl (by rw [mailbox]; exact List.mem_cons_self))
      · cases checking
  | dispatched m control owns lives =>
      have reasoned : Reasoned toChars m := Renderable.reasoned benign
      refine h.keep trace rfl rfl (by simp) (by simp) rfl (by simp [waiting, control])
        (by simp [Stage, lives]) ?_
      rintro mail' (queued | running | checking)
      · exact h.mail mail' (.inl queued)
      · cases running
        exact reasoned
      · cases checking
  | recorded mail control link =>
      have idle : x.inShutdown = true → x.exitHandlers = [] := by
        simpa [Stage, control] using h.stage
      rcases runLink_control x mail with next | next <;>
        refine h.keep trace rfl rfl (by simp) (by simp) (runLink_inShutdown x mail)
          (by simp [waiting, control, next]) (by simpa [Stage, next] using idle) ?_
      · rintro mail' (queued | running | checking)
        · exact h.mail mail' (.inl (by simpa using queued))
        · rw [next] at running
          cases running
        · rw [next] at checking
          cases checking
          exact h.mail mail (.inr (.inl control))
      · exact h.mail_of_mailbox (runLink_mailbox x mail) (by simp [next]) (by simp [next])
  | passed mail control other =>
      have idle : x.inShutdown = true → x.exitHandlers = [] := by
        simpa [Stage, control] using h.stage
      refine h.keep trace rfl rfl (by simp) (by simp) rfl (by simp [waiting, control]) idle ?_
      rintro mail' (queued | running | checking)
      · exact h.mail mail' (.inl queued)
      · cases running
      · cases checking
        exact h.mail mail (.inr (.inl control))
  | message mail control => exact h.message control trace
  | exited guarded m control => exact h.exited control trace
  | notified n guarded m control => exact h.notified control trace
  | handler guarded err eh rest control => exact h.handler control trace
  | concluded guarded err control =>
      have stage : x.inShutdown = true ∧ x.exitHandlers = [] := by
        simpa [Stage, control] using h.stage
      exact h.turn trace rfl (by simp [waiting, control, conclude, finish])
        (by simp [Stage, conclude, finish, stage.2]) rfl (by simp [conclude, finish])
        (by simp [conclude, finish])
  | unlinked child link call skipped =>
      have kept := same { x with call := .spawn child link (.linked none) } rfl rfl rfl
      exact h.keep trace rfl rfl (by simp) (by simp) rfl kept.1 kept.2 h.mail
  | spawned child link request call =>
      have kept := same { x with
        links := if link then ⟨some child, request, .caller⟩ :: x.links else x.links
        call := .none } rfl rfl rfl
      exact h.keep trace rfl rfl (by simp) (by simp) rfl kept.1 kept.2 h.mail
  | destroyed control mailbox lifetime =>
      have kept := same { x with destroyed := true } rfl rfl rfl
      exact h.keep trace rfl rfl (by simp) (by simp) rfl kept.1 kept.2 h.mail

theorem Calls.reasoned {cause : Cause} {target : Handle} {mail : Mail} {d : Delivery}
    (move : Calls s b x act cause target mail d x') (benign : Benign toChars act)
    (h : Life toChars s b x) : Reasoned toChars mail.body := by
  cases move with
  | send target m free valid => exact Renderable.reasoned benign
  | link | spawnLink => exact reasoned_linkMsg
  | schedule => exact reasoned_nullValue
  | notice n guarded m l rest control =>
      have stage : x.inShutdown = true ∧ Reasoned toChars m := by
        simpa [Stage, control] using h.stage
      exact stage.2

theorem Life.post {cause : Cause} {target : Handle} {mail : Mail} {d : Delivery}
    (h : Life toChars s b x) (trace : s'.trace = s.trace ++ [.queued cause target mail d])
    (reasoned : Reasoned toChars mail.body) (shutdown : x'.inShutdown = x.inShutdown)
    (mailbox : x'.mailbox = x.mailbox) (waiting : x'.waiting = x.waiting)
    (stage : Stage toChars x') (holds : ∀ mail, x'.holds mail → x.holds mail) :
    Life toChars s' b (x'.receives b target mail d) := by
  have handlers' : (x'.receives b target mail d).exitHandlers = x'.exitHandlers := by
    unfold Actor.receives
    split <;> rfl
  refine h.keep trace rfl rfl (by simp) (by simp) ?_ ?_ ?_ ?_
  · rw [receives_inShutdown, shutdown]
  · rw [← waiting]
    simp only [Actor.waiting, receives_control, handlers']
  · unfold Stage at stage ⊢
    rw [receives_control, receives_inShutdown, handlers']
    exact stage
  · intro mail' held
    rw [receives_mailbox, receives_holds, mailbox] at held
    split at held
    · rcases held with queued | processed
      · rcases List.mem_append.mp queued with old | new
        · exact h.mail mail' (.inl old)
        · cases List.mem_singleton.mp new
          exact reasoned
      · exact h.mail mail' (.inr (holds mail' processed))
    · exact h.mail mail' (held.imp_right (holds mail'))

theorem Life.calls {cause : Cause} {target : Handle} {mail : Mail} {d : Delivery}
    (h : Life toChars s b x) (trace : s'.trace = s.trace ++ [.queued cause target mail d])
    (benign : Benign toChars act) (move : Calls s b x act cause target mail d x') :
    Life toChars s' b (x'.receives b target mail d) := by
  have reasoned := move.reasoned benign h
  cases move with
  | send target m free valid =>
      exact h.post trace reasoned rfl rfl rfl h.stage fun _ held => held
  | link target free valid =>
      exact h.post trace reasoned rfl rfl rfl h.stage fun _ held => held
  | spawnLink child call lifetime =>
      exact h.post trace reasoned rfl rfl rfl h.stage fun _ held => held
  | schedule child link request call =>
      exact h.post trace reasoned rfl rfl rfl h.stage fun _ held => held
  | notice n guarded m l rest control =>
      have stage : x.inShutdown = true ∧ Reasoned toChars m := by
        simpa [Stage, control] using h.stage
      refine h.post trace reasoned rfl rfl (by simp [waiting, control]) stage ?_
      intro mail' held
      exact absurd held (holds_of_none (by simp) (by simp))

theorem life_fresh (consistent : Consistent s) (after : After s e s')
    (h : Fresh s b act e x) : Life toChars s' b x := by
  obtain ⟨rfl, caller, link, name, handlers, rfl, rfl, -⟩ := h
  have unknown {n : Nat} {e' : Event} (logged : s.trace[n]? = some e') :
      ¬ e'.mentions s.nextInstanceId :=
    consistent.mentioned.unlogged consistent.numbered logged
  have none : exitsOf s.nextInstanceId s.trace = [] :=
    exitsOf_eq_nil fun n m ls logged => unknown logged rfl
  refine ⟨nofun, by simp [holds], ?_, nofun, ?_, ?_⟩
  · intro _
    rw [after.trace, exitsOf_add, none]
    rfl
  · intro n caller' link' hs logged
    rw [after.trace] at logged ⊢
    rcases log_add_iff.mp logged with old | ⟨-, new⟩
    · exact (unknown old (.inl rfl)).elim
    · cases new
      have silent : handlersOf s.nextInstanceId s.trace = [] := by
        rw [handlersOf, List.filterMap_eq_nil_iff]
        intro e he
        obtain ⟨k, logged⟩ := List.mem_iff_getElem?.mp he
        cases e with
        | exitHandler self h err =>
            have apart : self ≠ s.nextInstanceId := by
              rintro rfl
              exact unknown logged rfl
            simp [Event.handlerOf?, apart]
        | created | queued | ran | linked | received | exit | spawned | internal => rfl
      rw [handlersOf_add, silent]
      rfl
  · intro i j m ls mail exited called
    rw [after.trace] at exited
    rcases log_add_iff.mp exited with old | ⟨-, new⟩
    · exact (unknown old rfl).elim
    · cases new

theorem life_step (inv : Everywhere (Life toChars) s) (consistent : Consistent s)
    (benign : Benign toChars act) (h : Step toChars s act s') : Everywhere (Life toChars) s' := by
  refine inv.step consistent.numbered ?_ ?_ h
  · intro e b x after fresh
    exact life_fresh consistent after fresh
  · intro e b x x' after hx life move
    cases move with
    | other act e foreign unposted =>
        refine life.keep after.trace ?_ ?_ ?_ ?_ rfl rfl life.stage life.mail
        · cases e <;> simp_all [Event.exitOf?, Event.byItself]
        · cases e <;> simp_all [Event.handlerOf?, Event.byItself]
        · rintro mail rfl
          simp [Event.byItself] at foreign
        · rintro caller link hs rfl
          simp [Event.byItself] at foreign
    | act act e x' move => exact life.local rfl after.trace benign move
    | call act cause target mail d x' move => exact life.calls after.trace benign move
    | called self y y' act cause target mail d foreign hy move =>
        exact life.post after.trace (move.reasoned benign (inv self y hy)) rfl rfl rfl
          life.stage fun _ held => held
    | outside act cause target m d either =>
        have reasoned : Reasoned toChars m := by
          rcases either with ⟨rfl, -⟩ | ⟨child, -, -, -, -, rfl, -⟩
          · exact Renderable.reasoned benign
          · exact reasoned_nullValue
        exact life.post after.trace reasoned rfl rfl rfl life.stage fun _ held => held
    | spawn name link free =>
        have apart : s.nextInstanceId ≠ b := Nat.ne_of_gt (consistent.numbered.lt hx)
        exact life.keep after.trace rfl rfl (by simp) (by simp [apart]) rfl rfl life.stage life.mail

theorem life_keeps :
    Keeps (step toChars) (fun _ act => Benign toChars act)
      fun s => Consistent s ∧ Everywhere (Life toChars) s := by
  rintro s act s' ⟨consistent, life⟩ benign h
  have step := step_sound h
  exact ⟨consistent.step step, life_step life consistent benign step⟩

theorem life_of_run {acts : List Action} (benign : ∀ act ∈ acts, Benign toChars act)
    (h : run (step toChars) .initial acts = some s) : Everywhere (Life toChars) s :=
  (life_keeps.run ⟨consistent_initial, everywhere_initial _⟩ (along_of_forall benign) h).2

end Life

section Terminates
variable {toChars : Float → Bytes} {s s' : System} {b : InstanceId} {x x' : Actor}

/-- In_shutdown is never reset. -/
theorem shutdown_latched {acts : List Action} (consistent : Consistent s)
    (hx : s.actors b = some x) (shutdown : x.inShutdown = true)
    (h : run (step toChars) s acts = some s') (hx' : s'.actors b = some x') :
    x'.inShutdown = true := by
  have keeps : Keeps (step toChars) (fun _ _ => True) fun t => Consistent t ∧ Exited t.trace b := by
    rintro t act t' ⟨inv, n, m, ls, logged⟩ - h
    have step := step_sound h
    obtain ⟨e, trace, -⟩ := step.moves inv.numbered
    exact ⟨inv.step step, n, m, ls, by rw [trace]; exact log_old logged [e]⟩
  have exited := (consistent.shutdown b x hx).mp shutdown
  obtain ⟨inv, gone⟩ := keeps.run ⟨consistent, exited⟩ (along_true acts) h
  exact (inv.shutdown b x' hx').mpr gone

/-- What it means for an actor to terminate exactly once, in a state of a run. -/
structure TerminatesOnce (toChars : Float → Bytes) (s : System) (b : InstanceId) (x : Actor) :
    Prop where
  /-- Handle_exit has run at most once, and in_shutdown says whether it has. -/
  once : (exitsOf b s.trace).length = if x.inShutdown then 1 else 0
  /-- No handler registered at spawn was called twice or out of order; all of
  them were when handle_exit is over. -/
  handlers : ∀ (n : Nat) caller link hs, s.trace[n]? = some (.created b caller link hs) →
    handlersOf b s.trace <+: hs ∧
      (x.inShutdown = true → x.leaving = false → handlersOf b s.trace = hs)
  /-- Each entry of links_ was sent the exit message once, in order. -/
  notices : ∀ (n : Nat) m ls, s.trace[n]? = some (.exit b m ls) →
    noticesOf n s.trace <+: ls.map (noticeFor m) ∧
      (x.leaving = false → noticesOf n s.trace = ls.map (noticeFor m))
  /-- The receiver is not called after handle_exit has run. -/
  silent : ∀ (i j : Nat) m ls mail, s.trace[i]? = some (.exit b m ls) →
    s.trace[j]? = some (.received b mail) → j < i
  /-- In_shutdown never returns to false. -/
  latched : ∀ acts s' x', run (step toChars) s acts = some s' → s'.actors b = some x' →
    x.inShutdown = true → x'.inShutdown = true

theorem Life.waiting_nil (h : Life toChars s b x) (shutdown : x.inShutdown = true)
    (ended : x.leaving = false) : x.waiting = [] := by
  have stage := h.stage
  unfold Stage at stage
  unfold Actor.leaving at ended
  unfold Actor.waiting
  cases control : x.control with
  | idle | running | checking =>
      rw [control] at stage
      exact stage shutdown
  | receiving =>
      rw [control] at stage
      exact absurd shutdown (by simp [stage])
  | exits =>
      rw [control] at stage
      exact absurd shutdown (by simp [stage.1])
  | notifying | handlers | handler => simp [control] at ended
  | escaped =>
      rw [control] at stage
      exact stage.elim

theorem remaining_nil (ended : x.leaving = false) (n : Nat) : x.remaining n = [] := by
  unfold Actor.leaving at ended
  unfold Actor.remaining
  cases control : x.control <;> simp_all

theorem actors_terminate_once {acts : List Action}
    (benign : ∀ act ∈ acts, Benign toChars act)
    (h : run (step toChars) .initial acts = some s) (hx : s.actors b = some x) :
    TerminatesOnce toChars s b x := by
  have consistent := consistent_of_run h
  have life := life_of_run benign h b x hx
  refine ⟨?_, ?_, ?_, life.silent, ?_⟩
  · cases shutdown : x.inShutdown with
    | true => exact life.after shutdown
    | false =>
        rw [life.before shutdown]
        rfl
  · intro n caller link hs logged
    have sum := life.handlers n caller link hs logged
    refine ⟨⟨x.waiting, sum⟩, fun shutdown ended => ?_⟩
    rw [life.waiting_nil shutdown ended, List.append_nil] at sum
    exact sum
  · intro n m ls logged
    have sum := consistent.loops b x hx n m ls logged
    refine ⟨⟨_, sum⟩, fun ended => ?_⟩
    rw [remaining_nil ended, List.map_nil, List.append_nil] at sum
    exact sum
  · intro acts' s' x' h' hx' shutdown
    exact shutdown_latched consistent hx shutdown h' hx'

/-- An actor with an exit handler spawns a linked child and is told to exit. -/
def toldToExit : List Action :=
  [.contextSpawn (text "parent") (some 7), .schedule 1, .deliver 1, .advance 1, .advance 1,
    .spawn 1 (text "child") true, .call 1, .call 1, .call 1, .user 1 (.receive true),
    .returns 1 (.returns (.ok ())), .outsideSend (some 1) (exitMessage (text "die")), .deliver 1,
    .advance 1, .advance 1, .advance 1, .advance 1, .advance 1, .advance 1,
    .handlerReturns 1 none, .advance 1]

theorem actors_terminate_once_told :
    ∃ s x, run (step fun _ => []) .initial toldToExit = some s ∧ s.actors 1 = some x ∧
      x.inShutdown = true ∧ x.leaving = false ∧ handlersOf 1 s.trace = [7] ∧
      TerminatesOnce (fun _ => []) s 1 x := by
  have rendered : Renderable (fun _ => []) (exitMessage (text "die")) := by
    refine ⟨⟨0x82, [0x64, 0x65, 0x78, 0x69, 0x74, 0x63, 0x64, 0x69, 0x65], rfl, rfl⟩, ?_,
      text "[\"exit\",\"die\"]", rfl⟩
    decide
  have benign : ∀ act ∈ toldToExit, Benign (fun _ => []) act := by
    simp [toldToExit, Benign, rendered]
  refine ⟨_, _, rfl, rfl, rfl, rfl, rfl, ?_⟩
  exact actors_terminate_once benign rfl rfl

end Terminates

end Thespian.Runtime
