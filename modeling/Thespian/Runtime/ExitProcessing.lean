import Thespian.Runtime.Exits
import Thespian.Runtime.Messages

/-!
The exit of an actor whose receiver has returned an error. Handle_exit sends the error
to the links and only then reads the reason out of it for the exit handlers, which it
has already taken out of their list. Where the reading throws, the catch clause of run
calls handle_exit again: the links are sent a second message, and there are no handlers
any more to be called.

What the rest of the run sends and calls is known from the state of the actor, so it is
stated as a function of it, and every step of the actor takes one entry off.
-/

namespace Thespian.Runtime
open Cbor Actor Transition Decoding Decoding.Decoder

/-- The exit messages the given actor has sent to its links. -/
def Event.noticeBy? (b : InstanceId) : Event → Option (Handle × Bytes)
  | .queued (.notice _ _) target mail _ =>
      if mail.sender = some b then some (target, mail.body) else none
  | _ => none

def noticesBy (b : InstanceId) (tr : List Event) : List (Handle × Bytes) :=
  tr.filterMap (Event.noticeBy? b)

/-- The exit handlers the given actor has called, with what they were told. -/
def Event.handledBy? (b : InstanceId) : Event → Option (ExitHandler × Bytes)
  | .exitHandler self h err => if self = b then some (h, err) else none
  | _ => none

def handledBy (b : InstanceId) (tr : List Event) : List (ExitHandler × Bytes) :=
  tr.filterMap (Event.handledBy? b)

section Reading
variable (toChars : Float → Bytes) {err : Bytes} {ws : Writes}

/-- What an exit handler may be told of an error: the reason in it, or all of it where
there is none. -/
def Reason (err reason : Bytes) : Prop :=
  (∃ var, matchBuffer err reasonPattern = .ok (true, [(var, .string reason)])) ∨
    ∃ ws json, matchBuffer err reasonPattern = .ok (false, ws) ∧ toJson toChars err = .ok json ∧
      reason = text "bad_exit_message: " ++ json

/-- The matcher returns for the error, and the printer where the matcher finds no
reason in it. -/
def Readable (err : Bytes) : Prop :=
  (∃ ws, matchBuffer err reasonPattern = .ok (true, ws)) ∨
    ∃ ws json, matchBuffer err reasonPattern = .ok (false, ws) ∧ toJson toChars err = .ok json

variable {toChars}

theorem matchNext_more_writes {n : Nat} {s r : Bytes}
    (h : matchNext (.last (.type .more)) n s = .ok ((true, ws), r)) : ws = [] := by
  rw [matchNext] at h
  obtain ⟨b, t, -, done⟩ := bind_eq_ok h
  cases done
  rfl

theorem matchValue_string_writes {s r : Bytes}
    (h : matchValue (.type .string) s = .ok ((true, ws), r)) : ws = [] := by
  rw [matchValue] at h
  obtain ⟨b, t, -, done⟩ := bind_eq_ok h
  cases done
  rfl

theorem extract_string_writes {s r : Bytes}
    (h : matchValue (.extract .string 0) s = .ok ((true, ws), r)) :
    ∃ reason, ws = [(0, .string reason)] := by
  rw [matchValue] at h
  obtain ⟨val, t, read, done⟩ := bind_eq_ok h
  obtain ⟨string, u, -, bound⟩ := bind_eq_ok read
  cases string with
  | none =>
      cases bound
      cases done
  | some reason =>
      cases bound
      cases done
      exact ⟨reason, rfl⟩

/-- A reason that was found is the only variable written. -/
theorem reason_of_match (h : matchBuffer err reasonPattern = .ok (true, ws)) :
    ∃ reason, ws = [(0, .string reason)] := by
  obtain ⟨n, t, r, -, elements⟩ := matchBuffer_accepts h
  obtain ⟨-, first, t₁, more, head, tail, rfl⟩ := matchNext_cons_accepts elements
  obtain ⟨-, second, t₂, last, extracted, ended, rfl⟩ := matchNext_cons_accepts tail
  obtain ⟨reason, rfl⟩ := extract_string_writes extracted
  rw [matchValue_string_writes head, matchNext_more_writes ended]
  exact ⟨reason, rfl⟩

theorem exitReason_of_reason {reason : Bytes} (h : Reason toChars err reason) :
    exitReason toChars err = .ok reason := by
  unfold exitReason
  rcases h with ⟨var, found⟩ | ⟨ws, json, none, printed, rfl⟩
  · rw [found]
    rfl
  · rw [none, printed]
    rfl

theorem Readable.reason (h : Readable toChars err) : ∃ reason, Reason toChars err reason := by
  rcases h with ⟨ws, found⟩ | ⟨ws, json, none, printed⟩
  · obtain ⟨reason, rfl⟩ := reason_of_match found
    exact ⟨reason, .inl ⟨0, found⟩⟩
  · exact ⟨_, .inr ⟨ws, json, none, printed, rfl⟩⟩

theorem exitReason_fails (h : ¬ Readable toChars err) : ∃ e, exitReason toChars err = .error e := by
  unfold exitReason
  cases run : matchBuffer err reasonPattern with
  | error e => exact ⟨e, rfl⟩
  | ok res =>
      obtain ⟨b, ws⟩ := res
      cases b with
      | true => exact absurd (.inl ⟨ws, run⟩) h
      | false =>
          cases printed : toJson toChars err with
          | error e => exact ⟨e, rfl⟩
          | ok json => exact absurd (.inr ⟨ws, json, run, printed⟩) h

end Reading

section Remaining
variable (toChars : Float → Bytes)

/-- The message of the second handle_exit, if there is one. -/
def Actor.again (x : Actor) (guarded : Bool) (m : Bytes) : Option Bytes :=
  if x.exitHandlers = [] then none
  else
    match exitReason toChars m with
    | .ok _ => none
    | .error e => if guarded then some (Exception.std e.what).exitMessage else none

def Actor.notices (links : List Link) (m : Bytes) : List (Handle × Bytes) :=
  links.map fun l => (l.peer, m)

/-- The exit messages an actor has still to send in its run. -/
def Actor.toNotify (x : Actor) : List (Handle × Bytes) :=
  match x.control with
  | .exits guarded m =>
      Actor.notices x.links m ++ (x.again toChars guarded m).elim [] (Actor.notices x.links)
  | .notifying _ guarded m rest =>
      Actor.notices rest m ++ (x.again toChars guarded m).elim [] (Actor.notices x.links)
  | _ => []

/-- The calls of exit handlers an actor has still to make in its run. -/
def Actor.toCall (x : Actor) : List (ExitHandler × Bytes) :=
  match x.control with
  | .exits _ m | .notifying _ _ m _ =>
      match exitReason toChars m with
      | .ok err => x.exitHandlers.map fun h => (h, err)
      | .error _ => []
  | .handlers _ err rest | .handler _ err rest => rest.map fun h => (h, err)
  | _ => []

end Remaining

/-- Where an actor can stand that exits: an exit from a catch clause has no handlers. -/
def Exiting (x : Actor) : Prop :=
  match x.control with
  | .exits guarded _ => guarded = false → x.exitHandlers = []
  | .notifying _ guarded _ _ => x.inShutdown = true ∧ (guarded = false → x.exitHandlers = [])
  | .handlers _ _ _ | .handler _ _ _ => x.inShutdown = true ∧ x.exitHandlers = []
  | .idle | .running _ | .checking _ => x.inShutdown = true
  | .receiving | .escaped => False

/-- What an actor has sent and called, with what it will, is the same at any time. -/
structure Ends (toChars : Float → Bytes) (b : InstanceId) (sent : List (Handle × Bytes))
    (called : List (ExitHandler × Bytes)) (tr : List Event) (x : Actor) : Prop where
  exiting : Exiting x
  notices : noticesBy b tr ++ x.toNotify toChars = sent
  handlers : handledBy b tr ++ x.toCall toChars = called

section Steps
variable {toChars : Float → Bytes} {b : InstanceId} {sent : List (Handle × Bytes)}
  {called : List (ExitHandler × Bytes)} {tr : List Event} {x x' : Actor} {e : Event}

theorem noticesBy_add : noticesBy b (tr ++ [e]) = noticesBy b tr ++ (e.noticeBy? b).toList := by
  rw [noticesBy, List.filterMap_append]
  cases h : e.noticeBy? b <;> simp [noticesBy, h]

theorem handledBy_add : handledBy b (tr ++ [e]) = handledBy b tr ++ (e.handledBy? b).toList := by
  rw [handledBy, List.filterMap_append]
  cases h : e.handledBy? b <;> simp [handledBy, h]

/-- A move after which the rest is what the event was not. -/
theorem Ends.move (h : Ends toChars b sent called tr x) (exiting : Exiting x')
    (notices : x.toNotify toChars = (e.noticeBy? b).toList ++ x'.toNotify toChars)
    (handlers : x.toCall toChars = (e.handledBy? b).toList ++ x'.toCall toChars) :
    Ends toChars b sent called (tr ++ [e]) x' where
  exiting := exiting
  notices := by rw [noticesBy_add, List.append_assoc, ← notices, h.notices]
  handlers := by rw [handledBy_add, List.append_assoc, ← handlers, h.handlers]

/-- A move that is no part of handle_exit. -/
theorem Ends.quiet (h : Ends toChars b sent called tr x) (exiting : Exiting x')
    (notice : e.noticeBy? b = none) (handler : e.handledBy? b = none)
    (notices : x'.toNotify toChars = x.toNotify toChars)
    (handlers : x'.toCall toChars = x.toCall toChars) :
    Ends toChars b sent called (tr ++ [e]) x' :=
  h.move exiting (by rw [notice, notices]; rfl) (by rw [handler, handlers]; rfl)

/-- The exiting actor runs user code only in its exit handlers. -/
theorem Exiting.in_handler (h : Exiting x) (sane : Sane x)
    (busy : x.free = true ∨ x.call ≠ .none) :
    ∃ guarded err rest, x.control = .handler guarded err rest := by
  have receiving : x.control ≠ .receiving := by
    intro control
    simp [Exiting, control] at h
  rcases busy with free | calling
  · exact (free_control free).2.resolve_left receiving
  · exact (sane.calling.resolve_left calling).resolve_left receiving

/-- What the user code of an exit handler does is no part of handle_exit. -/
theorem Ends.in_handler (h : Ends toChars b sent called tr x) {guarded : Bool} {err : Bytes}
    {rest : List ExitHandler} (control : x.control = .handler guarded err rest)
    (control' : x'.control = x.control) (exitHandlers : x'.exitHandlers = x.exitHandlers)
    (shutdown : x'.inShutdown = x.inShutdown) (notice : e.noticeBy? b = none)
    (handler : e.handledBy? b = none) : Ends toChars b sent called (tr ++ [e]) x' := by
  have exiting := h.exiting
  rw [control] at control'
  simp only [Exiting, control] at exiting
  exact h.quiet (by simpa [Exiting, control', exitHandlers, shutdown] using exiting) notice handler
    (by simp [Actor.toNotify, control, control']) (by simp [Actor.toCall, control, control'])

/-- The loop over the links is done, and the reason is read for the handlers. -/
theorem Ends.notified (h : Ends toChars b sent called tr x) {n : Nat} {guarded : Bool} {m : Bytes}
    (control : x.control = .notifying n guarded m []) (notice : e.noticeBy? b = none)
    (handler : e.handledBy? b = none) :
    Ends toChars b sent called (tr ++ [e]) (x.callHandlers toChars guarded m) := by
  have exiting := h.exiting
  simp only [Exiting, control] at exiting
  by_cases handlers : x.exitHandlers = []
  · rw [callHandlers, if_pos handlers]
    refine h.quiet exiting.1 notice handler ?_ ?_
    · simp [Actor.toNotify, Actor.again, control, handlers, conclude, finish, Actor.notices]
    · simp only [Actor.toCall, control, handlers, conclude, finish]
      split <;> rfl
  · have caught : guarded = true := by
      cases guarded with
      | true => rfl
      | false => exact absurd (exiting.2 rfl) handlers
    rw [callHandlers, if_neg handlers]
    cases reason : exitReason toChars m with
    | ok err =>
        refine h.quiet ⟨exiting.1, rfl⟩ notice handler ?_ ?_
        · simp [Actor.toNotify, Actor.again, control, handlers, reason, Actor.notices]
        · simp [Actor.toCall, control, reason]
    | error e =>
        subst caught
        have none : Actor.again toChars { x with
            exitHandlers := [], control := .exits false (Exception.std e.what).exitMessage }
            false (Exception.std e.what).exitMessage = none := if_pos rfl
        refine h.quiet (fun _ => rfl) notice handler ?_ ?_
        · simp only [Actor.toNotify, raise, if_true, control, none]
          simp [Actor.again, handlers, reason, Actor.notices]
        · simp only [Actor.toCall, raise, if_true, control, reason]
          split <;> rfl

theorem Ends.local {now : Nat} {act : Action} (h : Ends toChars b sent called tr x) (sane : Sane x)
    (move : Local toChars b now x act e x') (returns : ∀ e, act ≠ .handlerReturns b (some e)) :
    Ends toChars b sent called (tr ++ [e]) x' := by
  have exiting := h.exiting
  cases move with
  | user u free =>
      obtain ⟨guarded, err, rest, control⟩ := exiting.in_handler sane (.inl free)
      cases u <;> exact h.in_handler control rfl rfl rfl rfl rfl
  | returned o control call => simp [Exiting, control] at exiting
  | handlerThrew guarded err rest e control call => exact absurd rfl (returns e)
  | handlerReturned guarded err rest control call =>
      simp only [Exiting, control] at exiting
      exact h.quiet (by simpa [Exiting] using exiting) rfl rfl (by simp [Actor.toNotify, control])
        (by simp [Actor.toCall, control])
  | delivered mail rest control mailbox =>
      simp only [Exiting, control] at exiting
      exact h.quiet (by simpa [Exiting] using exiting) rfl rfl (by simp [Actor.toNotify, control])
        (by simp [Actor.toCall, control])
  | dispatched m control owns lives =>
      simp only [Exiting, control] at exiting
      exact absurd (lives.symm.trans exiting) Bool.false_ne_true
  | recorded mail control link =>
      simp only [Exiting, control] at exiting
      have shutdown : (x.runLink mail).inShutdown = true := by rw [runLink_inShutdown, exiting]
      rcases runLink_control x mail with next | next <;>
        exact h.quiet (by simpa [Exiting, next] using exiting) rfl rfl
          (by simp [Actor.toNotify, control, next]) (by simp [Actor.toCall, control, next])
  | passed mail control other =>
      simp only [Exiting, control] at exiting
      exact h.quiet (by simpa [Exiting] using exiting) rfl rfl (by simp [Actor.toNotify, control])
        (by simp [Actor.toCall, control])
  | message mail control =>
      simp only [Exiting, control] at exiting
      rcases runMessage_cases x b mail with ⟨-, eq⟩ | ⟨lives, -⟩
      · rw [eq]
        exact h.quiet (by simpa [Exiting] using exiting) rfl rfl (by simp [Actor.toNotify, control])
          (by simp [Actor.toCall, control])
      · exact absurd (lives.symm.trans exiting) Bool.false_ne_true
  | exited guarded m control =>
      simp only [Exiting, control] at exiting
      exact h.quiet (by simpa [Exiting, Actor.handleExit] using exiting) rfl rfl
        (by
          simp only [Actor.toNotify, control, Actor.handleExit]
          rfl)
        (by simp [Actor.toCall, control, Actor.handleExit])
  | notified n guarded m control => exact h.notified control rfl rfl
  | handler guarded err eh rest control =>
      simp only [Exiting, control] at exiting
      refine h.move (by simpa [Exiting] using exiting) ?_ ?_
      · simp [Actor.toNotify, control, Event.noticeBy?]
      · simp [Actor.toCall, control, Event.handledBy?]
  | concluded guarded err control =>
      simp only [Exiting, control] at exiting
      refine h.quiet (show x.conclude.inShutdown = true from exiting.1) rfl rfl ?_ ?_
      · simp [Actor.toNotify, control, conclude, finish]
      · simp [Actor.toCall, control, conclude, finish]
  | unlinked child link call skipped =>
      obtain ⟨guarded, err, rest, control⟩ := exiting.in_handler sane (.inr (by simp [call]))
      exact h.in_handler control rfl rfl rfl rfl rfl
  | spawned child link request call =>
      obtain ⟨guarded, err, rest, control⟩ := exiting.in_handler sane (.inr (by simp [call]))
      exact h.in_handler control rfl rfl rfl rfl rfl
  | destroyed control mailbox lifetime =>
      simp only [Exiting, control] at exiting
      exact h.quiet (by simpa [Exiting, control] using exiting) rfl rfl
        (by simp [Actor.toNotify, control]) (by simp [Actor.toCall, control])

theorem Ends.receives (h : Ends toChars b sent called tr x) (target : Handle) (mail : Mail)
    (d : Delivery) : Ends toChars b sent called tr (x.receives b target mail d) := by
  unfold Actor.receives
  split
  · exact ⟨h.exiting, h.notices, h.handlers⟩
  · exact h

theorem Ends.calls {s : System} {act : Action} {cause : Cause} {target : Handle} {mail : Mail}
    {d : Delivery} (h : Ends toChars b sent called tr x) (sane : Sane x)
    (move : Calls s b x act cause target mail d x') :
    Ends toChars b sent called (tr ++ [.queued cause target mail d]) x' := by
  have exiting := h.exiting
  cases move with
  | send target m free valid =>
      obtain ⟨guarded, err, rest, control⟩ := exiting.in_handler sane (.inl free)
      exact h.in_handler control rfl rfl rfl rfl rfl
  | link target free valid =>
      obtain ⟨guarded, err, rest, control⟩ := exiting.in_handler sane (.inl free)
      exact h.in_handler control rfl rfl rfl rfl rfl
  | spawnLink child call lifetime =>
      obtain ⟨guarded, err, rest, control⟩ := exiting.in_handler sane (.inr (by simp [call]))
      exact h.in_handler control rfl rfl rfl rfl rfl
  | schedule child link request call =>
      obtain ⟨guarded, err, rest, control⟩ := exiting.in_handler sane (.inr (by simp [call]))
      exact h.in_handler control rfl rfl rfl rfl rfl
  | notice n guarded m l rest control =>
      simp only [Exiting, control] at exiting
      refine h.move (by simpa [Exiting] using exiting) ?_ ?_
      · simp only [Actor.toNotify, control, Event.noticeBy?, if_true, Actor.notices, List.map_cons,
          Option.toList, List.cons_append, List.nil_append]
        rfl
      · simp [Actor.toCall, control, Event.handledBy?]

/-- Every step of the system, seen from an exiting actor. -/
theorem Ends.moves {s : System} {act : Action} (h : Ends toChars b sent called s.trace x)
    (sane : Sane x) (move : Moves toChars s b x act e x')
    (returns : ∀ e, act ≠ .handlerReturns b (some e)) :
    Ends toChars b sent called (s.trace ++ [e]) x' := by
  cases move with
  | other act e foreign unposted =>
      refine h.quiet h.exiting ?_ ?_ rfl rfl
      · cases e <;> first | rfl | exact absurd rfl (unposted _ _ _ _)
      · cases e <;> first | rfl | simp_all [Event.byItself, Event.handledBy?]
  | act act e x' move => exact h.local sane move returns
  | call act cause target mail d x' move => exact (h.calls sane move).receives target mail d
  | called self y y' act cause target mail d foreign hy move =>
      refine Ends.receives (h.quiet h.exiting ?_ rfl rfl rfl) target mail d
      cases move with
      | notice n guarded m l rest control => simp [Event.noticeBy?, foreign]
      | send | link | spawnLink | schedule => rfl
  | outside act cause target m d either =>
      refine Ends.receives (h.quiet h.exiting ?_ rfl rfl rfl) target _ d
      rcases either with ⟨-, rfl, -⟩ | ⟨child, -, -, rfl, -⟩ <;> rfl
  | spawn name link free =>
      obtain ⟨guarded, err, rest, control⟩ := h.exiting.in_handler sane (.inl free)
      exact h.in_handler control rfl rfl rfl rfl rfl

end Steps

section Runs
variable {toChars : Float → Bytes} {b : InstanceId} {s s' : System}

/-- The thread of the actor is inside handle_exit or on its way there. -/
def Actor.exiting (x : Actor) : Bool :=
  match x.control with
  | .exits _ _ => true
  | _ => x.leaving

/-- Every handler was called once with a reason, and every link was told once. -/
def Processed (toChars : Float → Bytes) (b : InstanceId) (x : Actor) (err : Bytes)
    (tr tr' : List Event) : Prop :=
  (∃ called, handledBy b tr' = handledBy b tr ++ called ∧
    called.map Prod.fst = x.exitHandlers ∧ ∀ c ∈ called, Reason toChars err c.2) ∧
  noticesBy b tr' = noticesBy b tr ++ x.links.map fun l => (l.peer, err)

def EndsOf (toChars : Float → Bytes) (b : InstanceId) (sent : List (Handle × Bytes))
    (called : List (ExitHandler × Bytes)) (s : System) : Prop :=
  Consistent s ∧ ∃ x, s.actors b = some x ∧ Ends toChars b sent called s.trace x

theorem endsOf_keeps (sent : List (Handle × Bytes)) (called : List (ExitHandler × Bytes)) :
    Keeps (step toChars) (fun _ act => ∀ e, act ≠ .handlerReturns b (some e))
      (EndsOf toChars b sent called) := by
  rintro s act s' ⟨consistent, x, hx, ends⟩ returns h
  have sound := step_sound h
  obtain ⟨x', hx'⟩ := sound.known ⟨x, hx⟩
  obtain ⟨e, trace, moves⟩ := sound.moves consistent.numbered
  rcases moves b x' hx' with ⟨new, -⟩ | ⟨y, hy, move⟩
  · exact absurd (consistent.numbered.lt hx) (new ▸ Nat.lt_irrefl _)
  · rw [hx] at hy
    cases hy
    have next := ends.moves (consistent.sane b x hx) move returns
    exact ⟨consistent.step sound, x', hx', trace ▸ next⟩

/-- Where the exit is over, there is nothing left to send or to call. -/
theorem Ends.finished {sent : List (Handle × Bytes)} {called : List (ExitHandler × Bytes)}
    {tr : List Event} {x : Actor} (h : Ends toChars b sent called tr x) (finished : x.exiting = false) :
    noticesBy b tr = sent ∧ handledBy b tr = called := by
  have exiting := h.exiting
  have nothing : x.toNotify toChars = [] ∧ x.toCall toChars = [] := by
    cases control : x.control with
    | idle | running | checking => simp [Actor.toNotify, Actor.toCall, control]
    | exits => simp [Actor.exiting, control] at finished
    | notifying | handlers | handler => simp [Actor.exiting, Actor.leaving, control] at finished
    | receiving | escaped => simp [Exiting, control] at exiting
  have notices := h.notices
  have handlers := h.handlers
  rw [nothing.1, List.append_nil] at notices
  rw [nothing.2, List.append_nil] at handlers
  exact ⟨notices, handlers⟩

/-- A receiver returns an error, and whatever the others do until the exit is over. -/
theorem exit_processed_iff {before after : List Action} {x y : Actor} {err : Bytes}
    (reached : run (step toChars) .initial before = some s) (hx : s.actors b = some x)
    (ran : run (step toChars) s (.returns b (.returns (.error err)) :: after) = some s')
    (handlers : ∀ e, .handlerReturns b (some e) ∉ after) (hy : s'.actors b = some y)
    (finished : y.exiting = false) :
    Processed toChars b x err s.trace s'.trace ↔ x.exitHandlers = [] ∨ Readable toChars err := by
  obtain ⟨s₁, returned, rest⟩ := run_cons ran
  have consistent := consistent_of_run reached
  have started : s₁.actors b = some { x with control := .exits true err } ∧
      s₁.trace = s.trace ++ [.internal (some b)] := by
    obtain ⟨x₁, hx₁, made⟩ := Option.bind_eq_some_iff.mp returned
    rw [hx] at hx₁
    cases hx₁
    split at made
    · cases made
      exact ⟨set_self b _, rfl⟩
    · cases made
  have noticed : noticesBy b s₁.trace = noticesBy b s.trace := by
    rw [started.2, noticesBy_add]
    exact List.append_nil _
  have handled : handledBy b s₁.trace = handledBy b s.trace := by
    rw [started.2, handledBy_add]
    exact List.append_nil _
  have init : EndsOf toChars b _ _ s₁ :=
    ⟨consistent.step (step_sound returned), _, started.1, nofun, rfl, rfl⟩
  have returns : ∀ act ∈ after, ∀ e, act ≠ .handlerReturns b (some e) := by
    rintro act member e rfl
    exact handlers e member
  obtain ⟨-, z, hz, ends⟩ := (endsOf_keeps _ _).run init (along_of_forall returns) rest
  rw [hy] at hz
  cases hz
  obtain ⟨sent, called⟩ := ends.finished finished
  rw [noticed] at sent
  rw [handled] at called
  constructor
  · rintro ⟨⟨calls, same, all, -⟩, -⟩
    by_contra neither
    obtain ⟨some_handler, unreadable⟩ := not_or.mp neither
    obtain ⟨e, fails⟩ := exitReason_fails unreadable
    have made : calls = [] := by
      have eq := List.append_cancel_left (same.symm.trans called)
      simpa [Actor.toCall, fails] using eq
    rw [made] at all
    exact some_handler all.symm
  · rintro (none | readable)
    · refine ⟨⟨[], ?_, none.symm, by simp⟩, ?_⟩
      · rw [called]
        simp only [Actor.toCall, none]
        split <;> rfl
      · rw [sent]
        simp [Actor.toNotify, Actor.again, none, Actor.notices]
    · obtain ⟨reason, found⟩ := readable.reason
      have read := exitReason_of_reason found
      have names : (x.exitHandlers.map fun h => (h, reason)).map Prod.fst = x.exitHandlers := by
        rw [List.map_map]
        exact List.map_id _
      refine ⟨⟨x.exitHandlers.map fun h => (h, reason), ?_, names, ?_⟩, ?_⟩
      · rw [called]
        simp [Actor.toCall, read]
      · simp only [List.forall_mem_map]
        exact fun _ _ => found
      · rw [sent]
        simp [Actor.toNotify, Actor.again, read, Actor.notices]

/-- An actor with an exit handler and a link to its child. -/
def linkedWithHandler : List Action :=
  [.contextSpawn (text "parent") (some 7), .schedule 1, .deliver 1, .advance 1, .advance 1,
    .spawn 1 (text "child") true, .call 1, .call 1, .call 1]

/-- The error of the receiver, and its run up to its end. -/
def failedRun (err : Bytes) : List Action :=
  [.returns 1 (.returns (.error err)), .advance 1, .advance 1, .advance 1, .advance 1,
    .handlerReturns 1 none, .advance 1]

theorem exit_processed_iff_over :
    ∃ s s' x, run (step fun _ => []) .initial linkedWithHandler = some s ∧
      s.actors 1 = some x ∧ x.exitHandlers = [7] ∧ x.links.map Link.peer = [some 2] ∧
      run (step fun _ => []) s (failedRun (exitMessage (text "over"))) = some s' ∧
      Processed (fun _ => []) 1 x (exitMessage (text "over")) s.trace s'.trace := by
  obtain ⟨s, s', x, y, reached, hx, handlers, links, ran, hy, finished⟩ : ∃ s s' x y,
      run (step fun _ => []) .initial linkedWithHandler = some s ∧ s.actors 1 = some x ∧
      x.exitHandlers = [7] ∧ x.links.map Link.peer = [some 2] ∧
      run (step fun _ => []) s (failedRun (exitMessage (text "over"))) = some s' ∧
      s'.actors 1 = some y ∧ y.exiting = false :=
    ⟨_, _, _, _, rfl, rfl, rfl, rfl, rfl, rfl, rfl⟩
  have found : Readable (fun _ => []) (exitMessage (text "over")) := .inl ⟨_, rfl⟩
  exact ⟨s, s', x, reached, hx, handlers, links, ran,
    (exit_processed_iff reached hx ran (by simp) hy finished).mpr (.inr found)⟩

/-- The error is the empty buffer. The link gets it and then a second message, and the
exit handler is not called. -/
theorem empty_error_tells_links_twice :
    ∃ s s' x y, run (step fun _ => []) .initial linkedWithHandler = some s ∧
      s.actors 1 = some x ∧ x.exitHandlers = [7] ∧ x.links.map Link.peer = [some 2] ∧
      run (step fun _ => []) s (.returns 1 (.returns (.error [])) :: List.replicate 6 (.advance 1))
        = some s' ∧ s'.actors 1 = some y ∧ y.exiting = false ∧
      handledBy 1 s'.trace = [] ∧ noticesBy 1 s'.trace = [(some 2, []), (some 2,
        exitMessage (text "UNHANDLED_EXCEPTION: " ++ DomainError.what tooShort))] ∧
      ¬ Processed (fun _ => []) 1 x [] s.trace s'.trace := by
  refine ⟨_, _, _, _, rfl, rfl, rfl, rfl, rfl, rfl, rfl, rfl, rfl, ?_⟩
  rintro ⟨⟨called, same, all, -⟩, -⟩
  cases called with
  | nil => cases all
  | cons c called => cases same

end Runs

end Thespian.Runtime
