import Thespian.Endpoint.Connection
import Thespian.Socket.WriteQueue
import Thespian.Transition.Runs

/-!
The endpoint connection on top of the socket it owns. A completed write is told to
the connection inside the socket's own handler, before the socket goes on with the
rest of its buffer or with its queue. The connection keeps one flag for all of it.

The flag is right as long as a notification that clears it finds nothing left to
write. Under that condition a requested close loses nothing; a second message
handed to the socket before the first is out is enough to break it.
-/

namespace Thespian.Endpoint
open Cbor Transition Socket

/-- What was passed to the socket when the connection last handled a message with
the close request standing, and what the system had taken when the socket was
closed, are recorded. -/
structure Session where
  connection : Connection
  socket : SocketImpl := {}
  isOpen : Bool := true
  running : Bool := true
  requested : Option Bytes := none
  closed : Option Bytes := none

namespace Session

def closeInternal (s : Session) : Session :=
  if s.isOpen then { s with isOpen := false, closed := some s.socket.accepted } else s

def perform (s : Session) : Action → Session
  | .socketWrite buf => { s with socket := s.socket.writeVector buf }
  | .socketClose => s.closeInternal
  | .ownerSend _ => s
  | .socketRead => s

/-- The receiver is dropped with the connection and its socket. -/
def exit (s : Session) : Session := { s.closeInternal with running := false }

def receive (sends : Nat → Bool) (s : Session) (m : Bytes) : Session :=
  match s.connection.receive sends m with
  | .error _ => s.exit
  | .ok (c, actions, outcome) =>
      let t := actions.foldl perform { s with connection := c }
      let t :=
        if s.isOpen && c.closeOnWriteComplete then { t with requested := some t.socket.written }
        else t
      match outcome with
      | .ok => t
      | .exit _ => t.exit

/-- Behind the notification, unless the socket is gone. -/
def notified (s : Session) : Option Session :=
  if s.running then
    (Socket.step s.socket (.notified true)).map fun socket => { s with socket := socket }
  else some s

end Session

inductive Event where
  | message (sends : Nat → Bool) (m : Bytes)
  | complete (length : Nat)
  | refused (err : Int64) (errMsg : Bytes)

/-- A message is handled, the system takes a part of what it was offered, or refuses
to because the socket is closed. -/
def step (s : Session) : Event → Option Session
  | .message sends m => if s.running then some (s.receive sends m) else none
  | .complete length =>
      if s.running && s.isOpen then
        (Socket.step s.socket (.complete length)).bind fun socket =>
          ({ s with socket := socket }.receive (fun _ => true)
            (writeCompleteMessage s.connection.tag length)).notified
      else none
  | .refused err errMsg =>
      if s.running && !s.isOpen then
        (Socket.step s.socket .fail).bind fun socket =>
          ({ s with socket := socket }.receive (fun _ => true)
            (writeErrorMessage s.connection.tag err errMsg)).notified
      else none

/-- Everything passed to the socket before the request was taken before the close. -/
def Flushed (s : Session) : Prop :=
  ∀ r c, s.requested = some r → s.closed = some c → r <+: c

section Effects
variable {c c' : Connection} {sends : Nat → Bool} {m : Bytes} {actions : List Action}
  {outcome : Outcome}

/-- Nothing is written, and the socket is closed only with the flag down. -/
structure Quiet (c : Connection) (r : Connection × List Action) : Prop where
  tag : r.1.tag = c.tag
  pending : r.1.writePending = c.writePending
  standing : c.closeOnWriteComplete = true → r.1.closeOnWriteComplete = true
  writes : ∀ buf, .socketWrite buf ∉ r.2
  closes : .socketClose ∈ r.2 → c.writePending = false

theorem Quiet.nothing (c : Connection) : Quiet c (c, []) :=
  ⟨rfl, rfl, id, fun _ => List.not_mem_nil, fun h => absurd h List.not_mem_nil⟩

theorem Quiet.buffered (c : Connection) (buf : Bytes) : Quiet c ({ c with readBuf := buf }, []) :=
  ⟨rfl, rfl, id, fun _ => List.not_mem_nil, fun h => absurd h List.not_mem_nil⟩

theorem Quiet.tells (c : Connection) (m : Bytes) : Quiet c (c, [.ownerSend m]) := by
  refine ⟨rfl, rfl, id, ?_, ?_⟩ <;> simp

theorem Quiet.reads (c : Connection) : Quiet c (c, [.socketRead]) := by
  refine ⟨rfl, rfl, id, ?_, ?_⟩ <;> simp

theorem Quiet.close (c : Connection) : Quiet c c.close := by
  refine ⟨rfl, rfl, fun _ => rfl, ?_, ?_⟩
  · intro buf
    cases pending : c.writePending <;> simp [Connection.close, pending]
  · cases pending : c.writePending <;> simp [Connection.close, pending]

theorem Quiet.append {r : Connection × List Action} {acts : List Action} (h : Quiet c (c', acts))
    (h' : Quiet c' r) : Quiet c (r.1, acts ++ r.2) := by
  refine ⟨h'.tag.trans h.tag, h'.pending.trans h.pending, fun set => h'.standing (h.standing set),
    ?_, ?_⟩
  · intro buf member
    rcases List.mem_append.mp member with first | second
    · exact h.writes buf first
    · exact h'.writes buf second
  · intro member
    rcases List.mem_append.mp member with first | second
    · exact h.closes first
    · exact h.pending.symm.trans (h'.closes second)

theorem Quiet.failed (c : Connection) (reason errMsg : Bytes) :
    Quiet c (c.failed reason errMsg) :=
  (Quiet.tells c _).append (Quiet.close c)

/-- The read loop tells the owner, and closes when that fails. -/
theorem Quiet.readLoop (sends : Nat → Bool) (fuel i : Nat) (c : Connection) :
    Quiet c (c.readLoop sends fuel i) := by
  induction fuel generalizing i c with
  | zero => exact Quiet.nothing c
  | succ fuel ih =>
      have round : ∀ {c₁ c₂ : Connection} {framing closing : List Action} {rest : Bytes}
          (item : Bytes), Quiet c (c₁, framing) → Quiet { c₁ with readBuf := rest } (c₂, closing) →
          Quiet c ((c₂.readLoop sends fuel (i + 1)).1, framing ++ [.ownerSend item] ++ closing ++
            (c₂.readLoop sends fuel (i + 1)).2) := by
        intro c₁ c₂ framing closing rest item first second
        have told := first.append (Quiet.tells c₁ item)
        have taken : Quiet c₁ (c₂, closing) := (Quiet.buffered c₁ rest).append second
        exact (told.append taken).append (ih (i + 1) c₂)
      have framed := (Quiet.tells c (array [.string (text "exit"),
        .string (text "framing_error")])).append (Quiet.close c)
      rw [Connection.readLoop]
      split
      · exact Quiet.nothing c
      · split
        · exact Quiet.nothing c
        · rename_i msg rest run
          cases msg with
          | none =>
              cases sends i with
              | true => exact round _ framed (Quiet.nothing _)
              | false => exact round _ framed (Quiet.close _)
          | some msg =>
              cases sends i with
              | true => exact round _ (Quiet.nothing c) (Quiet.nothing _)
              | false => exact round _ (Quiet.nothing c) (Quiet.close _)

theorem Quiet.readComplete (sends : Nat → Bool) (c : Connection) (data : Bytes) :
    Quiet c (c.readComplete sends data) := by
  rw [Connection.readComplete]
  split
  · exact Quiet.close c
  · have loop := (Quiet.buffered c (c.readBuf ++ data)).append (Quiet.readLoop sends
      (c.readBuf ++ data).length 0 { c with readBuf := c.readBuf ++ data })
    exact loop.append (Quiet.reads _)

/-- The message is taken for the notification of a completed write. -/
def Clears (tag m : Bytes) : Prop :=
  ∃ ws, matchBuffer m
    (socketPattern tag (text "write_complete") [.extract (.int .signedInt) 0]) = .ok (true, ws)

/-- The patterns of the receiver, in order. -/
def receivePatterns (tag : Bytes) : List Patterns :=
  [socketPattern tag (text "read_error") [.extract (.int .signedInt) 0, .extract .string 1],
    socketPattern tag (text "read_complete") [.extract .string 0],
    socketPattern tag (text "write_error") [.extract (.int .signedInt) 0, .extract .string 1],
    socketPattern tag (text "write_complete") [.extract (.int .signedInt) 0],
    socketPattern tag (text "closed") [], isExitPattern]

/-- The message is taken for the end of the socket, or cannot be matched at all. -/
def Ends (tag m : Bytes) : Prop :=
  (∃ ws, matchBuffer m (socketPattern tag (text "closed") []) = .ok (true, ws)) ∨
    ∃ p ∈ receivePatterns tag, ∃ e, matchBuffer m p = .error e

/-- What a message can do to the connection. -/
inductive Effect (c : Connection) (m : Bytes) : Except DomainError
    (Connection × List Action × Outcome) → Prop
  | ended {e : DomainError} (ends : Ends c.tag m) : Effect c m (.error e)
  | left {reason : Bytes} (ends : Ends c.tag m) : Effect c m (.ok (c, [], .exit reason))
  | quiet {c' : Connection} {acts : List Action} (quiet : Quiet c (c', acts)) :
      Effect c m (.ok (c', acts, .ok))
  | wrote {c' : Connection} (tag : c'.tag = c.tag) (pending : c'.writePending = true)
      (standing : c.closeOnWriteComplete = true → c'.closeOnWriteComplete = true) :
      Effect c m (.ok (c', [.socketWrite m], .ok))
  | cleared {c' : Connection} {acts : List Action} (clears : Clears c.tag m)
      (quiet : Quiet { c with writePending := false } (c', acts)) :
      Effect c m (.ok (c', acts, .ok))

/-- One round of the chain of patterns. -/
theorem Effect.round {p : Patterns} (member : p ∈ receivePatterns c.tag)
    {f : Bool × Writes → Except DomainError (Connection × List Action × Outcome)}
    (matched : ∀ ws, matchBuffer m p = .ok (true, ws) → Effect c m (f (true, ws)))
    (other : ∀ ws, Effect c m (f (false, ws))) : Effect c m (matchBuffer m p >>= f) := by
  cases run : matchBuffer m p with
  | error e => exact .ended (.inr ⟨p, member, e, run⟩)
  | ok r =>
      obtain ⟨hit, ws⟩ := r
      cases hit with
      | true => exact matched ws run
      | false => exact other ws

theorem receive_effect (sends : Nat → Bool) (c : Connection) (m : Bytes) :
    Effect c m (c.receive sends m) := by
  rw [Connection.receive]
  refine .round (by simp [receivePatterns]) (fun ws _ => .quiet (Quiet.failed c _ _)) fun _ => ?_
  refine .round (by simp [receivePatterns])
    (fun ws _ => .quiet (Quiet.readComplete sends c _)) fun _ => ?_
  refine .round (by simp [receivePatterns]) (fun ws _ => .quiet (Quiet.failed c _ _)) fun _ => ?_
  refine .round (by simp [receivePatterns]) (fun ws run => ?_) fun _ => ?_
  · have told (down : Connection) : Quiet down
        (if down.closeOnWriteComplete then down.close else (down, [])) := by
      split
      · exact Quiet.close down
      · exact Quiet.nothing down
    exact .cleared ⟨ws, run⟩ (told { c with writePending := false })
  refine .round (by simp [receivePatterns]) (fun ws run => .left (.inl ⟨ws, run⟩)) fun _ => ?_
  refine .round (by simp [receivePatterns]) (fun ws run => ?_) fun _ => ?_
  · exact .wrote rfl rfl fun _ => rfl
  · exact .wrote rfl rfl id

end Effects

/-- The condition on a step: the flag is cleared, and the actor left with a close
request standing, only when nothing waits to be taken by the system. -/
def Orderly (s : Session) : Event → Prop
  | .message _ m =>
      s.isOpen = true →
        Clears s.connection.tag m ∨
            Ends s.connection.tag m ∧ s.connection.closeOnWriteComplete = true →
          s.socket.unaccepted = [] ∧ s.socket.writeQ = []
  | .complete length =>
      Clears s.connection.tag (writeCompleteMessage s.connection.tag length) ∨
          Ends s.connection.tag (writeCompleteMessage s.connection.tag length) ∧
            s.connection.closeOnWriteComplete = true →
        s.socket.writeBuf.length ≤ length ∧ s.socket.writeQ = []
  | .refused _ _ => True

section Runs
variable {s s' : Session} {act : Event}

/-- The flag is right while the socket is open. -/
structure Accounted (s : Session) : Prop where
  sound : Sound s.socket
  healthy : s.socket.failed = false
  pending : s.connection.writePending = false → s.socket.accepted = s.socket.written
  standing : ∀ r, s.requested = some r → s.connection.closeOnWriteComplete = true
  requested : ∀ r, s.requested = some r → r <+: s.socket.written
  opened : s.closed = none

def Flushing (s : Session) : Prop := Flushed s ∧ (s.isOpen = true → Accounted s)

theorem closeInternal_of_closed (closed : s.isOpen = false) : s.closeInternal = s := by
  simp [Session.closeInternal, closed]

theorem Flushing.of_closed (closed : s.isOpen = false) (h : Flushed s) : Flushing s :=
  ⟨h, fun isOpen => absurd isOpen (by simp [closed])⟩

/-- The socket is closed with nothing left, or without a request. -/
theorem Accounted.close (h : Accounted s)
    (taken : s.requested ≠ none → s.socket.accepted = s.socket.written) :
    Flushing s.closeInternal := by
  cases isOpen : s.isOpen with
  | false =>
      rw [closeInternal_of_closed isOpen]
      refine .of_closed isOpen fun r c _ closed => ?_
      rw [h.opened] at closed
      cases closed
  | true =>
      have closed : s.closeInternal =
          { s with isOpen := false, closed := some s.socket.accepted } := by
        simp [Session.closeInternal, isOpen]
      rw [closed]
      refine .of_closed rfl fun r c request done => ?_
      cases done
      rw [taken (by rw [request]; exact Option.some_ne_none r)]
      exact h.requested r request

theorem Flushing.stopped (h : Flushing s) : Flushing { s with running := false } := by
  refine ⟨h.1, fun isOpen => ?_⟩
  have account := h.2 isOpen
  exact ⟨account.sound, account.healthy, account.pending, account.standing, account.requested,
    account.opened⟩

/-- The bookkeeping of the request, which does not change what is open or closed. -/
def Session.noted (s : Session) : Session :=
  if s.connection.closeOnWriteComplete then { s with requested := some s.socket.written } else s

theorem Accounted.noted (h : Accounted s) : Accounted s.noted := by
  unfold Session.noted
  split
  · rename_i standing
    refine ⟨h.sound, h.healthy, h.pending, fun _ _ => standing, ?_, h.opened⟩
    intro r request
    cases request
    exact List.prefix_rfl
  · exact h

theorem noted_standing (h : Accounted s) (request : s.noted.requested ≠ none) :
    s.connection.closeOnWriteComplete = true := by
  unfold Session.noted at request
  split at request
  · assumption
  · obtain ⟨r, some⟩ := Option.ne_none_iff_exists'.mp request
    exact h.standing r some

theorem noted_socket (s : Session) : s.noted.socket = s.socket := by
  unfold Session.noted
  split <;> rfl

/-- Nothing happens to the socket, or it is closed. -/
theorem foldl_perform {actions : List Action} (writes : ∀ buf, .socketWrite buf ∉ actions)
    (s : Session) :
    actions.foldl Session.perform s = if .socketClose ∈ actions then s.closeInternal else s := by
  induction actions generalizing s with
  | nil => rfl
  | cons act actions ih =>
      have rest := ih fun buf member => writes buf (List.mem_cons_of_mem act member)
      rw [List.foldl_cons, rest]
      cases act with
      | ownerSend _ | socketRead => simp [Session.perform]
      | socketWrite buf => exact absurd List.mem_cons_self (writes buf)
      | socketClose =>
          have again : s.closeInternal.closeInternal = s.closeInternal := by
            cases isOpen : s.isOpen <;> simp [Session.closeInternal, isOpen]
          simp [Session.perform, again]

/-- A closed socket stays as it is, as far as the record goes. -/
theorem foldl_perform_closed (actions : List Action) {s : Session} (closed : s.isOpen = false) :
    (actions.foldl Session.perform s).isOpen = false ∧
      (actions.foldl Session.perform s).requested = s.requested ∧
      (actions.foldl Session.perform s).closed = s.closed := by
  induction actions generalizing s with
  | nil => exact ⟨closed, rfl, rfl⟩
  | cons act actions ih =>
      cases act with
      | ownerSend _ | socketRead | socketWrite _ => exact ih closed
      | socketClose =>
          have still : s.closeInternal = s := closeInternal_of_closed closed
          rw [List.foldl_cons, Session.perform, still]
          exact ih closed

theorem receive_of_closed (sends : Nat → Bool) (m : Bytes) (closed : s.isOpen = false) :
    (s.receive sends m).isOpen = false ∧ (s.receive sends m).requested = s.requested ∧
      (s.receive sends m).closed = s.closed := by
  have exits {t : Session} (h : t.isOpen = false) :
      t.exit.isOpen = false ∧ t.exit.requested = t.requested ∧ t.exit.closed = t.closed := by
    rw [Session.exit, closeInternal_of_closed h]
    exact ⟨h, rfl, rfl⟩
  rw [Session.receive]
  split
  · exact exits closed
  · rename_i c actions outcome run
    obtain ⟨still, requested, same⟩ :=
      foldl_perform_closed actions (s := { s with connection := c }) closed
    have unnoted : (s.isOpen && c.closeOnWriteComplete) = false := by rw [closed, Bool.false_and]
    simp only [unnoted, Bool.false_eq_true, if_false]
    cases outcome with
    | ok => exact ⟨still, requested, same⟩
    | exit reason =>
        obtain ⟨e₁, e₂, e₃⟩ := exits still
        exact ⟨e₁, e₂.trans requested, e₃.trans same⟩

/-- What is left of the receiver with the socket open, when nothing is written. -/
theorem receive_of_open {sends : Nat → Bool} {m : Bytes} {c : Connection} {actions : List Action}
    {outcome : Outcome} (isOpen : s.isOpen = true)
    (run : s.connection.receive sends m = .ok (c, actions, outcome))
    (writes : ∀ buf, .socketWrite buf ∉ actions) :
    s.receive sends m =
      let t := { s with connection := c }.noted
      let t := if .socketClose ∈ actions then t.closeInternal else t
      match outcome with
      | .ok => t
      | .exit _ => t.exit := by
  rw [Session.receive, run]
  simp only [foldl_perform writes, isOpen, Bool.true_and, Session.noted]
  cases c.closeOnWriteComplete with
  | false => simp
  | true =>
      by_cases closes : Action.socketClose ∈ actions
      · simp [closes, Session.closeInternal]
      · simp [closes]

/-- The connection itself changes, with the flag still right. -/
theorem Accounted.connection (h : Accounted s) {c : Connection}
    (pending : c.writePending = false → s.socket.accepted = s.socket.written)
    (standing : s.connection.closeOnWriteComplete = true → c.closeOnWriteComplete = true) :
    Accounted { s with connection := c } :=
  ⟨h.sound, h.healthy, pending, fun r request => standing (h.standing r request), h.requested,
    h.opened⟩

/-- A quiet message keeps the account, and closes only what the flag says is flushed. -/
theorem Accounted.quiet (h : Accounted s) {c' : Connection} {actions : List Action}
    (quiet : Quiet s.connection (c', actions)) :
    let t := { s with connection := c' }.noted
    Flushing (if .socketClose ∈ actions then t.closeInternal else t) := by
  have next : Accounted { s with connection := c' } :=
    h.connection (fun down => h.pending (quiet.pending.symm.trans down)) quiet.standing
  dsimp only
  split
  · rename_i closes
    refine next.noted.close fun _ => ?_
    rw [noted_socket]
    exact h.pending (quiet.closes closes)
  · refine ⟨fun r c _ closed => ?_, fun _ => next.noted⟩
    rw [next.noted.opened] at closed
    cases closed

theorem Accounted.write (h : Accounted s) (buf : Bytes) {c : Connection}
    (pending : c.writePending = true)
    (standing : s.connection.closeOnWriteComplete = true → c.closeOnWriteComplete = true) :
    Accounted { s with connection := c, socket := s.socket.writeVector buf } := by
  have grows : (s.socket.writeVector buf).written = s.socket.written ++ buf := by
    cases busy : s.socket.writePending <;>
      simp [SocketImpl.writeVector, SocketImpl.write, SocketImpl.writeInternal, busy]
  have healthy : (s.socket.writeVector buf).failed = s.socket.failed := by
    cases busy : s.socket.writePending <;>
      simp [SocketImpl.writeVector, SocketImpl.write, SocketImpl.writeInternal, busy]
  refine ⟨h.sound.write buf, healthy.trans h.healthy, ?_,
    fun r request => standing (h.standing r request), ?_, h.opened⟩
  · intro down
    rw [pending] at down
    cases down
  · intro r request
    rw [grows]
    exact (h.requested r request).trans (List.prefix_append _ _)

theorem Flushing.receive (h : Flushing s) (sends : Nat → Bool) {m : Bytes}
    (orderly : s.isOpen = true → Clears s.connection.tag m ∨
        Ends s.connection.tag m ∧ s.connection.closeOnWriteComplete = true →
      s.socket.unaccepted = [] ∧ s.socket.writeQ = []) :
    Flushing (s.receive sends m) := by
  cases isOpen : s.isOpen with
  | false =>
      obtain ⟨still, requested, closed⟩ := receive_of_closed sends m isOpen
      refine .of_closed still ?_
      intro r c request done
      exact h.1 r c (requested ▸ request) (closed ▸ done)
  | true =>
      have account := h.2 isOpen
      have taken := fun drained => account.sound.taken_all account.healthy drained
      generalize run : s.connection.receive sends m = result
      have effect := receive_effect sends s.connection m
      rw [run] at effect
      cases effect with
      | ended ends =>
          rw [Session.receive, run]
          refine (account.close fun request => ?_).stopped
          obtain ⟨r, some⟩ := Option.ne_none_iff_exists'.mp request
          exact taken (orderly isOpen (.inr ⟨ends, account.standing r some⟩))
      | left ends =>
          rw [receive_of_open isOpen run (fun _ => List.not_mem_nil)]
          simp only [List.not_mem_nil, if_false]
          refine (account.noted.close fun request => ?_).stopped
          rw [noted_socket]
          exact taken (orderly isOpen (.inr ⟨ends, noted_standing account request⟩))
      | quiet quiet =>
          rw [receive_of_open isOpen run quiet.writes]
          exact account.quiet quiet
      | @wrote c' _ pending standing =>
          have next := (account.write m pending standing).noted
          have shape : s.receive sends m =
              { s with connection := c', socket := s.socket.writeVector m }.noted := by
            rw [Session.receive, run]
            simp [Session.perform, Session.noted, isOpen]
          rw [shape]
          refine ⟨fun r c _ closed => ?_, fun _ => next⟩
          rw [next.opened] at closed
          cases closed
      | cleared clears quiet =>
          rw [receive_of_open isOpen run quiet.writes]
          have down : Accounted { s with connection :=
              { s.connection with writePending := false } } :=
            account.connection (fun _ => taken (orderly isOpen (.inl clears))) id
          exact down.quiet quiet

theorem Accounted.of_socket (h : Accounted s) {socket : SocketImpl} (sound : Sound socket)
    (healthy : socket.failed = false) (written : socket.written = s.socket.written)
    (accepted : s.socket.accepted <+: socket.accepted) : Accounted { s with socket := socket } := by
  refine ⟨sound, healthy, fun down => ?_, h.standing, fun r request => ?_, h.opened⟩
  · have all : socket.written <+: socket.accepted := by
      rw [written, ← h.pending down]
      exact accepted
    exact sound.first.eq_of_length_le all.length_le
  · dsimp only
    rw [written]
    exact h.requested r request

theorem Flushing.of_socket (h : Flushing s) {socket : SocketImpl}
    (account : s.isOpen = true → Accounted { s with socket := socket }) :
    Flushing { s with socket := socket } :=
  ⟨h.1, account⟩

/-- The socket goes on behind the notification. -/
theorem Flushing.notified (h : Flushing s) (next : s.notified = some s') : Flushing s' := by
  unfold Session.notified at next
  split at next
  · obtain ⟨socket, run, rfl⟩ := Option.map_eq_some_iff.mp next
    obtain ⟨accepted, written, failed⟩ := notified_keeps run
    refine h.of_socket fun isOpen => ?_
    have account := h.2 isOpen
    refine account.of_socket (sound_step account.sound run) ?_ written ?_
    · exact failed.trans account.healthy
    · rw [accepted]
  · cases next
    exact h

theorem flushing_step (h : Flushing s) (orderly : Orderly s act) (next : step s act = some s') :
    Flushing s' := by
  cases act with
  | message sends m =>
      simp only [step, Option.ite_none_right_eq_some] at next
      cases next.2
      exact h.receive sends orderly
  | complete length =>
      simp only [step, Option.ite_none_right_eq_some, Bool.and_eq_true] at next
      obtain ⟨⟨-, isOpen⟩, next⟩ := next
      obtain ⟨socket, run, told⟩ := Option.bind_eq_some_iff.mp next
      have account := h.2 isOpen
      have sound := sound_step account.sound run
      obtain ⟨offered, -, -, -, rfl⟩ := step_complete run
      have taken := h.of_socket fun _ =>
        account.of_socket sound account.healthy rfl (List.prefix_append _ _)
      refine (taken.receive (fun _ => true) fun _ clears => ?_).notified told
      obtain ⟨whole, queue⟩ := orderly clears
      exact ⟨List.drop_eq_nil_of_le whole, queue⟩
  | refused err errMsg =>
      simp only [step, Option.ite_none_right_eq_some, Bool.and_eq_true, Bool.not_eq_true'] at next
      obtain ⟨⟨-, closed⟩, next⟩ := next
      have shut : ¬ s.isOpen = true := by
        rw [closed]
        decide
      obtain ⟨socket, -, told⟩ := Option.bind_eq_some_iff.mp next
      have still : Flushing { s with socket := socket } :=
        h.of_socket fun isOpen => absurd isOpen shut
      exact (still.receive (fun _ => true) fun isOpen => absurd isOpen shut).notified told

/-- A new connection with its socket. -/
def Session.attach (tag : Bytes) : Session :=
  { connection := {
      tag := tag, readBuf := [], writePending := false, closeOnWriteComplete := false } }

theorem flushing_attach (tag : Bytes) : Flushing (Session.attach tag) := by
  refine ⟨fun _ _ _ closed => (nomatch closed), fun _ => ?_⟩
  exact ⟨sound_initial, rfl, fun _ => rfl, fun _ request => (nomatch request),
    fun _ request => (nomatch request), rfl⟩

end Runs

/-- A requested close waits for everything that was written, in every run in which
the notifications come with nothing left to write. -/
theorem close_flushes_when_orderly {tag : Bytes} {acts : List Event} {s : Session}
    (orderly : Along step Orderly (Session.attach tag) acts)
    (h : run step (Session.attach tag) acts = some s) : Flushed s := by
  have keeps : Keeps step Orderly Flushing := fun _ _ _ inv orderly h => flushing_step inv orderly h
  exact (keeps.run (flushing_attach tag) orderly h).1

/-- Nothing waits, or all of it has just been taken. -/
def drained (s : Session) : Event → Bool
  | .message _ _ => s.socket.unaccepted = [] && s.socket.writeQ = []
  | .complete length => s.socket.writeBuf.length ≤ length && s.socket.writeQ = []
  | .refused _ _ => true

theorem orderly_of_drained {s : Session} {act : Event} (h : drained s act = true) :
    Orderly s act := by
  cases act with
  | message sends m =>
      intro _ _
      simpa [drained] using h
  | complete length =>
      intro _
      simpa [drained] using h
  | refused _ _ => trivial

/-- The same two messages, with the first one out before the second comes. -/
def settledExit : List Event :=
  [.message (fun _ => true) (array [.string (text "hi")]), .complete 4,
    .message (fun _ => true) (array [.string (text "exit"), .string (text "done")]),
    .complete 11]

theorem close_flushes_settled_exit :
    ∃ s, run step (Session.attach (text "tcp")) settledExit = some s ∧
      s.closed = some (array [.string (text "hi")] ++
        array [.string (text "exit"), .string (text "done")]) ∧ Flushed s := by
  have outcome : (run step (Session.attach (text "tcp")) settledExit).map Session.closed =
      some (some (array [.string (text "hi")] ++
        array [.string (text "exit"), .string (text "done")])) := by
    decide +kernel
  have settled : Along step (fun s act => drained s act = true) (Session.attach (text "tcp"))
      settledExit := by
    decide +kernel
  obtain ⟨s, whole, closed⟩ := Option.map_eq_some_iff.mp outcome
  exact ⟨s, whole, closed, close_flushes_when_orderly
    (settled.mono fun _ _ => orderly_of_drained) whole⟩

/-- A message, an exit message, and the completion of the first write. -/
def queuedExit : List Event :=
  [.message (fun _ => true) (array [.string (text "hi")]),
    .message (fun _ => true) (array [.string (text "exit"), .string (text "done")]),
    .complete 4]

theorem close_drops_queued_exit :
    ∃ s, run step (Session.attach (text "tcp")) queuedExit = some s ∧ ¬ Flushed s := by
  have outcome : (run step (Session.attach (text "tcp")) queuedExit).map
      (fun s => (s.requested, s.closed)) =
      some (some (array [.string (text "hi")] ++
          array [.string (text "exit"), .string (text "done")]),
        some (array [.string (text "hi")])) := by
    decide +kernel
  obtain ⟨s, whole, record⟩ := Option.map_eq_some_iff.mp outcome
  obtain ⟨requested, closed⟩ := Prod.mk.inj record
  refine ⟨s, whole, fun flushed => ?_⟩
  have short := (flushed _ _ requested closed).length_le
  exact absurd short (by decide)

end Thespian.Endpoint
