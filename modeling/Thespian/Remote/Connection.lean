import Thespian.Remote.Matching
import Thespian.Socket.WriteQueue

/-!
The connection endpoint of the remote modules. It counts the bytes handed to its
socket and not yet reported written, and on an exit request waits for the count to
reach zero or for the flush timer. What the endpoint behind it makes of a message
or of received bytes is left open: the frame it sends, or its failure, comes with
the event.

The socket reports every partial write by itself. The count is right because a
report never exceeds what was offered, and the offers partition what was written.
-/

namespace Thespian.Remote.EndpointConnection
open Cbor Zig Transition Socket

def tag : Bytes := text "EPCON"

/-- What receive_safe takes a message for. -/
inductive Message where
  | readComplete (bytes : Bytes)
  | writeComplete (written : Nat)
  | readError (reason : Bytes)
  | writeError (reason : Bytes)
  | closed
  | exit (reason : Bytes)
  | flushTimeout
  | other

inductive Timer where
  | unset
  | armed
  | expired
  | delivered
deriving DecidableEq

structure Connection where
  unwritten : Nat := 0
  exitReason : Option Bytes := none

/-- The totals passed to the socket and reported by it, the first exit request that
had to wait, and the reason of close_and_exit are recorded. -/
structure Session where
  connection : Connection := {}
  socket : SocketImpl := {}
  flushTimeout : Timer := .unset
  running : Bool := true
  passed : Nat := 0
  reported : Nat := 0
  waited : Option Bytes := none
  left : Option Bytes := none

section Receive
variable {ε : Type} (cbor : Package ε) (errorName : ε → Bytes)

def socketPattern (event : Bytes) (parms : List (Pat ε)) : List (Pat ε) :=
  .literal (text "socket") :: .literal tag :: .literal event :: parms

def patterns : List (List (Pat ε) × (List Extracted → Message)) :=
  [(socketPattern (text "read_complete") [.string], fun values => .readComplete (stringAt values 0)),
    (socketPattern (text "write_complete") [.uint],
      fun values => .writeComplete (uintAt values 0).toNat),
    (socketPattern (text "read_error") [.raw, .string], fun values => .readError (stringAt values 1)),
    (socketPattern (text "write_error") [.raw, .string],
      fun values => .writeError (stringAt values 1)),
    (socketPattern (text "closed") [], fun _ => .closed),
    ([.literal (text "exit"), .string], fun values => .exit (stringAt values 0)),
    ([.literal (text "flush_timeout")], fun _ => .flushTimeout)]

def classify (m : Bytes) : Except Failure Message := firstMatch cbor errorName m .other patterns

namespace Session

def sendFrame (s : Session) (frame : Bytes) : Session :=
  { s with
    socket := s.socket.writeVector frame
    connection := { s.connection with unwritten := s.connection.unwritten + frame.length }
    passed := s.passed + frame.length }

def closeAndExit (s : Session) (reason : Bytes) : Session × Option Failure :=
  ({ s with left := some reason }, some (Zig.exit cbor reason))

/-- `try self.endpoint.send_transport_error(reason); return tp.exit(reason);` -/
def transportExit (s : Session) (reason : Bytes) : Session × Option Failure :=
  match (ProtocolMessage.transportError reason).encode cbor maxFrameSize with
  | .ok frame => (s.sendFrame frame, some (Zig.exit cbor reason))
  | .error e => (s, some (exitError cbor (protocolErrorName errorName e)))

/-- The branches of receive_safe; the endpoint's part is given. -/
def dispatch (endpoint : Except Failure (Option Bytes)) (s : Session) :
    Message → Session × Option Failure
  | .readComplete bytes =>
      if bytes = [] then s.transportExit cbor errorName (text "peer_closed")
      else match endpoint with
        | .ok _ => (s, none)
        | .error f => (s, some f)
  | .writeComplete written =>
      let s := { s with
        connection := { s.connection with unwritten := s.connection.unwritten - written } }
      if s.connection.unwritten = 0 then
        match s.connection.exitReason with
        | some r => s.closeAndExit cbor r
        | none => (s, none)
      else (s, none)
  | .readError reason => s.transportExit cbor errorName reason
  | .writeError reason => s.transportExit cbor errorName reason
  | .closed => (s, some (Zig.exit cbor (text "transport_closed")))
  | .exit reason =>
      if s.connection.unwritten = 0 then s.closeAndExit cbor reason
      else if s.connection.exitReason.isSome then (s, none)
      else
        ({ s with
          connection := { s.connection with exitReason := some reason }
          flushTimeout := .armed }, none)
  | .flushTimeout =>
      match s.connection.exitReason with
      | some r => s.closeAndExit cbor r
      | none => (s, none)
  | .other =>
      match endpoint with
      | .ok (some frame) => (s.sendFrame frame, none)
      | .ok none => (s, none)
      | .error f => (s, some f)

/-- An error is the actor's exit. -/
def settle (r : Session × Option Failure) : Session :=
  if r.2.isSome then { r.1 with running := false } else r.1

def receive (endpoint : Except Failure (Option Bytes)) (s : Session) (m : Bytes) : Session :=
  match classify cbor errorName m with
  | .error _ => { s with running := false }
  | .ok message => settle (s.dispatch cbor errorName endpoint message)

/-- The first request that finds bytes unreported is noted. -/
def note (s : Session) (reason : Bytes) : Session :=
  if s.reported < s.passed && s.waited.isNone then { s with waited := some reason } else s

def notified (s : Session) : Option Session :=
  if s.running then
    (Socket.step s.socket (.notified true)).map fun socket => { s with socket := socket }
  else some s

end Session

inductive Event where
  | message (m : Bytes) (endpoint : Except Failure (Option Bytes))
  | complete (length : UInt64)
  | fail
  | expire
  | flushTimeout

/-- Reports of completed writes come from the socket and flush_timeout from the timer;
every other message may come at any time. -/
def step (s : Session) : Event → Option Session
  | .message m endpoint =>
      if s.running then
        match classify cbor errorName m with
        | .ok (.writeComplete _) | .ok .flushTimeout => none
        | .ok (.exit reason) => some ((s.note reason).receive cbor errorName endpoint m)
        | _ => some (s.receive cbor errorName endpoint m)
      else none
  | .complete length =>
      if s.running then
        (Socket.step s.socket (.complete length.toNat)).bind fun socket =>
          ({ s with socket := socket, reported := s.reported + length.toNat }.receive cbor
            errorName (.ok none) (writeCompleteMessage tag length.toNat)).notified
      else none
  | .fail =>
      if s.running then
        (Socket.step s.socket .fail).bind fun socket =>
          (Socket.step socket (.notified true)).map fun socket => { s with socket := socket }
      else none
  | .expire => if s.flushTimeout = .armed then some { s with flushTimeout := .expired } else none
  | .flushTimeout =>
      if s.running && s.flushTimeout = .expired then
        some ({ s with flushTimeout := .delivered }.receive cbor errorName (.ok none)
          (cbor.writeValue (.tuple [.string (text "flush_timeout")])))
      else none

end Receive

section Invariant
variable {ε : Type} {cbor : Package ε} {errorName : ε → Bytes} {s s' : Session}

/-- The count against the two totals, and these against the socket. -/
structure Counted (s : Session) : Prop where
  sound : Sound s.socket
  passed : s.passed = s.socket.written.length
  reported : s.reported = s.socket.accepted.length
  unwritten : s.connection.unwritten + s.reported = s.passed
  open_ : s.running = true → s.left = none
  waiting : s.running = true → s.connection.exitReason = s.waited
  due : s.running = true → s.waited ≠ none → s.reported < s.passed
  closes : ∀ r, s.left = some r → s.flushTimeout = .delivered ∨ s.reported = s.passed
  reason : ∀ r w, s.left = some r → s.waited = some w → r = w

theorem Counted.stop (h : Counted s) : Counted { s with running := false } :=
  ⟨h.sound, h.passed, h.reported, h.unwritten, nofun, nofun, nofun, h.closes, h.reason⟩

theorem Counted.settle {r : Session × Option Failure} (h : Counted r.1) :
    Counted (Session.settle r) := by
  unfold Session.settle
  split
  · exact h.stop
  · exact h

theorem writeVector_written (socket : SocketImpl) (buf : Bytes) :
    (socket.writeVector buf).written = socket.written ++ buf ∧
      (socket.writeVector buf).accepted = socket.accepted := by
  cases busy : socket.writePending <;>
    simp [SocketImpl.writeVector, SocketImpl.write, SocketImpl.writeInternal, busy]

theorem Counted.sendFrame (h : Counted s) (running : s.running = true) (frame : Bytes) :
    Counted (s.sendFrame frame) := by
  obtain ⟨written, accepted⟩ := writeVector_written s.socket frame
  have count := h.unwritten
  refine ⟨h.sound.write frame, ?_, ?_, ?_, h.open_, h.waiting, ?_, ?_, ?_⟩
  · change s.passed + frame.length = (s.socket.writeVector frame).written.length
    rw [written, List.length_append, h.passed]
  · change s.reported = (s.socket.writeVector frame).accepted.length
    rw [accepted, h.reported]
  · change s.connection.unwritten + frame.length + s.reported = s.passed + frame.length
    omega
  · intro _ waited
    have before := h.due running waited
    change s.reported < s.passed + frame.length
    omega
  · intro r left
    have none : s.left = none := h.open_ running
    rw [show (s.sendFrame frame).left = s.left from rfl, none] at left
    cases left
  · intro r w left
    have none : s.left = none := h.open_ running
    rw [show (s.sendFrame frame).left = s.left from rfl, none] at left
    cases left

/-- The socket is closed with the count at zero or the timer run out, for the reason
that waited if there is one. -/
theorem Counted.closeAndExit (h : Counted s) {r : Bytes}
    (allowed : s.flushTimeout = .delivered ∨ s.reported = s.passed)
    (kept : ∀ w, s.waited = some w → r = w) :
    Counted { s with left := some r, running := false } := by
  refine ⟨h.sound, h.passed, h.reported, h.unwritten, nofun, nofun, nofun, fun _ _ => allowed, ?_⟩
  intro r' w left waited
  cases left
  exact kept w waited

theorem Counted.transportExit (h : Counted s) (running : s.running = true) (reason : Bytes) :
    Counted (s.transportExit cbor errorName reason).1 := by
  unfold Session.transportExit
  split
  · exact h.sendFrame running _
  · exact h

/-- Every message that is neither a report, nor the timer's, nor an exit request. -/
theorem Counted.dispatch (h : Counted s) (running : s.running = true)
    (endpoint : Except Failure (Option Bytes)) {message : Message}
    (report : ∀ n, message ≠ .writeComplete n) (timer : message ≠ .flushTimeout)
    (request : ∀ reason, message ≠ .exit reason) :
    Counted (s.dispatch cbor errorName endpoint message).1 := by
  cases message with
  | readComplete bytes =>
      simp only [Session.dispatch]
      split
      · exact h.transportExit running _
      · cases endpoint with
        | ok _ => exact h
        | error f => exact h
  | writeComplete n => exact absurd rfl (report n)
  | readError reason => exact h.transportExit running reason
  | writeError reason => exact h.transportExit running reason
  | closed => exact h
  | exit reason => exact absurd rfl (request reason)
  | flushTimeout => exact absurd rfl timer
  | other =>
      cases endpoint with
      | ok frame =>
          cases frame with
          | some frame => exact h.sendFrame running frame
          | none => exact h
      | error f => exact h

theorem note_of_reported (reported : ¬ s.reported < s.passed) (reason : Bytes) :
    s.note reason = s := by
  simp [Session.note, reported]

theorem note_of_waited (waited : s.waited ≠ none) (reason : Bytes) : s.note reason = s := by
  have some : s.waited.isNone = false := by
    cases eq : s.waited with
    | none => exact absurd eq waited
    | some _ => rfl
  simp [Session.note, some]

/-- A request is answered at once, waits, or finds another one waiting. -/
theorem Counted.request (h : Counted s) (running : s.running = true)
    (endpoint : Except Failure (Option Bytes)) (reason : Bytes) :
    Counted (.settle ((s.note reason).dispatch cbor errorName endpoint (.exit reason))) := by
  have count := h.unwritten
  by_cases drained : s.connection.unwritten = 0
  · have equal : s.reported = s.passed := by omega
    have free : s.waited = none := by
      by_contra waited
      have due := h.due running waited
      omega
    rw [note_of_reported (by omega)]
    simp only [Session.dispatch, drained, if_true]
    refine h.closeAndExit (.inr equal) fun w waited => ?_
    rw [free] at waited
    cases waited
  · have pending : s.reported < s.passed := by omega
    have same := h.waiting running
    cases waited : s.waited with
    | some w =>
        have taken : s.connection.exitReason = some w := same.trans waited
        rw [note_of_waited (by rw [waited]; exact Option.some_ne_none w)]
        simp only [Session.dispatch, drained, if_false, taken, Option.isSome_some, if_true]
        exact h
    | none =>
        have free : s.connection.exitReason = none := same.trans waited
        have noted : s.note reason = { s with waited := some reason } := by
          simp [Session.note, pending, waited]
        rw [noted]
        simp only [Session.dispatch, drained, if_false, free, Option.isSome_none,
          Bool.false_eq_true]
        refine ⟨h.sound, h.passed, h.reported, h.unwritten, h.open_, fun _ => rfl,
          fun _ _ => pending, ?_, ?_⟩
        · intro r left
          rw [h.open_ running] at left
          cases left
        · intro r w left
          rw [h.open_ running] at left
          cases left

/-- The timer's message closes for the reason that waited. -/
theorem Counted.timeout (h : Counted s) (running : s.running = true)
    (fired : s.flushTimeout = .delivered) (endpoint : Except Failure (Option Bytes)) :
    Counted (.settle (s.dispatch cbor errorName endpoint .flushTimeout)) := by
  have same := h.waiting running
  simp only [Session.dispatch]
  split
  · rename_i r taken
    refine h.closeAndExit (.inl fired) fun w waited => ?_
    rw [same, waited] at taken
    exact (Option.some.inj taken).symm
  · exact h

/-- What the socket offers is a part of what is unwritten. -/
theorem Counted.offered (h : Counted s) {socket : SocketImpl} {length : Nat}
    (run : Socket.step s.socket (.complete length) = some socket) :
    length ≤ s.connection.unwritten := by
  obtain ⟨offered, idle, outstanding, fits, -⟩ := step_complete run
  have count := h.unwritten
  have written := h.passed
  have accepted := h.reported
  obtain ⟨phase, -, buf⟩ := h.sound.held.of_outstanding outstanding
  have healthy : s.socket.failed = false := by
    cases h.sound.held with
    | offered _ failed => exact failed
    | free _ _ _ none | taken _ _ _ _ none | lost _ _ _ none =>
        rw [outstanding] at none
        cases none
  have split := congrArg List.length (h.sound.remainder healthy)
  simp only [SocketImpl.unaccepted, phase, buf, List.length_append] at split
  omega

/-- The report of a completed write, which the socket has counted already. -/
theorem Counted.report (h : Counted s) (running : s.running = true) {socket : SocketImpl}
    {length : Nat} (run : Socket.step s.socket (.complete length) = some socket)
    (endpoint : Except Failure (Option Bytes)) :
    Counted (.settle ({ s with socket := socket, reported := s.reported + length }.dispatch cbor
      errorName endpoint (.writeComplete length))) := by
  have count := h.unwritten
  have offered := h.offered run
  have sound := sound_step h.sound run
  have written : socket.written = s.socket.written := by
    obtain ⟨_, -, -, -, rfl⟩ := step_complete run
    rfl
  have accepted : socket.accepted.length = s.socket.accepted.length + length := by
    obtain ⟨_, -, -, fits, rfl⟩ := step_complete run
    simp only [List.length_append, List.length_take]
    omega
  have next (stays : Bool) (due : stays = true → s.waited ≠ none →
        0 < s.connection.unwritten - length) :
      Counted { s with
        socket := socket, reported := s.reported + length, running := stays
        connection := { s.connection with unwritten := s.connection.unwritten - length } } := by
    refine ⟨sound, ?_, ?_, ?_, fun _ => h.open_ running, fun _ => h.waiting running, ?_, ?_, ?_⟩
    · rw [written]
      exact h.passed
    · change s.reported + length = socket.accepted.length
      rw [accepted, h.reported]
    · change s.connection.unwritten - length + (s.reported + length) = s.passed
      omega
    · intro here waited
      have positive := due here waited
      change s.reported + length < s.passed
      omega
    · intro r closed
      rw [h.open_ running] at closed
      cases closed
    · intro r w closed
      rw [h.open_ running] at closed
      cases closed
  have same := h.waiting running
  simp only [Session.dispatch]
  split
  · rename_i drained
    split
    · rename_i r taken
      have closing := next false nofun
      refine closing.closeAndExit (.inr ?_) fun w waited => ?_
      · change s.reported + length = s.passed
        have none : s.connection.unwritten - length = 0 := drained
        omega
      · rw [same] at taken
        exact Option.some.inj (taken.symm.trans waited)
    · rename_i free
      refine running ▸ next s.running fun _ waited => ?_
      exact absurd (same.symm.trans free) waited
  · rename_i left
    refine running ▸ next s.running fun _ _ => ?_
    exact Nat.pos_of_ne_zero left

theorem classify_writeComplete (doc : Selective cbor) (length : UInt64) :
    classify cbor errorName (writeCompleteMessage tag length.toNat) =
      .ok (.writeComplete length.toNat) := by
  have elements : writeCompleteMessage tag length.toNat = arrayOf [pushString (text "socket"),
      pushString tag, pushString (text "write_complete"), pushUint length] := by
    simp [writeCompleteMessage, array, arrayOf, encodeItems, encode]
  have items : Items [pushString (text "socket"), pushString tag,
      pushString (text "write_complete"), pushUint length] := by
    have short := pushUint_length_le length
    refine ⟨by simp, ?_, ?_⟩
    · simp only [List.forall_mem_cons]
      exact ⟨by decide, by decide, by decide, by omega, by simp⟩
    · simp only [List.forall_mem_cons]
      exact ⟨wellFormed_string (by decide), wellFormed_string (by decide),
        wellFormed_string (by decide), wellFormed_uint length, by simp⟩
  have differs : text "write_complete" ≠ text "read_complete" := by decide
  have here : (Pat.uint : Pat ε).Accepts (pushUint length) [.uint length] := ⟨length, rfl, rfl⟩
  simp only [classify, patterns, socketPattern, elements]
  rw [firstMatch_of_refuses doc items
      (refuses_later_literal _ (refuses_later_literal _ (refuses_literal differs _ _))),
    firstMatch_of_accepts doc.toDocumented items
      (accepts_literal _ (accepts_literal _ (accepts_literal _ (accepts_extract here .nil))))]
  rfl

theorem classify_flushTimeout (doc : Selective cbor) :
    classify cbor errorName (cbor.writeValue (.tuple [.string (text "flush_timeout")])) =
      .ok .flushTimeout := by
  have elements : cbor.writeValue (.tuple [.string (text "flush_timeout")]) =
      arrayOf [pushString (text "flush_timeout")] := by
    simp [doc.write_tuple, doc.write_string]
  have items : Items [pushString (text "flush_timeout")] := by
    refine ⟨by simp, ?_, ?_⟩
    · simp only [List.forall_mem_cons]
      exact ⟨by decide, by simp⟩
    · simp only [List.forall_mem_cons]
      exact ⟨wellFormed_string (by decide), by simp⟩
  have notSocket : text "flush_timeout" ≠ text "socket" := by decide
  have notExit : text "flush_timeout" ≠ text "exit" := by decide
  simp only [classify, patterns, socketPattern, elements]
  repeat rw [firstMatch_of_refuses doc items (refuses_literal notSocket _ _)]
  rw [firstMatch_of_refuses doc items (refuses_literal notExit _ _),
    firstMatch_of_accepts doc.toDocumented items (accepts_literal _ .nil)]

theorem Counted.of_socket (h : Counted s) {socket : SocketImpl} (sound : Sound socket)
    (accepted : socket.accepted = s.socket.accepted) (written : socket.written = s.socket.written) :
    Counted { s with socket := socket } := by
  refine ⟨sound, ?_, ?_, h.unwritten, h.open_, h.waiting, h.due, h.closes, h.reason⟩
  · rw [written]
    exact h.passed
  · rw [accepted]
    exact h.reported

theorem Counted.notified (h : Counted s) (next : s.notified = some s') : Counted s' := by
  unfold Session.notified at next
  split at next
  · obtain ⟨socket, run, rfl⟩ := Option.map_eq_some_iff.mp next
    obtain ⟨accepted, written, -⟩ := notified_keeps run
    exact h.of_socket (sound_step h.sound run) accepted written
  · cases next
    exact h

theorem receive_of_classify {m : Bytes} {message : Message} (endpoint : Except Failure (Option Bytes))
    (run : classify cbor errorName m = .ok message) :
    s.receive cbor errorName endpoint m = .settle (s.dispatch cbor errorName endpoint message) := by
  rw [Session.receive, run]

theorem counted_step (doc : Selective cbor) {event : Event} (h : Counted s)
    (next : step cbor errorName s event = some s') : Counted s' := by
  cases event with
  | message m endpoint =>
      simp only [step, Option.ite_none_right_eq_some] at next
      obtain ⟨running, next⟩ := next
      split at next
      · cases next
      · cases next
      · rename_i reason run
        cases next
        rw [receive_of_classify endpoint run]
        exact h.request running endpoint reason
      · rename_i report timer request
        cases next
        cases run : classify cbor errorName m with
        | error f =>
            rw [Session.receive, run]
            exact h.stop
        | ok message =>
            rw [receive_of_classify endpoint run]
            refine (h.dispatch running endpoint ?_ ?_ ?_).settle
            · rintro n rfl
              exact report n run
            · rintro rfl
              exact timer run
            · rintro reason rfl
              exact request reason run
  | complete length =>
      simp only [step, Option.ite_none_right_eq_some] at next
      obtain ⟨running, next⟩ := next
      obtain ⟨socket, run, told⟩ := Option.bind_eq_some_iff.mp next
      rw [receive_of_classify (.ok none) (classify_writeComplete doc length)] at told
      exact (h.report running run (.ok none)).notified told
  | fail =>
      simp only [step, Option.ite_none_right_eq_some] at next
      obtain ⟨running, next⟩ := next
      obtain ⟨failed, run, told⟩ := Option.bind_eq_some_iff.mp next
      obtain ⟨socket, run', rfl⟩ := Option.map_eq_some_iff.mp told
      obtain ⟨accepted, written⟩ := fail_keeps run
      obtain ⟨accepted', written', -⟩ := notified_keeps run'
      exact h.of_socket (sound_step (sound_step h.sound run) run') (accepted'.trans accepted)
        (written'.trans written)
  | expire =>
      simp only [step, Option.ite_none_right_eq_some] at next
      obtain ⟨armed, next⟩ := next
      cases next
      refine ⟨h.sound, h.passed, h.reported, h.unwritten, h.open_, h.waiting, h.due, ?_, h.reason⟩
      intro r left
      rcases h.closes r left with fired | equal
      · rw [armed] at fired
        cases fired
      · exact .inr equal
  | flushTimeout =>
      simp only [step, Option.ite_none_right_eq_some, Bool.and_eq_true, decide_eq_true_eq] at next
      obtain ⟨⟨running, expired⟩, next⟩ := next
      cases next
      have fired : Counted { s with flushTimeout := .delivered } :=
        ⟨h.sound, h.passed, h.reported, h.unwritten, h.open_, h.waiting, h.due,
          fun _ _ => .inl rfl, h.reason⟩
      rw [receive_of_classify (.ok none) (classify_flushTimeout doc)]
      exact fired.timeout running rfl (.ok none)

theorem counted_initial : Counted {} :=
  ⟨sound_initial, rfl, rfl, rfl, fun _ => rfl, fun _ => rfl, fun _ waited => absurd rfl waited,
    nofun, nofun⟩

end Invariant

/-- What is said of the count in a state. -/
structure Flushes (s : Session) : Prop where
  /-- The count is what was passed to the socket less what it reported. -/
  unwritten : s.connection.unwritten = s.passed - s.reported ∧ s.reported ≤ s.passed
  /-- No report the socket can make exceeds the count. -/
  unclipped : ∀ length socket, Socket.step s.socket (.complete length) = some socket →
    length ≤ s.connection.unwritten
  /-- The request that had to wait is the one that is kept. -/
  kept : s.running = true → s.connection.exitReason = s.waited
  /-- The socket is closed on request when the system has taken everything, the frames
  sent in the meantime included, or when the timer has fired. -/
  closes : ∀ r, s.left = some r → s.running = false ∧ (s.flushTimeout = .delivered ∨
    s.reported = s.passed ∧ s.socket.accepted = s.socket.written)
  /-- The reason is that of the first request that had to wait. -/
  reason : ∀ r w, s.left = some r → s.waited = some w → r = w

theorem exit_flushes {ε : Type} {cbor : Package ε} (doc : Selective cbor) (errorName : ε → Bytes)
    {events : List Event} {s : Session} (h : run (step cbor errorName) {} events = some s) :
    Flushes s := by
  have keeps : Keeps (step cbor errorName) (fun _ _ => True) Counted :=
    fun _ _ _ inv _ h => counted_step doc inv h
  have counted := keeps.run counted_initial (along_true events) h
  have count := counted.unwritten
  refine ⟨⟨by omega, by omega⟩, fun _ _ => counted.offered, counted.waiting, ?_, counted.reason⟩
  intro r left
  refine ⟨?_, (counted.closes r left).imp id fun equal => ⟨equal, ?_⟩⟩
  · by_contra running
    have none := counted.open_ (Bool.not_eq_false _ ▸ running)
    rw [left] at none
    cases none
  · refine counted.sound.first.eq_of_length ?_
    rw [← counted.reported, ← counted.passed, equal]

/-- A frame is sent and another one while the first of two requests waits. -/
def twoRequests : List Event :=
  [.message (arrayOf [pushString (text "send")]) (.ok (some [1, 2, 3])),
    .message (arrayOf [pushString (text "exit"), pushString (text "first")]) (.ok none),
    .message (arrayOf [pushString (text "send")]) (.ok (some [4])),
    .message (arrayOf [pushString (text "exit"), pushString (text "second")]) (.ok none),
    .complete 2, .complete 1, .complete 1]

theorem exit_flushes_two_requests :
    ∃ s, run (step lenient fun _ => []) {} twoRequests = some s ∧
      s.left = some (text "first") ∧ s.socket.accepted = [1, 2, 3, 4] ∧ Flushes s := by
  have outcome : (run (step lenient fun _ => []) {} twoRequests).map
      (fun s => (s.left, s.socket.accepted)) = some (some (text "first"), [1, 2, 3, 4]) := by
    decide +kernel
  obtain ⟨s, whole, record⟩ := Option.map_eq_some_iff.mp outcome
  obtain ⟨left, accepted⟩ := Prod.mk.inj record
  exact ⟨s, whole, left, accepted, exit_flushes lenient_selective _ whole⟩

end Thespian.Remote.EndpointConnection
