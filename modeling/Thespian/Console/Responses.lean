import Thespian.Console.Ledger

/-!
Every command is answered once, and with its own id: at once, or, where it has started a
call, when its proxy has reported. The calls are numbered by a register of 64 bits. A
connection that has numbered more calls than that gives a number again, and takes the
entry of the earlier call out of the table.
-/

namespace Thespian.Console
open Cbor Cbor.Json Decoding Transition
open Thespian.Runtime

namespace Connection

/-- The constructor writes the prompt. -/
def create (prompt : Bytes) : Connection :=
  Connection.write { prompt } .other prompt

/-- What was written as the response to a command, or to a call. -/
def responses (c : Connection) (origin : Origin) : List Bytes :=
  (c.written.filter fun e => e.origin = origin).map Entry.data

/-- The call has a proxy that has neither reported nor timed out, or a report on its way. -/
def Awaits (c : Connection) (seq : UInt64) : Prop :=
  (∃ x ∈ c.proxies, x.seq = seq ∧ (x.stage = .starting ∨ x.stage = .waiting)) ∨
    ∃ mail ∈ c.mailbox, mail.seq? = some seq

end Connection

/-- Each command has one response, unless it has started a call; a call has at most one,
and there are no others. All carry the id of their command. A call without a response is
not forgotten while the connection is alive and no exit is on its way to it. -/
structure Answered (toChars : Float → Bytes) (fromChars : Bytes → Option Float) (c : Connection) :
    Prop where
  ids : ∀ command ∈ c.commands, command.id = commandId fromChars command.line
  direct : ∀ (i : Nat) command, c.commands[i]? = some command → command.call = none →
    ∃ t, c.responses (.command i) = [t] ∧ CarriesId toChars command.id t
  deferred : ∀ (i : Nat) command, c.commands[i]? = some command → command.call ≠ none →
    c.responses (.command i) = []
  calls : ∀ command ∈ c.commands, ∀ seq, command.call = some seq →
    c.responses (.call seq) = [] ∨
      ∃ t, c.responses (.call seq) = [t] ∧ CarriesId toChars command.id t
  distinct : (c.commands.filterMap Command.call).Nodup
  commands : ∀ i, c.responses (.command i) ≠ [] → i < c.commands.length
  started : ∀ seq, c.responses (.call seq) ≠ [] → ∃ command ∈ c.commands, command.call = some seq
  pending : ¬ c.Lost → ∀ command ∈ c.commands, ∀ seq, command.call = some seq →
    c.responses (.call seq) = [] → c.pendingCalls[seq]? = some command.id ∧ c.Awaits seq

section Runs
variable {toChars : Float → Bytes} {fromChars : Bytes → Option Float} {c c' : Connection}

theorem answersTo_direct (c : Connection) (i : Nat) :
    c.ledger.answersTo (.direct i) = c.responses (.command i) := by
  simp only [Ledger.answersTo, Connection.ledger, Connection.responses]
  induction c.written with
  | nil => rfl
  | cons e written ih =>
      obtain ⟨origin, data⟩ := e
      cases origin with
      | command j =>
          by_cases same : j = i
          · simp [Entry.answer?, same, ih]
          · simp [Entry.answer?, same, ih]
      | call _ => simp [Entry.answer?, ih]
      | event | other =>
          rw [List.filterMap_cons_none rfl, ih]
          simp

theorem answersTo_ticket (c : Connection) (seq : UInt64) :
    c.ledger.answersTo (.ticket seq) = c.responses (.call seq) := by
  simp only [Ledger.answersTo, Connection.ledger, Connection.responses]
  induction c.written with
  | nil => rfl
  | cons e written ih =>
      obtain ⟨origin, data⟩ := e
      cases origin with
      | call u =>
          by_cases same : u = seq
          · simp [Entry.answer?, same, ih]
          · simp [Entry.answer?, same, ih]
      | command _ => simp [Entry.answer?, ih]
      | event | other =>
          rw [List.filterMap_cons_none rfl, ih]
          simp

theorem request_of_command {i : Nat} {command : Command} (found : c.commands[i]? = some command) :
    c.ledger.requests[i]? = some ⟨command.id, command.call⟩ := by
  simp [Connection.ledger, found]

theorem request_mem {command : Command} (member : command ∈ c.commands) :
    ⟨command.id, command.call⟩ ∈ c.ledger.requests :=
  List.mem_map.mpr ⟨command, member, rfl⟩

theorem issued_eq (c : Connection) : c.ledger.issued = c.commands.filterMap Command.call := by
  simp only [Ledger.issued, Connection.ledger, List.filterMap_map]
  rfl

theorem awaits_of_waiting {seq : UInt64} (waits : seq ∈ c.ledger.waiting) : c.Awaits seq := by
  rcases List.mem_append.mp waits with report | running
  · exact .inr (List.mem_filterMap.mp report)
  · obtain ⟨x, member, rfl⟩ := List.mem_map.mp running
    obtain ⟨held, open_⟩ := List.mem_filter.mp member
    refine .inl ⟨x, held, rfl, ?_⟩
    simpa [Proxy.isOpen] using open_

/-- What the balance of the ledger says of the commands. -/
theorem answered_of_balanced (sound : Sound fromChars c)
    (h : c.ledger.Balanced (CarriesId toChars)) : Answered toChars fromChars c := by
  constructor
  case ids => exact sound.ids
  case direct =>
      intro i command found none_
      rw [← answersTo_direct]
      exact h.direct i _ (request_of_command found) none_
  case deferred =>
      intro i command found some_
      obtain ⟨seq, taken⟩ := Option.ne_none_iff_exists'.mp some_
      rw [← answersTo_direct]
      exact h.deferred i _ seq (request_of_command found) taken
  case calls =>
      intro command member seq taken
      have carried := h.answered _ (request_mem member) seq taken
      have single := h.single seq
      rw [Ledger.places] at single
      rw [← answersTo_ticket]
      cases answers : c.ledger.answersTo (.ticket seq) with
      | nil => exact .inl rfl
      | cons t rest =>
          rw [answers] at carried single
          have none_ : rest = [] := by
            rw [List.length_cons] at single
            exact List.length_eq_zero_iff.mp (by omega)
          subst none_
          exact .inr ⟨t, rfl, carried t List.mem_cons_self⟩
  case distinct => exact issued_eq c ▸ h.distinct
  case commands =>
      intro i some_
      by_contra far
      rw [← answersTo_direct, h.beyond i (by simp [Connection.ledger]; omega)] at some_
      exact some_ rfl
  case started =>
      intro seq some_
      rw [← answersTo_ticket] at some_
      have issued : seq ∈ c.ledger.issued := by
        by_contra unknown
        have nowhere := h.known seq unknown
        rw [Ledger.places] at nowhere
        exact some_ (List.length_eq_zero_iff.mp (by omega))
      rw [issued_eq] at issued
      exact List.mem_filterMap.mp issued
  case pending =>
      intro found command member seq taken unanswered
      rw [← answersTo_ticket] at unanswered
      have waits := h.waits found (Ledger.mem_issued (request_mem member) taken) unanswered
      exact ⟨h.entered _ (request_mem member) seq taken waits, awaits_of_waiting waits⟩

theorem create_accounted (prompt : Bytes) :
    Accounted toChars fromChars (Connection.create prompt) := by
  intro _
  refine ⟨⟨?_, ?_, ?_, rfl, ?_⟩, Ledger.balanced_empty rfl rfl rfl rfl⟩
  · exact fun mail member => absurd member List.not_mem_nil
  · exact fun command member => absurd member List.not_mem_nil
  · intro seq id held
    rw [Connection.create, Connection.write, Std.TreeMap.getElem?_emptyc] at held
    cases held
  · exact fun command member => absurd member List.not_mem_nil

end Runs

/-- A line of the JSON mode that is not blank is recorded as it is dispatched. -/
def Recorded (toChars : Float → Bytes) (fromChars : Bytes → Option Float) (c : Connection) : Prop :=
  ∀ (s : Surroundings toChars) (name buf line : Bytes) (mail : Mail) (rest : List Mail)
    (c' : Connection), c.inShutdown = false → c.mailbox = mail :: rest →
    matchBuffer mail.message dispatchPattern = .ok (true, [(0, .string buf)]) →
    jsonLine c buf = some line → step toChars fromChars c (.deliver s name) = some c' →
    ∃ command, c'.commands = c.commands ++ [command] ∧ command.line = line

theorem recorded {toChars : Float → Bytes} {fromChars : Bytes → Option Float}
    (plain : ∀ v, newline ∉ toChars v) (c : Connection) : Recorded toChars fromChars c := by
  intro s name buf line mail rest c' alive mailbox passed json next
  simp only [step, mailbox, Option.ite_none_right_eq_some, Option.some.injEq] at next
  obtain ⟨short, rfl⟩ := next
  obtain ⟨-, outcome⟩ := @run_line toChars fromChars { c with mailbox := rest } s plain name
    mail.message buf passed alive short
  have same : jsonLine { c with mailbox := rest } buf = some line := json
  rw [same] at outcome
  cases outcome with
  | responds t carried commands written inShutdown none_ => exact ⟨_, commands, rfl⟩
  | starts commands written inShutdown one isId => exact ⟨_, commands, rfl⟩

section Numbers

theorem started_fits : ∀ e : Bytes, none = some e →
    (errorText (fun _ => []) e).length < 2 ^ 64 := by
  intro e h
  cases h

/-- An actor is known, and calls of it can be started. -/
def busy : Surroundings (fun _ => []) where
  ctx := (Debug.Context.initial.set 0 { name := text "a" }).enter (text "a") 0
  send _ _ := .queued
  start := none
  sendFits _ _ := trivial
  startFits := started_fits
  namesFit := by decide +kernel

/-- No call can be started. -/
def refusing : Surroundings (fun _ => []) :=
  { busy with start := some pushNull, startFits := by rintro _ ⟨⟩; decide +kernel }

def callLine : Bytes := text "\x7b\"cmd\":\"call\",\"to\":\"a\",\"msg\":1\x7d"

def callFields : Fields := (parseFields (fun _ => none) callLine).toOption.getD ∅

theorem eq_ok_of_toOption {ε α : Type} {x : Except ε α} {a : α} (h : x.toOption = some a) :
    x = .ok a := by
  cases x with
  | error e => cases h
  | ok b => exact congrArg Except.ok (Option.some.inj h)

theorem parse_callLine : parseFields (fun _ => none) callLine = .ok callFields := by
  have parsed : (parseFields (fun _ => none) callLine).toOption.isSome := by decide +kernel
  obtain ⟨f, some_⟩ := Option.isSome_iff_exists.mp parsed
  refine eq_ok_of_toOption ?_
  rw [callFields, some_]
  rfl

/-- What a call leaves where it cannot be started. -/
def refusedCall (c : Connection) : Connection :=
  { c with
    nextCall := c.nextCall + 1
    calls := c.calls + 1
    pendingCalls := (c.pendingCalls.insert c.nextCall pushNull).erase c.nextCall }

/-- What a call leaves where it is started. -/
def startedCall (c : Connection) : Connection :=
  { c with
    nextCall := c.nextCall + 1
    calls := c.calls + 1
    pendingCalls := c.pendingCalls.insert c.nextCall pushNull
    proxies := c.proxies ++ [{ seq := c.nextCall, to_ := 0, msg := [1], timeoutMs := 5000 }] }

theorem perform_callLine (s : Surroundings (fun _ => [])) (ctx : s.ctx = busy.ctx) (c : Connection) :
    perform (fun _ => []) s c pushNull callFields =
      match s.start with
      | none => .ok { connection := startedCall c, response := none, call := some c.nextCall }
      | some e => .ok {
          connection := refusedCall c
          response := some (errorResponse pushNull (errorText (fun _ => []) e)) } := by
  have op : requireString callFields (text "cmd") = .ok (text "call") :=
    eq_ok_of_toOption (by decide +kernel)
  have name : requireString callFields (text "to") = .ok (text "a") :=
    eq_ok_of_toOption (by decide +kernel)
  have msg : require callFields (text "msg") = .ok [1] := eq_ok_of_toOption (by decide +kernel)
  have timeout : optionalInt callFields (text "timeout_ms") 5000 = .ok 5000 :=
    eq_ok_of_toOption (by decide +kernel)
  have found : lookup (fun _ => []) s (text "a") = .ok 0 := by
    rw [lookup, ctx]
    exact eq_ok_of_toOption (by decide +kernel)
  have performs : perform (fun _ => []) s c pushNull callFields =
      performCall (fun _ => []) s c pushNull callFields := by
    rw [perform, op]
    dsimp only [bind, Except.bind]
    rw [if_neg (by decide), if_neg (by decide), if_pos rfl]
  rw [performs]
  simp only [performCall, name, found, msg, timeout, bind, Except.bind]
  cases s.start <;> rfl

/-- The line is dispatched, in any mode. -/
theorem dispatch_callLine (s : Surroundings (fun _ => [])) (c : Connection) :
    dispatch (fun _ => []) (fun _ => none) s c callLine =
      dispatchJson (fun _ => []) (fun _ => none) s { c with jsonMode := true } callLine := by
  have whole : callLine.getLast? ≠ some 0x0D := by decide
  have begins : callLine.dropWhile isBlank = 0x7b :: callLine.tail := by decide
  rw [dispatch, if_neg whole, begins]
  exact if_pos rfl

theorem run_callLine (s : Surroundings (fun _ => [])) {c : Connection} (alive : c.inShutdown = false) :
    Connection.run (fun _ => []) (fun _ => none) s c [] (dispatchMsg callLine) =
      match dispatchJson (fun _ => []) (fun _ => none) s { c with jsonMode := true } callLine with
      | (.ok true, c) => c
      | (.ok false, c) => { c with closeOnWriteComplete := true }
      | (.error _, c) => { c with inShutdown := true } := by
  rw [run_dispatch s [] (dispatchMsg_passes (by decide)) alive, receiveDispatch, dispatch_callLine]
  generalize dispatchJson (fun _ => []) (fun _ => none) s { c with jsonMode := true } callLine = handled
  obtain ⟨(_ | _ | _), d⟩ := handled <;> rfl

theorem run_started {c : Connection} (alive : c.inShutdown = false) :
    Connection.run (fun _ => []) (fun _ => none) busy c [] (dispatchMsg callLine) =
      (startedCall { c with jsonMode := true }).record ⟨callLine, pushNull, some c.nextCall⟩ := by
  have id : fieldId callFields = pushNull := by decide +kernel
  rw [run_callLine busy alive, dispatchJson, parse_callLine]
  dsimp only
  rw [id, perform_callLine busy rfl]
  rfl

theorem run_refused {c : Connection} (alive : c.inShutdown = false) :
    ∃ t, Connection.run (fun _ => []) (fun _ => none) refusing c [] (dispatchMsg callLine) =
      ((refusedCall { c with jsonMode := true }).writeLine (.command c.commands.length) t).record
        ⟨callLine, pushNull, none⟩ := by
  have id : fieldId callFields = pushNull := by decide +kernel
  have prints : (toJson (fun _ => []) (errorResponse pushNull
      (errorText (fun _ => []) pushNull))).toOption.isSome := by decide +kernel
  obtain ⟨t, some_⟩ := Option.isSome_iff_exists.mp prints
  refine ⟨t, ?_⟩
  rw [run_callLine refusing alive, dispatchJson, parse_callLine]
  dsimp only
  rw [id, perform_callLine refusing rfl, show refusing.start = some pushNull from rfl]
  dsimp only
  rw [Connection.respond, eq_ok_of_toOption some_]
  rfl

/-- The command arrives and is dispatched. -/
def callRound (s : Surroundings (fun _ => [])) : List (Action (fun _ => [])) :=
  [.send (dispatchMsg callLine), .deliver s []]

theorem callRound_clean (s : Surroundings (fun _ => [])) : ∀ a ∈ callRound s, Clean a := by
  intro a member
  rcases List.mem_cons.mp member with rfl | member
  · exact lines_proper [callLine] _ (List.mem_singleton.mpr rfl)
  · cases List.mem_singleton.mp member
    trivial

theorem run_callRound (s : Surroundings (fun _ => [])) {c : Connection}
    (alive : c.inShutdown = false) (idle : c.mailbox = []) :
    run (step (fun _ => []) fun _ => none) c (callRound s) =
      some (Connection.run (fun _ => []) (fun _ => none) s c [] (dispatchMsg callLine)) := by
  have short : (dispatchMsg callLine).length < 2 ^ 63 := by decide
  have posted : c.post (.other (dispatchMsg callLine)) =
      { c with mailbox := [.other (dispatchMsg callLine)] } := by
    rw [Connection.post, alive, if_neg Bool.false_ne_true, idle]
    rfl
  have same : { c with mailbox := [] } = c := idle ▸ rfl
  rw [callRound, run, step, if_pos short, Option.bind_some, run, step, posted]
  dsimp only
  rw [Mail.message, if_pos short, Option.bind_some, run, same]

/-- The first call has not been answered, and nothing else is on its way. -/
structure FirstPending (c : Connection) : Prop where
  alive : c.inShutdown = false
  idle : c.mailbox = []
  command : ⟨callLine, pushNull, some 0⟩ ∈ c.commands
  unanswered : c.responses (.call 0) = []

/-- A refused call takes its number out of the table. -/
theorem FirstPending.refused {c : Connection} (h : FirstPending c) :
    ∃ c', run (step (fun _ => []) fun _ => none) c (callRound refusing) = some c' ∧
      FirstPending c' ∧ c'.nextCall = c.nextCall + 1 ∧ c'.pendingCalls[c.nextCall]? = none := by
  obtain ⟨t, refused⟩ := run_refused h.alive
  refine ⟨_, (run_callRound refusing h.alive h.idle).trans (congrArg some refused), ?_, rfl, ?_⟩
  · refine ⟨h.alive, h.idle, List.mem_append_left _ h.command, ?_⟩
    rw [← h.unanswered]
    simp [Connection.responses, Connection.record, Connection.writeLine, Connection.write,
      refusedCall]
  · exact Std.TreeMap.getElem?_erase_self

theorem FirstPending.refusals {c : Connection} (h : FirstPending c) (n : Nat) :
    ∃ c', run (step (fun _ => []) fun _ => none) c
        (List.replicate n (callRound refusing)).flatten = some c' ∧
      FirstPending c' ∧ c'.nextCall = c.nextCall + UInt64.ofNat n := by
  induction n generalizing c with
  | zero => exact ⟨c, rfl, h, (UInt64.add_zero _).symm⟩
  | succ n ih =>
      obtain ⟨d, first, pending, next, -⟩ := h.refused
      obtain ⟨c', rest, pending', last⟩ := ih pending
      refine ⟨c', ?_, pending', ?_⟩
      · rw [List.replicate_succ, List.flatten_cons]
        exact run_append first rest
      · rw [last, next, UInt64.ofNat_add, UInt64.add_assoc, UInt64.add_comm 1]
        rfl

/-- A call is started. -/
theorem first_started : ∃ c,
    run (step (fun _ => []) fun _ => none) (.create []) (callRound busy) = some c ∧
      FirstPending c ∧ c.nextCall = 1 ∧ c.calls = 1 := by
  have alive : (Connection.create []).inShutdown = false := rfl
  refine ⟨_, (run_callRound busy alive rfl).trans (congrArg some (run_started alive)), ?_, rfl, rfl⟩
  exact ⟨rfl, rfl, List.mem_singleton.mpr rfl, rfl⟩

end Numbers

/-- In every run of a connection and its call proxies, while the numbers of the calls
last, each command is answered, at once or when its call is reported on. -/
theorem commands_answered_once {toChars : Float → Bytes} {fromChars : Bytes → Option Float}
    (plain : ∀ v, newline ∉ toChars v) (prompt : Bytes) {acts : List (Action toChars)}
    (clean : ∀ a ∈ acts, Clean a) {c : Connection}
    (reached : run (step toChars fromChars) (.create prompt) acts = some c)
    (room : c.calls ≤ 2 ^ 64) :
    Answered toChars fromChars c ∧ Recorded toChars fromChars c := by
  obtain ⟨sound, balanced⟩ := (keeps_accounted plain).run (create_accounted prompt)
    (along_of_forall clean) reached room
  exact ⟨answered_of_balanced sound balanced, recorded plain c⟩

/-- The connection numbers one call, and its proxy is running. -/
theorem commands_answered_once_started : ∃ c,
    run (step (fun _ => []) fun _ => none) (.create []) (callRound busy) = some c ∧
      Answered (fun _ => []) (fun _ => none) c ∧ Recorded (fun _ => []) (fun _ => none) c := by
  obtain ⟨c, reached, -, -, calls⟩ := first_started
  exact ⟨c, reached, commands_answered_once (fun _ => List.not_mem_nil) [] (callRound_clean busy)
    reached (by rw [calls]; decide)⟩

/-- A number that is given again takes the entry of the first call that had it. -/
theorem first_call_forgotten :
    ¬ ∀ (toChars : Float → Bytes) (fromChars : Bytes → Option Float),
      (∀ v, newline ∉ toChars v) → ∀ (prompt : Bytes) (acts : List (Action toChars)),
      (∀ a ∈ acts, Clean a) → ∀ c,
      run (step toChars fromChars) (.create prompt) acts = some c →
      Answered toChars fromChars c ∧ Recorded toChars fromChars c := by
  intro claimed
  obtain ⟨n, round⟩ : ∃ n, (1 : UInt64) + UInt64.ofNat n = 0 := ⟨2 ^ 64 - 1, by decide⟩
  obtain ⟨c, first, pending, next, -⟩ := first_started
  obtain ⟨d, refusals, pending, next'⟩ := pending.refusals n
  obtain ⟨c', last, pending, -, erased⟩ := pending.refused
  rw [next', next, round] at erased
  have clean : ∀ a ∈ callRound busy ++ (List.replicate n (callRound refusing)).flatten ++
      callRound refusing, Clean a := by
    intro a member
    rcases List.mem_append.mp member with member | member
    · rcases List.mem_append.mp member with member | member
      · exact callRound_clean busy a member
      · obtain ⟨acts, repeated, inside⟩ := List.mem_flatten.mp member
        rw [List.eq_of_mem_replicate repeated] at inside
        exact callRound_clean refusing a inside
    · exact callRound_clean refusing a member
  obtain ⟨answered, -⟩ := claimed _ _ (fun _ => List.not_mem_nil) [] _ clean c'
    (run_append (run_append first refusals) last)
  have found : ¬ c'.Lost := by
    rintro (dead | ⟨mail, member, -⟩)
    · rw [pending.alive] at dead
      cases dead
    · rw [pending.idle] at member
      cases member
  obtain ⟨held, -⟩ := answered.pending found _ pending.command 0 rfl pending.unanswered
  rw [erased] at held
  cases held

end Thespian.Console
