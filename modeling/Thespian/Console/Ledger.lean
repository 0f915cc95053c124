import Thespian.Console.Reports
import Thespian.Runtime.Messages
import Thespian.Transition.Tickets

/-!
The ledger of a connection. The commands of a connection are requests, and a call that
was started is one with a ticket, its number: while its proxy is running or has a report
on the way, the table has its id. Each step of the connection and of its proxies is a
step of this ledger, as long as the numbers last.
-/

namespace Thespian.Console
open Cbor Cbor.Json Decoding Decoding.Decoder Transition
open Thespian.Runtime

/-- What a write answers. -/
def Entry.answer? : Entry → Option (Source UInt64 × Bytes)
  | ⟨.command i, t⟩ => some (.direct i, t)
  | ⟨.call seq, t⟩ => some (.ticket seq, t)
  | ⟨.event, _⟩ | ⟨.other, _⟩ => none

/-- The proxy has not reported yet. -/
def Proxy.isOpen (x : Proxy) : Bool := x.stage = .starting || x.stage = .waiting

def NonNormalExit (m : Bytes) : Prop := isExitMsg m = .ok true ∧ m ≠ exitNormalMsg

namespace Connection

/-- The connection has exited, or an exit message that ends it is on its way. -/
def Lost (c : Connection) : Prop :=
  c.inShutdown = true ∨ ∃ mail ∈ c.mailbox, NonNormalExit mail.message

def running (c : Connection) : List UInt64 := (c.proxies.filter Proxy.isOpen).map Proxy.seq

def ledger (c : Connection) : Ledger Bytes UInt64 Bytes where
  requests := c.commands.map fun command => ⟨command.id, command.call⟩
  answers := c.written.filterMap Entry.answer?
  reports := c.mailbox.filterMap Mail.seq?
  running := c.running
  entries seq := c.pendingCalls[seq]?
  lost := c.Lost

end Connection

/-- The messages that wait are what they seem, the ids are those of the commands, and
the calls are numbered from zero. -/
structure Sound (fromChars : Bytes → Option Float) (c : Connection) : Prop where
  proper : ∀ mail ∈ c.mailbox, mail.Proper
  ids : ∀ command ∈ c.commands, command.id = commandId fromChars command.line
  isId : ∀ (seq : UInt64) (id : Bytes), c.pendingCalls[seq]? = some id → IsId id
  next : c.nextCall = UInt64.ofNat c.calls
  numbered : ∀ command ∈ c.commands, ∀ seq : UInt64, command.call = some seq → seq.toNat < c.calls

section Exits

/-- Every exit message of the runtime is one to the matcher. -/
theorem isExitMsg_exitMessage (w : Bytes) : isExitMsg (exitMessage w) = .ok true := by
  obtain ⟨v, t, string⟩ := matchString_pushString w []
  obtain ⟨skipped, type, len, u, begins, major, -⟩ := matchString_split string
  have read : matchType (pushString w ++ []) = .ok (typeOf (type >>> 5) type, t) := by
    rw [begins, skipValue_cons] at skipped
    rw [begins, matchType, bind_of_ok (decodeType_cons type u)]
    exact bind_of_ok skipped _
  have any : matchValue (.type .any) (pushString w ++ []) = .ok ((true, []), t) := by
    have matched : matchValueType .any (pushString w ++ []) = .ok (true, t) := by
      rw [matchValueType, bind_of_ok read]
      rcases major with two | three
      · rw [two]
        rfl
      · rw [three]
        rfl
    exact bind_of_ok matched _
  have bytes : exitMessage w = arrayHeader 2 ++ (pushString (text "exit") ++ (pushString w ++ [])) := by
    simp only [exitMessage, array, encodeItems, encode]
    rfl
  have one : (2 : UInt64).toNat - 1 = 1 := rfl
  rw [isExitMsg, bytes, exitPattern, matchBuffer_tag (by decide) (by decide), one,
    matchNext_cons_of any]
  rfl

theorem unhandled_nonNormal (what : Bytes) : NonNormalExit (unhandled what) := by
  refine ⟨isExitMsg_exitMessage _, ?_⟩
  intro same
  have lengths := congrArg List.length same
  have normal : exitNormalMsg.length = 13 := by decide
  have start : "UNHANDLED_EXCEPTION: ".toList.length = 21 := by decide
  rw [normal, unhandled] at lengths
  simp only [exitMessage, array, encodeItems, encode, pushString, List.length_append,
    text_length] at lengths
  omega

theorem exit_matches {m : Bytes} (exit : isExitMsg m = .ok true) :
    ∃ ws, matchBuffer m exitPattern = .ok (true, ws) := by
  rw [isExitMsg] at exit
  cases run : matchBuffer m exitPattern with
  | error e =>
      rw [run] at exit
      cases exit
  | ok res =>
      rw [run] at exit
      exact ⟨res.2, congrArg Except.ok (Prod.ext (Except.ok.inj exit) rfl)⟩

/-- An exit message is no report. -/
theorem not_isReport_of_exit {m : Bytes} (exit : isExitMsg m = .ok true) : ¬ IsReport m := by
  obtain ⟨ws, matched⟩ := exit_matches exit
  have other : ∀ {lit : Bytes} {parms : Patterns} {ws : Writes}, text "exit" ≠ lit →
      matchBuffer m (.cons (.string lit) parms) ≠ .ok (true, ws) := by
    intro lit parms ws differs passed
    rw [matchBuffer_other_literal differs matched] at passed
    cases passed
  rintro ⟨ws, reply | timeout | error⟩
  · exact other (by decide) reply
  · exact other (by decide) timeout
  · exact other (by decide) error

/-- Nor is a report an exit message, or a request for a link. -/
theorem report_plain {mail : Mail} {seq : UInt64} (report : mail.seq? = some seq) :
    isLinkMsg mail.message = false ∧ isExitMsg mail.message = .ok false := by
  have plain : ∀ {n : UInt64} {tag rest : Bytes} {b : UInt8}, arrayHeader n = [b] → b ≠ 0x81 →
      n ≠ 0 → tag.length < 2 ^ 63 → tag ≠ text "exit" →
      isLinkMsg (arrayHeader n ++ (pushString tag ++ rest)) = false ∧
        isExitMsg (arrayHeader n ++ (pushString tag ++ rest)) = .ok false := by
    intro n tag rest b header other some_ short differs
    refine ⟨?_, ?_⟩
    · refine decide_eq_false fun same => other ?_
      have heads := congrArg List.head? same
      rw [header] at heads
      exact Option.some.inj heads
    · rw [isExitMsg, exitPattern, matchBuffer_other_tag short some_ rest differs]
      rfl
  cases mail with
  | reply _ _ _ => exact plain (b := 0x84) (by decide) (by decide) (by decide) (by decide) (by decide)
  | timeout _ => exact plain (b := 0x82) (by decide) (by decide) (by decide) (by decide) (by decide)
  | error _ _ => exact plain (b := 0x83) (by decide) (by decide) (by decide) (by decide) (by decide)
  | other _ => cases report

end Exits

section Parts
variable {c c' : Connection}

theorem requests_same (commands : c'.commands = c.commands) :
    c'.ledger.requests = c.ledger.requests := by
  rw [Connection.ledger, commands, Connection.ledger]

theorem answers_same (written : c'.written = c.written) : c'.ledger.answers = c.ledger.answers := by
  rw [Connection.ledger, written, Connection.ledger]

theorem running_same (proxies : c'.proxies = c.proxies) : c'.ledger.running = c.ledger.running := by
  simp only [Connection.ledger, Connection.running, proxies]

theorem answers_quiet (quiet : ∃ more, c'.written = c.written ++ more ∧
      ∀ e ∈ more, e.origin = .event ∨ e.origin = .other) :
    c'.ledger.answers = c.ledger.answers := by
  obtain ⟨more, eq, plain⟩ := quiet
  have none_ : more.filterMap Entry.answer? = [] := by
    rw [List.filterMap_eq_nil_iff]
    intro e member
    obtain ⟨origin, data⟩ := e
    rcases plain _ member with event | other
    · cases event
      rfl
    · cases other
      rfl
  simp only [Connection.ledger, eq, List.filterMap_append, none_, List.append_nil]

/-- A proxy that is replaced by one that is not open. -/
theorem running_set {p : Nat} {x y : Proxy} (proxies : List Proxy) (found : proxies[p]? = some x)
    (closed : y.isOpen = false) :
    (x.isOpen = true → ((proxies.filter Proxy.isOpen).map Proxy.seq).Perm
      (x.seq :: ((proxies.set p y).filter Proxy.isOpen).map Proxy.seq)) ∧
    (((proxies.set p y).filter Proxy.isOpen).map Proxy.seq).Sublist
      ((proxies.filter Proxy.isOpen).map Proxy.seq) := by
  induction proxies generalizing p with
  | nil => cases found
  | cons z proxies ih =>
      cases p with
      | zero =>
          cases found
          have gone : (y :: proxies).filter Proxy.isOpen = proxies.filter Proxy.isOpen :=
            List.filter_cons_of_neg (by simp [closed])
          rw [List.set_cons_zero, gone]
          refine ⟨?_, ?_⟩
          · intro open_
            rw [List.filter_cons_of_pos open_, List.map_cons]
          · exact ((List.sublist_cons_self _ _).filter _).map _
      | succ p =>
          obtain ⟨perm, sublist⟩ := ih found
          rw [List.set_cons_succ]
          by_cases here : z.isOpen = true
          · rw [List.filter_cons_of_pos here, List.filter_cons_of_pos here, List.map_cons,
              List.map_cons]
            refine ⟨fun open_ => ?_, sublist.cons_cons _⟩
            exact ((perm open_).cons z.seq).trans (List.Perm.swap _ _ _)
          · rw [List.filter_cons_of_neg here, List.filter_cons_of_neg here]
            exact ⟨perm, sublist⟩

/-- A proxy that is still open keeps its place. -/
theorem running_set_open {p : Nat} {x y : Proxy} (proxies : List Proxy)
    (found : proxies[p]? = some x) (before : x.isOpen = true) (after : y.isOpen = true)
    (seq : y.seq = x.seq) :
    ((proxies.set p y).filter Proxy.isOpen).map Proxy.seq =
      (proxies.filter Proxy.isOpen).map Proxy.seq := by
  induction proxies generalizing p with
  | nil => cases found
  | cons z proxies ih =>
      cases p with
      | zero =>
          cases found
          rw [List.set_cons_zero, List.filter_cons_of_pos after, List.filter_cons_of_pos before,
            List.map_cons, List.map_cons, seq]
      | succ p =>
          rw [List.set_cons_succ, List.filter_cons, List.filter_cons]
          split
          · rw [List.map_cons, List.map_cons, ih found]
          · exact ih found

theorem Sound.of_same {fromChars : Bytes → Option Float} (h : Sound fromChars c)
    (commands : c'.commands = c.commands) (nextCall : c'.nextCall = c.nextCall)
    (calls : c'.calls = c.calls)
    (shrinks : ∀ (seq : UInt64) (id : Bytes),
      c'.pendingCalls[seq]? = some id → c.pendingCalls[seq]? = some id)
    (proper : ∀ mail ∈ c'.mailbox, mail.Proper) : Sound fromChars c' := by
  refine ⟨proper, ?_, ?_, ?_, ?_⟩
  · rw [commands]
    exact h.ids
  · exact fun seq id held => h.isId seq id (shrinks seq id held)
  · rw [nextCall, calls]
    exact h.next
  · rw [commands, calls]
    exact h.numbered

end Parts

section Post
variable (c : Connection) (mail : Mail)

theorem post_mailbox :
    (c.post mail).mailbox = if c.inShutdown then c.mailbox else c.mailbox ++ [mail] := by
  unfold Connection.post
  split <;> rfl

@[simp] theorem post_commands : (c.post mail).commands = c.commands := by
  unfold Connection.post
  split <;> rfl

@[simp] theorem post_written : (c.post mail).written = c.written := by
  unfold Connection.post
  split <;> rfl

@[simp] theorem post_proxies : (c.post mail).proxies = c.proxies := by
  unfold Connection.post
  split <;> rfl

@[simp] theorem post_pendingCalls : (c.post mail).pendingCalls = c.pendingCalls := by
  unfold Connection.post
  split <;> rfl

@[simp] theorem post_nextCall : (c.post mail).nextCall = c.nextCall := by
  unfold Connection.post
  split <;> rfl

@[simp] theorem post_calls : (c.post mail).calls = c.calls := by
  unfold Connection.post
  split <;> rfl

@[simp] theorem post_inShutdown : (c.post mail).inShutdown = c.inShutdown := by
  unfold Connection.post
  split <;> rfl

end Post

/-- A step of the connection is a step of its ledger. -/
structure Steps (toChars : Float → Bytes) (fromChars : Bytes → Option Float) (c c' : Connection) :
    Prop where
  sound : Sound fromChars c'
  move : Ledger.Move (CarriesId toChars) c.ledger c'.ledger

/-- A proxy has come to an end, and the connection was sent messages unless it has
exited. -/
structure Ends (c : Connection) (p : Nat) (x y : Proxy) (mails : List Mail) (c' : Connection) :
    Prop where
  found : c.proxies[p]? = some x
  closed : y.isOpen = false
  proxies : c'.proxies = c.proxies.set p y
  mailbox : c'.mailbox = if c.inShutdown then c.mailbox else c.mailbox ++ mails
  commands : c'.commands = c.commands
  written : c'.written = c.written
  pendingCalls : c'.pendingCalls = c.pendingCalls
  nextCall : c'.nextCall = c.nextCall
  calls : c'.calls = c.calls
  inShutdown : c'.inShutdown = c.inShutdown

section Proxies
variable {toChars : Float → Bytes} {fromChars : Bytes → Option Float} {c c' : Connection} {p : Nat}
  {x y : Proxy} {mails : List Mail}

theorem Ends.sound (ends : Ends c p x y mails c') (h : Sound fromChars c)
    (proper : ∀ mail ∈ mails, mail.Proper) : Sound fromChars c' := by
  refine h.of_same ends.commands ends.nextCall ends.calls ?_ ?_
  · intro seq id held
    rwa [ends.pendingCalls] at held
  · intro mail member
    rw [ends.mailbox] at member
    split at member
    · exact h.proper mail member
    · exact (List.mem_append.mp member).elim (h.proper mail) (proper mail)

theorem Ends.running (ends : Ends c p x y mails c') :
    (x.isOpen = true → c.ledger.running.Perm (x.seq :: c'.ledger.running)) ∧
      c'.ledger.running.Sublist c.ledger.running := by
  simp only [Connection.ledger, Connection.running, ends.proxies]
  exact running_set c.proxies ends.found ends.closed

theorem Ends.lost (ends : Ends c p x y mails c') (before : c.Lost) : c'.Lost := by
  rcases before with dead | ⟨mail, member, exit⟩
  · exact .inl (ends.inShutdown.trans dead)
  · refine .inr ⟨mail, ?_, exit⟩
    rw [ends.mailbox]
    split
    · exact member
    · exact List.mem_append_left _ member

/-- What is lost with a proxy that has no one to report to, or that throws. -/
theorem Ends.lose (ends : Ends c p x y mails c') (lost : c'.Lost)
    (silent : c.inShutdown = true ∨ mails.filterMap Mail.seq? = []) :
    Ledger.Move (CarriesId toChars) c.ledger c'.ledger := by
  refine .lose (requests_same ends.commands) (answers_same ends.written) ?_ ends.running.2 ?_ lost
  · simp only [Connection.ledger, ends.mailbox]
    rcases silent with dead | none_
    · rw [if_pos dead]
    · split
      · exact .refl _
      · rw [List.filterMap_append, none_, List.append_nil]
  · intro seq _
    simp only [Connection.ledger, ends.pendingCalls]

/-- A proxy that ends with a report. -/
theorem Ends.reports (ends : Ends c p x y mails c') (h : Sound fromChars c)
    (proper : ∀ mail ∈ mails, mail.Proper) (open_ : x.isOpen = true)
    (report : mails.filterMap Mail.seq? = [x.seq]) : Steps toChars fromChars c c' := by
  refine ⟨ends.sound h proper, ?_⟩
  cases dead : c.inShutdown with
  | true => exact ends.lose (.inl (ends.inShutdown.trans dead)) (.inl dead)
  | false =>
      refine .report x.seq (requests_same ends.commands) (answers_same ends.written) ?_
        (ends.running.1 open_) ?_ ends.lost
      · simp only [Connection.ledger, ends.mailbox, dead, Bool.false_eq_true, if_false,
          List.filterMap_append, report]
      · simp only [Connection.ledger, ends.pendingCalls]

/-- A proxy that throws, or that is made to exit. -/
theorem Ends.crashes {m : Bytes} (ends : Ends c p x y [.other m] c') (h : Sound fromChars c)
    (exit : NonNormalExit m) : Steps toChars fromChars c c' := by
  have proper : ∀ mail ∈ [Mail.other m], mail.Proper := by
    intro mail member
    cases List.mem_singleton.mp member
    exact not_isReport_of_exit exit.1
  refine ⟨ends.sound h proper, ends.lose ?_ (.inr rfl)⟩
  cases dead : c.inShutdown with
  | true => exact .inl (ends.inShutdown.trans dead)
  | false =>
      refine .inr ⟨.other m, ?_, exit⟩
      rw [ends.mailbox, dead]
      exact List.mem_append_right _ List.mem_cons_self

theorem proxyExit_ends (found : c.proxies[p]? = some x) (m : Bytes) :
    Ends c p x { x with stage := .exited } [.other m] (c.proxyExit p x m) := by
  constructor
  case found => exact found
  case closed => rfl
  all_goals simp [Connection.proxyExit, Connection.setStage, post_mailbox]

/-- A report, and the exit behind it. -/
theorem post_proxyExit_ends (found : c.proxies[p]? = some x) (mail : Mail) :
    Ends c p x { x with stage := .exited } [mail, .other exitNormalMsg]
      ((c.post mail).proxyExit p x exitNormalMsg) := by
  constructor
  case found => exact found
  case closed => rfl
  case mailbox =>
      simp only [Connection.proxyExit, Connection.setStage, post_mailbox, post_inShutdown]
      split <;> simp
  all_goals simp [Connection.proxyExit, Connection.setStage]

theorem timeout_ends (found : c.proxies[p]? = some x) :
    Ends c p x { x with stage := .timedOut } [.timeout x.seq]
      ((c.setStage p x .timedOut).post (.timeout x.seq)) := by
  constructor
  case found => exact found
  case closed => rfl
  all_goals simp [Connection.setStage, post_mailbox]

theorem Steps.refl (h : Sound fromChars c) : Steps toChars fromChars c c :=
  ⟨h, .keep rfl rfl rfl rfl rfl id⟩

/-- The exit behind a report is normal, and no report. -/
theorem normal_proper : (Mail.other exitNormalMsg).Proper :=
  not_isReport_of_exit (isExitMsg_exitMessage _)

theorem proxyExit_steps (h : Sound fromChars c) (found : c.proxies[p]? = some x) {m : Bytes}
    (exit : NonNormalExit m) : Steps toChars fromChars c (c.proxyExit p x m) :=
  (proxyExit_ends found m).crashes h exit

theorem report_steps (h : Sound fromChars c) (found : c.proxies[p]? = some x)
    (open_ : x.isOpen = true) {mail : Mail} (report : mail.seq? = some x.seq)
    (proper : mail.Proper) :
    Steps toChars fromChars c ((c.post mail).proxyExit p x exitNormalMsg) := by
  refine (post_proxyExit_ends found mail).reports h ?_ open_ ?_
  · intro mail' member
    simp only [List.mem_cons, List.not_mem_nil, or_false] at member
    rcases member with rfl | rfl
    · exact proper
    · exact normal_proper
  · rw [List.filterMap_cons_some report]
    rfl

theorem startProxy_steps (h : Sound fromChars c) (found : c.proxies[p]? = some x)
    (stage : x.stage = .starting) {started : Started} (error : started.isError = true) :
    Steps toChars fromChars c (c.startProxy p x started) := by
  have open_ : x.isOpen = true := by rw [Proxy.isOpen, stage]; rfl
  cases started with
  | sent =>
      refine ⟨h.of_same rfl rfl rfl (fun _ _ => id) h.proper, ?_⟩
      exact .keep rfl rfl rfl (running_set_open c.proxies found open_ rfl rfl) rfl id
  | refused e =>
      refine report_steps h found open_ rfl ?_
      rw [Started.isError] at error
      split at error
      case h_1 exit matched =>
        cases error
        obtain ⟨ws, accepted⟩ := exit_matches matched
        exact matchBuffer_header accepted
      case h_2 => cases error
  | throws what => exact proxyExit_steps h found (unhandled_nonNormal what)

theorem proxyReceive_steps (h : Sound fromChars c) (found : c.proxies[p]? = some x)
    (stage : x.stage = .waiting ∨ x.stage = .timedOut) {name m : Bytes}
    (short : name.length < 2 ^ 63) :
    Steps toChars fromChars c (c.proxyReceive p x name m) := by
  rw [Connection.proxyReceive]
  split
  case isTrue => exact .refl h
  case isFalse waits =>
    have open_ : x.isOpen = true := by
      rw [Proxy.isOpen, stage.resolve_right waits]
      rfl
    split
    case h_1 e thrown => exact proxyExit_steps h found (unhandled_nonNormal _)
    case h_2 ws matched =>
      exact (timeout_ends found).reports h (by simp [Mail.Proper]) open_ rfl
    case h_3 ws matched =>
      exact report_steps h found open_ rfl ⟨short, matchBuffer_header matched⟩

theorem runProxy_steps (h : Sound fromChars c) (found : c.proxies[p]? = some x)
    (stage : x.stage = .waiting ∨ x.stage = .timedOut) {name : Bytes} (m : Bytes)
    (short : name.length < 2 ^ 63) : Steps toChars fromChars c (c.runProxy p x name m) := by
  rw [Connection.runProxy]
  split
  case isTrue => exact .refl h
  case isFalse =>
    split
    case h_1 e thrown => exact proxyExit_steps h found (unhandled_nonNormal _)
    case h_2 exit =>
      split
      case isTrue => exact .refl h
      case isFalse other => exact proxyExit_steps h found ⟨exit, other⟩
    case h_3 => exact proxyReceive_steps h found stage short

end Proxies

section Deliveries
variable {toChars : Float → Bytes} {fromChars : Bytes → Option Float} {c c' : Connection}
  {mail : Mail} {rest mails : List Mail}

theorem reports_popped (mailbox : c.mailbox = mail :: rest) (silent : mail.seq? = none)
    (added : mails.filterMap Mail.seq? = []) (after : c'.mailbox = rest ++ mails) :
    c'.ledger.reports = c.ledger.reports := by
  simp only [Connection.ledger, mailbox, after, List.filterMap_append, added, List.append_nil,
    List.filterMap_cons_none silent]

/-- What is lost before a message is taken that does not end the connection is lost
after it. -/
theorem lost_popped (mailbox : c.mailbox = mail :: rest) (plain : ¬ NonNormalExit mail.message)
    (after : c'.mailbox = rest ++ mails) (inShutdown : c'.inShutdown = c.inShutdown)
    (before : c.Lost) : c'.Lost := by
  rcases before with dead | ⟨mail', member, exit⟩
  · exact .inl (inShutdown.trans dead)
  · rw [mailbox] at member
    rcases List.mem_cons.mp member with rfl | member
    · exact absurd exit plain
    · refine .inr ⟨mail', ?_, exit⟩
      rw [after]
      exact List.mem_append_left _ member

theorem proper_popped (h : Sound fromChars c) (mailbox : c.mailbox = mail :: rest)
    (proper : ∀ mail ∈ mails, mail.Proper) (after : c'.mailbox = rest ++ mails) :
    ∀ mail ∈ c'.mailbox, mail.Proper := by
  intro mail' member
  rw [after] at member
  rcases List.mem_append.mp member with old | new
  · exact h.proper mail' (mailbox ▸ List.mem_cons_of_mem _ old)
  · exact proper mail' new

/-- Lines that the connection sends itself report on nothing. -/
theorem lines_silent (lines : List Bytes) :
    (lines.map fun line => Mail.other (dispatchMsg line)).filterMap Mail.seq? = [] := by
  rw [List.filterMap_eq_nil_iff]
  intro mail member
  obtain ⟨line, -, rfl⟩ := List.mem_map.mp member
  rfl

theorem lines_proper (lines : List Bytes) :
    ∀ mail ∈ lines.map fun line => Mail.other (dispatchMsg line), mail.Proper := by
  intro mail member
  obtain ⟨line, -, rfl⟩ := List.mem_map.mp member
  have tag : (text "dispatch").length < 2 ^ 63 := by decide
  have other : ∀ {lit : Bytes} {parms : Patterns} {ws : Writes}, text "dispatch" ≠ lit →
      matchBuffer (dispatchMsg line) (.cons (.string lit) parms) ≠ .ok (true, ws) := by
    intro lit parms ws differs passed
    rw [dispatchMsg_eq, matchBuffer_other_tag tag (by decide) _ differs] at passed
    cases passed
  rintro ⟨ws, reply | timeout | error⟩
  · exact other (by decide) reply
  · exact other (by decide) timeout
  · exact other (by decide) error

/-- A message is taken, and nothing happens to commands and calls. -/
theorem quiet_steps (h : Sound fromChars c) (mailbox : c.mailbox = mail :: rest)
    (silent : mail.seq? = none) (plain : ¬ NonNormalExit mail.message)
    (quiet : Quiet { c with mailbox := rest } c') (lines : List Bytes)
    (after : c'.mailbox = rest ++ lines.map fun line => .other (dispatchMsg line)) :
    Steps toChars fromChars c c' := by
  refine ⟨h.of_same quiet.commands quiet.nextCall quiet.calls ?_
    (proper_popped h mailbox (lines_proper lines) after), ?_⟩
  · intro seq id held
    rwa [quiet.pendingCalls] at held
  · refine .keep (requests_same quiet.commands) (answers_quiet quiet.written)
      (reports_popped mailbox silent (lines_silent lines) after) (running_same quiet.proxies) ?_
      (lost_popped mailbox plain after quiet.inShutdown)
    simp only [Connection.ledger, quiet.pendingCalls]

/-- A message is taken, and the connection ends. -/
theorem dies_steps (h : Sound fromChars c) (mailbox : c.mailbox = mail :: rest)
    (quiet : Quiet { c with mailbox := rest } c') (lines : List Bytes)
    (after : c'.mailbox = rest ++ lines.map fun line => .other (dispatchMsg line)) :
    Steps toChars fromChars c { c' with inShutdown := true } := by
  refine ⟨h.of_same quiet.commands quiet.nextCall quiet.calls ?_
    (proper_popped h mailbox (lines_proper lines) after), ?_⟩
  · intro seq id held
    rwa [quiet.pendingCalls] at held
  · refine .lose (requests_same quiet.commands) (answers_quiet quiet.written) ?_ ?_ ?_ (.inl rfl)
    · simp only [Connection.ledger, mailbox, after, List.filterMap_append,
        lines_silent, List.append_nil]
      exact (List.sublist_cons_self mail rest).filterMap _
    · have same : c'.ledger.running = c.ledger.running := running_same quiet.proxies
      exact same ▸ .refl _
    · intro seq _
      simp only [Connection.ledger, quiet.pendingCalls]

/-- A number is not given again before all have been given. -/
theorem nextCall_fresh (h : Sound fromChars c) (room : c.calls < 2 ^ 64) {seq : UInt64}
    (issued : seq ∈ c.ledger.issued) : seq ≠ c.nextCall := by
  obtain ⟨q, member, taken⟩ := List.mem_filterMap.mp issued
  obtain ⟨command, known, rfl⟩ := List.mem_map.mp member
  have below := h.numbered command known seq taken
  rintro rfl
  rw [h.next, UInt64.toNat_ofNat_of_lt' room] at below
  omega

/-- What a number that is taken, or given back, leaves of the table. -/
theorem noCall_pending {id : Bytes} {d : Connection} (none_ : NoCall id d c') :
    (∀ seq : UInt64, seq ≠ d.nextCall ∨ c'.calls = d.calls →
      c'.pendingCalls[seq]? = d.pendingCalls[seq]?) ∧
    ∀ (seq : UInt64) (held : Bytes), c'.pendingCalls[seq]? = some held →
      d.pendingCalls[seq]? = some held := by
  rcases none_.2 with ⟨-, -, pending⟩ | ⟨calls, -, pending⟩
  · rw [pending]
    exact ⟨fun _ _ => rfl, fun _ _ found => found⟩
  · rw [pending]
    refine ⟨?_, ?_⟩
    · rintro seq (other | same)
      · rw [Std.TreeMap.getElem?_erase, Std.TreeMap.getElem?_insert]
        simp [Ne.symm other]
      · omega
    · intro seq held found
      rw [Std.TreeMap.getElem?_erase] at found
      split at found
      · cases found
      · rename_i other
        rwa [Std.TreeMap.getElem?_insert, if_neg other] at found

/-- A line is handled. -/
theorem handles_steps (h : Sound fromChars c) (balanced : c.ledger.Balanced (CarriesId toChars))
    (mailbox : c.mailbox = mail :: rest) (silent : mail.seq? = none)
    (plain : ¬ NonNormalExit mail.message) {line : Bytes}
    (handles : Handles toChars { c with mailbox := rest } line (commandId fromChars line) c')
    (after : c'.mailbox = rest) (room : c'.calls ≤ 2 ^ 64) : Steps toChars fromChars c c' := by
  have popped : c'.mailbox = rest ++ [] := by rw [after, List.append_nil]
  have proper := proper_popped h mailbox (by simp) popped
  have reports : c'.ledger.reports = c.ledger.reports := reports_popped mailbox silent rfl popped
  have step : UInt64.ofNat (c.calls + 1) = c.nextCall + 1 := by
    rw [h.next, UInt64.ofNat_add]
    rfl
  cases handles with
  | responds t carried commands written inShutdown none_ =>
      obtain ⟨pending, shrinks⟩ := noCall_pending none_
      have numbers : c'.nextCall = UInt64.ofNat c'.calls ∧ c.calls ≤ c'.calls := by
        rcases none_.2 with ⟨calls, next, -⟩ | ⟨calls, next, -⟩
        · rw [next, calls]
          exact ⟨h.next, Nat.le_refl _⟩
        · rw [next, calls, step]
          exact ⟨rfl, Nat.le_succ _⟩
      refine ⟨⟨proper, ?_, fun seq id held => h.isId seq id (shrinks seq id held), numbers.1, ?_⟩, ?_⟩
      · intro command member
        rw [commands] at member
        rcases List.mem_append.mp member with old | new
        · exact h.ids command old
        · cases List.mem_singleton.mp new
          rfl
      · intro command member seq taken
        rw [commands] at member
        rcases List.mem_append.mp member with old | new
        · exact Nat.lt_of_lt_of_le (h.numbered command old seq taken) numbers.2
        · cases List.mem_singleton.mp new
          cases taken
      · refine .answerDirectly (commandId fromChars line) t carried ?_ ?_ reports
          (running_same none_.1) ?_ (lost_popped mailbox plain popped inShutdown)
        · simp only [Connection.ledger, commands, List.map_append, List.map_cons, List.map_nil]
        · simp only [Connection.ledger, written, List.filterMap_append, List.length_map]
          rfl
        · intro seq waits
          refine pending seq ?_
          rcases none_.2 with ⟨calls, -⟩ | ⟨calls, -⟩
          · exact .inr calls
          · have before : c.calls < 2 ^ 64 := by
              have counted : c'.calls = c.calls + 1 := calls
              omega
            exact .inl (nextCall_fresh h before (balanced.of_waiting waits).1)
  | starts commands written inShutdown one isId =>
      obtain ⟨calls, next, pending, x, proxies, seq_eq, stage⟩ := one
      have counted : c'.calls = c.calls + 1 := calls
      have before : c.calls < 2 ^ 64 := by omega
      have number : c.nextCall.toNat = c.calls := by
        rw [h.next, UInt64.toNat_ofNat_of_lt' before]
      refine ⟨⟨proper, ?_, ?_, ?_, ?_⟩, ?_⟩
      · intro command member
        rw [commands] at member
        rcases List.mem_append.mp member with old | new
        · exact h.ids command old
        · cases List.mem_singleton.mp new
          rfl
      · intro seq id held
        rw [pending, Std.TreeMap.getElem?_insert] at held
        split at held
        · cases held
          exact isId
        · exact h.isId seq id held
      · rw [next, counted, step]
      · intro command member seq taken
        rw [commands] at member
        rcases List.mem_append.mp member with old | new
        · have below := h.numbered command old seq taken
          omega
        · cases List.mem_singleton.mp new
          cases taken
          show c.nextCall.toNat < c'.calls
          omega
      · refine .take (commandId fromChars line) c.nextCall
          (fun issued => nextCall_fresh h before issued rfl) ?_ (answers_same written) reports ?_ ?_
          ?_ (lost_popped mailbox plain popped inShutdown)
        · simp only [Connection.ledger, commands, List.map_append, List.map_cons, List.map_nil]
        · have open_ : x.isOpen = true := by rw [Proxy.isOpen, stage]; rfl
          simp only [Connection.ledger, Connection.running, proxies, List.filter_append,
            List.map_append, List.filter_cons_of_pos open_, List.filter_nil, List.map_cons,
            List.map_nil, seq_eq]
        · simp only [Connection.ledger, pending]
          exact Std.TreeMap.getElem?_insert_self
        · intro seq waits
          have other := nextCall_fresh h before (balanced.of_waiting waits).1
          simp only [Connection.ledger, pending]
          rw [Std.TreeMap.getElem?_insert]
          simp [Ne.symm other]

/-- A report is taken, and the response is written. -/
theorem concludes_steps (h : Sound fromChars c) (mailbox : c.mailbox = mail :: rest) {seq : UInt64}
    (report : mail.seq? = some seq) (concludes : Concludes toChars { c with mailbox := rest } seq c') :
    Steps toChars fromChars c c' := by
  have popped : c'.mailbox = rest ++ [] := by rw [concludes.mailbox, List.append_nil]
  have plain : ¬ NonNormalExit mail.message := by
    rintro ⟨exit, -⟩
    rw [(report_plain report).2] at exit
    cases exit
  obtain ⟨t, written, carried⟩ := concludes.written
  refine ⟨h.of_same concludes.commands concludes.nextCall concludes.calls concludes.shrinks
    (proper_popped h mailbox (by simp) popped), ?_⟩
  refine .answer seq t (fun id held => carried id held (h.isId seq id held))
    (requests_same concludes.commands) ?_ ?_ (running_same concludes.proxies)
    concludes.pendingCalls (lost_popped mailbox plain popped concludes.inShutdown)
  · simp only [Connection.ledger, written, List.filterMap_append]
    rfl
  · simp only [Connection.ledger, mailbox, concludes.mailbox, List.filterMap_cons_some report]

/-- A report is taken, and the connection throws. -/
theorem fails_steps (h : Sound fromChars c) (mailbox : c.mailbox = mail :: rest) {seq : UInt64}
    (report : mail.seq? = some seq) (fails : Fails { c with mailbox := rest } seq c') :
    Steps toChars fromChars c { c' with inShutdown := true } := by
  have popped : c'.mailbox = rest ++ [] := by rw [fails.mailbox, List.append_nil]
  refine ⟨h.of_same fails.commands fails.nextCall fails.calls fails.shrinks
    (proper_popped h mailbox (by simp) popped), ?_⟩
  refine .fail seq (requests_same fails.commands) (answers_same fails.written) ?_
    (running_same fails.proxies) fails.pendingCalls (.inl rfl)
  simp only [Connection.ledger, mailbox, fails.mailbox, List.filterMap_cons_some report]

variable (s : Surroundings toChars)

/-- A message that begins a line is received. -/
theorem run_dispatch (name : Bytes) {m buf : Bytes}
    (passed : matchBuffer m dispatchPattern = .ok (true, [(0, .string buf)]))
    (alive : c.inShutdown = false) :
    Connection.run toChars fromChars s c name m =
      match receiveDispatch toChars fromChars s c buf with
      | (.ok, c) => c
      | (_, c) => { c with inShutdown := true } := by
  have noLink : isLinkMsg m = false := by
    refine decide_eq_false ?_
    rintro rfl
    cases passed
  have noExit : isExitMsg m = .ok false := by
    rw [isExitMsg, exitPattern, matchBuffer_other_literal (by decide) passed]
    rfl
  have first : receive toChars fromChars s c name m = receiveDispatch toChars fromChars s c buf := by
    rw [receive, test, show matchBuffer m (.cons (.string (text "dispatch"))
      (.last (.extract .string 0))) = _ from passed]
  rewrite [Connection.run, noLink, alive, if_neg (by decide), noExit, ← first]
  generalize receive toChars fromChars s c name m = out
  obtain ⟨result, d⟩ := out
  cases result <;> rfl

/-- What the line of a message does. -/
theorem run_line (plain : ∀ v, newline ∉ toChars v) (name : Bytes) {m buf : Bytes}
    (passed : matchBuffer m dispatchPattern = .ok (true, [(0, .string buf)]))
    (alive : c.inShutdown = false) (short : m.length < 2 ^ 63) :
    (Connection.run toChars fromChars s c name m).mailbox = c.mailbox ∧
      match jsonLine c buf with
      | some line => Handles toChars c line (commandId fromChars line)
          (Connection.run toChars fromChars s c name m)
      | none => Quiet c (Connection.run toChars fromChars s c name m) := by
  obtain ⟨buf', same, inside⟩ := dispatch_writes passed
  cases same
  have lines := dispatch_same toChars fromChars s c buf
  obtain ⟨b, d, run, outcome⟩ := dispatch_cases fromChars s plain c
    (Nat.lt_of_le_of_lt inside short)
  rw [run] at lines
  rw [run_dispatch s name passed alive, receiveDispatch, run]
  cases b with
  | true => exact ⟨lines.2, outcome⟩
  | false =>
      refine ⟨lines.2, ?_⟩
      cases json : jsonLine c buf with
      | none =>
          rw [json] at outcome
          exact outcome.trans ⟨rfl, rfl, rfl, rfl, rfl, rfl, [], by simp, by simp⟩
      | some line =>
          rw [json] at outcome
          cases outcome with
          | responds t carried commands written inShutdown none_ =>
              exact .responds t carried commands written inShutdown none_
          | starts commands written inShutdown one isId =>
              exact .starts commands written inShutdown one isId

/-- A line is received. -/
theorem line_steps (plain : ∀ v, newline ∉ toChars v) (h : Sound fromChars c)
    (balanced : c.ledger.Balanced (CarriesId toChars)) {m buf : Bytes}
    (mailbox : c.mailbox = .other m :: rest) (name : Bytes) (short : m.length < 2 ^ 63)
    (notExit : ¬ NonNormalExit m) (alive : c.inShutdown = false)
    (passed : matchBuffer m dispatchPattern = .ok (true, [(0, .string buf)]))
    (room : (Connection.run toChars fromChars s { c with mailbox := rest } name m).calls ≤ 2 ^ 64) :
    Steps toChars fromChars c
      (Connection.run toChars fromChars s { c with mailbox := rest } name m) := by
  obtain ⟨after, outcome⟩ := @run_line toChars fromChars { c with mailbox := rest } s plain name m
    buf passed alive short
  split at outcome
  case h_1 handles =>
    exact handles_steps h balanced mailbox rfl notExit outcome after room
  case h_2 quiet =>
    refine quiet_steps h mailbox rfl notExit outcome [] ?_
    rw [List.map_nil, List.append_nil]
    exact after

/-- A message that is neither a line nor a report is received. -/
theorem other_steps (h : Sound fromChars c) {m : Bytes} (mailbox : c.mailbox = .other m :: rest)
    (name : Bytes) (notExit : ¬ NonNormalExit m)
    (notLine : ∀ ws, matchBuffer m dispatchPattern ≠ .ok (true, ws)) :
    match receive toChars fromChars s { c with mailbox := rest } name m with
    | (.ok, c') => Steps toChars fromChars c c'
    | (_, c') => Steps toChars fromChars c { c' with inShutdown := true } := by
  have waited : Mail.other m ∈ c.mailbox := mailbox ▸ List.mem_cons_self
  have notReport : ¬ IsReport m := h.proper (.other m) waited
  have quiet := receive_quiet toChars fromChars s { c with mailbox := rest } name m notLine notReport
  obtain ⟨lines, after⟩ := receive_mailbox toChars fromChars s { c with mailbox := rest } name m
  generalize receive toChars fromChars s { c with mailbox := rest } name m = out at quiet after
  obtain ⟨result, c'⟩ := out
  cases result with
  | ok => exact quiet_steps h mailbox rfl notExit quiet lines after
  | exit m => exact dies_steps h mailbox quiet lines after
  | throws e => exact dies_steps h mailbox quiet lines after

/-- A message that is not received: a request for a link, an exit, or any message
behind one. -/
theorem skips_steps (h : Sound fromChars c) (mailbox : c.mailbox = mail :: rest)
    (skipped : c.inShutdown = true ∨ mail.seq? = none ∧ ¬ NonNormalExit mail.message) :
    Steps toChars fromChars c { c with mailbox := rest } := by
  have quiet := Quiet.refl { c with mailbox := rest }
  have after : rest = rest ++ ([] : List Bytes).map fun line => Mail.other (dispatchMsg line) := by
    rw [List.map_nil, List.append_nil]
  rcases skipped with dead | ⟨silent, plain⟩
  · have dies := @dies_steps toChars fromChars c _ mail rest h mailbox quiet [] after
    rwa [show ({ c with mailbox := rest, inShutdown := true } : Connection) =
      { c with mailbox := rest } by rw [← dead]] at dies
  · exact quiet_steps h mailbox silent plain quiet [] after

/-- A report is received. -/
theorem report_delivered (plain : ∀ v, newline ∉ toChars v) (h : Sound fromChars c)
    (mailbox : c.mailbox = mail :: rest) (name : Bytes) {seq : UInt64}
    (report : mail.seq? = some seq) :
    match receive toChars fromChars s { c with mailbox := rest } name mail.message with
    | (.ok, c') => Steps toChars fromChars c c'
    | (_, c') => Steps toChars fromChars c { c' with inShutdown := true } := by
  have waited : mail ∈ c.mailbox := mailbox ▸ List.mem_cons_self
  have reported := @receive_report toChars { c with mailbox := rest } fromChars s plain name mail seq
    report (h.proper mail waited)
  generalize receive toChars fromChars s { c with mailbox := rest } name mail.message = out
    at reported
  obtain ⟨result, c'⟩ := out
  rcases reported with ⟨ok, concludes⟩ | ⟨⟨e, thrown⟩, fails⟩
  · cases ok
    exact concludes_steps h mailbox report concludes
  · cases thrown
    exact fails_steps h mailbox report fails

/-- What a connection that goes on does with a message that is received. -/
theorem received_steps {m name : Bytes} (alive : c.inShutdown = false)
    (noLink : isLinkMsg m = false) (noExit : isExitMsg m = .ok false)
    (received : match receive toChars fromChars s { c with mailbox := rest } name m with
      | (.ok, c') => Steps toChars fromChars c c'
      | (_, c') => Steps toChars fromChars c { c' with inShutdown := true }) :
    Steps toChars fromChars c
      (Connection.run toChars fromChars s { c with mailbox := rest } name m) := by
  have goesOn : ¬ (isLinkMsg m || ({ c with mailbox := rest } : Connection).inShutdown) = true := by
    simp [noLink, alive]
  rw [Connection.run, if_neg goesOn, noExit]
  dsimp only
  generalize receive toChars fromChars s { c with mailbox := rest } name m = out at received
  obtain ⟨result, c'⟩ := out
  cases result <;> exact received

/-- A message is taken. -/
theorem run_steps (plain : ∀ v, newline ∉ toChars v) (h : Sound fromChars c)
    (balanced : c.ledger.Balanced (CarriesId toChars)) (mailbox : c.mailbox = mail :: rest)
    (name : Bytes) (short : mail.message.length < 2 ^ 63)
    (room : (Connection.run toChars fromChars s { c with mailbox := rest } name
      mail.message).calls ≤ 2 ^ 64) :
    Steps toChars fromChars c
      (Connection.run toChars fromChars s { c with mailbox := rest } name mail.message) := by
  rcases Bool.eq_false_or_eq_true c.inShutdown with dead | dead
  case inl =>
      have skips := @skips_steps toChars fromChars c mail rest h mailbox (.inl dead)
      rwa [Connection.run, if_pos (by simp [dead])]
  case inr =>
      cases report : mail.seq? with
      | some seq =>
          obtain ⟨noLink, noExit⟩ := report_plain report
          exact received_steps s dead noLink noExit
            (report_delivered s plain h mailbox name report)
      | none =>
          have dies : Steps toChars fromChars c { c with mailbox := rest, inShutdown := true } :=
            @dies_steps toChars fromChars c _ mail rest h mailbox (.refl { c with mailbox := rest }) []
              (by rw [List.map_nil, List.append_nil])
          cases link : isLinkMsg mail.message with
          | true =>
              have plain : ¬ NonNormalExit mail.message := by
                rintro ⟨exit, -⟩
                rw [of_decide_eq_true link] at exit
                cases exit
              have skips := @skips_steps toChars fromChars c mail rest h mailbox (.inr ⟨report, plain⟩)
              rwa [Connection.run, if_pos (by simp [link])]
          | false =>
              cases exit : isExitMsg mail.message with
              | error e => rwa [Connection.run, if_neg (by simp [link, dead]), exit]
              | ok isExit =>
                  cases isExit with
                  | true =>
                      rw [Connection.run, if_neg (by simp [link, dead]), exit]
                      dsimp only
                      split
                      case isTrue normal =>
                        exact skips_steps h mailbox (.inr ⟨report, fun other => other.2 normal⟩)
                      case isFalse => exact dies
                  | false =>
                      have notExit : ¬ NonNormalExit mail.message := by
                        rintro ⟨isExit, -⟩
                        rw [exit] at isExit
                        cases isExit
                      cases mail with
                      | reply _ _ _ | timeout _ | error _ _ => cases report
                      | other m =>
                          by_cases dispatched : ∃ ws, matchBuffer m dispatchPattern = .ok (true, ws)
                          · obtain ⟨ws, passed⟩ := dispatched
                            obtain ⟨buf, rfl, -⟩ := dispatch_writes passed
                            exact line_steps s plain h balanced mailbox name short notExit dead
                              passed room
                          · exact received_steps s dead link exit (other_steps s h mailbox name
                              notExit fun ws passed => dispatched ⟨ws, passed⟩)

end Deliveries

section Runs
variable {toChars : Float → Bytes} {fromChars : Bytes → Option Float} {c c' : Connection}

/-- Only call proxies send the connection messages that report on a call. -/
def Clean : Action toChars → Prop
  | .send m => ¬ IsReport m
  | _ => True

theorem step_steps (plain : ∀ v, newline ∉ toChars v) (h : Sound fromChars c)
    (balanced : c.ledger.Balanced (CarriesId toChars)) {a : Action toChars} (clean : Clean a)
    (next : step toChars fromChars c a = some c') (room : c'.calls ≤ 2 ^ 64) :
    Steps toChars fromChars c c' := by
  cases a with
  | send m =>
      simp only [step, Option.ite_none_right_eq_some] at next
      obtain ⟨-, posted⟩ := next
      cases posted
      refine ⟨h.of_same (post_commands _ _) (post_nextCall _ _) (post_calls _ _) ?_ ?_, ?_⟩
      · intro seq id held
        rwa [post_pendingCalls] at held
      · intro mail member
        rw [post_mailbox] at member
        split at member
        · exact h.proper mail member
        · rcases List.mem_append.mp member with old | new
          · exact h.proper mail old
          · cases List.mem_singleton.mp new
            exact clean
      · refine .keep (requests_same (post_commands _ _)) (answers_same (post_written _ _)) ?_
          (running_same (post_proxies _ _)) ?_ ?_
        · simp only [Connection.ledger, post_mailbox]
          split
          · rfl
          · rw [List.filterMap_append]
            exact List.append_nil _
        · simp only [Connection.ledger, post_pendingCalls]
        · rintro (dead | ⟨mail, member, exit⟩)
          · exact .inl ((post_inShutdown _ _).trans dead)
          · refine .inr ⟨mail, ?_, exit⟩
            rw [post_mailbox]
            split
            · exact member
            · exact List.mem_append_left _ member
  | deliver s name =>
      cases mailbox : c.mailbox with
      | nil =>
          rw [step, mailbox] at next
          cases next
      | cons mail rest =>
          simp only [step, mailbox, Option.ite_none_right_eq_some, Option.some.injEq] at next
          obtain ⟨short, rfl⟩ := next
          exact run_steps s plain h balanced mailbox name short room
  | start p started =>
      cases found : c.proxies[p]? with
      | none =>
          rw [step, found] at next
          cases next
      | some x =>
          simp only [step, found, Option.ite_none_right_eq_some, Option.some.injEq] at next
          obtain ⟨⟨stage, error⟩, rfl⟩ := next
          exact startProxy_steps h found stage error
  | proxy p name m =>
      cases found : c.proxies[p]? with
      | none =>
          rw [step, found] at next
          cases next
      | some x =>
          simp only [step, found, Option.ite_none_right_eq_some, Option.some.injEq] at next
          obtain ⟨⟨stage, short, -⟩, rfl⟩ := next
          exact runProxy_steps h found stage m short

theorem run_calls (plain : ∀ v, newline ∉ toChars v) (s : Surroundings toChars) (c : Connection)
    (name : Bytes) {m : Bytes} (short : m.length < 2 ^ 63) :
    c.calls ≤ (Connection.run toChars fromChars s c name m).calls := by
  by_cases dispatched : ∃ ws, matchBuffer m dispatchPattern = .ok (true, ws)
  · obtain ⟨ws, passed⟩ := dispatched
    obtain ⟨buf, rfl, -⟩ := dispatch_writes passed
    cases dead : c.inShutdown with
    | true => rw [Connection.run, dead, if_pos (Bool.or_true _)]
    | false =>
        obtain ⟨-, outcome⟩ := @run_line toChars fromChars c s plain name m buf passed dead short
        split at outcome
        · cases outcome with
          | responds t carried commands written inShutdown none_ =>
              rcases none_.2 with ⟨calls, -⟩ | ⟨calls, -⟩ <;> omega
          | starts commands written inShutdown one isId =>
              have calls := one.1
              omega
        · exact Nat.le_of_eq outcome.calls.symm
  · have same := receive_calls toChars fromChars s c name m fun ws passed => dispatched ⟨ws, passed⟩
    rw [Connection.run]
    split
    · exact Nat.le_refl _
    · split
      · exact Nat.le_refl _
      · split <;> exact Nat.le_refl _
      · split
        case h_1 run =>
          rw [run] at same
          exact Nat.le_of_eq same.symm
        case h_2 run =>
          rw [run] at same
          exact Nat.le_of_eq same.symm

theorem step_calls (plain : ∀ v, newline ∉ toChars v) {a : Action toChars}
    (next : step toChars fromChars c a = some c') : c.calls ≤ c'.calls := by
  cases a with
  | send m =>
      simp only [step, Option.ite_none_right_eq_some, Option.some.injEq] at next
      obtain ⟨-, rfl⟩ := next
      rw [post_calls]
  | deliver s name =>
      cases mailbox : c.mailbox with
      | nil =>
          rw [step, mailbox] at next
          cases next
      | cons mail rest =>
          simp only [step, mailbox, Option.ite_none_right_eq_some, Option.some.injEq] at next
          obtain ⟨short, rfl⟩ := next
          exact run_calls plain s { c with mailbox := rest } name short
  | start p started =>
      cases found : c.proxies[p]? with
      | none =>
          rw [step, found] at next
          cases next
      | some x =>
          simp only [step, found, Option.ite_none_right_eq_some, Option.some.injEq] at next
          obtain ⟨-, rfl⟩ := next
          cases started <;> simp [Connection.startProxy, Connection.proxyExit, Connection.setStage]
  | proxy p name m =>
      cases found : c.proxies[p]? with
      | none =>
          rw [step, found] at next
          cases next
      | some x =>
          simp only [step, found, Option.ite_none_right_eq_some, Option.some.injEq] at next
          obtain ⟨-, rfl⟩ := next
          have received : (c.proxyReceive p x name m).calls = c.calls := by
            rw [Connection.proxyReceive]
            repeat' split
            all_goals simp [Connection.proxyExit, Connection.setStage]
          rw [Connection.runProxy]
          repeat' split
          all_goals simp [Connection.proxyExit, Connection.setStage, received]

/-- As long as the numbers last, the ledger is balanced. -/
def Accounted (toChars : Float → Bytes) (fromChars : Bytes → Option Float) (c : Connection) : Prop :=
  c.calls ≤ 2 ^ 64 → Sound fromChars c ∧ c.ledger.Balanced (CarriesId toChars)

theorem keeps_accounted (plain : ∀ v, newline ∉ toChars v) :
    Keeps (step toChars fromChars) (fun _ a => Clean a) (Accounted toChars fromChars) := by
  intro c a c' h clean next room
  obtain ⟨sound, balanced⟩ := h (Nat.le_trans (step_calls plain next) room)
  have steps := step_steps plain sound balanced clean next room
  exact ⟨steps.sound, steps.move.balanced balanced⟩

end Runs

end Thespian.Console
