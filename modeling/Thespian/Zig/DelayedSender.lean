import Thespian.Cbor.MatchSemantics
import Thespian.Remote.Matching
import Thespian.Runtime.Instance
import Thespian.Transition.Runs

/-!
A delayed send that can be cancelled. The sender is an actor of its own, linked to
the one that made it and not trapping exits, with a timer that posts the message to
it; cancelling posts a message that makes it cancel the timer. The native timer
reports a cancellation as an exit message, and the runtime does not hand an exit
message to an actor that does not trap.

The executor completes the timer at any time after it expired or was cancelled,
and only once. A cancellation that finds the timer pending ends the sender for that
reason, and its caller with it. Otherwise the sender forwards the message and ends
normally, as long as there is somebody to forward it to.
-/

namespace Thespian.Zig
open Cbor Remote Transition Thespian.Runtime

/-- The timer of the sender: not made, waiting, with its completion queued, or done. -/
inductive Timer where
  | unset
  | armed
  | expired
  | cancelled
  | completed
deriving DecidableEq

/-- What a run does not change: the message, how the two actors are named in the
report of a dead letter, and the error of a cancelled timer. -/
structure Delayed where
  message : Bytes
  refs : Bytes
  errorValue : Int64
  errorMessage : Bytes

structure DelayedSender where
  started : Bool := false
  timeout : Timer := .unset
  inShutdown : Bool := false
  linked : Bool := false
  /-- The bodies, each with whether the caller is its sender. -/
  mailbox : List (Bool × Bytes) := [(true, linkMsg), (false, nullValue)]
  targetInShutdown : Bool := false
  crashed : Bool := false
  /-- What the target was sent, and what the sender exited with. -/
  sent : List Bytes := []
  exits : List Bytes := []
  callerMailbox : List Bytes := []
  callerExit : Option Bytes := none

def cancelMessage {ε : Type} (cbor : Package ε) : Bytes :=
  cbor.writeValue (.tuple [.string (text "CANCEL")])

namespace DelayedSender
variable {ε : Type} (cbor : Package ε) (errorName : ε → Bytes) (d : Delayed)

/-- `timer_.cancel()`: a completion that is queued already is not taken back. -/
def cancelTimeout (s : DelayedSender) : DelayedSender :=
  if s.timeout = .armed then { s with timeout := .cancelled } else s

/-- `self.target.send_raw(m)` -/
def sendTarget (s : DelayedSender) (m : Bytes) : DelayedSender × Option Failure :=
  if s.targetInShutdown then
    match matchBuffer m (.cons (.string (text "exit")) (.last (.type .more))) with
    | .error e => (s, some (.exception e))
    | .ok (true, _) => (s, none)
    | .ok (false, _) =>
        (s, some (.exit (arrayHeader 5 ++ pushString (text "exit") ++
          pushString (text "DEADSEND") ++ m ++ d.refs)))
  else ({ s with sent := s.sent ++ [m] }, none)

def receive (s : DelayedSender) (m : Bytes) : DelayedSender × Option Failure :=
  match cbor.matchFrame m [.literal (text "CANCEL")] with
  | .error e => (s, some (exitError cbor (errorName e)))
  | .ok (some _) => (s.cancelTimeout, none)
  | .ok none =>
      match cbor.matchFrame m
          [.literal (text "exit"), .literal (text "timeout_error"), .raw, .raw] with
      | .error e => (s, some (exitError cbor (errorName e)))
      | .ok (some _) => (s, some (exitNormal cbor))
      | .ok none =>
          match s.sendTarget d m with
          | (s, some f) => (s, some f)
          | (s, none) => (s, some (exitNormal cbor))

/-- `instance::handle_exit`: the caller is told through the link, and the receiver is
dropped with its timer. -/
def handleExit (s : DelayedSender) (m : Bytes) : DelayedSender :=
  { s with
    inShutdown := true
    exits := s.exits ++ [m]
    callerMailbox := if s.linked then s.callerMailbox ++ [m] else s.callerMailbox }

/-- `instance::run`; the first message that is not a link message runs start. -/
def run (s : DelayedSender) (fromCaller : Bool) (m : Bytes) : DelayedSender :=
  if isLinkMsg m then { s with linked := s.linked || fromCaller }
  else if s.inShutdown then s
  else match isExitMsg m with
    | .error e => s.handleExit (Exception.std e.what).exitMessage
    | .ok true => if m ≠ exitNormalMsg then s.handleExit m else s
    | .ok false =>
        if !s.started then { s with started := true, timeout := .armed }
        else match s.receive cbor errorName d m with
          | (s, none) => s
          | (s, some (.exit e)) => s.handleExit e
          | (s, some _) => { s with crashed := true }

def post (s : DelayedSender) (m : Bytes) : DelayedSender :=
  if s.inShutdown then s else { s with mailbox := s.mailbox ++ [(false, m)] }

end DelayedSender

inductive DelayedSender.Action where
  | cancel
  | expire
  | complete
  | deliver
  | targetExits
  | callerReceives
deriving DecidableEq

section Step
variable {ε : Type} (cbor : Package ε) (errorName : ε → Bytes) (d : Delayed)

/-- `Cancellable.cancel`, the timer's expiry and completion, a delivery to the sender,
the end of the target, and the caller's turn at what it was sent through the link. -/
def DelayedSender.step (s : DelayedSender) : DelayedSender.Action → Option DelayedSender
  | .cancel => some (s.post (cancelMessage cbor))
  | .expire => if s.timeout = .armed then some { s with timeout := .expired } else none
  | .complete =>
      match s.timeout with
      | .expired => some ({ s with timeout := .completed }.post d.message)
      | .cancelled =>
          some ({ s with timeout := .completed }.post (array [.string (text "exit"),
            .string (text "timeout_error"), .int d.errorValue, .string d.errorMessage]))
      | _ => none
  | .deliver =>
      match s.mailbox with
      | [] => none
      | (fromCaller, m) :: rest =>
          if s.crashed then none
          else some ({ s with mailbox := rest }.run cbor errorName d fromCaller m)
  | .targetExits => some { s with targetInShutdown := true }
  | .callerReceives =>
      match s.callerMailbox with
      | [] => none
      | m :: rest =>
          if s.callerExit = none ∧ isExitMsg m = .ok true ∧ m ≠ exitNormalMsg then
            some { s with callerMailbox := rest, callerExit := some m }
          else some { s with callerMailbox := rest }

end Step

/-- The message is sent once and nothing else is; the sender ends normally, and its
caller does not end with it. -/
structure Harmless (d : Delayed) (s : DelayedSender) : Prop where
  sent : s.sent = [] ∨ s.sent = [d.message]
  exits : ∀ e ∈ s.exits, e = exitNormalMsg
  caller : s.callerExit = none

/-- Neither an exit message nor the one that cancels, for either matcher. -/
structure Plain {ε : Type} (cbor : Package ε) (m : Bytes) : Prop where
  exit : isExitMsg m = .ok false
  cancel : cbor.matchFrame m [.literal (text "CANCEL")] = .ok none
  timeoutError : cbor.matchFrame m
    [.literal (text "exit"), .literal (text "timeout_error"), .raw, .raw] = .ok none

/-- The condition on a step: a cancellation is handled with the timer no longer
pending, and the message with the target not in shutdown. -/
def Timely {ε : Type} (cbor : Package ε) (d : Delayed) (s : DelayedSender) :
    DelayedSender.Action → Prop
  | .deliver => ∀ mail rest, s.mailbox = mail :: rest → s.inShutdown = false →
      (mail.2 = cancelMessage cbor → s.timeout ≠ .armed) ∧
      (mail.2 = d.message → s.started = true → isLinkMsg mail.2 = false →
        s.targetInShutdown = false)
  | _ => True

section Invariant
variable {ε : Type} {cbor : Package ε} {errorName : ε → Bytes} {d : Delayed}
  {s s' : DelayedSender}

theorem cancelMessage_eq (doc : Documented cbor) :
    cancelMessage cbor = array [.string (text "CANCEL")] := by
  simp [cancelMessage, doc.write_tuple, doc.write_string, arrayOf, array, encodeItems, encode]

theorem cancelMessage_plain : isExitMsg (array [.string (text "CANCEL")]) = .ok false := by
  decide +kernel

theorem nullValue_plain : isExitMsg nullValue = .ok false := by
  decide +kernel

theorem exitNormal_eq (doc : Documented cbor) : exitNormal cbor = .exit exitNormalMsg := by
  have short : (text "normal").length ≤ maxReason := by decide
  rw [exitNormal, Zig.exit, exitMessage_eq doc, if_pos short]
  rfl

theorem receive_cancel (doc : Documented cbor) :
    s.receive cbor errorName d (array [.string (text "CANCEL")]) = (s.cancelTimeout, none) := by
  have elements : array [.string (text "CANCEL")] = arrayOf [pushString (text "CANCEL")] := by
    simp [array, arrayOf, encodeItems, encode]
  have accepts : cbor.matchFrame (arrayOf [pushString (text "CANCEL")])
      [.literal (text "CANCEL")] = .ok (some []) := by
    refine doc.matchFrame_accepts _ _ _ (by simp) ?_ (accepts_literal _ .nil)
    simp only [List.forall_mem_cons]
    exact ⟨by decide, by simp⟩
  rw [DelayedSender.receive, elements, accepts]

theorem receive_plain (doc : Documented cbor) (plain : Plain cbor d.message)
    (target : s.targetInShutdown = false) :
    s.receive cbor errorName d d.message =
      ({ s with sent := s.sent ++ [d.message] }, some (.exit exitNormalMsg)) := by
  rw [DelayedSender.receive, plain.cancel]
  simp only [plain.timeoutError, DelayedSender.sendTarget, target, Bool.false_eq_true, if_false,
    exitNormal_eq doc]

/-- What the mailbox holds before and after the sender has started. -/
inductive Held (started : Bool) (timeout : Timer) (mailbox rest : List (Bool × Bytes)) : Prop
  | spawned (new : started = false) (unset : timeout = .unset)
      (all : mailbox = (true, linkMsg) :: (false, nullValue) :: rest)
  | linked (new : started = false) (unset : timeout = .unset)
      (all : mailbox = (false, nullValue) :: rest)
  | started (running : started = true) (all : mailbox = rest)

def Expected (d : Delayed) (m : Bytes) : Prop :=
  m = array [.string (text "CANCEL")] ∨ m = d.message

structure Calm (d : Delayed) (s : DelayedSender) : Prop where
  held : ∃ rest, Held s.started s.timeout s.mailbox rest ∧ ∀ mail ∈ rest, Expected d mail.2
  timeout : s.timeout ≠ .cancelled
  fresh : s.started = false → s.inShutdown = false
  unsent : s.inShutdown = false → s.sent = []
  crashed : s.crashed = false
  callerMailbox : ∀ e ∈ s.callerMailbox, e = exitNormalMsg
  harmless : Harmless d s

theorem Calm.post (h : Calm d s) {m : Bytes} (expected : Expected d m) : Calm d (s.post m) := by
  unfold DelayedSender.post
  split
  · exact h
  · obtain ⟨rest, held, all⟩ := h.held
    have more : ∀ mail ∈ rest ++ [(false, m)], Expected d mail.2 := by
      intro mail member
      rcases List.mem_append.mp member with old | new
      · exact all mail old
      · cases List.mem_singleton.mp new
        exact expected
    refine ⟨⟨rest ++ [(false, m)], ?_, more⟩, h.timeout, h.fresh, h.unsent, h.crashed, h.callerMailbox,
      ⟨h.harmless.sent, h.harmless.exits, h.harmless.caller⟩⟩
    cases held with
    | spawned new unset all => exact .spawned new unset (congrArg (· ++ [(false, m)]) all)
    | linked new unset all => exact .linked new unset (congrArg (· ++ [(false, m)]) all)
    | started running all => exact .started running (congrArg (· ++ [(false, m)]) all)

/-- The timer moves on once the sender has started. -/
theorem Calm.timer (h : Calm d s) (made : s.timeout ≠ .unset) {t : Timer} (other : t ≠ .cancelled) :
    Calm d { s with timeout := t } := by
  obtain ⟨rest, held, all⟩ := h.held
  refine ⟨⟨rest, ?_, all⟩, other, h.fresh, h.unsent, h.crashed, h.callerMailbox,
    ⟨h.harmless.sent, h.harmless.exits, h.harmless.caller⟩⟩
  cases held with
  | spawned _ unset | linked _ unset => exact absurd unset made
  | started running all => exact .started running all

/-- The sender takes the next of the messages it expects, or drops it in shutdown. -/
theorem Calm.taken (h : Calm d s) (started : s.started = true) {mail : Bool × Bytes}
    {rest : List (Bool × Bytes)} (mailbox : s.mailbox = mail :: rest) :
    Expected d mail.2 ∧ Calm d { s with mailbox := rest } := by
  obtain ⟨all, held, expected⟩ := h.held
  cases held with
  | spawned early | linked early =>
      rw [started] at early
      cases early
  | started _ same =>
      rw [← same, mailbox, List.forall_mem_cons] at expected
      exact ⟨expected.1, ⟨rest, .started started rfl, expected.2⟩, h.timeout, h.fresh, h.unsent, h.crashed,
        h.callerMailbox, ⟨h.harmless.sent, h.harmless.exits, h.harmless.caller⟩⟩

theorem Calm.link (h : Calm d s) (linked : Bool) : Calm d { s with linked := linked } := by
  exact ⟨h.held, h.timeout, h.fresh, h.unsent, h.crashed, h.callerMailbox,
    ⟨h.harmless.sent, h.harmless.exits, h.harmless.caller⟩⟩

/-- The message is forwarded and the sender ends normally. -/
theorem Calm.forwarded (h : Calm d s) (started : s.started = true) (live : s.inShutdown = false) :
    Calm d ({ s with sent := s.sent ++ [d.message] }.handleExit exitNormalMsg) := by
  refine ⟨h.held, h.timeout, fun new => ?_, nofun, h.crashed, ?_, ⟨.inr ?_, ?_, h.harmless.caller⟩⟩
  · have new : s.started = false := new
    rw [started] at new
    cases new
  · intro e member
    unfold DelayedSender.handleExit at member
    dsimp only at member
    split at member
    · rcases List.mem_append.mp member with old | new
      · exact h.callerMailbox e old
      · exact List.mem_singleton.mp new
    · exact h.callerMailbox e member
  · change s.sent ++ [d.message] = [d.message]
    rw [h.unsent live]
    rfl
  · intro e member
    rcases List.mem_append.mp member with old | new
    · exact h.harmless.exits e old
    · exact List.mem_singleton.mp new

/-- A delivery to the sender once it has started. -/
theorem Calm.run (h : Calm d s) (doc : Documented cbor) (plain : Plain cbor d.message)
    (started : s.started = true) (fromCaller : Bool) {m : Bytes} (expected : Expected d m)
    (pending : s.inShutdown = false → m = array [.string (text "CANCEL")] → s.timeout ≠ .armed)
    (target : s.inShutdown = false → m = d.message → isLinkMsg m = false →
      s.targetInShutdown = false) :
    Calm d (s.run cbor errorName d fromCaller m) := by
  unfold DelayedSender.run
  split
  · exact h.link _
  · rename_i noLink
    split
    · exact h
    · rename_i shutdown
      have live : s.inShutdown = false := by simpa using shutdown
      have running : (!s.started) = false := by rw [started, Bool.not_true]
      rcases expected with rfl | rfl
      · simp only [cancelMessage_plain, running, Bool.false_eq_true, if_false,
          receive_cancel doc, DelayedSender.cancelTimeout, pending live rfl]
        exact h
      · have free := target live rfl (by simpa using noLink)
        simp only [plain.exit, running, Bool.false_eq_true, if_false,
          receive_plain doc plain free]
        exact h.forwarded started live

/-- The first two deliveries: the caller's link, and the start. -/
theorem Calm.starts (h : Calm d s) (new : s.started = false) {mail : Bool × Bytes}
    {rest : List (Bool × Bytes)} (mailbox : s.mailbox = mail :: rest) :
    Calm d ({ s with mailbox := rest }.run cbor errorName d mail.1 mail.2) := by
  obtain ⟨left, held, expected⟩ := h.held
  cases held with
  | spawned _ unset all =>
      rw [mailbox] at all
      cases all
      have link : isLinkMsg linkMsg = true := by decide
      rw [DelayedSender.run, if_pos link]
      exact ⟨⟨left, .linked new unset rfl, expected⟩, h.timeout, h.fresh, h.unsent, h.crashed,
        h.callerMailbox, ⟨h.harmless.sent, h.harmless.exits, h.harmless.caller⟩⟩
  | linked _ unset all =>
      rw [mailbox] at all
      obtain ⟨rfl, rfl⟩ := List.cons.inj all
      have noLink : isLinkMsg nullValue = false := by decide
      simp only [DelayedSender.run, noLink, h.fresh new, nullValue_plain, new, Bool.false_eq_true,
        if_false, Bool.not_false, if_true]
      exact ⟨⟨rest, .started rfl rfl, expected⟩, nofun, nofun, fun _ => h.unsent (h.fresh new),
        h.crashed, h.callerMailbox, ⟨h.harmless.sent, h.harmless.exits, h.harmless.caller⟩⟩
  | started running _ =>
      rw [new] at running
      cases running

theorem calm_step (doc : Documented cbor) (plain : Plain cbor d.message)
    {act : DelayedSender.Action} (h : Calm d s) (timely : Timely cbor d s act)
    (next : s.step cbor errorName d act = some s') : Calm d s' := by
  cases act with
  | cancel =>
      cases next
      exact h.post (.inl (cancelMessage_eq doc))
  | expire =>
      simp only [DelayedSender.step, Option.ite_none_right_eq_some] at next
      obtain ⟨armed, next⟩ := next
      cases next
      refine h.timer ?_ (by decide)
      rw [armed]
      decide
  | complete =>
      cases stage : s.timeout with
      | unset | armed | completed => simp [DelayedSender.step, stage] at next
      | cancelled => exact absurd stage h.timeout
      | expired =>
          simp only [DelayedSender.step, stage] at next
          cases next
          refine (h.timer ?_ (by decide)).post (.inr rfl)
          rw [stage]
          decide
  | deliver =>
      cases mailbox : s.mailbox with
      | nil => simp [DelayedSender.step, mailbox] at next
      | cons mail rest =>
          have running : ¬ s.crashed = true := by simp [h.crashed]
          simp only [DelayedSender.step, mailbox] at next
          rw [if_neg running] at next
          cases next
          rcases Bool.eq_false_or_eq_true s.started with started | started
          · obtain ⟨expected, taken⟩ := h.taken started mailbox
            refine taken.run doc plain started mail.1 expected ?_ ?_
            · intro live cancel
              exact (timely mail rest mailbox live).1 (cancel.trans (cancelMessage_eq doc).symm)
            · intro live message
              exact (timely mail rest mailbox live).2 message started
          · exact h.starts started mailbox
  | targetExits =>
      cases next
      exact ⟨h.held, h.timeout, h.fresh, h.unsent, h.crashed, h.callerMailbox,
        ⟨h.harmless.sent, h.harmless.exits, h.harmless.caller⟩⟩
  | callerReceives =>
      cases mailbox : s.callerMailbox with
      | nil => simp [DelayedSender.step, mailbox] at next
      | cons m rest =>
          have normal := h.callerMailbox
          rw [mailbox, List.forall_mem_cons] at normal
          simp only [DelayedSender.step, mailbox, normal.1, ne_eq, not_true, and_false,
            if_false] at next
          cases next
          exact ⟨h.held, h.timeout, h.fresh, h.unsent, h.crashed, normal.2,
            ⟨h.harmless.sent, h.harmless.exits, h.harmless.caller⟩⟩

theorem calm_initial : Calm d {} :=
  ⟨⟨[], .spawned rfl rfl rfl, nofun⟩, nofun, fun _ => rfl, fun _ => rfl, rfl, nofun,
    ⟨.inl rfl, nofun, rfl⟩⟩

end Invariant

/-- In every run in which cancellations find the timer no longer pending and the
message finds its target, the sender is harmless. -/
theorem delayed_send_harmless {ε : Type} {cbor : Package ε} (doc : Documented cbor)
    (errorName : ε → Bytes) {d : Delayed} (plain : Plain cbor d.message)
    {acts : List DelayedSender.Action} {s : DelayedSender}
    (timely : Along (DelayedSender.step cbor errorName d) (Timely cbor d) {} acts)
    (h : run (DelayedSender.step cbor errorName d) {} acts = some s) : Harmless d s := by
  have keeps : Keeps (DelayedSender.step cbor errorName d) (Timely cbor d) (Calm d) :=
    fun _ _ _ inv timely h => calm_step doc plain inv timely h
  exact (keeps.run calm_initial timely h).harmless

def tick : Delayed :=
  { message := array [.string (text "tick")], refs := array [.null], errorValue := 125,
    errorMessage := text "Operation canceled" }

/-- The cancellation is handled after the timer has expired. -/
def cancelledLate : List DelayedSender.Action :=
  [.deliver, .deliver, .cancel, .expire, .deliver, .complete, .cancel, .deliver, .callerReceives]

theorem tick_plain : Plain lenient tick.message :=
  ⟨by decide +kernel, by decide +kernel, by decide +kernel⟩

instance {ε : Type} (cbor : Package ε) (d : Delayed) (s : DelayedSender)
    (act : DelayedSender.Action) : Decidable (Timely cbor d s act) :=
  match act, h : s.mailbox with
  | .deliver, [] => .isTrue fun _ _ mailbox => by rw [h] at mailbox; cases mailbox
  | .deliver, mail :: rest =>
      decidable_of_iff (s.inShutdown = false → (mail.2 = cancelMessage cbor → s.timeout ≠ .armed) ∧
          (mail.2 = d.message → s.started = true → isLinkMsg mail.2 = false →
            s.targetInShutdown = false))
        ⟨fun timely _ _ mailbox live => by rw [h] at mailbox; cases mailbox; exact timely live,
          fun timely => timely mail rest h⟩
  | .cancel, _ | .expire, _ | .complete, _ | .targetExits, _ | .callerReceives, _ => .isTrue trivial

theorem delayed_send_harmless_late :
    ∃ s, run (DelayedSender.step lenient (fun _ => []) tick) {} cancelledLate = some s ∧
      s.sent = [tick.message] ∧ Harmless tick s := by
  have outcome : (run (DelayedSender.step lenient (fun _ => []) tick) {} cancelledLate).map
      DelayedSender.sent = some [tick.message] := by
    decide +kernel
  have timely : Along (DelayedSender.step lenient (fun _ => []) tick) (Timely lenient tick) {}
      cancelledLate := by
    decide +kernel
  obtain ⟨s, whole, sent⟩ := Option.map_eq_some_iff.mp outcome
  exact ⟨s, whole, sent, delayed_send_harmless lenient_selective.toDocumented _ tick_plain timely
    whole⟩

/-- The cancellation is handled with the timer pending. -/
def cancelledEarly : List DelayedSender.Action :=
  [.deliver, .deliver, .cancel, .deliver, .complete, .deliver, .callerReceives]

theorem cancelling_kills_caller :
    Plain lenient tick.message ∧
      ∃ s, run (DelayedSender.step lenient (fun _ => []) tick) {} cancelledEarly = some s ∧
        ¬ Harmless tick s := by
  refine ⟨tick_plain, ?_⟩
  have outcome : (run (DelayedSender.step lenient (fun _ => []) tick) {} cancelledEarly).map
      DelayedSender.callerExit = some (some (array [.string (text "exit"),
        .string (text "timeout_error"), .int 125, .string (text "Operation canceled")])) := by
    decide +kernel
  obtain ⟨s, whole, caller⟩ := Option.map_eq_some_iff.mp outcome
  refine ⟨s, whole, fun harmless => ?_⟩
  rw [harmless.caller] at caller
  cases caller

end Thespian.Zig
