import Thespian.Cbor.MatchReturns
import Thespian.Console.Commands

/-!
The reports of the call proxies. A report that is received takes the entry of its call
out of the table, and its response is written, unless what the target has sent cannot be
printed; then the connection ends. No other message touches the table, starts a call or
writes the response to one, but for the commands.
-/

namespace Thespian.Console
open Cbor Cbor.Json Decoding Decoding.Decoder
open Thespian.Runtime

def dispatchPattern : Patterns := .cons (.string (text "dispatch")) (.last (.extract .string 0))

/-- The message would be taken for the report of a call proxy. -/
def IsReport (m : Bytes) : Prop :=
  ∃ ws, matchBuffer m replyPattern = .ok (true, ws) ∨ matchBuffer m timeoutPattern = .ok (true, ws) ∨
    matchBuffer m errorPattern = .ok (true, ws)

section Others
variable (toChars : Float → Bytes) (fromChars : Bytes → Option Float) (s : Surroundings toChars)
  {c : Connection}

theorem writeJson_quiet (c : Connection) {origin : Origin} (body : Bytes)
    (plain : origin = .event ∨ origin = .other) :
    Quiet c (c.writeJson toChars origin body).2 := by
  rw [Connection.writeJson]
  split
  · exact .writeLine c _ plain
  · exact .refl c

theorem receiveTap_quiet (c : Connection) (name dir peer r : Bytes) :
    Quiet c (receiveTap toChars c name dir peer r).2 := by
  rw [receiveTap]
  dsimp only
  split
  · exact writeJson_quiet toChars c _ (.inl rfl)
  · split
    · exact .refl c
    · split <;> exact .writeLine c _ (.inr rfl)

theorem receiveOther_quiet (c : Connection) (name m : Bytes) :
    Quiet c (receiveOther toChars c name m).2 := by
  have other : Origin.other = .event ∨ Origin.other = .other := .inr rfl
  rw [receiveOther]
  dsimp only
  split
  · exact writeJson_quiet toChars c _ (.inl rfl)
  · split
    · exact .write c _ other
    · exact (Quiet.write c _ other).trans (.write _ _ other)

theorem shutdown_quiet (c : Connection) (reason msg : Bytes) :
    Quiet c (c.shutdown reason msg).2 := by
  have removed := Quiet.tapRemove c []
  rw [Connection.shutdown]
  split <;> exact removed

theorem receiveRead_quiet (c : Connection) (buf : Bytes) : Quiet c (receiveRead c buf).2 := by
  rw [receiveRead]
  split <;> exact ⟨rfl, rfl, rfl, rfl, rfl, rfl, [], by simp, by simp⟩

theorem receiveWritten_quiet (c : Connection) (written : Int) :
    Quiet c (receiveWritten c written).2 :=
  ⟨rfl, rfl, rfl, rfl, rfl, rfl, [], by simp [receiveWritten], by simp⟩

/-- A message that is neither a line nor a report. -/
theorem receive_quiet (c : Connection) (name m : Bytes)
    (notLine : ∀ ws, matchBuffer m dispatchPattern ≠ .ok (true, ws)) (notReport : ¬ IsReport m) :
    Quiet c (receive toChars fromChars s c name m).2 := by
  have unchanged := Quiet.refl c
  rw [receive]
  refine test_ensures unchanged (fun ws passed => absurd passed (notLine ws)) ?_
  refine test_ensures unchanged ?_ ?_
  · intro ws _
    split
    · exact receiveRead_quiet c _
    · exact .refl c
  refine test_ensures unchanged ?_ ?_
  · intro ws _
    split
    · exact receiveWritten_quiet c _
    · exact .refl c
  refine test_ensures unchanged (fun _ _ => shutdown_quiet c _ _) ?_
  refine test_ensures unchanged ?_ ?_
  · intro ws _
    split
    · exact shutdown_quiet c _ _
    · exact .refl c
  refine test_ensures unchanged ?_ ?_
  · intro ws _
    split
    · exact shutdown_quiet c _ _
    · exact .refl c
  refine test_ensures unchanged (fun ws passed => absurd ⟨ws, .inl passed⟩ notReport) ?_
  refine test_ensures unchanged (fun ws passed => absurd ⟨ws, .inr (.inl passed)⟩ notReport) ?_
  refine test_ensures unchanged (fun ws passed => absurd ⟨ws, .inr (.inr passed)⟩ notReport) ?_
  refine test_ensures unchanged ?_ (receiveOther_quiet toChars c name m)
  intro ws _
  split
  · exact receiveTap_quiet toChars c _ _ _ _
  · exact .refl c

/-- A message that is no line numbers no calls. -/
theorem receive_calls (c : Connection) (name m : Bytes)
    (notLine : ∀ ws, matchBuffer m dispatchPattern ≠ .ok (true, ws)) :
    (receive toChars fromChars s c name m).2.calls = c.calls := by
  let P := fun d : Connection => d.calls = c.calls
  have unchanged : P c := rfl
  have concludes : ∀ seq origin body, P ((c.takeCall seq).2.writeJson toChars origin body).2 := by
    intro seq origin body
    rw [Connection.writeJson, Connection.takeCall]
    split <;> split <;> rfl
  change P (receive toChars fromChars s c name m).2
  rw [receive]
  refine test_ensures unchanged (fun ws passed => absurd passed (notLine ws)) ?_
  refine test_ensures unchanged ?_ ?_
  · intro ws _
    split
    · exact (receiveRead_quiet c _).calls
    · exact unchanged
  refine test_ensures unchanged ?_ ?_
  · intro ws _
    split <;> exact unchanged
  refine test_ensures unchanged (fun _ _ => (shutdown_quiet c _ _).calls) ?_
  refine test_ensures unchanged ?_ ?_
  · intro ws _
    split
    · exact (shutdown_quiet c _ _).calls
    · exact unchanged
  refine test_ensures unchanged ?_ ?_
  · intro ws _
    split
    · exact (shutdown_quiet c _ _).calls
    · exact unchanged
  refine test_ensures unchanged ?_ ?_
  · intro ws _
    split
    · exact concludes _ _ _
    · exact unchanged
  refine test_ensures unchanged ?_ ?_
  · intro ws _
    split
    · exact concludes _ _ _
    · exact unchanged
  refine test_ensures unchanged ?_ ?_
  · intro ws _
    split
    · rw [receiveError]
      split
      · exact unchanged
      · exact concludes _ _ _
    · exact unchanged
  refine test_ensures unchanged ?_ (receiveOther_quiet toChars c name m).calls
  intro ws _
  split
  · exact (receiveTap_quiet toChars c _ _ _ _).calls
  · exact unchanged

/-- Whatever is received, the connection only sends itself lines. -/
theorem receive_mailbox (c : Connection) (name m : Bytes) : ∃ lines : List Bytes,
    (receive toChars fromChars s c name m).2.mailbox =
      c.mailbox ++ lines.map fun line => .other (dispatchMsg line) := by
  by_cases read : ∃ ws, matchBuffer m readPattern = .ok (true, ws)
  · obtain ⟨ws, passed⟩ := read
    have read : matchBuffer m (socketPattern "read_complete" (.last (.extract .string 0))) =
        .ok (true, ws) := passed
    have first := @matchBuffer_other_literal m ws (text "socket") (text "dispatch") _
      (.last (.extract .string 0)) (by decide) read
    rw [receive, test, first]
    dsimp only
    rw [test, read]
    dsimp only
    split
    · rw [receiveRead]
      split
      · exact ⟨[], by simp⟩
      · exact ⟨_, rfl⟩
    · exact ⟨[], by simp⟩
  · have same := receive_same toChars fromChars s c name m fun ws passed => read ⟨ws, passed⟩
    exact ⟨[], by simp [same.2]⟩

/-- The line of a message to dispatch. -/
theorem dispatch_writes {m : Bytes} {ws : Writes}
    (passed : matchBuffer m dispatchPattern = .ok (true, ws)) :
    ∃ buf, ws = [(0, .string buf)] ∧ buf.length ≤ m.length := by
  obtain ⟨n, t, r, header, elements⟩ := matchBuffer_accepts passed
  obtain ⟨-, first, u, more, head, tail, rfl⟩ := matchNext_cons_accepts elements
  obtain ⟨-, string⟩ := matchNext_last_accepts rfl tail
  obtain ⟨literal, rfl⟩ := matchString_of_literal head
  obtain ⟨buf, read, rfl⟩ := matchString_of_extract string
  have inside := matchString_length read
  have before := advances_skipValue _ _ _ (matchString_split literal).1
  have behind := shrinks_decodeArrayHeader _ _ _ header
  exact ⟨buf, rfl, by omega⟩

theorem dispatchMsg_eq (line : Bytes) : dispatchMsg line =
    arrayHeader 2 ++ (pushString (text "dispatch") ++ (pushString line ++ [])) := by
  simp only [dispatchMsg, array, encodeItems, encode]
  rfl

theorem dispatchMsg_passes {line : Bytes} (short : line.length < 2 ^ 63) :
    matchBuffer (dispatchMsg line) dispatchPattern = .ok (true, [(0, .string line)]) := by
  have taken : matchValue (.extract .string 0) (pushString line ++ []) =
      .ok ((true, [(0, .string line)]), []) :=
    matchValue_extract (v := .string line) short rfl []
  have one : (2 : UInt64).toNat - 1 = 1 := rfl
  rw [dispatchMsg_eq, dispatchPattern, matchBuffer_tag (by decide) (by decide), one,
    matchNext_last_of rfl taken]
  rfl

end Others

/-- A call proxy sends what a target sent to it, and errors of the runtime. -/
def Mail.Proper : Mail → Prop
  | .reply _ name m => name.length < 2 ^ 63 ∧ ∃ res, decodeArrayHeader m = .ok res
  | .timeout _ => True
  | .error _ e => ∃ res, decodeArrayHeader e = .ok res
  | .other m => ¬ IsReport m

/-- The response to a call was written, and its entry is gone. -/
structure Concludes (toChars : Float → Bytes) (c : Connection) (seq : UInt64) (c' : Connection) :
    Prop where
  commands : c'.commands = c.commands
  proxies : c'.proxies = c.proxies
  nextCall : c'.nextCall = c.nextCall
  calls : c'.calls = c.calls
  inShutdown : c'.inShutdown = c.inShutdown
  mailbox : c'.mailbox = c.mailbox
  pendingCalls : ∀ u : UInt64, u ≠ seq → c'.pendingCalls[u]? = c.pendingCalls[u]?
  shrinks : ∀ (u : UInt64) (id : Bytes), c'.pendingCalls[u]? = some id → c.pendingCalls[u]? = some id
  written : ∃ t, c'.written = c.written ++ [⟨.call seq, t⟩, ⟨.other, [newline]⟩] ∧
    ∀ id, c.pendingCalls[seq]? = some id → IsId id → CarriesId toChars id t

/-- The connection throws before it has written the response. -/
structure Fails (c : Connection) (seq : UInt64) (c' : Connection) : Prop where
  commands : c'.commands = c.commands
  proxies : c'.proxies = c.proxies
  nextCall : c'.nextCall = c.nextCall
  calls : c'.calls = c.calls
  mailbox : c'.mailbox = c.mailbox
  written : c'.written = c.written
  pendingCalls : ∀ u : UInt64, u ≠ seq → c'.pendingCalls[u]? = c.pendingCalls[u]?
  shrinks : ∀ (u : UInt64) (id : Bytes), c'.pendingCalls[u]? = some id → c.pendingCalls[u]? = some id

/-- What becomes of a report. -/
def Reported (toChars : Float → Bytes) (c : Connection) (seq : UInt64) (out : Result × Connection) :
    Prop :=
  out.1 = .ok ∧ Concludes toChars c seq out.2 ∨ (∃ e, out.1 = .throws e) ∧ Fails c seq out.2

section Reports
variable {toChars : Float → Bytes} {c : Connection}

theorem Fails.refl (c : Connection) (seq : UInt64) : Fails c seq c :=
  ⟨rfl, rfl, rfl, rfl, rfl, rfl, fun _ _ => rfl, fun _ _ => id⟩

theorem pendingCalls_takeCall (c : Connection) (seq : UInt64) :
    (∀ u : UInt64, u ≠ seq → (c.takeCall seq).2.pendingCalls[u]? = c.pendingCalls[u]?) ∧
      ∀ (u : UInt64) (id : Bytes), (c.takeCall seq).2.pendingCalls[u]? = some id → c.pendingCalls[u]? = some id := by
  rw [Connection.takeCall]
  split
  · refine ⟨?_, ?_⟩
    · intro u other
      rw [Std.TreeMap.getElem?_erase]
      simp [Ne.symm other]
    · intro u id held
      rw [Std.TreeMap.getElem?_erase] at held
      split at held
      · cases held
      · exact held
  · exact ⟨fun _ _ => rfl, fun _ _ => id⟩

/-- A report whose response is a map with the id in front. -/
theorem writeJson_reported (plain : ∀ v, newline ∉ toChars v) (c : Connection) (seq : UInt64)
    {m : Nat} (few : m + 2 < 2 ^ 64) {body : Bytes → Bytes}
    (begins : ∀ id, ∃ rest, body id =
      mapHeader (UInt64.ofNat (m + 2)) ++ (pushString (text "id") ++ (id ++ rest))) :
    Reported toChars c seq
      ((c.takeCall seq).2.writeJson toChars (.call seq) (body (c.takeCall seq).1)) := by
  obtain ⟨pending, shrinks⟩ := pendingCalls_takeCall c seq
  have kept : (c.takeCall seq).2.commands = c.commands ∧ (c.takeCall seq).2.proxies = c.proxies ∧
      (c.takeCall seq).2.nextCall = c.nextCall ∧ (c.takeCall seq).2.calls = c.calls ∧
      (c.takeCall seq).2.inShutdown = c.inShutdown ∧ (c.takeCall seq).2.mailbox = c.mailbox ∧
      (c.takeCall seq).2.written = c.written := by
    rw [Connection.takeCall]
    split <;> exact ⟨rfl, rfl, rfl, rfl, rfl, rfl, rfl⟩
  have taken : ∀ id, c.pendingCalls[seq]? = some id → (c.takeCall seq).1 = id := by
    intro id held
    rw [Connection.takeCall, held]
  obtain ⟨commands, proxies, nextCall, calls, inShutdown, mailbox, written⟩ := kept
  rw [Connection.writeJson]
  cases run : toJson toChars (body (c.takeCall seq).1) with
  | error e =>
      exact .inr ⟨⟨_, rfl⟩, commands, proxies, nextCall, calls, mailbox, written, pending, shrinks⟩
  | ok t =>
      refine .inl ⟨rfl, commands, proxies, nextCall, calls, inShutdown, mailbox, pending, shrinks,
        t, ?_, ?_⟩
      · rw [← written]
        simp [Connection.writeLine, Connection.write]
      · intro id held isId
        obtain ⟨rest, eq⟩ := begins id
        rw [taken id held, eq] at run
        exact carries_of_first_pair plain isId few run

theorem test_other {tag lit rest : Bytes} {n : UInt64} {parms : Patterns}
    {matched : Writes → Result × Connection} {otherwise : Result × Connection}
    (short : tag.length < 2 ^ 63) (some_ : n ≠ 0) (other : tag ≠ lit) :
    test c (arrayHeader n ++ (pushString tag ++ rest)) (.cons (.string lit) parms) matched otherwise =
      otherwise := by
  rw [test, matchBuffer_other_tag short some_ rest other]

theorem takes_seq (seq : UInt64) (var : Nat) (r : Bytes) :
    matchValue (.extract (.int .unsignedLong) var) (pushUint seq ++ r) =
      .ok ((true, [(var, .int seq.toNat)]), r) := by
  have bound := seq.toNat_lt
  refine matchValue_extract (v := .uint seq) trivial ?_ r
  simp only [Extractor.bind?, Value.integer?, Option.map_eq_some_iff, Option.filter_eq_some_iff,
    decide_eq_true_eq]
  have min : IntType.min .unsignedLong = 0 := by decide
  have max : IntType.max .unsignedLong = 2 ^ 64 - 1 := by decide
  refine ⟨_, ⟨rfl, ?_⟩, rfl⟩
  rw [min, max]
  omega

variable (fromChars : Bytes → Option Float) (s : Surroundings toChars)

theorem receive_reply (name from_ m : Bytes) (seq : UInt64)
    (proper : (Mail.reply seq name m).Proper) :
    (∃ e, receive toChars fromChars s c from_ (Mail.reply seq name m).message = (.throws e, c)) ∨
      ∃ r, receive toChars fromChars s c from_ (Mail.reply seq name m).message =
        receiveReply toChars c seq name r := by
  obtain ⟨short, res, framed⟩ := proper
  have tag : (text "debug_call_reply").length < 2 ^ 63 := by decide
  have named := @matchValue_extract .string 1 (.string name) (.string name) short rfl m
  rw [encode] at named
  rw [receive, Mail.message]
  simp only [socketPattern]
  rw [test_other tag (by decide) (by decide), test_other tag (by decide) (by decide),
    test_other tag (by decide) (by decide), test_other tag (by decide) (by decide),
    test_other tag (by decide) (by decide), test_other tag (by decide) (by decide),
    replyPattern, test, matchBuffer_tag tag (by decide)]
  have three : (4 : UInt64).toNat - 1 = 3 := rfl
  rw [three, matchNext_cons_of (takes_seq seq 0 _), matchNext_cons_of named]
  rcases matchValue_range framed 2 with ⟨e, thrown⟩ | ⟨item, r, taken⟩
  · left
    rw [matchNext_last_error rfl thrown]
    exact ⟨_, rfl⟩
  · right
    rw [matchNext_last_of rfl taken]
    refine ⟨item, ?_⟩
    simp [Except.map]

theorem receive_timeout (from_ : Bytes) (seq : UInt64) :
    receive toChars fromChars s c from_ (Mail.timeout seq).message = receiveTimeout toChars c seq := by
  have tag : (text "debug_call_timeout").length < 2 ^ 63 := by decide
  have taken := takes_seq seq 0 []
  rw [List.append_nil] at taken
  rw [receive, Mail.message]
  simp only [socketPattern, replyPattern]
  rw [test_other tag (by decide) (by decide), test_other tag (by decide) (by decide),
    test_other tag (by decide) (by decide), test_other tag (by decide) (by decide),
    test_other tag (by decide) (by decide), test_other tag (by decide) (by decide),
    test_other tag (by decide) (by decide), timeoutPattern, test, matchBuffer_tag tag (by decide)]
  have one : (2 : UInt64).toNat - 1 = 1 := rfl
  rw [one, matchNext_last_of rfl taken]
  simp [Except.map]

theorem receive_error (from_ e : Bytes) (seq : UInt64) (proper : (Mail.error seq e).Proper) :
    (∃ e', receive toChars fromChars s c from_ (Mail.error seq e).message = (.throws e', c)) ∨
      ∃ r, receive toChars fromChars s c from_ (Mail.error seq e).message =
        receiveError toChars c seq r := by
  obtain ⟨res, framed⟩ := proper
  have tag : (text "debug_call_error").length < 2 ^ 63 := by decide
  rw [receive, Mail.message]
  simp only [socketPattern, replyPattern, timeoutPattern]
  rw [test_other tag (by decide) (by decide), test_other tag (by decide) (by decide),
    test_other tag (by decide) (by decide), test_other tag (by decide) (by decide),
    test_other tag (by decide) (by decide), test_other tag (by decide) (by decide),
    test_other tag (by decide) (by decide), test_other tag (by decide) (by decide), errorPattern,
    test, matchBuffer_tag tag (by decide)]
  have two : (3 : UInt64).toNat - 1 = 2 := rfl
  rw [two, matchNext_cons_of (takes_seq seq 0 _)]
  rcases matchValue_range framed 1 with ⟨e, thrown⟩ | ⟨item, r, taken⟩
  · left
    rw [matchNext_last_error rfl thrown]
    exact ⟨_, rfl⟩
  · right
    rw [matchNext_last_of rfl taken]
    refine ⟨item, ?_⟩
    simp [Except.map]

/-- A report that is received is answered, or ends the connection. -/
theorem receive_report (plain : ∀ v, newline ∉ toChars v) (from_ : Bytes) {mail : Mail}
    {seq : UInt64} (report : mail.seq? = some seq) (proper : mail.Proper) :
    Reported toChars c seq (receive toChars fromChars s c from_ mail.message) := by
  have failed : ∀ e, Reported toChars c seq (.throws e, c) := fun e =>
    .inr ⟨⟨e, rfl⟩, .refl c seq⟩
  cases mail with
  | reply seq' name m =>
      cases report
      rcases @receive_reply toChars c fromChars s name from_ m seq proper with ⟨e, run⟩ | ⟨r, run⟩
      · exact run ▸ failed e
      · rw [run]
        exact @writeJson_reported toChars plain c seq 2 (by decide)
          (fun id => okResponse id [(text "from", pushString name), (text "result", r)])
          fun id => ⟨_, rfl⟩
  | timeout seq' =>
      cases report
      rw [receive_timeout fromChars s from_ seq]
      exact @writeJson_reported toChars plain c seq 1 (by decide)
        (fun id => errorResponse id (text "timeout")) fun id => ⟨_, rfl⟩
  | error seq' e =>
      cases report
      rcases @receive_error toChars c fromChars s from_ e seq proper with ⟨e, run⟩ | ⟨r, run⟩
      · exact run ▸ failed e
      · rw [run, receiveError]
        cases toJson toChars r with
        | error e => exact failed _
        | ok t =>
            exact @writeJson_reported toChars plain c seq 1 (by decide)
              (fun id => errorResponse id t) fun id => ⟨_, rfl⟩
  | other m => cases report

end Reports

end Thespian.Console
