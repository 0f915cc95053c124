import Mathlib.Data.Nat.Digits.Lemmas
import Thespian.Cbor.JsonItems
import Thespian.Console.Lines

/-!
What a command in JSON mode does. Its response is one line that begins with the id of
the command. Whatever the command is and whatever goes wrong, it is answered before
dispatch_json returns, unless it has started a call; then the call has the next number,
and the table has the id under it.
-/

namespace Thespian.Console
open Cbor Cbor.Json Decoding

/-- The line is an object that begins with the id. -/
def CarriesId (toChars : Float → Bytes) (id t : Bytes) : Prop :=
  newline ∉ t ∧ ∃ tid u, toJson toChars id = .ok tid ∧ t = text "\x7b\"id\":" ++ tid ++ text "," ++ u

/-- Ids are what the parser has pushed. -/
def IsId (id : Bytes) : Prop := ∃ v : Value, v.Sized (2 ^ 63) ∧ id = encode v

theorem isId_null : IsId pushNull := ⟨.null, trivial, rfl⟩

section Responses
variable {toChars : Float → Bytes} {id : Bytes}

/-- A map whose first field is the id is printed with the id in front. -/
theorem carries_of_first_pair (plain : ∀ v, newline ∉ toChars v) (isId : IsId id) {m : Nat}
    (few : m + 2 < 2 ^ 64) {rest t : Bytes}
    (run : toJson toChars (mapHeader (UInt64.ofNat (m + 2)) ++ (pushString (text "id") ++
      (id ++ rest))) = .ok t) : CarriesId toChars id t := by
  obtain ⟨v, sized, rfl⟩ := isId
  obtain ⟨tid, printed⟩ := printable toChars v (sized.mono (by decide))
  have key := prints_string toChars (s := text "id") (by decide)
  obtain ⟨u, begins, single⟩ := toJson_first_pair plain few key printed run
  have whole := toJson_prints toChars printed []
  rw [List.append_nil] at whole
  refine ⟨single, tid, u, whole, ?_⟩
  rw [begins]
  rfl

theorem okResponse_carries (plain : ∀ v, newline ∉ toChars v) (isId : IsId id)
    {more : List (Bytes × Bytes)} (few : more.length + 2 < 2 ^ 64) {t : Bytes}
    (run : toJson toChars (okResponse id more) = .ok t) : CarriesId toChars id t :=
  carries_of_first_pair plain isId few run

theorem errorResponse_carries (plain : ∀ v, newline ∉ toChars v) (isId : IsId id) {err t : Bytes}
    (run : toJson toChars (errorResponse id err) = .ok t) : CarriesId toChars id t :=
  @carries_of_first_pair toChars id plain isId 1 (by decide) _ _ run

theorem fields_print (isId : IsId id) (ok : Bool) (more : List (Bytes × Value))
    (few : more.length + 2 < 2 ^ 64)
    (fits : ∀ field ∈ more, field.1.length < 2 ^ 64 ∧ field.2.Sized (2 ^ 64)) :
    ∃ t, toJson toChars (mapHeader (UInt64.ofNat (more.length + 2)) ++ (pushString (text "id") ++
      (id ++ (pushString (text "ok") ++ pushBool ok ++
        more.flatMap fun field => pushString field.1 ++ encode field.2)))) = .ok t := by
  obtain ⟨v, sized, rfl⟩ := isId
  have pushed : ∀ fields : List (Bytes × Value),
      encodePairs (fields.map fun field => (.string field.1, field.2)) =
        fields.flatMap fun field => pushString field.1 ++ encode field.2 := by
    intro fields
    induction fields with
    | nil => rfl
    | cons field fields ih =>
        rw [List.map_cons, encodePairs, ih, List.flatMap_cons, encode]
  have small : ∀ fields : List (Bytes × Value),
      (∀ field ∈ fields, field.1.length < 2 ^ 64 ∧ field.2.Sized (2 ^ 64)) →
      SizedPairs (2 ^ 64) (fields.map fun field => (.string field.1, field.2)) := by
    intro fields fits
    induction fields with
    | nil => trivial
    | cons field fields ih =>
        have first := fits field List.mem_cons_self
        exact ⟨first.1, first.2, ih fun other member => fits other (List.mem_cons_of_mem _ member)⟩
  have whole : (Value.map ((.string (text "id"), v) :: (.string (text "ok"), .bool ok) ::
      more.map fun field => (.string field.1, field.2))).Sized (2 ^ 64) := by
    have short : (text "id").length < 2 ^ 64 ∧ (text "ok").length < 2 ^ 64 := by decide
    refine ⟨?_, short.1, sized.mono (by decide), short.2, trivial, small more fits⟩
    rwa [List.length_cons, List.length_cons, List.length_map]
  obtain ⟨t, printed⟩ := toJson_printable toChars (printable toChars _ whole)
  refine ⟨t, ?_⟩
  rw [← printed, encode, encodePairs, encodePairs, pushed, List.length_cons, List.length_cons,
    List.length_map]
  simp only [encode, List.append_assoc]

/-- The response can be printed, and what is printed carries the id. -/
def Responds (toChars : Float → Bytes) (id body : Bytes) : Prop :=
  ∃ t, toJson toChars body = .ok t ∧ CarriesId toChars id t

variable (plain : ∀ v, newline ∉ toChars v) (isId : IsId id)
include plain isId

theorem okResponse_responds : Responds toChars id (okResponse id []) := by
  obtain ⟨t, printed⟩ := @fields_print toChars id isId true [] (by decide) (by simp)
  have same : toJson toChars (okResponse id []) = .ok t := by
    rw [← printed]
    simp [okResponse]
  exact ⟨t, same, @okResponse_carries toChars id plain isId [] (by decide) t same⟩

theorem listResponse_responds (s : Surroundings toChars) :
    Responds toChars id (okResponse id [(text "result", getNames s.ctx)]) := by
  have few : [(text "result", getNames s.ctx)].length + 2 < 2 ^ 64 := by
    rw [List.length_singleton]
    decide
  have names : (Value.array ((s.ctx.names false).map .string)).Sized (2 ^ 64) := by
    refine ⟨by rw [List.length_map]; exact s.namesFit.1, (sizedItems_iff _ _).mpr ?_⟩
    intro v member
    obtain ⟨n, held, rfl⟩ := List.mem_map.mp member
    exact s.namesFit.2 n held
  have short : (text "result").length < 2 ^ 64 := by decide
  obtain ⟨t, printed⟩ := @fields_print toChars id isId true
    [(text "result", .array ((s.ctx.names false).map .string))] few
    (by simp only [List.mem_singleton, forall_eq]; exact ⟨short, names⟩)
  have same : toJson toChars (okResponse id [(text "result", getNames s.ctx)]) = .ok t := by
    rw [← printed]
    simp [okResponse, getNames]
  exact ⟨t, same, okResponse_carries plain isId few same⟩

theorem errorResponse_responds {err : Bytes} (short : err.length < 2 ^ 64) :
    Responds toChars id (errorResponse id err) := by
  have key : (text "error").length < 2 ^ 64 := by decide
  obtain ⟨t, printed⟩ := @fields_print toChars id isId false [(text "error", .string err)]
    (by rw [List.length_singleton]; decide)
    (by simp only [List.mem_singleton, forall_eq]; exact ⟨key, short⟩)
  have same : toJson toChars (errorResponse id err) = .ok t := by
    rw [← printed]
    simp [errorResponse, encode]
  exact ⟨t, same, errorResponse_carries plain isId same⟩

end Responses

/-- Neither what was written nor the commands have changed. -/
structure Kept (c c' : Connection) : Prop where
  commands : c'.commands = c.commands
  written : c'.written = c.written
  inShutdown : c'.inShutdown = c.inShutdown

/-- No call was started; one may have been numbered in vain. -/
def NoCall (id : Bytes) (c c' : Connection) : Prop :=
  c'.proxies = c.proxies ∧
    (c'.calls = c.calls ∧ c'.nextCall = c.nextCall ∧ c'.pendingCalls = c.pendingCalls ∨
      c'.calls = c.calls + 1 ∧ c'.nextCall = c.nextCall + 1 ∧
        c'.pendingCalls = (c.pendingCalls.insert c.nextCall id).erase c.nextCall)

/-- A call was started under the next number. -/
def OneCall (id : Bytes) (c c' : Connection) : Prop :=
  c'.calls = c.calls + 1 ∧ c'.nextCall = c.nextCall + 1 ∧
    c'.pendingCalls = c.pendingCalls.insert c.nextCall id ∧
    ∃ x : Proxy, c'.proxies = c.proxies ++ [x] ∧ x.seq = c.nextCall ∧ x.stage = .starting

/-- A command has a response that carries its id, or has started a call. -/
inductive Performs (toChars : Float → Bytes) (c : Connection) (id : Bytes) (p : Performed) : Prop
  | responds (kept : Kept c p.connection) (none_ : NoCall id c p.connection) (body : Bytes)
      (response : p.response = some body) (responds : Responds toChars id body)
      (call : p.call = none)
  | starts (kept : Kept c p.connection) (one : OneCall id c p.connection)
      (response : p.response = none) (call : p.call = some c.nextCall)

/-- A command performs, or throws a domain error with a text that can be addressed. -/
def Settles (toChars : Float → Bytes) (c : Connection) (id : Bytes)
    (x : Except IterationError Performed) : Prop :=
  Tame x ∧ ∀ p, x = .ok p → Performs toChars c id p

section Settles
variable {toChars : Float → Bytes} {c : Connection} {id : Bytes}

theorem Settles.bind {α : Type} {x : Except IterationError α}
    {f : α → Except IterationError Performed} (tame : Tame x)
    (rest : ∀ a, x = .ok a → Settles toChars c id (f a)) : Settles toChars c id (x >>= f) := by
  refine ⟨tame.bind fun a found => (rest a found).1, ?_⟩
  intro p run
  cases x with
  | error e => cases run
  | ok a => exact (rest a rfl).2 p run

theorem Settles.ok {p : Performed} (performs : Performs toChars c id p) :
    Settles toChars c id (.ok p) := by
  refine ⟨.ok p, ?_⟩
  intro p' same
  cases same
  exact performs

theorem Settles.thrown {what : Bytes} (short : what.length < 2 ^ 64) :
    Settles toChars c id (.error (.domain ⟨what⟩)) :=
  ⟨.domain short, nofun⟩

/-- Nothing but the taps has changed. -/
theorem Settles.respond {d : Connection} {body : Bytes} {continues : Bool}
    (responds : Responds toChars id body) (kept : Kept c d) (none_ : NoCall id c d) :
    Settles toChars c id (.ok ⟨d, some body, continues, none⟩) :=
  .ok (.responds kept none_ body rfl responds rfl)

end Settles

section Commands
variable {toChars : Float → Bytes} (s : Surroundings toChars) {c : Connection} {id : Bytes}
  {f : Fields}

theorem keptSelf (c : Connection) : Kept c c := ⟨rfl, rfl, rfl⟩

theorem noCallSelf (c : Connection) (id : Bytes) : NoCall id c c := ⟨rfl, .inl ⟨rfl, rfl, rfl⟩⟩

theorem lookup_tame {name : Bytes} (short : name.length < 2 ^ 63) : Tame (lookup toChars s name) := by
  have missing : (name ++ text " not found").length < 2 ^ 64 := by
    rw [List.length_append, text_length]
    have suffix : " not found".toList.length = 10 := by decide
    omega
  rw [lookup]
  split
  · split
    · exact .domain missing
    · exact .ok _
  · exact .domain missing

variable (plain : ∀ v, newline ∉ toChars v) (isId : IsId id) (encoded : Encoded f)
include plain isId encoded

theorem performSend_settles : Settles toChars c id (performSend toChars s c id f) := by
  rw [performSend]
  refine .bind (requireString_tame encoded (by decide)) fun name named => ?_
  have short := requireString_short encoded named
  refine .bind (lookup_tame s short) fun to_ _ => ?_
  refine .bind (require_tame (by decide)) fun msg _ => ?_
  have fits := s.sendFits to_ msg
  split
  case h_1 => exact .respond (okResponse_responds plain isId) (keptSelf c) (noCallSelf c id)
  case h_2 e refused =>
    rw [refused] at fits
    exact .respond (errorResponse_responds plain isId fits) (keptSelf c) (noCallSelf c id)
  case h_3 e thrown =>
    rw [thrown] at fits
    exact .thrown fits

theorem performCall_settles : Settles toChars c id (performCall toChars s c id f) := by
  rw [performCall]
  refine .bind (requireString_tame encoded (by decide)) fun name named => ?_
  have short := requireString_short encoded named
  refine .bind (lookup_tame s short) fun to_ _ => ?_
  refine .bind (require_tame (by decide)) fun msg _ => ?_
  refine .bind (optionalInt_tame encoded (by decide) _) fun timeoutMs _ => ?_
  dsimp only
  split
  case h_1 =>
    exact .ok (.starts ⟨rfl, rfl, rfl⟩ ⟨rfl, rfl, rfl, _, rfl, rfl, rfl⟩ rfl rfl)
  case h_2 e refused =>
    have fits := s.startFits e refused
    exact .respond (errorResponse_responds plain isId fits) ⟨rfl, rfl, rfl⟩
      ⟨rfl, .inr ⟨rfl, rfl, rfl⟩⟩

theorem performTap_settles : Settles toChars c id (performTap c id f) := by
  rw [performTap]
  refine .bind (requireString_tame encoded (by decide)) fun name named => ?_
  have texts : (c.tap name).1.length < 2 ^ 64 := by
    rw [Connection.tap]
    split
    · rw [text_length]
      decide
    · exact Nat.two_pow_pos 64
  have kept : Kept c (c.tap name).2 ∧ NoCall id c (c.tap name).2 := by
    rw [Connection.tap]
    split
    · exact ⟨keptSelf c, noCallSelf c id⟩
    · rw [Connection.tapAdd]
      split
      · exact ⟨keptSelf c, noCallSelf c id⟩
      · exact ⟨⟨rfl, rfl, rfl⟩, rfl, .inl ⟨rfl, rfl, rfl⟩⟩
  dsimp only
  split
  · exact .respond (okResponse_responds plain isId) kept.1 kept.2
  · exact .respond (errorResponse_responds plain isId texts) kept.1 kept.2

theorem performUntap_settles : Settles toChars c id (performUntap c id f) := by
  rw [performUntap]
  refine .bind (requireString_tame encoded (by decide)) fun name named => ?_
  have short := requireString_short encoded named
  have missing : (name ++ text " not tapped").length < 2 ^ 64 := by
    rw [List.length_append, text_length]
    have suffix : " not tapped".toList.length = 11 := by decide
    omega
  have kept : Kept c (c.tapRemove name).2 ∧ NoCall id c (c.tapRemove name).2 :=
    ⟨⟨rfl, rfl, rfl⟩, rfl, .inl ⟨rfl, rfl, rfl⟩⟩
  dsimp only
  split
  · exact .respond (okResponse_responds plain isId) kept.1 kept.2
  · exact .respond (errorResponse_responds plain isId missing) kept.1 kept.2

theorem perform_settles : Settles toChars c id (perform toChars s c id f) := by
  rw [perform]
  refine .bind (requireString_tame encoded (by decide)) fun op named => ?_
  have short := requireString_short encoded named
  have unknown : (text "unknown cmd: " ++ op).length < 2 ^ 64 := by
    rw [List.length_append, text_length]
    have start : "unknown cmd: ".toList.length = 13 := by decide
    omega
  split
  · exact .respond (listResponse_responds plain isId s) (keptSelf c) (noCallSelf c id)
  split
  · exact performSend_settles s plain isId encoded
  split
  · exact performCall_settles s plain isId encoded
  split
  · exact performTap_settles plain isId encoded
  split
  · exact performUntap_settles plain isId encoded
  split
  · exact .respond (okResponse_responds plain isId) (keptSelf c) (noCallSelf c id)
  · exact .respond (errorResponse_responds plain isId unknown) (keptSelf c) (noCallSelf c id)

end Commands

/-- The id of the command on a line. -/
def commandId (fromChars : Bytes → Option Float) (line : Bytes) : Bytes :=
  if (line.dropWhile isBlank).head? = some 0x7b then
    match parseFields fromChars line with
    | .ok f => fieldId f
    | .error _ => pushNull
  else pushNull

/-- A line was handled: it has its response, or has started a call. -/
inductive Handles (toChars : Float → Bytes) (c : Connection) (line id : Bytes) (c' : Connection) :
    Prop
  | responds (t : Bytes) (carried : CarriesId toChars id t)
      (commands : c'.commands = c.commands ++ [⟨line, id, none⟩])
      (written : c'.written =
        c.written ++ [⟨.command c.commands.length, t⟩, ⟨.other, [newline]⟩])
      (inShutdown : c'.inShutdown = c.inShutdown) (none_ : NoCall id c c')
  | starts (commands : c'.commands = c.commands ++ [⟨line, id, some c.nextCall⟩])
      (written : c'.written = c.written) (inShutdown : c'.inShutdown = c.inShutdown)
      (one : OneCall id c c') (isId : IsId id)

section Dispatch
variable {toChars : Float → Bytes} {fromChars : Bytes → Option Float} {line : Bytes}

theorem decimal_length {n : Nat} (small : n < 10 ^ 20) : (decimal n).length ≤ 20 := by
  unfold decimal
  split
  · exact Nat.succ_le_of_lt (Nat.succ_pos 19)
  · rw [List.length_map, List.length_reverse]
    exact (Nat.digits_length_le_iff (by decide) n).mpr small

theorem parseFields_parsed (short : line.length < 2 ^ 63) :
    Tame (parseFields fromChars line) ∧ ∀ f, parseFields fromChars line = .ok f → Encoded f := by
  rw [parseFields]
  cases run : Buffered.pushJson fromChars [] line with
  | mk res cmd =>
      cases res with
      | ok u =>
          obtain ⟨v, sized, pushed, -⟩ := (pushJson_all_or_nothing fromChars [] line short).2 cmd run
          rw [pushed, List.nil_append]
          exact getFields_encode sized
      | error e =>
          refine ⟨?_, nofun⟩
          rw [Buffered.pushJson] at run
          split at run
          · cases run
          · cases run
            refine .domain ?_
            rename_i rest _
            have digits : (decimal (line.length - rest.length)).length ≤ 20 :=
              decimal_length (by omega)
            simp only [List.length_append, text_length]
            have start : "invalid json value at pos ".toList.length = 26 := by decide
            have middle : " in: ".toList.length = 5 := by decide
            omega

theorem cString_length (what : Bytes) : (cString what).length ≤ what.length :=
  (List.takeWhile_sublist _).length_le

theorem fieldId_isId {f : Fields} (encoded : Encoded f) : IsId (fieldId f) := by
  rw [fieldId]
  cases found : f[text "id"]? with
  | none => exact isId_null
  | some x => exact encoded _ x found

theorem respond_handles {c d : Connection} {id body : Bytes} (kept : Kept c d)
    (none_ : NoCall id c d) (responds : Responds toChars id body) (continues : Bool) :
    ∃ c', d.respond toChars line id body continues = .ok (.ok continues, c') ∧
      Handles toChars c line id c' := by
  obtain ⟨t, printed, carried⟩ := responds
  refine ⟨(d.writeLine (.command d.commands.length) t).record ⟨line, id, none⟩,
    by rw [Connection.respond, printed], .responds t carried ?_ ?_ kept.inShutdown none_⟩
  · rw [← kept.commands]
    rfl
  · rw [← kept.commands, ← kept.written]
    simp [Connection.record, Connection.writeLine, Connection.write]

variable (s : Surroundings toChars) (plain : ∀ v, newline ∉ toChars v)
include plain

theorem replyError_handles {c d : Connection} {id what : Bytes} (kept : Kept c d)
    (none_ : NoCall id c d) (isId : IsId id) (short : what.length < 2 ^ 64) :
    ∃ c', d.replyError toChars line id what = (.ok true, c') ∧ Handles toChars c line id c' := by
  obtain ⟨c', responded, handles⟩ := @respond_handles toChars line c d id _ kept none_
    (errorResponse_responds plain isId short) true
  exact ⟨c', by rw [Connection.replyError, responded], handles⟩

theorem dispatchJson_handles (short : line.length < 2 ^ 63)
    (object : (line.dropWhile isBlank).head? = some 0x7b) (c : Connection) :
    ∃ b c', dispatchJson toChars fromChars s c line = (.ok b, c') ∧
      Handles toChars c line (commandId fromChars line) c' := by
  obtain ⟨tame, parsed⟩ := @parseFields_parsed fromChars line short
  rw [dispatchJson, commandId, if_pos object]
  cases fields : parseFields fromChars line with
  | error e =>
      obtain ⟨what, rfl, fits⟩ := tame e fields
      exact ⟨true, replyError_handles plain (keptSelf c) (noCallSelf c _) isId_null
        (Nat.lt_of_le_of_lt (cString_length what) fits)⟩
  | ok f =>
      have encoded := parsed f fields
      have isId := fieldId_isId encoded
      obtain ⟨tame, performed⟩ := @perform_settles toChars s c (fieldId f) f plain isId encoded
      dsimp only
      cases run : perform toChars s c (fieldId f) f with
      | error e =>
          obtain ⟨what, rfl, fits⟩ := tame e run
          exact ⟨true, replyError_handles plain (keptSelf c) (noCallSelf c _) isId
            (Nat.lt_of_le_of_lt (cString_length what) fits)⟩
      | ok p =>
          dsimp only
          cases performed p run with
          | responds kept none_ body response responds call =>
              obtain ⟨c', responded, handles⟩ :=
                @respond_handles toChars line _ _ _ _ kept none_ responds p.continues
              exact ⟨p.continues, c', by rw [response]; dsimp only; rw [responded], handles⟩
          | starts kept one response call =>
              refine ⟨p.continues, p.connection.record ⟨line, fieldId f, p.call⟩,
                by rw [response], .starts ?_ kept.written kept.inShutdown one isId⟩
              rw [← kept.commands, ← call]
              rfl

end Dispatch

/-- The line of a JSON mode that is not blank. -/
def jsonLine (c : Connection) (buf : Bytes) : Option Bytes :=
  let line := if buf.getLast? = some 0x0D then buf.dropLast else buf
  match line.dropWhile isBlank with
  | [] => none
  | first :: _ => if first = 0x7b ∨ c.jsonMode then some line else none

/-- No command was handled, and what was written answers none. -/
structure Quiet (c c' : Connection) : Prop where
  commands : c'.commands = c.commands
  proxies : c'.proxies = c.proxies
  pendingCalls : c'.pendingCalls = c.pendingCalls
  nextCall : c'.nextCall = c.nextCall
  calls : c'.calls = c.calls
  inShutdown : c'.inShutdown = c.inShutdown
  written : ∃ more, c'.written = c.written ++ more ∧
    ∀ e ∈ more, e.origin = .event ∨ e.origin = .other

namespace Quiet
variable {c c' d : Connection}

theorem refl (c : Connection) : Quiet c c := ⟨rfl, rfl, rfl, rfl, rfl, rfl, [], by simp, by simp⟩

theorem trans (first : Quiet c c') (second : Quiet c' d) : Quiet c d := by
  obtain ⟨more, eq, plain⟩ := first.written
  obtain ⟨more', eq', plain'⟩ := second.written
  refine ⟨second.commands.trans first.commands, second.proxies.trans first.proxies,
    second.pendingCalls.trans first.pendingCalls, second.nextCall.trans first.nextCall,
    second.calls.trans first.calls, second.inShutdown.trans first.inShutdown, more ++ more', ?_, ?_⟩
  · rw [eq', eq, List.append_assoc]
  · intro e member
    exact (List.mem_append.mp member).elim (plain e) (plain' e)

theorem write (c : Connection) {origin : Origin} (data : Bytes)
    (plain : origin = .event ∨ origin = .other) : Quiet c (c.write origin data) :=
  ⟨rfl, rfl, rfl, rfl, rfl, rfl, [⟨origin, data⟩], rfl, by simpa using plain⟩

theorem writeLine (c : Connection) {origin : Origin} (line : Bytes)
    (plain : origin = .event ∨ origin = .other) : Quiet c (c.writeLine origin line) :=
  (write c line plain).trans (write _ _ (.inr rfl))

theorem tap (c : Connection) (name : Bytes) : Quiet c (c.tap name).2 := by
  rw [Connection.tap]
  split
  · exact refl c
  · rw [Connection.tapAdd]
    split <;> exact ⟨rfl, rfl, rfl, rfl, rfl, rfl, [], by simp, by simp⟩

theorem tapRemove (c : Connection) (name : Bytes) : Quiet c (c.tapRemove name).2 :=
  ⟨rfl, rfl, rfl, rfl, rfl, rfl, [], by simp [Connection.tapRemove], by simp⟩

end Quiet

section Lines
variable {toChars : Float → Bytes} (fromChars : Bytes → Option Float) (s : Surroundings toChars)

theorem dispatchText_quiet (c : Connection) (buf : Bytes) :
    Quiet c (dispatchText toChars fromChars s c buf).2 := by
  have other : Origin.other = .event ∨ Origin.other = .other := .inr rfl
  rw [dispatchText]
  dsimp only
  split
  · exact .write c _ other
  split
  · exact .write c _ other
  split
  · split
    · exact .tap c _
    · exact (Quiet.tap c _).trans (.write _ _ other)
  split
  · split
    · exact .tapRemove c _
    · exact (Quiet.tapRemove c _).trans (.write _ _ other)
  split
  · exact .write c _ other
  split
  · exact .write c _ other
  split
  · exact .refl c
  · exact .write c _ other
  split
  · exact .write c _ other
  · exact (Quiet.write c _ other).trans (.write _ _ other)

/-- The text mode with its prompt. -/
theorem text_quiet (c : Connection) (buf : Bytes) : ∃ b c',
    (match dispatchText toChars fromChars s c buf with
      | (true, c) => (.ok true, c.write .other c.prompt)
      | (false, c) => (.ok false, c) : Handled Bool) = (.ok b, c') ∧ Quiet c c' := by
  have quiet := dispatchText_quiet fromChars s c buf
  cases run : dispatchText toChars fromChars s c buf with
  | mk continues d =>
      rw [run] at quiet
      cases continues with
      | true => exact ⟨true, _, rfl, quiet.trans (.write d _ (.inr rfl))⟩
      | false => exact ⟨false, d, rfl, quiet⟩

/-- Every line of the JSON mode is handled, and nothing else is. -/
theorem dispatch_cases (plain : ∀ v, newline ∉ toChars v) (c : Connection) {buf : Bytes}
    (short : buf.length < 2 ^ 63) :
    ∃ b c', dispatch toChars fromChars s c buf = (.ok b, c') ∧
      match jsonLine c buf with
      | some line => Handles toChars c line (commandId fromChars line) c'
      | none => Quiet c c' := by
  have shorter : (if buf.getLast? = some 0x0D then buf.dropLast else buf).length < 2 ^ 63 := by
    split
    · rw [List.length_dropLast]
      omega
    · exact short
  rw [dispatch, jsonLine]
  generalize (if buf.getLast? = some 0x0D then buf.dropLast else buf) = line at shorter
  cases rest : line.dropWhile isBlank with
  | nil =>
      dsimp only
      by_cases json : c.jsonMode = true
      · rw [if_pos json]
        exact ⟨true, c, rfl, .refl c⟩
      · rw [if_neg json]
        exact text_quiet fromChars s c line
  | cons first tail =>
      dsimp only
      by_cases object : first = 0x7b
      · rw [if_pos object, if_pos (.inl object)]
        have head : (line.dropWhile isBlank).head? = some 0x7b := by rw [rest, object]; rfl
        obtain ⟨b, c', run, handles⟩ := @dispatchJson_handles toChars fromChars line s plain
          shorter head { c with jsonMode := true }
        refine ⟨b, c', run, ?_⟩
        cases handles with
        | responds t carried commands written inShutdown none_ =>
            exact .responds t carried commands written inShutdown none_
        | starts commands written inShutdown one isId =>
            exact .starts commands written inShutdown one isId
      · rw [if_neg object]
        by_cases json : c.jsonMode = true
        · rw [if_pos json, if_pos (.inr json)]
          have id : commandId fromChars line = pushNull := by
            rw [commandId, rest]
            exact if_neg fun head => object (Option.some.inj head)
          obtain ⟨c', run, handles⟩ := @replyError_handles toChars line plain c c pushNull
            (text "expected a JSON object") (keptSelf c) (noCallSelf c _) isId_null (by decide)
          refine ⟨true, c', run, ?_⟩
          dsimp only
          rwa [id]
        · rw [if_neg json, if_neg (by simp [object, json])]
          exact text_quiet fromChars s c line

end Lines

end Thespian.Console
