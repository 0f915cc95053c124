import Thespian.Console.Receive

/-!
The lines of a debug connection. What it has read is cut at the newlines: each complete
line goes to the connection itself as a message to dispatch, and the bytes behind the
last newline wait for the next read. No other message that the connection receives
adds to its mailbox or touches what waits.
-/

namespace Thespian.Console
open Cbor Cbor.Json Decoding

theorem lineLoop_splits (fuel : Nat) (buf : Bytes) (enough : buf.length ≤ fuel) :
    buf.splitOn newline = (lineLoop fuel buf).1 ++ [(lineLoop fuel buf).2] := by
  induction fuel generalizing buf with
  | zero =>
      have empty : buf = [] := List.length_eq_zero_iff.mp (Nat.le_zero.mp enough)
      rw [empty, List.splitOn_nil]
      rfl
  | succ fuel ih =>
      rw [lineLoop]
      split
      case isTrue empty =>
        rw [empty, List.splitOn_nil]
        rfl
      case isFalse =>
        cases found : buf.findIdx? (· = newline) with
        | none =>
            have absent : newline ∉ buf := by
              intro member
              have plain := List.findIdx?_eq_none_iff.mp found newline member
              simp at plain
            exact List.splitOn_eq_singleton absent
        | some pos =>
            obtain ⟨inside, at_, before⟩ := List.findIdx?_eq_some_iff_getElem.mp found
            have first : newline ∉ buf.take pos := by
              intro member
              obtain ⟨i, bound, eq⟩ := List.mem_iff_getElem.mp member
              have earlier : i < pos := by
                rw [List.length_take] at bound
                omega
              have other := before i earlier
              rw [List.getElem_take] at eq
              simp [eq] at other
            have cut : buf = buf.take pos ++ newline :: buf.drop (pos + 1) := by
              have head : buf[pos] = newline := of_decide_eq_true at_
              rw [← head, ← List.drop_eq_getElem_cons inside, List.take_append_drop]
            have shorter := ih (buf.drop (pos + 1)) (by rw [List.length_drop]; omega)
            have split_ := congrArg (fun text => text.splitOn newline) cut
            dsimp only at split_ ⊢
            rw [split_, List.splitOn_append_cons_self_of_not_mem first, shorter]
            rfl

/-- What is appended to a text goes to the last of its lines. -/
theorem splitOn_append {α : Type} [BEq α] [LawfulBEq α] {a : α} {text : List α}
    {lines : List (List α)} {last : List α} (more : List α)
    (h : text.splitOn a = lines ++ [last]) :
    (text ++ more).splitOn a = lines ++ (last ++ more).splitOn a := by
  induction text generalizing lines last with
  | nil =>
      rw [List.splitOn_nil] at h
      have parts : [] ++ [[]] = lines ++ [last] := h
      obtain ⟨rfl, same⟩ := List.append_inj' parts rfl
      cases same
      rfl
  | cons x text ih =>
      obtain ⟨earlier, rest, split⟩ : ∃ earlier rest, text.splitOn a = earlier ++ [rest] :=
        ⟨_, _, (List.dropLast_append_getLast (List.splitOn_ne_nil a text)).symm⟩
      have appended := ih split
      rw [List.cons_append, List.splitOn_cons_eq_if_modifyHead, appended]
      rw [List.splitOn_cons_eq_if_modifyHead, split] at h
      by_cases here : (x == a) = true
      · rw [if_pos here] at h ⊢
        have parts : ([] :: earlier) ++ [rest] = lines ++ [last] := h
        obtain ⟨rfl, same⟩ := List.append_inj' parts rfl
        cases same
        rfl
      · rw [if_neg here] at h ⊢
        cases earlier with
        | nil =>
            have parts : [] ++ [x :: rest] = lines ++ [last] := h
            obtain ⟨rfl, same⟩ := List.append_inj' parts rfl
            cases same
            rw [List.nil_append, List.nil_append, List.cons_append,
              List.splitOn_cons_eq_if_modifyHead, if_neg here]
        | cons line earlier =>
            have parts : ((x :: line) :: earlier) ++ [rest] = lines ++ [last] := h
            obtain ⟨rfl, same⟩ := List.append_inj' parts rfl
            cases same
            rfl

section Frame
variable (toChars : Float → Bytes) (fromChars : Bytes → Option Float) (s : Surroundings toChars)

/-- Nothing was read and nothing was sent to the connection itself. -/
def SameLines (c c' : Connection) : Prop := c'.prevBuf = c.prevBuf ∧ c'.mailbox = c.mailbox

variable {c c' d : Connection}

theorem SameLines.trans (first : SameLines c c') (second : SameLines c' d) : SameLines c d :=
  ⟨second.1.trans first.1, second.2.trans first.2⟩

theorem respond_same (line id body : Bytes) (continues : Bool) {h : Handled Bool}
    (run : c.respond toChars line id body continues = .ok h) : SameLines c h.2 := by
  rw [Connection.respond] at run
  split at run
  · cases run
    exact ⟨rfl, rfl⟩
  · cases run

theorem replyError_same (c : Connection) (line id what : Bytes) :
    SameLines c (c.replyError toChars line id what).2 := by
  rw [Connection.replyError]
  split
  case h_1 run => exact respond_same toChars line id _ true run
  case h_2 => exact ⟨rfl, rfl⟩

theorem tap_same (c : Connection) (name : Bytes) : SameLines c (c.tap name).2 := by
  rw [Connection.tap]
  split
  · exact ⟨rfl, rfl⟩
  · rw [Connection.tapAdd]
    split <;> exact ⟨rfl, rfl⟩

theorem performSend_same (id : Bytes) (f : Fields) {p : Performed}
    (run : performSend toChars s c id f = .ok p) : SameLines c p.connection := by
  rw [performSend] at run
  simp only [bind, Except.bind, pure, Except.pure] at run
  repeat' split at run
  all_goals
    cases run
    try exact ⟨rfl, rfl⟩

theorem performCall_same (id : Bytes) (f : Fields) {p : Performed}
    (run : performCall toChars s c id f = .ok p) : SameLines c p.connection := by
  rw [performCall] at run
  simp only [bind, Except.bind, pure, Except.pure] at run
  repeat' split at run
  all_goals
    cases run
    try exact ⟨rfl, rfl⟩

theorem performTap_same (id : Bytes) (f : Fields) {p : Performed}
    (run : performTap c id f = .ok p) : SameLines c p.connection := by
  rw [performTap] at run
  simp only [bind, Except.bind, pure, Except.pure] at run
  repeat' split at run
  all_goals
    cases run
    try exact tap_same c _

theorem performUntap_same (id : Bytes) (f : Fields) {p : Performed}
    (run : performUntap c id f = .ok p) : SameLines c p.connection := by
  rw [performUntap] at run
  simp only [bind, Except.bind, pure, Except.pure] at run
  repeat' split at run
  all_goals
    cases run
    try exact ⟨rfl, rfl⟩

theorem perform_same (id : Bytes) (f : Fields) {p : Performed}
    (run : perform toChars s c id f = .ok p) : SameLines c p.connection := by
  rw [perform] at run
  simp only [bind, Except.bind, pure, Except.pure] at run
  split at run
  · cases run
  split at run
  · cases run
    exact ⟨rfl, rfl⟩
  split at run
  · exact performSend_same toChars s id f run
  split at run
  · exact performCall_same toChars s id f run
  split at run
  · exact performTap_same id f run
  split at run
  · exact performUntap_same id f run
  split at run <;>
    · cases run
      exact ⟨rfl, rfl⟩

theorem dispatchJson_same (c : Connection) (line : Bytes) :
    SameLines c (dispatchJson toChars fromChars s c line).2 := by
  rw [dispatchJson]
  split
  · exact replyError_same toChars c line _ _
  · exact ⟨rfl, rfl⟩
  dsimp only
  split
  · exact replyError_same toChars c line _ _
  · exact ⟨rfl, rfl⟩
  case h_3 p performed =>
    have done := perform_same toChars s _ _ performed
    split
    · exact done
    · split
      case h_1 responded => exact done.trans (respond_same toChars line _ _ _ responded)
      case h_2 => exact done.trans (replyError_same toChars p.connection line _ _)

theorem dispatchText_same (c : Connection) (buf : Bytes) :
    SameLines c (dispatchText toChars fromChars s c buf).2 := by
  rw [dispatchText]
  dsimp only
  split
  · exact ⟨rfl, rfl⟩
  split
  · exact ⟨rfl, rfl⟩
  split
  · split
    · exact tap_same c _
    · exact (tap_same c _).trans ⟨rfl, rfl⟩
  split
  · split <;> exact ⟨rfl, rfl⟩
  split
  · exact ⟨rfl, rfl⟩
  split
  · exact ⟨rfl, rfl⟩
  split
  · exact ⟨rfl, rfl⟩
  · exact ⟨rfl, rfl⟩
  split <;> exact ⟨rfl, rfl⟩

theorem dispatch_same (c : Connection) (buf : Bytes) :
    SameLines c (dispatch toChars fromChars s c buf).2 := by
  rw [dispatch]
  generalize (if buf.getLast? = some 0x0D then buf.dropLast else buf) = line
  have written := dispatchText_same toChars fromChars s c line
  split
  · split
    · exact ⟨rfl, rfl⟩
    · split
      case h_1 run => rwa [run] at written
      case h_2 run => rwa [run] at written
  · split
    · have handled := dispatchJson_same toChars fromChars s { c with jsonMode := true } line
      exact SameLines.trans ⟨rfl, rfl⟩ handled
    · split
      · exact replyError_same toChars c line _ _
      · split
        case h_1 run => rwa [run] at written
        case h_2 run => rwa [run] at written

theorem takeCall_same (c : Connection) (seq : UInt64) : SameLines c (c.takeCall seq).2 := by
  rw [Connection.takeCall]
  split <;> exact ⟨rfl, rfl⟩

theorem writeJson_same (c : Connection) (origin : Origin) (body : Bytes) :
    SameLines c (c.writeJson toChars origin body).2 := by
  rw [Connection.writeJson]
  split <;> exact ⟨rfl, rfl⟩

theorem shutdown_same (c : Connection) (reason msg : Bytes) :
    SameLines c (c.shutdown reason msg).2 := by
  rw [Connection.shutdown]
  split <;> exact ⟨rfl, rfl⟩

theorem receiveDispatch_same (c : Connection) (buf : Bytes) :
    SameLines c (receiveDispatch toChars fromChars s c buf).2 := by
  have handled := dispatch_same toChars fromChars s c buf
  rw [receiveDispatch]
  split
  case h_1 run => rwa [run] at handled
  case h_2 run => rwa [run] at handled
  case h_3 run => rwa [run] at handled

theorem receiveError_same (c : Connection) (seq : UInt64) (r : Bytes) :
    SameLines c (receiveError toChars c seq r).2 := by
  rw [receiveError]
  split
  · exact ⟨rfl, rfl⟩
  · exact (takeCall_same c seq).trans (writeJson_same toChars _ _ _)

theorem receiveTap_same (c : Connection) (name dir peer r : Bytes) :
    SameLines c (receiveTap toChars c name dir peer r).2 := by
  rw [receiveTap]
  dsimp only
  split
  · exact writeJson_same toChars c _ _
  · split
    · exact ⟨rfl, rfl⟩
    · split <;> exact ⟨rfl, rfl⟩

theorem receiveOther_same (c : Connection) (name m : Bytes) :
    SameLines c (receiveOther toChars c name m).2 := by
  rw [receiveOther]
  dsimp only
  split
  · exact writeJson_same toChars c _ _
  · split <;> exact ⟨rfl, rfl⟩

/-- Of the branches of a test only the one that is taken matters. -/
theorem test_ensures {P : Connection → Prop} {m : Bytes} {parms : Patterns}
    {matched : Writes → Result × Connection} {otherwise : Result × Connection} (self : P c)
    (yes : ∀ writes, matchBuffer m parms = .ok (true, writes) → P (matched writes).2)
    (no : P otherwise.2) : P (test c m parms matched otherwise).2 := by
  rw [test]
  split
  case h_1 writes passed => exact yes writes passed
  case h_2 => exact no
  case h_3 => exact self

def readPattern : Patterns := socketPattern "read_complete" (.last (.extract .string 0))

theorem receive_same (c : Connection) (name m : Bytes)
    (other : ∀ writes, matchBuffer m readPattern ≠ .ok (true, writes)) :
    SameLines c (receive toChars fromChars s c name m).2 := by
  have unchanged : SameLines c c := ⟨rfl, rfl⟩
  rw [receive]
  refine test_ensures unchanged ?_ ?_
  · intro writes _
    split
    · exact receiveDispatch_same toChars fromChars s c _
    · exact unchanged
  have behind : ∀ {matched : Writes → Result × Connection} {otherwise : Result × Connection},
      SameLines c otherwise.2 → SameLines c (test c m readPattern matched otherwise).2 := by
    intro matched otherwise rest
    rw [test]
    split
    case h_1 run => exact absurd run (other _)
    case h_2 => exact rest
    case h_3 => exact unchanged
  refine behind ?_
  refine test_ensures unchanged ?_ ?_
  · intro writes _
    split <;> exact unchanged
  refine test_ensures unchanged (fun _ _ => shutdown_same c _ _) ?_
  refine test_ensures unchanged ?_ ?_
  · intro writes _
    split
    · exact shutdown_same c _ _
    · exact unchanged
  refine test_ensures unchanged ?_ ?_
  · intro writes _
    split
    · exact shutdown_same c _ _
    · exact unchanged
  refine test_ensures unchanged ?_ ?_
  · intro writes _
    split
    · exact (takeCall_same c _).trans (writeJson_same toChars _ _ _)
    · exact unchanged
  refine test_ensures unchanged ?_ ?_
  · intro writes _
    split
    · exact (takeCall_same c _).trans (writeJson_same toChars _ _ _)
    · exact unchanged
  refine test_ensures unchanged ?_ ?_
  · intro writes _
    split
    · exact receiveError_same toChars c _ _
    · exact unchanged
  refine test_ensures unchanged ?_ (receiveOther_same toChars c name m)
  intro writes _
  split
  · exact receiveTap_same toChars c _ _ _ _
  · exact unchanged

/-- What the socket of the connection has read. -/
def readMessage (chunk : Bytes) : Bytes :=
  array [.string (text "socket"), .string tag, .string (text "read_complete"), .string chunk]

theorem receive_read (c : Connection) (name chunk : Bytes) (sized : chunk.length < 2 ^ 63) :
    receive toChars fromChars s c name (readMessage chunk) = receiveRead c chunk := by
  let items := [Value.string (text "socket"), .string tag, .string (text "read_complete"),
    .string chunk]
  have fits : ∀ v ∈ items, v.Sized (2 ^ 63) := by
    simp only [items, List.forall_mem_cons, Value.Sized]
    exact ⟨by decide, by decide, by decide, sized, by simp⟩
  have few : items.length < 2 ^ 63 := by
    simp only [items, List.length_cons, List.length_nil]
    decide
  obtain ⟨ws, first⟩ : ∃ ws, matchBuffer (readMessage chunk)
      (.cons (.string (text "dispatch")) (.last (.extract .string 0))) = .ok (false, ws) := by
    apply matchBuffer_of_not_matches rfl few fits
    simp [items, Patterns.Matches, isMore]
  have found : matchBuffer (readMessage chunk) (socketPattern "read_complete"
      (.last (.extract .string 0))) = .ok (true, [(0, .string chunk)]) := by
    apply matchBuffer_of_matches rfl few fits
    simp [items, socketPattern, Patterns.Matches, Pattern.Matches, Value.string?, isMore,
      Extractor.bind?]
  rw [receive, test, first]
  dsimp only
  rw [test, found]

end Frame

section Stream
variable (toChars : Float → Bytes) (fromChars : Bytes → Option Float)

/-- A message for the connection: what was read, or any other. -/
inductive Arrival where
  | read (chunk : Bytes)
  | other (m : Bytes)

namespace Arrival

def message : Arrival → Bytes
  | read chunk => readMessage chunk
  | other m => m

/-- Reads are not empty and can be addressed. -/
def Admissible : Arrival → Prop
  | read chunk => chunk ≠ [] ∧ chunk.length < 2 ^ 63
  | other m => ∀ writes, matchBuffer m readPattern ≠ .ok (true, writes)

def data : Arrival → Bytes
  | read chunk => chunk
  | other _ => []

end Arrival

/-- The connection receives a message and goes on. -/
def receives (c : Connection) (a : Surroundings toChars × Bytes × Arrival) : Option Connection :=
  match receive toChars fromChars a.1 c a.2.1 a.2.2.message with
  | (.ok, c') => some c'
  | _ => none

/-- The bytes of the reads. -/
def stream (arrivals : List (Surroundings toChars × Bytes × Arrival)) : Bytes :=
  arrivals.flatMap fun a => a.2.2.data

variable {toChars}

theorem receives_read (c : Connection) (s : Surroundings toChars) (name chunk : Bytes)
    (admissible : (Arrival.read chunk).Admissible) :
    ∃ lines behind, (c.prevBuf ++ chunk).splitOn newline = lines ++ [behind] ∧
      receives toChars fromChars c (s, name, .read chunk) = some { c with
        mailbox := c.mailbox ++ lines.map fun line => .other (dispatchMsg line)
        prevBuf := behind } := by
  refine ⟨_, _, lineLoop_splits _ _ (Nat.le_refl _), ?_⟩
  rw [receives, Arrival.message, receive_read toChars fromChars s c name chunk admissible.2,
    receiveRead, if_neg admissible.1]

variable {fromChars}

/-- One message: the text of which the connection has dispatched the lines grows by
what was read. -/
theorem receives_lines {c c' : Connection} {a : Surroundings toChars × Bytes × Arrival}
    (admissible : a.2.2.Admissible) {text : Bytes} {lines : List Bytes}
    (split : text.splitOn newline = lines ++ [c.prevBuf])
    (next : receives toChars fromChars c a = some c') :
    ∃ more, (text ++ a.2.2.data).splitOn newline = lines ++ more ++ [c'.prevBuf] ∧
      c'.mailbox = c.mailbox ++ more.map fun line => .other (dispatchMsg line) := by
  obtain ⟨s, name, arrival⟩ := a
  cases arrival with
  | read chunk =>
      obtain ⟨more, behind, cut, eq⟩ := receives_read fromChars c s name chunk
        admissible
      rw [eq] at next
      cases next
      refine ⟨more, ?_, rfl⟩
      rw [Arrival.data, splitOn_append chunk split, cut, List.append_assoc]
  | other m =>
      have same := receive_same toChars fromChars s c name m admissible
      rw [receives, Arrival.message] at next
      split at next
      case h_1 d run =>
        cases next
        rw [run] at same
        refine ⟨[], ?_, ?_⟩
        · rw [Arrival.data, List.append_nil, List.append_nil, split, same.1]
        · rw [same.2, List.map_nil, List.append_nil]
      case h_2 => cases next

theorem run_lines {c c' : Connection} {arrivals : List (Surroundings toChars × Bytes × Arrival)}
    (admissible : ∀ a ∈ arrivals, a.2.2.Admissible) {text : Bytes} {lines : List Bytes}
    (split : text.splitOn newline = lines ++ [c.prevBuf])
    (h : Transition.run (receives toChars fromChars) c arrivals = some c') :
    ∃ more, (text ++ stream toChars arrivals).splitOn newline = lines ++ more ++ [c'.prevBuf] ∧
      c'.mailbox = c.mailbox ++ more.map fun line => .other (dispatchMsg line) := by
  induction arrivals generalizing c text lines with
  | nil =>
      cases h
      exact ⟨[], by simpa [stream] using split, by simp⟩
  | cons a arrivals ih =>
      obtain ⟨d, first, rest⟩ := Transition.run_cons h
      obtain ⟨more, cut, sent⟩ := receives_lines (admissible a List.mem_cons_self) split first
      obtain ⟨later, cut', sent'⟩ := ih (fun b hb => admissible b (List.mem_cons_of_mem a hb))
        cut rest
      refine ⟨more ++ later, ?_, ?_⟩
      · rw [stream, List.flatMap_cons, ← List.append_assoc, ← stream, cut']
        simp only [List.append_assoc]
      · rw [sent', sent, List.map_append, List.append_assoc]

theorem run_reads (c : Connection) {arrivals : List (Surroundings toChars × Bytes × Arrival)}
    (admissible : ∀ a ∈ arrivals, a.2.2.Admissible)
    (reads : ∀ a ∈ arrivals, ∃ chunk, a.2.2 = .read chunk) :
    (Transition.run (receives toChars fromChars) c arrivals).isSome := by
  induction arrivals generalizing c with
  | nil => rfl
  | cons a arrivals ih =>
      obtain ⟨s, name, arrival⟩ := a
      obtain ⟨chunk, read⟩ := reads _ List.mem_cons_self
      dsimp only at read
      subst read
      obtain ⟨more, behind, -, eq⟩ := receives_read fromChars c s name chunk
        (admissible _ List.mem_cons_self)
      rw [Transition.run, eq, Option.bind_some]
      exact ih _ (fun b hb => admissible b (List.mem_cons_of_mem _ hb))
        (fun b hb => reads b (List.mem_cons_of_mem _ hb))

/-- However the stream is cut into reads and whatever else the connection receives
between them: as long as it goes on, it has sent itself the complete lines of what it
has read, in order, and keeps what is behind the last newline. The reads alone never
end it. -/
theorem lines_independent_of_chunking (c : Connection) (fresh : c.prevBuf = [])
    (arrivals : List (Surroundings toChars × Bytes × Arrival))
    (admissible : ∀ a ∈ arrivals, a.2.2.Admissible) :
    (∀ c', Transition.run (receives toChars fromChars) c arrivals = some c' →
      ∃ lines, (stream toChars arrivals).splitOn newline = lines ++ [c'.prevBuf] ∧
        c'.mailbox = c.mailbox ++ lines.map fun line => .other (dispatchMsg line)) ∧
    ((∀ a ∈ arrivals, ∃ chunk, a.2.2 = .read chunk) →
      (Transition.run (receives toChars fromChars) c arrivals).isSome) := by
  have start : ([] : Bytes).splitOn newline = [] ++ [c.prevBuf] := by
    rw [fresh, List.splitOn_nil]
    rfl
  exact ⟨fun c' h => run_lines admissible start h, run_reads c admissible⟩

end Stream

/-- Nobody is registered, and every message and call goes through. -/
def quiet : Surroundings (fun _ => []) where
  ctx := .initial
  send _ _ := .queued
  start := none
  sendFits _ _ := trivial
  startFits _ h := by cases h
  namesFit := by decide

/-- Two reads with a line cut between them, and an empty line. -/
theorem lines_independent_of_chunking_cut :
    ∃ c, Transition.run (receives (fun _ => []) fun _ => none) { prompt := [] }
        [(quiet, [], .read (text "ab")), (quiet, [], .read (text "c\n\nd"))] = some c ∧
      c.mailbox = [.other (dispatchMsg (text "abc")), .other (dispatchMsg [])] ∧
      c.prevBuf = text "d" := by
  have result := @lines_independent_of_chunking (fun _ => []) (fun _ => none) { prompt := [] } rfl
    [(quiet, [], .read (text "ab")), (quiet, [], .read (text "c\n\nd"))]
    (by simp [Arrival.Admissible, text])
  obtain ⟨c, run⟩ := Option.isSome_iff_exists.mp (result.2 (by simp))
  obtain ⟨lines, split, sent⟩ := result.1 c run
  have cut : (text "abc\n\nd").splitOn newline = [text "abc", []] ++ [text "d"] :=
    (lineLoop_splits 6 _ (by decide)).trans (by decide)
  obtain ⟨rfl, rest⟩ := List.append_inj' (split.symm.trans cut) rfl
  exact ⟨c, run, sent, List.singleton_inj.mp rest⟩

end Thespian.Console
