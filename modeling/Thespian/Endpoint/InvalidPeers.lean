import Thespian.Cbor.WellFormed
import Thespian.Endpoint.Connection

/-!
What the endpoint connection makes of a peer that does not keep to the framing. An item
that is no message is reported to the owner, the connection is closed, and the item is
sent to the owner all the same. Bytes that no item begins with make the decoder throw,
as the beginning of an item does that is still to come: nothing is reported, and the
connection waits for more.
-/

namespace Thespian.Endpoint
open Decoding Decoding.Decoder Cbor

/-- `owner.exit("framing_error")` -/
def framingError : Bytes := array [.string (text "exit"), .string (text "framing_error")]

/-- An item as the loop takes it off the buffer, and whether it is a message. -/
def framed : Reader (Bool × Bytes) := fun s =>
  match extractRange s with
  | .ok (msg, r) => .ok ((msg.isSome, s.take (s.length - r.length)), r)
  | .error e => .error e

/-- What the owner is sent for an item. -/
def reported : Bool × Bytes → List Bytes
  | (true, item) => [item]
  | (false, item) => [framingError, item]

section Items
variable {s r : Bytes} {msg : Option Bytes}

theorem framed_of_ok (run : extractRange s = .ok (msg, r)) :
    framed s = .ok ((msg.isSome, s.take (s.length - r.length)), r) := by
  rw [framed, run]

theorem framed_of_error {e : DomainError} (run : extractRange s = .error e) :
    framed s = .error e := by
  rw [framed, run]

theorem advances_framed : Advances framed := by
  intro s a r h
  rw [framed] at h
  split at h
  case h_1 run =>
    cases h
    exact advances_extractRange _ _ _ run
  case h_2 => cases h

theorem stable_framed : Stable framed := by
  intro s a r h t
  rw [framed] at h
  split at h
  case h_1 msg u run =>
    cases h
    have shorter := advances_extractRange _ _ _ run
    rw [framed, stable_extractRange _ _ _ run t]
    dsimp only
    rw [List.length_append, List.length_append, Nat.add_sub_add_right,
      List.take_append_of_le_length (by omega)]
  case h_2 => cases h

theorem reads_framed {x : Bytes} (h : WellFormed x) (sized : x.length < 2 ^ 64) :
    Reads framed x (decide (IsMessage x), x) := by
  intro r
  have item : (x ++ r).take ((x ++ r).length - r.length) = x := by
    rw [List.length_append, Nat.add_sub_cancel, List.take_left]
  rw [framed_of_ok (h.extractRange sized r), item]
  by_cases message : IsMessage x <;> simp [message]

end Items

theorem sentToOwner_append (as bs : List Action) :
    sentToOwner (as ++ bs) = sentToOwner as ++ sentToOwner bs := List.filterMap_append ..

/-- One round of the loop. -/
theorem readLoop_round (sends : Nat → Bool) (fuel i : Nat) (c : Connection) {msg : Option Bytes}
    {rest : Bytes} (run : extractRange c.readBuf = .ok (msg, rest)) :
    ∃ (c' : Connection) (actions : List Action), c'.readBuf = rest ∧ c'.tag = c.tag ∧
      (c.closeOnWriteComplete = true ∨ msg = none → c'.closeOnWriteComplete = true) ∧
      sentToOwner actions =
        reported (msg.isSome, c.readBuf.take (c.readBuf.length - rest.length)) ∧
      c.readLoop sends (fuel + 1) i = ((c'.readLoop sends fuel (i + 1)).1,
        actions ++ (c'.readLoop sends fuel (i + 1)).2) := by
  have nonempty : c.readBuf ≠ [] := by
    intro empty
    rw [empty] at run
    cases run
  rw [Connection.readLoop, if_neg nonempty, run]
  obtain ⟨tag, buf, pending, closing⟩ := c
  cases msg with
  | none =>
      cases sends i <;> cases pending <;>
        · refine ⟨_, _, ?_, ?_, ?_, ?_, rfl⟩
          · rfl
          · rfl
          · exact fun _ => rfl
          · rfl
  | some msg =>
      cases sends i with
      | true =>
          refine ⟨_, _, ?_, ?_, ?_, ?_, rfl⟩
          · rfl
          · rfl
          · exact fun kept => kept.resolve_right (by simp)
          · rfl
      | false =>
          cases pending <;>
            · refine ⟨_, _, ?_, ?_, ?_, ?_, rfl⟩
              · rfl
              · rfl
              · exact fun _ => rfl
              · rfl

/-- The loop sends the owner what is reported for the items it takes off, whatever
becomes of its sends; one that is no message closes the connection. -/
theorem readLoop_reports (sends : Nat → Bool) (fuel i : Nat) (c : Connection)
    (enough : c.readBuf.length ≤ fuel) :
    (c.readLoop sends fuel i).1.readBuf = (drain framed c.readBuf).2 ∧
      (c.readLoop sends fuel i).1.tag = c.tag ∧
      sentToOwner (c.readLoop sends fuel i).2 = (drain framed c.readBuf).1.flatMap reported ∧
      ((c.closeOnWriteComplete = true ∨ ∃ item, (false, item) ∈ (drain framed c.readBuf).1) →
        (c.readLoop sends fuel i).1.closeOnWriteComplete = true) := by
  induction fuel generalizing i c with
  | zero =>
      have empty : c.readBuf = [] := List.length_eq_zero_iff.mp (Nat.le_zero.mp enough)
      rw [Connection.readLoop, empty, drain_of_error (framed_of_error extractRange_nil)]
      exact ⟨rfl, rfl, rfl, by simp⟩
  | succ fuel ih =>
      cases run : extractRange c.readBuf with
      | error e =>
          have stops : c.readLoop sends (fuel + 1) i = (c, []) := by
            rw [Connection.readLoop, run]
            split <;> rfl
          rw [stops, drain_of_error (framed_of_error run)]
          exact ⟨rfl, rfl, rfl, by simp⟩
      | ok p =>
          obtain ⟨msg, rest⟩ := p
          have shorter := advances_extractRange _ msg rest run
          obtain ⟨c', actions, buf, tag, closing, sent, eq⟩ := readLoop_round sends fuel i c run
          obtain ⟨buf', tag', sent', closing'⟩ := ih (i + 1) c' (by rw [buf]; omega)
          rw [eq, drain_of_ok advances_framed (framed_of_ok run), ← buf]
          refine ⟨buf', tag'.trans tag, ?_, ?_⟩
          · rw [sentToOwner_append, sent, sent', List.flatMap_cons, buf]
          · rintro (before | ⟨item, member⟩)
            · exact closing' (.inl (closing (.inl before)))
            · rcases List.mem_cons.mp member with first | later
              · have none : msg.isSome = false := (congrArg Prod.fst first).symm
                exact closing' (.inl (closing (.inr (by simpa using none))))
              · exact closing' (.inr ⟨item, later⟩)

/-- The receiver is given one read after the other; with each the answers to the sends
of its loop. -/
def feed (c : Connection) : List ((Nat → Bool) × Bytes) →
    Except DomainError (Connection × List Action)
  | [] => .ok (c, [])
  | (sends, chunk) :: reads => do
      let (c, actions, _) ← c.receive sends (readCompleteMessage c.tag chunk)
      let (c, more) ← feed c reads
      return (c, actions ++ more)

theorem feed_reports (c : Connection) (tagged : c.tag.length < 2 ^ 63)
    (reads : List ((Nat → Bool) × Bytes))
    (admissible : ∀ read ∈ reads, read.2 ≠ [] ∧ read.2.length < 2 ^ 63) {s : Bytes} {e : DomainError}
    (incomplete : framed c.readBuf = .error e)
    (arrived : c.readBuf ++ (reads.map Prod.snd).flatten = s) :
    ∃ c' actions, feed c reads = .ok (c', actions) ∧ c'.readBuf = (drain framed s).2 ∧
      sentToOwner actions = (drain framed s).1.flatMap reported ∧
      ((c.closeOnWriteComplete = true ∨ ∃ item, (false, item) ∈ (drain framed s).1) →
        c'.closeOnWriteComplete = true) := by
  induction reads generalizing c s e with
  | nil =>
      obtain rfl : c.readBuf = s := by simpa using arrived
      rw [drain_of_error incomplete]
      exact ⟨c, [], rfl, rfl, rfl, by simp⟩
  | cons read reads ih =>
      obtain ⟨sends, chunk⟩ := read
      obtain ⟨some_, sized⟩ := admissible (sends, chunk) List.mem_cons_self
      dsimp only at some_ sized
      have received := receive_readComplete sends c chunk tagged sized
      rw [Connection.readComplete, if_neg some_] at received
      dsimp only at received
      obtain ⟨d, d_eq⟩ : ∃ d : Connection, d = { c with readBuf := c.readBuf ++ chunk } := ⟨_, rfl⟩
      have d_buf : c.readBuf ++ chunk = d.readBuf := by rw [d_eq]
      have d_tag : c.tag = d.tag := by rw [d_eq]
      have d_closing : c.closeOnWriteComplete = d.closeOnWriteComplete := by rw [d_eq]
      obtain ⟨buf, tag, sent, closing⟩ :=
        readLoop_reports sends d.readBuf.length 0 d (Nat.le_refl _)
      rw [← d_eq, d_buf] at received
      generalize d.readLoop sends d.readBuf.length 0 = loop at received buf tag sent closing
      obtain ⟨stops, stopped⟩ := drain_stops advances_framed d.readBuf
      rw [← buf] at stopped
      obtain ⟨c', more, rest, buf', sent', closing'⟩ := ih loop.1 (by rw [tag, ← d_tag]; exact tagged)
        (fun r hr => admissible r (List.mem_cons_of_mem _ hr)) stopped rfl
      have whole : d.readBuf ++ (reads.map Prod.snd).flatten = s := by
        rw [← arrived, ← d_buf, List.map_cons, List.flatten_cons, List.append_assoc]
      have items := drain_append stable_framed advances_framed d.readBuf (reads.map Prod.snd).flatten
      rw [whole, ← buf] at items
      refine ⟨c', loop.2 ++ [.socketRead] ++ more, ?_, ?_, ?_, ?_⟩
      · rw [feed, received]
        simp only [bind, Except.bind, rest]
        rfl
      · rw [buf', items]
      · have reading : sentToOwner [Action.socketRead] = [] := rfl
        rw [sentToOwner_append, sentToOwner_append, sent, sent', items, List.flatMap_append, reading,
          List.append_nil]
      · rw [items]
        rintro (before | ⟨item, member⟩)
        · exact closing' (.inl (closing (.inl (d_closing ▸ before))))
        · rcases List.mem_append.mp member with early | late
          · exact closing' (.inl (closing (.inr ⟨item, early⟩)))
          · exact closing' (.inr ⟨item, late⟩)

/-- The items of a stream in front of what begins at a message boundary. -/
theorem drain_messages (before : List Bytes)
    (messages : ∀ x ∈ before, WellFormed x ∧ IsMessage x) (bad : Bytes)
    (sized : (before.flatten ++ bad).length < 2 ^ 64) :
    drain framed (before.flatten ++ bad) =
      (before.map (fun x => (true, x)) ++ (drain framed bad).1, (drain framed bad).2) := by
  induction before with
  | nil => rfl
  | cons x before ih =>
      obtain ⟨wellFormed, message⟩ := messages x List.mem_cons_self
      rw [List.flatten_cons, List.append_assoc] at sized ⊢
      have small : x.length < 2 ^ 64 := by
        rw [List.length_append] at sized
        omega
      have read := reads_framed wellFormed small (before.flatten ++ bad)
      rw [decide_eq_true message] at read
      rw [drain_of_ok advances_framed read, ih (fun y hy => messages y (List.mem_cons_of_mem x hy))
        (by rw [List.length_append] at sized; omega)]
      rfl

/-- What stands at a message boundary and must not be there: a complete item that is no
message, or bytes that no item begins with whatever follows them. -/
def Invalid (bad : Bytes) : Prop :=
  (∃ item rest, bad = item ++ rest ∧ WellFormed item ∧ ¬ IsMessage item) ∨
    ∀ more item rest, bad ++ more = item ++ rest → ¬ WellFormed item

/-- The peer is cut off behind the messages: the owner has been sent these and the
framing error and nothing else, and the connection closes. -/
def CutOff (before : List Bytes) (c : Connection) (actions : List Action) : Prop :=
  sentToOwner actions = before ++ [framingError] ∧ c.closeOnWriteComplete = true

theorem wellFormed_framingError : WellFormed framingError := by
  have word (s : String) (short : Width.direct.Fits (text s).length) :
      WellFormed (header 3 .direct (text s).length ++ text s) :=
    .string (.inr rfl) short (text s) rfl
  refine WellFormed.array (w := .direct) [header 3 .direct 4 ++ text "exit",
    header 3 .direct 13 ++ text "framing_error"] (by decide) ?_
  simp only [List.forall_mem_cons]
  exact ⟨word "exit" (by decide), word "framing_error" (by decide), by simp⟩

/-- Whatever the connection makes of bytes that no item begins with, it is not the
framing error alone: an item it would take off for a message is another. -/
theorem reported_hopeless {bad : Bytes}
    (hopeless : ∀ more item rest, bad ++ more = item ++ rest → ¬ WellFormed item) :
    (drain framed bad).1.flatMap reported ≠ [framingError] := by
  cases run : extractRange bad with
  | error e =>
      rw [drain_of_error (framed_of_error run)]
      simp
  | ok p =>
      obtain ⟨msg, rest⟩ := p
      rw [drain_of_ok advances_framed (framed_of_ok run), List.flatMap_cons]
      cases msg with
      | none => simp [reported]
      | some msg =>
          intro same
          have item := (List.cons.inj same).1
          refine hopeless [] framingError (bad.drop (bad.length - rest.length)) ?_
            wellFormed_framingError
          rw [List.append_nil, ← item, List.take_append_drop]

theorem unsupported_invalid {type : UInt8} (unsupported : Unsupported type) (rest : Bytes) :
    Invalid (type :: rest) := by
  refine .inr fun more item behind split wellFormed => ?_
  obtain ⟨first, tail, eq, supported⟩ := wellFormed.supported
  rw [eq, List.cons_append, List.cons_append] at split
  exact supported ((List.cons.inj split).1 ▸ unsupported)

theorem extractRange_unsupported {type : UInt8} (unsupported : Unsupported type) (rest : Bytes) :
    ∃ e, extractRange (type :: rest) = .error e := by
  obtain ⟨e, unread⟩ := skipValue_unsupported unsupported rest
  rw [skipValue_cons] at unread
  refine ⟨e, ?_⟩
  rw [extractRange, matchType, bind_of_ok (decodeType_cons type rest)]
  dsimp only
  rw [bind_of_error unread]

end Thespian.Endpoint
