import Thespian.Cbor.Iterate
import Thespian.Cbor.MatchSemantics
import Thespian.Cbor.ToJson

/-!
The receiver of a hub and the messages its interface sends. The receiver is a chain
of tests; a message that passes none of them, or the test for listen only, is
unexpected. The pop from the queue of filters takes a lock of its own, so the
receiver stops in front of it here.
-/

namespace Thespian.Hub
open Cbor Decoding

/-- `hub::filter`, which may be empty. -/
abbrev Filter := Option (Bytes → Except DomainError Bool)

inductive Result where
  | ok
  /-- `subscribers_.emplace_back(from, f)` and ok -/
  | subscribe (f : Filter)
  /-- `subscribers_.emplace_back(from, q_->pop())` and ok -/
  | pop
  | exit (reason : Bytes)
  | throws (e : IterationError)

/-- What a call of the receiver sends and starts, and how it ends. -/
structure Reception (α : Type) where
  sent : List (α × Bytes) := []
  listened : List Bytes := []
  result : Result

section Receive
variable {α : Type}

/-- The loop over the subscribers: what was sent, and what a filter has thrown. -/
def sendAll (msg : Bytes) : List (α × Filter) → List (α × Bytes) × Option DomainError
  | [] => ([], none)
  | (s, none) :: subscribers =>
      let (sent, thrown) := sendAll msg subscribers
      ((s, msg) :: sent, thrown)
  | (s, some f) :: subscribers =>
      match f msg with
      | .error e => ([], some e)
      | .ok accepted =>
          let (sent, thrown) := sendAll msg subscribers
          (if accepted then (s, msg) :: sent else sent, thrown)

def broadcast (subscribers : List (α × Filter)) (msg : Bytes) : Reception α :=
  let (sent, thrown) := sendAll msg subscribers
  match thrown with
  | none => { sent, result := .ok }
  | some e => { sent, result := .throws (.domain e) }

/-- The strings that a range-for over the range inserts into the set. -/
def rangeStrings (r : Bytes) : Except IterationError (List Bytes) := do
  let accessors ← rangeFor r
  accessors.mapM accessorString

/-- The filter for the messages with one of the tags. -/
def tagFilter (msgs : List Bytes) : Filter := some fun m => do
  let (matched, writes) ← matchBuffer m (.cons (.extract .string 0) (.last (.type .more)))
  return matched && writes.any fun w => match w.2 with
    | .string tag => tag ∈ msgs
    | _ => false

/-- The range an extractor has written. -/
def writtenRange (writes : Writes) : Bytes :=
  match writes with
  | [(_, .range r)] => r
  | _ => []

def writtenString (writes : Writes) : Bytes :=
  match writes with
  | [(_, .string s)] => s
  | _ => []

section Chain
variable (toChars : Float → Bytes)

def unexpected (msg : Bytes) : Result :=
  match toJson toChars msg with
  | .ok json => .exit (text "UNEXPECTED_MESSAGE:" ++ json)
  | .error e => .throws (.domain e)

/-- Go on with the branch that fits the outcome of a test, or throw. -/
def test (msg : Bytes) (parms : Patterns) (matched : Writes → Reception α)
    (otherwise : Reception α) : Reception α :=
  match matchBuffer msg parms with
  | .ok (true, writes) => matched writes
  | .ok (false, _) => otherwise
  | .error e => { result := .throws (.domain e) }

def receiveShutdown (msg : Bytes) : Reception α :=
  test msg (.last (.string (text "shutdown"))) (fun _ => { result := .exit (text "shutdown") })
    { result := unexpected toChars msg }

/-- There is no return behind the call of listen. -/
def receiveListen (msg : Bytes) : Reception α :=
  test msg (.cons (.string (text "listen")) (.last (.extract .string 0)))
    (fun writes => { receiveShutdown toChars msg with listened := [writtenString writes] })
    (receiveShutdown toChars msg)

def subscribeMessages (r : Bytes) : Reception α :=
  match rangeStrings r with
  | .ok msgs => { result := .subscribe (tagFilter msgs) }
  | .error e => { result := .throws e }

/-- `hub_impl::receive` -/
def receive (subscribers : List (α × Filter)) (msg : Bytes) : Reception α :=
  test msg (.cons (.string (text "broadcast")) (.last (.type .array)))
    (fun _ => broadcast subscribers (msg.drop 11)) <|
  test msg (.last (.string (text "subscribe"))) (fun _ => { result := .subscribe none }) <|
  test msg (.last (.string (text "subscribe_filtered"))) (fun _ => { result := .pop }) <|
  test msg (.cons (.string (text "subscribe_messages")) (.last (.extract .range 0)))
    (fun writes => subscribeMessages (writtenRange writes))
    (receiveListen toChars msg)

end Chain

end Receive

/-- The arguments of `broadcast`. -/
structure Parms where
  vs : List Value
  sized : (Value.array vs).Sized (2 ^ 63)

/-- A text that can be addressed. -/
structure Descriptor where
  text : Bytes
  sized : text.length < 2 ^ 63

/-- The calls of the interface. A filter that is given decides on every array. -/
inductive Call where
  | subscribe
  | subscribeFiltered (f : Option (Bytes → Bool))
  | broadcast (parms : Parms)
  | listen (desc : Descriptor)
  | shutdown

namespace Call

/-- The message of a call: the array of the arguments is pushed behind the tag. -/
def message : Call → Bytes
  | subscribe => array [.string (text "subscribe")]
  | subscribeFiltered _ => array [.string (text "subscribe_filtered")]
  | broadcast parms => arrayHeader 2 ++ pushString (text "broadcast") ++ array parms.vs
  | listen desc => array [.string (text "listen"), .string desc.text]
  | shutdown => array [.string (text "shutdown")]

/-- The elements of the message. Without arguments the array is null. -/
def elements : Call → List Value
  | subscribe => [.string (text "subscribe")]
  | subscribeFiltered _ => [.string (text "subscribe_filtered")]
  | broadcast ⟨[], _⟩ => [.string (text "broadcast"), .null]
  | broadcast parms => [.string (text "broadcast"), .array parms.vs]
  | listen desc => [.string (text "listen"), .string desc.text]
  | shutdown => [.string (text "shutdown")]

theorem message_eq (c : Call) : c.message = array c.elements := by
  cases c with
  | subscribe | subscribeFiltered _ | listen _ | shutdown => rfl
  | broadcast parms =>
      obtain ⟨vs, sized⟩ := parms
      cases vs with
      | nil => rfl
      | cons v vs => simp [message, elements, array, encodeItems, encode]

theorem elements_sized (c : Call) :
    c.elements.length < 2 ^ 63 ∧ ∀ v ∈ c.elements, v.Sized (2 ^ 63) := by
  have short (s : String) (h : s.toList.length < 2 ^ 63) : (text s).length < 2 ^ 63 := by
    rw [text, List.length_map]
    exact h
  cases c with
  | subscribe | subscribeFiltered _ | shutdown =>
      refine ⟨by simp [elements], ?_⟩
      simp only [elements, List.mem_singleton, forall_eq]
      exact short _ (by decide)
  | broadcast parms =>
      obtain ⟨vs, sized⟩ := parms
      cases vs with
      | nil =>
          refine ⟨by simp [elements], ?_⟩
          simp only [elements, List.mem_cons, List.not_mem_nil, or_false, forall_eq_or_imp,
            forall_eq]
          exact ⟨short _ (by decide), trivial⟩
      | cons v vs =>
          refine ⟨by simp [elements], ?_⟩
          simp only [elements, List.mem_cons, List.not_mem_nil, or_false, forall_eq_or_imp,
            forall_eq]
          exact ⟨short _ (by decide), sized⟩
  | listen desc =>
      refine ⟨by simp [elements], ?_⟩
      simp only [elements, List.mem_cons, List.not_mem_nil, or_false, forall_eq_or_imp, forall_eq]
      exact ⟨short _ (by decide), desc.sized⟩

end Call

section Tests
variable {α : Type} {msg : Bytes} {parms : Patterns} {matched : Writes → Reception α}
  {otherwise : Reception α}

theorem test_matches (c : Call) (flat : parms.isFlat = true) (h : parms.Matches c.elements) :
    test c.message parms matched otherwise = matched (parms.bindings c.elements) := by
  obtain ⟨count, sized⟩ := c.elements_sized
  rw [test, c.message_eq, matchBuffer_of_matches flat count sized h]

theorem test_not_matches (c : Call) (flat : parms.isFlat = true)
    (h : ¬ parms.Matches c.elements) :
    test c.message parms matched otherwise = otherwise := by
  obtain ⟨count, sized⟩ := c.elements_sized
  obtain ⟨writes, refused⟩ := matchBuffer_of_not_matches flat count sized h
  rw [test, c.message_eq, refused]

end Tests

section Spec
variable {α : Type} (toChars : Float → Bytes) (subscribers : List (α × Filter))

theorem test_tag_differs {lit tag : Bytes} {rest : List Value} {parms : Patterns}
    {matched : Writes → Reception α} {otherwise : Reception α} (c : Call)
    (eq : c.elements = .string tag :: rest) (differs : tag ≠ lit)
    (h : parms = .last (.string lit) ∨
      ∃ p, Pattern.isFlat p = true ∧ parms = .cons (.string lit) (.last p)) :
    test c.message parms matched otherwise = otherwise := by
  rcases h with rfl | ⟨p, flat, rfl⟩
  · refine test_not_matches c rfl ?_
    rw [eq]
    cases rest with
    | nil => simp [Patterns.Matches, Pattern.Matches, Value.string?, isMore, differs]
    | cons v rest => simp [Patterns.Matches, isMore]
  · have bothFlat : (Patterns.cons (.string lit) (.last p)).isFlat = true := by
      rw [Patterns.isFlat, Patterns.isFlat, flat]
      rfl
    refine test_not_matches c bothFlat ?_
    rw [eq]
    simp [Patterns.Matches, Pattern.Matches, Value.string?, differs]

theorem receive_subscribe :
    receive toChars subscribers Call.subscribe.message = { result := .subscribe none } := by
  have tag : Call.subscribe.elements = [.string (text "subscribe")] := rfl
  rw [receive, test_tag_differs .subscribe tag (by decide) (.inr ⟨_, rfl, rfl⟩)]
  refine test_matches .subscribe rfl ?_
  simp [tag, Patterns.Matches, Pattern.Matches, Value.string?]

theorem receive_subscribeFiltered (f : Option (Bytes → Bool)) :
    receive toChars subscribers (Call.subscribeFiltered f).message = { result := .pop } := by
  have tag : (Call.subscribeFiltered f).elements = [.string (text "subscribe_filtered")] := rfl
  rw [receive, test_tag_differs _ tag (by decide) (.inr ⟨_, rfl, rfl⟩),
    test_tag_differs _ tag (by decide) (.inl rfl)]
  refine test_matches (.subscribeFiltered f) rfl ?_
  simp [tag, Patterns.Matches, Pattern.Matches, Value.string?]

/-- What is cut off is the header of the message and the tag. -/
theorem drop_broadcast (parms : Parms) :
    (Call.broadcast parms).message.drop 11 = array parms.vs := by
  have cut : (arrayHeader 2 ++ pushString (text "broadcast")).length = 11 := by decide
  rw [Call.message, List.drop_append_of_le_length (by omega), ← cut, List.drop_length]
  rfl

theorem receive_broadcast (parms : Parms) (some_args : parms.vs ≠ []) :
    receive toChars subscribers (Call.broadcast parms).message =
      broadcast subscribers (encode (.array parms.vs)) := by
  obtain ⟨vs, sized⟩ := parms
  cases vs with
  | nil => exact absurd rfl some_args
  | cons v vs =>
      have payload := drop_broadcast ⟨v :: vs, sized⟩
      rw [receive, test_matches _ rfl, payload]
      · rfl
      · simp [Call.elements, Patterns.Matches, Pattern.Matches, Value.string?, Value.type, isMore]

theorem receive_broadcast_empty (parms : Parms) (no_args : parms.vs = []) :
    receive toChars subscribers (Call.broadcast parms).message =
      { result := unexpected toChars (Call.broadcast parms).message } := by
  obtain ⟨vs, sized⟩ := parms
  subst no_args
  have tag : (Call.broadcast ⟨[], sized⟩).elements = [.string (text "broadcast"), .null] := rfl
  have notArray : ¬ (Patterns.cons (.string (text "broadcast")) (.last (.type .array))).Matches
      (Call.broadcast ⟨[], sized⟩).elements := by
    simp [tag, Patterns.Matches, Pattern.Matches, Value.string?, Value.type, isMore]
  rw [receive, test_not_matches _ rfl notArray, test_tag_differs _ tag (by decide) (.inl rfl),
    test_tag_differs _ tag (by decide) (.inl rfl),
    test_tag_differs _ tag (by decide) (.inr ⟨_, rfl, rfl⟩), receiveListen,
    test_tag_differs _ tag (by decide) (.inr ⟨_, rfl, rfl⟩), receiveShutdown,
    test_tag_differs _ tag (by decide) (.inl rfl)]

theorem receive_listen (desc : Descriptor) :
    receive toChars subscribers (Call.listen desc).message =
      { listened := [desc.text], result := unexpected toChars (Call.listen desc).message } := by
  have tag : (Call.listen desc).elements = [.string (text "listen"), .string desc.text] := rfl
  rw [receive, test_tag_differs _ tag (by decide) (.inr ⟨_, rfl, rfl⟩),
    test_tag_differs _ tag (by decide) (.inl rfl), test_tag_differs _ tag (by decide) (.inl rfl),
    test_tag_differs _ tag (by decide) (.inr ⟨_, rfl, rfl⟩), receiveListen, receiveShutdown,
    test_tag_differs _ tag (by decide) (.inl rfl), test_matches _ rfl, tag]
  · rfl
  · simp [tag, Patterns.Matches, Pattern.Matches, Value.string?, Extractor.bind?]

theorem receive_shutdown :
    receive toChars subscribers Call.shutdown.message = { result := .exit (text "shutdown") } := by
  have tag : Call.shutdown.elements = [.string (text "shutdown")] := rfl
  rw [receive, test_tag_differs _ tag (by decide) (.inr ⟨_, rfl, rfl⟩),
    test_tag_differs _ tag (by decide) (.inl rfl), test_tag_differs _ tag (by decide) (.inl rfl),
    test_tag_differs _ tag (by decide) (.inr ⟨_, rfl, rfl⟩), receiveListen,
    test_tag_differs _ tag (by decide) (.inr ⟨_, rfl, rfl⟩), receiveShutdown]
  refine test_matches .shutdown rfl ?_
  simp [tag, Patterns.Matches, Pattern.Matches, Value.string?]

end Spec

end Thespian.Hub
