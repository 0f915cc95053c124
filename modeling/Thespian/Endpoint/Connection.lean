import Thespian.Cbor.MatchSemantics
import Thespian.Decoding.Frames

/-!
The endpoint connection between a stream socket and its owner. What the receiver
does to the outside is recorded in order: sends to the owner and calls on the
socket. Whether a send in the read loop reaches the owner is decided outside, so
the loop takes the answers as a parameter.

The read loop distinguishes an incomplete item from a complete one only by the
exception of the decoder. It takes items off its buffer as the general receiver
does, and so inherits the independence of how the stream is cut.
-/

namespace Thespian.Endpoint
open Decoding Decoding.Decoder Cbor

structure Connection where
  tag : Bytes
  readBuf : Bytes
  writePending : Bool
  closeOnWriteComplete : Bool
deriving DecidableEq

inductive Action where
  | ownerSend (m : Bytes)
  | socketRead
  | socketWrite (buf : Bytes)
  | socketClose
deriving DecidableEq

/-- The result of a receive call: ok, or the exit message of an error. -/
inductive Outcome where
  | ok
  | exit (m : Bytes)
deriving DecidableEq

/-- `m("socket", tag, event, parms...)` -/
def socketPattern (tag event : Bytes) : List Pattern → Patterns
  | [] => .cons (.string (text "socket")) (.cons (.string tag) (.last (.string event)))
  | [p] => .cons (.string (text "socket")) (.cons (.string tag)
      (.cons (.string event) (.last p)))
  | p :: q :: _ => .cons (.string (text "socket")) (.cons (.string tag)
      (.cons (.string event) (.cons p (.last q))))

def isExitPattern : Patterns :=
  .cons (.string (text "exit")) (.cons (.type .any) (.last (.type .more)))

def boundString (ws : Writes) (var : Nat) : Bytes :=
  match ws.lookup var with
  | some (.string s) => s
  | _ => []

namespace Connection

def close (c : Connection) : Connection × List Action :=
  ({ c with closeOnWriteComplete := true }, if !c.writePending then [.socketClose] else [])

def write (c : Connection) (buf : Bytes) : Connection × List Action :=
  ({ c with writePending := true }, [.socketWrite buf])

/-- `owner.exit(reason, err_msg)` and `close()` -/
def failed (c : Connection) (reason errMsg : Bytes) : Connection × List Action :=
  let (c, closing) := c.close
  (c, .ownerSend (array [.string (text "exit"), .string reason, .string errMsg]) :: closing)

/-- The loop over the read buffer. Every round erases at least one byte, so the
length of the buffer bounds the number of rounds. -/
def readLoop (sends : Nat → Bool) : Nat → Nat → Connection → Connection × List Action
  | 0, _, c => (c, [])
  | fuel + 1, i, c =>
      if c.readBuf = [] then (c, [])
      else match extractRange c.readBuf with
        | .error _ => (c, [])
        | .ok (msg, rest) =>
            let (c, framing) :=
              if msg.isNone then
                let (c, closing) := c.close
                (c, .ownerSend (array [.string (text "exit"), .string (text "framing_error")]) ::
                  closing)
              else (c, [])
            let item := c.readBuf.take (c.readBuf.length - rest.length)
            let c := { c with readBuf := rest }
            let (c, closing) := if !sends i then c.close else (c, [])
            let (c, more) := readLoop sends fuel (i + 1) c
            (c, framing ++ [.ownerSend item] ++ closing ++ more)

def readComplete (sends : Nat → Bool) (c : Connection) (data : Bytes) :
    Connection × List Action :=
  if data = [] then c.close
  else
    let c := { c with readBuf := c.readBuf ++ data }
    let (c, actions) := readLoop sends c.readBuf.length 0 c
    (c, actions ++ [.socketRead])

def receive (sends : Nat → Bool) (c : Connection) (m : Bytes) :
    Except DomainError (Connection × List Action × Outcome) := do
  let err := Pattern.extract (.int .signedInt) 0
  let errMsg := Pattern.extract .string 1
  let (matched, ws) ← matchBuffer m (socketPattern c.tag (text "read_error") [err, errMsg])
  if matched then
    let (c, actions) := c.failed (text "read_error") (boundString ws 1)
    return (c, actions, .ok)
  let (matched, ws) ←
    matchBuffer m (socketPattern c.tag (text "read_complete") [.extract .string 0])
  if matched then
    let (c, actions) := c.readComplete sends (boundString ws 0)
    return (c, actions, .ok)
  let (matched, ws) ← matchBuffer m (socketPattern c.tag (text "write_error") [err, errMsg])
  if matched then
    let (c, actions) := c.failed (text "write_error") (boundString ws 1)
    return (c, actions, .ok)
  let (matched, _) ←
    matchBuffer m (socketPattern c.tag (text "write_complete") [.extract (.int .signedInt) 0])
  if matched then
    let c := { c with writePending := false }
    let (c, actions) := if c.closeOnWriteComplete then c.close else (c, [])
    return (c, actions, .ok)
  let (matched, _) ← matchBuffer m (socketPattern c.tag (text "closed") [])
  if matched then
    return (c, [], .exit (array [.string (text "exit"), .string (text "closed")]))
  let (matched, _) ← matchBuffer m isExitPattern
  if matched then
    let (c, writing) := c.write m
    let (c, closing) := c.close
    return (c, writing ++ closing, .ok)
  let (c, writing) := c.write m
  return (c, writing, .ok)

end Connection

/-- The message a socket posts for data it has read. -/
def readCompleteMessage (tag data : Bytes) : Bytes :=
  array [.string (text "socket"), .string tag, .string (text "read_complete"), .string data]

def sentToOwner (actions : List Action) : List Bytes :=
  actions.filterMap fun
    | .ownerSend m => some m
    | _ => none

/-- Receive a chunk while every send succeeds; what the owner is sent. -/
def receiveChunk (c : Connection) (chunk : Bytes) :
    Except DomainError (Connection × List Bytes) := do
  let (c, actions, _) ← c.receive (fun _ => true) (readCompleteMessage c.tag chunk)
  return (c, sentToOwner actions)

theorem readLoop_of_ok (sends : Nat → Bool) (fuel i : Nat) (c : Connection) {msg : Option Bytes}
    {rest : Bytes} (run : extractRange c.readBuf = .ok (msg, rest)) :
    ∃ c' before after, c'.readBuf = rest ∧
      c.readLoop sends (fuel + 1) i =
        ((c'.readLoop sends fuel (i + 1)).1,
          before ++ [.ownerSend (c.readBuf.take (c.readBuf.length - rest.length))] ++ after ++
            (c'.readLoop sends fuel (i + 1)).2) ∧
      (msg.isSome → sends i = true →
        c' = { c with readBuf := rest } ∧ before = [] ∧ after = []) := by
  have nonempty : c.readBuf ≠ [] := by
    intro empty
    rw [empty] at run
    cases run
  rw [Connection.readLoop, if_neg nonempty, run]
  cases msg with
  | none =>
      cases sends i with
      | true => exact ⟨_, _, _, rfl, rfl, by simp⟩
      | false => exact ⟨_, _, _, rfl, rfl, by simp⟩
  | some msg =>
      cases sends i with
      | true => exact ⟨{ c with readBuf := rest }, [], [], rfl, by simp, by simp⟩
      | false => exact ⟨_, [], _, rfl, rfl, by simp⟩

theorem extractRange_nil : extractRange [] = .error tooShort := rfl

/-- The loop takes off the buffer what can be taken off, whatever the types of the
items and the answers to its sends. -/
theorem readLoop_readBuf (sends : Nat → Bool) (fuel i : Nat) (c : Connection)
    (enough : c.readBuf.length ≤ fuel) :
    (c.readLoop sends fuel i).1.readBuf = (drain extractRange c.readBuf).2 := by
  induction fuel generalizing i c with
  | zero =>
      have empty : c.readBuf = [] := List.length_eq_zero_iff.mp (Nat.le_zero.mp enough)
      rw [Connection.readLoop, empty, drain_of_error extractRange_nil]
  | succ fuel ih =>
      cases run : extractRange c.readBuf with
      | error e =>
          rw [Connection.readLoop, run, drain_of_error run]
          split <;> rfl
      | ok p =>
          have shorter := advances_extractRange _ p.1 p.2 run
          obtain ⟨c', before, after, buf, eq, -⟩ := readLoop_of_ok sends fuel i c run
          rw [eq, drain_of_ok advances_extractRange run]
          dsimp only
          rw [ih (i + 1) c' (by rw [buf]; omega), buf]

/-- When the loop is left, the item at the front of the buffer is incomplete. -/
theorem readLoop_stops (sends : Nat → Bool) (fuel i : Nat) (c : Connection)
    (enough : c.readBuf.length ≤ fuel) :
    ∃ e, extractRange (c.readLoop sends fuel i).1.readBuf = .error e := by
  rw [readLoop_readBuf sends fuel i c enough]
  exact drain_stops advances_extractRange c.readBuf

theorem extractRange_item {s r m : Bytes} (h : extractRange s = .ok (some m, r)) :
    s.take (s.length - r.length) = m := by
  unfold extractRange at h
  split at h
  · split at h
    · cases h
      rfl
    · cases h
  · cases h
  · cases h

/-- Items of message types are sent as they are, and nothing else happens. -/
theorem readLoop_sends (fuel i : Nat) (c : Connection) (enough : c.readBuf.length ≤ fuel)
    (messages : List Bytes) (items : (drain extractRange c.readBuf).1 = messages.map some) :
    c.readLoop (fun _ => true) fuel i =
      ({ c with readBuf := (drain extractRange c.readBuf).2 }, messages.map .ownerSend) := by
  induction fuel generalizing i c messages with
  | zero =>
      have empty : c.readBuf = [] := List.length_eq_zero_iff.mp (Nat.le_zero.mp enough)
      rw [empty, drain_of_error extractRange_nil] at items ⊢
      have none : messages = [] := List.map_eq_nil_iff.mp items.symm
      rw [Connection.readLoop, none, ← empty]
      rfl
  | succ fuel ih =>
      cases run : extractRange c.readBuf with
      | error e =>
          rw [drain_of_error run] at items ⊢
          have none : messages = [] := List.map_eq_nil_iff.mp items.symm
          rw [Connection.readLoop, run, none]
          split <;> rfl
      | ok p =>
          obtain ⟨msg, rest⟩ := p
          have shorter := advances_extractRange _ msg rest run
          rw [drain_of_ok advances_extractRange run] at items ⊢
          cases messages with
          | nil => cases items
          | cons m messages =>
              obtain ⟨rfl, tail⟩ := List.cons.inj items
              obtain ⟨c', before, after, -, eq, plain⟩ :=
                readLoop_of_ok (fun _ => true) fuel i c run
              obtain ⟨rfl, rfl, rfl⟩ := plain rfl rfl
              have loop := ih (i + 1) { c with readBuf := rest } (by dsimp only; omega)
                messages tail
              rw [eq, loop, extractRange_item run]
              rfl

/-- The dispatch on a message of the socket's own finds the read_complete case. -/
theorem receive_readComplete (sends : Nat → Bool) (c : Connection) (data : Bytes)
    (tagged : c.tag.length < 2 ^ 63) (sized : data.length < 2 ^ 63) :
    c.receive sends (readCompleteMessage c.tag data) =
      .ok ((c.readComplete sends data).1, (c.readComplete sends data).2, .ok) := by
  have fits : ∀ v ∈ [Value.string (text "socket"), .string c.tag,
      .string (text "read_complete"), .string data], v.Sized (2 ^ 63) := by
    simp only [List.forall_mem_cons, Value.Sized]
    exact ⟨by decide, tagged, by decide, sized, by simp⟩
  have few : [Value.string (text "socket"), .string c.tag, .string (text "read_complete"),
      .string data].length < 2 ^ 63 := by
    rw [List.length_cons, List.length_cons, List.length_cons, List.length_cons, List.length_nil]
    decide
  obtain ⟨ws, other⟩ : ∃ ws, matchBuffer (readCompleteMessage c.tag data) (socketPattern c.tag
      (text "read_error") [.extract (.int .signedInt) 0, .extract .string 1]) = .ok (false, ws) := by
    apply matchBuffer_of_not_matches rfl few fits
    have differs : text "read_complete" ≠ text "read_error" := by decide
    simp [socketPattern, Patterns.Matches, Pattern.Matches, Value.string?, differs, isMore]
  have found : matchBuffer (readCompleteMessage c.tag data) (socketPattern c.tag
      (text "read_complete") [.extract .string 0]) = .ok (true, [(0, .string data)]) := by
    apply matchBuffer_of_matches rfl few fits
    simp [socketPattern, Patterns.Matches, Pattern.Matches, Value.string?, isMore,
      Extractor.bind?]
  rw [Connection.receive]
  simp only [bind, Except.bind, other, found]
  rfl

/-- The message types of the framing: what extract(range) accepts. -/
def Framable (v : Value) : Prop := v.type = .null ∨ v.type = .array ∨ v.type = .map

theorem reads_extractRange {v : Value} (sized : v.Sized (2 ^ 63)) (framable : Framable v) :
    Reads extractRange (encode v) (some (encode v)) := by
  intro r
  obtain ⟨t, run, exact⟩ := finds_extractRange v sized r
  rw [Framable] at framable
  rw [if_pos framable] at run exact
  rw [run, exact rfl]

theorem sentToOwner_sends (messages : List Bytes) :
    sentToOwner (messages.map .ownerSend ++ [.socketRead]) = messages := by
  simp [sentToOwner, List.filterMap_map]

/-- The connection delivers the complete items, and nothing but its buffer changes. -/
theorem connection_receives (c : Connection) (tagged : c.tag.length < 2 ^ 63) :
    Receives receiveChunk Connection.readBuf (fun s => s = { c with readBuf := s.readBuf })
      (fun chunk => chunk ≠ [] ∧ chunk.length < 2 ^ 63)
      (fun x m => Reads extractRange x (some m)) where
  step := by
    intro s chunk later frames inv admissible isFrame arrived _
    let items : List (Frame UInt8 (Option Bytes)) := frames.map fun f => (f.1, some f.2)
    have stream : (s.readBuf ++ chunk) ++ later = wire items := by
      rw [List.append_assoc, arrived, wire, wire, List.map_map]
      rfl
    have reads : ∀ f ∈ items, Reads extractRange f.1 f.2 := by
      intro f hf
      obtain ⟨g, hg, rfl⟩ := List.mem_map.mp hf
      exact isFrame g hg
    obtain ⟨done, rest, tail, split, drained, left, short⟩ :=
      drain_wire stable_extractRange advances_extractRange items reads stream
    obtain ⟨delivered, remaining, rfl, rfl, rfl⟩ := List.map_eq_append_iff.mp split
    have tag : s.tag = c.tag := by rw [inv]
    have loop := readLoop_sends (s.readBuf ++ chunk).length 0
      { s with readBuf := s.readBuf ++ chunk } (Nat.le_refl _) (delivered.map Prod.snd)
      (by rw [drained, List.map_map, List.map_map]; rfl)
    have received := receive_readComplete (fun _ => true) s chunk (by rwa [tag]) admissible.2
    rw [Connection.readComplete, if_neg admissible.1] at received
    dsimp only at received loop
    rw [loop, drained] at received
    refine ⟨{ s with readBuf := tail }, delivered, remaining, rfl, ?_, by rw [inv], ?_, ?_⟩
    · rw [receiveChunk, received]
      exact congrArg Except.ok (Prod.ext rfl (sentToOwner_sends _))
    · rw [left, wire, wire, List.map_map]
      rfl
    · intro f hf
      have head : remaining.head? = some f := hf
      exact short (f.1, some f.2) (by simp [List.head?_map, head])

/-- However the stream of messages is cut into chunks, after any number of them
the owner has been sent exactly the messages that have arrived completely, and the
read buffer holds the beginning of the next one; at the end it is empty. -/
theorem framing_independent_of_chunking (c : Connection) (tagged : c.tag.length < 2 ^ 63)
    (fresh : c.readBuf = []) (vs : List Value) (framable : ∀ v ∈ vs, Framable v)
    (sized : ∀ v ∈ vs, v.Sized (2 ^ 63)) (chunks : List Bytes)
    (admissible : ∀ chunk ∈ chunks, chunk ≠ [] ∧ chunk.length < 2 ^ 63)
    (cut : chunks.flatten = (vs.map encode).flatten) :
    (∀ before after, chunks = before ++ after → ∃ sent rest buf, vs = sent ++ rest ∧
      feedAll receiveChunk c before = .ok ({ c with readBuf := buf }, sent.map encode) ∧
      before.flatten = (sent.map encode).flatten ++ buf ∧
      ∀ v ∈ rest.head?, buf.length < (encode v).length) ∧
    feedAll receiveChunk c chunks = .ok (c, vs.map encode) := by
  let frames : List (Frame UInt8 Bytes) := vs.map fun v => (encode v, encode v)
  have receiver := connection_receives c tagged
  have isFrame : ∀ f ∈ frames, Reads extractRange f.1 (some f.2) := by
    intro f hf
    obtain ⟨v, hv, rfl⟩ := List.mem_map.mp hf
    exact reads_extractRange (sized v hv) (framable v hv)
  have bytes (us : List Value) : wire (us.map fun v => (encode v, encode v)) =
      (us.map encode).flatten := by
    rw [wire, List.map_map]
    rfl
  have start : Incomplete frames c.readBuf := by
    intro f hf
    have whole := isFrame f (List.mem_of_mem_head? hf) []
    rw [List.append_nil] at whole
    rw [fresh]
    exact advances_extractRange _ _ _ whole
  constructor
  · intro before after split
    subst split
    have arrived : c.readBuf ++ (before.flatten ++ after.flatten) = wire frames := by
      rw [fresh, bytes, ← cut, List.flatten_append, List.nil_append]
    obtain ⟨s', done, rest, frames, run, inv, left, short⟩ := receiver.all before
      (fun chunk hc => admissible chunk (by simp [hc])) frames isFrame c rfl after.flatten
      arrived start
    obtain ⟨sent, remaining, rfl, rfl, rfl⟩ := List.map_eq_append_iff.mp frames
    rw [bytes] at left
    refine ⟨sent, remaining, s'.readBuf, rfl, ?_, ?_, ?_⟩
    · rw [run, ← inv, List.map_map]
      rfl
    · rw [fresh, List.nil_append, bytes, List.map_append, List.flatten_append, ← left,
        ← List.append_assoc] at arrived
      exact List.append_cancel_right arrived
    · intro v hv
      have head : remaining.head? = some v := hv
      exact short (encode v, encode v) (by simp [List.head?_map, head])
  · obtain ⟨s', run, inv, empty⟩ := receiver.whole chunks admissible frames isFrame c rfl
      (by rw [fresh, bytes, ← cut, List.nil_append]) start
    have same : s' = c := by rw [inv, empty, ← fresh]
    rw [run, same, List.map_map]
    rfl

/-- Two messages, the first a nested array, cut inside a header and a string. -/
theorem framing_independent_of_chunking_nested :
    feedAll receiveChunk ⟨text "tcp", [], false, false⟩ [[0x82, 0x18], [0x2a, 0x81, 0x62, 0x61],
      [0x62, 0xf6]] =
      .ok (⟨text "tcp", [], false, false⟩, [[0x82, 0x18, 0x2a, 0x81, 0x62, 0x61, 0x62], [0xf6]]) := by
  refine (framing_independent_of_chunking ⟨text "tcp", [], false, false⟩ (by decide) rfl
    [.array [.int 42, .array [.string (text "ab")]], .null] ?_ ?_ _ ?_ (by decide)).2
  · simp [Framable, Value.type]
  · simp [Value.Sized, SizedItems, text]
  · simp

end Thespian.Endpoint
