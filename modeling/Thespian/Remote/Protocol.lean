import Thespian.Remote.Package
import Thespian.Decoding.Frames

/-!
The remote protocol: tagged identifiers, framing and the endpoint's feed loop.
The accumulator hands out the frame at the head of its buffer and removes it only
on the next call, so between the calls of one feed loop the head of the buffer is
a frame that has been dispatched already. When the loop is left there is no
complete frame at the head.

What the loop does with a frame is a parameter. The result is about decoding each
frame as it is handed out.
-/

namespace Thespian.Remote
open Decoding Decoding.Decoder Cbor

inductive ProtocolError (ε : Type) where
  | tooShort
  | writeFailed
  | unknownMessageType
  | cbor (e : ε)
deriving DecidableEq

/-- `Tagged(usize, "LPID")` and `Tagged(usize, "RPID")` -/
structure Lpiid where
  value : UInt64
deriving DecidableEq

structure Rpiid where
  value : UInt64
deriving DecidableEq

def lpiidTag : Bytes := text "LPID"

def rpiidTag : Bytes := text "RPID"

inductive ProtocolMessage where
  | send (fromId : Lpiid) (toId : Rpiid) (payload : Bytes)
  | sendNamed (fromId : Lpiid) (toName : Bytes) (payload : Bytes)
  | link (localId : Lpiid) (remoteId : Rpiid)
  | exit (localId : Lpiid) (reason : Bytes)
  | transportError (reason : Bytes)
deriving DecidableEq

def maxFrameSize : Nat := 8 * 4096

section Cbor
variable {ε : Type} (cbor : Package ε)

/-- `Tagged.cborEncode` -/
def cborEncode (tag : Bytes) (value : UInt64) : Val :=
  .custom (cbor.writeValue (.tuple [.string tag, .uint value]))

/-- The value assigned last, or the initial one of the variable. -/
def uintAt (values : List Extracted) (i : Nat) : UInt64 :=
  match values[i]? with
  | some (.uint n) => n
  | _ => 0

def stringAt (values : List Extracted) (i : Nat) : Bytes :=
  match values[i]? with
  | some (.string s) => s
  | _ => []

def rawAt (values : List Extracted) (i : Nat) : Bytes :=
  match values[i]? with
  | some (.raw x) => x
  | _ => []

/-- `Tagged.cborExtract` -/
def cborExtract (tag : Bytes) : Pat ε :=
  .custom fun iter =>
    match cbor.matchValue iter [.literal tag, .uint] with
    | .ok (some values, iter) => .ok (some (.uint (uintAt values 0)), iter)
    | .ok (none, iter) => .ok (none, iter)
    | .error e => .error e

def writeFrame (bufLen : Nat) (value : Val) : Except (ProtocolError ε) Bytes :=
  if bufLen < 5 then .error .tooShort
  else
    let written := cbor.writeValue value
    if written.length > bufLen - 5 then .error .writeFailed
    else .ok (0x5a :: bigEndianBytes 4 written.length ++ written)

namespace ProtocolMessage

def toTuple : ProtocolMessage → Val
  | send fromId toId payload => .tuple [.string (text "send"),
      cborEncode cbor lpiidTag fromId.value, cborEncode cbor rpiidTag toId.value, .raw payload]
  | sendNamed fromId toName payload => .tuple [.string (text "send_named"),
      cborEncode cbor lpiidTag fromId.value, .string toName, .raw payload]
  | link localId remoteId => .tuple [.string (text "link"),
      cborEncode cbor lpiidTag localId.value, cborEncode cbor rpiidTag remoteId.value]
  | exit localId reason => .tuple [.string (text "exit"),
      cborEncode cbor lpiidTag localId.value, .string reason]
  | transportError reason => .tuple [.string (text "transport_error"), .string reason]

def encode (m : ProtocolMessage) (bufLen : Nat) : Except (ProtocolError ε) Bytes :=
  writeFrame cbor bufLen (m.toTuple cbor)

/-- `try cbor.match(frame.bytes, pats)` -/
def tryMatch (frame : Bytes) (pats : List (Pat ε)) :
    Except (ProtocolError ε) (Option (List Extracted)) :=
  (cbor.matchFrame frame pats).mapError .cbor

def decode (frame : Bytes) : Except (ProtocolError ε) ProtocolMessage := do
  let localId := cborExtract cbor lpiidTag
  let remoteId := cborExtract cbor rpiidTag
  if let some values ← tryMatch cbor frame [.literal (text "send"), localId, remoteId, .raw] then
    return .send ⟨uintAt values 0⟩ ⟨uintAt values 1⟩ (rawAt values 2)
  if let some values ← tryMatch cbor frame
      [.literal (text "send_named"), localId, .string, .raw] then
    return .sendNamed ⟨uintAt values 0⟩ (stringAt values 1) (rawAt values 2)
  if let some values ← tryMatch cbor frame [.literal (text "link"), localId, remoteId] then
    return .link ⟨uintAt values 0⟩ ⟨uintAt values 1⟩
  if let some values ← tryMatch cbor frame [.literal (text "exit"), localId, .string] then
    return .exit ⟨uintAt values 0⟩ (stringAt values 1)
  if let some values ← tryMatch cbor frame [.literal (text "transport_error"), .string] then
    return .transportError (stringAt values 0)
  throw .unknownMessageType

end ProtocolMessage

/-- `cbor.matchString(&iter, &result) catch false` -/
def matchStringOrFalse (iter : Bytes) : Option (Bytes × Bytes) :=
  match cbor.matchString iter with
  | .ok res => res
  | .error _ => none

/-- The accumulator after the call, and the frame it hands out. -/
def accumulatorFeed (buf bytes : Bytes) : Bytes × Option Bytes :=
  let buf :=
    match matchStringOrFalse cbor buf with
    | some (_, iter) => buf.drop (buf.length - iter.length)
    | none => buf
  let buf := buf ++ bytes
  (buf, (matchStringOrFalse cbor buf).map Prod.fst)

/-- The loop of feed: the frame just handed out is dispatched, and the next one
asked for. Every round removes a frame from the buffer, which bounds the rounds. -/
def feedLoop {α : Type} (dispatchInbound : Bytes → Except (ProtocolError ε) α) :
    Nat → Bytes × Option Bytes → Except (ProtocolError ε) (Bytes × List α)
  | 0, (buf, _) => .ok (buf, [])
  | _ + 1, (buf, none) => .ok (buf, [])
  | fuel + 1, (buf, some frame) => do
      let dispatched ← dispatchInbound frame
      let (buf, more) ← feedLoop dispatchInbound fuel (accumulatorFeed cbor buf [])
      return (buf, dispatched :: more)

def feed {α : Type} (dispatchInbound : Bytes → Except (ProtocolError ε) α)
    (buf bytes : Bytes) : Except (ProtocolError ε) (Bytes × List α) :=
  feedLoop cbor dispatchInbound ((buf ++ bytes).length + 1) (accumulatorFeed cbor buf bytes)

end Cbor

def taggedItem (tag : Bytes) (value : UInt64) : Bytes := arrayOf [pushString tag, pushUint value]

namespace ProtocolMessage

def name : ProtocolMessage → Bytes
  | send .. => text "send"
  | sendNamed .. => text "send_named"
  | link .. => text "link"
  | exit .. => text "exit"
  | transportError .. => text "transport_error"

def fields : ProtocolMessage → List Bytes
  | send fromId toId payload =>
      [taggedItem lpiidTag fromId.value, taggedItem rpiidTag toId.value, payload]
  | sendNamed fromId toName payload =>
      [taggedItem lpiidTag fromId.value, pushString toName, payload]
  | link localId remoteId =>
      [taggedItem lpiidTag localId.value, taggedItem rpiidTag remoteId.value]
  | exit localId reason => [taggedItem lpiidTag localId.value, pushString reason]
  | transportError reason => [pushString reason]

/-- The elements of the array that carries the message. -/
def elements (m : ProtocolMessage) : List Bytes := pushString m.name :: m.fields

def payload? : ProtocolMessage → Option Bytes
  | send _ _ payload | sendNamed _ _ payload => some payload
  | _ => none

end ProtocolMessage

section Decode
variable {ε : Type} {cbor : Package ε}

theorem writeValue_toTuple (doc : Documented cbor) (m : ProtocolMessage) :
    cbor.writeValue (m.toTuple cbor) = arrayOf m.elements := by
  cases m <;>
    simp [ProtocolMessage.toTuple, ProtocolMessage.elements, ProtocolMessage.name,
      ProtocolMessage.fields, cborEncode, taggedItem, doc.write_tuple, doc.write_string,
      doc.write_uint, doc.write_raw, doc.write_custom]

theorem writeFrame_eq_ok {bufLen : Nat} {value : Val} {frame : Bytes}
    (h : writeFrame cbor bufLen value = .ok frame) :
    frame = frameOf (cbor.writeValue value) ∧ (cbor.writeValue value).length + 5 ≤ bufLen := by
  unfold writeFrame at h
  split at h
  · cases h
  · dsimp only at h
    split at h
    · cases h
    · cases h
      have byte : UInt8.ofNat (2 <<< 5 ||| 26) = 0x5a := by decide
      refine ⟨?_, by omega⟩
      rw [frameOf, header, Width.info, byte]
      rfl

theorem length_le_flatten {x : Bytes} {xs : List Bytes} (h : x ∈ xs) :
    x.length ≤ xs.flatten.length := (List.sublist_flatten_of_mem h).length_le

theorem pushUint_length_le (n : UInt64) : (pushUint n).length ≤ 9 := by
  obtain ⟨w, -, eq⟩ := pushTypedVal_eq 0 n
  rw [pushUint, eq, header, List.length_cons, bigEndianBytes_length]
  cases w <;> simp [Width.bytes]

theorem accepts_tagged (doc : Documented cbor) {tag : Bytes}
    (small : (pushString tag).length < 2 ^ 63) (value : UInt64) :
    (cborExtract cbor tag).Accepts (taggedItem tag value) [.uint value] := by
  have sizes : ∀ x ∈ [pushString tag, pushUint value], x.length < 2 ^ 63 := by
    have short := pushUint_length_le value
    simp only [List.forall_mem_cons]
    exact ⟨small, by omega, by simp⟩
  have here : (Pat.uint : Pat ε).Accepts (pushUint value) [.uint value] := ⟨value, rfl, rfl⟩
  refine ⟨.uint value, fun r => ?_, rfl⟩
  have run := doc.matchValue_accepts [.literal tag, .uint] [pushString tag, pushUint value]
    [.uint value] r (by simp) sizes (accepts_literal tag (accepts_extract here .nil))
  dsimp only
  rw [taggedItem, run]
  rfl

theorem string_length_lt {s : Bytes} (h : (pushString s).length < 2 ^ 63) : s.length < 2 ^ 63 := by
  rw [pushString, List.length_append] at h
  omega

theorem wellFormed_tagged {tag : Bytes} (small : tag.length < 2 ^ 63) (value : UInt64) :
    WellFormed (taggedItem tag value) := by
  apply wellFormed_array
  · simp only [List.forall_mem_cons]
    exact ⟨wellFormed_string small, wellFormed_uint value, by simp⟩
  · simp

theorem fields_wellFormed (m : ProtocolMessage) (payload : ∀ x ∈ m.payload?, WellFormed x)
    (sizes : ∀ x ∈ m.fields, x.length < 2 ^ 63) : ∀ x ∈ m.fields, WellFormed x := by
  have localItem (id : Lpiid) := @wellFormed_tagged lpiidTag (by decide) id.value
  have remoteItem (id : Rpiid) := @wellFormed_tagged rpiidTag (by decide) id.value
  have string {s : Bytes} (mem : pushString s ∈ m.fields) : WellFormed (pushString s) :=
    wellFormed_string (string_length_lt (sizes _ mem))
  cases m with
  | send fromId toId x => simp [ProtocolMessage.fields, localItem, remoteItem, payload x rfl]
  | sendNamed fromId toName x =>
      have named := string (s := toName) (by simp [ProtocolMessage.fields])
      simp [ProtocolMessage.fields, localItem, named, payload x rfl]
  | link localId remoteId => simp [ProtocolMessage.fields, localItem, remoteItem]
  | exit localId reason =>
      have reason := string (s := reason) (by simp [ProtocolMessage.fields])
      simp [ProtocolMessage.fields, localItem, reason]
  | transportError reason =>
      have reason := string (s := reason) (by simp [ProtocolMessage.fields])
      simp [ProtocolMessage.fields, reason]

/-- A pattern for another variant fails on the name of the variant. -/
theorem tryMatch_other (doc : Documented cbor) (m : ProtocolMessage)
    (wellFormed : ∀ x ∈ m.fields, WellFormed x) {t : Bytes} (differs : m.name ≠ t)
    (pats : List (Pat ε)) :
    ProtocolMessage.tryMatch cbor (arrayOf m.elements) (.literal t :: pats) = .ok none := by
  have short : m.name.length < 2 ^ 63 := by cases m <;> simp [ProtocolMessage.name, text]
  have few : m.fields.length + 1 < 2 ^ 63 := by cases m <;> simp [ProtocolMessage.fields]
  rw [ProtocolMessage.tryMatch, ProtocolMessage.elements,
    doc.matchFrame_literal m.name t pats m.fields differs short few wellFormed]
  rfl

theorem tryMatch_own (doc : Documented cbor) (m : ProtocolMessage)
    (sizes : ∀ x ∈ m.elements, x.length < 2 ^ 63) {pats : List (Pat ε)}
    {values : List Extracted} (accepts : Accepts pats m.elements values) :
    ProtocolMessage.tryMatch cbor (arrayOf m.elements) pats = .ok (some values) := by
  have few : m.elements.length < 2 ^ 63 := by
    cases m <;> simp [ProtocolMessage.elements, ProtocolMessage.fields]
  rw [ProtocolMessage.tryMatch, doc.matchFrame_accepts pats m.elements values few sizes accepts]
  rfl

theorem decode_elements (doc : Documented cbor) (m : ProtocolMessage)
    (payload : ∀ x ∈ m.payload?, WellFormed x)
    (sizes : ∀ x ∈ m.elements, x.length < 2 ^ 63) :
    ProtocolMessage.decode cbor (arrayOf m.elements) = .ok m := by
  have lpiid (id : Lpiid) :
      (cborExtract cbor lpiidTag).Accepts (taggedItem lpiidTag id.value) [.uint id.value] :=
    accepts_tagged doc (by decide) id.value
  have rpiid (id : Rpiid) :
      (cborExtract cbor rpiidTag).Accepts (taggedItem rpiidTag id.value) [.uint id.value] :=
    accepts_tagged doc (by decide) id.value
  have string (s : Bytes) : (Pat.string : Pat ε).Accepts (pushString s) [.string s] :=
    ⟨s, rfl, rfl⟩
  have raw {x : Bytes} (h : WellFormed x) : (Pat.raw : Pat ε).Accepts x [.raw x] := ⟨h, rfl⟩
  have other {t : Bytes} (differs : m.name ≠ t) := tryMatch_other doc m
    (fields_wellFormed m payload fun x hx => sizes x (List.mem_cons_of_mem _ hx)) differs
  have own {pats : List (Pat ε)} {values : List Extracted} :=
    @tryMatch_own ε cbor doc m sizes pats values
  rw [ProtocolMessage.decode]
  cases m with
  | send fromId toId x =>
      rw [own (accepts_literal (text "send") (accepts_extract (lpiid fromId)
        (accepts_extract (rpiid toId) (accepts_extract (raw (payload x rfl)) .nil))))]
      rfl
  | sendNamed fromId toName x =>
      have notSend : text "send_named" ≠ text "send" := by decide
      rw [other notSend, own (accepts_literal (text "send_named") (accepts_extract (lpiid fromId)
        (accepts_extract (string toName) (accepts_extract (raw (payload x rfl)) .nil))))]
      rfl
  | link localId remoteId =>
      have notSend : text "link" ≠ text "send" := by decide
      have notNamed : text "link" ≠ text "send_named" := by decide
      rw [other notSend, other notNamed, own (accepts_literal (text "link")
        (accepts_extract (lpiid localId) (accepts_extract (rpiid remoteId) .nil)))]
      rfl
  | exit localId reason =>
      have notSend : text "exit" ≠ text "send" := by decide
      have notNamed : text "exit" ≠ text "send_named" := by decide
      have notLink : text "exit" ≠ text "link" := by decide
      rw [other notSend, other notNamed, other notLink, own (accepts_literal (text "exit")
        (accepts_extract (lpiid localId) (accepts_extract (string reason) .nil)))]
      rfl
  | transportError reason =>
      have notSend : text "transport_error" ≠ text "send" := by decide
      have notNamed : text "transport_error" ≠ text "send_named" := by decide
      have notLink : text "transport_error" ≠ text "link" := by decide
      have notExit : text "transport_error" ≠ text "exit" := by decide
      rw [other notSend, other notNamed, other notLink, other notExit,
        own (accepts_literal (text "transport_error") (accepts_extract (string reason) .nil))]
      rfl

/-- The bytes are the frame of the message. -/
def IsFrame (cbor : Package ε) (x : Bytes) (m : ProtocolMessage) : Prop :=
  ∃ payload, x = frameOf payload ∧ payload.length < 2 ^ 32 ∧
    ProtocolMessage.decode cbor payload = .ok m

/-- The bytes are a frame, whatever it carries. -/
def IsFramed (x : Bytes) : Prop := ∃ payload, x = frameOf payload ∧ payload.length < 2 ^ 32

theorem IsFrame.framed {x : Bytes} {m : ProtocolMessage} (h : IsFrame cbor x m) : IsFramed x := by
  obtain ⟨payload, eq, small, -⟩ := h
  exact ⟨payload, eq, small⟩

theorem matchString_frame (doc : Documented cbor) {payload : Bytes}
    (small : payload.length < 2 ^ 32) (r : Bytes) :
    matchStringOrFalse cbor (frameOf payload ++ r) = some (payload, r) := by
  rw [matchStringOrFalse, doc.matchString_complete payload r small]

theorem frameOf_injective (doc : Documented cbor) {payload payload' : Bytes}
    (small : payload.length < 2 ^ 32) (small' : payload'.length < 2 ^ 32)
    (same : frameOf payload = frameOf payload') : payload = payload' := by
  have first := matchString_frame doc small []
  rw [same, matchString_frame doc small' []] at first
  exact (Prod.ext_iff.mp (Option.some.inj first)).1.symm

/-- Nothing is handed out for the beginning of a frame. -/
theorem matchString_incomplete (doc : Documented cbor) {payload p : Bytes}
    (small : payload.length < 2 ^ 32) (start : p <+: frameOf payload)
    (proper : p ≠ frameOf payload) : matchStringOrFalse cbor p = none := by
  obtain ⟨e, he⟩ := doc.matchString_truncated payload p small start proper
  rw [matchStringOrFalse, he]

theorem matchString_nil (doc : Documented cbor) : matchStringOrFalse cbor [] = none :=
  have small : ([] : Bytes).length < 2 ^ 32 := by decide
  matchString_incomplete doc small List.nil_prefix (by simp [frameOf, header])

theorem frameOf_length (payload : Bytes) : (frameOf payload).length = payload.length + 5 := by
  rw [frameOf, header, List.length_append, List.length_cons, bigEndianBytes_length, Width.bytes]
  omega

/-- The head frame, dispatched already, is removed by the next call. -/
theorem accumulatorFeed_frame (doc : Documented cbor) {payload : Bytes}
    (small : payload.length < 2 ^ 32) (t bytes : Bytes) :
    accumulatorFeed cbor (frameOf payload ++ t) bytes =
      (t ++ bytes, (matchStringOrFalse cbor (t ++ bytes)).map Prod.fst) := by
  have dropped : (frameOf payload ++ t).drop ((frameOf payload ++ t).length - t.length) = t := by
    rw [List.length_append, Nat.add_sub_cancel, List.drop_left]
  rw [accumulatorFeed, matchString_frame doc small]
  dsimp only
  rw [dropped]

theorem accumulatorFeed_none {buf : Bytes} (none : matchStringOrFalse cbor buf = none)
    (bytes : Bytes) :
    accumulatorFeed cbor buf bytes =
      (buf ++ bytes, (matchStringOrFalse cbor (buf ++ bytes)).map Prod.fst) := by
  rw [accumulatorFeed, none]

/-- The loop decodes the complete frames at the front of the buffer one by one. -/
theorem feedLoop_wire (doc : Documented cbor) (frames : List (Frame UInt8 ProtocolMessage))
    (isFrame : ∀ f ∈ frames, IsFrame cbor f.1 f.2) {s later : Bytes}
    (arrived : s ++ later = wire frames) (fuel : Nat) (enough : s.length < fuel) :
    ∃ tail done rest, frames = done ++ rest ∧
      feedLoop cbor (ProtocolMessage.decode cbor) fuel
        (s, (matchStringOrFalse cbor s).map Prod.fst) = .ok (tail, done.map Prod.snd) ∧
      tail ++ later = wire rest ∧ Incomplete rest tail := by
  induction frames generalizing s fuel with
  | nil =>
      obtain ⟨fuel, rfl⟩ : ∃ k, fuel = k + 1 := ⟨fuel - 1, by omega⟩
      have empty : s = [] := (List.append_eq_nil_iff.mp arrived).1
      subst empty
      refine ⟨[], [], [], rfl, ?_, arrived, by simp [Incomplete]⟩
      rw [matchString_nil doc]
      rfl
  | cons f frames ih =>
      obtain ⟨fuel, rfl⟩ : ∃ k, fuel = k + 1 := ⟨fuel - 1, by omega⟩
      obtain ⟨payload, eq, small, decoded⟩ := isFrame f (by simp)
      rcases wire_cases arrived with ⟨none, -⟩ | ⟨g, rest, same, short, start, proper⟩ |
        ⟨g, rest, t, same, rfl, arrived'⟩
      · cases none
      · cases same
        rw [eq] at start proper
        refine ⟨s, [], f :: frames, rfl, ?_, arrived, incomplete_of_length short _⟩
        rw [matchString_incomplete doc small start proper]
        rfl
      · cases same
        rw [List.length_append, eq, frameOf_length] at enough
        obtain ⟨tail, done, rest, split, run, left, incomplete⟩ :=
          ih (fun g hg => isFrame g (by simp [hg])) arrived' fuel (by omega)
        refine ⟨tail, f :: done, rest, by simp [split], ?_, left, incomplete⟩
        have next := accumulatorFeed_frame doc small t []
        rw [List.append_nil] at next
        rw [eq, matchString_frame doc small, Option.map_some, feedLoop, decoded, next]
        simp only [bind, Except.bind, run]
        rfl

/-- Nothing is handed out while only the beginning of the next frame has arrived. -/
theorem matchString_waiting (doc : Documented cbor) {frames : List (Frame UInt8 ProtocolMessage)}
    (isFramed : ∀ f ∈ frames, IsFramed f.1) {buf later : Bytes}
    (arrived : buf ++ later = wire frames) (incomplete : Incomplete frames buf) :
    matchStringOrFalse cbor buf = none := by
  rcases wire_cases arrived with ⟨-, empty⟩ | ⟨f, rest, rfl, -, start, proper⟩ |
    ⟨f, rest, t, rfl, whole, -⟩
  · rw [empty]
    exact matchString_nil doc
  · obtain ⟨payload, eq, small⟩ := isFramed f (by simp)
    rw [eq] at start proper
    exact matchString_incomplete doc small start proper
  · have short := incomplete f rfl
    rw [whole, List.length_append] at short
    omega

/-- At rest, the endpoint's accumulator holds the beginning of the next frame. -/
theorem endpoint_receives (doc : Documented cbor) :
    Receives (feed cbor (ProtocolMessage.decode cbor)) id (fun _ => True) (fun _ => True)
      (IsFrame cbor) where
  step := by
    intro buf chunk later frames _ _ isFrame arrived incomplete
    have waiting : matchStringOrFalse cbor buf = none :=
      matchString_waiting doc (fun f member => (isFrame f member).framed) arrived incomplete
    have stream : (buf ++ chunk) ++ later = wire frames := by
      rw [List.append_assoc]
      exact arrived
    obtain ⟨tail, done, rest, split, run, left, incomplete⟩ :=
      feedLoop_wire doc frames isFrame stream ((buf ++ chunk).length + 1) (by omega)
    refine ⟨tail, done, rest, split, ?_, trivial, left, incomplete⟩
    rw [feed, accumulatorFeed_none waiting, run]

theorem isFrame_of_encode (doc : Documented cbor) {m : ProtocolMessage}
    (payload : ∀ x ∈ m.payload?, WellFormed x) {frame : Bytes}
    (encoded : m.encode cbor maxFrameSize = .ok frame) : IsFrame cbor frame m := by
  obtain ⟨eq, fits⟩ := writeFrame_eq_ok encoded
  rw [writeValue_toTuple doc m] at eq fits
  rw [maxFrameSize] at fits
  have sizes : ∀ x ∈ m.elements, x.length < 2 ^ 63 := by
    intro x hx
    have inside := length_le_flatten hx
    rw [arrayOf, List.length_append] at fits
    omega
  exact ⟨_, eq, by omega, decode_elements doc m payload sizes⟩

/-- Whatever messages are encoded and however their frames are cut into chunks,
the feed loop decodes exactly these messages in order. -/
theorem wire_format_round_trips (doc : Documented cbor) (messages : List ProtocolMessage)
    (payloads : ∀ m ∈ messages, ∀ x ∈ m.payload?, WellFormed x) (frames : List Bytes)
    (encoded : List.Forall₂ (fun m frame => m.encode cbor maxFrameSize = .ok frame) messages frames)
    (chunks : List Bytes) (cut : chunks.flatten = frames.flatten) :
    feedAll (feed cbor (ProtocolMessage.decode cbor)) [] chunks = .ok ([], messages) := by
  have zipped : ∃ fs : List (Frame UInt8 ProtocolMessage), fs.map Prod.fst = frames ∧
      fs.map Prod.snd = messages ∧ ∀ f ∈ fs, IsFrame cbor f.1 f.2 := by
    clear cut
    induction encoded with
    | nil => exact ⟨[], rfl, rfl, by simp⟩
    | cons head _ ih =>
        rename_i m frame messages frames _
        obtain ⟨fs, rfl, rfl, isFrame⟩ := ih fun m hm => payloads m (by simp [hm])
        have first := isFrame_of_encode doc (payloads m (by simp)) head
        exact ⟨(frame, m) :: fs, rfl, rfl, List.forall_mem_cons.mpr ⟨first, isFrame⟩⟩
  obtain ⟨fs, rfl, rfl, isFrame⟩ := zipped
  have start : Incomplete fs (id []) := by
    intro f hf
    obtain ⟨payload, eq, -, -⟩ := isFrame f (List.mem_of_mem_head? hf)
    rw [eq, frameOf_length]
    exact Nat.succ_pos _
  obtain ⟨buf, run, -, empty⟩ := (endpoint_receives doc).whole chunks (fun _ _ => trivial) fs
    isFrame [] trivial cut start
  have empty : buf = [] := empty
  rw [run, empty]

end Decode

end Thespian.Remote
