import Thespian.Remote.Proxy
import Thespian.Cbor.ToJson

/-!
The messages an endpoint and its proxies send each other are taken for what they
are. Every pattern begins with a literal of its own, apart from the two forms of
send, which are told apart by the type of the target.
-/

namespace Thespian.Remote
open Decoding Cbor Zig

/-- The elements of the array that carries a control message. -/
def ProxyMessage.elements : ProxyMessage → List Bytes
  | .endpointExit reason => [pushString (text "endpoint_exit"), pushString reason]
  | .exit reason => [pushString (text "exit"), pushString reason]
  | .link => [pushString (text "link")]
  | .setNotify targetId => [pushString (text "set_notify"), taggedItem lpiidTag targetId.value]
  | .deliverNamed toName payload =>
      [pushString (text "deliver_named"), pushString toName, payload]
  | .deliverPid targetId payload =>
      [pushString (text "deliver_pid"), taggedItem lpiidTag targetId.value, payload]
  | .other => []

/-- The reason of a proxy_exit message is not looked at. -/
def EndpointMessage.elements (reason : Bytes) : EndpointMessage → List Bytes
  | .send fromId toId payload => [pushString (text "send"), taggedItem lpiidTag fromId.value,
      taggedItem rpiidTag toId.value, payload]
  | .sendNamed fromId toName payload => [pushString (text "send"),
      taggedItem lpiidTag fromId.value, pushString toName, payload]
  | .linkWire fromId toId => [pushString (text "link_wire"), taggedItem lpiidTag fromId.value,
      taggedItem rpiidTag toId.value]
  | .localLinkExit fromId reason => [pushString (text "local_link_exit"),
      taggedItem lpiidTag fromId.value, pushString reason]
  | .proxyExit toId => [pushString (text "proxy_exit"), taggedItem rpiidTag toId.value,
      pushString reason]
  | .other => []

/-- A well-formed item of a length that can be read back. -/
def Item (x : Bytes) : Prop := x.length < 2 ^ 63 ∧ WellFormed x

theorem items_of_forall {elements : List Bytes} (few : elements.length < 2 ^ 63)
    (each : ∀ x ∈ elements, Item x) : Items elements :=
  ⟨few, fun x member => (each x member).1, fun x member => (each x member).2⟩

theorem pushString_length_le (s : Bytes) : (pushString s).length ≤ s.length + 9 := by
  obtain ⟨w, -, eq⟩ := pushTypedVal_eq 3 (UInt64.ofNat s.length)
  rw [pushString, eq, header, List.length_append, List.length_cons, bigEndianBytes_length]
  cases w <;> simp only [Width.bytes] <;> omega

theorem item_string {s : Bytes} (small : s.length < 2 ^ 62) : Item (pushString s) := by
  have length := pushString_length_le s
  exact ⟨by omega, wellFormed_string (by omega)⟩

theorem taggedItem_length_le {tag : Bytes} (short : (pushString tag).length = 5)
    (value : UInt64) : (taggedItem tag value).length ≤ 15 := by
  have first : (arrayHeader (UInt64.ofNat 2)).length = 1 := by decide
  have header : (arrayHeader (UInt64.ofNat [pushString tag, pushUint value].length)).length = 1 :=
    first
  have number := pushUint_length_le value
  rw [taggedItem, arrayOf, List.length_append, header, List.flatten_cons, List.length_append,
    short, List.flatten_cons, List.flatten_nil, List.append_nil]
  omega

theorem item_lpiid (id : Lpiid) : Item (taggedItem lpiidTag id.value) := by
  have length := taggedItem_length_le (show (pushString lpiidTag).length = 5 by decide) id.value
  exact ⟨by omega, wellFormed_tagged (by decide) id.value⟩

theorem item_rpiid (id : Rpiid) : Item (taggedItem rpiidTag id.value) := by
  have length := taggedItem_length_le (show (pushString rpiidTag).length = 5 by decide) id.value
  exact ⟨by omega, wellFormed_tagged (by decide) id.value⟩

section Written
variable {ε : Type} {cbor : Package ε}

theorem writeValue_lpiid (doc : Documented cbor) (id : Lpiid) :
    cbor.writeValue (lpiidVal cbor id) = taggedItem lpiidTag id.value := by
  simp [lpiidVal, cborEncode, taggedItem, doc.write_custom, doc.write_tuple, doc.write_string,
    doc.write_uint]

theorem writeValue_rpiid (doc : Documented cbor) (id : Rpiid) :
    cbor.writeValue (rpiidVal cbor id) = taggedItem rpiidTag id.value := by
  simp [rpiidVal, cborEncode, taggedItem, doc.write_custom, doc.write_tuple, doc.write_string,
    doc.write_uint]

theorem endpointExitMessage_eq (doc : Documented cbor) : endpointExitMessage cbor =
    arrayOf (ProxyMessage.endpointExit (text "transport_closed")).elements := by
  simp [endpointExitMessage, ProxyMessage.elements, doc.write_tuple, doc.write_string]

theorem exitReasonMessage_eq (doc : Documented cbor) (reason : Bytes) :
    exitReasonMessage cbor reason = arrayOf (ProxyMessage.exit reason).elements := by
  simp [exitReasonMessage, ProxyMessage.elements, doc.write_tuple, doc.write_string]

theorem setNotifyMessage_eq (doc : Documented cbor) (targetId : Lpiid) :
    setNotifyMessage cbor targetId = arrayOf (ProxyMessage.setNotify targetId).elements := by
  simp [setNotifyMessage, ProxyMessage.elements, doc.write_tuple, doc.write_string,
    writeValue_lpiid doc]

theorem deliverNamedMessage_eq (doc : Documented cbor) (toName payload : Bytes) :
    deliverNamedMessage cbor toName payload =
      arrayOf (ProxyMessage.deliverNamed toName payload).elements := by
  simp [deliverNamedMessage, ProxyMessage.elements, doc.write_tuple, doc.write_string,
    doc.write_raw]

theorem deliverPidMessage_eq (doc : Documented cbor) (toId : Lpiid) (payload : Bytes) :
    deliverPidMessage cbor toId payload =
      arrayOf (ProxyMessage.deliverPid toId payload).elements := by
  simp [deliverPidMessage, ProxyMessage.elements, doc.write_tuple, doc.write_string,
    doc.write_raw, writeValue_lpiid doc]

theorem sendMessage_eq (doc : Documented cbor) (fromId : Lpiid) (toId : Rpiid) (m reason : Bytes) :
    sendMessage cbor fromId toId m = arrayOf ((EndpointMessage.send fromId toId m).elements reason) := by
  simp [sendMessage, EndpointMessage.elements, doc.write_tuple, doc.write_string, doc.write_raw,
    writeValue_lpiid doc, writeValue_rpiid doc]

theorem linkWireMessage_eq (doc : Documented cbor) (fromId : Lpiid) (toId : Rpiid)
    (reason : Bytes) : linkWireMessage cbor fromId toId =
      arrayOf ((EndpointMessage.linkWire fromId toId).elements reason) := by
  simp [linkWireMessage, EndpointMessage.elements, doc.write_tuple, doc.write_string,
    writeValue_lpiid doc, writeValue_rpiid doc]

theorem localLinkExitMessage_eq (doc : Documented cbor) (fromId : Lpiid) (reason other : Bytes) :
    localLinkExitMessage cbor fromId reason =
      arrayOf ((EndpointMessage.localLinkExit fromId reason).elements other) := by
  simp [localLinkExitMessage, EndpointMessage.elements, doc.write_tuple, doc.write_string,
    writeValue_lpiid doc]

theorem proxyExitMessage_eq (doc : Documented cbor) (toId : Rpiid) (reason : Bytes) :
    proxyExitMessage cbor toId reason =
      arrayOf ((EndpointMessage.proxyExit toId).elements reason) := by
  simp [proxyExitMessage, EndpointMessage.elements, doc.write_tuple, doc.write_string,
    writeValue_rpiid doc]

end Written

section Classified
variable {ε : Type} {cbor : Package ε} {errorName : ε → Bytes}

theorem accepts_string {s : Bytes} {pats : List (Pat ε)} {elements : List Bytes}
    {values : List Extracted} (h : Accepts pats elements values) :
    Accepts (.string :: pats) (pushString s :: elements) (.string s :: values) :=
  have here : (Pat.string : Pat ε).Accepts (pushString s) [.string s] := ⟨s, rfl, rfl⟩
  accepts_extract here h

theorem accepts_raw {x : Bytes} (h : WellFormed x) :
    Accepts ([.raw] : List (Pat ε)) [x] [.raw x] :=
  have here : (Pat.raw : Pat ε).Accepts x [.raw x] := ⟨h, rfl⟩
  accepts_extract here .nil

theorem lpiid_accepts (doc : Documented cbor) (id : Lpiid) :
    (cborExtract cbor lpiidTag).Accepts (taggedItem lpiidTag id.value) [.uint id.value] :=
  accepts_tagged doc (by decide) id.value

theorem rpiid_accepts (doc : Documented cbor) (id : Rpiid) :
    (cborExtract cbor rpiidTag).Accepts (taggedItem rpiidTag id.value) [.uint id.value] :=
  accepts_tagged doc (by decide) id.value

/-- A name is not an id. -/
theorem rpiid_refuses (doc : Selective cbor) {s : Bytes} (small : s.length < 2 ^ 63) :
    (cborExtract cbor rpiidTag).Refuses (pushString s) := by
  intro r
  obtain ⟨rest, run⟩ := doc.matchValue_string s r [.literal rpiidTag, .uint] small
  refine ⟨rest, ?_⟩
  dsimp only
  rw [run]

/-- A pattern for another literal is passed over. -/
theorem firstMatch_skip {β : Type} (doc : Selective cbor) {s : Bytes} {rest : List Bytes}
    (items : Items (pushString s :: rest)) {t : Bytes} (differs : s ≠ t) {pats : List (Pat ε)}
    {found : List Extracted → β} {other : β} {chain : List (List (Pat ε) × (List Extracted → β))} :
    firstMatch cbor errorName (arrayOf (pushString s :: rest)) other
        ((.literal t :: pats, found) :: chain) =
      firstMatch cbor errorName (arrayOf (pushString s :: rest)) other chain :=
  firstMatch_of_refuses doc items (refuses_literal differs pats rest)

/-- A proxy takes its control messages for what they are. -/
theorem ProxyMessage.classify_elements (doc : Selective cbor) {m : ProxyMessage}
    (control : m ≠ .other) (items : Items m.elements) :
    ProxyMessage.classify cbor errorName (arrayOf m.elements) = .ok m := by
  unfold ProxyMessage.classify ProxyMessage.patterns
  cases m with
  | other => exact absurd rfl control
  | endpointExit reason =>
      exact firstMatch_of_accepts doc.toDocumented items
        (accepts_literal _ (accepts_string .nil))
  | exit reason =>
      rw [ProxyMessage.elements] at items ⊢
      rw [firstMatch_skip doc items (by decide)]
      exact firstMatch_of_accepts doc.toDocumented items
        (accepts_literal _ (accepts_string .nil))
  | link =>
      rw [ProxyMessage.elements] at items ⊢
      rw [firstMatch_skip doc items (by decide), firstMatch_skip doc items (by decide)]
      exact firstMatch_of_accepts doc.toDocumented items (accepts_literal _ .nil)
  | setNotify targetId =>
      rw [ProxyMessage.elements] at items ⊢
      rw [firstMatch_skip doc items (by decide), firstMatch_skip doc items (by decide),
        firstMatch_skip doc items (by decide)]
      exact firstMatch_of_accepts doc.toDocumented items
        (accepts_literal _ (accepts_extract (lpiid_accepts doc.toDocumented targetId) .nil))
  | deliverNamed toName payload =>
      have wellFormed : WellFormed payload := items.wellFormed _ (by simp [elements])
      rw [ProxyMessage.elements] at items ⊢
      rw [firstMatch_skip doc items (by decide), firstMatch_skip doc items (by decide),
        firstMatch_skip doc items (by decide), firstMatch_skip doc items (by decide)]
      exact firstMatch_of_accepts doc.toDocumented items
        (accepts_literal _ (accepts_string (accepts_raw wellFormed)))
  | deliverPid targetId payload =>
      have wellFormed : WellFormed payload := items.wellFormed _ (by simp [elements])
      rw [ProxyMessage.elements] at items ⊢
      rw [firstMatch_skip doc items (by decide), firstMatch_skip doc items (by decide),
        firstMatch_skip doc items (by decide), firstMatch_skip doc items (by decide),
        firstMatch_skip doc items (by decide)]
      exact firstMatch_of_accepts doc.toDocumented items (accepts_literal _
        (accepts_extract (lpiid_accepts doc.toDocumented targetId) (accepts_raw wellFormed)))

/-- The endpoint takes the requests of its proxies for what they are. -/
theorem EndpointMessage.classify_elements (doc : Selective cbor) {m : EndpointMessage}
    {reason : Bytes} (request : m ≠ .other) (items : Items (m.elements reason)) :
    EndpointMessage.classify cbor errorName (arrayOf (m.elements reason)) = .ok m := by
  have lpiid := lpiid_accepts doc.toDocumented
  have rpiid := rpiid_accepts doc.toDocumented
  unfold EndpointMessage.classify EndpointMessage.patterns
  cases m with
  | other => exact absurd rfl request
  | send fromId toId payload =>
      have wellFormed : WellFormed payload := items.wellFormed _ (by simp [elements])
      exact firstMatch_of_accepts doc.toDocumented items (accepts_literal _
        (accepts_extract (lpiid fromId) (accepts_extract (rpiid toId) (accepts_raw wellFormed))))
  | sendNamed fromId toName payload =>
      have wellFormed : WellFormed payload := items.wellFormed _ (by simp [elements])
      have small : (pushString toName).length < 2 ^ 63 := items.small _ (by simp [elements])
      have here := rpiid_refuses doc (string_length_lt small)
      refine (firstMatch_of_refuses doc items
        (refuses_later_literal _ (.later (lpiid fromId) (.here here)))).trans ?_
      exact firstMatch_of_accepts doc.toDocumented items (accepts_literal _
        (accepts_extract (lpiid fromId) (accepts_string (accepts_raw wellFormed))))
  | linkWire fromId toId =>
      rw [EndpointMessage.elements] at items ⊢
      rw [firstMatch_skip doc items (by decide), firstMatch_skip doc items (by decide)]
      exact firstMatch_of_accepts doc.toDocumented items (accepts_literal _
        (accepts_extract (lpiid fromId) (accepts_extract (rpiid toId) .nil)))
  | localLinkExit fromId text =>
      rw [EndpointMessage.elements] at items ⊢
      rw [firstMatch_skip doc items (by decide), firstMatch_skip doc items (by decide),
        firstMatch_skip doc items (by decide)]
      exact firstMatch_of_accepts doc.toDocumented items (accepts_literal _
        (accepts_extract (lpiid fromId) (accepts_string .nil)))
  | proxyExit toId =>
      have wellFormed : WellFormed (pushString reason) := items.wellFormed _ (by simp [elements])
      rw [EndpointMessage.elements] at items ⊢
      rw [firstMatch_skip doc items (by decide), firstMatch_skip doc items (by decide),
        firstMatch_skip doc items (by decide), firstMatch_skip doc items (by decide)]
      exact firstMatch_of_accepts doc.toDocumented items (accepts_literal _
        (accepts_extract (rpiid toId) (accepts_raw wellFormed)))

end Classified

section Starts
variable {ε : Type} {ext : Externals ε} {n : Node}

/-- The first two bytes tell the messages of a proxy apart: the number of elements and
the length of the first. -/
theorem take_start {start rest : Bytes} (long : 2 ≤ start.length) :
    (start ++ rest).take 2 = start.take 2 :=
  List.take_append_of_le_length long

theorem take_arrayOf {s : Bytes} {rest : List Bytes} (count : Nat) (len : rest.length + 1 = count)
    (long : 2 ≤ (arrayHeader (UInt64.ofNat count) ++ pushString s).length) :
    (arrayOf (pushString s :: rest)).take 2 =
      (arrayHeader (UInt64.ofNat count) ++ pushString s).take 2 := by
  rw [arrayOf, List.length_cons, len, List.flatten_cons, ← List.append_assoc]
  exact take_start long

theorem proxyExitMessage_start (doc : Documented ext.cbor) (r : Rpiid) (reason : Bytes) :
    (proxyExitMessage ext.cbor r reason).take 2 = [0x83, 0x6a] := by
  rw [proxyExitMessage_eq doc, EndpointMessage.elements, take_arrayOf 3 rfl (by decide)]
  decide

theorem sendMessage_start (doc : Documented ext.cbor) (fromId : Lpiid) (r : Rpiid) (m : Bytes) :
    (sendMessage ext.cbor fromId r m).take 2 = [0x84, 0x64] := by
  rw [sendMessage_eq doc fromId r m [], EndpointMessage.elements, take_arrayOf 4 rfl (by decide)]
  decide

theorem linkWireMessage_start (doc : Documented ext.cbor) (fromId : Lpiid) (r : Rpiid) :
    (linkWireMessage ext.cbor fromId r).take 2 = [0x83, 0x69] := by
  rw [linkWireMessage_eq doc fromId r [], EndpointMessage.elements, take_arrayOf 3 rfl (by decide)]
  decide

theorem localLinkExitMessage_start (doc : Documented ext.cbor) (fromId : Lpiid) (reason : Bytes) :
    (localLinkExitMessage ext.cbor fromId reason).take 2 = [0x83, 0x6f] := by
  rw [localLinkExitMessage_eq doc fromId reason [], EndpointMessage.elements,
    take_arrayOf 3 rfl (by decide)]
  decide

theorem linkMsg_start : Runtime.linkMsg.take 2 = [0x81, 0x64] := by decide

theorem exit_start (doc : Documented ext.cbor) {reason m : Bytes}
    (h : Zig.exit ext.cbor reason = .exit m) : m.take 2 = [0x82, 0x64] := by
  unfold Zig.exit at h
  rw [exitMessage_eq doc] at h
  by_cases small : reason.length ≤ maxReason
  · rw [if_pos small] at h
    cases h
    rw [take_arrayOf 2 rfl (by decide)]
    decide
  · rw [if_neg small] at h
    cases h

theorem deadsend_start {current sender : Handle} {m m' : Bytes}
    (h : n.deadsend current m sender = some (.exit m')) : m'.take 2 = [0x85, 0x64] := by
  unfold Node.deadsend at h
  split at h
  · split at h
    · cases h
    · cases h
    · cases h
      rw [List.append_assoc, List.append_assoc, List.append_assoc, take_start (by decide)]
      decide
  · cases h

theorem sendRaw_start {current target : Handle} {m m' : Bytes} {route : Route}
    (h : (n.sendRaw current target m route).2 = some (.exit m')) : m'.take 2 = [0x85, 0x64] := by
  rcases n.sendRaw_cases current target m route with ⟨b, x, rfl, -, -, eq⟩ | ⟨-, sender, eq⟩
  · rw [eq] at h
    cases h
  · rw [eq] at h
    exact deadsend_start h

theorem firstMatch_start {β : Type} (doc : Documented ext.cbor) {m m' : Bytes} {other : β}
    {chain : List (List (Pat ε) × (List Extracted → β))}
    (h : firstMatch ext.cbor ext.errorName m other chain = .error (.exit m')) :
    m'.take 2 = [0x82, 0x64] := by
  induction chain with
  | nil => cases h
  | cons branch chain ih =>
      rw [firstMatch] at h
      split at h
      · cases h
      · exact ih h
      · exact exit_start doc (Except.error.inj h)

end Starts

/-- The reference package with the printer of the library; no float is printed. -/
def lenientExternals : Externals DomainError where
  cbor := lenient
  errorName := DomainError.what
  toJson := fun size m =>
    match Cbor.toJson (fun _ => []) m with
    | .ok json => if json.length ≤ size then .ok json else .error (text "NoSpaceLeft")
    | .error _ => .error (text "InvalidType")

end Thespian.Remote
