import Thespian.Cbor.MatchReturns

/-!
Range-for over a container. An iterator is a position and the number of elements
that are left; it is at the end when its position is. An accessor is what the
iterator points at: it keeps the position of its element and the end of the
whole container, so what is pushed for it is the rest of the container.
-/

namespace Thespian.Cbor
open Decoding Decoding.Decoder

/-- The bytes from the iterator to the end of the container, and the count. -/
structure ValueIterator where
  b : Bytes
  n : Nat
deriving DecidableEq

structure ValueAccessor where
  b : Bytes
deriving DecidableEq

inductive IterationError where
  | domain (e : DomainError)
  | outOfRange
deriving DecidableEq

/-- `begin()` of a buffer and of a range -/
def beginIterator (buf : Bytes) : Except DomainError ValueIterator :=
  (decodeRangeHeader buf).map fun (n, b) => ⟨b, n.toNat⟩

namespace ValueIterator

/-- `operator++`, which ignores what match_value returns. -/
def next (it : ValueIterator) : Except DomainError ValueIterator :=
  if it.n = 0 then .ok it
  else (matchValueType .any it.b).map fun (_, b) => ⟨b, it.n - 1⟩

def get (it : ValueIterator) : Except IterationError ValueAccessor :=
  if it.n = 0 then .error .outOfRange else .ok ⟨it.b⟩

end ValueIterator

/-- The loop of a range-for. Every round that does not throw lowers the count. -/
def rangeLoop : Nat → Bytes → Except IterationError (List ValueAccessor)
  | n, b =>
      if b = [] then .ok []
      else do
        let accessor ← ValueIterator.get ⟨b, n⟩
        let it ← (ValueIterator.next ⟨b, n⟩).mapError .domain
        match n with
        | 0 => .error .outOfRange
        | n + 1 => return accessor :: (← rangeLoop n it.b)

/-- The accessors a range-for over the buffer yields. -/
def rangeFor (buf : Bytes) : Except IterationError (List ValueAccessor) := do
  let it ← (beginIterator buf).mapError .domain
  rangeLoop it.n it.b

/-- `value_accessor::to_cbor` -/
def ValueAccessor.toCbor (buf : Bytes) (a : ValueAccessor) : Bytes := buf ++ a.b

/-- `value_accessor::operator string_view`: what is no string gives the empty one. -/
def accessorString (a : ValueAccessor) : Except IterationError Bytes :=
  match matchString a.b with
  | .ok (val, _) => .ok (val.getD [])
  | .error e => .error (.domain e)

/-- `value_accessor::type_` -/
def accessorType (a : ValueAccessor) : Except IterationError CborType :=
  match matchType a.b with
  | .ok (t, _) => .ok (t.getD .unknown)
  | .error e => .error (.domain e)

inductive Kind where
  | array
  | map
deriving DecidableEq

namespace Kind

def decodeHeader : Kind → Reader UInt64
  | array => decodeArrayHeader
  | map => decodeMapHeader

def pushHeader : Kind → UInt64 → Bytes
  | array => arrayHeader
  | map => mapHeader

/-- The items of an entry. -/
def items : Kind → Nat
  | array => 1
  | map => 2

end Kind

/-- One complete item. -/
def IsItem (x : Bytes) : Prop := skipValue x = .ok ((), [])

/-- A header that announces n entries, and the items of these entries. -/
structure Container (kind : Kind) (buf : Bytes) (n : UInt64) (items : List Bytes) : Prop where
  header : kind.decodeHeader buf = .ok (n, items.flatten)
  counted : items.length = kind.items * n.toNat
  wellFormed : ∀ x ∈ items, IsItem x
  sized : buf.length < 2 ^ 64

section Loop
variable {x r : Bytes} {items : List Bytes}

theorem IsItem.nonempty (h : IsItem x) : x ≠ [] := by
  rintro rfl
  exact skipValue_nil _ h

theorem IsItem.skip (h : IsItem x) (r : Bytes) : skipValue (x ++ r) = .ok ((), r) :=
  stable_skipValue x () [] h r

theorem IsItem.next (h : IsItem x) (r : Bytes) (n : Nat) :
    ValueIterator.next ⟨x ++ r, n + 1⟩ = .ok ⟨r, n⟩ := by
  obtain ⟨t, typed⟩ := matchType_of_skipped (h.skip r)
  have matched : ∃ b, matchValueType .any (x ++ r) = .ok (b, r) := by
    cases t with
    | none => exact ⟨false, by simp [matchValueType, typed]⟩
    | some v => exact ⟨true, by simp [matchValueType, typed]⟩
  obtain ⟨b, matched⟩ := matched
  simp [ValueIterator.next, matched, Except.map]

/-- What follows the header of a container from each of its items on. -/
def accessors : List Bytes → List ValueAccessor
  | [] => []
  | x :: items => ⟨(x :: items).flatten⟩ :: accessors items

theorem accessors_length (items : List Bytes) : (accessors items).length = items.length := by
  induction items with
  | nil => rfl
  | cons x items ih => rw [accessors, List.length_cons, List.length_cons, ih]

theorem accessors_getElem? (items : List Bytes) (i : Nat) (h : i < items.length) :
    (accessors items)[i]? = some ⟨(items.drop i).flatten⟩ := by
  induction items generalizing i with
  | nil => cases h
  | cons x items ih =>
      cases i with
      | zero => rfl
      | succ i => exact ih i (Nat.lt_of_succ_lt_succ h)

/-- The loop visits the items in order and stops behind the last. -/
theorem rangeLoop_items (items : List Bytes) (wellFormed : ∀ x ∈ items, IsItem x) :
    rangeLoop items.length items.flatten = .ok (accessors items) := by
  induction items with
  | nil => rfl
  | cons x items ih =>
      have item := wellFormed x List.mem_cons_self
      have rest := ih fun y hy => wellFormed y (List.mem_cons_of_mem x hy)
      have nonempty : (x :: items).flatten ≠ [] := by
        rw [List.flatten_cons]
        exact fun empty => item.nonempty (List.append_eq_nil_iff.mp empty).1
      have next := item.next items.flatten items.length
      rw [← List.flatten_cons] at next
      rw [List.length_cons, rangeLoop, if_neg nonempty, next]
      simp only [ValueIterator.get, Nat.succ_ne_zero, if_false, bind, Except.bind,
        Except.mapError, rest]
      rfl

end Loop

section Container
variable {kind : Kind} {buf : Bytes} {n : UInt64} {items : List Bytes}

theorem length_le_flatten (items : List Bytes) (nonempty : ∀ x ∈ items, x ≠ []) :
    items.length ≤ items.flatten.length := by
  induction items with
  | nil => exact Nat.le_refl 0
  | cons x items ih =>
      have first := List.length_pos_iff.mpr (nonempty x List.mem_cons_self)
      have rest := ih fun y hy => nonempty y (List.mem_cons_of_mem x hy)
      simp only [List.flatten_cons, List.length_append, List.length_cons]
      omega

theorem shrinks_decodeHeader (kind : Kind) : Shrinks kind.decodeHeader := by
  cases kind with
  | array =>
      refine advances_decodeType.shrinks.bind fun h => ?_
      dsimp only
      split
      · exact shrinks_pure _
      · split
        · exact shrinks_throw _
        · exact shrinks_decodePint _
  | map =>
      refine advances_decodeType.shrinks.bind fun h => ?_
      dsimp only
      split
      · exact shrinks_pure _
      · split
        · exact shrinks_throw _
        · exact shrinks_decodePint _

theorem Container.length_lt (h : Container kind buf n items) : items.length < 2 ^ 64 := by
  have shorter := shrinks_decodeHeader kind buf n items.flatten h.header
  have few := length_le_flatten items fun x hx => (h.wellFormed x hx).nonempty
  have sized := h.sized
  omega

/-- The iterator reads the header that the kind's own decoder reads. -/
theorem decodeRangeHeader_of_array {buf r : Bytes} {n : UInt64}
    (header : decodeArrayHeader buf = .ok (n, r)) : decodeRangeHeader buf = .ok (n, r) := by
  obtain ⟨⟨major, minor, type⟩, t, first, rest⟩ := bind_eq_ok header
  rw [decodeRangeHeader, bind_of_ok first]
  dsimp only at rest ⊢
  split at rest
  · rw [if_pos ‹_›]
    exact rest
  · rw [if_neg ‹_›]
    split at rest
    · cases rest
    · rename_i array
      obtain rfl : major = 4 := not_not.mp array
      rw [bind_of_ok rest]
      rfl

theorem decodeRangeHeader_of_map {buf r : Bytes} {n : UInt64}
    (header : decodeMapHeader buf = .ok (n, r)) : decodeRangeHeader buf = .ok (n * 2, r) := by
  obtain ⟨⟨major, minor, type⟩, t, first, rest⟩ := bind_eq_ok header
  rw [decodeRangeHeader, bind_of_ok first]
  dsimp only at rest ⊢
  split at rest
  · rw [if_pos ‹_›]
    obtain ⟨rfl, rfl⟩ := Prod.mk.inj (Except.ok.inj rest)
    rfl
  · rw [if_neg ‹_›]
    split at rest
    · cases rest
    · rename_i map
      obtain rfl : major = 5 := not_not.mp map
      rw [bind_of_ok rest]
      rfl

/-- The iterator counts the items of the entries. -/
theorem Container.begin (h : Container kind buf n items) :
    beginIterator buf = .ok ⟨items.flatten, items.length⟩ := by
  have header := h.header
  have counted := h.counted
  have few := h.length_lt
  suffices range : ∃ m : UInt64, decodeRangeHeader buf = .ok (m, items.flatten) ∧
      m.toNat = items.length by
    obtain ⟨m, read, same⟩ := range
    rw [beginIterator, read, ← same]
    rfl
  cases kind with
  | array =>
      refine ⟨n, ?_, by simpa [Kind.items] using counted.symm⟩
      exact decodeRangeHeader_of_array header
  | map =>
      refine ⟨n * 2, ?_, ?_⟩
      · exact decodeRangeHeader_of_map header
      · have twice : items.length = 2 * n.toNat := counted
        rw [UInt64.toNat_mul]
        simp only [UInt64.reduceToNat]
        rw [Nat.mod_eq_of_lt (by omega)]
        omega

theorem Container.rangeFor (h : Container kind buf n items) :
    Cbor.rangeFor buf = .ok (accessors items) := by
  rw [Cbor.rangeFor, h.begin]
  exact rangeLoop_items items h.wellFormed

/-- Pushing an accessor appends its element and everything behind it. -/
theorem toCbor_eq_iff (wellFormed : ∀ x ∈ items, IsItem x) {i : Nat} (hi : i < items.length)
    (buf : Bytes) :
    ValueAccessor.toCbor buf ⟨(items.drop i).flatten⟩ = buf ++ items[i] ↔ i + 1 = items.length := by
  rw [ValueAccessor.toCbor, List.append_cancel_left_eq, List.drop_eq_getElem_cons hi,
    List.flatten_cons]
  constructor
  · intro same
    by_contra more
    have next : i + 1 < items.length := by omega
    have nonempty := (wellFormed items[i + 1] (List.getElem_mem next)).nonempty
    rw [List.drop_eq_getElem_cons next, List.flatten_cons] at same
    have rest : items[i + 1] ++ (items.drop (i + 1 + 1)).flatten = [] :=
      List.append_right_eq_self.mp same
    exact nonempty (List.append_eq_nil_iff.mp rest).1
  · intro last
    rw [List.drop_eq_nil_of_le (by omega)]
    simp

theorem foldl_toCbor (as : List ValueAccessor) (buf : Bytes) :
    as.foldl ValueAccessor.toCbor buf = buf ++ (as.map ValueAccessor.b).flatten := by
  induction as generalizing buf with
  | nil => simp
  | cons a as ih => simp [ih, ValueAccessor.toCbor]

/-- The rest of the container is pushed once for each item. -/
theorem accessors_flatten_eq_iff (wellFormed : ∀ x ∈ items, IsItem x) :
    ((accessors items).map ValueAccessor.b).flatten = items.flatten ↔ items.length ≤ 1 := by
  cases items with
  | nil => simp [accessors]
  | cons x items =>
      cases items with
      | nil => simp [accessors]
      | cons y items =>
          have nonempty := (wellFormed y (by simp)).nonempty
          refine iff_of_false (fun same => ?_) (by simp)
          simp only [accessors, List.map_cons, List.flatten_cons] at same
          have rest := List.append_right_eq_self.mp same
          simp [nonempty] at rest

/-- Iterating yields one accessor for each item, in order, and stops; pushing all
of them behind the header gives the canonical form of the container exactly if
there is at most one, and a pushed accessor is its element exactly if it is the
last. -/
theorem reencoding_identity_iff (h : Container kind buf n items) :
    ∃ as, rangeFor buf = .ok as ∧ as.length = items.length ∧
      (∀ (i : Nat) (hi : i < items.length), ∃ a, as[i]? = some a ∧
        (∃ behind, a.b = items[i] ++ behind) ∧
        ∀ b, a.toCbor b = b ++ items[i] ↔ i + 1 = items.length) ∧
      (as.foldl ValueAccessor.toCbor (kind.pushHeader n) = kind.pushHeader n ++ items.flatten ↔
        items.length ≤ 1) := by
  refine ⟨accessors items, h.rangeFor, accessors_length items, ?_, ?_⟩
  · intro i hi
    refine ⟨_, accessors_getElem? items i hi, ⟨(items.drop (i + 1)).flatten, ?_⟩, ?_⟩
    · rw [List.drop_eq_getElem_cons hi, List.flatten_cons]
    · exact toCbor_eq_iff h.wellFormed hi
  · rw [foldl_toCbor, List.append_cancel_left_eq]
    exact accessors_flatten_eq_iff h.wellFormed

/-- A map of one pair with its header in the wide form: the two accessors are
right, and what is pushed for the key includes the value. -/
theorem reencoding_identity_iff_pair :
    ∃ as, rangeFor [0xb8, 0x01, 0x01, 0x61, 0x61] = .ok as ∧ as.length = 2 ∧
      ∃ a, as[0]? = some a ∧ (a.toCbor [] = [0x01] ↔ 1 = 2) := by
  have container : Container .map [0xb8, 0x01, 0x01, 0x61, 0x61] 1 [[0x01], [0x61, 0x61]] :=
    ⟨rfl, rfl, by
      simp only [List.forall_mem_cons]
      exact ⟨rfl, rfl, by simp⟩, by decide⟩
  obtain ⟨as, loop, two, each, -⟩ := reencoding_identity_iff container
  obtain ⟨a, first, -, pushed⟩ := each 0 (by decide)
  exact ⟨as, loop, two, a, first, pushed []⟩

/-- The array [1, 2] comes back as an array header and the items 1, 2 and 2. -/
theorem reencoding_repeats_rest :
    Container .array [0x82, 0x01, 0x02] 2 [[0x01], [0x02]] ∧
      rangeFor [0x82, 0x01, 0x02] = .ok [⟨[0x01, 0x02]⟩, ⟨[0x02]⟩] ∧
      [⟨[0x01, 0x02]⟩, ⟨[0x02]⟩].foldl ValueAccessor.toCbor (arrayHeader 2) =
        [0x82, 0x01, 0x02, 0x02] ∧
      ValueAccessor.toCbor [] ⟨[0x01, 0x02]⟩ ≠ [0x01] := by
  refine ⟨⟨rfl, rfl, ?_, by decide⟩, rfl, rfl, by decide⟩
  simp only [List.forall_mem_cons]
  exact ⟨rfl, rfl, by simp⟩

end Container

end Thespian.Cbor
