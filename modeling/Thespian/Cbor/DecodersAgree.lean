import Thespian.Cbor.ToJson

/-!
The skipper and the printer as decoders of the same format. The headers of an
item are the initial bytes the skipper meets, with their arguments. On inputs
shorter than 2^63 bytes the printer succeeds exactly on the items whose headers
are all plain: no simple value it does not know and no map that announces 2^63
pairs or more. For such a map the skipper's doubled item count wraps.
-/

namespace Thespian.Cbor
open Decoding Decoding.Decoder

structure ItemHeader where
  type : UInt8
  argument : UInt64
deriving DecidableEq

namespace ItemHeader

/-- Among the simple values the printer knows false, true, null and the floats. -/
def Supported (h : ItemHeader) : Prop :=
  h.type >>> 5 = 7 → h.type = 0xf4 ∨ h.type = 0xf5 ∨ h.type = 0xf6 ∨ isFloatType h.type

def Countable (h : ItemHeader) : Prop :=
  h.type >>> 5 = 5 → h.argument.toNat < 2 ^ 63

def Plain (h : ItemHeader) : Prop := h.Supported ∧ h.Countable

end ItemHeader

def itemHeadersType (itemHeaders : Reader (List ItemHeader)) (major minor type : UInt8) :
    Reader (List ItemHeader) :=
  match major with
  | 0 | 1 => do
      let n ← decodePint minor
      return [⟨type, n⟩]
  | 2 | 3 => do
      let len ← decodePint minor
      repeatN (do let _ ← next tooShort) len.toNat
      return [⟨type, len⟩]
  | 4 => do
      let len ← decodePint minor
      let inner ← collectN itemHeaders len.toNat
      return ⟨type, len⟩ :: inner
  | 5 => do
      let len ← decodePint minor
      let inner ← collectN itemHeaders (len * 2).toNat
      return ⟨type, len⟩ :: inner
  | 6 => throw ⟨text "cbor unsupported type tag"⟩
  | 7 =>
      if minor ≥ 24 then do
        let n ← decodePint minor
        return [⟨type, n⟩]
      else pure [⟨type, 0⟩]
  | _ => throw ⟨text "cbor unsupported type unknown"⟩

def itemHeadersBody (itemHeaders : Unit → Reader (List ItemHeader)) :
    Unit → Reader (List ItemHeader) := fun _ => do
  let (major, minor, type) ← decodeType
  itemHeadersType (itemHeaders ()) major minor type

/-- The walk of skip_value over an item, recording the headers it meets. -/
def itemHeaders : Reader (List ItemHeader) := fix itemHeadersBody ()

theorem shrinks_skipBytes (n : Nat) :
    Shrinks (repeatN (do let _ ← next tooShort) n : Reader Unit) :=
  ((advances_next tooShort).shrinks.bind fun _ => shrinks_pure ()).repeatN n

theorem shrinks_itemHeadersType {walk : Reader (List ItemHeader)} (h : Shrinks walk)
    (major minor type : UInt8) : Shrinks (itemHeadersType walk major minor type) := by
  have argument := shrinks_decodePint minor
  unfold itemHeadersType
  split
  · exact argument.bind fun _ => shrinks_pure _
  · exact argument.bind fun _ => shrinks_pure _
  · exact argument.bind fun _ => (shrinks_skipBytes _).bind fun _ => shrinks_pure _
  · exact argument.bind fun _ => (shrinks_skipBytes _).bind fun _ => shrinks_pure _
  · exact argument.bind fun _ => (h.collectN _).bind fun _ => shrinks_pure _
  · exact argument.bind fun _ => (h.collectN _).bind fun _ => shrinks_pure _
  · exact shrinks_throw _
  · split
    · exact argument.bind fun _ => shrinks_pure _
    · exact shrinks_pure _
  · exact shrinks_throw _

theorem agree_itemHeadersType {n : Nat} {walk walk' : Reader (List ItemHeader)}
    (h : AgreeBelow n walk walk') (hs : Shrinks walk) (major minor type : UInt8) :
    AgreeBelow n (itemHeadersType walk major minor type)
      (itemHeadersType walk' major minor type) := by
  have argument := shrinks_decodePint minor
  unfold itemHeadersType
  split
  case h_5 =>
    exact (AgreeBelow.refl n _).bind argument fun _ =>
      (h.collectN hs _).bind (hs.collectN _) fun _ => .refl n _
  case h_6 =>
    exact (AgreeBelow.refl n _).bind argument fun _ =>
      (h.collectN hs _).bind (hs.collectN _) fun _ => .refl n _
  all_goals exact .refl n _

theorem guarded_itemHeadersBody : Guarded itemHeadersBody where
  shrinks := fun _ hd _ =>
    advances_decodeType.shrinks.bind fun _ => shrinks_itemHeadersType (hd ()) _ _ _
  agree := fun _ _ _ hd _ h _ =>
    .guard advances_decodeType fun _ => agree_itemHeadersType (h ()) (hd ()) _ _ _

theorem itemHeaders_cons (type : UInt8) (s : Bytes) :
    itemHeaders (type :: s) = itemHeadersType itemHeaders (type >>> 5) (type &&& 31) type s := by
  have eq : itemHeaders = itemHeadersBody (fun _ => itemHeaders) () :=
    guarded_itemHeadersBody.fix_eq ()
  rw [congrFun eq (type :: s), itemHeadersBody, bind_of_ok (decodeType_cons type s)]

theorem itemHeaders_nil : itemHeaders [] = .error tooShort := rfl

theorem shrinks_itemHeaders : Shrinks itemHeaders := guarded_itemHeadersBody.fix_shrinks ()

theorem skipValueType_agree {n : Nat} {skip : Reader Unit} {walk : Reader (List ItemHeader)}
    (h : AgreeBelow n skip (do let _ ← walk)) (hw : Shrinks walk) (major minor type : UInt8) :
    AgreeBelow n (skipValueType skip major minor)
      (do let _ ← itemHeadersType walk major minor type) := by
  unfold skipValueType itemHeadersType
  have argument := shrinks_decodePint minor
  split
  · simp only [bind_assoc, pure_bind]
    exact .refl n _
  · simp only [decodeNint, bind_assoc, pure_bind]
    exact .refl n _
  · simp only [skipBytes, skipString, bind_assoc, pure_bind, bind_pure_unit]
    exact .refl n _
  · simp only [skipString, bind_assoc, pure_bind, bind_pure_unit]
    exact .refl n _
  · simp only [bind_assoc, pure_bind]
    exact (AgreeBelow.refl n _).bind argument fun _ => agree_forget_collectN h hw _
  · simp only [bind_assoc, pure_bind]
    exact (AgreeBelow.refl n _).bind argument fun _ => agree_forget_collectN h hw _
  · exact .refl n _
  · split
    · simp only [bind_assoc, pure_bind]
      exact .refl n _
    · intro s _
      rfl
  · intro s _
    simp

theorem skipValue_eq_forget : skipValue = (do let _ ← itemHeaders) := by
  have agree : ∀ n, AgreeBelow n skipValue (do let _ ← itemHeaders) := by
    intro n
    induction n with
    | zero =>
        intro s hs
        omega
    | succ n ih =>
        intro s hs
        cases s with
        | nil => rfl
        | cons type s =>
            have shorter : s.length < n := by simpa using hs
            have step := skipValueType_agree ih shrinks_itemHeaders (type >>> 5) (type &&& 31)
              type s shorter
            rw [skipValue_cons, step, bind_apply, bind_apply, itemHeaders_cons]
  funext s
  exact agree (s.length + 1) s (by omega)

theorem skipValue_eq_ok_iff (s r : Bytes) :
    skipValue s = .ok ((), r) ↔ ∃ hs, itemHeaders s = .ok (hs, r) := by
  rw [skipValue_eq_forget, bind_eq_ok_iff]
  constructor
  · rintro ⟨hs, t, run, rest⟩
    cases rest
    exact ⟨hs, run⟩
  · rintro ⟨hs, run⟩
    exact ⟨hs, r, run, rfl⟩

/-- Over all headers at once: what the printer needs of an item. -/
def AllPlain (hs : List ItemHeader) : Prop := ∀ h ∈ hs, h.Plain

theorem allPlain_append (hs hs' : List ItemHeader) :
    AllPlain (hs ++ hs') ↔ AllPlain hs ∧ AllPlain hs' := by
  simp only [AllPlain, List.mem_append, or_imp, forall_and]

theorem allPlain_cons (h : ItemHeader) (hs : List ItemHeader) :
    AllPlain (h :: hs) ↔ h.Plain ∧ AllPlain hs := by
  simp only [AllPlain, List.mem_cons, or_imp, forall_and, forall_eq]

/-- On inputs below the bound the printer succeeds exactly where the walk meets
plain headers only, and both leave the same rest. -/
def PrintsPlain (n : Nat) (d : Printer Bytes) (walk : Reader (List ItemHeader)) : Prop :=
  ∀ s, s.length < n → ∀ r,
    (∃ out, d s = .ok (out, r)) ↔ ∃ hs, walk s = .ok (hs, r) ∧ AllPlain hs

section PrintsPlain
variable {n : Nat} {walk walk' : Reader (List ItemHeader)}

/-- An item without children, read by the two decoders with the same length. -/
theorem PrintsPlain.of_item {α β : Type} {d : Reader α} {d' : Reader β}
    (same : ∀ s r, (∃ a, d s = .ok (a, r)) ↔ ∃ b, d' s = .ok (b, r)) (ss : Bytes)
    (f : α → Bytes) (g : β → List ItemHeader) (plain : ∀ b, AllPlain (g b)) :
    PrintsPlain n (do return f (← writing ss d)) (do return g (← d')) := by
  intro s _ r
  simp only [bind_eq_ok_iff, writing, mapError_eq_ok, pure_apply, Except.ok.injEq, Prod.mk.injEq]
  constructor
  · rintro ⟨out, a, t, run, rfl, rfl⟩
    obtain ⟨b, read⟩ := (same s t).mp ⟨a, run⟩
    exact ⟨g b, ⟨b, t, read, rfl, rfl⟩, plain b⟩
  · rintro ⟨hs, ⟨b, t, read, rfl, rfl⟩, -⟩
    obtain ⟨a, run⟩ := (same s t).mpr ⟨b, read⟩
    exact ⟨f a, a, t, run, rfl, rfl⟩

theorem PrintsPlain.bind {d : Printer Bytes} {f : Bytes → Printer Bytes}
    (hd : PrintsPlain n d walk) (shrinks : Shrinks walk)
    (hf : ∀ ss, PrintsPlain n (f ss) walk') :
    PrintsPlain n (d >>= f) (do
      let xs ← walk
      let ys ← walk'
      return xs ++ ys) := by
  intro s hs r
  simp only [bind_eq_ok_iff, pure_apply, Except.ok.injEq, Prod.mk.injEq]
  constructor
  · rintro ⟨out, ss, t, head, tail⟩
    obtain ⟨xs, hx, px⟩ := (hd s hs t).mp ⟨ss, head⟩
    have short := Nat.lt_of_le_of_lt (shrinks s xs t hx) hs
    obtain ⟨ys, hy, py⟩ := (hf ss t short r).mp ⟨out, tail⟩
    exact ⟨xs ++ ys, ⟨xs, t, hx, ys, r, hy, rfl, rfl⟩, (allPlain_append xs ys).mpr ⟨px, py⟩⟩
  · rintro ⟨-, ⟨xs, t, hx, ys, u, hy, rfl, rfl⟩, plain⟩
    obtain ⟨px, py⟩ := (allPlain_append xs ys).mp plain
    have short := Nat.lt_of_le_of_lt (shrinks s xs t hx) hs
    obtain ⟨ss, head⟩ := (hd s hs t).mpr ⟨xs, hx, px⟩
    obtain ⟨out, tail⟩ := (hf ss t short u).mpr ⟨ys, hy, py⟩
    exact ⟨out, ss, t, head, tail⟩

theorem PrintsPlain.return {d : Printer Bytes} (hd : PrintsPlain n d walk) (f : Bytes → Bytes) :
    PrintsPlain n (do return f (← d)) walk := by
  intro s hs r
  rw [← hd s hs r]
  simp only [bind_eq_ok_iff, pure_apply, Except.ok.injEq, Prod.mk.injEq]
  constructor
  · rintro ⟨out, ss, t, run, rfl, rfl⟩
    exact ⟨ss, run⟩
  · rintro ⟨ss, run⟩
    exact ⟨f ss, ss, r, run, rfl, rfl⟩

theorem PrintsPlain.countdown {body : Nat → Bytes → Printer Bytes}
    (h : ∀ i ss, PrintsPlain n (body i ss) walk) (shrinks : Shrinks walk) (k : Nat)
    (ss : Bytes) : PrintsPlain n (countdown body k ss) (collectN walk k) := by
  induction k generalizing ss with
  | zero =>
      intro s _ r
      simp [Decoder.countdown, collectN, AllPlain]
  | succ k ih => exact (h k ss).bind shrinks ih

/-- A container: the argument is read by both, its header must be plain. -/
theorem PrintsPlain.container {print : UInt64 → Printer Bytes}
    {inner : UInt64 → Reader (List ItemHeader)} (type minor : UInt8) (ss : Bytes)
    (plain : ∀ len : UInt64, ¬ (ItemHeader.mk type len).Plain →
      ∀ s, s.length < n → ∀ res, print len s ≠ .ok res)
    (h : ∀ len : UInt64, (ItemHeader.mk type len).Plain → PrintsPlain n (print len) (inner len)) :
    PrintsPlain n (do print (← writing ss (decodePint minor))) (do
      let len ← decodePint minor
      let hs ← inner len
      return ⟨type, len⟩ :: hs) := by
  intro s hs r
  simp only [bind_eq_ok_iff, writing, mapError_eq_ok, pure_apply, Except.ok.injEq, Prod.mk.injEq]
  constructor
  · rintro ⟨out, len, t, argument, run⟩
    have short := Nat.lt_of_le_of_lt (shrinks_decodePint minor s len t argument) hs
    have header : (ItemHeader.mk type len).Plain := by
      by_contra odd
      exact plain len odd t short _ run
    obtain ⟨xs, hx, px⟩ := (h len header t short r).mp ⟨out, run⟩
    exact ⟨_, ⟨len, t, argument, xs, r, hx, rfl, rfl⟩, (allPlain_cons _ xs).mpr ⟨header, px⟩⟩
  · rintro ⟨-, ⟨len, t, argument, xs, u, hx, rfl, rfl⟩, all⟩
    have short := Nat.lt_of_le_of_lt (shrinks_decodePint minor s len t argument) hs
    obtain ⟨header, px⟩ := (allPlain_cons _ xs).mp all
    obtain ⟨out, run⟩ := (h len header t short u).mpr ⟨xs, hx, px⟩
    exact ⟨out, len, t, argument, run⟩

end PrintsPlain

theorem plain_of_major {type major : UInt8} (hm : type >>> 5 = major) (h5 : major ≠ 5)
    (h7 : major ≠ 7) (n : UInt64) : (ItemHeader.mk type n).Plain :=
  ⟨fun h => absurd (hm.symm.trans h) h7, fun h => absurd (hm.symm.trans h) h5⟩

theorem plain_map_iff {type : UInt8} (hm : type >>> 5 = 5) (n : UInt64) :
    (ItemHeader.mk type n).Plain ↔ n.toNat < 2 ^ 63 := by
  constructor
  · exact fun h => h.2 hm
  · exact fun h => ⟨fun special => by simp [hm] at special, fun _ => h⟩

theorem plain_special_iff {type : UInt8} (hm : type >>> 5 = 7) (n : UInt64) :
    (ItemHeader.mk type n).Plain ↔
      type = 0xf4 ∨ type = 0xf5 ∨ type = 0xf6 ∨ isFloatType type := by
  constructor
  · exact fun h => h.1 hm
  · exact fun h => ⟨fun _ => h, fun map => by simp [hm] at map⟩

section Agree
variable (toChars : Float → Bytes)

theorem printsPlain_string {n : Nat} {type major : UInt8} (hm : type >>> 5 = major)
    (h5 : major ≠ 5) (h7 : major ≠ 7) (minor : UInt8) (ss : Bytes) :
    PrintsPlain n (do return ss ++ toJsonString (← writing ss (decodeString minor))) (do
      let len ← decodePint minor
      repeatN (do let _ ← next tooShort) len.toNat
      return [⟨type, len⟩]) := by
  intro s _ r
  simp only [repeatN_next, decodeString, bind_assoc, pure_bind, bind_eq_ok_iff, writing,
    mapError_eq_ok, pure_apply, Except.ok.injEq, Prod.mk.injEq]
  constructor
  · rintro ⟨-, v, u, ⟨len, t, argument, content⟩, rfl, rfl⟩
    refine ⟨_, ⟨len, t, argument, v, u, content, rfl, rfl⟩, ?_⟩
    simp [AllPlain, plain_of_major hm h5 h7]
  · rintro ⟨-, ⟨len, t, argument, v, u, content, rfl, rfl⟩, -⟩
    exact ⟨_, v, u, ⟨len, t, argument, content⟩, rfl, rfl⟩

theorem succeeds_return_iff {α β : Type} (d : Reader α) (f : α → β) (s r : Bytes) :
    (∃ b, (do return f (← d) : Reader β) s = .ok (b, r)) ↔ ∃ a, d s = .ok (a, r) := by
  simp only [bind_eq_ok_iff, pure_apply, Except.ok.injEq, Prod.mk.injEq]
  constructor
  · rintro ⟨-, a, t, run, rfl, rfl⟩
    exact ⟨a, run⟩
  · rintro ⟨a, run⟩
    exact ⟨f a, a, r, run, rfl, rfl⟩

theorem decodeFloat_succeeds_iff {type : UInt8} (float : isFloatType type) (s r : Bytes) :
    (∃ v, decodeFloat type s = .ok (v, r)) ↔ ∃ n, decodePint (type &&& 31) s = .ok (n, r) := by
  simp only [isFloatType, Bool.or_eq_true, decide_eq_true_eq] at float
  rcases float with (rfl | rfl) | rfl
  · exact succeeds_return_iff (decodeIntLength 2) _ s r
  · exact succeeds_return_iff (decodeIntLength 4) _ s r
  · exact succeeds_return_iff (decodeIntLength 8) _ s r

theorem printsPlain_special {n : Nat} {type : UInt8} (hm : type >>> 5 = 7) (ss : Bytes) :
    PrintsPlain n (toJsonSpecial toChars type ss)
      (if type &&& 31 ≥ 24 then do
        let n ← decodePint (type &&& 31)
        return [⟨type, n⟩]
      else pure [⟨type, 0⟩]) := by
  intro s hs r
  by_cases keyword : type = 0xf4 ∨ type = 0xf5 ∨ type = 0xf6
  · have plain : AllPlain [⟨type, 0⟩] := by
      simp only [AllPlain, List.mem_singleton, forall_eq, plain_special_iff hm]
      tauto
    have short : ¬ type &&& 31 ≥ 24 := by
      rcases keyword with rfl | rfl | rfl <;> decide
    rw [if_neg short, toJsonSpecial]
    rcases keyword with rfl | rfl | rfl <;> simp [plain]
  · have plain (k : UInt64) : AllPlain [⟨type, k⟩] ↔ isFloatType type = true := by
      simp only [AllPlain, List.mem_singleton, forall_eq, plain_special_iff hm]
      tauto
    simp only [not_or] at keyword
    rw [toJsonSpecial, if_neg keyword.1, if_neg keyword.2.1, if_neg keyword.2.2]
    by_cases float : isFloatType type
    · have long : type &&& 31 ≥ 24 := by
        simp only [isFloatType, Bool.or_eq_true, decide_eq_true_eq] at float
        rcases float with (rfl | rfl) | rfl <;> decide
      rw [if_pos float, if_pos long]
      exact PrintsPlain.of_item (decodeFloat_succeeds_iff float) ss _ _
        (fun k => (plain k).mpr float) s hs r
    · rw [if_neg float]
      refine iff_of_false (by simp) ?_
      rintro ⟨hs, run, all⟩
      have header : ∃ k, hs = [⟨type, k⟩] := by
        split at run
        · obtain ⟨k, t, -, rest⟩ := bind_eq_ok run
          cases rest
          exact ⟨k, rfl⟩
        · cases run
          exact ⟨0, rfl⟩
      obtain ⟨k, rfl⟩ := header
      exact float ((plain k).mp all)

theorem printsPlain_toJsonType {n : Nat} (hn : n ≤ 2 ^ 63) {print : Bytes → Printer Bytes}
    {walk : Reader (List ItemHeader)} (h : ∀ ss, PrintsPlain n (print ss) walk)
    (advances : ∀ ss, Advances (print ss)) (shrinks : Shrinks walk) (type : UInt8) (ss : Bytes) :
    PrintsPlain n (toJsonType toChars print (type >>> 5) (type &&& 31) type ss)
      (itemHeadersType walk (type >>> 5) (type &&& 31) type) := by
  generalize hm : type >>> 5 = major
  unfold toJsonType itemHeadersType
  split
  · exact .of_item (fun _ _ => Iff.rfl) ss _ _ fun n => by simp [AllPlain, plain_of_major hm]
  · exact .of_item (succeeds_return_iff _ _) ss _ _ fun n => by
      simp [AllPlain, plain_of_major hm]
  · exact printsPlain_string hm (by decide) (by decide) _ ss
  · exact printsPlain_string hm (by decide) (by decide) _ ss
  · have plain (len : UInt64) : (ItemHeader.mk type len).Plain :=
      plain_of_major hm (by decide) (by decide) len
    refine PrintsPlain.container type _ ss (fun len odd => absurd (plain len) odd) fun len _ => ?_
    refine PrintsPlain.return (PrintsPlain.countdown (fun i ss => ?_) shrinks _ _) _
    exact (h ss).return _
  · refine PrintsPlain.container type _ ss (fun len odd s hs res run => ?_) fun len plain => ?_
    · have pairs (i : Nat) (ss : Bytes) : Advances (do
          let ss ← print ss
          let ss ← print (ss ++ text ":")
          return if i ≠ 0 then ss ++ text "," else ss) :=
        (advances ss).bind fun _ => (advances _).shrinks.bind fun _ => shrinks_pure _
      obtain ⟨out, t, loop, -⟩ := bind_eq_ok run
      have used := countdown_length pairs loop
      rw [plain_map_iff hm] at odd
      omega
    · have count : (len * 2).toNat = 2 * len.toNat := by
        have small := (plain_map_iff hm len).mp plain
        have two : (2 : UInt64).toNat = 2 := rfl
        rw [UInt64.toNat_mul, two]
        omega
      rw [count, ← collectN_pairs]
      refine PrintsPlain.return (PrintsPlain.countdown (fun i ss => ?_) ?_ _ _) _
      · exact (h ss).bind shrinks fun ss => (h _).return _
      · exact shrinks.bind fun _ => shrinks.bind fun _ => shrinks_pure _
  · intro s _ r
    simp
  · exact printsPlain_special toChars hm ss
  · intro s _ r
    simp

theorem printsPlain_toJsonStream (n : Nat) (hn : n ≤ 2 ^ 63) (ss : Bytes) :
    PrintsPlain n (toJsonStream toChars ss) itemHeaders := by
  induction n generalizing ss with
  | zero =>
      intro s hs
      omega
  | succ n ih =>
      intro s hs r
      cases s with
      | nil => simp [toJsonStream_nil, itemHeaders_nil]
      | cons type s =>
          have shorter : s.length < n := by simpa using hs
          rw [toJsonStream_cons, itemHeaders_cons]
          exact printsPlain_toJsonType toChars (by omega) (fun ss => ih (by omega) ss)
            (advances_toJsonStream toChars) shrinks_itemHeaders type ss s shorter r

/-- The agreement of the two decoders on one input: what the printer accepts is
skipped alike, and a skipped item with supported simple values only is printed. -/
def DecodersAgree (s : Bytes) : Prop :=
  ∀ ss r,
    (∀ out, toJsonStream toChars ss s = .ok (out, r) → skipValue s = .ok ((), r)) ∧
    (skipValue s = .ok ((), r) →
      (∀ hs, itemHeaders s = .ok (hs, r) → ∀ h ∈ hs, h.Supported) →
      ∃ out, toJsonStream toChars ss s = .ok (out, r))

/-- The decoders agree unless the item, with supported simple values only, holds
a map that announces 2^63 pairs or more. -/
theorem decodersAgree_iff (s : Bytes) (bound : s.length < 2 ^ 63) :
    DecodersAgree toChars s ↔
      ∀ hs r, itemHeaders s = .ok (hs, r) → (∀ h ∈ hs, h.Supported) →
        ∀ h ∈ hs, h.Countable := by
  have prints (ss : Bytes) := printsPlain_toJsonStream toChars (2 ^ 63) (Nat.le_refl _) ss s bound
  constructor
  · intro agree hs r walk supported h mem
    have skipped := (skipValue_eq_ok_iff s r).mpr ⟨hs, walk⟩
    obtain ⟨out, run⟩ := (agree [] r).2 skipped fun hs' walk' => by
      rw [walk] at walk'
      cases walk'
      exact supported
    obtain ⟨hs', walk', plain⟩ := (prints [] r).mp ⟨out, run⟩
    rw [walk] at walk'
    cases walk'
    exact (plain h mem).2
  · intro countable ss r
    constructor
    · intro out run
      obtain ⟨hs, walk, -⟩ := (prints ss r).mp ⟨out, run⟩
      exact (skipValue_eq_ok_iff s r).mpr ⟨hs, walk⟩
    · intro skipped supported
      obtain ⟨hs, walk⟩ := (skipValue_eq_ok_iff s r).mp skipped
      have known := supported hs walk
      exact (prints ss r).mpr
        ⟨hs, walk, fun h mem => ⟨known h mem, countable hs r walk known h mem⟩⟩

theorem decodersAgree_iff_nested :
    DecodersAgree (fun _ => text "0.5") [0x82, 0xa1, 0x61, 0x61, 0xf4, 0xf6] := by
  refine (decodersAgree_iff _ _ (by decide)).mpr ?_
  intro hs r walk supported h mem
  have run : itemHeaders [0x82, 0xa1, 0x61, 0x61, 0xf4, 0xf6] =
      .ok ([⟨0x82, 2⟩, ⟨0xa1, 1⟩, ⟨0x61, 1⟩, ⟨0xf4, 0⟩, ⟨0xf6, 0⟩], []) := by decide
  rw [run] at walk
  cases walk
  simp only [List.mem_cons, List.not_mem_nil, or_false] at mem
  rcases mem with rfl | rfl | rfl | rfl | rfl <;> intro map <;> revert map <;> decide

/-- A map header that announces 2^63 pairs: its nine bytes are skipped as an empty
map, while the printer asks for the first key. -/
theorem decoders_disagree :
    ¬ DecodersAgree (fun _ => text "0.5") [0xbb, 0x80, 0, 0, 0, 0, 0, 0, 0] := by
  intro agree
  have skipped : skipValue [0xbb, 0x80, 0, 0, 0, 0, 0, 0, 0] = .ok ((), []) := by decide
  have walk : itemHeaders [0xbb, 0x80, 0, 0, 0, 0, 0, 0, 0] =
      .ok ([⟨0xbb, 0x8000000000000000⟩], []) := by decide
  have supported : ∀ hs, itemHeaders [0xbb, 0x80, 0, 0, 0, 0, 0, 0, 0] = .ok (hs, []) →
      ∀ h ∈ hs, h.Supported := by
    intro hs run h mem
    rw [walk] at run
    cases run
    cases List.mem_singleton.mp mem
    intro special
    revert special
    decide
  obtain ⟨out, printed⟩ := (agree [] []).2 skipped supported
  have failed : toJsonStream (fun _ => text "0.5") [] [0xbb, 0x80, 0, 0, 0, 0, 0, 0, 0] =
      .error (tooShort, [123]) := by rfl
  rw [failed] at printed
  cases printed

end Agree

end Thespian.Cbor
