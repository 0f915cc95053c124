import Thespian.Cbor.JsonBuffer
import Thespian.Cbor.JsonReading

/-!
The texts of JSON values after the grammar: blanks around every token, the
characters of a string raw or behind a backslash, an integer without fraction and
exponent, one text for each but zero, which may have a sign. The parser takes all of
them, and what it pushes depends on the value only.
-/

namespace Thespian.Cbor.Json
open Decoding Decoding.Decoder

/-- The escapes of one letter and the characters they stand for. -/
def escapes : List (UInt8 × UInt8) :=
  [(34, 34), (92, 92), (47, 47), (98, 8), (102, 12), (110, 10), (114, 13), (116, 9)]

inductive CharText : UInt8 → Bytes → Prop
  | raw {c : UInt8} : 32 ≤ c → c ≠ 34 → c ≠ 92 → CharText c [c]
  | escaped {letter c : UInt8} : (letter, c) ∈ escapes → CharText c [92, letter]

inductive StringText : Bytes → Bytes → Prop
  | nil : StringText [] []
  | cons {c : UInt8} {u s t : Bytes} :
      CharText c u → StringText s t → StringText (c :: s) (u ++ t)

/-- The digits of a number, without a leading zero. -/
inductive Numeral : Nat → Bytes → Prop
  | digit {d : Nat} : d < 10 → Numeral d [digit d]
  | next {n d : Nat} {t : Bytes} :
      0 < n → d < 10 → Numeral n t → Numeral (10 * n + d) (t ++ [Cbor.digit d])

inductive IntegerText : Int → Bytes → Prop
  | positive {n : Nat} {t : Bytes} : Numeral n t → IntegerText n t
  | negative {n : Nat} {t : Bytes} : Numeral n t → IntegerText (-n) (45 :: t)

/-- The blanks of the grammar. -/
def Whitespace (w : Bytes) : Prop := ∀ c ∈ w, c = 32 ∨ c = 9 ∨ c = 10 ∨ c = 13

mutual
inductive Renders : Value → Bytes → Prop
  | null : Renders .null (text "null")
  | bool (b : Bool) : Renders (.bool b) (text (if b then "true" else "false"))
  | int {i : Int64} {t : Bytes} : IntegerText i.toInt t → Renders (.int i) t
  | string {s t : Bytes} : StringText s t → Renders (.string s) (34 :: (t ++ [34]))
  | emptyArray {w : Bytes} : Whitespace w → Renders (.array []) (91 :: (w ++ [93]))
  | array {items : List Value} {t : Bytes} :
      RendersItems items t → Renders (.array items) (91 :: (t ++ [93]))
  | emptyMap {w : Bytes} : Whitespace w → Renders (.map []) (123 :: (w ++ [125]))
  | map {pairs : List (Value × Value)} {t : Bytes} :
      RendersPairs pairs t → Renders (.map pairs) (123 :: (t ++ [125]))
inductive RendersItems : List Value → Bytes → Prop
  | last {v : Value} {w t w' : Bytes} :
      Whitespace w → Renders v t → Whitespace w' → RendersItems [v] (w ++ (t ++ w'))
  | cons {v : Value} {items : List Value} {w t w' t' : Bytes} :
      Whitespace w → Renders v t → Whitespace w' → RendersItems items t' →
      RendersItems (v :: items) (w ++ (t ++ (w' ++ 44 :: t')))
inductive RendersPairs : List (Value × Value) → Bytes → Prop
  | last {key : Bytes} {v : Value} {w t w' u t' u' : Bytes} :
      Whitespace w → StringText key t → Whitespace w' → Whitespace u → Renders v t' → Whitespace u' →
      RendersPairs [(.string key, v)]
        (w ++ (34 :: (t ++ [34]) ++ (w' ++ 58 :: (u ++ (t' ++ u')))))
  | cons {key : Bytes} {v : Value} {pairs : List (Value × Value)}
      {w t w' u t' u' rest : Bytes} :
      Whitespace w → StringText key t → Whitespace w' → Whitespace u → Renders v t' → Whitespace u' →
      RendersPairs pairs rest →
      RendersPairs ((.string key, v) :: pairs)
        (w ++ (34 :: (t ++ [34]) ++ (w' ++ 58 :: (u ++ (t' ++ (u' ++ 44 :: rest))))))
end

/-- A whole text of the value. -/
def RenderedAs (v : Value) (s : Bytes) : Prop :=
  ∃ w t w', Whitespace w ∧ Renders v t ∧ Whitespace w' ∧ s = w ++ (t ++ w')

theorem Whitespace.blank {w : Bytes} (h : Whitespace w) : Blank w := by
  intro c hc
  rcases h c hc with rfl | rfl | rfl | rfl <;> rfl

theorem unescape_escapes : ∀ e ∈ escapes, unescape e.1 = e.2 := by
  simp [escapes, unescape]

theorem StringText.written {s t : Bytes} (h : StringText s t) : Written s t := by
  induction h with
  | nil => exact .nil
  | cons char _ ih =>
      cases char with
      | raw _ quote escape => exact .raw escape quote ih
      | @escaped letter _ mem =>
          have stands : unescape letter = _ := unescape_escapes _ mem
          subst stands
          exact .escaped letter ih

theorem decimal_digit {d : Nat} (h : d < 10) : decimal d = [digit d] := by
  have all : ∀ d : Fin 10, decimal d.val = [digit d.val] := by decide
  exact all ⟨d, h⟩

theorem decimal_next {n d : Nat} (hn : 0 < n) (hd : d < 10) :
    decimal (10 * n + d) = decimal n ++ [digit d] := by
  have digits : Nat.digits 10 (d + 10 * n) = d :: Nat.digits 10 n :=
    Nat.digits_add 10 (by decide) d n hd (.inr (by omega))
  rw [decimal, decimal, if_neg (by omega), if_neg (by omega), Nat.add_comm, digits]
  simp

theorem Numeral.eq_decimal {n : Nat} {t : Bytes} (h : Numeral n t) : t = decimal n := by
  induction h with
  | digit hd => exact (decimal_digit hd).symm
  | next hn hd _ ih => rw [ih, decimal_next hn hd]

theorem IntegerText.eq_signedText {i : Int} {t : Bytes} (h : IntegerText i t) :
    ∃ negative n, i = signedNumber negative n ∧ t = signedText negative n := by
  cases h with
  | @positive n t numeral => exact ⟨false, n, rfl, numeral.eq_decimal⟩
  | @negative n t numeral => exact ⟨true, n, rfl, by rw [numeral.eq_decimal]; rfl⟩

section Reading
variable (fromChars : Bytes → Option Float)

theorem readsAs_integer {i : Int64} {t : Bytes} (h : IntegerText i.toInt t) :
    ReadsAs (pushJsonValue fromChars) t (pushInt i) := by
  obtain ⟨negative, n, value, rfl⟩ := h.eq_signedText
  have low := i.le_toInt
  have high := i.toInt_lt
  rw [value] at low high
  have number := readsAs_number fromChars low high
  rw [← value, Int64.ofInt_toInt] at number
  exact number

theorem readsAs_rendered {v : Value} {t : Bytes} (h : Renders v t) :
    ReadsAs (pushJsonValue fromChars) t (encode v) := by
  refine @Renders.rec (fun v t _ => ReadsAs (pushJsonValue fromChars) t (encode v))
    (fun items t _ => ItemsRead fromChars items t) (fun pairs t _ => PairsRead fromChars pairs t)
    (readsAs_null fromChars) (readsAs_bool fromChars) (readsAs_integer fromChars) ?_ ?_ ?_ ?_ ?_
    ?_ ?_ ?_ ?_ v t h
  · intro s t string
    exact readsAs_string fromChars string.written
  · intro w hw
    exact readsAs_array_empty hw.blank
  · intro items t _ elements
    exact readsAs_items fromChars elements
  · intro w hw
    exact readsAs_map_empty hw.blank
  · intro pairs t _ elements
    exact readsAs_pairs fromChars elements
  · intro v w t w' hw _ hw' ih
    exact itemsRead_last fromChars hw.blank ih hw'.blank
  · intro v items w t w' t' hw _ hw' _ ih others
    exact itemsRead_cons fromChars hw.blank ih hw'.blank others
  · intro key v w t w' u t' u' hw string hw' hu _ hu' ih
    have name := readsAs_string fromChars string.written
    exact pairsRead_last fromChars hw.blank name hw'.blank hu.blank ih hu'.blank
  · intro key v pairs w t w' u t' u' rest hw string hw' hu _ hu' _ ih others
    have name := readsAs_string fromChars string.written
    exact pairsRead_cons fromChars hw.blank name hw'.blank hu.blank ih hu'.blank others

/-- Every text of a value is accepted and appends the encoding of the value. -/
theorem pushJson_rendered (buf : Bytes) {v : Value} {s : Bytes} (h : RenderedAs v s) :
    Buffered.pushJson fromChars buf s = (.ok (), buf ++ encode v) := by
  obtain ⟨w, t, w', hw, rendered, hw', rfl⟩ := h
  have read := readsAs_rendered fromChars rendered
  obtain ⟨c, u, rfl, wsp, -⟩ := read.opens
  have ends : NumberEnds (w' ++ []) := numberEnds_blank hw'.blank (by intro c hc; cases hc)
  rw [List.append_nil] at ends
  have value : pushJsonValue fromChars (w ++ (c :: u ++ w')) = .ok (encode v, w') := by
    rw [List.cons_append, pushJsonValue_blank fromChars hw.blank wsp,
      ← pushJsonValue_cons fromChars wsp]
    exact read.reads w' ends
  rw [Buffered.pushJson_eq, pushJson, value]

end Reading

/-- The text `{ "\\/":[-0 ,"\\nx"]}` behind a blank. -/
theorem pushJson_rendered_blanks :
    Buffered.pushJson (fun _ => none) [246] (text " \x7b \"\\/\":[-0 ,\"\\nx\"]\x7d") =
      (.ok (), [246] ++
        encode (.map [(.string (text "/"), .array [.int 0, .string (text "\nx")])])) := by
  have nothing : Whitespace [] := by simp [Whitespace]
  have space : Whitespace [32] := by simp [Whitespace]
  have slash : StringText [47] [92, 47] := .cons (.escaped (by decide)) .nil
  have line : StringText [10, 120] [92, 110, 120] :=
    .cons (.escaped (by decide)) (.cons (.raw (by decide) (by decide) (by decide)) .nil)
  have negative : IntegerText (-(0 : Nat)) [45, digit 0] := .negative (.digit (by decide))
  have zero : Renders (.int 0) [45, 48] := .int negative
  have items : RendersItems [.int 0, .string [10, 120]] _ :=
    .cons nothing zero space (.last nothing (.string line) nothing)
  have whole : Renders (.map [(.string [47], .array [.int 0, .string [10, 120]])]) _ :=
    .map (.last space slash nothing nothing (.array items) nothing)
  exact pushJson_rendered (fun _ => none) [246] ⟨[32], _, [], space, whole, nothing, rfl⟩

end Thespian.Cbor.Json
