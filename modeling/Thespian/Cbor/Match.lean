import Thespian.Cbor.Extract
import Mathlib.Data.List.Forall2

/-!
The message matcher. A parameter pack is never empty, so patterns come in
non-empty sequences. All nesting levels share one iterator; the variables
written by extractors are recorded in the order of the writes.

The reference semantics is stated on value trees and knows neither iterators nor
element counts. Whenever the matcher returns, its answer is the reference answer
and a match has consumed exactly the encoding it was started on.
-/

namespace Thespian.Cbor
open Decoding Decoding.Decoder

mutual
inductive Pattern where
  | int (lit : Int64)
  | uint (lit : UInt64)
  | bool (lit : Bool)
  | string (lit : Bytes)
  | type (t : CborType)
  | extract (ex : Extractor) (var : Nat)
  | A (parms : Patterns)
  | M (parms : Patterns)
inductive Patterns where
  | last (p : Pattern)
  | cons (p : Pattern) (parms : Patterns)
end

abbrev Writes := List (Nat × Bound)

def isMore : Pattern → Bool
  | .type .more => true
  | _ => false

/-- The loop of match_next over the elements left for a trailing more. -/
def matchMore : Nat → Reader Bool
  | 0 => pure true
  | n + 1 => do
      if !(← matchValueType .any) then
        return false
      matchMore n

def matchLiteral {α : Type} [DecidableEq α] (d : Reader (Option α)) (lit : α) :
    Reader (Bool × Writes) := do
  match ← d with
  | some val => return (val = lit, [])
  | none => return (false, [])

mutual
def matchValue : Pattern → Reader (Bool × Writes)
  | .int lit => matchLiteral matchInt lit
  | .uint lit => matchLiteral matchUint lit
  | .bool lit => matchLiteral matchBool lit
  | .string lit => matchLiteral matchString lit
  | .type t => do return (← matchValueType t, [])
  | .extract ex var => do
      match ← extract ex with
      | some val => return (true, [(var, val)])
      | none => return (false, [])
  | .A parms => do
      let n ← decodeArrayHeader
      matchNext parms n.toNat
  | .M parms => do
      let n ← decodeMapHeader
      let n := n * 2
      matchNext parms n.toNat
def matchNext : Patterns → Nat → Reader (Bool × Writes)
  | .last p, n =>
      if isMore p then do
        return (← matchMore n, [])
      else if n = 0 then
        pure (false, [])
      else do
        let (matched, writes) ← matchValue p
        if !matched then
          return (false, writes)
        return (n = 1, writes)
  | .cons p parms, n =>
      if n = 0 then
        pure (false, [])
      else do
        let (matched, writes) ← matchValue p
        if !matched then
          return (false, writes)
        let (matched, more) ← matchNext parms (n - 1)
        return (matched, writes ++ more)
end

def matchArray (parms : Patterns) : Reader (Bool × Writes) := do
  let n ← decodeArrayHeader
  matchNext parms n.toNat

/-- `buffer::operator()` with the variables its extractors have written. -/
def matchBuffer (buf : Bytes) (parms : Patterns) : Except DomainError (Bool × Writes) :=
  (matchArray parms buf).map Prod.fst

namespace Value

def integer? : Value → Option Int
  | .int i => some i.toInt
  | .uint n => some (n.toNat : Int)
  | _ => none

def bool? : Value → Option Bool
  | .bool b => some b
  | _ => none

def string? : Value → Option Bytes
  | .string s => some s
  | _ => none

/-- Integers convert to double as the sign of their encoding says. -/
def number? : Value → Option Float
  | .int i => some (if i < 0 then i.toFloat else i.toUInt64.toFloat)
  | .uint n => some n.toFloat
  | .float bits => some (Float32.ofBits bits).toFloat
  | .double bits => some (Float.ofBits bits)
  | _ => none

/-- The children matched by a nested array pattern; null counts as empty. -/
def arrayItems? : Value → Option (List Value)
  | .array items => some items
  | .null => some []
  | _ => none

def mapItems? : Value → Option (List Value)
  | .map pairs => some (pairItems pairs)
  | .null => some []
  | _ => none

end Value

/-- The value an extractor binds at an element, if it accepts the element. -/
def Extractor.bind? : Extractor → Value → Option Bound
  | .type, v => some (.type v.type)
  | .int T, v => (v.integer?.filter fun i => T.min ≤ i ∧ i ≤ T.max).map .int
  | .bool, v => v.bool?.map .bool
  | .double, v => v.number?.map .double
  | .float, v => v.number?.map fun d => .float d.toFloat32
  | .string, v => v.string?.map .string
  | .range, v =>
      if v.type = .null ∨ v.type = .array ∨ v.type = .map then some (.range (encode v)) else none

mutual
def Pattern.Matches : Pattern → Value → Prop
  | .int lit, v => v.integer? = some lit.toInt
  | .uint lit, v => v.integer? = some (lit.toNat : Int)
  | .bool lit, v => v.bool? = some lit
  | .string lit, v => v.string? = some lit
  | .type t, v => t = .any ∨ t = v.type
  | .extract ex _, v => (ex.bind? v).isSome
  | .A parms, v =>
      match v.arrayItems? with
      | some items => parms.Matches items
      | none => False
  | .M parms, v =>
      match v.mapItems? with
      | some items => parms.Matches items
      | none => False
def Patterns.Matches : Patterns → List Value → Prop
  | .last p, vs =>
      match vs with
      | [v] => isMore p ∨ p.Matches v
      | _ => isMore p
  | .cons p parms, vs =>
      match vs with
      | v :: vs => p.Matches v ∧ parms.Matches vs
      | [] => False
end

mutual
/-- What the extractors of a matching pattern are bound to, left to right. -/
def Pattern.bindings : Pattern → Value → Writes
  | .extract ex var, v =>
      match ex.bind? v with
      | some val => [(var, val)]
      | none => []
  | .A parms, v => parms.bindings (v.arrayItems?.getD [])
  | .M parms, v => parms.bindings (v.mapItems?.getD [])
  | _, _ => []
def Patterns.bindings : Patterns → List Value → Writes
  | .last p, vs =>
      match vs with
      | [v] => p.bindings v
      | _ => []
  | .cons p parms, vs =>
      match vs with
      | v :: vs => p.bindings v ++ parms.bindings vs
      | [] => []
end

def Patterns.toList : Patterns → List Pattern
  | .last p => [p]
  | .cons p parms => p :: parms.toList

def Patterns.endsInMore : Patterns → Bool
  | .last p => isMore p
  | .cons _ parms => parms.endsInMore

/-- The rule of the matcher by positions: without a trailing more each pattern
matches the value at its position and there are no others; with one, the
patterns before it match the first values. -/
def Patterns.MatchesByPosition (parms : Patterns) (vs : List Value) : Prop :=
  if parms.endsInMore then
    ∃ matched rest, vs = matched ++ rest ∧
      List.Forall₂ Pattern.Matches parms.toList.dropLast matched
  else List.Forall₂ Pattern.Matches parms.toList vs

theorem not_matches_more (v : Value) : ¬ (Pattern.type .more).Matches v := by
  cases v <;> simp [Pattern.Matches, Value.type]

theorem isMore_iff (p : Pattern) : isMore p = true ↔ p = .type .more := by
  cases p with
  | type t => cases t <;> simp [isMore]
  | int _ | uint _ | bool _ | string _ | extract _ _ | A _ | M _ => simp [isMore]

theorem matches_iff_byPosition (parms : Patterns) (vs : List Value) :
    parms.Matches vs ↔ parms.MatchesByPosition vs := by
  match parms with
  | .last p =>
      unfold Patterns.Matches Patterns.MatchesByPosition
      simp only [Patterns.endsInMore, Patterns.toList, List.dropLast_singleton]
      cases h : isMore p with
      | true =>
          have trivial : ∃ matched rest, vs = matched ++ rest ∧
              List.Forall₂ Pattern.Matches [] matched := ⟨[], vs, rfl, .nil⟩
          simp only [true_or, if_true, iff_true_intro trivial, iff_true]
          split <;> trivial
      | false =>
          simp only [Bool.false_eq_true, false_or, if_false]
          split
          · simp
          · rename_i single
            refine iff_of_false id fun all => ?_
            obtain ⟨v, tail, -, done, rfl⟩ := List.forall₂_cons_left_iff.mp all
            cases done
            exact single v rfl
  | .cons p parms =>
      have ih := matches_iff_byPosition parms
      have nonempty : parms.toList ≠ [] := by cases parms <;> simp [Patterns.toList]
      unfold Patterns.Matches Patterns.MatchesByPosition
      simp only [Patterns.endsInMore, Patterns.toList, List.dropLast_cons_of_ne_nil nonempty]
      cases vs with
      | nil => cases parms.endsInMore <;> simp
      | cons v vs =>
          dsimp only
          rw [ih vs, Patterns.MatchesByPosition]
          cases parms.endsInMore with
          | false => simp [List.forall₂_cons]
          | true =>
              simp only [if_true]
              constructor
              · rintro ⟨head, matched, rest, rfl, tail⟩
                exact ⟨v :: matched, rest, rfl, .cons head tail⟩
              · rintro ⟨matched, rest, eq, all⟩
                obtain ⟨u, tail, head, htail, rfl⟩ := List.forall₂_cons_left_iff.mp all
                obtain ⟨rfl, rfl⟩ := List.cons.inj eq
                exact ⟨head, tail, rest, rfl, htail⟩

end Thespian.Cbor
