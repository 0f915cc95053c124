import Thespian.Cbor.PushJson
import Thespian.Cbor.SelfDelimiting

/-!
The JSON parser with the buffers it pushes to. A parser returns the buffer it has
pushed to, or fails with the buffer and the text as it leaves them. Scalars are
pushed as the last thing before a parser returns true; the elements of a
container are pushed to an inner buffer, which is appended behind its header at
the closing bracket and dropped on failure. So the buffer of a parser that fails
is the buffer it was given, and the parser above says what it is otherwise.
-/

namespace Thespian.Cbor.Json
open Decoding Decoding.Decoder

/-- What fails leaves a buffer and a text. -/
abbrev Pusher := Decoder (Bytes × Bytes) UInt8

/-- A part of a parser that does not touch the buffer. -/
def keeping {α : Type} (buf : Bytes) (d : Parser α) : Pusher α :=
  mapError (fun rest => (buf, rest)) d

/-- A parser that pushes its value before it returns true. -/
def pushed (buf : Bytes) (d : Parser Bytes) : Pusher Bytes := do
  let value ← keeping buf d
  return buf ++ value

/-- A call with the inner buffer, which does not outlive a failure of the caller. -/
def within {α : Type} (buf : Bytes) (d : Pusher α) : Pusher α :=
  mapError (fun left => (buf, left.2)) d

namespace Buffered

section Parser
variable (fromChars : Bytes → Option Float)

def containerRound (separators : List UInt8) (closing : UInt8)
    (finish : Bytes → Nat → Option Bytes) (pushJsonValue : Bytes → Pusher Bytes) (buf : Bytes) :
    Bytes × Nat → Pusher ((Bytes × Nat) ⊕ Bytes) := fun (inner, count) => do
  keeping buf skipWsp
  match ← keeping buf peek with
  | none => keeping buf fail
  | some c =>
      if c ∈ separators then
        keeping buf (expectChar c)
        keeping buf skipWsp
        return .inl (inner, count)
      else if c = closing then
        keeping buf (expectChar c)
        match finish inner count with
        | some value => return .inr (buf ++ value)
        | none => keeping buf fail
      else
        let inner ← within buf (pushJsonValue inner)
        return .inl (inner, count + 1)

def pushJsonContainer (opening : UInt8) (separators : List UInt8) (closing : UInt8)
    (empty : Bytes) (finish : Bytes → Nat → Option Bytes) (pushJsonValue : Bytes → Pusher Bytes)
    (buf : Bytes) : Pusher Bytes := do
  keeping buf (expectChar opening)
  keeping buf skipWsp
  if ← keeping buf (matchChar closing) then
    return buf ++ empty
  let inner ← within buf (pushJsonValue [])
  loop (containerRound separators closing finish pushJsonValue buf) (inner, 1)

def pushJsonArray (pushJsonValue : Bytes → Pusher Bytes) (buf : Bytes) : Pusher Bytes :=
  pushJsonContainer 91 [44] 93 (arrayHeader 0) finishArray pushJsonValue buf

def pushJsonMap (pushJsonValue : Bytes → Pusher Bytes) (buf : Bytes) : Pusher Bytes :=
  pushJsonContainer 123 [58, 44] 125 (mapHeader 0) finishMap pushJsonValue buf

def pushJsonCase (pushJsonValue : Bytes → Pusher Bytes) (c : UInt8) (buf : Bytes) : Pusher Bytes :=
  if isDigit c || c = 45 then pushed buf (pushJsonNumber fromChars)
  else if 97 ≤ c && c ≤ 122 then pushed buf pushJsonKeyword
  else match c with
    | 34 => pushed buf pushJsonQstring
    | 91 => pushJsonArray pushJsonValue buf
    | 123 => pushJsonMap pushJsonValue buf
    | _ => keeping buf fail

def pushJsonValueBody (pushJsonValue : Bytes → Pusher Bytes) : Bytes → Pusher Bytes := fun buf => do
  keeping buf skipWsp
  match ← keeping buf peek with
  | none => keeping buf fail
  | some c => pushJsonCase fromChars pushJsonValue c buf

def pushJsonValue : Bytes → Pusher Bytes := fix (pushJsonValueBody fromChars)

/-- `buffer::push_json`: what is returned or thrown, and the buffer afterwards. -/
def pushJson (buf : Bytes) (s : Bytes) : Except DomainError Unit × Bytes :=
  match pushJsonValue fromChars buf s with
  | .ok (buf, _) => (.ok (), buf)
  | .error (buf, rest) =>
      (.error ⟨text "invalid json value at pos " ++ decimal (s.length - rest.length) ++
        text " in: " ++ s⟩, buf)

end Parser

section Refinement
variable {fromChars : Bytes → Option Float} {buf : Bytes}

theorem keeping_bind {α β : Type} (d : Parser α) (f : α → Parser β) :
    keeping buf (d >>= f) = keeping buf d >>= fun a => keeping buf (f a) := by
  funext s
  simp only [keeping, mapError, bind_apply]
  cases d s <;> rfl

theorem keeping_pure {α : Type} (a : α) : keeping buf (pure a : Parser α) = pure a := rfl

/-- A buffer pushed to a value and then appended is what was pushed, appended. -/
theorem within_pushed (inner : Bytes) (d : Parser Bytes) :
    within buf (pushed inner d) = (do
      let value ← keeping buf d
      return inner ++ value) := by
  funext s
  simp only [within, pushed, keeping, mapError, bind_apply]
  cases d s <;> rfl

section Container
variable {opening closing : UInt8} {separators : List UInt8} {empty : Bytes}
  {finish : Bytes → Nat → Option Bytes} {value : Bytes → Pusher Bytes} {value' : Parser Bytes}
  {n : Nat}

theorem AgreeBelow.within {α : Type} {d d' : Pusher α} (h : AgreeBelow n d d') :
    AgreeBelow n (Json.within buf d) (Json.within buf d') := by
  intro s hs
  rw [Json.within, Json.within, mapError, mapError, h s hs]

theorem shrinks_keeping {α : Type} {d : Parser α} (h : Shrinks d) : Shrinks (keeping buf d) := by
  intro s a r run
  exact h s a r ((mapError_eq_ok _).mp run)

/-- The result of a round with the buffer it was pushed to. -/
def roundPushed (buf : Bytes) : (Bytes × Nat) ⊕ Bytes → (Bytes × Nat) ⊕ Bytes
  | .inl st => .inl st
  | .inr value => .inr (buf ++ value)

theorem agree_round (h : ∀ inner, AgreeBelow n (value inner) (pushed inner value'))
    (st : Bytes × Nat) :
    AgreeBelow n (containerRound separators closing finish value buf st) (do
      let res ← keeping buf (Json.containerRound separators closing finish value' st)
      return roundPushed buf res) := by
  obtain ⟨inner, count⟩ := st
  rw [containerRound, Json.containerRound]
  simp only [keeping_bind, bind_assoc]
  refine (AgreeBelow.refl n _).bind (shrinks_keeping shrinks_skipWsp) fun _ => ?_
  refine (AgreeBelow.refl n _).bind (shrinks_keeping shrinks_peek) fun c => ?_
  cases c with
  | none =>
      intro s _
      rfl
  | some c =>
      dsimp only
      split
      · simp only [keeping_bind, bind_assoc, keeping_pure, pure_bind]
        exact .refl n _
      · split
        · simp only [keeping_bind, bind_assoc]
          refine (AgreeBelow.refl n _).bind
            (shrinks_keeping (advances_expectChar c).shrinks) fun _ => ?_
          cases finish inner count <;> exact fun s _ => rfl
        · intro s hs
          have inside : Json.within buf (value inner) s =
              Json.within buf (pushed inner value') s := AgreeBelow.within (h inner) s hs
          rw [within_pushed] at inside
          simp only [bind_apply, inside, keeping, mapError]
          cases value' s <;> rfl

theorem agree_loop (h : ∀ inner, AgreeBelow n (value inner) (pushed inner value'))
    (advances : Advances value') (st : Bytes × Nat) :
    AgreeBelow n (loop (containerRound separators closing finish value buf) st)
      (pushed buf (loop (Json.containerRound separators closing finish value') st)) := by
  have unrolled : ∀ k st s, s.length < k → s.length < n →
      unroll (loopStep (containerRound separators closing finish value buf)) k st s =
        pushed buf (unroll (loopStep (Json.containerRound separators closing finish value')) k st)
          s := by
    intro k
    induction k with
    | zero =>
        intro st s hs
        exact absurd hs (Nat.not_lt_zero _)
    | succ k ih =>
        intro st s hs hn
        have round : containerRound separators closing finish value buf st s = (do
            let res ← keeping buf (Json.containerRound separators closing finish value' st)
            return roundPushed buf res : Pusher _) s := agree_round h st s hn
        simp only [unroll, loopStep, bind_apply, pushed, keeping, mapError] at round ⊢
        rw [round]
        cases run : Json.containerRound separators closing finish value' st s with
        | error e => rfl
        | ok p =>
            obtain ⟨res, r⟩ := p
            cases res with
            | inr v => rfl
            | inl st' =>
                have shorter := containerRound_progress advances st s st' r run
                have rest := ih st' r (by omega) (by omega)
                simp only [pushed, keeping, mapError, bind_apply] at rest
                exact rest
  intro s hs
  exact unrolled (s.length + 1) st s (Nat.lt_succ_self _) hs

theorem agree_container (h : ∀ inner, AgreeBelow n (value inner) (pushed inner value'))
    (advances : Advances value') :
    AgreeBelow (n + 1) (pushJsonContainer opening separators closing empty finish value buf)
      (pushed buf (Json.pushJsonContainer opening separators closing empty finish value')) := by
  rw [pushed, pushJsonContainer, Json.pushJsonContainer]
  simp only [keeping_bind, bind_assoc]
  have opened : Advances (keeping buf (expectChar opening)) := by
    intro s a r run
    exact advances_expectChar opening s a r ((mapError_eq_ok _).mp run)
  refine .guard opened fun _ => ?_
  refine (AgreeBelow.refl n _).bind (shrinks_keeping shrinks_skipWsp) fun _ => ?_
  refine (AgreeBelow.refl n _).bind (shrinks_keeping (shrinks_matchChar closing)) fun done => ?_
  cases done with
  | true => exact fun s _ => rfl
  | false =>
      have inside : AgreeBelow n (keeping buf value') (Json.within buf (value [])) := by
        intro s hs
        rw [AgreeBelow.within (h []) s hs, within_pushed]
        simp only [bind_apply, List.nil_append]
        cases keeping buf value' s <;> rfl
      have rounds : ∀ inner, AgreeBelow n
          (pushed buf (loop (Json.containerRound separators closing finish value') (inner, 1)))
          (loop (containerRound separators closing finish value buf) (inner, 1)) :=
        fun inner s hs => (agree_loop h advances (inner, 1) s hs).symm
      have rest := inside.bind (shrinks_keeping advances.shrinks) rounds
      intro s hs
      simpa only [Bool.false_eq_true, if_false, keeping_bind, bind_assoc, pushed] using
        (rest s hs).symm

end Container

/-- A body that is given parsers that keep the buffer on failure is one itself. -/
theorem agree_body {n : Nat} {value : Bytes → Pusher Bytes} {value' : Unit → Parser Bytes}
    (h : ∀ inner, AgreeBelow n (value inner) (pushed inner (value' ())))
    (advances : Advances (value' ())) (buf : Bytes) :
    AgreeBelow (n + 1) (pushJsonValueBody fromChars value buf)
      (pushed buf (Json.pushJsonValueBody fromChars value' ())) := by
  rw [pushed, pushJsonValueBody, Json.pushJsonValueBody]
  simp only [keeping_bind, bind_assoc]
  refine (AgreeBelow.refl _ _).bind (shrinks_keeping shrinks_skipWsp) fun _ => ?_
  refine (AgreeBelow.refl _ _).bind (shrinks_keeping shrinks_peek) fun c => ?_
  cases c with
  | none => exact fun s _ => rfl
  | some c =>
      dsimp only
      unfold pushJsonCase Json.pushJsonCase
      split
      · exact .refl _ _
      · split
        · exact .refl _ _
        · by_cases quote : c = 34
          · subst quote
            exact .refl _ _
          by_cases array : c = 91
          · subst array
            exact agree_container h advances
          by_cases map : c = 123
          · subst map
            exact agree_container h advances
          simp only
          exact fun s _ => rfl

theorem advances_unroll (n : Nat) :
    Advances (unroll (Json.pushJsonValueBody fromChars) n ()) := by
  cases n with
  | zero =>
      intro s a r run
      cases run
  | succ n =>
      have inner := (guarded_pushJsonValueBody fromChars).unroll_shrinks n ()
      intro s a r run
      obtain ⟨_, t, skipped, run⟩ := bind_eq_ok run
      refine Nat.lt_of_lt_of_le ?_ (shrinks_skipWsp s _ t skipped)
      obtain ⟨c, u, peeked, run⟩ := bind_eq_ok run
      cases peeked
      cases hc : t.head? with
      | none =>
          rw [hc] at run
          cases run
      | some c =>
          simp only [hc] at run
          exact advances_pushJsonCase fromChars inner c t a r run

theorem unroll_pushed (n : Nat) (buf : Bytes) :
    AgreeBelow n (unroll (pushJsonValueBody fromChars) n buf)
      (pushed buf (unroll (Json.pushJsonValueBody fromChars) n ())) := by
  induction n generalizing buf with
  | zero => exact fun s hs => absurd hs (Nat.not_lt_zero _)
  | succ n ih => exact agree_body ih (advances_unroll n) buf

/-- The parser with its buffers pushes the value the parser above computes, and
leaves the buffer alone where that one fails. -/
theorem pushJsonValue_pushed (buf s : Bytes) :
    pushJsonValue fromChars buf s = pushed buf (Json.pushJsonValue fromChars) s := by
  have agree : unroll (pushJsonValueBody fromChars) (s.length + 1) buf s =
      pushed buf (unroll (Json.pushJsonValueBody fromChars) (s.length + 1) ()) s :=
    unroll_pushed _ buf s (Nat.lt_succ_self _)
  simp only [pushed, keeping, mapError, bind_apply] at agree ⊢
  rw [pushJsonValue, Json.pushJsonValue, fix, fix]
  exact agree

theorem pushJson_eq (buf s : Bytes) :
    pushJson fromChars buf s = match Json.pushJson fromChars buf s with
      | .ok buf' => (.ok (), buf')
      | .error e => (.error e, buf) := by
  rw [pushJson, pushJsonValue_pushed, Json.pushJson]
  simp only [pushed, keeping, mapError, bind_apply]
  cases Json.pushJsonValue fromChars s <;> rfl

end Refinement

end Buffered

end Thespian.Cbor.Json
