import Thespian.Cbor.ToJson

/-!
The JSON parser. A false return is a throw that carries the text left at that
point, for push_json reports the position; nothing has been pushed then. The
array and map parsers share their loop: separators are skipped wherever they
stand, and only the closing bracket and the header written for it differ. The
conversion of a fractional number is a parameter, as in the printer.
-/

namespace Thespian.Cbor.Json
open Decoding Decoding.Decoder

abbrev Parser := Decoder Bytes UInt8

/-- Return false. -/
def fail {α : Type} : Parser α := fun s => .error s

/-- `*b`, unless the end is reached. -/
def peek : Parser (Option UInt8) := fun s => .ok (s.head?, s)

def isWsp (c : UInt8) : Bool := c = 32 || c = 9 || c = 13 || c = 10

def isDigit (c : UInt8) : Bool := 48 ≤ c && c ≤ 57

def skipWsp : Parser Unit := fun s => .ok ((), s.dropWhile isWsp)

/-- Take the next character if there is one that passes the test. -/
def matchCharIf (test : UInt8 → Bool) : Parser (Option UInt8)
  | [] => .ok (none, [])
  | c :: s => if test c then .ok (some c, s) else .ok (none, c :: s)

def matchChar (c : UInt8) : Parser Bool := do
  return (← matchCharIf fun c' => c' = c).isSome

def expectChar (c : UInt8) : Parser Unit := do
  if !(← matchChar c) then
    fail

def matchLiteral (str : Bytes) : Parser Bool := fun s =>
  if str.isPrefixOf s then .ok (true, s.drop str.length) else .ok (false, s)

def numberStrMax : Nat := 64

/-- The digits are appended to the given text; at least one is required. -/
def matchDigits (s : Bytes) : Parser Bytes := fun t =>
  match t.takeWhile isDigit with
  | [] => .error t
  | digits => .ok (s ++ digits, t.dropWhile isDigit)

def matchFraction (s : Bytes) : Parser (Bytes × Bool) := do
  if ← matchChar 46 then
    let s ← matchDigits (s ++ [46])
    return (s, true)
  return (s, false)

def matchExponent (s : Bytes) (isFloat : Bool) : Parser (Bytes × Bool) := do
  match ← matchCharIf fun c => c = 101 || c = 69 with
  | none => return (s, isFloat)
  | some _ =>
      let sign ← matchCharIf fun c => c = 43 || c = 45
      let s ← matchDigits (s ++ [101] ++ sign.toList)
      return (s, true)

def digitsValue (digits : Bytes) : Nat :=
  digits.foldl (fun n c => n * 10 + (c.toNat - 48)) 0

def signedValue : Bytes → Int
  | 45 :: digits => -(digitsValue digits : Int)
  | digits => (digitsValue digits : Int)

/-- `std::from_chars` to int64_t on an optional sign and digits: out of range is
an error. -/
def fromCharsInt (s : Bytes) : Option Int64 :=
  if -2 ^ 63 ≤ signedValue s ∧ signedValue s < 2 ^ 63 then some (Int64.ofInt (signedValue s))
  else none

section Parser
variable (fromChars : Bytes → Option Float)

def pushJsonNumber : Parser Bytes := do
  let sign ← matchChar 45
  let s ← matchDigits (if sign then [45] else [])
  let (s, isFloat) ← matchFraction s
  let (s, isFloat) ← matchExponent s isFloat
  if s.length > numberStrMax then
    fail
  if isFloat then
    match fromChars s with
    | some d => return pushDouble d.toBits
    | none => fail
  else
    match fromCharsInt s with
    | some i => return pushInt i
    | none => fail

def unescape (c : UInt8) : UInt8 :=
  match c with
  | 98 => 8
  | 102 => 12
  | 110 => 10
  | 114 => 13
  | 116 => 9
  | c => c

/-- The loop of push_json_qstring_slow behind the opening quote. -/
def qstringSlow (s : Bytes) : Parser Bytes
  | [] => .error []
  | [92] => .error []
  | 92 :: c :: rest => qstringSlow (s ++ [unescape c]) rest
  | 34 :: rest => .ok (pushString s, rest)
  | c :: rest => qstringSlow (s ++ [c]) rest

def pushJsonQstringSlow : Parser Bytes := do
  expectChar 34
  qstringSlow []

/-- The scan behind the opening quote: an escape is found first, or the closing
quote with the text before and behind it. -/
def scanJsonQstring (s : Bytes) : Bytes → Option (Option (Bytes × Bytes))
  | [] => none
  | c :: rest =>
      if c = 92 then some none
      else if c = 34 then some (some (s, rest))
      else scanJsonQstring (s ++ [c]) rest

def pushJsonQstring : Parser Bytes := fun t =>
  match t with
  | 34 :: rest =>
      match scanJsonQstring [] rest with
      | none => .error t
      | some none => pushJsonQstringSlow t
      | some (some (s, rest)) => .ok (pushString s, rest)
  | _ => .error t

def pushJsonKeyword : Parser Bytes := do
  if ← matchLiteral (text "false") then
    return pushBool false
  if ← matchLiteral (text "true") then
    return pushBool true
  if ← matchLiteral (text "null") then
    return pushNull
  fail

/-- One round of the loop over the elements: the inner buffer and the count. -/
def containerRound (separators : List UInt8) (closing : UInt8)
    (finish : Bytes → Nat → Option Bytes) (pushJsonValue : Parser Bytes) :
    Bytes × Nat → Parser ((Bytes × Nat) ⊕ Bytes) := fun (inner, count) => do
  skipWsp
  match ← peek with
  | none => fail
  | some c =>
      if c ∈ separators then
        expectChar c
        skipWsp
        return .inl (inner, count)
      else if c = closing then
        expectChar c
        match finish inner count with
        | some buf => return .inr buf
        | none => fail
      else
        let value ← pushJsonValue
        return .inl (inner ++ value, count + 1)

def pushJsonContainer (opening : UInt8) (separators : List UInt8) (closing : UInt8)
    (empty : Bytes) (finish : Bytes → Nat → Option Bytes) (pushJsonValue : Parser Bytes) :
    Parser Bytes := do
  expectChar opening
  skipWsp
  if ← matchChar closing then
    return empty
  let inner ← pushJsonValue
  loop (containerRound separators closing finish pushJsonValue) (inner, 1)

def finishArray (inner : Bytes) (count : Nat) : Option Bytes :=
  some (arrayHeader (UInt64.ofNat count) ++ inner)

def finishMap (inner : Bytes) (count : Nat) : Option Bytes :=
  if count % 2 ≠ 0 then none else some (mapHeader (UInt64.ofNat (count / 2)) ++ inner)

def pushJsonArray (pushJsonValue : Parser Bytes) : Parser Bytes :=
  pushJsonContainer 91 [44] 93 (arrayHeader 0) finishArray pushJsonValue

def pushJsonMap (pushJsonValue : Parser Bytes) : Parser Bytes :=
  pushJsonContainer 123 [58, 44] 125 (mapHeader 0) finishMap pushJsonValue

/-- The dispatch of push_json_value on the first character. -/
def pushJsonCase (pushJsonValue : Parser Bytes) (c : UInt8) : Parser Bytes :=
  if isDigit c || c = 45 then pushJsonNumber fromChars
  else if 97 ≤ c && c ≤ 122 then pushJsonKeyword
  else match c with
    | 34 => pushJsonQstring
    | 91 => pushJsonArray pushJsonValue
    | 123 => pushJsonMap pushJsonValue
    | _ => fail

def pushJsonValueBody (pushJsonValue : Unit → Parser Bytes) : Unit → Parser Bytes := fun _ => do
  skipWsp
  match ← peek with
  | none => fail
  | some c => pushJsonCase fromChars (pushJsonValue ()) c

def pushJsonValue : Parser Bytes := fix (pushJsonValueBody fromChars) ()

def pushJson (buf : Bytes) (s : Bytes) : Except DomainError Bytes :=
  match pushJsonValue fromChars s with
  | .ok (value, _) => .ok (buf ++ value)
  | .error rest =>
      .error ⟨text "invalid json value at pos " ++ decimal (s.length - rest.length) ++
        text " in: " ++ s⟩

end Parser

theorem shrinks_fail {α : Type} : Shrinks (fail : Parser α) := by
  intro s a r h
  cases h

theorem shrinks_peek : Shrinks peek := by
  intro s a r h
  cases h
  exact Nat.le_refl _

theorem length_dropWhile_le (p : UInt8 → Bool) (s : Bytes) :
    (s.dropWhile p).length ≤ s.length :=
  (List.dropWhile_suffix p).length_le

theorem shrinks_skipWsp : Shrinks skipWsp := by
  intro s a r h
  cases h
  exact length_dropWhile_le isWsp s

theorem shrinks_matchCharIf (test : UInt8 → Bool) : Shrinks (matchCharIf test) := by
  intro s a r h
  cases s with
  | nil =>
      cases h
      exact Nat.le_refl _
  | cons c s =>
      simp only [matchCharIf] at h
      split at h <;> cases h <;> simp

theorem shrinks_matchChar (c : UInt8) : Shrinks (matchChar c) :=
  (shrinks_matchCharIf _).bind fun _ => shrinks_pure _

theorem expectChar_cons (c : UInt8) (s : Bytes) : expectChar c (c :: s) = .ok ((), s) := by
  simp [expectChar, matchChar, matchCharIf]

theorem advances_expectChar (c : UInt8) : Advances (expectChar c) := by
  intro s a r h
  cases s with
  | nil => cases h
  | cons c' s =>
      by_cases same : c' = c
      · subst same
        rw [expectChar_cons] at h
        cases h
        simp
      · simp [expectChar, matchChar, matchCharIf, same, fail] at h

theorem advances_matchDigits (s : Bytes) : Advances (matchDigits s) := by
  intro t a r h
  unfold matchDigits at h
  split at h
  · cases h
  · rename_i digits some_digits
    cases h
    have split := congrArg List.length (List.takeWhile_append_dropWhile (p := isDigit) (l := t))
    have positive : 0 < (t.takeWhile isDigit).length := List.length_pos_iff.mpr some_digits
    rw [List.length_append] at split
    omega

theorem shrinks_matchFraction (s : Bytes) : Shrinks (matchFraction s) := by
  refine (shrinks_matchChar 46).bind fun dot => ?_
  split
  · exact (advances_matchDigits _).shrinks.bind fun _ => shrinks_pure _
  · exact shrinks_pure _

theorem shrinks_matchExponent (s : Bytes) (isFloat : Bool) :
    Shrinks (matchExponent s isFloat) := by
  refine (shrinks_matchCharIf _).bind fun e => ?_
  cases e with
  | none => exact shrinks_pure _
  | some _ =>
      exact (shrinks_matchCharIf _).bind fun _ =>
        (advances_matchDigits _).shrinks.bind fun _ => shrinks_pure _

/-- A literal that is found has been used up; otherwise nothing has. -/
theorem matchLiteral_length {str s r : Bytes} {found : Bool} (hstr : str ≠ [])
    (h : matchLiteral str s = .ok (found, r)) :
    if found then r.length < s.length else r = s := by
  unfold matchLiteral at h
  split at h
  · rename_i isPrefix
    cases h
    have inside : str.length ≤ s.length := (List.isPrefixOf_iff_prefix.mp isPrefix).length_le
    have positive : 0 < str.length := List.length_pos_iff.mpr hstr
    simp only [if_true, List.length_drop]
    omega
  · cases h
    simp

theorem shrinks_qstringSlow (s : Bytes) : Shrinks (qstringSlow s) := by
  intro t a r h
  induction s, t using qstringSlow.induct with
  | case1 s | case2 s => cases h
  | case3 s c rest ih =>
      have shorter := ih h
      simp only [List.length_cons]
      omega
  | case4 s rest =>
      cases h
      simp
  | case5 s c rest notEscape notLast notQuote ih =>
      rw [qstringSlow] at h
      · have shorter := ih h
        simp only [List.length_cons]
        omega
      all_goals assumption

theorem scanJsonQstring_length {s t content rest : Bytes}
    (h : scanJsonQstring s t = some (some (content, rest))) : rest.length < t.length := by
  induction t generalizing s with
  | nil => cases h
  | cons c t ih =>
      rw [scanJsonQstring] at h
      split at h
      · cases h
      · split at h
        · cases h
          simp
        · have shorter := ih h
          simp only [List.length_cons]
          omega

theorem advances_pushJsonQstring : Advances pushJsonQstring := by
  intro t a r h
  unfold pushJsonQstring at h
  split at h
  · split at h
    · cases h
    · exact (advances_expectChar 34).bind (fun _ => shrinks_qstringSlow []) _ a r h
    · rename_i scanned
      cases h
      have shorter := scanJsonQstring_length scanned
      simp only [List.length_cons]
      omega
  · cases h

theorem advances_pushJsonKeyword : Advances pushJsonKeyword := by
  have next {str s r : Bytes} {buf a : Bytes} {otherwise : Parser Bytes} (hstr : str ≠ [])
      (rest : otherwise s = .ok (a, r) → r.length < s.length)
      (h : (do if ← matchLiteral str then return buf else otherwise : Parser Bytes) s =
        .ok (a, r)) : r.length < s.length := by
    obtain ⟨found, t, literal, run⟩ := bind_eq_ok h
    have used := matchLiteral_length hstr literal
    cases found with
    | true =>
        cases run
        exact used
    | false =>
        have same : t = s := by simpa using used
        subst same
        exact rest run
  intro s a r h
  refine next (by decide) (fun h => ?_) h
  refine next (by decide) (fun h => ?_) h
  refine next (by decide) (fun h => ?_) h
  cases h

section Guarded
variable (fromChars : Bytes → Option Float)

theorem advances_pushJsonNumber : Advances (pushJsonNumber fromChars) := by
  intro s a r h
  obtain ⟨sign, t, first, h⟩ := bind_eq_ok h
  have start := shrinks_matchChar 45 s sign t first
  refine Nat.lt_of_lt_of_le ?_ start
  refine (advances_matchDigits _).bind (fun digits => ?_) t a r h
  refine (shrinks_matchFraction digits).bind fun fraction => ?_
  refine (shrinks_matchExponent fraction.1 fraction.2).bind fun number => ?_
  dsimp only
  split
  · exact shrinks_fail
  · split
    · split
      · exact shrinks_pure _
      · exact shrinks_fail
    · split
      · exact shrinks_pure _
      · exact shrinks_fail

section Container
variable {opening closing : UInt8} {separators : List UInt8} {empty : Bytes}
  {finish : Bytes → Nat → Option Bytes} {value value' : Parser Bytes}

theorem shrinks_containerRound (h : Shrinks value) (st : Bytes × Nat) :
    Shrinks (containerRound separators closing finish value st) := by
  refine shrinks_skipWsp.bind fun _ => shrinks_peek.bind fun c => ?_
  cases c with
  | none => exact shrinks_fail
  | some c =>
      dsimp only
      split
      · exact (advances_expectChar c).shrinks.bind fun _ =>
          shrinks_skipWsp.bind fun _ => shrinks_pure _
      · split
        · refine (advances_expectChar c).shrinks.bind fun _ => ?_
          split
          · exact shrinks_pure _
          · exact shrinks_fail
        · exact h.bind fun _ => shrinks_pure _

theorem agree_containerRound {n : Nat} (h : AgreeBelow n value value') (hs : Shrinks value)
    (st : Bytes × Nat) :
    AgreeBelow n (containerRound separators closing finish value st)
      (containerRound separators closing finish value' st) := by
  refine (AgreeBelow.refl n _).bind shrinks_skipWsp fun _ => ?_
  refine (AgreeBelow.refl n _).bind shrinks_peek fun c => ?_
  cases c with
  | none => exact .refl n _
  | some c =>
      dsimp only
      split
      · exact .refl n _
      · split
        · exact .refl n _
        · exact h.bind hs fun _ => .refl n _

theorem containerRound_progress (h : Advances value) (st : Bytes × Nat) (s : Bytes)
    (st' : Bytes × Nat) (r : Bytes)
    (run : containerRound separators closing finish value st s = .ok (.inl st', r)) :
    r.length < s.length := by
  obtain ⟨_, t, skipped, run⟩ := bind_eq_ok run
  have shorter := shrinks_skipWsp s _ t skipped
  refine Nat.lt_of_lt_of_le ?_ shorter
  obtain ⟨c, u, peeked, run⟩ := bind_eq_ok run
  cases peeked
  cases hc : t.head? with
  | none =>
      rw [hc] at run
      cases run
  | some c =>
      simp only [hc] at run
      split at run
      · exact (advances_expectChar c).bind (fun _ => shrinks_skipWsp.bind fun _ => shrinks_pure _)
          t _ r run
      · split at run
        · obtain ⟨-, v, -, run⟩ := bind_eq_ok run
          cases hf : finish st.1 st.2 with
          | none =>
              simp only [hf] at run
              cases run
          | some buf =>
              simp only [hf] at run
              cases run
        · exact h.bind (fun _ => shrinks_pure _) t _ r run

theorem advances_pushJsonContainer (h : Shrinks value) :
    Advances (pushJsonContainer opening separators closing empty finish value) := by
  refine (advances_expectChar opening).bind fun _ => shrinks_skipWsp.bind fun _ => ?_
  refine (shrinks_matchChar closing).bind fun done => ?_
  cases done with
  | true => exact shrinks_pure _
  | false => exact h.bind fun inner => loop_shrinks (shrinks_containerRound h) _

theorem agree_pushJsonContainer {n : Nat} (h : AgreeBelow n value value') (hs : Shrinks value) :
    AgreeBelow (n + 1) (pushJsonContainer opening separators closing empty finish value)
      (pushJsonContainer opening separators closing empty finish value') := by
  refine .guard (advances_expectChar opening) fun _ => ?_
  refine (AgreeBelow.refl n _).bind shrinks_skipWsp fun _ => ?_
  refine (AgreeBelow.refl n _).bind (shrinks_matchChar closing) fun done => ?_
  cases done with
  | true => exact .refl n _
  | false =>
      exact h.bind hs fun inner =>
        .loop (agree_containerRound h hs) (shrinks_containerRound hs) _

end Container

theorem advances_pushJsonCase {value : Parser Bytes} (h : Shrinks value) (c : UInt8) :
    Advances (pushJsonCase fromChars value c) := by
  unfold pushJsonCase
  split
  · exact advances_pushJsonNumber fromChars
  · split
    · exact advances_pushJsonKeyword
    · split
      · exact advances_pushJsonQstring
      · exact advances_pushJsonContainer h
      · exact advances_pushJsonContainer h
      · intro s a r run
        cases run

theorem agree_pushJsonCase {n : Nat} {value value' : Parser Bytes}
    (h : AgreeBelow n value value') (hs : Shrinks value) (c : UInt8) :
    AgreeBelow (n + 1) (pushJsonCase fromChars value c) (pushJsonCase fromChars value' c) := by
  unfold pushJsonCase
  split
  · exact .refl _ _
  · split
    · exact .refl _ _
    · split
      · exact .refl _ _
      · exact agree_pushJsonContainer h hs
      · exact agree_pushJsonContainer h hs
      · exact .refl _ _

theorem guarded_pushJsonValueBody : Guarded (pushJsonValueBody fromChars) where
  shrinks := by
    intro d hd _
    refine shrinks_skipWsp.bind fun _ => shrinks_peek.bind fun c => ?_
    cases c with
    | none => exact shrinks_fail
    | some c => exact (advances_pushJsonCase fromChars (hd ()) c).shrinks
  agree := by
    intro d d' n hd hd' h _
    refine (AgreeBelow.refl _ _).bind shrinks_skipWsp fun _ => ?_
    refine (AgreeBelow.refl _ _).bind shrinks_peek fun c => ?_
    cases c with
    | none => exact .refl _ _
    | some c => exact agree_pushJsonCase fromChars (h ()) (hd ()) c

theorem pushJsonValue_eq : pushJsonValue fromChars = (do
    skipWsp
    match ← peek with
    | none => fail
    | some c => pushJsonCase fromChars (pushJsonValue fromChars) c) :=
  (guarded_pushJsonValueBody fromChars).fix_eq ()

theorem shrinks_pushJsonValue : Shrinks (pushJsonValue fromChars) :=
  (guarded_pushJsonValueBody fromChars).fix_shrinks ()

theorem advances_pushJsonValue : Advances (pushJsonValue fromChars) := by
  intro s a r h
  rw [pushJsonValue_eq] at h
  obtain ⟨_, t, skipped, h⟩ := bind_eq_ok h
  refine Nat.lt_of_lt_of_le ?_ (shrinks_skipWsp s _ t skipped)
  obtain ⟨c, u, peeked, h⟩ := bind_eq_ok h
  cases peeked
  cases hc : t.head? with
  | none =>
      rw [hc] at h
      cases h
  | some c =>
      simp only [hc] at h
      exact advances_pushJsonCase fromChars (shrinks_pushJsonValue fromChars) c t a r h

end Guarded

end Thespian.Cbor.Json
