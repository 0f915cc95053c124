import Thespian.Cbor.PushJson
import Mathlib.Data.Nat.Digits.Lemmas

/-!
What the parts of the JSON parser make of the texts written for them: the digits of
a number, the characters of a string, and the elements of a container with blanks
at every place between two tokens. Only a number has to look at what follows it.
-/

namespace Thespian.Cbor.Json
open Decoding Decoding.Decoder

/-- What follows does not continue a number. -/
def NumberEnds (rest : Bytes) : Prop :=
  ∀ c ∈ rest.head?, isDigit c = false ∧ c ≠ 46 ∧ c ≠ 101 ∧ c ≠ 69

section Digits

theorem digit_toNat {d : Nat} (h : d < 10) : (digit d).toNat = 48 + d ∧ isDigit (digit d) := by
  have all : ∀ d : Fin 10, (digit d.val).toNat = 48 + d.val ∧ isDigit (digit d.val) := by decide
  exact all ⟨d, h⟩

theorem decimal_digits (n : Nat) : ∃ ds : List Nat, ds ≠ [] ∧ (∀ d ∈ ds, d < 10) ∧
    decimal n = ds.map digit ∧ ds.foldl (fun n d => n * 10 + d) 0 = n ∧
    (n < 10 ^ 20 → ds.length ≤ 20) := by
  by_cases zero : n = 0
  · subst zero
    exact ⟨[0], by decide⟩
  · refine ⟨(Nat.digits 10 n).reverse, ?_, ?_, ?_, ?_, ?_⟩
    · simpa using Nat.digits_ne_nil_iff_ne_zero.mpr zero
    · intro d hd
      exact Nat.digits_lt_base (by decide) (List.mem_reverse.mp hd)
    · rw [decimal, if_neg zero]
    · rw [List.foldl_reverse]
      have value := Nat.ofDigits_digits 10 n
      rw [Nat.ofDigits_eq_foldr] at value
      simpa [Nat.mul_comm, Nat.add_comm] using value
    · intro small
      rw [List.length_reverse]
      exact (Nat.digits_length_le_iff (by decide) n).mpr small

theorem digitsValue_map (ds : List Nat) (h : ∀ d ∈ ds, d < 10) :
    digitsValue (ds.map digit) = ds.foldl (fun n d => n * 10 + d) 0 := by
  rw [digitsValue, List.foldl_map]
  generalize 0 = acc
  induction ds generalizing acc with
  | nil => rfl
  | cons d ds ih =>
      have here := (digit_toNat (h d (by simp))).1
      rw [List.foldl_cons, List.foldl_cons, here, Nat.add_sub_cancel_left]
      exact ih (fun e he => h e (by simp [he])) _

theorem matchDigits_decimal (s : Bytes) (n : Nat) {rest : Bytes} (h : NumberEnds rest) :
    matchDigits s (decimal n ++ rest) = .ok (s ++ decimal n, rest) := by
  obtain ⟨ds, nonempty, small, eq, -, -⟩ := decimal_digits n
  have digits : ∀ c ∈ decimal n, isDigit c = true := by
    rw [eq]
    intro c hc
    obtain ⟨d, hd, rfl⟩ := List.mem_map.mp hc
    exact (digit_toNat (small d hd)).2
  have stop : rest.takeWhile isDigit = [] ∧ rest.dropWhile isDigit = rest := by
    cases rest with
    | nil => exact ⟨rfl, rfl⟩
    | cons c rest => simp [(h c rfl).1]
  have taken : (decimal n ++ rest).takeWhile isDigit = decimal n := by
    rw [List.takeWhile_append_of_pos digits, stop.1, List.append_nil]
  have dropped : (decimal n ++ rest).dropWhile isDigit = rest := by
    rw [List.dropWhile_append_of_pos digits, stop.2]
  have some_digits : decimal n ≠ [] := by simpa [eq] using nonempty
  unfold matchDigits
  rw [taken, dropped]
  split
  · contradiction
  · rfl

theorem matchCharIf_none {test : UInt8 → Bool} {s : Bytes} (h : ∀ c ∈ s.head?, test c = false) :
    matchCharIf test s = .ok (none, s) := by
  cases s with
  | nil => rfl
  | cons c s => simp [matchCharIf, h c rfl]

theorem decimal_cons (n : Nat) : ∃ c t, decimal n = c :: t ∧ isDigit c = true := by
  obtain ⟨ds, nonempty, small, eq, -, -⟩ := decimal_digits n
  cases ds with
  | nil => contradiction
  | cons d ds => exact ⟨digit d, ds.map digit, eq, (digit_toNat (small d (by simp))).2⟩

theorem digitsValue_decimal (n : Nat) : digitsValue (decimal n) = n := by
  obtain ⟨ds, -, small, eq, value, -⟩ := decimal_digits n
  rw [eq, digitsValue_map ds small, value]

/-- The text of a number with its sign, which zero may have too. -/
def signedText (negative : Bool) (n : Nat) : Bytes := (if negative then [45] else []) ++ decimal n

def signedNumber (negative : Bool) (n : Nat) : Int := if negative then -(n : Int) else n

theorem signedDecimal_eq (i : Int) :
    signedDecimal i = signedText (decide (i < 0)) i.natAbs ∧
      signedNumber (decide (i < 0)) i.natAbs = i := by
  rw [signedDecimal, signedText, signedNumber]
  by_cases negative : i < 0
  · have magnitude := Int.ofNat_natAbs_of_nonpos (Int.le_of_lt negative)
    simp only [negative, decide_true, if_true]
    exact ⟨rfl, by omega⟩
  · have magnitude := Int.natAbs_of_nonneg (Int.not_lt.mp negative)
    simp only [negative, decide_false, if_false]
    exact ⟨rfl, magnitude⟩

theorem signedValue_signedText (negative : Bool) (n : Nat) :
    signedValue (signedText negative n) = signedNumber negative n := by
  cases negative with
  | true =>
      change signedValue (45 :: decimal n) = -(n : Int)
      rw [signedValue, digitsValue_decimal]
  | false =>
      obtain ⟨c, t, eq, isDigit⟩ := decimal_cons n
      have notSign : c ≠ 45 := by
        rintro rfl
        exact absurd isDigit (by decide)
      change signedValue (decimal n) = (n : Int)
      rw [signedValue, digitsValue_decimal]
      rw [eq]
      intro digits h
      exact notSign (List.cons.inj h).1

theorem signedText_length {n : Nat} (negative : Bool) (small : n < 10 ^ 20) :
    (signedText negative n).length ≤ numberStrMax := by
  obtain ⟨ds, -, -, eq, -, short⟩ := decimal_digits n
  have count : (decimal n).length ≤ 20 := by
    rw [eq, List.length_map]
    exact short small
  rw [signedText, List.length_append, numberStrMax]
  cases negative <;> simp <;> omega

theorem pushJsonNumber_signedText (fromChars : Bytes → Option Float) {negative : Bool} {n : Nat}
    (low : -2 ^ 63 ≤ signedNumber negative n) (high : signedNumber negative n < 2 ^ 63)
    {rest : Bytes} (h : NumberEnds rest) :
    pushJsonNumber fromChars (signedText negative n ++ rest) =
      .ok (pushInt (Int64.ofInt (signedNumber negative n)), rest) := by
  have small : n < 10 ^ 20 := by
    cases negative <;> simp only [signedNumber] at low high <;> omega
  have digits : (do
      let sign ← matchChar 45
      matchDigits (if sign then [45] else [])) (signedText negative n ++ rest) =
        .ok (signedText negative n, rest) := by
    cases negative with
    | true =>
        have sign : matchChar 45 (45 :: decimal n ++ rest) = .ok (true, decimal n ++ rest) := rfl
        refine (bind_of_ok sign _).trans ?_
        exact matchDigits_decimal [45] _ h
    | false =>
        obtain ⟨c, t, eq, isDigit⟩ := decimal_cons n
        have sign : matchChar 45 (decimal n ++ rest) = .ok (false, decimal n ++ rest) := by
          have notSign : ∀ c ∈ (decimal n ++ rest).head?, decide (c = 45) = false := by
            rw [eq]
            rintro _ ⟨⟩
            by_contra same
            simp only [decide_eq_false_iff_not, not_not] at same
            rw [same] at isDigit
            exact absurd isDigit (by decide)
          rw [matchChar, bind_of_ok (matchCharIf_none notSign)]
          rfl
        refine (bind_of_ok sign _).trans ?_
        exact matchDigits_decimal [] _ h
  have fraction : matchFraction (signedText negative n) rest =
      .ok ((signedText negative n, false), rest) := by
    have none : matchCharIf (fun c' => c' = 46) rest = .ok (none, rest) :=
      matchCharIf_none fun c hc => by simp [(h c hc).2.1]
    rw [matchFraction, matchChar, bind_assoc, bind_of_ok none]
    rfl
  have exponent : matchExponent (signedText negative n) false rest =
      .ok ((signedText negative n, false), rest) := by
    have none : matchCharIf (fun c => c = 101 || c = 69) rest = .ok (none, rest) :=
      matchCharIf_none fun c hc => by simp [(h c hc).2.2.1, (h c hc).2.2.2]
    rw [matchExponent, bind_of_ok none]
    rfl
  have short : ¬ (signedText negative n).length > numberStrMax :=
    Nat.not_lt.mpr (signedText_length negative small)
  have converted : fromCharsInt (signedText negative n) =
      some (Int64.ofInt (signedNumber negative n)) := by
    rw [fromCharsInt, signedValue_signedText, if_pos ⟨low, high⟩]
  rw [pushJsonNumber, ← bind_assoc, bind_of_ok digits, bind_of_ok fraction]
  dsimp only
  rw [bind_of_ok exponent]
  dsimp only
  rw [if_neg short, if_neg (by decide), converted]
  rfl

end Digits

section Strings

theorem qstringSlow_plain {c : UInt8} (escape : c ≠ 92) (quote : c ≠ 34) (s t : Bytes) :
    qstringSlow s (c :: t) = qstringSlow (s ++ [c]) t := by
  rw [qstringSlow]
  · intro h
    exact absurd h escape
  · intro c' t' h
    exact absurd h escape
  · exact quote

/-- A string and characters that are read as it, each raw or behind a backslash. -/
inductive Written : Bytes → Bytes → Prop
  | nil : Written [] []
  | raw {c : UInt8} {s t : Bytes} : c ≠ 92 → c ≠ 34 → Written s t → Written (c :: s) (c :: t)
  | escaped (letter : UInt8) {s t : Bytes} :
      Written s t → Written (unescape letter :: s) (92 :: letter :: t)

theorem Written.append {s t s' t' : Bytes} (h : Written s t) (h' : Written s' t') :
    Written (s ++ s') (t ++ t') := by
  induction h with
  | nil => exact h'
  | raw escape quote _ ih => exact .raw escape quote ih
  | escaped letter _ ih => exact .escaped letter ih

theorem qstringSlow_written {s t : Bytes} (h : Written s t) (acc rest : Bytes) :
    qstringSlow acc (t ++ 34 :: rest) = .ok (pushString (acc ++ s), rest) := by
  induction h generalizing acc with
  | nil => simp [qstringSlow]
  | raw escape quote _ ih =>
      rw [List.cons_append, qstringSlow_plain escape quote, ih, List.append_assoc]
      rfl
  | escaped letter _ ih =>
      refine (qstringSlow.eq_3 acc letter _).trans ((ih _).trans ?_)
      rw [List.append_assoc]
      rfl

/-- Either an escape is found, or no character is written as one. -/
theorem scanJsonQstring_written {s t : Bytes} (h : Written s t) (acc rest : Bytes) :
    scanJsonQstring acc (t ++ 34 :: rest) = some none ∨
      scanJsonQstring acc (t ++ 34 :: rest) = some (some (acc ++ s, rest)) := by
  induction h generalizing acc with
  | nil => simp [scanJsonQstring]
  | @raw c s t escape quote _ ih =>
      have later := ih (acc ++ [c])
      rw [List.append_assoc, List.singleton_append] at later
      rw [List.cons_append, scanJsonQstring, if_neg escape, if_neg quote]
      exact later
  | escaped letter _ _ => exact .inl rfl

/-- The scan and the unescaping loop agree on what the string is. -/
theorem pushJsonQstring_written {s t : Bytes} (h : Written s t) (rest : Bytes) :
    pushJsonQstring (34 :: (t ++ 34 :: rest)) = .ok (pushString s, rest) := by
  have slow := qstringSlow_written h [] rest
  rw [pushJsonQstring]
  rcases scanJsonQstring_written h [] rest with scanned | scanned
  · rw [scanned, pushJsonQstringSlow, bind_of_ok (expectChar_cons 34 _), slow]
    rfl
  · rw [scanned]
    rfl

end Strings

/-- Blanks between two tokens. -/
def Blank (w : Bytes) : Prop := ∀ c ∈ w, isWsp c = true

theorem Blank.nil : Blank [] := by simp [Blank]

theorem skipWsp_blank {w : Bytes} (hw : Blank w) {c : UInt8} (hc : isWsp c = false) (t : Bytes) :
    skipWsp (w ++ c :: t) = .ok ((), c :: t) := by
  rw [skipWsp, List.dropWhile_append_of_pos hw, List.dropWhile_cons_of_neg (by simp [hc])]

theorem skipWsp_cons {c : UInt8} (hc : isWsp c = false) (t : Bytes) :
    skipWsp (c :: t) = .ok ((), c :: t) :=
  skipWsp_blank .nil hc t

theorem matchChar_cons {c c' : UInt8} (h : c' ≠ c) (t : Bytes) :
    matchChar c (c' :: t) = .ok (false, c' :: t) := by
  simp [matchChar, matchCharIf, h]

theorem numberEnds_blank {w : Bytes} (hw : Blank w) {rest : Bytes} (h : NumberEnds rest) :
    NumberEnds (w ++ rest) := by
  cases w with
  | nil => exact h
  | cons c w =>
      rintro _ ⟨⟩
      have blank := hw c (by simp)
      simp only [isWsp, Bool.or_eq_true, decide_eq_true_eq] at blank
      rcases blank with ((rfl | rfl) | rfl) | rfl <;> decide

/-- The first characters of values: no blank, separator or closing bracket. -/
def Opens (c : UInt8) : Prop := isWsp c = false ∧ c ≠ 44 ∧ c ≠ 58 ∧ c ≠ 93 ∧ c ≠ 125

instance (c : UInt8) : Decidable (Opens c) := inferInstanceAs (Decidable (_ ∧ _))

theorem opens_digit {c : UInt8} (h : isDigit c = true) : Opens c := by
  simp only [isDigit, Bool.and_eq_true, decide_eq_true_eq, UInt8.le_iff_toNat_le] at h
  have apart (d : UInt8) (hd : d.toNat < 48 ∨ 57 < d.toNat) : c ≠ d := by
    rintro rfl
    have bounds : (48 : UInt8).toNat = 48 ∧ (57 : UInt8).toNat = 57 := by decide
    omega
  refine ⟨?_, apart 44 (by decide), apart 58 (by decide), apart 93 (by decide),
    apart 125 (by decide)⟩
  simp [isWsp, apart 32 (by decide), apart 9 (by decide), apart 13 (by decide),
    apart 10 (by decide)]

/-- The parser pushes the bytes when it is given the text of a value. -/
structure ReadsAs (value : Parser Bytes) (t x : Bytes) : Prop where
  opens : ∃ c u, t = c :: u ∧ Opens c
  reads : ∀ rest, NumberEnds rest → value (t ++ rest) = .ok (x, rest)

section Elements
variable (separators : List UInt8) (closing : UInt8) (value : Parser Bytes)

/-- The text behind an element of a container: further elements behind their
separators, which push the bytes and count. -/
structure ReadsRest (t x : Bytes) (k : Nat) : Prop where
  ends : ∀ rest, NumberEnds (t ++ closing :: rest)
  reads : ∀ (finish : Bytes → Nat → Option Bytes) inner count buf rest,
    finish (inner ++ x) (count + k) = some buf →
    loop (containerRound separators closing finish value) (inner, count) (t ++ closing :: rest) =
      .ok (buf, rest)

/-- The text between the brackets. -/
def ReadsElements (t x : Bytes) (k : Nat) : Prop :=
  ∃ w u y t' x' k', Blank w ∧ t = w ++ (u ++ t') ∧ ReadsAs value u y ∧
    ReadsRest separators closing value t' x' k' ∧ x = y ++ x' ∧ k = 1 + k'

variable {separators closing value}
variable {finish : Bytes → Nat → Option Bytes} {w w' t t' x x' : Bytes} {k : Nat}

theorem containerRound_separator {sep : UInt8} (hsep : sep ∈ separators) (hw : Blank w)
    (wsp : isWsp sep = false) (hw' : Blank w') {c : UInt8} (hc : isWsp c = false)
    (st : Bytes × Nat) (t : Bytes) :
    containerRound separators closing finish value st (w ++ sep :: (w' ++ c :: t)) =
      .ok (.inl st, c :: t) := by
  have peeked : peek (sep :: (w' ++ c :: t)) = .ok (some sep, sep :: (w' ++ c :: t)) := rfl
  rw [containerRound, bind_of_ok (skipWsp_blank hw wsp _), bind_of_ok peeked]
  dsimp only
  rw [if_pos hsep, bind_of_ok (expectChar_cons sep _), bind_of_ok (skipWsp_blank hw' hc t)]
  rfl

theorem containerRound_close (hs : closing ∉ separators) (hw : Blank w)
    (wsp : isWsp closing = false) (inner : Bytes) (count : Nat) {buf : Bytes}
    (done : finish inner count = some buf) (t : Bytes) :
    containerRound separators closing finish value (inner, count) (w ++ closing :: t) =
      .ok (.inr buf, t) := by
  have peeked : peek (closing :: t) = .ok (some closing, closing :: t) := rfl
  rw [containerRound, bind_of_ok (skipWsp_blank hw wsp _), bind_of_ok peeked]
  dsimp only
  rw [if_neg hs, if_pos rfl, bind_of_ok (expectChar_cons closing _), done]
  rfl

theorem containerRound_value {c : UInt8} (hs : c ∉ separators) (hc : c ≠ closing)
    (wsp : isWsp c = false) (inner : Bytes) (count : Nat) {t r val : Bytes}
    (read : value (c :: t) = .ok (val, r)) :
    containerRound separators closing finish value (inner, count) (c :: t) =
      .ok (.inl (inner ++ val, count + 1), r) := by
  have peeked : peek (c :: t) = .ok (some c, c :: t) := rfl
  rw [containerRound, bind_of_ok (skipWsp_cons wsp _), bind_of_ok peeked]
  dsimp only
  rw [if_neg hs, if_neg hc, bind_of_ok read]
  rfl

theorem pushJsonContainer_empty {opening : UInt8} {empty : Bytes}
    (close : closing = 93 ∨ closing = 125) (hw : Blank w) (rest : Bytes) :
    pushJsonContainer opening separators closing empty finish value
      (opening :: (w ++ closing :: rest)) = .ok (empty, rest) := by
  have wsp : isWsp closing = false := by
    rcases close with rfl | rfl <;> decide
  have matched : matchChar closing (closing :: rest) = .ok (true, rest) := by
    simp [matchChar, matchCharIf]
  rw [pushJsonContainer, bind_of_ok (expectChar_cons opening _),
    bind_of_ok (skipWsp_blank hw wsp _), bind_of_ok matched]
  rfl

theorem ReadsElements.container {opening : UInt8} {empty : Bytes}
    (close : closing = 93 ∨ closing = 125) (h : ReadsElements separators closing value t x k)
    {buf : Bytes} (done : finish x k = some buf) (rest : Bytes) :
    pushJsonContainer opening separators closing empty finish value
      (opening :: (t ++ closing :: rest)) = .ok (buf, rest) := by
  obtain ⟨w, u, y, t', x', k', hw, rfl, first, others, rfl, rfl⟩ := h
  obtain ⟨c, v, rfl, wsp, -, -, bracket, brace⟩ := first.opens
  have c_not_close : c ≠ closing := by
    rcases close with rfl | rfl
    · exact bracket
    · exact brace
  have read := first.reads (t' ++ closing :: rest) (others.ends rest)
  rw [List.cons_append] at read
  rw [List.append_assoc, List.append_assoc, List.cons_append, pushJsonContainer,
    bind_of_ok (expectChar_cons opening _), bind_of_ok (skipWsp_blank hw wsp _),
    bind_of_ok (matchChar_cons c_not_close _)]
  exact (bind_of_ok read _).trans (others.reads finish y 1 buf rest done)

section Rounds
variable (seps : ∀ c ∈ separators, c = 44 ∨ c = 58) (close : closing = 93 ∨ closing = 125)
  (advances : Advances value)
include seps close advances

theorem readsRest_blank (hw : Blank w) : ReadsRest separators closing value w [] 0 := by
  have wsp : isWsp closing = false := by
    rcases close with rfl | rfl <;> decide
  have not_sep : closing ∉ separators := by
    intro mem
    have sep := seps closing mem
    rcases close with rfl | rfl <;> revert sep <;> decide
  refine ⟨fun rest => numberEnds_blank hw ?_, ?_⟩
  · rintro _ ⟨⟩
    rcases close with rfl | rfl <;> decide
  · intro finish inner count buf rest done
    rw [List.append_nil] at done
    rw [loop_eq (shrinks_containerRound advances.shrinks) (containerRound_progress advances)]
    exact bind_of_ok (containerRound_close not_sep hw wsp inner count done rest) _

theorem readsRest_element {sep : UInt8} (hsep : sep ∈ separators) (hw : Blank w)
    (h : ReadsElements separators closing value t x k) :
    ReadsRest separators closing value (w ++ sep :: t) x k := by
  obtain ⟨w', u, y, t', x', k', hw', rfl, first, others, rfl, rfl⟩ := h
  obtain ⟨c, v, rfl, wsp, comma, colon, bracket, brace⟩ := first.opens
  have sep_cases := seps sep hsep
  refine ⟨fun rest => ?_, ?_⟩
  · rw [List.append_assoc]
    refine numberEnds_blank hw ?_
    rintro _ ⟨⟩
    rcases sep_cases with rfl | rfl <;> decide
  · intro finish inner count buf rest done
    have sep_not_wsp : isWsp sep = false := by
      rcases sep_cases with rfl | rfl <;> decide
    have c_not_sep : c ∉ separators := by
      intro mem
      rcases seps c mem with rfl | rfl
      · exact comma rfl
      · exact colon rfl
    have c_not_close : c ≠ closing := by
      rcases close with rfl | rfl
      · exact bracket
      · exact brace
    have round (st : Bytes × Nat) : loop (containerRound separators closing finish value) st =
        loopStep (containerRound separators closing finish value) _ st :=
      loop_eq (shrinks_containerRound advances.shrinks) (containerRound_progress advances) st
    have read := first.reads (t' ++ closing :: rest) (others.ends rest)
    rw [List.cons_append] at read
    have shape : w ++ sep :: (w' ++ (c :: v ++ t')) ++ closing :: rest =
        w ++ sep :: (w' ++ c :: (v ++ (t' ++ closing :: rest))) := by simp
    rw [shape, round, loopStep]
    refine (bind_of_ok (containerRound_separator hsep hw sep_not_wsp hw' wsp _ _) _).trans ?_
    dsimp only
    rw [round, loopStep]
    refine (bind_of_ok (containerRound_value c_not_sep c_not_close wsp inner count read) _).trans ?_
    refine others.reads finish _ _ buf rest ?_
    rw [← done, List.append_assoc, Nat.add_assoc]

theorem ReadsElements.last (hw : Blank w) (h : ReadsAs value t x) (hw' : Blank w') :
    ReadsElements separators closing value (w ++ (t ++ w')) x 1 :=
  ⟨w, t, x, w', [], 0, hw, rfl, h, readsRest_blank seps close advances hw', by simp, rfl⟩

theorem ReadsElements.cons {sep : UInt8} (hsep : sep ∈ separators) (hw : Blank w)
    (h : ReadsAs value t x) (hw' : Blank w') (others : ReadsElements separators closing value t' x' k) :
    ReadsElements separators closing value (w ++ (t ++ (w' ++ sep :: t'))) (x ++ x') (k + 1) :=
  ⟨w, t, x, _, x', k, hw, rfl, h, readsRest_element seps close advances hsep hw' others, rfl,
    Nat.add_comm k 1⟩

end Rounds

end Elements

section Values
variable (fromChars : Bytes → Option Float)

theorem pushJsonValue_blank {w : Bytes} (hw : Blank w) {c : UInt8} (hc : isWsp c = false)
    (t : Bytes) : pushJsonValue fromChars (w ++ c :: t) =
      pushJsonCase fromChars (pushJsonValue fromChars) c (c :: t) := by
  rw [congrFun (pushJsonValue_eq fromChars) (w ++ c :: t), bind_of_ok (skipWsp_blank hw hc t)]
  rfl

theorem pushJsonValue_cons {c : UInt8} (h : isWsp c = false) (t : Bytes) :
    pushJsonValue fromChars (c :: t) =
      pushJsonCase fromChars (pushJsonValue fromChars) c (c :: t) :=
  pushJsonValue_blank fromChars .nil h t

theorem signedText_cons (negative : Bool) (n : Nat) : ∃ c t, signedText negative n = c :: t ∧
    Opens c ∧ (isDigit c || c = 45) = true := by
  cases negative with
  | true => exact ⟨45, decimal n, rfl, by decide, by decide⟩
  | false =>
      obtain ⟨c, t, eq, isDigit⟩ := decimal_cons n
      exact ⟨c, t, eq, opens_digit isDigit, by simp [isDigit]⟩

theorem readsAs_number {negative : Bool} {n : Nat} (low : -2 ^ 63 ≤ signedNumber negative n)
    (high : signedNumber negative n < 2 ^ 63) :
    ReadsAs (pushJsonValue fromChars) (signedText negative n)
      (pushInt (Int64.ofInt (signedNumber negative n))) := by
  obtain ⟨c, t, eq, opens, dispatch⟩ := signedText_cons negative n
  refine ⟨⟨c, t, eq, opens⟩, fun rest h => ?_⟩
  have read := pushJsonNumber_signedText fromChars low high h
  rw [eq] at read ⊢
  rw [List.cons_append, pushJsonValue_cons fromChars opens.1]
  unfold pushJsonCase
  rw [if_pos dispatch]
  exact read

theorem readsAs_bool (b : Bool) :
    ReadsAs (pushJsonValue fromChars) (text (if b then "true" else "false")) (pushBool b) := by
  cases b with
  | false =>
      refine ⟨⟨102, _, rfl, by decide⟩, fun rest _ => ?_⟩
      exact (pushJsonValue_cons fromChars (by decide) _).trans rfl
  | true =>
      refine ⟨⟨116, _, rfl, by decide⟩, fun rest _ => ?_⟩
      exact (pushJsonValue_cons fromChars (by decide) _).trans rfl

theorem readsAs_null : ReadsAs (pushJsonValue fromChars) (text "null") pushNull := by
  refine ⟨⟨110, _, rfl, by decide⟩, fun rest _ => ?_⟩
  exact (pushJsonValue_cons fromChars (by decide) _).trans rfl

theorem readsAs_string {s t : Bytes} (h : Written s t) :
    ReadsAs (pushJsonValue fromChars) (34 :: (t ++ [34])) (pushString s) := by
  refine ⟨⟨34, _, rfl, by decide⟩, fun rest _ => ?_⟩
  have shape : 34 :: (t ++ [34]) ++ rest = 34 :: (t ++ 34 :: rest) := by simp
  rw [shape]
  exact (pushJsonValue_cons fromChars (by decide) _).trans (pushJsonQstring_written h rest)

section Containers
variable {fromChars} {w t x buf : Bytes} {k : Nat}

theorem readsAs_array_empty (hw : Blank w) :
    ReadsAs (pushJsonValue fromChars) (91 :: (w ++ [93])) (arrayHeader 0) := by
  refine ⟨⟨91, _, rfl, by decide⟩, fun rest _ => ?_⟩
  have shape : 91 :: (w ++ [93]) ++ rest = 91 :: (w ++ 93 :: rest) := by simp
  rw [shape]
  exact (pushJsonValue_cons fromChars (by decide) _).trans
    (pushJsonContainer_empty (.inl rfl) hw rest)

theorem readsAs_map_empty (hw : Blank w) :
    ReadsAs (pushJsonValue fromChars) (123 :: (w ++ [125])) (mapHeader 0) := by
  refine ⟨⟨123, _, rfl, by decide⟩, fun rest _ => ?_⟩
  have shape : 123 :: (w ++ [125]) ++ rest = 123 :: (w ++ 125 :: rest) := by simp
  rw [shape]
  exact (pushJsonValue_cons fromChars (by decide) _).trans
    (pushJsonContainer_empty (.inr rfl) hw rest)

theorem readsAs_array (h : ReadsElements [44] 93 (pushJsonValue fromChars) t x k)
    (done : finishArray x k = some buf) :
    ReadsAs (pushJsonValue fromChars) (91 :: (t ++ [93])) buf := by
  refine ⟨⟨91, _, rfl, by decide⟩, fun rest _ => ?_⟩
  have shape : 91 :: (t ++ [93]) ++ rest = 91 :: (t ++ 93 :: rest) := by simp
  rw [shape]
  exact (pushJsonValue_cons fromChars (by decide) _).trans (h.container (.inl rfl) done rest)

theorem readsAs_map (h : ReadsElements [58, 44] 125 (pushJsonValue fromChars) t x k)
    (done : finishMap x k = some buf) :
    ReadsAs (pushJsonValue fromChars) (123 :: (t ++ [125])) buf := by
  refine ⟨⟨123, _, rfl, by decide⟩, fun rest _ => ?_⟩
  have shape : 123 :: (t ++ [125]) ++ rest = 123 :: (t ++ 125 :: rest) := by simp
  rw [shape]
  exact (pushJsonValue_cons fromChars (by decide) _).trans (h.container (.inr rfl) done rest)

end Containers

/-- The text of the items of an array or of the pairs of a map is read as them. -/
def ItemsRead (items : List Value) (t : Bytes) : Prop :=
  ReadsElements [44] 93 (pushJsonValue fromChars) t (encodeItems items) items.length

def PairsRead (pairs : List (Value × Value)) (t : Bytes) : Prop :=
  ReadsElements [58, 44] 125 (pushJsonValue fromChars) t (encodePairs pairs) (2 * pairs.length)

theorem itemsRead_last {v : Value} {w t w' : Bytes} (hw : Blank w)
    (h : ReadsAs (pushJsonValue fromChars) t (encode v)) (hw' : Blank w') :
    ItemsRead fromChars [v] (w ++ (t ++ w')) := by
  have last : ReadsElements [44] 93 (pushJsonValue fromChars) (w ++ (t ++ w')) (encode v) 1 :=
    .last (by simp) (.inl rfl) (advances_pushJsonValue fromChars) hw h hw'
  simpa [ItemsRead, encodeItems] using last

theorem itemsRead_cons {v : Value} {items : List Value} {w t w' t' : Bytes} (hw : Blank w)
    (h : ReadsAs (pushJsonValue fromChars) t (encode v)) (hw' : Blank w')
    (others : ItemsRead fromChars items t') :
    ItemsRead fromChars (v :: items) (w ++ (t ++ (w' ++ 44 :: t'))) :=
  .cons (by simp) (.inl rfl) (advances_pushJsonValue fromChars) (by simp) hw h hw' others

theorem pairsRead_last {k v : Value} {w t w' u t' u' : Bytes} (hw : Blank w)
    (key : ReadsAs (pushJsonValue fromChars) t (encode k)) (hw' : Blank w') (hu : Blank u)
    (h : ReadsAs (pushJsonValue fromChars) t' (encode v)) (hu' : Blank u') :
    PairsRead fromChars [(k, v)] (w ++ (t ++ (w' ++ 58 :: (u ++ (t' ++ u'))))) := by
  have advances := advances_pushJsonValue fromChars
  have value : ReadsElements [58, 44] 125 (pushJsonValue fromChars) (u ++ (t' ++ u'))
      (encode v) 1 := .last (by simp) (.inr rfl) advances hu h hu'
  have pair : ReadsElements [58, 44] 125 (pushJsonValue fromChars)
      (w ++ (t ++ (w' ++ 58 :: (u ++ (t' ++ u'))))) (encode k ++ encode v) (1 + 1) :=
    .cons (by simp) (.inr rfl) advances (by simp) hw key hw' value
  simpa [PairsRead, encodePairs] using pair

theorem pairsRead_cons {k v : Value} {pairs : List (Value × Value)} {w t w' u t' u' rest : Bytes}
    (hw : Blank w) (key : ReadsAs (pushJsonValue fromChars) t (encode k)) (hw' : Blank w')
    (hu : Blank u) (h : ReadsAs (pushJsonValue fromChars) t' (encode v)) (hu' : Blank u')
    (others : PairsRead fromChars pairs rest) :
    PairsRead fromChars ((k, v) :: pairs)
      (w ++ (t ++ (w' ++ 58 :: (u ++ (t' ++ (u' ++ 44 :: rest)))))) := by
  have advances := advances_pushJsonValue fromChars
  have value : ReadsElements [58, 44] 125 (pushJsonValue fromChars)
      (u ++ (t' ++ (u' ++ 44 :: rest))) (encode v ++ encodePairs pairs) (2 * pairs.length + 1) :=
    .cons (by simp) (.inr rfl) advances (by simp) hu h hu' others
  have pair : ReadsElements [58, 44] 125 (pushJsonValue fromChars)
      (w ++ (t ++ (w' ++ 58 :: (u ++ (t' ++ (u' ++ 44 :: rest))))))
      (encode k ++ (encode v ++ encodePairs pairs)) (2 * pairs.length + 1 + 1) :=
    .cons (by simp) (.inr rfl) advances (by simp) hw key hw' value
  simpa [PairsRead, encodePairs, Nat.mul_add] using pair

theorem readsAs_items {items : List Value} {t : Bytes} (h : ItemsRead fromChars items t) :
    ReadsAs (pushJsonValue fromChars) (91 :: (t ++ [93])) (encode (.array items)) :=
  readsAs_array h rfl

theorem readsAs_pairs {pairs : List (Value × Value)} {t : Bytes}
    (h : PairsRead fromChars pairs t) :
    ReadsAs (pushJsonValue fromChars) (123 :: (t ++ [125])) (encode (.map pairs)) := by
  refine readsAs_map h ?_
  rw [finishMap, if_neg (by omega), Nat.mul_div_cancel_left _ (by decide), encode]

end Values

end Thespian.Cbor.Json
