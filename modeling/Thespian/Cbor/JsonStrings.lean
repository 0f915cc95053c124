import Thespian.Cbor.JsonBuffer
import Thespian.Cbor.JsonReading

/-!
The two parsers of a JSON string with the buffer they push to. The fast one looks
for the closing quote on a copy of the position and pushes the text before it as
it stands; where an escape comes first it starts over as the slow one, which
collects the string character by character. Without an escape the slow one
collects the same text, and both fail where the closing quote is missing, though
not with the same text left over.
-/

namespace Thespian.Cbor.Json
open Decoding Decoding.Decoder

theorem pushJsonQstring_other {t : Bytes} (h : ∀ rest, t ≠ 34 :: rest) :
    pushJsonQstring t = .error t := by
  unfold pushJsonQstring
  split
  · rename_i rest
    exact absurd rfl (h rest)
  · rfl

theorem pushJsonQstringSlow_other {t : Bytes} (h : ∀ rest, t ≠ 34 :: rest) :
    pushJsonQstringSlow t = .error t := by
  cases t with
  | nil => rfl
  | cons c t =>
      have other : c ≠ 34 := fun same => h t (same ▸ rfl)
      simp [pushJsonQstringSlow, expectChar, matchChar, matchCharIf, other, fail]

theorem pushJsonQstringSlow_cons (t : Bytes) :
    pushJsonQstringSlow (34 :: t) = qstringSlow [] t :=
  bind_of_ok (expectChar_cons 34 t) _

namespace Buffered

/-- The loop of push_json_qstring_slow behind the opening quote. -/
def qstringSlow (buf s : Bytes) : Pusher Bytes
  | [] => .error (buf, [])
  | [92] => .error (buf, [])
  | 92 :: c :: rest => qstringSlow buf (s ++ [unescape c]) rest
  | 34 :: rest => .ok (buf ++ pushString s, rest)
  | c :: rest => qstringSlow buf (s ++ [c]) rest

def pushJsonQstringSlow (buf : Bytes) : Pusher Bytes := do
  keeping buf (expectChar 34)
  qstringSlow buf []

def pushJsonQstring (buf : Bytes) : Pusher Bytes := fun t =>
  match t with
  | 34 :: rest =>
      match scanJsonQstring [] rest with
      | none => .error (buf, t)
      | some none => pushJsonQstringSlow buf t
      | some (some (s, rest)) => .ok (buf ++ pushString s, rest)
  | _ => .error (buf, t)

theorem qstringSlow_pushed (buf s t : Bytes) :
    qstringSlow buf s t = pushed buf (Json.qstringSlow s) t := by
  induction s, t using Json.qstringSlow.induct with
  | case1 s | case2 s | case4 s rest => rfl
  | case3 s c rest ih =>
      rw [qstringSlow, ih]
      rfl
  | case5 s c rest notEscape notLast notQuote ih =>
      rw [qstringSlow, ih]
      · simp only [pushed, keeping, mapError, bind_apply]
        rw [Json.qstringSlow]
        all_goals assumption
      all_goals assumption

theorem pushJsonQstringSlow_pushed (buf : Bytes) :
    pushJsonQstringSlow buf = pushed buf Json.pushJsonQstringSlow := by
  have loops : qstringSlow buf [] = pushed buf (Json.qstringSlow []) :=
    funext (qstringSlow_pushed buf [])
  rw [pushJsonQstringSlow, Json.pushJsonQstringSlow, loops, pushed, pushed, keeping_bind,
    bind_assoc]

/-- The parser with its buffer is the one the parser of values calls. -/
theorem pushJsonQstring_pushed (buf : Bytes) :
    pushJsonQstring buf = pushed buf Json.pushJsonQstring := by
  funext t
  unfold pushJsonQstring
  split
  · rename_i rest
    rw [pushJsonQstringSlow_pushed]
    simp only [pushed, keeping, mapError, bind_apply, Json.pushJsonQstring]
    cases scanned : scanJsonQstring [] rest with
    | none => rfl
    | some found => cases found <;> rfl
  · rename_i other
    simp only [pushed, keeping, mapError, bind_apply, pushJsonQstring_other other]

/-- A parser with its buffer appends the value or leaves the buffer alone. -/
theorem pushed_eq_ok {buf buf' t rest : Bytes} {d : Parser Bytes} :
    pushed buf d t = .ok (buf', rest) ↔ ∃ value, d t = .ok (value, rest) ∧ buf' = buf ++ value := by
  simp only [pushed, keeping, mapError, bind_apply]
  cases d t with
  | error left => simp
  | ok p =>
      obtain ⟨value, r⟩ := p
      simp [eq_comm, and_comm]

theorem pushed_eq_error {buf buf' t rest : Bytes} {d : Parser Bytes}
    (h : pushed buf d t = .error (buf', rest)) : buf' = buf := by
  simp only [pushed, keeping, mapError, bind_apply] at h
  cases run : d t with
  | error left =>
      rw [run] at h
      cases h
      rfl
  | ok p =>
      rw [run] at h
      cases h

end Buffered

/-- Up to the closing quote found first the slow parser collects the same text. -/
theorem qstringSlow_closed {s t content rest : Bytes}
    (h : scanJsonQstring s t = some (some (content, rest))) :
    qstringSlow s t = .ok (pushString content, rest) := by
  induction t generalizing s with
  | nil => cases h
  | cons c t ih =>
      rw [scanJsonQstring] at h
      split at h
      · cases h
      · rename_i escape
        split at h
        · rename_i quote
          subst quote
          cases h
          rw [qstringSlow]
        · rename_i quote
          rw [qstringSlow_plain escape quote]
          exact ih h

/-- Where there is neither an escape nor a closing quote the slow parser fails. -/
theorem qstringSlow_open {s t : Bytes} (h : scanJsonQstring s t = none) :
    qstringSlow s t = .error [] := by
  induction t generalizing s with
  | nil => rfl
  | cons c t ih =>
      rw [scanJsonQstring] at h
      split at h
      · cases h
      · rename_i escape
        split at h
        · cases h
        · rename_i quote
          rw [qstringSlow_plain escape quote]
          exact ih h

/-- The two parsers succeed together, with the same value at the same place. -/
theorem pushJsonQstring_iff_slow {t value rest : Bytes} :
    pushJsonQstring t = .ok (value, rest) ↔ pushJsonQstringSlow t = .ok (value, rest) := by
  by_cases quote : ∃ u, t = 34 :: u
  · obtain ⟨u, rfl⟩ := quote
    cases scanned : scanJsonQstring [] u with
    | none =>
        rw [pushJsonQstringSlow_cons, qstringSlow_open scanned]
        simp only [pushJsonQstring, scanned, reduceCtorEq]
    | some found =>
        cases found with
        | none => simp only [pushJsonQstring, scanned]
        | some p =>
            rw [pushJsonQstringSlow_cons, qstringSlow_closed scanned]
            simp only [pushJsonQstring, scanned]
  · have other : ∀ u, t ≠ 34 :: u := fun u same => quote ⟨u, same⟩
    rw [pushJsonQstring_other other, pushJsonQstringSlow_other other]

theorem leaves_qstringSlow (s : Bytes) : Leaves (qstringSlow s) := by
  intro t a r h
  induction s, t using qstringSlow.induct with
  | case1 s | case2 s => cases h
  | case3 s c rest ih =>
      exact (ih h).trans ((List.suffix_cons c rest).trans (List.suffix_cons 92 _))
  | case4 s rest =>
      cases h
      exact List.suffix_cons _ _
  | case5 s c rest notEscape notLast notQuote ih =>
      rw [qstringSlow] at h
      · exact (ih h).trans (List.suffix_cons c rest)
      all_goals assumption

/-- A success of the slow parser has taken the two quotes at least. -/
theorem pushJsonQstringSlow_position {text value rest : Bytes} {pos : Nat}
    (h : pushJsonQstringSlow (text.drop pos) = .ok (value, rest)) :
    ∃ pos', pos < pos' ∧ pos' ≤ text.length ∧ rest = text.drop pos' := by
  cases start : text.drop pos with
  | nil =>
      rw [start] at h
      cases h
  | cons c t =>
      by_cases quote : c = 34
      · subst quote
        rw [start, pushJsonQstringSlow_cons] at h
        have inside : text.drop (pos + 1) = t := by
          rw [← List.drop_drop, start]
          rfl
        obtain ⟨content, split⟩ := leaves_qstringSlow [] t value rest h
        have bound : t.length + (pos + 1) ≤ text.length := by
          have some_left := congrArg List.length start
          rw [List.length_drop, List.length_cons] at some_left
          omega
        have sizes := congrArg List.length split
        rw [List.length_append] at sizes
        refine ⟨pos + 1 + content.length, by omega, by omega, ?_⟩
        rw [← List.drop_drop, inside, ← split, List.drop_left]
      · have other : ∀ u, text.drop pos ≠ 34 :: u := by
          intro u same
          rw [start] at same
          exact quote (List.cons.inj same).1
        rw [pushJsonQstringSlow_other other] at h
        cases h

/-- From every position of every text the two string parsers succeed together;
then they have appended the same bytes and stand at the same later position, and
otherwise neither has touched the buffer. -/
theorem string_paths_agree (buf text : Bytes) (pos : Nat) :
    (∀ buf' rest, Buffered.pushJsonQstring buf (text.drop pos) = .ok (buf', rest) ↔
      Buffered.pushJsonQstringSlow buf (text.drop pos) = .ok (buf', rest)) ∧
    (∀ buf' rest, Buffered.pushJsonQstringSlow buf (text.drop pos) = .ok (buf', rest) →
      ∃ value pos', buf' = buf ++ value ∧
        pos < pos' ∧ pos' ≤ text.length ∧ rest = text.drop pos') ∧
    (∀ buf' left, Buffered.pushJsonQstring buf (text.drop pos) = .error (buf', left) →
      buf' = buf) ∧
    ∀ buf' left, Buffered.pushJsonQstringSlow buf (text.drop pos) = .error (buf', left) →
      buf' = buf := by
  rw [Buffered.pushJsonQstring_pushed, Buffered.pushJsonQstringSlow_pushed]
  refine ⟨fun buf' rest => ?_, fun buf' rest run => ?_, fun _ _ => Buffered.pushed_eq_error,
    fun _ _ => Buffered.pushed_eq_error⟩
  · simp only [Buffered.pushed_eq_ok, pushJsonQstring_iff_slow]
  · obtain ⟨value, slow, rfl⟩ := Buffered.pushed_eq_ok.mp run
    obtain ⟨pos', later, inside, left⟩ := pushJsonQstringSlow_position slow
    exact ⟨value, pos', rfl, later, inside, left⟩

end Thespian.Cbor.Json
