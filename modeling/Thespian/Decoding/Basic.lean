import Mathlib.Data.List.Basic
import Mathlib.Data.List.Infix

/-!
Decoders that read a value off the front of a token list or throw.

A decoder is stable when what follows its item cannot change its answer. For a
stable decoder exact consumption of an encoding already excludes success on any
proper prefix of it, so a prefix code needs only the forward half of the proof.
Shrinking and advancing measure how much input a success uses up; they are the
termination facts of every recursive reader built from these parts.
-/

namespace Decoding

abbrev Decoder (ε τ : Type) := StateT (List τ) (Except ε)

variable {ε τ α β : Type}

namespace Decoder

@[simp] theorem pure_apply (a : α) (s : List τ) :
    (pure a : Decoder ε τ α) s = .ok (a, s) := rfl

@[simp] theorem throw_apply (e : ε) (s : List τ) :
    (throw e : Decoder ε τ α) s = .error e := rfl

@[simp] theorem bind_apply (d : Decoder ε τ α) (f : α → Decoder ε τ β) (s : List τ) :
    (d >>= f) s =
      match d s with
      | .ok (a, r) => f a r
      | .error e => .error e := by
  show (StateT.bind d f) s = _
  simp only [StateT.bind, bind, Except.bind]
  cases d s <;> rfl

@[simp] theorem map_apply (f : α → β) (d : Decoder ε τ α) (s : List τ) :
    (f <$> d) s =
      match d s with
      | .ok (a, r) => .ok (f a, r)
      | .error e => .error e := by
  show (StateT.map f d) s = _
  simp only [StateT.map, bind, Except.bind]
  cases d s <;> rfl

/-- A successful sequence splits at the input its first part leaves. -/
theorem bind_eq_ok {d : Decoder ε τ α} {f : α → Decoder ε τ β} {s r : List τ} {b : β}
    (h : (d >>= f) s = .ok (b, r)) :
    ∃ a t, d s = .ok (a, t) ∧ f a t = .ok (b, r) := by
  rw [bind_apply] at h
  cases hd : d s with
  | error e => simp [hd] at h
  | ok p => exact ⟨p.1, p.2, rfl, by simpa [hd] using h⟩

theorem bind_eq_ok_iff {d : Decoder ε τ α} {f : α → Decoder ε τ β} {s r : List τ} {b : β} :
    (d >>= f) s = .ok (b, r) ↔ ∃ a t, d s = .ok (a, t) ∧ f a t = .ok (b, r) := by
  refine ⟨bind_eq_ok, ?_⟩
  rintro ⟨a, t, hd, hf⟩
  simp [hd, hf]

theorem bind_of_ok {d : Decoder ε τ α} {s t : List τ} {a : α} (h : d s = .ok (a, t))
    (f : α → Decoder ε τ β) : (d >>= f) s = f a t := by
  simp [h]

theorem bind_of_error {d : Decoder ε τ α} {s : List τ} {e : ε} (h : d s = .error e)
    (f : α → Decoder ε τ β) : (d >>= f) s = .error e := by
  simp [h]

/-- Take the next token; the given error is thrown at the end of the input. -/
def next (e : ε) : Decoder ε τ τ
  | [] => .error e
  | t :: s => .ok (t, s)

@[simp] theorem next_nil (e : ε) : next e ([] : List τ) = .error e := rfl

@[simp] theorem next_cons (e : ε) (t : τ) (s : List τ) : next e (t :: s) = .ok (t, s) := rfl

/-- Take exactly the given number of tokens. -/
def takeN (e : ε) : Nat → Decoder ε τ (List τ)
  | 0 => pure []
  | n + 1 => do
      let t ← next e
      let ts ← takeN e n
      return t :: ts

/-- Run a decoder a counted number of times for its effect on the input. -/
def repeatN (d : Decoder ε τ Unit) : Nat → Decoder ε τ Unit
  | 0 => pure ()
  | n + 1 => do
      d
      repeatN d n

/-- Skipping tokens one by one is taking them without keeping them. -/
theorem repeatN_next (e : ε) (n : Nat) :
    repeatN (do let _ ← next e) n = (do let _ ← takeN e n : Decoder ε τ Unit) := by
  induction n with
  | zero => rfl
  | succ n ih => simp only [repeatN, takeN, ih, bind_assoc, pure_bind]

/-- The same decoder with its errors translated. -/
def mapError {ε' : Type} (f : ε → ε') (d : Decoder ε τ α) : Decoder ε' τ α := fun s =>
  match d s with
  | .ok res => .ok res
  | .error e => .error (f e)

theorem mapError_eq_ok {ε' : Type} (f : ε → ε') {d : Decoder ε τ α} {s r : List τ} {a : α} :
    mapError f d s = .ok (a, r) ↔ d s = .ok (a, r) := by
  unfold mapError
  cases d s <;> simp

/-- A success on an input is a success on every extension of it, with the
extension left over. -/
def Stable (d : Decoder ε τ α) : Prop :=
  ∀ s a r, d s = .ok (a, r) → ∀ t, d (s ++ t) = .ok (a, r ++ t)

/-- A success never leaves more input than it was given. -/
def Shrinks (d : Decoder ε τ α) : Prop :=
  ∀ s a r, d s = .ok (a, r) → r.length ≤ s.length

/-- A success uses up at least one token. -/
def Advances (d : Decoder ε τ α) : Prop :=
  ∀ s a r, d s = .ok (a, r) → r.length < s.length

/-- A success leaves the end of its input. -/
def Leaves (d : Decoder ε τ α) : Prop :=
  ∀ s a r, d s = .ok (a, r) → r <:+ s

/-- The decoder reads the tokens as the value and leaves what follows alone. -/
def Reads (d : Decoder ε τ α) (x : List τ) (a : α) : Prop :=
  ∀ r, d (x ++ r) = .ok (a, r)

theorem Advances.shrinks {d : Decoder ε τ α} (h : Advances d) : Shrinks d :=
  fun s a r hs => Nat.le_of_lt (h s a r hs)

theorem shrinks_pure (a : α) : Shrinks (pure a : Decoder ε τ α) := by
  intro s b r h
  cases h
  exact Nat.le_refl _

theorem shrinks_throw (e : ε) : Shrinks (throw e : Decoder ε τ α) := by
  intro s a r h
  cases h

theorem Shrinks.bind {d : Decoder ε τ α} {f : α → Decoder ε τ β}
    (hd : Shrinks d) (hf : ∀ a, Shrinks (f a)) : Shrinks (d >>= f) := by
  intro s b r h
  obtain ⟨a, t, hs, ht⟩ := bind_eq_ok h
  exact Nat.le_trans (hf a t b r ht) (hd s a t hs)

theorem Advances.bind {d : Decoder ε τ α} {f : α → Decoder ε τ β}
    (hd : Advances d) (hf : ∀ a, Shrinks (f a)) : Advances (d >>= f) := by
  intro s b r h
  obtain ⟨a, t, hs, ht⟩ := bind_eq_ok h
  exact Nat.lt_of_le_of_lt (hf a t b r ht) (hd s a t hs)

theorem advances_next (e : ε) : Advances (next e : Decoder ε τ τ) := by
  intro s a r h
  cases s with
  | nil => cases h
  | cons t s => cases h; simp

theorem Shrinks.mapError {ε' : Type} {d : Decoder ε τ α} (hd : Shrinks d) (f : ε → ε') :
    Shrinks (mapError f d) :=
  fun s a r h => hd s a r ((mapError_eq_ok f).mp h)

theorem Advances.mapError {ε' : Type} {d : Decoder ε τ α} (hd : Advances d) (f : ε → ε') :
    Advances (mapError f d) :=
  fun s a r h => hd s a r ((mapError_eq_ok f).mp h)

theorem Shrinks.repeatN {d : Decoder ε τ Unit} (hd : Shrinks d) (n : Nat) :
    Shrinks (repeatN d n) := by
  induction n with
  | zero => exact shrinks_pure ()
  | succ n ih => exact hd.bind fun _ => ih

theorem shrinks_takeN (e : ε) (n : Nat) : Shrinks (takeN e n : Decoder ε τ (List τ)) := by
  induction n with
  | zero => exact shrinks_pure []
  | succ n ih =>
      exact (advances_next e).shrinks.bind fun _ => ih.bind fun _ => shrinks_pure _

theorem leaves_pure (a : α) : Leaves (pure a : Decoder ε τ α) := by
  intro s b r h
  cases h
  exact List.suffix_rfl

theorem leaves_throw (e : ε) : Leaves (throw e : Decoder ε τ α) := by
  intro s a r h
  cases h

theorem leaves_next (e : ε) : Leaves (next e : Decoder ε τ τ) := by
  intro s a r h
  cases s with
  | nil => cases h
  | cons t s =>
      cases h
      exact List.suffix_cons _ _

theorem Leaves.bind {d : Decoder ε τ α} {f : α → Decoder ε τ β}
    (hd : Leaves d) (hf : ∀ a, Leaves (f a)) : Leaves (d >>= f) := by
  intro s b r h
  obtain ⟨a, t, hs, ht⟩ := bind_eq_ok h
  exact (hf a t b r ht).trans (hd s a t hs)

theorem Leaves.repeatN {d : Decoder ε τ Unit} (hd : Leaves d) (n : Nat) :
    Leaves (repeatN d n) := by
  induction n with
  | zero => exact leaves_pure ()
  | succ n ih => exact hd.bind fun _ => ih

/-- A success of an advancing decoder has taken some tokens off the front. -/
theorem Leaves.taken {d : Decoder ε τ α} (leaves : Leaves d) (advances : Advances d)
    {s r : List τ} {a : α} (h : d s = .ok (a, r)) : ∃ x, x ≠ [] ∧ s = x ++ r := by
  obtain ⟨x, rfl⟩ := leaves s a r h
  refine ⟨x, ?_, rfl⟩
  rintro rfl
  exact absurd (advances r a r h) (Nat.lt_irrefl _)

theorem stable_pure (a : α) : Stable (pure a : Decoder ε τ α) := by
  intro s b r h t
  cases h
  rfl

theorem stable_throw (e : ε) : Stable (throw e : Decoder ε τ α) := by
  intro s a r h
  cases h

theorem stable_next (e : ε) : Stable (next e : Decoder ε τ τ) := by
  intro s a r h t
  cases s with
  | nil => cases h
  | cons u s => cases h; rfl

theorem Stable.bind {d : Decoder ε τ α} {f : α → Decoder ε τ β}
    (hd : Stable d) (hf : ∀ a, Stable (f a)) : Stable (d >>= f) := by
  intro s b r h t
  obtain ⟨a, u, hs, hu⟩ := bind_eq_ok h
  rw [bind_of_ok (hd s a u hs t)]
  exact hf a u b r hu t

theorem Stable.repeatN {d : Decoder ε τ Unit} (hd : Stable d) (n : Nat) :
    Stable (repeatN d n) := by
  induction n with
  | zero => exact stable_pure ()
  | succ n ih => exact hd.bind fun _ => ih

theorem stable_takeN (e : ε) (n : Nat) : Stable (takeN e n : Decoder ε τ (List τ)) := by
  induction n with
  | zero => exact stable_pure []
  | succ n ih => exact (stable_next e).bind fun _ => ih.bind fun _ => stable_pure _

theorem reads_pure (a : α) : Reads (pure a : Decoder ε τ α) [] a := fun _ => rfl

theorem Reads.bind {d : Decoder ε τ α} {f : α → Decoder ε τ β} {x y : List τ} {a : α} {b : β}
    (hd : Reads d x a) (hf : Reads (f a) y b) : Reads (d >>= f) (x ++ y) b := by
  intro r
  rw [List.append_assoc, bind_of_ok (hd (y ++ r))]
  exact hf r

theorem reads_takeN (e : ε) (x : List τ) : Reads (takeN e x.length) x x := by
  induction x with
  | nil => exact reads_pure []
  | cons t x ih =>
      intro r
      have head : next e (t :: x ++ r) = .ok (t, x ++ r) := rfl
      rw [List.length_cons, takeN, bind_of_ok head, bind_of_ok (ih r)]
      rfl

/-- A counted loop reads a concatenation of items one by one. -/
theorem Reads.repeatN {d : Decoder ε τ Unit} (xs : List (List τ))
    (h : ∀ x ∈ xs, Reads d x ()) : Reads (repeatN d xs.length) xs.flatten () := by
  induction xs with
  | nil => exact reads_pure ()
  | cons x xs ih =>
      have head : Reads d x () := h x (by simp)
      have tail := ih fun y hy => h y (by simp [hy])
      exact head.bind (f := fun _ => Decoder.repeatN d xs.length) tail

/-- Exact consumption together with stability excludes success on every proper
prefix: the extension by the missing tokens would have to be left over. -/
theorem Stable.throws_on_proper {d : Decoder ε τ α} (hd : Stable d) {x p : List τ} {a : α}
    (hx : Reads d x a) (hp : p <+: x) (hne : p ≠ x) : ∃ e, d p = .error e := by
  obtain ⟨q, rfl⟩ := hp
  cases h : d p with
  | error e => exact ⟨e, rfl⟩
  | ok res =>
      obtain ⟨b, r⟩ := res
      have whole := hx []
      rw [List.append_nil, hd p b r h q] at whole
      have left : r ++ q = [] := congrArg Prod.snd (Except.ok.inj whole)
      have missing : q = [] := (List.append_eq_nil_iff.mp left).2
      exact absurd (by simp [missing]) hne

end Decoder
end Decoding
