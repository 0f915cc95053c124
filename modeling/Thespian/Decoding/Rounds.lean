import Thespian.Decoding.Recursion

/-!
How often the loops of a decoder go round. A counter is a decoder that carries the
number of rounds begun so far, in what it returns and in what it throws. It counts
for a decoder when it gives the decoder's answers and has begun at most one round
for each token taken; a throw ends the last round before it has taken any. The
announced number of rounds does not enter.
-/

namespace Decoding
namespace Decoder

variable {ε τ α β : Type}

abbrev Counter (ε τ : Type) := StateT Nat (Decoder (ε × Nat) τ)

/-- A decoder without loops, with the rounds begun before it. -/
def count (d : Decoder ε τ α) : Counter ε τ α := fun rounds => do
  let a ← mapError (fun e => (e, rounds)) d
  return (a, rounds)

/-- A round begins. -/
def tick : Counter ε τ Unit := fun rounds => return ((), rounds + 1)

/-- A counted loop with the rounds it begins. -/
def roundsN (d : Counter ε τ Unit) : Nat → Counter ε τ Unit
  | 0 => pure ()
  | n + 1 => do
      tick
      d
      roundsN d n

/-- The counter gives the decoder's answers. The rounds begun, with some to spare,
are at most the tokens taken, and one more when it throws. -/
def Counts (spare : Nat) (c : Counter ε τ α) (d : Decoder ε τ α) : Prop :=
  ∀ rounds s, match d s with
    | .ok (a, r) => ∃ n x, c rounds s = .ok ((a, n), r) ∧ s = x ++ r ∧
        n + spare ≤ rounds + x.length
    | .error e => ∃ n, c rounds s = .error (e, n) ∧ n + spare ≤ rounds + s.length + 1

theorem count_of_ok {d : Decoder ε τ α} {s r : List τ} {a : α} (run : d s = .ok (a, r))
    (rounds : Nat) : count d rounds s = .ok ((a, rounds), r) := by
  simp [count, mapError, run]

theorem count_of_error {d : Decoder ε τ α} {s : List τ} {e : ε} (run : d s = .error e)
    (rounds : Nat) : count d rounds s = .error (e, rounds) := by
  simp [count, mapError, run]

theorem counter_bind_apply (c : Counter ε τ α) (f : α → Counter ε τ β) (rounds : Nat)
    (s : List τ) :
    (c >>= f) rounds s =
      match c rounds s with
      | .ok ((a, n), r) => f a n r
      | .error e => .error e := by
  have step : (c >>= f) rounds = c rounds >>= fun p => f p.1 p.2 := rfl
  rw [step, bind_apply]
  cases c rounds s <;> rfl

section Counts
variable {spare : Nat} {c : Counter ε τ α} {d : Decoder ε τ α}

theorem Counts.ok (h : Counts spare c d) {s r : List τ} {a : α} (run : d s = .ok (a, r))
    (rounds : Nat) : ∃ n x, c rounds s = .ok ((a, n), r) ∧ s = x ++ r ∧
      n + spare ≤ rounds + x.length := by
  have counted := h rounds s
  rwa [run] at counted

theorem Counts.error (h : Counts spare c d) {s : List τ} {e : ε} (run : d s = .error e)
    (rounds : Nat) : ∃ n, c rounds s = .error (e, n) ∧ n + spare ≤ rounds + s.length + 1 := by
  have counted := h rounds s
  rwa [run] at counted

/-- With a token to spare, a success has taken one. -/
theorem Counts.taken (h : Counts 1 c d) {s r : List τ} {a : α} (run : d s = .ok (a, r)) :
    ∃ x, x ≠ [] ∧ s = x ++ r := by
  obtain ⟨n, x, -, split, bound⟩ := h.ok run 0
  refine ⟨x, ?_, split⟩
  rintro rfl
  rw [List.length_nil] at bound
  omega

theorem counts_pure (a : α) : Counts 0 (pure a : Counter ε τ α) (pure a) :=
  fun rounds _ => ⟨rounds, [], rfl, rfl, Nat.le_refl _⟩

theorem counts_throw (e : ε) : Counts 0 (count (throw e) : Counter ε τ α) (throw e) :=
  fun rounds s => ⟨rounds, rfl, by omega⟩

/-- What has no loops begins no rounds. -/
theorem Leaves.counts {d : Decoder ε τ α} (leaves : Leaves d) : Counts 0 (count d) d := by
  intro rounds s
  cases run : d s with
  | error e => exact ⟨rounds, count_of_error run rounds, by omega⟩
  | ok p =>
      obtain ⟨a, r⟩ := p
      obtain ⟨x, split⟩ := leaves s a r run
      exact ⟨rounds, x, count_of_ok run rounds, split.symm, by omega⟩

/-- A token taken outside of the loops is one to spare. -/
theorem Advances.counts {d : Decoder ε τ α} (advances : Advances d) (leaves : Leaves d) :
    Counts 1 (count d) d := by
  intro rounds s
  cases run : d s with
  | error e => exact ⟨rounds, count_of_error run rounds, by omega⟩
  | ok p =>
      obtain ⟨a, r⟩ := p
      obtain ⟨x, some_taken, split⟩ := leaves.taken advances run
      have positive := List.length_pos_iff.mpr some_taken
      exact ⟨rounds, x, count_of_ok run rounds, split, by omega⟩

theorem Counts.bind {f : α → Counter ε τ β} {g : α → Decoder ε τ β}
    (first : Counts spare c d) (second : ∀ a, Counts 0 (f a) (g a)) :
    Counts spare (c >>= f) (d >>= g) := by
  intro rounds s
  rw [bind_apply]
  simp only [counter_bind_apply]
  cases run : d s with
  | error e =>
      obtain ⟨n, counted, bound⟩ := first.error run rounds
      exact ⟨n, by rw [counted], bound⟩
  | ok p =>
      obtain ⟨a, t⟩ := p
      obtain ⟨n, x, counted, rfl, bound⟩ := first.ok run rounds
      rw [counted]
      dsimp only
      cases rest : g a t with
      | error e =>
          obtain ⟨m, counted', bound'⟩ := (second a).error rest n
          refine ⟨m, counted', ?_⟩
          rw [List.length_append]
          omega
      | ok p =>
          obtain ⟨b, r⟩ := p
          obtain ⟨m, y, counted', rfl, bound'⟩ := (second a).ok rest n
          refine ⟨m, x ++ y, counted', (List.append_assoc _ _ _).symm, ?_⟩
          rw [List.length_append]
          omega

/-- A loop over a body that takes a token or throws begins no more rounds than it
takes tokens, and one that throws. -/
theorem Counts.roundsN {c : Counter ε τ Unit} {d : Decoder ε τ Unit} (body : Counts 1 c d)
    (n : Nat) : Counts 0 (roundsN c n) (repeatN d n) := by
  induction n with
  | zero => exact counts_pure ()
  | succ n ih =>
      -- the round that begins is paid for by the token the body has to spare
      have round : Counts 0 (tick >>= fun _ => c) d := by
        intro rounds s
        have next : (tick >>= fun _ => c) rounds s = c (rounds + 1) s := rfl
        rw [next]
        cases run : d s with
        | error e =>
            obtain ⟨m, counted, bound⟩ := body.error run (rounds + 1)
            exact ⟨m, counted, by omega⟩
        | ok p =>
            obtain ⟨m, x, counted, split, bound⟩ := body.ok run (rounds + 1)
            exact ⟨m, x, counted, split, by omega⟩
      have both := round.bind fun _ => ih
      rwa [bind_assoc] at both

/-- Nested readers that are counted are counted by the recursive reader. -/
theorem counts_fix [Inhabited ε] {F : Counter ε τ α → Counter ε τ α}
    {G : (Unit → Decoder ε τ α) → Unit → Decoder ε τ α} (few : spare ≤ 1)
    (h : ∀ c d, Counts spare c (d ()) → Counts spare (F c) (G d ())) :
    Counts spare (fix F : Counter ε τ α) (fix G ()) := by
  have unrolled : ∀ n, Counts spare (unroll F n) (unroll G n ()) := by
    intro n
    induction n with
    | zero => exact fun rounds s => ⟨0, rfl, by omega⟩
    | succ n ih => exact h _ _ ih
  exact fun rounds s => unrolled (s.length + 1) rounds s

end Counts

section Recursion
variable {c c' : Counter ε τ α} {f f' : α → Counter ε τ β} {m : Nat}

theorem shrinks_count {d : Decoder ε τ α} (h : Shrinks d) (rounds : Nat) :
    Shrinks (count d rounds) :=
  (h.mapError _).bind fun _ => shrinks_pure _

theorem advances_count {d : Decoder ε τ α} (h : Advances d) (rounds : Nat) :
    Advances (count d rounds) :=
  (h.mapError _).bind fun _ => shrinks_pure _

theorem shrinks_counter_bind (hc : ∀ rounds, Shrinks (c rounds))
    (hf : ∀ a rounds, Shrinks (f a rounds)) (rounds : Nat) : Shrinks ((c >>= f) rounds) :=
  (hc rounds).bind fun p => hf p.1 p.2

theorem shrinks_roundsN {c : Counter ε τ Unit} (h : ∀ rounds, Shrinks (c rounds)) (n : Nat) :
    ∀ rounds, Shrinks (roundsN c n rounds) := by
  induction n with
  | zero => exact fun rounds => shrinks_pure _
  | succ n ih =>
      exact shrinks_counter_bind (fun rounds => shrinks_pure _)
        fun _ => shrinks_counter_bind h fun _ => ih

theorem agree_counter_bind (hc : ∀ rounds, AgreeBelow m (c rounds) (c' rounds))
    (shrinks : ∀ rounds, Shrinks (c rounds))
    (hf : ∀ a rounds, AgreeBelow m (f a rounds) (f' a rounds)) (rounds : Nat) :
    AgreeBelow m ((c >>= f) rounds) ((c' >>= f') rounds) :=
  (hc rounds).bind (shrinks rounds) fun p => hf p.1 p.2

theorem agree_roundsN {c c' : Counter ε τ Unit}
    (h : ∀ rounds, AgreeBelow m (c rounds) (c' rounds)) (shrinks : ∀ rounds, Shrinks (c rounds))
    (n : Nat) : ∀ rounds, AgreeBelow m (roundsN c n rounds) (roundsN c' n rounds) := by
  induction n with
  | zero => exact fun rounds => .refl m _
  | succ n ih =>
      exact agree_counter_bind (fun rounds => .refl m _) (fun rounds => shrinks_pure _)
        fun _ => agree_counter_bind h shrinks fun _ => ih

/-- A body that takes a token before it reads nested items defines a counter. -/
theorem guarded_counter {d : Decoder ε τ α} {F : Counter ε τ β → α → Counter ε τ β}
    (advances : Advances d)
    (shrinks : ∀ c, (∀ rounds, Shrinks (c rounds)) → ∀ a rounds, Shrinks (F c a rounds))
    (agree : ∀ c c' m, (∀ rounds, Shrinks (c rounds)) →
      (∀ rounds, AgreeBelow m (c rounds) (c' rounds)) →
      ∀ a rounds, AgreeBelow m (F c a rounds) (F c' a rounds)) :
    Guarded (fun c : Counter ε τ β => count d >>= F c) where
  shrinks := fun c hc rounds =>
    ((advances_count advances rounds).bind fun p => shrinks c hc p.1 p.2).shrinks
  agree := fun c c' m hc _ h rounds =>
    .guard (advances_count advances rounds) fun p => agree c c' m hc h p.1 p.2

end Recursion

/-- The rounds begun, whether the decoder returns or throws. -/
def roundsBegun : Except (ε × Nat) ((α × Nat) × List τ) → Nat
  | .ok ((_, n), _) => n
  | .error (_, n) => n

theorem Counts.begun {spare : Nat} {c : Counter ε τ α} {d : Decoder ε τ α}
    (h : Counts spare c d) (s : List τ) : roundsBegun (c 0 s) + spare ≤ s.length + 1 := by
  cases run : d s with
  | error e =>
      obtain ⟨n, counted, bound⟩ := h.error run 0
      rw [counted]
      dsimp only [roundsBegun]
      omega
  | ok p =>
      obtain ⟨n, x, counted, rfl, bound⟩ := h.ok run 0
      rw [counted]
      dsimp only [roundsBegun]
      rw [List.length_append]
      omega

end Decoder
end Decoding
