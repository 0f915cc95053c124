import Thespian.Decoding.Basic

/-!
Recursive decoders from their bodies. A body receives the reader for its nested
items as an argument; unrolling it as often as there are tokens left gives a
total reader. When nested items are only read after a token has been used up,
the unrolling depth is irrelevant and the reader satisfies its own recursive
equation. Counted loops and loops that run until their body is done are the two
loop forms such bodies use.
-/

namespace Decoding
namespace Decoder

variable {ε τ α β σ : Type}

/-- Two decoders give the same answer on every input shorter than the bound. -/
def AgreeBelow (n : Nat) (d d' : Decoder ε τ α) : Prop :=
  ∀ s, s.length < n → d s = d' s

theorem AgreeBelow.refl (n : Nat) (d : Decoder ε τ α) : AgreeBelow n d d :=
  fun _ _ => rfl

theorem AgreeBelow.bind {n : Nat} {d d' : Decoder ε τ α} {f f' : α → Decoder ε τ β}
    (hd : AgreeBelow n d d') (shrinks : Shrinks d) (hf : ∀ a, AgreeBelow n (f a) (f' a)) :
    AgreeBelow n (d >>= f) (d' >>= f') := by
  intro s hs
  rw [bind_apply, bind_apply, ← hd s hs]
  cases h : d s with
  | error e => rfl
  | ok p => exact hf p.1 p.2 (Nat.lt_of_le_of_lt (shrinks s p.1 p.2 h) hs)

/-- After a token has been used up the continuations need to agree only on
strictly shorter inputs. -/
theorem AgreeBelow.guard {n : Nat} {d : Decoder ε τ α} {f f' : α → Decoder ε τ β}
    (advances : Advances d) (hf : ∀ a, AgreeBelow n (f a) (f' a)) :
    AgreeBelow (n + 1) (d >>= f) (d >>= f') := by
  intro s hs
  rw [bind_apply, bind_apply]
  cases h : d s with
  | error e => rfl
  | ok p =>
      have shorter := advances s p.1 p.2 h
      exact hf p.1 p.2 (by omega)

theorem AgreeBelow.repeatN {n : Nat} {d d' : Decoder ε τ Unit}
    (hd : AgreeBelow n d d') (shrinks : Shrinks d) (k : Nat) :
    AgreeBelow n (repeatN d k) (repeatN d' k) := by
  induction k with
  | zero => exact .refl n _
  | succ k ih => exact hd.bind shrinks fun _ => ih

/-- A counted loop with an accumulator; the body sees how many rounds remain. -/
def countdown (body : Nat → β → Decoder ε τ β) : Nat → β → Decoder ε τ β
  | 0, b => pure b
  | n + 1, b => do
      let b ← body n b
      countdown body n b

theorem Shrinks.countdown {body : Nat → β → Decoder ε τ β}
    (h : ∀ i b, Shrinks (body i b)) (n : Nat) (b : β) : Shrinks (countdown body n b) := by
  induction n generalizing b with
  | zero => exact shrinks_pure b
  | succ n ih => exact (h n b).bind fun b => ih b

theorem AgreeBelow.countdown {n : Nat} {body body' : Nat → β → Decoder ε τ β}
    (h : ∀ i b, AgreeBelow n (body i b) (body' i b)) (shrinks : ∀ i b, Shrinks (body i b))
    (k : Nat) (b : β) : AgreeBelow n (countdown body k b) (countdown body' k b) := by
  induction k generalizing b with
  | zero => exact .refl n _
  | succ k ih => exact (h k b).bind (shrinks k b) fun b => ih b

/-- A counted loop over an advancing body uses up a token for each round. -/
theorem countdown_length {body : Nat → β → Decoder ε τ β}
    (h : ∀ i b, Advances (body i b)) {n : Nat} {b b' : β} {s r : List τ}
    (run : countdown body n b s = .ok (b', r)) : r.length + n ≤ s.length := by
  induction n generalizing b s with
  | zero =>
      cases run
      exact Nat.le_refl _
  | succ n ih =>
      obtain ⟨c, t, head, tail⟩ := bind_eq_ok run
      have shorter := h n b s c t head
      have rest := ih tail
      omega

/-- A counted loop whose rounds keep a property of the accumulator keeps it. -/
theorem countdown_ensures {Inv : β → Prop} {body : Nat → β → Decoder ε τ β}
    (h : ∀ i b s b' r, Inv b → body i b s = .ok (b', r) → Inv b') {n : Nat} {b b' : β}
    {s r : List τ} (start : Inv b) (run : countdown body n b s = .ok (b', r)) : Inv b' := by
  induction n generalizing b s with
  | zero =>
      cases run
      exact start
  | succ n ih =>
      obtain ⟨c, t, head, tail⟩ := bind_eq_ok run
      exact ih (h n b s c t start head) tail

/-- Run a decoder a counted number of times and concatenate what it returns. -/
def collectN (d : Decoder ε τ (List α)) : Nat → Decoder ε τ (List α)
  | 0 => pure []
  | n + 1 => do
      let xs ← d
      let ys ← collectN d n
      return xs ++ ys

theorem Shrinks.collectN {d : Decoder ε τ (List α)} (hd : Shrinks d) (n : Nat) :
    Shrinks (collectN d n) := by
  induction n with
  | zero => exact shrinks_pure []
  | succ n ih => exact hd.bind fun _ => ih.bind fun _ => shrinks_pure _

theorem AgreeBelow.collectN {n : Nat} {d d' : Decoder ε τ (List α)}
    (hd : AgreeBelow n d d') (shrinks : Shrinks d) (k : Nat) :
    AgreeBelow n (collectN d k) (collectN d' k) := by
  induction k with
  | zero => exact .refl n _
  | succ k ih =>
      exact hd.bind shrinks fun _ => ih.bind (shrinks.collectN k) fun _ => .refl n _

theorem agree_forget_collectN {n : Nat} {d : Decoder ε τ Unit} {d' : Decoder ε τ (List α)}
    (h : AgreeBelow n d (do let _ ← d')) (shrinks : Shrinks d') (k : Nat) :
    AgreeBelow n (repeatN d k) (do let _ ← collectN d' k) := by
  induction k with
  | zero => exact .refl n _
  | succ k ih =>
      intro s hs
      have head := h s hs
      simp only [repeatN, collectN, bind_apply, pure_apply] at head ⊢
      rw [head]
      cases hd : d' s with
      | error e => rfl
      | ok p =>
          have tail := ih p.2 (Nat.lt_of_le_of_lt (shrinks s p.1 p.2 hd) hs)
          simp only [bind_apply, pure_apply] at tail
          simp only [tail]
          cases collectN d' k p.2 <;> rfl

theorem collectN_pairs (d : Decoder ε τ (List α)) (k : Nat) :
    collectN (do
      let xs ← d
      let ys ← d
      return xs ++ ys) k = collectN d (2 * k) := by
  induction k with
  | zero => rfl
  | succ k ih =>
      funext s
      rw [show 2 * (k + 1) = 2 * k + 1 + 1 by omega]
      simp only [collectN, ih, bind_apply, pure_apply]
      cases d s with
      | error e => rfl
      | ok p =>
          obtain ⟨xs, t⟩ := p
          dsimp only
          cases d t with
          | error e => rfl
          | ok p =>
              obtain ⟨ys, u⟩ := p
              dsimp only
              cases collectN d (2 * k) u with
              | error e => rfl
              | ok p => simp

/-- The body unrolled to a bounded nesting depth. -/
def unroll [Inhabited ε] (F : (β → Decoder ε τ α) → β → Decoder ε τ α) :
    Nat → β → Decoder ε τ α
  | 0 => fun _ => throw default
  | n + 1 => F (unroll F n)

/-- The reader defined by a body: one level for each token and one to spare. -/
def fix [Inhabited ε] (F : (β → Decoder ε τ α) → β → Decoder ε τ α) (b : β) :
    Decoder ε τ α :=
  fun s => unroll F (s.length + 1) b s

/-- Nested reads happen on strictly shorter inputs only. -/
structure Guarded (F : (β → Decoder ε τ α) → β → Decoder ε τ α) : Prop where
  shrinks : ∀ d, (∀ b, Shrinks (d b)) → ∀ b, Shrinks (F d b)
  agree : ∀ d d' n, (∀ b, Shrinks (d b)) → (∀ b, Shrinks (d' b)) →
    (∀ b, AgreeBelow n (d b) (d' b)) → ∀ b, AgreeBelow (n + 1) (F d b) (F d' b)

section Fix
variable [Inhabited ε] {F : (β → Decoder ε τ α) → β → Decoder ε τ α}

theorem Guarded.unroll_shrinks (hF : Guarded F) (n : Nat) (b : β) :
    Shrinks (unroll F n b) := by
  induction n generalizing b with
  | zero => exact shrinks_throw default
  | succ n ih => exact hF.shrinks _ ih b

/-- Beyond the length of the input the unrolling depth is irrelevant. -/
theorem Guarded.unroll_agree (hF : Guarded F) (k m n : Nat) (hm : k ≤ m) (hn : k ≤ n)
    (b : β) : AgreeBelow k (unroll F m b) (unroll F n b) := by
  induction k generalizing m n b with
  | zero =>
      intro s hs
      omega
  | succ k ih =>
      obtain ⟨m, rfl⟩ : ∃ j, m = j + 1 := ⟨m - 1, by omega⟩
      obtain ⟨n, rfl⟩ : ∃ j, n = j + 1 := ⟨n - 1, by omega⟩
      exact hF.agree _ _ k (hF.unroll_shrinks m) (hF.unroll_shrinks n)
        (fun c => ih m n (by omega) (by omega) c) b

theorem Guarded.fix_agree (hF : Guarded F) (n : Nat) (b : β) :
    AgreeBelow n (fix F b) (unroll F n b) := by
  intro s hs
  exact hF.unroll_agree (s.length + 1) (s.length + 1) n (Nat.le_refl _) hs b s (by omega)

theorem Guarded.fix_shrinks (hF : Guarded F) (b : β) : Shrinks (fix F b) := by
  intro s a r h
  exact hF.unroll_shrinks (s.length + 1) b s a r h

/-- The reader satisfies its recursive equation. -/
theorem Guarded.fix_eq (hF : Guarded F) (b : β) : fix F b = F (fix F) b := by
  funext s
  have nested : ∀ c, AgreeBelow s.length (unroll F s.length c) (fix F c) :=
    fun c t ht => (hF.fix_agree s.length c t ht).symm
  exact hF.agree _ _ s.length (hF.unroll_shrinks s.length) hF.fix_shrinks nested b s
    (by omega)

theorem Guarded.fix_stable (hF : Guarded F)
    (h : ∀ d, (∀ b, Stable (d b)) → ∀ b, Stable (F d b)) (b : β) : Stable (fix F b) := by
  have unrolled : ∀ n b, Stable (unroll F n b) := by
    intro n
    induction n with
    | zero => exact fun _ => stable_throw default
    | succ n ih => exact h _ ih
  intro s a r hs t
  have deep : unroll F ((s ++ t).length + 1) b s = .ok (a, r) := by
    rw [← hs]
    exact (hF.fix_agree _ b s (by rw [List.length_append]; omega)).symm
  exact unrolled _ b s a r deep t

/-- What a body ensures of its successes whenever the nested readers ensure it,
the reader ensures. -/
theorem fix_ensures {R : β → List τ → α → List τ → Prop}
    (h : ∀ d, (∀ b s a r, d b s = .ok (a, r) → R b s a r) →
      ∀ b s a r, F d b s = .ok (a, r) → R b s a r)
    {b : β} {s r : List τ} {a : α} (run : fix F b s = .ok (a, r)) : R b s a r := by
  have unrolled : ∀ n b s a r, unroll F n b s = .ok (a, r) → R b s a r := by
    intro n
    induction n with
    | zero =>
        intro b s a r run
        cases run
    | succ n ih => exact h _ ih
  exact unrolled (s.length + 1) b s a r run

end Fix

/-- One round of a loop either goes on with a new state or is done. -/
def loopStep (body : σ → Decoder ε τ (σ ⊕ α)) (again : σ → Decoder ε τ α) (st : σ) :
    Decoder ε τ α := do
  match ← body st with
  | .inl st => again st
  | .inr a => pure a

/-- Run the body until it is done. -/
def loop [Inhabited ε] (body : σ → Decoder ε τ (σ ⊕ α)) : σ → Decoder ε τ α :=
  fix (loopStep body)

section Loop
variable {body body' : σ → Decoder ε τ (σ ⊕ α)}

theorem loopStep_shrinks (hb : ∀ st, Shrinks (body st)) {d : σ → Decoder ε τ α}
    (hd : ∀ st, Shrinks (d st)) (st : σ) : Shrinks (loopStep body d st) := by
  refine (hb st).bind fun res => ?_
  cases res with
  | inl st => exact hd st
  | inr a => exact shrinks_pure a

theorem guarded_loopStep (hb : ∀ st, Shrinks (body st))
    (progress : ∀ st s st' r, body st s = .ok (.inl st', r) → r.length < s.length) :
    Guarded (loopStep body) where
  shrinks := fun _ hd st => loopStep_shrinks hb hd st
  agree := by
    intro d d' n hd hd' h st s hs
    simp only [loopStep, bind_apply]
    cases hres : body st s with
    | error e => rfl
    | ok p =>
        obtain ⟨res, r⟩ := p
        cases res with
        | inl st' =>
            have shorter := progress st s st' r hres
            exact h st' r (by omega)
        | inr a => rfl

variable [Inhabited ε]

theorem loop_eq (hb : ∀ st, Shrinks (body st))
    (progress : ∀ st s st' r, body st s = .ok (.inl st', r) → r.length < s.length)
    (st : σ) : loop body st = loopStep body (loop body) st :=
  (guarded_loopStep hb progress).fix_eq st

theorem unroll_loop_shrinks (hb : ∀ st, Shrinks (body st)) (n : Nat) (st : σ) :
    Shrinks (unroll (loopStep body) n st : Decoder ε τ α) := by
  induction n generalizing st with
  | zero => exact shrinks_throw default
  | succ n ih => exact loopStep_shrinks hb ih st

theorem loop_shrinks (hb : ∀ st, Shrinks (body st)) (st : σ) :
    Shrinks (loop body st : Decoder ε τ α) := by
  intro s a r h
  exact unroll_loop_shrinks hb (s.length + 1) st s a r h

/-- Loops over bodies that agree on short inputs agree there themselves. -/
theorem AgreeBelow.loop {n : Nat} (h : ∀ st, AgreeBelow n (body st) (body' st))
    (hb : ∀ st, Shrinks (body st)) (st : σ) :
    AgreeBelow n (loop body st : Decoder ε τ α) (loop body' st) := by
  have unrolled : ∀ k st, AgreeBelow n (unroll (loopStep body) k st : Decoder ε τ α)
      (unroll (loopStep body') k st) := by
    intro k
    induction k with
    | zero => exact fun _ => .refl n _
    | succ k ih =>
        intro st
        refine (h st).bind (hb st) fun res => ?_
        cases res with
        | inl st => exact ih st
        | inr a => exact .refl n _
  intro s hs
  exact unrolled (s.length + 1) st s hs

/-- A loop whose rounds keep an invariant ensures what the last round does. -/
theorem loop_ensures {Inv : σ → List τ → Prop} {Post : α → Prop}
    (again : ∀ st s st' r, Inv st s → body st s = .ok (.inl st', r) → Inv st' r)
    (done : ∀ st s a r, Inv st s → body st s = .ok (.inr a, r) → Post a)
    {st : σ} {s r : List τ} {a : α} (start : Inv st s) (run : loop body st s = .ok (a, r)) :
    Post a := by
  refine fix_ensures (R := fun st s a _ => Inv st s → Post a) ?_ run start
  intro d hd st s a r run inv
  obtain ⟨res, t, round, run⟩ := bind_eq_ok run
  cases res with
  | inl st' => exact hd st' t a r run (again st s st' t inv round)
  | inr a' =>
      cases run
      exact done st s a r inv round

end Loop

end Decoder
end Decoding
