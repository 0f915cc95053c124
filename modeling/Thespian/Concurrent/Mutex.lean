import Mathlib.Logic.Function.Basic

/-!
A recursive mutex. How often each thread has locked it is known from where the thread
stands; the mutex agrees with that, so no two threads are inside at a time.
-/

namespace Concurrent

variable {τ : Type}

/-- The owner and how often it has locked the mutex. -/
abbrev Mutex (τ : Type) := Option (τ × Nat)

namespace Mutex

/-- There is no result while another thread has the mutex. -/
def lock [DecidableEq τ] (m : Mutex τ) (t : τ) : Option (Mutex τ) :=
  match m with
  | none => some (some (t, 1))
  | some (u, n) => if u = t then some (some (t, n + 1)) else none

def unlock : Mutex τ → Mutex τ
  | some (t, n + 2) => some (t, n + 1)
  | _ => none

structure Held (m : Mutex τ) (depth : τ → Nat) : Prop where
  owner : ∀ t, 0 < depth t → m = some (t, depth t)
  depth : ∀ t n, m = some (t, n) → 0 < n ∧ depth t = n

variable {m m' : Mutex τ} {depth : τ → Nat} {t u : τ}

theorem held_free : Held (none : Mutex τ) fun _ => 0 where
  owner := fun _ inside => absurd inside (Nat.lt_irrefl 0)
  depth := fun _ _ locked => by cases locked

theorem Held.exclusive (h : Held m depth) (first : 0 < depth t) (second : 0 < depth u) : t = u := by
  have same := (h.owner t first).symm.trans (h.owner u second)
  cases same
  rfl

/-- The mutex is free, or its owner is inside. -/
theorem Held.outside (h : Held m depth) (out : depth t = 0) (n : Nat) : m ≠ some (t, n) := by
  intro locked
  obtain ⟨positive, inside⟩ := h.depth t n locked
  omega

variable [DecidableEq τ]

theorem Held.keep (h : Held m depth) {n : Nat} (same : n = depth t) :
    Held m (Function.update depth t n) := by
  rw [same, Function.update_eq_self]
  exact h

theorem Held.lock (h : Held m depth) (locked : m.lock t = some m') :
    m' = some (t, depth t + 1) ∧ Held m' (Function.update depth t (depth t + 1)) := by
  have result : m' = some (t, depth t + 1) ∧ ∀ u, u ≠ t → depth u = 0 := by
    unfold Mutex.lock at locked
    split at locked
    · cases locked
      have out (u : τ) : depth u = 0 := by
        by_contra inside
        exact absurd (h.owner u (Nat.pos_of_ne_zero inside)) (by simp)
      exact ⟨by rw [out t], fun u _ => out u⟩
    · next u n =>
      split at locked
      · next same =>
        subst same
        cases locked
        obtain ⟨positive, inside⟩ := h.depth u n rfl
        refine ⟨by rw [inside], fun v other => ?_⟩
        by_contra nonzero
        exact other (h.exclusive (Nat.pos_of_ne_zero nonzero) (inside ▸ positive))
      · cases locked
  obtain ⟨rfl, others⟩ := result
  refine ⟨rfl, fun u inside => ?_, fun u n eq => ?_⟩
  · by_cases same : u = t
    · subst same
      rw [Function.update_self]
    · rw [Function.update_of_ne same, others u same] at inside
      exact absurd inside (Nat.lt_irrefl 0)
  · cases eq
    exact ⟨Nat.succ_pos _, Function.update_self ..⟩

/-- Who is not inside gets the mutex when it is free. -/
theorem Held.free_of_lock (h : Held m depth) (out : depth t = 0) (locked : m.lock t = some m') :
    m = none := by
  unfold Mutex.lock at locked
  split at locked
  · rfl
  · next u n =>
    split at locked
    · next same => exact absurd (same ▸ rfl) (h.outside out n)
    · cases locked

theorem Held.unlock (h : Held m depth) (inside : 0 < depth t) :
    Held m.unlock (Function.update depth t (depth t - 1)) := by
  have others (u : τ) (other : u ≠ t) : depth u = 0 := by
    by_contra nonzero
    exact other (h.exclusive (Nat.pos_of_ne_zero nonzero) inside)
  rw [h.owner t inside]
  generalize depth t = n at inside ⊢
  obtain ⟨n, rfl⟩ := Nat.exists_eq_add_of_lt inside
  cases n with
  | zero =>
      refine ⟨fun u deep => ?_, fun u n eq => by cases eq⟩
      by_cases same : u = t
      · subst same
        rw [Function.update_self] at deep
        exact absurd deep (Nat.lt_irrefl 0)
      · rw [Function.update_of_ne same, others u same] at deep
        exact absurd deep (Nat.lt_irrefl 0)
  | succ n =>
      have left : Mutex.unlock (some (t, 0 + (n + 1) + 1)) = some (t, n + 1) := by
        simp only [Nat.zero_add]
        rfl
      rw [left]
      refine ⟨fun u deep => ?_, fun u k eq => ?_⟩
      · by_cases same : u = t
        · subst same
          simp only [Function.update_self, Option.some.injEq, Prod.mk.injEq, true_and]
          omega
        · rw [Function.update_of_ne same, others u same] at deep
          exact absurd deep (Nat.lt_irrefl 0)
      · cases eq
        refine ⟨Nat.succ_pos n, ?_⟩
        rw [Function.update_self]
        omega

end Mutex

end Concurrent
