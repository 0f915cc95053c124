import Mathlib.Data.List.Basic

/-!
Runs of a system given by a partial step function. An action that is not enabled
has no successor, so a list of actions either is a run or it is not. Conditions
on a run are stated on the state before each step; a property that every such
step keeps holds in every state the run reaches.

A log only grows, so an entry is known by its position for the rest of the run.
-/

namespace Transition

variable {σ α : Type}

section Runs
variable (step : σ → α → Option σ)

def run : σ → List α → Option σ
  | s, [] => some s
  | s, a :: acts => (step s a).bind fun s' => run s' acts

/-- The condition holds of the state before each step and of the step's action. -/
def Along (P : σ → α → Prop) : σ → List α → Prop
  | _, [] => True
  | s, a :: acts => P s a ∧ ∀ s', step s a = some s' → Along P s' acts

/-- A step that meets the condition keeps the property. -/
def Keeps (P : σ → α → Prop) (I : σ → Prop) : Prop :=
  ∀ s a s', I s → P s a → step s a = some s' → I s'

end Runs

section Invariants
variable {step : σ → α → Option σ} {P : σ → α → Prop} {I : σ → Prop} {s s' : σ}

theorem run_cons {a : α} {acts : List α} (h : run step s (a :: acts) = some s') :
    ∃ t, step s a = some t ∧ run step t acts = some s' :=
  Option.bind_eq_some_iff.mp h

theorem run_append {t : σ} {acts more : List α} (first : run step s acts = some t)
    (rest : run step t more = some s') : run step s (acts ++ more) = some s' := by
  induction acts generalizing s with
  | nil =>
      have same : s = t := Option.some.inj first
      exact same ▸ rest
  | cons a acts ih =>
      obtain ⟨u, head, tail⟩ := run_cons first
      rw [List.cons_append, run, head, Option.bind_some]
      exact ih tail

/-- An invariant of the steps is an invariant of the runs. -/
theorem Keeps.run (keeps : Keeps step P I) {acts : List α} (init : I s)
    (along : Along step P s acts) (h : run step s acts = some s') : I s' := by
  induction acts generalizing s with
  | nil =>
      have same : s = s' := Option.some.inj h
      exact same ▸ init
  | cons a acts ih =>
      obtain ⟨t, first, rest⟩ := run_cons h
      exact ih (keeps s a t init along.1 first) (along.2 t first) rest

/-- A condition on the actions alone need not mention the states. -/
theorem along_of_forall {P : α → Prop} {acts : List α} (h : ∀ a ∈ acts, P a) :
    Along step (fun _ a => P a) s acts := by
  induction acts generalizing s with
  | nil => trivial
  | cons a acts ih =>
      exact ⟨h a List.mem_cons_self, fun t _ => ih fun b hb => h b (List.mem_cons_of_mem a hb)⟩

theorem Along.mono {Q : σ → α → Prop} (weaker : ∀ s a, P s a → Q s a) {acts : List α}
    (h : Along step P s acts) : Along step Q s acts := by
  induction acts generalizing s with
  | nil => trivial
  | cons a acts ih => exact ⟨weaker s a h.1, fun t next => ih (h.2 t next)⟩

theorem along_true (acts : List α) : Along step (fun _ _ => True) s acts :=
  along_of_forall fun _ _ => trivial

/-- What an invariant says of every step of a run. -/
theorem Keeps.along {Q : σ → α → Prop} (keeps : Keeps step P I)
    (gives : ∀ s a, I s → P s a → Q s a) {acts : List α} (init : I s)
    (along : Along step P s acts) : Along step Q s acts := by
  induction acts generalizing s with
  | nil => trivial
  | cons a acts ih =>
      refine ⟨gives s a init along.1, ?_⟩
      intro t first
      exact ih (keeps s a t init along.1 first) (along.2 t first)

/-- A property that every action but one keeps is lost by that action only. -/
theorem run_takes {b : α} (keeps : Keeps step (fun _ a => a ≠ b) I) {acts : List α} (init : I s)
    (h : run step s acts = some s') (lost : ¬I s') : b ∈ acts := by
  apply Classical.byContradiction
  intro absent
  apply lost
  apply keeps.run init _ h
  apply along_of_forall
  intro a member same
  exact absent (same ▸ member)

theorem along_and {Q : σ → α → Prop} {acts : List α} :
    Along step (fun s a => P s a ∧ Q s a) s acts ↔ Along step P s acts ∧ Along step Q s acts := by
  constructor
  · intro both
    exact ⟨both.mono fun _ _ h => h.1, both.mono fun _ _ h => h.2⟩
  · rintro ⟨left, right⟩
    induction acts generalizing s with
    | nil => trivial
    | cons a acts ih => exact ⟨⟨left.1, right.1⟩, fun t next => ih (left.2 t next) (right.2 t next)⟩

/-- A mark that exactly the steps outside the condition leave tells whether the run
met the condition. -/
theorem run_marked {Q : σ → Prop} (keeps : Keeps step (fun _ _ => True) I)
    (mark : ∀ s a s', I s → step s a = some s' → (Q s' ↔ Q s ∨ ¬P s a)) {acts : List α}
    (init : I s) (h : run step s acts = some s') : Q s' ↔ Q s ∨ ¬Along step P s acts := by
  induction acts generalizing s with
  | nil =>
      have same : s = s' := Option.some.inj h
      subst same
      exact ⟨.inl, fun either => either.resolve_right (not_not_intro trivial)⟩
  | cons a acts ih =>
      obtain ⟨t, first, rest⟩ := run_cons h
      rw [ih (keeps s a t init trivial first) rest, mark s a t init first]
      have tail : Along step P s (a :: acts) ↔ P s a ∧ Along step P t acts := by
        constructor
        · intro along
          exact ⟨along.1, along.2 t first⟩
        · rintro ⟨head, along⟩
          refine ⟨head, ?_⟩
          intro t' next
          have same : t = t' := Option.some.inj (first.symm.trans next)
          exact same ▸ along
      rw [tail]
      tauto

/-- A condition that can be checked on states can be checked along a run. -/
instance decidableAlong [∀ s a, Decidable (P s a)] :
    (s : σ) → (acts : List α) → Decidable (Along step P s acts)
  | _, [] => .isTrue trivial
  | s, a :: acts =>
      match h : step s a with
      | none =>
          decidable_of_iff (P s a)
            ⟨fun first => ⟨first, fun t ht => by rw [h] at ht; cases ht⟩, And.left⟩
      | some t =>
          have := decidableAlong t acts
          decidable_of_iff (P s a ∧ Along step P t acts)
            ⟨fun both => ⟨both.1, fun t' ht' => by rw [h] at ht'; cases ht'; exact both.2⟩,
              fun along => ⟨along.1, along.2 t h⟩⟩

end Invariants

section Log
variable {ε : Type} {log : List ε} {e e' : ε} {i : Nat}

theorem log_old (h : log[i]? = some e) (new : List ε) : (log ++ new)[i]? = some e := by
  obtain ⟨bound, -⟩ := List.getElem?_eq_some_iff.mp h
  rw [List.getElem?_append_left bound, h]

theorem log_last (log : List ε) (e : ε) : (log ++ [e])[log.length]? = some e := by
  rw [List.getElem?_append_right (Nat.le_refl _), Nat.sub_self]
  rfl

/-- What a log holds after an entry was added. -/
theorem log_add_iff :
    (log ++ [e])[i]? = some e' ↔ log[i]? = some e' ∨ i = log.length ∧ e = e' := by
  constructor
  · intro h
    rcases Nat.lt_trichotomy i log.length with lt | eq | gt
    · rw [List.getElem?_append_left lt] at h
      exact .inl h
    · subst eq
      rw [log_last] at h
      exact .inr ⟨rfl, Option.some.inj h⟩
    · rw [List.getElem?_append_right (Nat.le_of_lt gt),
        List.getElem?_eq_none (by simp only [List.length_singleton]; omega)] at h
      cases h
  · rintro (old | ⟨rfl, rfl⟩)
    · exact log_old old [e]
    · exact log_last log e

theorem log_bound (h : log[i]? = some e) : i < log.length :=
  (List.getElem?_eq_some_iff.mp h).1

/-- What was checked of a part of a log holds of its entries. -/
theorem log_early {f : ε → Bool} {n : Nat} (h : (log.take n).all f = true) (early : i < n)
    (logged : log[i]? = some e) : f e = true := by
  have taken : (log.take n)[i]? = some e := by
    rw [List.getElem?_take_of_lt early]
    exact logged
  exact List.all_eq_true.mp h e (List.mem_of_getElem? taken)

/-- What occurs once among the images of the entries comes from one entry. -/
theorem log_unique {β : Type} [BEq β] [LawfulBEq β] {f : ε → Option β} {y : β}
    (h : (log.filterMap f).count y = 1) :
    ∃ t e, log[t]? = some e ∧ f e = some y ∧
      ∀ (t' : Nat) e', log[t']? = some e' → f e' = some y → t' = t := by
  induction log with
  | nil => simp at h
  | cons e log ih =>
      by_cases hit : f e = some y
      · rw [List.filterMap_cons_some hit, List.count_cons_self] at h
        have absent : y ∉ log.filterMap f := List.count_eq_zero.mp (by omega)
        refine ⟨0, e, rfl, hit, ?_⟩
        intro t' e' logged image
        cases t' with
        | zero => rfl
        | succ t' =>
            have member : e' ∈ log := List.mem_of_getElem? logged
            exact absurd (List.mem_filterMap.mpr ⟨e', member, image⟩) absent
      · have rest : (log.filterMap f).count y = 1 := by
          cases image : f e with
          | none => rwa [List.filterMap_cons_none image] at h
          | some z =>
              have apart : z ≠ y := fun same => hit (image.trans (congrArg some same))
              rwa [List.filterMap_cons_some image, List.count_cons_of_ne apart] at h
        obtain ⟨t, e₁, logged, image, unique⟩ := ih rest
        refine ⟨t + 1, e₁, logged, image, ?_⟩
        intro t' e' logged' image'
        cases t' with
        | zero =>
            cases logged'
            exact absurd image' hit
        | succ t' => exact congrArg (· + 1) (unique t' e' logged' image')

end Log

end Transition
