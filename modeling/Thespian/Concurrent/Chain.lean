import Mathlib.Data.List.Nodup
import Mathlib.Data.List.Perm.Basic
import Mathlib.Logic.Function.Basic

/-!
Linked cells in a memory that several parties use. A chain is read off a pointer cell by
cell. The cells of the parties are apart from each other, so what one party does to its
own cells leaves the chains of the others as they are.
-/

namespace Concurrent

variable {ι α ο : Type}

structure Cell (ι α : Type) where
  data : α
  next : Option ι
  deriving DecidableEq

/-- There is no cell at a free address. -/
abbrev Memory (ι α : Type) := ι → Option (Cell ι α)

abbrev Cells (ι α : Type) := List (ι × α)

def Cells.addresses (cells : Cells ι α) : List ι := cells.map Prod.fst

def Cells.contents (cells : Cells ι α) : List α := cells.map Prod.snd

namespace Cells

@[simp] theorem addresses_nil : addresses ([] : Cells ι α) = [] := rfl

@[simp] theorem addresses_cons (c : ι × α) (cells : Cells ι α) :
    addresses (c :: cells) = c.1 :: addresses cells := rfl

@[simp] theorem addresses_append (a b : Cells ι α) :
    addresses (a ++ b) = addresses a ++ addresses b := List.map_append

@[simp] theorem contents_nil : contents ([] : Cells ι α) = [] := rfl

@[simp] theorem contents_cons (c : ι × α) (cells : Cells ι α) :
    contents (c :: cells) = c.2 :: contents cells := rfl

@[simp] theorem contents_append (a b : Cells ι α) :
    contents (a ++ b) = contents a ++ contents b := List.map_append

@[simp] theorem contents_reverse (a : Cells ι α) : contents a.reverse = a.contents.reverse :=
  List.map_reverse

end Cells

namespace Memory

/-- The cells on the way from a pointer to the null pointer. -/
def Chain (m : Memory ι α) : Option ι → Cells ι α → Prop
  | p, [] => p = none
  | p, (i, x) :: rest => p = some i ∧ ∃ next, m i = some ⟨x, next⟩ ∧ Chain m next rest

section Chain
variable {m m' : Memory ι α} {p : Option ι} {cells : Cells ι α}

theorem Chain.of_null (h : m.Chain none cells) : cells = [] := by
  cases cells with
  | nil => rfl
  | cons c rest => cases h.1

theorem Chain.of_pointer {i : ι} (h : m.Chain (some i) cells) :
    ∃ x next, ∃ rest : Cells ι α,
      cells = (i, x) :: rest ∧ m i = some ⟨x, next⟩ ∧ m.Chain next rest := by
  cases cells with
  | nil => cases h
  | cons c rest =>
      obtain ⟨here, next, cell, tail⟩ := h
      cases here
      exact ⟨c.2, next, rest, rfl, cell, tail⟩

theorem Chain.frame (h : m.Chain p cells) (same : ∀ i ∈ cells.addresses, m' i = m i) :
    m'.Chain p cells := by
  induction cells generalizing p with
  | nil => exact h
  | cons c rest ih =>
      obtain ⟨here, next, cell, tail⟩ := h
      refine ⟨here, next, ?_, ih tail fun i member => same i (List.mem_cons_of_mem _ member)⟩
      rw [same c.1 List.mem_cons_self, cell]

variable [DecidableEq ι]

/-- A cell outside of a chain can be written. -/
theorem Chain.update {i : ι} {c : Option (Cell ι α)} (h : m.Chain p cells)
    (outside : i ∉ cells.addresses) : Chain (Function.update m i c) p cells :=
  h.frame fun _ member =>
    Function.update_of_ne (ne_of_mem_of_not_mem member outside) c m

/-- A cell that is made to point to a chain extends it. -/
theorem Chain.link {i : ι} {x : α} (h : m.Chain p cells) (outside : i ∉ cells.addresses) :
    Chain (Function.update m i (some ⟨x, p⟩)) (some i) ((i, x) :: cells) :=
  ⟨rfl, p, Function.update_self .., h.update outside⟩

end Chain

/-- Each cell of the memory belongs to one party. -/
structure Partition (m : Memory ι α) (cells : ο → Cells ι α) : Prop where
  distinct : ∀ o, (cells o).addresses.Nodup
  apart : ∀ {o o' i}, i ∈ (cells o).addresses → i ∈ (cells o').addresses → o = o'
  live : ∀ i, m i ≠ none ↔ ∃ o, i ∈ (cells o).addresses

section Partition
variable {m : Memory ι α} {cells : ο → Cells ι α} {o o' : ο} {i : ι} {x : α} {c : Cell ι α}
variable {rest : Cells ι α}

theorem partition_empty (empty : ∀ o, cells o = []) :
    Partition (fun _ => none) cells where
  distinct := fun o => by simp [empty]
  apart := fun member _ => by simp [empty] at member
  live := fun i => by simp [empty]

theorem Partition.outside (h : Partition m cells) (owned : i ∈ (cells o).addresses)
    (other : o' ≠ o) :
    i ∉ (cells o').addresses :=
  fun member => other (h.apart member owned)

theorem Partition.fresh (h : Partition m cells) (free : m i = none) (o : ο) :
    i ∉ (cells o).addresses :=
  fun member => (h.live i).mpr ⟨o, member⟩ free

/-- What a cell holds is nothing to the partition. -/
theorem Partition.write [DecidableEq ι] (h : Partition m cells) (present : m i ≠ none) :
    Partition (Function.update m i (some c)) cells where
  distinct := h.distinct
  apart := h.apart
  live := by
    intro j
    rw [← h.live j]
    by_cases same : j = i
    · subst same
      simp [present]
    · rw [Function.update_of_ne same]

theorem Partition.allocate [DecidableEq ι] [DecidableEq ο] (h : Partition m cells)
    (free : m i = none) (o : ο) :
    Partition (Function.update m i (some c)) (Function.update cells o ((i, x) :: cells o)) where
  distinct := by
    intro a
    by_cases same : a = o
    · subst same
      rw [Function.update_self, Cells.addresses_cons]
      exact (h.distinct a).cons (h.fresh free a)
    · rw [Function.update_of_ne same]
      exact h.distinct a
  apart := by
    have owner {a : ο} {j : ι}
        (member : j ∈ (Function.update cells o ((i, x) :: cells o) a).addresses) :
        a = o ∧ j = i ∨ j ≠ i ∧ j ∈ (cells a).addresses := by
      by_cases same : a = o
      · subst same
        rw [Function.update_self, Cells.addresses_cons] at member
        rcases List.mem_cons.mp member with here | old
        · exact .inl ⟨rfl, here⟩
        · exact .inr ⟨fun eq => h.fresh free a (eq ▸ old), old⟩
      · rw [Function.update_of_ne same] at member
        exact .inr ⟨fun eq => h.fresh free a (eq ▸ member), member⟩
    intro a b j first second
    rcases owner first with ⟨rfl, rfl⟩ | ⟨other, old⟩
    · rcases owner second with ⟨rfl, -⟩ | ⟨other, -⟩
      · rfl
      · exact absurd rfl other
    · rcases owner second with ⟨rfl, rfl⟩ | ⟨-, old'⟩
      · exact absurd rfl other
      · exact h.apart old old'
  live := by
    intro j
    by_cases same : j = i
    · subst same
      simp only [Function.update_self, ne_eq, reduceCtorEq, not_false_eq_true, true_iff]
      exact ⟨o, by simp⟩
    · rw [Function.update_of_ne same, h.live j]
      refine exists_congr fun a => ?_
      by_cases mine : a = o
      · subst mine
        simp [same]
      · rw [Function.update_of_ne mine]

theorem Partition.free [DecidableEq ι] [DecidableEq ο] (h : Partition m cells)
    (first : cells o = (i, x) :: rest) :
    Partition (Function.update m i none) (Function.update cells o rest) := by
  have owned : i ∈ (cells o).addresses := by simp [first]
  have nodup := h.distinct o
  rw [first, Cells.addresses_cons, List.nodup_cons] at nodup
  have iff (a : ο) (j : ι) :
      j ∈ (Function.update cells o rest a).addresses ↔ j ≠ i ∧ j ∈ (cells a).addresses := by
    by_cases same : a = o
    · subst same
      rw [Function.update_self, first, Cells.addresses_cons, List.mem_cons]
      refine ⟨fun member => ⟨fun eq => nodup.1 (eq ▸ member), .inr member⟩, ?_⟩
      rintro ⟨other, eq | member⟩
      · exact absurd eq other
      · exact member
    · rw [Function.update_of_ne same]
      exact ⟨fun member => ⟨fun eq => same (h.apart (eq ▸ member) owned), member⟩, And.right⟩
  constructor
  · intro a
    by_cases same : a = o
    · subst same
      rw [Function.update_self]
      exact nodup.2
    · rw [Function.update_of_ne same]
      exact h.distinct a
  · intro a b j first second
    exact h.apart ((iff a j).mp first).2 ((iff b j).mp second).2
  · intro j
    by_cases same : j = i
    · subst same
      simp [iff]
    · rw [Function.update_of_ne same, h.live j]
      exact exists_congr fun a => by simp [iff, same]

/-- A party puts its cells in another order. -/
theorem Partition.reorder [DecidableEq ο] (h : Partition m cells) {mine : Cells ι α}
    (perm : mine.Perm (cells o)) : Partition m (Function.update cells o mine) := by
  have addresses : mine.addresses.Perm (cells o).addresses := perm.map Prod.fst
  have iff (a : ο) (j : ι) :
      j ∈ (Function.update cells o mine a).addresses ↔ j ∈ (cells a).addresses := by
    by_cases same : a = o
    · subst same
      rw [Function.update_self]
      exact addresses.mem_iff
    · rw [Function.update_of_ne same]
  constructor
  · intro a
    by_cases same : a = o
    · subst same
      rw [Function.update_self]
      exact addresses.nodup_iff.mpr (h.distinct a)
    · rw [Function.update_of_ne same]
      exact h.distinct a
  · intro a b j first second
    exact h.apart ((iff a j).mp first) ((iff b j).mp second)
  · intro j
    rw [h.live j]
    exact exists_congr fun a => (iff a j).symm

/-- One party hands all of its cells to another. -/
theorem Partition.give [DecidableEq ο] (h : Partition m cells) (other : o ≠ o') :
    Partition m (Function.update (Function.update cells o []) o' (cells o ++ cells o')) := by
  have iff (a : ο) (j : ι) :
      j ∈ (Function.update (Function.update cells o []) o' (cells o ++ cells o') a).addresses ↔
        a ≠ o ∧ j ∈ (cells a).addresses ∨ a = o' ∧ j ∈ (cells o).addresses := by
    by_cases target : a = o'
    · subst target
      rw [Function.update_self, Cells.addresses_append, List.mem_append]
      simp [other.symm, or_comm]
    · rw [Function.update_of_ne target]
      by_cases source : a = o
      · subst source
        simp [target]
      · simp [target, source]
  have single {a : ο} {j : ι}
      (member : a ≠ o ∧ j ∈ (cells a).addresses ∨ a = o' ∧ j ∈ (cells o).addresses) :
      a = o' ∧ j ∈ (cells o).addresses ∨ j ∉ (cells o).addresses ∧ j ∈ (cells a).addresses := by
    rcases member with ⟨apart, kept⟩ | given
    · exact .inr ⟨h.outside kept apart.symm, kept⟩
    · exact .inl given
  constructor
  · intro a
    by_cases target : a = o'
    · subst target
      rw [Function.update_self, Cells.addresses_append]
      refine (h.distinct o).append (h.distinct a) fun j first second => ?_
      exact other (h.apart first second)
    · rw [Function.update_of_ne target]
      by_cases source : a = o
      · subst source
        simp
      · rw [Function.update_of_ne source]
        exact h.distinct a
  · intro a b j first second
    rcases single ((iff a j).mp first) with ⟨rfl, given⟩ | ⟨absent, kept⟩
    · rcases single ((iff b j).mp second) with ⟨rfl, -⟩ | ⟨absent, -⟩
      · rfl
      · exact absurd given absent
    · rcases single ((iff b j).mp second) with ⟨rfl, given⟩ | ⟨-, kept'⟩
      · exact absurd given absent
      · exact h.apart kept kept'
  · intro j
    rw [h.live j]
    constructor
    · rintro ⟨a, member⟩
      by_cases source : a = o
      · subst source
        exact ⟨o', (iff o' j).mpr (.inr ⟨rfl, member⟩)⟩
      · exact ⟨a, (iff a j).mpr (.inl ⟨source, member⟩)⟩
    · rintro ⟨a, member⟩
      rcases (iff a j).mp member with ⟨-, kept⟩ | ⟨-, given⟩
      · exact ⟨a, kept⟩
      · exact ⟨o, given⟩

end Partition

end Memory

end Concurrent
