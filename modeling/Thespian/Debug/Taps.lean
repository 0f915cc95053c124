import Mathlib.Data.List.Nodup
import Mathlib.Data.Set.Insert
import Thespian.Debug.Registry

/-!
The taps of a context: who listens to the messages of the actors of a name. Each
section under the taps mutex is one step, and a subscriber may die between two of
them. The counter is read without the lock on every message.

Two handles are equal when they lock the same actor, so all expired handles are equal
to each other and to the empty one. That never confuses two live subscribers, and a
name has at most one entry for each.
-/

namespace Thespian.Debug.Taps
open Cbor

/-- A weak reference to an instance, or an empty handle. -/
abbrev Handle := Option ActorId

/-- An entry of the multimap. The order of the entries of one name is kept. -/
structure Tap where
  name : Bytes
  sub : Handle
  deriving DecidableEq, Repr

/-- Nothing wraps as long as the counter does not fall below zero, so it is an
integer here. -/
structure Context where
  taps : List Tap
  tapCount : Int
  alive : ActorId → Bool

namespace Context
variable (ctx : Context)

def initial (alive : ActorId → Bool) : Context := ⟨[], 0, alive⟩

def lock (h : Handle) : Option ActorId := h.filter ctx.alive

def expired (h : Handle) : Bool := ctx.lock h = none

/-- `operator==` of two handles. -/
def same (a b : Handle) : Bool := ctx.lock a = ctx.lock b

def isTapping : Bool := ctx.tapCount > 0

/-- The loop over the entries of a name: those kept, those to come, the subscribers
found and the counter. -/
def subscribersLoop (name : Bytes) (kept : List Tap) :
    List Tap → List Handle → Int → List Handle × List Tap × Int
  | [], subs, n => (subs, kept, n)
  | t :: rest, subs, n =>
      if t.name ≠ name then subscribersLoop name (kept ++ [t]) rest subs n
      else if ctx.expired t.sub then subscribersLoop name kept rest subs (n - 1)
      else subscribersLoop name (kept ++ [t]) rest (subs ++ [t.sub]) n

def tapSubscribers (name : Bytes) : List Handle × Context :=
  let (subs, taps, n) := ctx.subscribersLoop name [] ctx.taps [] ctx.tapCount
  (subs, { ctx with taps := taps, tapCount := n })

def tapAdd (name : Bytes) (sub : Handle) : Context :=
  if ctx.taps.any fun t => t.name = name && ctx.same t.sub sub then ctx
  else { ctx with taps := ctx.taps ++ [⟨name, sub⟩], tapCount := ctx.tapCount + 1 }

/-- The entries that tap_remove erases. -/
def removes (name : Bytes) (sub : Handle) (t : Tap) : Bool :=
  (name = [] || t.name = name) && ctx.same t.sub sub

def removeLoop (name : Bytes) (sub : Handle) (kept : List Tap) :
    List Tap → Int → Bool → Bool × List Tap × Int
  | [], n, found => (found, kept, n)
  | t :: rest, n, found =>
      if ctx.removes name sub t then removeLoop name sub kept rest (n - 1) true
      else removeLoop name sub (kept ++ [t]) rest n found

/-- An empty name removes all taps held by the subscriber. -/
def tapRemove (name : Bytes) (sub : Handle) : Bool × Context :=
  let (found, taps, n) := ctx.removeLoop name sub [] ctx.taps ctx.tapCount false
  (found, { ctx with taps := taps, tapCount := n })

def dies (a : ActorId) : Context :=
  { ctx with alive := fun b => if b = a then false else ctx.alive b }

end Context

inductive Action where
  | tapAdd (name : Bytes) (sub : Handle)
  | tapRemove (name : Bytes) (sub : Handle)
  | tapSubscribers (name : Bytes)
  | dies (a : ActorId)
  deriving DecidableEq, Repr

def step (ctx : Context) : Action → Context
  | .tapAdd name sub => ctx.tapAdd name sub
  | .tapRemove name sub => (ctx.tapRemove name sub).2
  | .tapSubscribers name => (ctx.tapSubscribers name).2
  | .dies a => ctx.dies a

def run (ctx : Context) (acts : List Action) : Context := acts.foldl step ctx

/-- What the taps are for: which live actors listen to which names. -/
@[ext]
structure Subscriptions where
  alive : ActorId → Bool
  pairs : Set (Bytes × ActorId)

namespace Subscriptions

def step (σ : Subscriptions) : Action → Subscriptions
  | .tapAdd name sub =>
      { σ with pairs := {p | p ∈ σ.pairs ∨ p.1 = name ∧ sub = some p.2 ∧ σ.alive p.2} }
  | .tapRemove name sub =>
      { σ with pairs := {p | p ∈ σ.pairs ∧ ¬ ((name = [] ∨ p.1 = name) ∧ sub = some p.2)} }
  | .tapSubscribers _ => σ
  | .dies a =>
      ⟨fun b => if b = a then false else σ.alive b, {p | p ∈ σ.pairs ∧ p.2 ≠ a}⟩

def run (alive : ActorId → Bool) (acts : List Action) : Subscriptions :=
  acts.foldl step ⟨alive, ∅⟩

end Subscriptions

namespace Context

/-- The entries of live subscribers, as subscriptions. -/
def subscriptions (ctx : Context) : Subscriptions where
  alive := ctx.alive
  pairs := {p | ctx.alive p.2 = true ∧ ⟨p.1, some p.2⟩ ∈ ctx.taps}

section Handles
variable {ctx : Context} {a : ActorId} {h h' : Handle}

theorem lock_eq_some : ctx.lock h = some a ↔ h = some a ∧ ctx.alive a = true :=
  Option.filter_eq_some_iff

theorem expired_some : ctx.expired (some a) = !ctx.alive a := by
  cases alive : ctx.alive a <;> simp [expired, lock, alive]

theorem live_iff : ctx.expired h = false ↔ ∃ a, h = some a ∧ ctx.alive a = true := by
  simp [expired, ← lock_eq_some, Option.ne_none_iff_exists']

/-- A handle that is equal to a live one is that handle. -/
theorem same_live (alive : ctx.alive a = true) : ctx.same h (some a) = true ↔ h = some a := by
  have locked : ctx.lock (some a) = some a := lock_eq_some.mpr ⟨rfl, alive⟩
  rw [same, locked, decide_eq_true_iff, lock_eq_some]
  exact and_iff_left alive

end Handles

section Loops
variable {ctx : Context} {name : Bytes} {sub : Handle}

/-- In every round the counter is the number of the entries there are. -/
theorem removeLoop_eq (kept rest : List Tap) (n : Int) (found : Bool)
    (counted : n = (kept ++ rest).length) :
    let left := kept ++ rest.filter fun t => !ctx.removes name sub t
    ctx.removeLoop name sub kept rest n found =
      (found || rest.any (ctx.removes name sub), left, (left.length : Int)) := by
  induction rest generalizing kept n found with
  | nil => simp [removeLoop, counted]
  | cons t rest ih =>
      rw [removeLoop]
      cases hit : ctx.removes name sub t with
      | true =>
          rw [if_pos rfl, ih kept (n - 1) true (by simp at counted ⊢; omega)]
          simp [hit]
      | false =>
          rw [if_neg Bool.false_ne_true, ih (kept ++ [t]) n found (by simpa using counted)]
          simp [hit]

/-- The entries that a lookup drops. -/
def drops (ctx : Context) (name : Bytes) (t : Tap) : Bool := t.name = name && ctx.expired t.sub

/-- The entries whose subscribers a lookup returns. -/
def answers (ctx : Context) (name : Bytes) (t : Tap) : Bool := t.name = name && !ctx.expired t.sub

theorem subscribersLoop_eq (kept rest : List Tap) (subs : List Handle) (n : Int)
    (counted : n = (kept ++ rest).length) :
    let left := kept ++ rest.filter fun t => !ctx.drops name t
    ctx.subscribersLoop name kept rest subs n =
      (subs ++ (rest.filter (ctx.answers name)).map Tap.sub, left, (left.length : Int)) := by
  induction rest generalizing kept subs n with
  | nil => simp [subscribersLoop, counted]
  | cons t rest ih =>
      rw [subscribersLoop]
      by_cases own : t.name = name
      · rw [if_neg (not_not.mpr own)]
        cases gone : ctx.expired t.sub with
        | true =>
            rw [if_pos rfl, ih kept subs (n - 1) (by simp at counted ⊢; omega)]
            simp [drops, answers, own, gone]
        | false =>
            rw [if_neg Bool.false_ne_true,
              ih (kept ++ [t]) (subs ++ [t.sub]) n (by simpa using counted)]
            simp [drops, answers, own, gone]
      · rw [if_pos own, ih (kept ++ [t]) subs n (by simpa using counted)]
        simp [drops, answers, own]

end Loops

/-- The counter is the number of entries, and a name has one entry for a live actor. -/
structure Exact (ctx : Context) : Prop where
  counted : ctx.tapCount = ctx.taps.length
  once : ∀ name a, ctx.alive a = true → ctx.taps.count ⟨name, some a⟩ ≤ 1

section Operations
variable {ctx : Context} {name : Bytes} {sub : Handle}

theorem tapRemove_eq (sound : ctx.Exact) :
    let left := ctx.taps.filter fun t => !ctx.removes name sub t
    ctx.tapRemove name sub = (ctx.taps.any (ctx.removes name sub),
      { ctx with taps := left, tapCount := (left.length : Int) }) := by
  dsimp only
  rw [tapRemove, removeLoop_eq [] ctx.taps ctx.tapCount false sound.counted]
  simp

theorem tapSubscribers_eq (sound : ctx.Exact) :
    let left := ctx.taps.filter fun t => !ctx.drops name t
    ctx.tapSubscribers name = ((ctx.taps.filter (ctx.answers name)).map Tap.sub,
      { ctx with taps := left, tapCount := (left.length : Int) }) := by
  dsimp only
  rw [tapSubscribers, subscribersLoop_eq [] ctx.taps [] ctx.tapCount sound.counted]
  simp

theorem Exact.filter (sound : ctx.Exact) (keep : Tap → Bool) :
    Exact { ctx with taps := ctx.taps.filter keep, tapCount := ((ctx.taps.filter keep).length : Int) }
    where
  counted := rfl
  once := fun n a alive =>
    (List.filter_sublist.count_le _).trans (sound.once n a alive)

/-- A handle that is not refused is not held under the name, if it is live. -/
theorem absent_of_new {a : ActorId} (alive : ctx.alive a = true)
    (new : ¬ (ctx.taps.any fun t => t.name = name && ctx.same t.sub (some a)) = true) :
    (⟨name, some a⟩ : Tap) ∉ ctx.taps := by
  intro member
  refine new (List.any_eq_true.mpr ⟨_, member, ?_⟩)
  simp [(same_live alive).mpr rfl]

theorem Exact.tapAdd (sound : ctx.Exact) : (ctx.tapAdd name sub).Exact := by
  unfold Context.tapAdd
  split
  · exact sound
  · rename_i new
    refine ⟨by simp [sound.counted], fun n a alive => ?_⟩
    rw [List.count_append, List.count_singleton]
    split
    · rename_i same
      have living : ctx.alive a = true := alive
      obtain ⟨rfl, rfl⟩ := Tap.mk.inj (beq_iff_eq.mp same)
      rw [List.count_eq_zero.mpr (absent_of_new living new)]
    · exact sound.once n a alive

theorem Exact.dies (sound : ctx.Exact) (a : ActorId) : (ctx.dies a).Exact where
  counted := sound.counted
  once := fun n b alive => by
    have before : ctx.alive b = true := by
      simp only [Context.dies] at alive
      split at alive
      · cases alive
      · exact alive
    exact sound.once n b before

theorem Exact.step (sound : ctx.Exact) (act : Action) : (step ctx act).Exact := by
  cases act with
  | tapAdd name sub => exact sound.tapAdd
  | tapRemove name sub =>
      have kept := sound.filter fun t => !ctx.removes name sub t
      rw [Taps.step, tapRemove_eq sound]
      exact kept
  | tapSubscribers name =>
      have kept := sound.filter fun t => !ctx.drops name t
      rw [Taps.step, tapSubscribers_eq sound]
      exact kept
  | dies a => exact sound.dies a

end Operations

section Refinement
variable {ctx : Context}

theorem subscriptions_filter (keep : Tap → Bool) (n : Int) (name : Bytes) (a : ActorId) :
    (name, a) ∈ (subscriptions { ctx with taps := ctx.taps.filter keep, tapCount := n }).pairs ↔
      (name, a) ∈ ctx.subscriptions.pairs ∧ keep ⟨name, some a⟩ = true := by
  simp [subscriptions, and_assoc]

theorem same_comm (h h' : Handle) : ctx.same h h' = ctx.same h' h := by
  simp only [same, eq_comm]

/-- A live subscriber that is refused is there already. -/
theorem mem_tapAdd {name n : Bytes} {sub : Handle} {a : ActorId} (alive : ctx.alive a = true) :
    (⟨n, some a⟩ : Tap) ∈ (ctx.tapAdd name sub).taps ↔
      ⟨n, some a⟩ ∈ ctx.taps ∨ n = name ∧ sub = some a := by
  unfold Context.tapAdd
  split
  · rename_i held
    obtain ⟨t, member, hit⟩ := List.any_eq_true.mp held
    rw [Bool.and_eq_true, decide_eq_true_iff] at hit
    refine ⟨.inl, ?_⟩
    rintro (before | ⟨rfl, rfl⟩)
    · exact before
    · have known : t = ⟨n, some a⟩ := by
        rw [← hit.1, ← (same_live alive).mp hit.2]
      exact known ▸ member
  · simp [eq_comm]

/-- What an operation does to the entries of live subscribers is what it is for. -/
theorem subscriptions_step (sound : ctx.Exact) (act : Action) :
    (step ctx act).subscriptions = ctx.subscriptions.step act := by
  cases act with
  | tapAdd name sub =>
      have alive : (ctx.tapAdd name sub).alive = ctx.alive := by
        unfold Context.tapAdd
        split <;> rfl
      refine Subscriptions.ext alive (Set.ext fun p => ?_)
      show (ctx.tapAdd name sub).alive p.2 = true ∧ _ ↔ _
      rw [alive]
      constructor
      · rintro ⟨living, member⟩
        rcases (mem_tapAdd living).mp member with before | ⟨own, eq⟩
        · exact .inl ⟨living, before⟩
        · exact .inr ⟨own, eq, living⟩
      · rintro (⟨living, before⟩ | ⟨own, eq, living⟩)
        · exact ⟨living, (mem_tapAdd living).mpr (.inl before)⟩
        · exact ⟨living, (mem_tapAdd living).mpr (.inr ⟨own, eq⟩)⟩
  | tapRemove name sub =>
      rw [Taps.step, tapRemove_eq sound]
      refine Subscriptions.ext rfl (Set.ext fun p => ?_)
      refine (subscriptions_filter _ _ p.1 p.2).trans (and_congr_right fun before => ?_)
      have own : ctx.same (some p.2) sub = true ↔ sub = some p.2 := by
        rw [same_comm, same_live before.1]
      simp only [removes, Bool.not_eq_true', ← Bool.not_eq_true, Bool.and_eq_true, own,
        Bool.or_eq_true, decide_eq_true_iff]
  | tapSubscribers name =>
      rw [Taps.step, tapSubscribers_eq sound]
      refine Subscriptions.ext rfl (Set.ext fun p => ?_)
      refine (subscriptions_filter _ _ p.1 p.2).trans (and_iff_left_of_imp fun before => ?_)
      have living : ctx.alive p.2 = true := before.1
      simp [drops, expired_some, living]
  | dies a =>
      refine Subscriptions.ext rfl (Set.ext fun p => ?_)
      by_cases own : p.2 = a <;> simp [Taps.step, Context.dies, subscriptions, Subscriptions.step, own]

end Refinement

section Answers
variable {ctx : Context} {name : Bytes} {a : ActorId}

theorem removes_live (alive : ctx.alive a = true) (t : Tap) :
    ctx.removes name (some a) t = true ↔ (name = [] ∨ t.name = name) ∧ t.sub = some a := by
  rw [removes, Bool.and_eq_true, same_live alive, Bool.or_eq_true, decide_eq_true_iff,
    decide_eq_true_iff]

theorem tapRemove_taps (sound : ctx.Exact) (alive : ctx.alive a = true) :
    (ctx.tapRemove name (some a)).2.taps =
      ctx.taps.filter fun t => ¬ ((name = [] ∨ t.name = name) ∧ t.sub = some a) := by
  rw [tapRemove_eq sound]
  refine List.filter_congr fun t _ => ?_
  rw [Bool.eq_iff_iff, Bool.not_eq_true', ← Bool.not_eq_true, removes_live alive,
    decide_eq_true_iff]

theorem tapRemove_found (sound : ctx.Exact) (alive : ctx.alive a = true) :
    (ctx.tapRemove name (some a)).1 = true ↔
      ∃ n, (name = [] ∨ n = name) ∧ (n, a) ∈ ctx.subscriptions.pairs := by
  rw [tapRemove_eq sound, List.any_eq_true]
  constructor
  · rintro ⟨t, member, hit⟩
    obtain ⟨own, eq⟩ := (removes_live alive t).mp hit
    have held : (⟨t.name, some a⟩ : Tap) ∈ ctx.taps := eq ▸ member
    exact ⟨t.name, own, alive, held⟩
  · rintro ⟨n, own, -, member⟩
    exact ⟨_, member, (removes_live alive _).mpr ⟨own, rfl⟩⟩

theorem answers_iff (t : Tap) :
    ctx.answers name t = true ↔ t.name = name ∧ ∃ a, t.sub = some a ∧ ctx.alive a = true := by
  rw [answers, Bool.and_eq_true, decide_eq_true_iff, Bool.not_eq_true', live_iff]

theorem mem_tapSubscribers (sound : ctx.Exact) (h : Handle) :
    h ∈ (ctx.tapSubscribers name).1 ↔ ∃ a, h = some a ∧ (name, a) ∈ ctx.subscriptions.pairs := by
  rw [tapSubscribers_eq sound, List.mem_map]
  constructor
  · rintro ⟨t, member, rfl⟩
    obtain ⟨held, answer⟩ := List.mem_filter.mp member
    obtain ⟨rfl, a, eq, alive⟩ := (answers_iff t).mp answer
    have entry : (⟨t.name, some a⟩ : Tap) ∈ ctx.taps := eq ▸ held
    exact ⟨a, eq, alive, entry⟩
  · rintro ⟨a, rfl, alive, member⟩
    have answer : ctx.answers name ⟨name, some a⟩ = true :=
      (answers_iff _).mpr ⟨rfl, a, rfl, alive⟩
    exact ⟨_, List.mem_filter.mpr ⟨member, answer⟩, rfl⟩

theorem tapSubscribers_nodup (sound : ctx.Exact) : (ctx.tapSubscribers name).1.Nodup := by
  rw [tapSubscribers_eq sound]
  refine List.Nodup.map_on ?_ (List.nodup_iff_count_le_one.mpr fun t => ?_)
  · intro t member t' member' same
    have own := ((answers_iff t).mp (List.mem_filter.mp member).2).1
    have own' := ((answers_iff t').mp (List.mem_filter.mp member').2).1
    cases t
    cases t'
    simp_all
  · cases answer : ctx.answers name t with
    | true =>
        obtain ⟨rfl, a, eq, alive⟩ := (answers_iff t).mp answer
        have entry : t = ⟨t.name, some a⟩ := by rw [← eq]
        rw [entry]
        exact (List.filter_sublist.count_le _).trans (sound.once t.name a alive)
    | false =>
        have absent : t ∉ ctx.taps.filter (ctx.answers name) := fun member =>
          Bool.false_ne_true (answer.symm.trans (List.mem_filter.mp member).2)
        rw [List.count_eq_zero.mpr absent]
        exact Nat.zero_le 1

theorem tapSubscribers_taps (sound : ctx.Exact) :
    (ctx.tapSubscribers name).2.taps =
      ctx.taps.filter fun t => ¬ (t.name = name ∧ ctx.expired t.sub = true) := by
  rw [tapSubscribers_eq sound]
  refine List.filter_congr fun t _ => ?_
  simp [drops]

theorem isTapping_iff (sound : ctx.Exact) : ctx.isTapping = true ↔ ctx.taps ≠ [] := by
  rw [isTapping, decide_eq_true_iff, sound.counted, ← List.length_pos_iff]
  exact Int.natCast_pos

end Answers

end Context

/-- A context keeps to the subscriptions: the counter is right, nobody is subscribed twice,
an unsubscription erases the entries of the subscriber and finds them if there are any, and
a lookup finds each live subscriber once and drops expired entries only. -/
structure KeepsTo (σ : Subscriptions) (ctx : Context) : Prop where
  counted : ctx.tapCount = ctx.taps.length
  tapping : ctx.isTapping = true ↔ ctx.taps ≠ []
  once : ∀ name a, ctx.alive a = true → ctx.taps.count ⟨name, some a⟩ ≤ 1
  removed : ∀ name a, ctx.alive a = true → (ctx.tapRemove name (some a)).2.taps =
    ctx.taps.filter fun t => ¬ ((name = [] ∨ t.name = name) ∧ t.sub = some a)
  found : ∀ name a, ctx.alive a = true → ((ctx.tapRemove name (some a)).1 = true ↔
    ∃ n, (name = [] ∨ n = name) ∧ (n, a) ∈ σ.pairs)
  nodup : ∀ name, (ctx.tapSubscribers name).1.Nodup
  subscribers : ∀ name h, h ∈ (ctx.tapSubscribers name).1 ↔ ∃ a, h = some a ∧ (name, a) ∈ σ.pairs
  dropped : ∀ name, (ctx.tapSubscribers name).2.taps =
    ctx.taps.filter fun t => ¬ (t.name = name ∧ ctx.expired t.sub = true)

section Runs
variable (alive : ActorId → Bool) (acts : List Action)

theorem exact_initial : (Context.initial alive).Exact where
  counted := rfl
  once := fun _ _ _ => Nat.zero_le 1

/-- In a run the context keeps exact, and its entries keep to the history. -/
theorem run_refines {ctx : Context} (sound : ctx.Exact) :
    (run ctx acts).Exact ∧
      (run ctx acts).subscriptions = acts.foldl Subscriptions.step ctx.subscriptions := by
  induction acts generalizing ctx with
  | nil => exact ⟨sound, rfl⟩
  | cons act acts ih =>
      rw [run, List.foldl_cons, List.foldl_cons, ← Context.subscriptions_step sound act]
      exact ih (sound.step act)

theorem subscriptions_initial : (Context.initial alive).subscriptions = ⟨alive, ∅⟩ := by
  refine Subscriptions.ext rfl (Set.ext fun p => ?_)
  simp [Context.subscriptions, Context.initial]

/-- In every state of every run, and for every operation in that state. -/
theorem tap_bookkeeping_exact :
    KeepsTo (Subscriptions.run alive acts) (run (.initial alive) acts) := by
  obtain ⟨sound, refines⟩ := run_refines acts (exact_initial alive)
  rw [subscriptions_initial] at refines
  have history : Subscriptions.run alive acts = (run (.initial alive) acts).subscriptions :=
    refines.symm
  rw [history]
  exact
    { counted := sound.counted
      tapping := Context.isTapping_iff sound
      once := sound.once
      removed := fun name a living => Context.tapRemove_taps sound living
      found := fun name a living => Context.tapRemove_found sound living
      nodup := fun name => Context.tapSubscribers_nodup sound
      subscribers := fun name h => Context.mem_tapSubscribers sound h
      dropped := fun name => Context.tapSubscribers_taps sound }

end Runs

end Thespian.Debug.Taps
