import Thespian.Zig.Call

/-!
What a call does with its context, over every order of the steps of its two threads. The
context is freed by the last of them that lets go of it, and never used by either of them
after that. It stays behind when the actor ends without a receiver. The caller is woken by
a response, or by a request that cannot be sent; whatever else ends the actor leaves it to
its timeout.
-/

namespace Thespian.Zig
open Cbor Transition Thespian.Runtime

/-- The caller still counts in the references. -/
@[grind]
def Caller.holds : Caller → Bool
  | .spawning | .waiting | .taking | .releasing => true
  | .destroying | .returned => false

@[grind]
def CallActor.holds : CallActor → Bool
  | .destroying | .gone => false
  | _ => true

/-- The actor has nothing more to do. -/
@[grind]
def CallActor.finished : CallActor → Bool
  | .unborn | .gone | .dead => true
  | _ => false

/-- The actor on its way to its receiver, or with it. -/
@[grind]
def CallActor.works : CallActor → Bool
  | .spawned | .sending | .receiving | .failing | .waiting => true
  | _ => false

namespace CallContext

/-- The references are those of the two threads that have not let go, and the context is
there as long as one of them has not or is on its way to free it. -/
structure Valid (s : CallContext) : Prop where
  spawning : s.caller = .spawning → s.actor = .unborn ∧ s.refs = 2
  unborn : s.actor = .unborn → s.caller = .spawning ∨
    s.caller = .returned ∧ s.live = false ∧ s.origin = false
  count : s.actor ≠ .unborn → s.refs = s.caller.holds.toNat + s.actor.holds.toNat
  live : s.actor ≠ .unborn ∨ s.caller = .spawning →
    (s.live = true ↔
      s.caller.holds ∨ s.actor.holds ∨ s.caller = .destroying ∨ s.actor = .destroying)
  callerLast : s.caller = .destroying → s.actor = .gone
  actorLast : s.actor = .destroying → s.caller = .returned
  origin : s.actor ≠ .unborn ∨ s.caller = .spawning →
    (s.origin = false ↔ s.actor = .releasing ∨ s.actor = .destroying ∨ s.actor = .gone)

/-- At most one response is copied, and it is in one place. The caller is woken for it,
or for a request that could not be sent. -/
structure Accounted (s : CallContext) : Prop where
  ledger : s.cloned = s.handed ++ s.freed ++ s.response.toList
  waiting : s.done = false → s.actor ≠ .notifying → s.cloned = []
  notifying : s.actor = .notifying → s.done = false ∧ s.cloned.length = 1
  woken : s.done = true → s.actor = .dead ∧ s.cloned = [] ∨
    (s.actor = .exiting ∨ s.actor = .releasing ∨ s.actor = .destroying ∨ s.actor = .gone) ∧
      s.cloned.length = 1
  handed : s.caller = .spawning ∨ s.caller = .waiting ∨ s.caller = .taking →
    s.handed = [] ∧ s.result = none
  taking : s.caller = .taking → s.done = true
  freed : s.live = true → s.freed = []
  kept : s.live = false → s.response = none
  result : ∀ m, s.result = some (.response m) → s.handed = [m]
  empty : s.result = some .empty → s.actor = .dead ∧ s.done = true

/-- The actor is past its receiver, or has none. -/
def concluded (s : CallContext) : Bool :=
  s.actor = .exiting ∨ s.actor = .releasing ∨ s.actor = .destroying ∨ s.actor = .gone ∨
    s.actor = .dead

variable {s next s' : CallContext} {a : CallAction}

theorem use_there (there : s.live = true) : s.use next = next := if_pos there

/-- What was lent is gone as soon as the caller is. -/
theorem fault_useLent (there : s.live = true) (same : next.fault = s.fault) :
    (s.useLent next).fault = true ↔ s.fault = true ∨ s.caller = .returned := by
  unfold useLent
  by_cases returned : s.caller = .returned
  · simp [returned]
  · simp [returned, there, same]

structure Sound (s : CallContext) : Prop extends Valid s, Accounted s

theorem Sound.fault (sound : s.Sound) : Sound { s with fault := true } :=
  { sound with }

theorem Sound.use (sound : s.Sound) (h : s.live = true → next.Sound) : (s.use next).Sound := by
  unfold CallContext.use
  split
  next there => exact h there
  next => exact sound.fault

theorem Sound.useLent (sound : s.Sound) (h : s.live = true → next.Sound) :
    (s.useLent next).Sound := by
  unfold CallContext.useLent
  split
  next there => exact h there.1
  next => exact sound.fault

theorem Sound.deliverEarly (sound : s.Sound) (spawned : s.actor = .spawned) (m : Bytes) :
    (s.deliverEarly m).Sound := by
  have dies : Sound { s with actor := .dead } := by
    obtain ⟨⟨⟩, ⟨⟩⟩ := sound
    constructor <;> constructor <;> grind -linarith
  unfold CallContext.deliverEarly
  split
  · exact sound
  · split
    · exact dies
    · split
      · exact dies
      · exact sound
    · exact sound

theorem Sound.deliver (sound : s.Sound) (waits : s.actor = .waiting) (m : Bytes) (cloned : Bool) :
    (s.deliver m cloned).Sound := by
  have exits : Sound { s with actor := .exiting } := by
    obtain ⟨⟨⟩, ⟨⟩⟩ := sound
    constructor <;> constructor <;> grind -linarith
  unfold CallContext.deliver
  split
  · exact sound
  · split
    · exact exits
    · split
      · exact exits
      · exact sound
    · split
      · apply sound.use
        intro there
        obtain ⟨⟨⟩, ⟨⟩⟩ := sound
        constructor <;> constructor <;> grind -linarith
      · exact exits

theorem Sound.unwoken (sound : s.Sound) (h : s.concluded = false) : s.done = false := by
  have woken := sound.woken
  unfold CallContext.concluded at h
  cases done : s.done with
  | false => rfl
  | true => grind -linarith

theorem Sound.spawned (sound : s.Sound) (spawning : s.caller = .spawning) :
    Sound { s with caller := .waiting, actor := .spawned } := by
  obtain ⟨⟨⟩, ⟨⟩⟩ := sound
  constructor <;> constructor <;> grind -linarith

theorem Sound.notSpawned (sound : s.Sound) (spawning : s.caller = .spawning) :
    Sound { s with caller := .returned, origin := false, live := false,
                   result := some .spawnFailed } := by
  have empty : s.response = none := by
    have unborn := (sound.spawning spawning).1
    have unwoken := sound.unwoken (by simp [CallContext.concluded, unborn])
    have cloned := sound.waiting unwoken (by simp [unborn])
    have ledger := sound.ledger
    cases response : s.response with
    | none => rfl
    | some m =>
        rw [cloned, response] at ledger
        simp at ledger
  obtain ⟨⟨⟩, ⟨⟩⟩ := sound
  constructor <;> constructor <;> grind -linarith

theorem Sound.wakes (sound : s.Sound) (waiting : s.caller = .waiting) (done : s.done = true) :
    Sound { s with caller := .taking } := by
  obtain ⟨⟨⟩, ⟨⟩⟩ := sound
  constructor <;> constructor <;> grind -linarith

theorem Sound.expires (sound : s.Sound) (waiting : s.caller = .waiting) :
    Sound { s with caller := .releasing, result := some .timeout } := by
  obtain ⟨⟨⟩, ⟨⟩⟩ := sound
  constructor <;> constructor <;> grind -linarith

theorem Sound.takesNothing (sound : s.Sound) (taking : s.caller = .taking)
    (empty : s.response = none) :
    Sound { s with caller := .releasing, result := some .empty } := by
  obtain ⟨⟨⟩, ⟨⟩⟩ := sound
  constructor <;> constructor <;> grind -linarith

theorem Sound.takes (sound : s.Sound) (taking : s.caller = .taking) {m : Bytes}
    (response : s.response = some m) :
    Sound { s with caller := .releasing, result := some (.response m), response := none,
                   handed := s.handed ++ [m] } := by
  obtain ⟨⟨⟩, ⟨⟩⟩ := sound
  constructor <;> constructor <;> grind -linarith

theorem Sound.callerReleased (sound : s.Sound) (releasing : s.caller = .releasing)
    (there : s.live = true) :
    Sound { s with refs := s.refs - 1,
                   caller := if s.refs = 1 then .destroying else .returned } := by
  have last : s.refs = 1 → s.actor = .gone := by
    intro one
    have := sound.count
    have := sound.actorLast
    have := sound.unborn
    cases actor : s.actor <;> grind -linarith
  obtain ⟨⟨⟩, ⟨⟩⟩ := sound
  constructor <;> constructor <;> grind -linarith

theorem Sound.callerDestroyed (sound : s.Sound) (destroying : s.caller = .destroying)
    (there : s.live = true) : Sound { s.destroy with caller := .returned } := by
  obtain ⟨⟨⟩, ⟨⟩⟩ := sound
  constructor <;> constructor <;> grind -linarith [destroy]

/-- The caller's side of the context. -/
theorem Sound.stepCaller (sound : s.Sound) (h : s.stepCaller a = some s') : s'.Sound := by
  cases a with
  | spawn ok =>
      simp only [CallContext.stepCaller] at h
      split at h
      · cases h
      next spawning =>
        have caller : s.caller = .spawning := Decidable.not_not.mp spawning
        split at h <;> cases h
        · exact sound.spawned caller
        · exact sound.notSpawned caller
  | wake =>
      simp only [CallContext.stepCaller] at h
      split at h <;> cases h
      next woken => exact sound.use fun _ => sound.wakes woken.1 woken.2
  | expire =>
      simp only [CallContext.stepCaller] at h
      split at h <;> cases h
      next waiting => exact sound.use fun _ => sound.expires waiting
  | take =>
      simp only [CallContext.stepCaller] at h
      split at h
      · cases h
      next taking =>
        have caller : s.caller = .taking := Decidable.not_not.mp taking
        cases h
        apply sound.use
        intro _
        split
        next empty => exact sound.takesNothing caller empty
        next m response => exact sound.takes caller response
  | callerReleases =>
      simp only [CallContext.stepCaller] at h
      split at h <;> cases h
      next releasing => exact sound.use fun there => sound.callerReleased releasing there
  | callerDestroys =>
      simp only [CallContext.stepCaller] at h
      split at h <;> cases h
      next destroying => exact sound.use fun there => sound.callerDestroyed destroying there
  | _ => cases h

theorem Sound.works (sound : s.Sound) (before : s.actor.works = true) {actor : CallActor}
    (after : actor.works = true) : Sound { s with actor } := by
  have busy : ∀ a : CallActor, a.works = true → a.holds = true ∧ a ≠ .unborn ∧ a ≠ .notifying ∧
      a ≠ .exiting ∧ a ≠ .releasing ∧ a ≠ .destroying ∧ a ≠ .gone ∧ a ≠ .dead := by
    intro a h
    cases a <;> simp_all [CallActor.works, CallActor.holds]
  have here := busy _ before
  have there := busy _ after
  obtain ⟨⟨⟩, ⟨⟩⟩ := sound
  constructor <;> constructor <;> grind -linarith

theorem Sound.fails (sound : s.Sound) (failing : s.actor = .failing) :
    Sound { s with done := true, actor := .dead } := by
  obtain ⟨⟨⟩, ⟨⟩⟩ := sound
  constructor <;> constructor <;> grind -linarith

theorem Sound.notifies (sound : s.Sound) (notifying : s.actor = .notifying) :
    Sound { s with done := true, actor := .exiting } := by
  obtain ⟨⟨⟩, ⟨⟩⟩ := sound
  constructor <;> constructor <;> grind -linarith

theorem Sound.leaves (sound : s.Sound) (exiting : s.actor = .exiting) :
    Sound { s with origin := false, actor := .releasing } := by
  obtain ⟨⟨⟩, ⟨⟩⟩ := sound
  constructor <;> constructor <;> grind -linarith

theorem Sound.actorReleased (sound : s.Sound) (releasing : s.actor = .releasing)
    (there : s.live = true) :
    Sound { s with refs := s.refs - 1,
                   actor := if s.refs = 1 then .destroying else .gone } := by
  have last : s.refs = 1 → s.caller = .returned := by
    intro one
    have := sound.count
    have := sound.callerLast
    cases caller : s.caller <;> grind -linarith
  obtain ⟨⟨⟩, ⟨⟩⟩ := sound
  constructor <;> constructor <;> grind -linarith

theorem Sound.actorDestroyed (sound : s.Sound) (destroying : s.actor = .destroying)
    (there : s.live = true) : Sound { s.destroy with actor := .gone } := by
  obtain ⟨⟨⟩, ⟨⟩⟩ := sound
  constructor <;> constructor <;> grind -linarith [destroy]

/-- The actor's side of the context. -/
theorem Sound.stepActor (sound : s.Sound) (h : s.stepActor a = some s') : s'.Sound := by
  cases a with
  | link =>
      simp only [CallContext.stepActor] at h
      split at h <;> cases h
      next spawned =>
        apply sound.useLent
        exact fun _ => sound.works (by simp [spawned, CallActor.works]) rfl
  | send ok =>
      simp only [CallContext.stepActor] at h
      split at h <;> cases h
      next sending =>
        apply sound.useLent
        intro _
        cases ok with
        | true => exact sound.works (by simp [sending, CallActor.works]) rfl
        | false => exact sound.works (by simp [sending, CallActor.works]) rfl
  | receive =>
      simp only [CallContext.stepActor] at h
      split at h <;> cases h
      next receiving =>
        apply sound.use
        exact fun _ => sound.works (by simp [receiving, CallActor.works]) rfl
  | fail =>
      simp only [CallContext.stepActor] at h
      split at h <;> cases h
      next failing => exact sound.use fun _ => sound.fails failing
  | deliver m cloned =>
      simp only [CallContext.stepActor] at h
      split at h <;> cases h
      next spawned => exact sound.deliverEarly spawned m
      next waiting => exact sound.deliver waiting m cloned
  | notify =>
      simp only [CallContext.stepActor] at h
      split at h <;> cases h
      next notifying => exact sound.use fun _ => sound.notifies notifying
  | exit =>
      simp only [CallContext.stepActor] at h
      split at h
      next exiting =>
        split at h <;> cases h
        · exact sound.use fun _ => sound.leaves exiting
        · exact sound.fault
      next => cases h
  | actorReleases =>
      simp only [CallContext.stepActor] at h
      split at h <;> cases h
      next releasing => exact sound.use fun there => sound.actorReleased releasing there
  | actorDestroys =>
      simp only [CallContext.stepActor] at h
      split at h <;> cases h
      next destroying => exact sound.use fun there => sound.actorDestroyed destroying there
  | _ => cases h

theorem sound_step : Keeps step (fun _ _ => True) Sound := by
  intro s a s' sound _ h
  rw [step, Option.or_eq_some_iff] at h
  rcases h with caller | ⟨-, actor⟩
  · exact sound.stepCaller caller
  · exact sound.stepActor actor

theorem sound_init : Sound {} := by
  constructor <;> constructor <;> simp [Caller.holds, CallActor.holds]

theorem Sound.there (sound : s.Sound) (busy : s.actor.finished = false) : s.live = true := by
  have live := sound.live
  cases actor : s.actor <;> grind -linarith

/-- The caller uses the context only while it counts in the references, or to free it. -/
theorem Sound.fault_stepCaller (sound : s.Sound) (h : s.stepCaller a = some s') :
    s'.fault = s.fault := by
  have there : s.caller ≠ .returned → s.live = true := by
    have live := sound.live
    have unborn := sound.unborn
    cases caller : s.caller <;> grind -linarith
  cases a with
  | spawn ok =>
      simp only [CallContext.stepCaller] at h
      split at h
      · cases h
      · split at h <;> cases h <;> rfl
  | take =>
      simp only [CallContext.stepCaller] at h
      split at h
      · cases h
      next taking =>
        cases h
        rw [use_there (there (by grind -linarith))]
        cases s.response <;> rfl
  | wake | expire | callerReleases =>
      simp only [CallContext.stepCaller] at h
      split at h <;> cases h
      rw [use_there (there (by grind -linarith))]
  | callerDestroys =>
      simp only [CallContext.stepCaller] at h
      split at h <;> cases h
      rw [use_there (there (by grind -linarith)), destroy]
  | _ => cases h

/-- The actor reads what it was lent before the caller returns. -/
def inTime (s : CallContext) : CallAction → Bool
  | .link | .send _ => s.caller ≠ .returned
  | _ => true

/-- The actor keeps going: the request is sent, and no exit message is in front of it. -/
def proceeds (s : CallContext) : CallAction → Bool
  | .send ok => ok
  | .deliver m _ => s.actor ≠ .spawned ∨ s.deliverEarly m = s
  | _ => true

theorem fault_deliver (there : s.live = true) (m : Bytes) (cloned : Bool) :
    (s.deliver m cloned).fault = s.fault := by
  unfold deliver
  rw [use_there there]
  split
  · rfl
  · split
    · rfl
    · split <;> rfl
    · split <;> rfl

theorem fault_deliverEarly (m : Bytes) : (s.deliverEarly m).fault = s.fault := by
  unfold deliverEarly
  split
  · rfl
  · split
    · rfl
    · split <;> rfl
    · rfl

/-- The actor uses the context only while it counts in the references, or to free it. -/
theorem Sound.fault_stepActor (sound : s.Sound) (h : s.stepActor a = some s') :
    s'.fault = true ↔ s.fault = true ∨ ¬s.inTime a = true := by
  have there := sound.there
  cases a with
  | link | send ok =>
      simp only [CallContext.stepActor] at h
      split at h <;> cases h
      apply (fault_useLent (there (by grind -linarith)) (by rfl)).trans
      simp [inTime]
  | deliver m cloned =>
      simp only [CallContext.stepActor] at h
      split at h <;> cases h
      next spawned => simp [fault_deliverEarly, inTime]
      next waiting => simp [fault_deliver (there (by grind -linarith)), inTime]
  | exit =>
      simp only [CallContext.stepActor] at h
      have origin := sound.origin
      split at h
      next exiting =>
        rw [if_pos (by grind -linarith)] at h
        cases h
        simp [use_there (there (by grind -linarith)), inTime]
      next => cases h
  | receive | fail | notify | actorReleases | actorDestroys =>
      simp only [CallContext.stepActor] at h
      split at h <;> cases h
      simp [use_there (there (by grind -linarith)), inTime, destroy]
  | _ => cases h


theorem Sound.fault_step (sound : s.Sound) (h : s.step a = some s') :
    s'.fault = true ↔ s.fault = true ∨ ¬s.inTime a = true := by
  rw [step, Option.or_eq_some_iff] at h
  rcases h with caller | ⟨-, actor⟩
  · have punctual : s.inTime a = true := by
      cases a with
      | link | send ok => cases caller
      | _ => rfl
    rw [sound.fault_stepCaller caller, punctual]
    simp
  · exact sound.fault_stepActor actor

/-- The actor has ended, or is about to end, without a receiver. -/
def Stillborn (s : CallContext) : Prop := s.actor = .failing ∨ s.actor = .dead

theorem stillborn_deliverEarly (spawned : s.actor = .spawned) (m : Bytes) :
    (s.deliverEarly m).Stillborn ↔ s.deliverEarly m ≠ s := by
  have kept : ¬s.Stillborn := by
    intro stillborn
    rcases stillborn with failing | dead
    · cases spawned.symm.trans failing
    · cases spawned.symm.trans dead
  have died : { s with actor := .dead } ≠ s := by
    intro same
    have dead : CallActor.dead = s.actor := congrArg CallContext.actor same
    cases dead.trans spawned
  unfold deliverEarly
  split
  · exact iff_of_false kept (not_not_intro rfl)
  · split
    · exact iff_of_true (.inr rfl) died
    · split
      · exact iff_of_true (.inr rfl) died
      · exact iff_of_false kept (not_not_intro rfl)
    · exact iff_of_false kept (not_not_intro rfl)

theorem born_deliver (waiting : s.actor = .waiting) (there : s.live = true) (m : Bytes)
    (cloned : Bool) : ¬(s.deliver m cloned).Stillborn := by
  unfold deliver Stillborn
  rw [use_there there]
  split
  · simp [waiting]
  · split
    · simp
    · split <;> simp [waiting]
    · split <;> simp

theorem actor_use (actor : next.actor = s.actor) (done : next.done = s.done) :
    (s.use next).actor = s.actor ∧ (s.use next).done = s.done := by
  unfold use
  split
  · exact ⟨actor, done⟩
  · exact ⟨rfl, rfl⟩

/-- The caller starts the actor, and leaves the rest to it. -/
theorem Sound.actor_stepCaller (sound : s.Sound) (h : s.stepCaller a = some s') :
    (s'.actor = s.actor ∨ s.actor = .unborn ∧ s'.actor = .spawned) ∧ s'.done = s.done := by
  have kept : ∀ next : CallContext, next.actor = s.actor → next.done = s.done →
      ((s.use next).actor = s.actor ∨ s.actor = .unborn ∧ (s.use next).actor = .spawned) ∧
        (s.use next).done = s.done := by
    intro next actor done
    obtain ⟨actor, done⟩ := actor_use actor done
    exact ⟨.inl actor, done⟩
  cases a with
  | spawn ok =>
      simp only [CallContext.stepCaller] at h
      split at h
      · cases h
      next spawning =>
        have unborn := (sound.spawning (Decidable.not_not.mp spawning)).1
        split at h <;> cases h
        · exact ⟨.inr ⟨unborn, rfl⟩, rfl⟩
        · exact ⟨.inl rfl, rfl⟩
  | take =>
      simp only [CallContext.stepCaller] at h
      split at h
      · cases h
      · cases h
        cases s.response <;> exact kept _ rfl rfl
  | wake | expire | callerReleases | callerDestroys =>
      simp only [CallContext.stepCaller] at h
      split at h <;> cases h
      exact kept _ rfl rfl
  | _ => cases h

theorem Sound.stillborn_stepCaller (sound : s.Sound) (h : s.stepCaller a = some s') :
    (s'.Stillborn ↔ s.Stillborn) ∧ s.proceeds a = true := by
  constructor
  · unfold Stillborn
    rcases (sound.actor_stepCaller h).1 with same | ⟨unborn, spawned⟩
    · rw [same]
    · rw [unborn, spawned]
      simp
  · cases a with
    | send _ | deliver _ _ => cases h
    | _ => rfl

theorem Sound.stillborn_stepActor (sound : s.Sound) (h : s.stepActor a = some s')
    (safe : s'.fault = false) : s'.Stillborn ↔ s.Stillborn ∨ ¬s.proceeds a = true := by
  have there := sound.there
  cases a with
  | link =>
      simp only [CallContext.stepActor] at h
      split at h <;> cases h
      next spawned =>
        unfold CallContext.useLent at safe ⊢
        split at safe
        · simp [Stillborn, proceeds, *]
        · cases safe
  | send ok =>
      simp only [CallContext.stepActor] at h
      split at h <;> cases h
      next sending =>
        unfold CallContext.useLent at safe ⊢
        split at safe
        · cases ok <;> simp [Stillborn, proceeds, *]
        · cases safe
  | deliver m cloned =>
      simp only [CallContext.stepActor] at h
      split at h <;> cases h
      next spawned =>
        rw [stillborn_deliverEarly spawned]
        simp [Stillborn, proceeds, spawned]
      next waiting =>
        have born := born_deliver waiting (there (by grind -linarith)) m cloned
        simpa [proceeds, Stillborn, waiting] using born
  | exit =>
      simp only [CallContext.stepActor] at h
      split at h
      next exiting =>
        have origin := sound.origin
        rw [if_pos (by grind -linarith), use_there (there (by grind))] at h
        cases h
        simp [Stillborn, proceeds, exiting]
      next => cases h
  | receive | fail | notify | actorDestroys =>
      simp only [CallContext.stepActor] at h
      split at h <;> cases h
      rw [use_there (there (by grind -linarith))]
      simp [Stillborn, proceeds, *]
  | actorReleases =>
      simp only [CallContext.stepActor] at h
      split at h <;> cases h
      rw [use_there (there (by grind -linarith))]
      by_cases last : s.refs = 1 <;> simp [Stillborn, proceeds, *]
  | _ => cases h

theorem Sound.stillborn_step (sound : s.Sound) (h : s.step a = some s') (safe : s'.fault = false) :
    s'.Stillborn ↔ s.Stillborn ∨ ¬s.proceeds a = true := by
  rw [step, Option.or_eq_some_iff] at h
  rcases h with caller | ⟨-, actor⟩
  · obtain ⟨same, proceeds⟩ := sound.stillborn_stepCaller caller
    simp [same, proceeds]
  · exact sound.stillborn_stepActor actor safe

/-- No message ends the actor but a response that can be copied. -/
def answers (s : CallContext) : CallAction → Bool
  | .deliver m cloned =>
      (s.actor ≠ .spawned ∨ s.deliverEarly m = s) ∧
        (s.actor ≠ .waiting ∨ s.deliver m cloned = s ∨ (s.deliver m cloned).actor = .notifying)
  | _ => true

/-- The actor has ended, or is about to end, without an answer. -/
def Silent (s : CallContext) : Prop := s.concluded = true ∧ s.done = false

theorem Sound.silent_stepCaller (sound : s.Sound) (h : s.stepCaller a = some s') :
    (s'.Silent ↔ s.Silent) ∧ s.answers a = true := by
  constructor
  · obtain ⟨actor, done⟩ := sound.actor_stepCaller h
    unfold Silent concluded
    rw [done]
    rcases actor with same | ⟨unborn, spawned⟩
    · rw [same]
    · rw [unborn, spawned]
      simp
  · cases a with
    | deliver _ _ => cases h
    | _ => rfl

theorem Sound.silent_deliver (sound : s.Sound) (waiting : s.actor = .waiting) (m : Bytes)
    (cloned : Bool) : (s.deliver m cloned).Silent ↔
      ¬(s.deliver m cloned = s ∨ (s.deliver m cloned).actor = .notifying) := by
  have unwoken := sound.unwoken (by simp [concluded, waiting])
  have moved : { s with actor := .exiting } ≠ s := by
    intro same
    have exiting : CallActor.exiting = s.actor := congrArg CallContext.actor same
    cases exiting.trans waiting
  unfold CallContext.deliver Silent concluded
  rw [use_there (sound.there (by grind -linarith))]
  grind -linarith

theorem Sound.silent_deliverEarly (sound : s.Sound) (spawned : s.actor = .spawned) (m : Bytes) :
    (s.deliverEarly m).Silent ↔ s.deliverEarly m ≠ s := by
  have unwoken := sound.unwoken (by simp [concluded, spawned])
  have moved : { s with actor := .dead } ≠ s := by
    intro same
    have dead : CallActor.dead = s.actor := congrArg CallContext.actor same
    cases dead.trans spawned
  unfold CallContext.deliverEarly Silent concluded
  grind -linarith

theorem Sound.silent_stepActor (sound : s.Sound) (h : s.stepActor a = some s')
    (safe : s'.fault = false) : s'.Silent ↔ s.Silent ∨ ¬s.answers a = true := by
  have there := sound.there
  cases a with
  | link =>
      simp only [CallContext.stepActor] at h
      split at h <;> cases h
      unfold CallContext.useLent at safe ⊢
      split at safe
      · simp_all [Silent, concluded, answers]
      · cases safe
  | send ok =>
      simp only [CallContext.stepActor] at h
      split at h <;> cases h
      unfold CallContext.useLent at safe ⊢
      split at safe
      · cases ok <;> simp_all [Silent, concluded, answers]
      · cases safe
  | deliver m cloned =>
      simp only [CallContext.stepActor] at h
      split at h <;> cases h
      next spawned =>
        rw [sound.silent_deliverEarly spawned]
        simp [Silent, concluded, answers, spawned]
      next waiting =>
        rw [sound.silent_deliver waiting]
        simp [Silent, concluded, answers, waiting]
  | exit =>
      simp only [CallContext.stepActor] at h
      split at h
      next exiting =>
        have origin := sound.origin
        rw [if_pos (by grind -linarith), use_there (there (by grind))] at h
        cases h
        simp [Silent, concluded, answers, exiting]
      next => cases h
  | receive | fail | notify | actorDestroys =>
      simp only [CallContext.stepActor] at h
      split at h <;> cases h
      rw [use_there (there (by grind -linarith))]
      simp [Silent, concluded, answers, destroy, *]
  | actorReleases =>
      simp only [CallContext.stepActor] at h
      split at h <;> cases h
      rw [use_there (there (by grind -linarith))]
      by_cases last : s.refs = 1 <;> simp [Silent, concluded, answers, *]
  | _ => cases h
theorem Sound.silent_step (sound : s.Sound) (h : s.step a = some s') (safe : s'.fault = false) :
    s'.Silent ↔ s.Silent ∨ ¬s.answers a = true := by
  rw [step, Option.or_eq_some_iff] at h
  rcases h with caller | ⟨-, actor⟩
  · obtain ⟨same, answers⟩ := sound.silent_stepCaller caller
    simp [same, answers]
  · exact sound.silent_stepActor actor safe

section Calls
variable {acts : List CallAction}

theorem fault_run (h : run step {} acts = some s) :
    s.fault = true ↔ ¬Along step (fun s a => s.inTime a = true) {} acts := by
  have mark := run_marked sound_step (fun _ _ _ sound => sound.fault_step) sound_init h
  simpa using mark

/-- A mark that the steps of a faultless run leave outside a condition. -/
theorem marked_run {Q : CallContext → Prop} {P : CallContext → CallAction → Prop}
    (mark : ∀ s a s', s.Sound → s.step a = some s' → s'.fault = false → (Q s' ↔ Q s ∨ ¬P s a))
    (init : ¬Q {}) (h : run step {} acts = some s) (safe : s.fault = false) :
    Q s ↔ ¬Along step P {} acts := by
  have punctual : Along step (fun s a => s.inTime a = true) {} acts := by
    by_contra late
    rw [(fault_run h).mpr late] at safe
    cases safe
  have either : ∀ s a s', s.Sound → s.step a = some s' →
      (s'.fault = true ∨ Q s' ↔ (s.fault = true ∨ Q s) ∨ ¬(s.inTime a = true ∧ P s a)) := by
    intro s a s' sound h
    have fault := sound.fault_step h
    cases safe : s'.fault with
    | true => grind -linarith
    | false =>
        have marked := mark s a s' sound h safe
        grind -linarith
  have marked := run_marked sound_step either sound_init h
  rw [along_and] at marked
  simpa [safe, punctual, init] using marked

theorem stillborn_run (h : run step {} acts = some s) (safe : s.fault = false) :
    s.Stillborn ↔ ¬Along step (fun s a => s.proceeds a = true) {} acts :=
  marked_run (fun _ _ _ sound => sound.stillborn_step) (by simp [Stillborn]) h safe

theorem silent_run (h : run step {} acts = some s) (safe : s.fault = false) :
    s.Silent ↔ ¬Along step (fun s a => s.answers a = true) {} acts :=
  marked_run (fun _ _ _ sound => sound.silent_step) (by simp [Silent, concluded]) h safe

/-- The context is used and freed without fault exactly when the actor comes to send the
request before the caller is gone, and no response is lost or freed twice. -/
theorem call_memory (h : run step {} acts = some s) :
    (s.fault = false ↔ Along step (fun s a => s.inTime a = true) {} acts) ∧
    s.cloned = s.handed ++ s.freed ++ s.response.toList ∧ s.cloned.length ≤ 1 ∧
    (s.live = false → s.response = none) := by
  have sound : s.Sound := sound_step.run sound_init (along_true acts) h
  refine ⟨?_, sound.ledger, ?_, sound.kept⟩
  · have fault := fault_run h
    grind -linarith
  · have waiting := sound.waiting
    have notifying := sound.notifying
    have woken := sound.woken
    by_cases copied : s.actor = .notifying
    · exact Nat.le_of_eq (notifying copied).2
    · cases done : s.done <;> grind -linarith

/-- A context that nobody uses any more is freed exactly when the actor got to install
its receiver. -/
theorem call_freed (h : run step {} acts = some s) (safe : s.fault = false)
    (caller : s.caller = .returned) (actor : s.actor.finished = true) :
    (s.live = false ↔ Along step (fun s a => s.proceeds a = true) {} acts) ∧
    s.origin = s.live := by
  have sound : s.Sound := sound_step.run sound_init (along_true acts) h
  have stillborn := stillborn_run h safe
  have live := sound.live
  have origin := sound.origin
  have unborn := sound.unborn
  unfold Stillborn at stillborn
  cases place : s.actor <;> grind -linarith

/-- The responses that are kept or returned are messages that a receiver was given. -/
def Responses (p : Bytes → Prop) (s : CallContext) : Prop :=
  (∀ m, s.response = some m → p m) ∧ ∀ m, s.result = some (.response m) → p m

theorem responses_use {p : Bytes → Prop} (h : s.Responses p) (then' : next.Responses p) :
    (s.use next).Responses p := by
  unfold use
  split
  · exact then'
  · exact h

theorem responses_step (p : Bytes → Prop) :
    Keeps step (fun _ a => ∀ m, a = .deliver m true → isLinkMsg m = false →
      isExitMsg m = .ok false → p m) (Responses p) := by
  intro s a s' kept given h
  rw [step, Option.or_eq_some_iff] at h
  rcases h with caller | ⟨-, actor⟩
  · cases a with
    | spawn ok =>
        simp only [stepCaller] at caller
        split at caller
        · cases caller
        · split at caller <;> cases caller
          · exact kept
          · exact ⟨kept.1, by simp⟩
    | take =>
        simp only [stepCaller] at caller
        split at caller
        · cases caller
        · cases caller
          apply responses_use kept
          cases response : s.response with
          | none => exact ⟨by simp, by simp⟩
          | some m =>
              refine ⟨by simp, ?_⟩
              intro m' same
              cases same
              exact kept.1 m response
    | wake | expire | callerReleases | callerDestroys =>
        simp only [stepCaller] at caller
        split at caller <;> cases caller
        apply responses_use kept
        simp_all [Responses, destroy]
    | _ => cases caller
  · cases a with
    | deliver m cloned =>
        simp only [stepActor] at actor
        split at actor <;> cases actor
        · unfold deliverEarly
          split
          · exact kept
          · split
            · exact kept
            · split <;> exact kept
            · exact kept
        · unfold deliver
          split
          · exact kept
          next delivered =>
            split
            · exact kept
            · split <;> exact kept
            next regular =>
              split
              next copied =>
                apply responses_use kept
                refine ⟨?_, kept.2⟩
                intro m' same
                cases same
                apply given m (by rw [copied]) (by simpa using delivered) regular
              · exact kept
    | exit =>
        simp only [stepActor] at actor
        split at actor
        · split at actor <;> cases actor
          · exact responses_use kept kept
          · exact kept
        · cases actor
    | link | send ok =>
        simp only [stepActor] at actor
        split at actor <;> cases actor
        unfold useLent
        split <;> exact kept
    | receive | fail | notify | actorReleases | actorDestroys =>
        simp only [stepActor] at actor
        split at actor <;> cases actor
        apply responses_use kept
        simp_all [Responses, destroy]
    | _ => cases actor

/-- A response comes from a message that the actor took for one. -/
theorem response_delivered (h : run step {} acts = some s) {m : Bytes}
    (response : s.result = some (.response m)) :
    .deliver m true ∈ acts ∧ isLinkMsg m = false ∧ isExitMsg m = .ok false := by
  have given : Along step (fun _ a => ∀ m, a = .deliver m true → isLinkMsg m = false →
      isExitMsg m = .ok false →
        .deliver m true ∈ acts ∧ isLinkMsg m = false ∧ isExitMsg m = .ok false) {} acts := by
    apply along_of_forall
    intro a member m same delivered regular
    exact ⟨same ▸ member, delivered, regular⟩
  have kept := (responses_step _).run ⟨by simp, by simp⟩ given h
  exact kept.2 m response

/-- As long as the request can be sent, the actor does not wake the caller for nothing. -/
theorem sent_step : Keeps step (fun _ a => a ≠ .send false)
    (fun s => s.Sound ∧ s.actor ≠ .failing ∧ (s.actor = .dead → s.done = false)) := by
  rintro s a s' ⟨sound, going, asleep⟩ sent h
  refine ⟨sound_step s a s' sound trivial h, ?_⟩
  have there := sound.there
  rw [step, Option.or_eq_some_iff] at h
  rcases h with caller | ⟨-, actor⟩
  · obtain ⟨actor, done⟩ := sound.actor_stepCaller caller
    grind -linarith
  · cases a with
    | send ok =>
        simp only [stepActor] at actor
        split at actor <;> cases actor
        unfold useLent
        cases ok <;> grind -linarith
    | deliver m cloned =>
        simp only [stepActor] at actor
        split at actor <;> cases actor
        next spawned =>
          have unwoken := sound.unwoken (by simp [concluded, spawned])
          unfold deliverEarly
          grind -linarith
        next waiting =>
          have born := born_deliver waiting (there (by grind -linarith)) m cloned
          unfold Stillborn at born
          grind -linarith
    | exit =>
        simp only [stepActor] at actor
        split at actor
        · split at actor <;> cases actor
          · rw [use_there (there (by grind -linarith))]
            grind -linarith
          · exact ⟨going, asleep⟩
        · cases actor
    | link =>
        simp only [stepActor] at actor
        split at actor <;> cases actor
        unfold useLent
        grind -linarith
    | receive | fail | notify | actorReleases | actorDestroys =>
        simp only [stepActor] at actor
        split at actor <;> cases actor
        rw [use_there (there (by grind -linarith))]
        grind -linarith
    | _ => cases actor

theorem sent_empty (h : run step {} acts = some s) (empty : s.result = some .empty) :
    .send false ∈ acts := by
  have sound : s.Sound := sound_step.run sound_init (along_true acts) h
  obtain ⟨dead, done⟩ := sound.empty empty
  apply run_takes sent_step ⟨sound_init, by simp, by simp⟩ h
  rintro ⟨-, -, asleep⟩
  rw [asleep dead] at done
  cases done

/-- Nothing but the timeout gets a caller on that nobody answers. -/
theorem silent_waiting : Keeps step (fun _ a => a ≠ .expire)
    (fun s => s.caller = .waiting ∧ s.Silent) := by
  rintro s a s' ⟨waiting, silent, asleep⟩ patient h
  rw [step, Option.or_eq_some_iff] at h
  unfold concluded at silent
  unfold Silent concluded
  rcases h with caller | ⟨-, actor⟩
  · cases a <;> simp only [stepCaller] at caller <;> grind -linarith
  · cases a <;> simp only [stepActor, use] at actor <;> grind -linarith [destroy]

/-- The caller is woken exactly when no message but a response ended the actor, and
otherwise waits for its timeout. What it returns is a message for the actor, or nothing
when the request could not be sent. -/
theorem call_answered (h : run step {} acts = some s) (safe : s.fault = false)
    (ended : s.concluded = true) :
    (s.done = true ↔ Along step (fun s a => s.answers a = true) {} acts) ∧
    (s.caller = .waiting → s.done = false → ∀ rest s', run step s rest = some s' →
      s'.caller ≠ .waiting → .expire ∈ rest) ∧
    (∀ m, s.result = some (.response m) →
      .deliver m true ∈ acts ∧ isLinkMsg m = false ∧ isExitMsg m = .ok false) ∧
    (s.result = some .empty → .send false ∈ acts) := by
  refine ⟨?_, ?_, fun m => response_delivered h, sent_empty h⟩
  · have silent := silent_run h safe
    unfold Silent at silent
    grind -linarith
  · intro waiting asleep rest s' continued free
    apply run_takes silent_waiting ⟨waiting, ended, asleep⟩ continued
    rintro ⟨waits, -⟩
    exact free waits

/-- The caller is gone before the actor has linked itself to the target. -/
def late : List CallAction := [.spawn true, .expire, .callerReleases, .link]

theorem call_memory_late : ∃ s, run step {} late = some s ∧ s.fault = true := by
  have checked : (run step {} late).any (fun _ => true) = true := by decide +kernel
  obtain ⟨s, ran, -⟩ := (Option.any_eq_true _ _).mp checked
  refine ⟨s, ran, ?_⟩
  apply Bool.eq_true_of_not_eq_false
  rw [(call_memory ran).1]
  decide +kernel

/-- The target is gone. -/
def unsent : List CallAction :=
  [.spawn true, .link, .send false, .fail, .wake, .take, .callerReleases]

theorem call_freed_unsent : ∃ s, run step {} unsent = some s ∧ s.live = true := by
  have checked : (run step {} unsent).any (fun s =>
      s.fault = false ∧ s.caller = .returned ∧ s.actor.finished = true) = true := by
    decide +kernel
  obtain ⟨s, ran, checked⟩ := (Option.any_eq_true _ _).mp checked
  rw [decide_eq_true_eq] at checked
  obtain ⟨safe, caller, actor⟩ := checked
  refine ⟨s, ran, ?_⟩
  apply Bool.eq_true_of_not_eq_false
  rw [(call_freed ran safe caller actor).1]
  decide +kernel

/-- The target ends before it answers. -/
def orphaned : List CallAction :=
  [.spawn true, .link, .send true, .receive, .deliver exitNoreceiveMsg true, .exit]

theorem call_answered_orphaned : ∃ s, run step {} orphaned = some s ∧ s.caller = .waiting ∧
    s.done = false := by
  have checked : (run step {} orphaned).any (fun s =>
      s.fault = false ∧ s.concluded = true ∧ s.caller = .waiting) = true := by
    decide +kernel
  obtain ⟨s, ran, checked⟩ := (Option.any_eq_true _ _).mp checked
  rw [decide_eq_true_eq] at checked
  obtain ⟨safe, ended, waiting⟩ := checked
  refine ⟨s, ran, waiting, ?_⟩
  apply Bool.eq_false_of_not_eq_true
  rw [(call_answered ran safe ended).1]
  decide +kernel

end Calls

end CallContext
end Thespian.Zig
