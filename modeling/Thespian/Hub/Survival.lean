import Thespian.Hub.Subscriptions

/-!
Which calls a hub survives. The receiver returns ok for subscriptions and for
broadcasts with an argument. It calls listen without a return behind it, and a
broadcast without arguments carries null in place of an array; both are unexpected
then and end the hub.
-/

namespace Thespian.Hub
open Cbor Transition

variable {α : Type}

def Result.returnsOk : Result → Bool
  | .ok | .subscribe _ | .pop => true
  | .exit _ | .throws _ => false

/-- The calls whose message the receiver has a branch with a return for. -/
def Call.answered : Call → Bool
  | .subscribe | .subscribeFiltered _ => true
  | .broadcast parms => !parms.vs.isEmpty
  | .listen _ | .shutdown => false

/-- An event that starts no other calls. -/
def Event.answered : Event α → Bool
  | .call _ c => c.answered
  | _ => true

/-- The call an actor is at is answered. -/
def Stage.answered : Stage → Bool
  | .called c | .linked c => c.answered
  | _ => true

theorem unexpected_ends (toChars : Float → Bytes) (msg : Bytes) :
    (unexpected toChars msg).returnsOk = false := by
  unfold unexpected
  cases toJson toChars msg <;> rfl

theorem receive_returnsOk (toChars : Float → Bytes) (subs : List (α × Option (Bytes → Bool)))
    (c : Call) : (receive toChars (objects subs) c.message).result.returnsOk = c.answered := by
  cases c with
  | subscribe => rw [receive_subscribe]; rfl
  | subscribeFiltered f => rw [receive_subscribeFiltered]; rfl
  | broadcast parms =>
      by_cases none : parms.vs = []
      · rw [receive_broadcast_empty _ _ parms none, Call.answered, none]
        dsimp only
        rw [unexpected_ends]
        rfl
      · rw [receive_broadcast _ _ parms none, broadcast_objects, Call.answered]
        simpa [Result.returnsOk] using none
  | listen desc =>
      rw [receive_listen]
      dsimp only
      rw [unexpected_ends]
      rfl
  | shutdown => rw [receive_shutdown]; rfl

theorem handle_ended (s : State α) (sender : α) (r : Reception α)
    (alive : s.phase.isEnded = false) :
    (s.handle sender r).phase.isEnded = !r.result.returnsOk := by
  unfold State.handle
  cases r.result <;> first | exact alive | rfl

theorem handle_subscribers (s : State α) (sender : α) (r : Reception α) :
    s.subscribers <+: (s.handle sender r).subscribers := by
  unfold State.handle
  cases r.result <;> first | exact List.prefix_rfl | exact List.prefix_append _ _

theorem deliver_subscribers (s : State α) (a : α) (c : Call) :
    (s.deliver a c).subscribers = s.subscribers := by
  unfold State.deliver
  split <;> rfl

theorem deliver_handled {s : State α} (h : Ordered s) (a : α) (c : Call) :
    (s.deliver a c).handled = s.handled := by
  unfold State.deliver
  split
  · rfl
  · exact (handled_append h.bounded [(a, c)]).1

/-- The hub lives as long as all the calls it has handled are answered. -/
def Lasting (s : State α) : Prop :=
  s.phase.isEnded = false ↔ ∀ x ∈ s.handled, x.2.answered = true

theorem Lasting.frame {s s' : State α} (h : Lasting s) (handled : s'.handled = s.handled)
    (phase : s'.phase.isEnded = s.phase.isEnded) : Lasting s' := by
  rw [Lasting, handled, phase]
  exact h

section Steps
variable [DecidableEq α] {toChars : Float → Bytes} {s s' : State α}

theorem subscribers_step {e : Event α} (step : Hub.step toChars s e = some s') :
    s.subscribers <+: s'.subscribers := by
  cases moves_of_step toChars step with
  | call _ | link _ _ | lock _ _ | push _ | unlock _ | hubLock _ _ | pop _ _ | popEmpty _ _ =>
      exact List.prefix_rfl
  | @post a c _ =>
      rw [← deliver_subscribers s a c]
      exact List.prefix_rfl
  | @send a f _ =>
      rw [← deliver_subscribers s a (.subscribeFiltered f)]
      exact List.prefix_rfl
  | @take sender msg mailbox _ _ =>
      exact handle_subscribers { s with mailbox } sender (receive toChars s.subscribers msg)
  | hubUnlock _ => exact List.prefix_append _ _

theorem lasting_step {e : Event α} (ordered : Ordered s) (h : Lasting s)
    (step : Hub.step toChars s e = some s') : Lasting s' := by
  cases moves_of_step toChars step with
  | call _ | link _ _ | lock _ _ | push _ | unlock _ => exact h.frame rfl rfl
  | @post a c _ =>
      exact h.frame (deliver_handled ordered a c) (congrArg Phase.isEnded (deliver_phase s a c))
  | @send a f _ =>
      exact h.frame (deliver_handled ordered a _) (congrArg Phase.isEnded (deliver_phase s a _))
  | hubLock popping _ => exact h.frame rfl (by rw [popping]; rfl)
  | pop locked _ => exact h.frame rfl (by rw [locked]; rfl)
  | popEmpty locked _ => exact h.frame rfl (by rw [locked]; rfl)
  | hubUnlock popped => exact h.frame rfl (by rw [popped]; rfl)
  | @take sender msg mailbox waiting mail =>
      have alive : s.phase.isEnded = false := by rw [waiting]; rfl
      obtain ⟨c, rfl, logged, -, -⟩ := ordered.next waiting mail
      obtain ⟨settled, popping, progress, subs, -⟩ := ordered.progress
      obtain ⟨-, -, -, posted, outbox⟩ := handle_parts { s with mailbox } sender
        (receive toChars s.subscribers c.message)
      have handled : State.handled ({ s with mailbox }.handle sender
          (receive toChars s.subscribers c.message)) = s.handled ++ [(sender, c)] := by
        obtain ⟨bound, value⟩ := List.getElem?_eq_some_iff.mp logged
        rw [State.handled, posted, outbox, List.length_append, List.length_singleton,
          List.take_succ_eq_append_getElem bound, value]
        rfl
      have ended := handle_ended { s with mailbox } sender
        (receive toChars s.subscribers c.message) alive
      rw [subs, receive_returnsOk] at ended
      have before := h.mp alive
      rw [Lasting, handled, subs, ended]
      simp only [List.forall_mem_append, List.forall_mem_singleton, Bool.not_eq_false']
      exact ⟨fun answered => ⟨before, answered⟩, And.right⟩

/-- Only answered calls are under way or posted. -/
structure Answered (s : State α) : Prop where
  stages : ∀ a, (s.stage a).answered = true
  posted : ∀ x ∈ s.posted, x.2.answered = true

theorem Answered.set (h : Answered s) {a : α} {stage : Stage} (ok : stage.answered = true) :
    Answered (s.set a stage) where
  stages := by
    intro b
    by_cases same : b = a
    · rw [same, set_self, ok]
    · rw [set_other s a stage same]
      exact h.stages b
  posted := h.posted

end Steps

theorem Answered.deliver {s : State α} (h : Answered s) (a : α) {c : Call}
    (ok : c.answered = true) : Answered (s.deliver a c) where
  stages := by
    rw [deliver_stage]
    exact h.stages
  posted := by
    unfold State.deliver
    split
    · exact h.posted
    · intro x mem
      rcases List.mem_append.mp mem with old | new
      · exact h.posted x old
      · rw [List.mem_singleton.mp new]
        exact ok

theorem next_answered {stage : Stage} {c : Call} (h : stage.next = some c)
    (ok : stage.answered = true) : c.answered = true := by
  unfold Stage.next at h
  split at h <;> cases h <;> exact ok

section Runs
variable [DecidableEq α] (toChars : Float → Bytes) {s s' : State α}

theorem answered_step {e : Event α} (h : Answered s) (ok : e.answered = true)
    (step : Hub.step toChars s e = some s') : Answered s' := by
  cases moves_of_step toChars step with
  | call _ => exact h.set ok
  | @link a c called _ =>
      have here := h.stages a
      rw [called] at here
      have set : Answered (s.set a (.linked c)) := h.set here
      exact ⟨set.stages, set.posted⟩
  | @post a c next => exact (h.deliver a (next_answered next (h.stages a))).set rfl
  | @lock a f _ _ =>
      have set : Answered (s.set a (.locked f)) := h.set rfl
      exact ⟨set.stages, set.posted⟩
  | @push a f _ =>
      have set : Answered (s.set a (.pushed f)) := h.set rfl
      exact ⟨set.stages, set.posted⟩
  | @send a f _ => exact (h.deliver a rfl).set rfl
  | @unlock a _ =>
      have set : Answered (s.set a .idle) := h.set rfl
      exact ⟨set.stages, set.posted⟩
  | @take sender msg mailbox _ _ =>
      obtain ⟨stage, -, -, posted, -⟩ := handle_parts { s with mailbox } sender
        (receive toChars s.subscribers msg)
      refine ⟨?_, ?_⟩
      · rw [stage]
        exact h.stages
      · rw [posted]
        exact h.posted
  | hubLock _ _ | pop _ _ | popEmpty _ _ | hubUnlock _ => exact ⟨h.stages, h.posted⟩

theorem lasting_run {events : List (Event α)}
    (h : run (step toChars) created events = some s) : Lasting s := by
  have keeps : Keeps (step toChars) (fun _ _ => True)
      fun s : State α => Locks s ∧ Ordered s ∧ Lasting s :=
    fun s e s' inv _ step => ⟨locks_step inv.1 step, ordered_step inv.1 inv.2.1 step,
      lasting_step inv.2.1 inv.2.2 step⟩
  have start : Lasting (created : State α) := by
    refine ⟨fun _ x mem => ?_, fun _ => rfl⟩
    cases mem
  exact (keeps.run ⟨locks_created, ordered_created, start⟩ (along_true events) h).2.2

theorem subscribers_run {events : List (Event α)} (h : run (step toChars) s events = some s') :
    s.subscribers <+: s'.subscribers := by
  induction events generalizing s with
  | nil =>
      cases h
      exact List.prefix_rfl
  | cons e events ih =>
      obtain ⟨t, first, rest⟩ := run_cons h
      exact (subscribers_step first).trans (ih rest)

/-- The receiver returns ok for the message of a call exactly if the call is a
subscription or a broadcast with an argument. In every run the hub lives as long as
the calls it has handled are such, so with no others it lives in every state, and its
subscribers only grow. -/
theorem hub_survives_iff :
    (∀ (subs : List (α × Option (Bytes → Bool))) (c : Call),
      (receive toChars (objects subs) c.message).result.returnsOk = true ↔ c.answered = true) ∧
    ∀ (events : List (Event α)) (s : State α), run (step toChars) created events = some s →
      (s.phase.isEnded = false ↔ ∀ x ∈ s.handled, x.2.answered = true) ∧
      ((∀ e ∈ events, e.answered = true) → s.phase.isEnded = false) ∧
      ∀ (later : List (Event α)) (s' : State α), run (step toChars) s later = some s' →
        s.subscribers <+: s'.subscribers := by
  refine ⟨fun subs c => by rw [receive_returnsOk], fun events s h => ⟨lasting_run toChars h, ?_, ?_⟩⟩
  · intro answered
    have keeps : Keeps (step toChars) (fun _ (e : Event α) => e.answered = true) Answered :=
      fun s e s' inv ok step => answered_step toChars inv ok step
    have start : Answered (created : State α) := ⟨fun _ => rfl, fun x mem => by cases mem⟩
    have posted := (keeps.run start (along_of_forall answered) h).posted
    exact (lasting_run toChars h).mpr fun x mem => posted x (List.mem_of_mem_take mem)
  · exact fun later s' rest => subscribers_run toChars rest

end Runs

theorem hub_survives_iff_interleaved : ∃ s : State (Fin 3),
    run (step fun _ => []) created interleaved = some s ∧ s.phase.isEnded = false := by
  obtain ⟨s, h, -⟩ := Option.map_eq_some_iff.mp interleaved_runs
  exact ⟨s, h, ((hub_survives_iff fun _ => []).2 interleaved s h).2.1 (by decide)⟩

/-- How the hub of a run has ended. -/
def endedWith (s : State α) : Option Bytes :=
  match s.phase with
  | .ended (.exit reason) => some reason
  | _ => none

/-- Neither run holds a call of shutdown. -/
theorem hub_ends_unasked :
    ((run (step fun _ => []) created
      [.call (0 : Fin 1) (.broadcast ⟨[], by decide, trivial⟩), .post 0,
        .take]).map endedWith =
      some (some (text "UNEXPECTED_MESSAGE:[\"broadcast\",null]"))) ∧
    ((run (step fun _ => []) created
      [.call (0 : Fin 1) (.listen ⟨text "hub", by decide⟩), .post 0, .take]).map endedWith =
      some (some (text "UNEXPECTED_MESSAGE:[\"listen\",\"hub\"]"))) := by
  decide +kernel

end Thespian.Hub
