import Thespian.Runtime.Steps

/-!
A step seen from one actor, and a step seen from the event it leaves. An actor
that exists before a step makes the move itself, gets a mail, or stays as it is.
-/

namespace Thespian.Runtime
open Cbor Actor

section Moves

def Actor.add (x : Actor) (mail : Mail) : Actor := { x with mailbox := x.mailbox ++ [mail] }

/-- The mail reaches the strand of the given instance. -/
def reaches (b : InstanceId) (target : Handle) (d : Delivery) : Bool :=
  target = some b && d.isPosted

def Actor.receives (x : Actor) (b : InstanceId) (target : Handle) (mail : Mail)
    (d : Delivery) : Actor :=
  if reaches b target d then x.add mail else x

/-- Events left only by the moves of the given actor itself and by its creation. -/
def Event.byItself (b : InstanceId) : Event → Bool
  | .ran self _ | .linked self _ | .received self _ | .exit self _ _ | .exitHandler self _ _
  | .spawned self _ _ _ => self = b
  | .created child caller _ _ => child = b || caller = some b
  | .queued _ _ _ _ | .internal _ => false

/-- What a step with the given event does to one actor that exists before it. -/
inductive Moves (toChars : Float → Bytes) (s : System) (b : InstanceId) (x : Actor) :
    Action → Event → Actor → Prop
  | other (act : Action) (e : Event) (foreign : e.byItself b = false)
      (unposted : ∀ cause target mail d, e ≠ .queued cause target mail d) :
      Moves toChars s b x act e x
  | act (act : Action) (e : Event) (x' : Actor) (move : Local toChars b s.now x act e x') :
      Moves toChars s b x act e x'
  | call (act : Action) (cause : Cause) (target : Handle) (mail : Mail) (d : Delivery)
      (x' : Actor) (move : Calls s b x act cause target mail d x') :
      Moves toChars s b x act (.queued cause target mail d) (x'.receives b target mail d)
  | called (self : InstanceId) (y y' : Actor) (act : Action) (cause : Cause) (target : Handle)
      (mail : Mail) (d : Delivery) (foreign : self ≠ b) (hy : s.actors self = some y)
      (move : Calls s self y act cause target mail d y') :
      Moves toChars s b x act (.queued cause target mail d) (x.receives b target mail d)
  | outside (act : Action) (cause : Cause) (target : Handle) (m : Bytes) (d : Delivery)
      (either : act = .outsideSend target m ∧ cause = .send ∧ s.valid target = true ∧
          d = s.sendRaw none target m ∨
        ∃ child ∈ s.outside, act = .schedule child ∧ cause = .schedule ∧ target = some child ∧
          m = nullValue ∧ d = s.queue none none child m) :
      Moves toChars s b x act (.queued cause target ⟨none, m, s.now⟩ d)
        (x.receives b target ⟨none, m, s.now⟩ d)
  | spawn (name : Bytes) (link : Bool) (free : x.free = true) :
      Moves toChars s b x (.spawn b name link) (.created s.nextInstanceId (some b) link [])
        { x with call := .spawn s.nextInstanceId link .created }

variable {toChars : Float → Bytes} {s s' : System}

@[simp] theorem log_actors (e : Event) : (s.log e).actors = s.actors := rfl

@[simp] theorem set_self (a : InstanceId) (x : Actor) : (s.set a x).actors a = some x :=
  Function.update_self a _ s.actors

theorem set_other {a b : InstanceId} (h : b ≠ a) (x : Actor) :
    (s.set a x).actors b = s.actors b :=
  Function.update_of_ne h _ s.actors

theorem post_trace (cause : Cause) (target : Handle) (mail : Mail) (d : Delivery) :
    (s.post cause target mail d).trace = s.trace ++ [.queued cause target mail d] := by
  unfold System.post
  dsimp only
  split
  · split <;> rfl
  · rfl

theorem post_nextInstanceId (cause : Cause) (target : Handle) (mail : Mail) (d : Delivery) :
    (s.post cause target mail d).nextInstanceId = s.nextInstanceId := by
  unfold System.post
  dsimp only
  split
  · split <;> rfl
  · rfl

theorem post_outside (cause : Cause) (target : Handle) (mail : Mail) (d : Delivery) :
    (s.post cause target mail d).outside = s.outside := by
  unfold System.post
  dsimp only
  split
  · split <;> rfl
  · rfl

/-- A call of queue changes nothing but the mailbox of its target. -/
theorem post_actors (cause : Cause) (target : Handle) (mail : Mail) (d : Delivery)
    (b : InstanceId) :
    (s.post cause target mail d).actors b =
      (s.actors b).map fun x => x.receives b target mail d := by
  have unchanged (h : reaches b target d = false) :
      s.actors b = (s.actors b).map fun x => x.receives b target mail d := by
    cases s.actors b <;> simp [Actor.receives, h]
  cases target with
  | none => exact unchanged rfl
  | some c =>
      cases d with
      | dead ret => exact unchanged (by simp [reaches, Delivery.isPosted])
      | posted =>
          by_cases same : b = c
          · subst same
            cases hb : s.actors b with
            | none => simp [System.post, hb]
            | some x =>
                simp [System.post, hb, Actor.receives, reaches, Delivery.isPosted, Actor.add]
          · have foreign : reaches b (some c) .posted = false := by
              simp [reaches, Ne.symm same]
            rw [← unchanged foreign]
            cases hc : s.actors c with
            | none => simp [System.post, hc]
            | some x => simp [System.post, hc, set_other same]

/-- Instance ids are handed out in order. -/
def Numbered (s : System) : Prop := ∀ b, s.nextInstanceId ≤ b → s.actors b = none

theorem Numbered.lt (h : Numbered s) {b : InstanceId} {x : Actor} (hb : s.actors b = some x) :
    b < s.nextInstanceId := by
  by_contra ge
  rw [h b (Nat.le_of_not_lt ge)] at hb
  cases hb

theorem Local.not_queued {self : InstanceId} {now : Nat} {x x' : Actor} {act : Action} {e : Event}
    (move : Local toChars self now x act e x') (cause : Cause) (target : Handle) (mail : Mail)
    (d : Delivery) : e ≠ .queued cause target mail d := by
  cases move with
  | message mail' =>
      rcases runMessage_cases x self mail' with
        ⟨-, eq⟩ | ⟨-, ⟨_, _, -, eq⟩ | eq | ⟨_, eq⟩⟩ <;> simp [eq]
  | user | returned | handlerThrew | handlerReturned | delivered | dispatched | recorded | passed
  | exited | notified | handler | concluded | unlinked | spawned | destroyed => simp

theorem Local.foreign {self b : InstanceId} {now : Nat} {x x' : Actor} {act : Action} {e : Event}
    (move : Local toChars self now x act e x') (h : self ≠ b) : e.byItself b = false := by
  cases move with
  | message mail' =>
      rcases runMessage_cases x self mail' with
        ⟨-, eq⟩ | ⟨-, ⟨_, _, -, eq⟩ | eq | ⟨_, eq⟩⟩ <;> simp [eq, Event.byItself, h]
  | user | returned | handlerThrew | handlerReturned | delivered | dispatched | recorded | passed
  | exited | notified | handler | concluded | unlinked | spawned | destroyed =>
      simp [Event.byItself, h]

/-- The instance a step has created, as spawn leaves it. -/
def Fresh (s : System) (b : InstanceId) (act : Action) (e : Event) (x : Actor) : Prop :=
  b = s.nextInstanceId ∧ ∃ caller link name handlers,
    e = .created b caller link handlers ∧ x = { name := name, exitHandlers := handlers } ∧
    ((∃ a, act = .spawn a name link ∧ caller = some a ∧ handlers = [] ∧
        ∃ y, s.actors a = some y ∧ y.free = true) ∨
      caller = none ∧ link = false)

/-- A step seen from its event and from one actor. -/
theorem Step.moves {act : Action} (h : Step toChars s act s') (numbered : Numbered s) :
    ∃ e, s'.trace = s.trace ++ [e] ∧ ∀ b x', s'.actors b = some x' →
      Fresh s b act e x' ∨ ∃ x, s.actors b = some x ∧ Moves toChars s b x act e x' := by
  cases h with
  | act self x x' act e hx move =>
      refine ⟨e, rfl, fun b z hz => .inr ?_⟩
      by_cases own : b = self
      · subst own
        rw [log_actors, set_self] at hz
        cases hz
        exact ⟨x, hx, .act act e _ move⟩
      · rw [log_actors, set_other own] at hz
        exact ⟨z, hz, .other act e (move.foreign (Ne.symm own)) move.not_queued⟩
  | call self x x' act cause target mail d hx move =>
      refine ⟨_, post_trace cause target mail d, fun b z hz => .inr ?_⟩
      rw [post_actors] at hz
      obtain ⟨y, hy, rfl⟩ := Option.map_eq_some_iff.mp hz
      by_cases own : b = self
      · subst own
        rw [set_self] at hy
        cases hy
        exact ⟨x, hx, .call act cause target mail d _ move⟩
      · rw [set_other own] at hy
        exact ⟨y, hy, .called self x x' act cause target mail d (Ne.symm own) hx move⟩
  | spawn self x name link hx free =>
      refine ⟨_, rfl, fun b z hz => ?_⟩
      have older := numbered.lt hx
      by_cases new : b = s.nextInstanceId
      · subst new
        have made : some ({ name := name, exitHandlers := [] } : Actor) = some z :=
          (set_self _ _).symm.trans hz
        cases made
        exact .inl ⟨rfl, some self, link, name, [], rfl, rfl,
          .inl ⟨self, rfl, rfl, rfl, x, hx, free⟩⟩
      · have old : (s.set self { x with call := .spawn s.nextInstanceId link .created }).actors b =
            some z := (set_other new _).symm.trans hz
        by_cases own : b = self
        · subst own
          rw [set_self] at old
          cases old
          exact .inr ⟨x, hx, .spawn name link free⟩
        · rw [set_other own] at old
          have foreign : (Event.created s.nextInstanceId (some self) link []).byItself b = false := by
            simp [Event.byItself, Ne.symm own, Ne.symm new]
          exact .inr ⟨z, old, .other _ _ foreign (by simp)⟩
  | outsideSend target m valid =>
      refine ⟨_, post_trace _ _ _ _, fun b z hz => .inr ?_⟩
      rw [post_actors] at hz
      obtain ⟨y, hy, rfl⟩ := Option.map_eq_some_iff.mp hz
      exact ⟨y, hy, .outside _ _ _ _ _ (.inl ⟨rfl, rfl, valid, rfl⟩)⟩
  | contextSpawn name handler =>
      refine ⟨_, rfl, fun b z hz => ?_⟩
      by_cases new : b = s.nextInstanceId
      · subst new
        have made : some ({ name := name, exitHandlers := handler.toList } : Actor) = some z :=
          (set_self _ _).symm.trans hz
        cases made
        exact .inl ⟨rfl, none, false, name, _, rfl, rfl, .inr ⟨rfl, rfl⟩⟩
      · have old : s.actors b = some z := (set_other new _).symm.trans hz
        have foreign : (Event.created s.nextInstanceId none false handler.toList).byItself b =
            false := by simp [Event.byItself, Ne.symm new]
        exact .inr ⟨z, old, .other _ _ foreign (by simp)⟩
  | schedule child waiting =>
      refine ⟨_, post_trace _ _ _ _, fun b z hz => .inr ?_⟩
      rw [post_actors] at hz
      obtain ⟨y, hy, rfl⟩ := Option.map_eq_some_iff.mp hz
      exact ⟨y, hy, .outside _ _ _ _ _ (.inr ⟨child, waiting, rfl, rfl, rfl, rfl, rfl⟩)⟩

end Moves

section Events
variable {toChars : Float → Bytes} {s s' : System} {act : Action} {e : Event}

theorem Step.logs (h : Step toChars s act s') : ∃ e, s'.trace = s.trace ++ [e] := by
  cases h with
  | act | spawn | contextSpawn => exact ⟨_, rfl⟩
  | call | outsideSend | schedule => exact ⟨_, post_trace _ _ _ _⟩

theorem logged_eq {tr tr' : List Event} {e' : Event} (h : tr' = tr ++ [e]) (h' : tr' = tr ++ [e']) :
    e = e' :=
  List.head_eq_of_cons_eq (List.append_cancel_left (h.symm.trans h'))

/-- An event left only by an actor itself comes from a move of that actor. -/
theorem Step.own_move {b : InstanceId} (h : Step toChars s act s')
    (logged : s'.trace = s.trace ++ [e]) (own : e.byItself b = true)
    (other : ∀ c caller link hs, e ≠ .created c caller link hs) :
    ∃ x x', s.actors b = some x ∧ Local toChars b s.now x act e x' := by
  cases h with
  | act self x x' act e' hx move =>
      cases logged_eq rfl logged
      by_cases same : self = b
      · subst same
        exact ⟨x, x', hx, move⟩
      · rw [move.foreign same] at own
        cases own
  | call | outsideSend | schedule =>
      cases logged_eq (post_trace _ _ _ _) logged
      cases own
  | spawn | contextSpawn =>
      cases logged_eq rfl logged
      exact absurd rfl (other _ _ _ _)

/-- A call of queue is made by an actor or outside of all of them. -/
theorem Step.queued_move {cause : Cause} {target : Handle} {mail : Mail} {d : Delivery}
    (h : Step toChars s act s') (logged : s'.trace = s.trace ++ [.queued cause target mail d]) :
    (∃ self x x', s.actors self = some x ∧ Calls s self x act cause target mail d x') ∨
    mail.sender = none ∧ mail.serial = s.now ∧ (cause = .send ∨ cause = .schedule) := by
  cases h with
  | act self x x' act e' hx move =>
      exact absurd (logged_eq rfl logged) (move.not_queued cause target mail d)
  | call self x x' act cause' target' mail' d' hx move =>
      cases logged_eq (post_trace _ _ _ _) logged
      exact .inl ⟨self, x, x', hx, move⟩
  | spawn | contextSpawn => cases logged_eq rfl logged
  | outsideSend =>
      cases logged_eq (post_trace _ _ _ _) logged
      exact .inr ⟨rfl, rfl, .inl rfl⟩
  | schedule =>
      cases logged_eq (post_trace _ _ _ _) logged
      exact .inr ⟨rfl, rfl, .inr rfl⟩

end Events

end Thespian.Runtime
