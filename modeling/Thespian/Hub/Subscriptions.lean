import Thespian.Hub.Calls

/-!
Subscriptions and broadcasts in the order of the mailbox. A filter is pushed and the
message for it sent under one lock, so the queue holds the filters of the filtered
subscriptions in the mailbox, in their order, behind the one the hub is about to pop
and in front of the one whose message is not sent yet. From this every subscriber
gets its own filter, and a broadcast the subscriptions that were posted before it.
-/

namespace Thespian.Hub
open Cbor Transition

variable {α : Type}

/-- The subscription a call makes. -/
def subscription : α × Call → Option (α × Option (Bytes → Bool))
  | (a, .subscribe) => some (a, none)
  | (a, .subscribeFiltered f) => some (a, f)
  | _ => none

def subscriptions (calls : List (α × Call)) : List (α × Option (Bytes → Bool)) :=
  calls.filterMap subscription

def accepts (f : Option (Bytes → Bool)) (msg : Bytes) : Bool :=
  match f with
  | none => true
  | some f => f msg

/-- One copy for each subscriber that has no filter or one that accepts. -/
def copies (subs : List (α × Option (Bytes → Bool))) (msg : Bytes) : List (α × Bytes) :=
  (subs.filter fun sub => accepts sub.2 msg).map fun sub => (sub.1, msg)

/-- What the hub sends for a call when these are the subscriptions before it. -/
def Call.deliveries (subs : List (α × Option (Bytes → Bool))) : Call → List (α × Bytes)
  | .broadcast parms => if parms.vs.isEmpty then [] else copies subs (encode (.array parms.vs))
  | _ => []

/-- The filter that a call has put into the queue. -/
def queued : α × Call → Option Filter
  | (_, .subscribeFiltered f) => some (filterObject f)
  | _ => none

def Stage.queued : Stage → List Filter
  | .pushed f => [filterObject f]
  | _ => []

def Stage.holds : Stage → Bool
  | .locked _ | .pushed _ | .sent => true
  | _ => false

def Phase.holds : Phase α → Bool
  | .locked _ | .popped _ _ | .undefined => true
  | _ => false

/-- The subscribers of the hub for these subscriptions. -/
def objects (subs : List (α × Option (Bytes → Bool))) : List (α × Filter) :=
  subs.map fun sub => (sub.1, filterObject sub.2)

theorem copies_cons (sub : α × Option (Bytes → Bool)) (subs : List (α × Option (Bytes → Bool)))
    (msg : Bytes) : copies (sub :: subs) msg =
      if accepts sub.2 msg then (sub.1, msg) :: copies subs msg else copies subs msg := by
  rw [copies, List.filter_cons]
  split <;> rfl

theorem sendAll_objects (msg : Bytes) (subs : List (α × Option (Bytes → Bool))) :
    sendAll msg (objects subs) = (copies subs msg, none) := by
  induction subs with
  | nil => rfl
  | cons sub subs ih =>
      obtain ⟨a, f⟩ := sub
      have rest : objects ((a, f) :: subs) = (a, filterObject f) :: objects subs := rfl
      rw [rest, copies_cons]
      cases f with
      | none => simp only [filterObject, Option.map, sendAll, ih, accepts, if_true]
      | some f =>
          by_cases accepted : f msg = true <;>
            simp [filterObject, sendAll, ih, accepts, accepted]

theorem broadcast_objects (msg : Bytes) (subs : List (α × Option (Bytes → Bool))) :
    broadcast (objects subs) msg = { sent := copies subs msg, result := .ok } := by
  rw [broadcast, sendAll_objects]

namespace State

def handled (s : State α) : List (α × Call) := s.posted.take s.outbox.length

def unhandled (s : State α) : List (α × Call) := s.posted.drop s.outbox.length

/-- The filter whose message is still to be sent. -/
def ahead (s : State α) : List Filter :=
  match s.holder with
  | some (.actor a) => (s.stage a).queued
  | _ => []

end State

/-- The calls the hub is done with and the filter it pops next. -/
def Progress (s : State α) (settled : List (α × Call)) (popping : List Filter) : Prop :=
  match s.phase with
  | .waiting | .ended _ => settled = s.handled ∧ popping = []
  | .popping a | .locked a =>
      ∃ f, s.handled = settled ++ [(a, .subscribeFiltered f)] ∧ popping = [filterObject f]
  | .popped a g =>
      ∃ f, s.handled = settled ++ [(a, .subscribeFiltered f)] ∧ popping = [] ∧
        g = filterObject f
  | .undefined => False

/-- One party holds the lock. -/
structure Locks (s : State α) : Prop where
  callers : ∀ a, (s.stage a).holds = true → s.holder = some (.actor a)
  hub : s.phase.holds = true → s.holder = some .hub

structure Ordered (s : State α) : Prop where
  bounded : s.outbox.length ≤ s.posted.length
  mailbox : s.phase.isEnded = false →
    s.mailbox = s.unhandled.map fun mail => (mail.1, mail.2.message)
  progress : ∃ settled popping, Progress s settled popping ∧
    s.subscribers = objects (subscriptions settled) ∧
    (s.phase.isEnded = false →
      s.queue = popping ++ (s.unhandled.filterMap queued ++ s.ahead))
  sent : ∀ k a c, k < s.outbox.length → s.posted[k]? = some (a, c) →
    s.outbox[k]? = some (c.deliveries (subscriptions (s.posted.take k)))

section Fields
variable (s : State α) (a : α)

theorem set_self [DecidableEq α] (stage : Stage) : (s.set a stage).stage a = stage := by
  rw [State.set]
  simp only [Function.update_self]

theorem set_other [DecidableEq α] (stage : Stage) {b : α} (h : b ≠ a) :
    (s.set a stage).stage b = s.stage b := by
  rw [State.set]
  simp only [Function.update_of_ne h]

theorem deliver_stage (c : Call) : (s.deliver a c).stage = s.stage := by
  unfold State.deliver
  split <;> rfl

theorem deliver_holder (c : Call) : (s.deliver a c).holder = s.holder := by
  unfold State.deliver
  split <;> rfl

theorem deliver_phase (c : Call) : (s.deliver a c).phase = s.phase := by
  unfold State.deliver
  split <;> rfl

theorem handle_parts (sender : α) (r : Reception α) :
    (s.handle sender r).stage = s.stage ∧ (s.handle sender r).holder = s.holder ∧
    (s.handle sender r).queue = s.queue ∧ (s.handle sender r).posted = s.posted ∧
    (s.handle sender r).outbox = s.outbox ++ [r.sent] := by
  unfold State.handle
  cases r.result <;> exact ⟨rfl, rfl, rfl, rfl, rfl⟩

theorem handle_holds (sender : α) (r : Reception α) (free : s.phase.holds = false) :
    (s.handle sender r).phase.holds = false := by
  unfold State.handle
  cases r.result <;> first | exact free | rfl

end Fields

theorem Locks.deliver {s : State α} (h : Locks s) (a : α) (c : Call) : Locks (s.deliver a c) where
  callers := by
    intro b holds
    rw [deliver_stage] at holds
    rw [deliver_holder]
    exact h.callers b holds
  hub := by
    intro holds
    rw [deliver_phase] at holds
    rw [deliver_holder]
    exact h.hub holds

section Locking
variable [DecidableEq α] {toChars : Float → Bytes} {s s' : State α} {a : α} {stage : Stage}

theorem Locks.set_free (h : Locks s) (free : stage.holds = false) : Locks (s.set a stage) where
  callers := by
    intro b holds
    by_cases same : b = a
    · subst same
      rw [set_self, free] at holds
      cases holds
    · rw [set_other s a stage same] at holds
      exact h.callers b holds
  hub := h.hub

theorem Locks.set_holding (h : Locks s) (holding : (s.stage a).holds = true) :
    Locks (s.set a stage) where
  callers := by
    intro b holds
    by_cases same : b = a
    · subst same
      exact h.callers b holding
    · rw [set_other s a stage same] at holds
      exact h.callers b holds
  hub := h.hub

theorem locks_step {e : Event α} (h : Locks s) (step : Hub.step toChars s e = some s') :
    Locks s' := by
  cases moves_of_step toChars step with
  | call _ => exact h.set_free rfl
  | @link a c _ _ =>
      have set : Locks (s.set a (.linked c)) := h.set_free rfl
      exact ⟨set.callers, set.hub⟩
  | post _ => exact (h.deliver _ _).set_free rfl
  | @lock a f _ free =>
      refine ⟨fun b holds => ?_, fun holds => ?_⟩
      · by_cases same : b = a
        · rw [same]
        · have other := h.callers b ((congrArg Stage.holds (set_other s a _ same)).symm.trans holds)
          rw [free] at other
          cases other
      · have hub := h.hub holds
        rw [free] at hub
        cases hub
  | @push a f locked =>
      have set : Locks (s.set a (.pushed f)) := h.set_holding (by rw [locked]; rfl)
      exact ⟨set.callers, set.hub⟩
  | @send a f pushed =>
      refine (h.deliver a _).set_holding ?_
      rw [deliver_stage, pushed]
      rfl
  | @unlock a sent =>
      have mine := h.callers a (by rw [sent]; rfl)
      refine ⟨fun b holds => ?_, fun holds => ?_⟩
      · by_cases same : b = a
        · subst same
          rw [set_self] at holds
          cases holds
        · have other := h.callers b ((congrArg Stage.holds (set_other s a _ same)).symm.trans holds)
          rw [mine] at other
          cases other
          exact absurd rfl same
      · have hub := h.hub holds
        rw [mine] at hub
        cases hub
  | @take sender msg mailbox waiting mail =>
      have free : s.phase.holds = false := by rw [waiting]; rfl
      obtain ⟨stage, holder, -⟩ := handle_parts { s with mailbox } sender
        (receive toChars s.subscribers msg)
      have still := handle_holds { s with mailbox } sender (receive toChars s.subscribers msg) free
      refine ⟨fun b holds => ?_, fun holds => ?_⟩
      · rw [stage] at holds
        rw [holder]
        exact h.callers b holds
      · rw [still] at holds
        cases holds
  | @hubLock a _ free =>
      refine ⟨fun b holds => ?_, fun _ => rfl⟩
      have other := h.callers b holds
      rw [free] at other
      cases other
  | pop locked _ => exact ⟨h.callers, fun _ => h.hub (by rw [locked]; rfl)⟩
  | popEmpty locked _ => exact ⟨h.callers, fun _ => h.hub (by rw [locked]; rfl)⟩
  | hubUnlock popped =>
      have hub := h.hub (by rw [popped]; rfl)
      refine ⟨fun b holds => ?_, fun holds => by cases holds⟩
      have other := h.callers b holds
      rw [hub] at other
      cases other

end Locking

section Order
variable {s s' : State α}

theorem progress_congr (phase : s'.phase = s.phase) (handled : s'.handled = s.handled)
    (settled : List (α × Call)) (popping : List Filter) :
    Progress s' settled popping ↔ Progress s settled popping := by
  simp only [Progress, phase, handled]

/-- The order does not see the stages, but for the filter that is ahead. -/
theorem Ordered.frame (h : Ordered s) (posted : s'.posted = s.posted)
    (outbox : s'.outbox = s.outbox) (mailbox : s'.mailbox = s.mailbox)
    (phase : s'.phase = s.phase) (subscribers : s'.subscribers = s.subscribers)
    (queue : s.phase.isEnded = false →
      ∃ new, s'.queue = s.queue ++ new ∧ s'.ahead = s.ahead ++ new) : Ordered s' := by
  have handled : s'.handled = s.handled := by rw [State.handled, State.handled, posted, outbox]
  have unhandled : s'.unhandled = s.unhandled := by
    rw [State.unhandled, State.unhandled, posted, outbox]
  obtain ⟨settled, popping, progress, subs, ordered⟩ := h.progress
  refine ⟨?_, ?_, ⟨settled, popping, ?_, ?_, ?_⟩, ?_⟩
  · rw [posted, outbox]
    exact h.bounded
  · rw [phase, mailbox, unhandled]
    exact h.mailbox
  · exact (progress_congr phase handled settled popping).mpr progress
  · rw [subscribers]
    exact subs
  · intro alive
    rw [phase] at alive
    obtain ⟨new, grown, ahead⟩ := queue alive
    rw [grown, ordered alive, unhandled, ahead]
    simp only [List.append_assoc]
  · rw [posted, outbox]
    exact h.sent

theorem ahead_set [DecidableEq α] {a : α} {stage : Stage}
    (same : stage.queued = (s.stage a).queued) : (s.set a stage).ahead = s.ahead := by
  have holder : (s.set a stage).holder = s.holder := rfl
  rw [State.ahead, State.ahead, holder]
  cases s.holder with
  | none => rfl
  | some party =>
      cases party with
      | hub => rfl
      | actor b =>
          by_cases mine : b = a
          · subst mine
            dsimp only
            rw [set_self, same]
          · dsimp only
            rw [set_other s a stage mine]

theorem Ordered.set [DecidableEq α] (h : Ordered s) {a : α} {stage : Stage}
    (same : stage.queued = (s.stage a).queued) : Ordered (s.set a stage) :=
  h.frame rfl rfl rfl rfl rfl fun _ => ⟨[], by simp [State.set], by simp [ahead_set same]⟩

theorem handled_append {posted : List (α × Call)} {n : Nat} (bounded : n ≤ posted.length)
    (new : List (α × Call)) : (posted ++ new).take n = posted.take n ∧
      (posted ++ new).drop n = posted.drop n ++ new :=
  ⟨List.take_append_of_le_length bounded, List.drop_append_of_le_length bounded⟩

/-- A mail that is sent takes the filter that was ahead with it. -/
theorem Ordered.append (h : Ordered s) {a : α} {c : Call} (alive : s.phase.isEnded = false)
    (posted : s'.posted = s.posted ++ [(a, c)])
    (mailbox : s'.mailbox = s.mailbox ++ [(a, c.message)]) (outbox : s'.outbox = s.outbox)
    (phase : s'.phase = s.phase) (subscribers : s'.subscribers = s.subscribers)
    (queue : s'.queue = s.queue) (moved : (queued (a, c)).toList ++ s'.ahead = s.ahead) :
    Ordered s' := by
  obtain ⟨taken, left⟩ := handled_append h.bounded [(a, c)]
  have handled : s'.handled = s.handled := by
    rw [State.handled, State.handled, posted, outbox, taken]
  have unhandled : s'.unhandled = s.unhandled ++ [(a, c)] := by
    rw [State.unhandled, State.unhandled, posted, outbox, left]
  obtain ⟨settled, popping, progress, subs, ordered⟩ := h.progress
  refine ⟨?_, ?_, ⟨settled, popping, ?_, ?_, ?_⟩, ?_⟩
  · have bounded := h.bounded
    rw [posted, outbox, List.length_append]
    omega
  · intro _
    rw [mailbox, unhandled, List.map_append, h.mailbox alive]
    rfl
  · exact (progress_congr phase handled settled popping).mpr progress
  · rw [subscribers]
    exact subs
  · intro _
    have one : [(a, c)].filterMap queued = (queued (a, c)).toList := by
      cases hq : queued (a, c) <;> simp [hq]
    rw [queue, ordered alive, unhandled, List.filterMap_append, one, List.append_assoc, moved]
  · intro k b d small logged
    rw [outbox] at small ⊢
    have early : k < s.posted.length := Nat.lt_of_lt_of_le small h.bounded
    rw [posted, List.getElem?_append_left early] at logged
    rw [posted, List.take_append_of_le_length (Nat.le_of_lt early)]
    exact h.sent k b d small logged

theorem Ordered.deliver [DecidableEq α] (h : Ordered s) {a : α} {c : Call} {stage : Stage}
    (moved : (queued (a, c)).toList ++ (s.set a stage).ahead = s.ahead) :
    Ordered ((s.deliver a c).set a stage) := by
  by_cases ended : s.phase.isEnded = true
  · have nowhere : s.deliver a c = s := if_pos ended
    rw [nowhere]
    exact h.frame rfl rfl rfl rfl rfl fun alive => by rw [ended] at alive; cases alive
  · have alive : s.phase.isEnded = false := by simpa using ended
    have delivered : s.deliver a c =
        { s with mailbox := s.mailbox ++ [(a, c.message)], posted := s.posted ++ [(a, c)] } :=
      if_neg ended
    rw [delivered]
    exact h.append alive rfl rfl rfl rfl rfl rfl moved

/-- How the receiver ends fits the call the message is from. -/
inductive Fits (sender : α) (c : Call) : Result → Prop
  | ok : subscription (sender, c) = none → queued (sender, c) = none → Fits sender c .ok
  | subscribe {f : Option (Bytes → Bool)} : subscription (sender, c) = some (sender, f) →
      queued (sender, c) = none → Fits sender c (.subscribe (filterObject f))
  | pop {f : Option (Bytes → Bool)} : c = .subscribeFiltered f → Fits sender c .pop
  | exit {reason : Bytes} : subscription (sender, c) = none → Fits sender c (.exit reason)
  | throws {e : IterationError} : subscription (sender, c) = none → Fits sender c (.throws e)

theorem fits_unexpected (toChars : Float → Bytes) (sender : α) {c : Call} (msg : Bytes)
    (h : subscription (sender, c) = none) : Fits sender c (unexpected toChars msg) := by
  unfold unexpected
  cases toJson toChars msg with
  | ok json => exact .exit h
  | error e => exact .throws h

theorem receive_fits (toChars : Float → Bytes) (sender : α)
    (subs : List (α × Option (Bytes → Bool))) (c : Call) :
    (receive toChars (objects subs) c.message).sent = c.deliveries subs ∧
      Fits sender c (receive toChars (objects subs) c.message).result := by
  cases c with
  | subscribe =>
      rw [receive_subscribe]
      exact ⟨rfl, .subscribe (f := none) rfl rfl⟩
  | subscribeFiltered f =>
      rw [receive_subscribeFiltered]
      exact ⟨rfl, .pop rfl⟩
  | broadcast parms =>
      by_cases none : parms.vs = []
      · rw [receive_broadcast_empty _ _ parms none, Call.deliveries, none]
        dsimp only
        exact ⟨rfl, fits_unexpected toChars sender _ rfl⟩
      · rw [receive_broadcast _ _ parms none, broadcast_objects, Call.deliveries,
          if_neg (by simpa using none)]
        exact ⟨rfl, .ok rfl rfl⟩
  | listen desc =>
      rw [receive_listen]
      dsimp only
      exact ⟨rfl, fits_unexpected toChars sender _ rfl⟩
  | shutdown =>
      rw [receive_shutdown]
      exact ⟨rfl, .exit rfl⟩

/-- The mail that is taken is from the first call that is not handled. -/
theorem Ordered.next (h : Ordered s) (waiting : s.phase = .waiting) {sender : α} {msg : Bytes}
    {mailbox : List (α × Bytes)} (mail : s.mailbox = (sender, msg) :: mailbox) :
    ∃ c, msg = c.message ∧ s.posted[s.outbox.length]? = some (sender, c) ∧
      s.unhandled = (sender, c) :: s.posted.drop (s.outbox.length + 1) ∧
      mailbox = (s.posted.drop (s.outbox.length + 1)).map fun mail => (mail.1, mail.2.message) := by
  have mails := h.mailbox (by rw [waiting]; rfl)
  rw [mail] at mails
  cases first : s.posted[s.outbox.length]? with
  | none =>
      have none_left : s.unhandled = [] :=
        List.drop_eq_nil_of_le (List.getElem?_eq_none_iff.mp first)
      rw [none_left] at mails
      cases mails
  | some entry =>
      obtain ⟨bound, value⟩ := List.getElem?_eq_some_iff.mp first
      have split : s.unhandled = entry :: s.posted.drop (s.outbox.length + 1) := by
        rw [State.unhandled, List.drop_eq_getElem_cons bound, value]
      obtain ⟨from_, c⟩ := entry
      rw [split, List.map_cons] at mails
      obtain ⟨same, rest⟩ := List.cons.inj mails
      obtain ⟨rfl, rfl⟩ := Prod.mk.inj same
      exact ⟨c, rfl, rfl, split, rest⟩

/-- A mail that is taken moves its call to those that are handled. -/
theorem Ordered.taken (h : Ordered s) (settled : List (α × Call)) (popping : List Filter)
    {sender : α} {c : Call}
    (logged : s.posted[s.outbox.length]? = some (sender, c))
    (posted : s'.posted = s.posted)
    (outbox : s'.outbox = s.outbox ++ [c.deliveries (subscriptions s.handled)])
    (mailbox : s'.phase.isEnded = false → s'.mailbox =
      (s.posted.drop (s.outbox.length + 1)).map fun mail => (mail.1, mail.2.message))
    (progress : s'.handled = s.handled ++ [(sender, c)] → Progress s' settled popping)
    (subscribers : s'.subscribers = objects (subscriptions settled))
    (queue : s'.phase.isEnded = false → s'.queue =
      popping ++ ((s.posted.drop (s.outbox.length + 1)).filterMap queued ++ s'.ahead)) :
    Ordered s' := by
  obtain ⟨bound, value⟩ := List.getElem?_eq_some_iff.mp logged
  have length : s'.outbox.length = s.outbox.length + 1 := by rw [outbox, List.length_append]; rfl
  have handled : s'.handled = s.handled ++ [(sender, c)] := by
    rw [State.handled, posted, length, List.take_succ_eq_append_getElem bound, value]
    rfl
  have unhandled : s'.unhandled = s.posted.drop (s.outbox.length + 1) := by
    rw [State.unhandled, posted, length]
  refine ⟨?_, ?_, ⟨settled, popping, progress handled, subscribers, ?_⟩, ?_⟩
  · rw [posted, length]
    exact bound
  · rw [unhandled]
    exact mailbox
  · rw [unhandled]
    exact queue
  · intro k a d small entry
    rw [length] at small
    rw [posted] at entry ⊢
    rw [outbox]
    rcases Nat.lt_or_eq_of_le (Nat.le_of_lt_succ small) with old | rfl
    · exact log_old (h.sent k a d old entry) _
    · rw [logged] at entry
      cases entry
      exact log_last _ _

theorem subscriptions_append (calls : List (α × Call)) (sender : α) (c : Call) :
    subscriptions (calls ++ [(sender, c)]) =
      subscriptions calls ++ (subscription (sender, c)).toList := by
  rw [subscriptions, List.filterMap_append]
  cases h : subscription (sender, c) <;> simp [h, subscriptions]

theorem Ordered.take (h : Ordered s) (waiting : s.phase = .waiting) {sender : α} {msg : Bytes}
    {mailbox : List (α × Bytes)} (mail : s.mailbox = (sender, msg) :: mailbox)
    (toChars : Float → Bytes) :
    Ordered ({ s with mailbox }.handle sender (receive toChars s.subscribers msg)) := by
  obtain ⟨c, rfl, logged, unhandled, rest⟩ := h.next waiting mail
  obtain ⟨settled, popping, progress, subs, ordered⟩ := h.progress
  have alive : s.phase.isEnded = false := by rw [waiting]; rfl
  have idle : settled = s.handled ∧ popping = [] := by simpa only [Progress, waiting] using progress
  obtain ⟨rfl, rfl⟩ := idle
  have queue := ordered alive
  rw [unhandled, List.nil_append] at queue
  have fits := receive_fits toChars sender (subscriptions s.handled) c
  rw [← subs] at fits
  obtain ⟨sent, fits⟩ := fits
  generalize receive toChars s.subscribers c.message = r at sent fits
  obtain ⟨sent, listened, result⟩ := r
  dsimp only at sent fits
  subst sent
  have added := subscriptions_append s.handled sender c
  cases fits with
  | ok unsubscribed unqueued =>
      rw [List.filterMap_cons_none unqueued] at queue
      rw [unsubscribed, Option.toList_none, List.append_nil] at added
      refine h.taken (s.handled ++ [(sender, c)]) [] logged rfl rfl (fun _ => rest)
        (fun handled => ?_) ?_ fun _ => queue
      · simp only [Progress, State.handle, waiting]
        exact ⟨handled.symm, trivial⟩
      · rw [added]
        exact subs
  | @subscribe f subscribed unqueued =>
      rw [List.filterMap_cons_none unqueued] at queue
      rw [subscribed] at added
      refine h.taken (s.handled ++ [(sender, c)]) [] logged rfl rfl (fun _ => rest)
        (fun handled => ?_) ?_ fun _ => queue
      · simp only [Progress, State.handle, waiting]
        exact ⟨handled.symm, trivial⟩
      · rw [added, objects, List.map_append, ← objects, ← subs]
        rfl
  | @pop f filtered =>
      subst filtered
      have waits : queued (sender, Call.subscribeFiltered f) = some (filterObject f) := rfl
      rw [List.filterMap_cons_some waits] at queue
      exact h.taken s.handled [filterObject f] logged rfl rfl (fun _ => rest)
        (fun handled => ⟨f, handled, rfl⟩) subs fun _ => queue
  | exit unsubscribed =>
      rw [unsubscribed, Option.toList_none, List.append_nil] at added
      refine h.taken (s.handled ++ [(sender, c)]) [] logged rfl rfl
        (fun ended => by cases ended) (fun handled => ?_) ?_ fun ended => by cases ended
      · exact ⟨handled.symm, rfl⟩
      · rw [added]
        exact subs
  | throws unsubscribed =>
      rw [unsubscribed, Option.toList_none, List.append_nil] at added
      refine h.taken (s.handled ++ [(sender, c)]) [] logged rfl rfl
        (fun ended => by cases ended) (fun handled => ?_) ?_ fun ended => by cases ended
      · exact ⟨handled.symm, rfl⟩
      · rw [added]
        exact subs

theorem ahead_actor {a : α} (holder : s.holder = some (.actor a)) :
    s.ahead = (s.stage a).queued := by
  rw [State.ahead, holder]

theorem ahead_free (holder : s.holder = none) : s.ahead = [] := by
  rw [State.ahead, holder]

theorem ahead_hub (holder : s.holder = some .hub) : s.ahead = [] := by
  rw [State.ahead, holder]

theorem Ordered.hubLock (h : Ordered s) {a : α} (popping : s.phase = .popping a)
    (free : s.holder = none) : Ordered { s with phase := .locked a, holder := some .hub } := by
  have alive : s.phase.isEnded = false := by rw [popping]; rfl
  obtain ⟨settled, filters, progress, subs, ordered⟩ := h.progress
  refine ⟨h.bounded, fun _ => h.mailbox alive, ⟨settled, filters, ?_, subs, fun _ => ?_⟩, h.sent⟩
  · simp only [Progress, popping] at progress
    exact progress
  · have queue := ordered alive
    rw [ahead_free free] at queue
    rw [ahead_hub rfl]
    exact queue

/-- The queue is not empty at a pop, and its front is the sender's filter. -/
theorem Ordered.front (h : Ordered s) {a : α} (locked : s.phase = .locked a) :
    ∃ settled f queue, s.handled = settled ++ [(a, .subscribeFiltered f)] ∧
      s.queue = filterObject f :: queue ∧ s.subscribers = objects (subscriptions settled) ∧
      queue = s.unhandled.filterMap queued ++ s.ahead := by
  obtain ⟨settled, filters, progress, subs, ordered⟩ := h.progress
  simp only [Progress, locked] at progress
  obtain ⟨f, handled, rfl⟩ := progress
  exact ⟨settled, f, _, handled, ordered (by rw [locked]; rfl), subs, rfl⟩

theorem Ordered.pop (h : Ordered s) {a : α} {f : Filter} {queue : List Filter}
    (locked : s.phase = .locked a) (front : s.queue = f :: queue) :
    Ordered { s with phase := .popped a f, queue } := by
  have alive : s.phase.isEnded = false := by rw [locked]; rfl
  obtain ⟨settled, g, rest, handled, order, subs, behind⟩ := h.front locked
  rw [front] at order
  obtain ⟨rfl, rfl⟩ := List.cons.inj order
  exact ⟨h.bounded, fun _ => h.mailbox alive,
    ⟨settled, [], ⟨g, handled, rfl, rfl⟩, subs, fun _ => behind⟩, h.sent⟩

theorem Ordered.hubUnlock (h : Ordered s) {a : α} {f : Filter} (popped : s.phase = .popped a f)
    (hub : s.holder = some .hub) :
    Ordered { s with
      phase := .waiting, holder := none, subscribers := s.subscribers ++ [(a, f)] } := by
  have alive : s.phase.isEnded = false := by rw [popped]; rfl
  obtain ⟨settled, filters, progress, subs, ordered⟩ := h.progress
  simp only [Progress, popped] at progress
  obtain ⟨g, handled, rfl, rfl⟩ := progress
  refine ⟨h.bounded, fun _ => h.mailbox alive,
    ⟨s.handled, [], ⟨rfl, rfl⟩, ?_, fun _ => ?_⟩, h.sent⟩
  · rw [handled, subscriptions_append, objects, List.map_append, ← objects, ← subs]
    rfl
  · have queue := ordered alive
    rw [ahead_hub hub] at queue
    rw [ahead_free rfl]
    exact queue

theorem next_cases {stage : Stage} {c : Call} (h : stage.next = some c) :
    stage.queued = [] ∧ ∀ a : α, queued (a, c) = none := by
  unfold Stage.next at h
  split at h <;> cases h <;> exact ⟨rfl, fun _ => rfl⟩

theorem ordered_step [DecidableEq α] {toChars : Float → Bytes} {e : Event α} (locks : Locks s)
    (h : Ordered s) (step : Hub.step toChars s e = some s') : Ordered s' := by
  cases moves_of_step toChars step with
  | call idle => exact h.set (by rw [idle]; rfl)
  | @link a c called _ =>
      have set : Ordered (s.set a (.linked c)) := h.set (by rw [called]; rfl)
      exact set.frame rfl rfl rfl rfl rfl fun _ => ⟨[], by simp, by simp [State.ahead]⟩
  | @post a c next =>
      obtain ⟨unqueued, plain⟩ := next_cases (α := α) next
      refine h.deliver ?_
      rw [plain a, ahead_set (by rw [unqueued]; rfl)]
      rfl
  | @lock a f linked free =>
      refine h.frame rfl rfl rfl rfl rfl fun _ => ⟨[], by simp [State.set], ?_⟩
      rw [ahead_actor rfl, ahead_free free]
      exact congrArg Stage.queued (set_self s a (.locked f))
  | @push a f locked =>
      have holder := locks.callers a (by rw [locked]; rfl)
      have before : s.ahead = [] := by
        rw [ahead_actor holder, locked]
        rfl
      refine h.frame rfl rfl rfl rfl rfl fun _ => ⟨[filterObject f], rfl, ?_⟩
      rw [before]
      exact Eq.trans (ahead_actor holder) (congrArg Stage.queued (set_self s a (.pushed f)))
  | @send a f pushed =>
      have holder := locks.callers a (by rw [pushed]; rfl)
      have after : (s.set a .sent).holder = some (.actor a) := holder
      refine h.deliver ?_
      rw [ahead_actor after, ahead_actor holder, pushed, set_self]
      rfl
  | @unlock a sent =>
      have holder := locks.callers a (by rw [sent]; rfl)
      refine h.frame rfl rfl rfl rfl rfl fun _ => ⟨[], by simp [State.set], ?_⟩
      rw [ahead_free rfl, ahead_actor holder, sent]
      rfl
  | take waiting mail => exact h.take waiting mail toChars
  | hubLock popping free => exact h.hubLock popping free
  | pop locked front => exact h.pop locked front
  | popEmpty locked empty =>
      obtain ⟨_, _, _, -, front, -⟩ := h.front locked
      rw [empty] at front
      cases front
  | hubUnlock popped => exact h.hubUnlock popped (locks.hub (by rw [popped]; rfl))

end Order

section Runs

theorem locks_created : Locks (created : State α) where
  callers := fun _ holds => by cases holds
  hub := fun holds => by cases holds

theorem ordered_created : Ordered (created : State α) where
  bounded := Nat.le_refl _
  mailbox := fun _ => rfl
  progress := ⟨[], [], ⟨rfl, rfl⟩, rfl, fun _ => rfl⟩
  sent := fun _ _ _ small => absurd small (Nat.not_lt_zero _)

theorem last_handled {s : State α} (h : Ordered s) {settled : List (α × Call)} {x : α × Call}
    (handled : s.handled = settled ++ [x]) : s.posted[s.outbox.length - 1]? = some x := by
  have length : s.outbox.length = settled.length + 1 := by
    have both := congrArg List.length handled
    rw [State.handled, List.length_take, Nat.min_eq_left h.bounded, List.length_append] at both
    exact both
  have entry : (s.posted.take s.outbox.length)[settled.length]? = some x := by
    rw [← State.handled, handled]
    exact log_last settled x
  rw [length] at entry ⊢
  rwa [List.getElem?_take_of_lt (Nat.lt_succ_self _)] at entry

variable [DecidableEq α] (toChars : Float → Bytes)

theorem ordered_run {events : List (Event α)} {s : State α}
    (h : run (step toChars) created events = some s) : Locks s ∧ Ordered s := by
  have keeps : Keeps (step toChars) (fun _ _ => True) fun s : State α => Locks s ∧ Ordered s :=
    fun s e s' inv _ step => ⟨locks_step inv.1 step, ordered_step inv.1 inv.2 step⟩
  exact keeps.run ⟨locks_created, ordered_created⟩ (along_true events) h

/-- In every run a filtered subscription pops the filter that was pushed for its
message, and each call that is handled sends what the subscriptions handled before it
accept, one copy each, in their order: its arguments as an array if it is a broadcast,
and otherwise nothing. -/
theorem hub_consistent {events : List (Event α)} {s : State α}
    (h : run (step toChars) created events = some s) :
    s.phase ≠ .undefined ∧
    (∀ a, s.phase = .locked a → ∃ f queue,
      s.posted[s.outbox.length - 1]? = some (a, .subscribeFiltered f) ∧
      s.queue = filterObject f :: queue) ∧
    (∀ a f, s.phase = .popped a f → ∃ g,
      s.posted[s.outbox.length - 1]? = some (a, .subscribeFiltered g) ∧ f = filterObject g) ∧
    (s.phase = .waiting →
      s.subscribers = objects (subscriptions (s.posted.take s.outbox.length))) ∧
    (∀ (k : Nat) a parms, k < s.outbox.length → s.posted[k]? = some (a, .broadcast parms) →
      parms.vs ≠ [] → s.outbox[k]? =
        some (copies (subscriptions (s.posted.take k)) (encode (.array parms.vs)))) ∧
    ∀ (k : Nat) a c, k < s.outbox.length → s.posted[k]? = some (a, c) →
      (∀ parms, c ≠ .broadcast parms) → s.outbox[k]? = some [] := by
  obtain ⟨-, ordered⟩ := ordered_run toChars h
  obtain ⟨settled, popping, progress, subs, -⟩ := ordered.progress
  refine ⟨fun undefined => ?_, fun a locked => ?_, fun a f popped => ?_, fun waiting => ?_,
    fun k a parms small logged args => ?_, fun k a c small logged other => ?_⟩
  · simp only [Progress, undefined] at progress
  · obtain ⟨_, f, queue, handled, front, -⟩ := ordered.front locked
    exact ⟨f, queue, last_handled ordered handled, front⟩
  · simp only [Progress, popped] at progress
    obtain ⟨g, handled, -, same⟩ := progress
    exact ⟨g, last_handled ordered handled, same⟩
  · simp only [Progress, waiting] at progress
    rw [subs, progress.1]
    rfl
  · rw [ordered.sent k a _ small logged, Call.deliveries, if_neg (by simpa using args)]
  · rw [ordered.sent k a c small logged]
    cases c with
    | broadcast parms => exact absurd rfl (other parms)
    | subscribe | subscribeFiltered _ | listen _ | shutdown => rfl

end Runs

/-- Two actors subscribe with a filter while a third one broadcasts. The second one
waits for the lock, the hub for the release of it. -/
def interleaved : List (Event (Fin 3)) :=
  [.call 0 (.subscribeFiltered (some fun msg => msg = encode (.array [.int 1]))),
    .call 1 (.subscribeFiltered (some fun _ => false)), .link 1, .link 0, .lock 0, .push 0,
    .call 2 (.broadcast ⟨[.int 1], by simp [Value.Sized, SizedItems]⟩), .send 0, .post 2, .take, .unlock 0, .lock 1,
    .push 1, .send 1, .unlock 1, .hubLock, .pop, .hubUnlock, .take, .take, .hubLock]

theorem interleaved_runs : (run (step fun _ => []) created interleaved).map State.outbox =
    some [[], [(0, [129, 1])], []] := by
  decide +kernel

theorem hub_consistent_interleaved : ∃ s : State (Fin 3),
    run (step fun _ => []) created interleaved = some s ∧ s.outbox = [[], [(0, [129, 1])], []] ∧
      s.phase ≠ .undefined := by
  obtain ⟨s, h, outbox⟩ := Option.map_eq_some_iff.mp interleaved_runs
  exact ⟨s, h, outbox, (hub_consistent (fun _ => []) h).1⟩

end Thespian.Hub
