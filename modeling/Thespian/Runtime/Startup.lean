import Thespian.Runtime.Supervision
import Thespian.Runtime.Forwarded

/-!
How a spawned actor starts. The constructor installs a stub that runs the
behaviour on whatever message it is given, and spawn queues null to set it off.
The id is published before that, so a message can be first. As long as nobody
sends an instance anything but link messages before its kick-off is queued, the
stub is given the kick-off and nothing else is.
-/

namespace Thespian.Runtime
open Cbor Actor Transition

/-- Spawn has called queue for the kick-off of the given instance. -/
def Event.kicks (c : InstanceId) : Event → Bool
  | .queued .schedule target _ _ => target = some c
  | _ => false

def scheduled (tr : List Event) (c : InstanceId) : Bool := tr.any (Event.kicks c)

/-- The mail is the kick-off of the instance. -/
def Kick (tr : List Event) (c : InstanceId) (mail : Mail) : Prop :=
  ∃ t : Nat, tr[t]? = some (.queued .schedule (some c) mail .posted)

/-- A message that is not the link message is sent only to instances whose
kick-off has been queued. -/
def orderly (s : System) : Action → Bool
  | .send _ (some c) m | .outsideSend (some c) m => isLinkMsg m || scheduled s.trace c
  | .advance a =>
      match s.actors a with
      | none => true
      | some x =>
          match x.control with
          | .notifying _ _ m (⟨some c, _, _⟩ :: _) => isLinkMsg m || scheduled s.trace c
          | _ => true
  | _ => true

section Kicks
variable {toChars : Float → Bytes} {s s' : System} {act : Action} {e : Event} {tr : List Event}
  {c : InstanceId} {mail : Mail}

theorem scheduled_add : scheduled (tr ++ [e]) c = (scheduled tr c || e.kicks c) := by
  simp [scheduled]

theorem scheduled_of_logged {t : Nat} {d : Delivery}
    (h : tr[t]? = some (.queued .schedule (some c) mail d)) : scheduled tr c = true :=
  List.any_eq_true.mpr ⟨_, List.mem_of_getElem? h, by simp [Event.kicks]⟩

theorem Kick.scheduled (h : Kick tr c mail) : Runtime.scheduled tr c = true := by
  obtain ⟨t, logged⟩ := h
  exact scheduled_of_logged logged

theorem Kick.add (h : Kick tr c mail) (e : Event) : Kick (tr ++ [e]) c mail := by
  obtain ⟨t, logged⟩ := h
  exact ⟨t, log_old logged [e]⟩

theorem Kick.old (h : Kick (tr ++ [e]) c mail) (other : e.kicks c = false) : Kick tr c mail := by
  obtain ⟨t, logged⟩ := h
  rcases log_add_iff.mp logged with old | ⟨-, rfl⟩
  · exact ⟨t, old⟩
  · simp [Event.kicks] at other

/-- A mail that is queued now is not a kick-off queued before. -/
theorem Kick.serial (h : Kick tr c mail) (stamped : Stamped tr) : mail.serial < tr.length := by
  obtain ⟨t, logged⟩ := h
  rw [stamped t _ _ _ _ logged]
  exact log_bound logged

/-- Spawn has still to queue the kick-off. -/
def SpawnStage.unscheduled : SpawnStage → Bool
  | .created | .linked _ => true
  | .scheduled _ => false

/-- Spawn queues the kick-off once. -/
structure KickedOnce (s : System) : Prop where
  calling : ∀ a x child link stage, s.actors a = some x → x.call = .spawn child link stage →
    stage.unscheduled = true → scheduled s.trace child = false
  outside : ∀ child ∈ s.outside, scheduled s.trace child = false
  nodup : s.outside.Nodup

theorem scheduled_new (consistent : Consistent s) : scheduled s.trace s.nextInstanceId = false := by
  rw [scheduled, List.any_eq_false]
  intro e he kicked
  obtain ⟨t, logged⟩ := List.mem_iff_getElem?.mp he
  unfold Event.kicks at kicked
  split at kicked
  · rename_i target mail d
    obtain rfl : target = some s.nextInstanceId := by simpa using kicked
    exact absurd (.inl rfl) (consistent.mentioned.unlogged consistent.numbered logged)
  · cases kicked

/-- Only spawn sends a kick-off, and only while it has not done so. -/
theorem KickedOnce.unscheduled (inv : KickedOnce s) (h : Step toChars s act s')
    (trace : s'.trace = s.trace ++ [e]) (kicks : e.kicks c = true) :
    scheduled s.trace c = false := by
  unfold Event.kicks at kicks
  split at kicks
  · rename_i target mail d
    obtain rfl : target = some c := by simpa using kicks
    cases h with
    | act self x x' act e' hx move => exact absurd (logged_eq rfl trace) (move.not_queued _ _ _ _)
    | call self x x' act cause target mail' d' hx move =>
        have same := logged_eq (post_trace _ _ _ _) trace
        cases move with
        | schedule child link request call =>
            cases same
            exact inv.calling self x c link _ hx call rfl
        | send | link | spawnLink | notice => cases same
    | spawn | contextSpawn => cases logged_eq rfl trace
    | outsideSend => cases logged_eq (post_trace _ _ _ _) trace
    | schedule child waiting =>
        cases logged_eq (post_trace _ _ _ _) trace
        exact inv.outside c waiting
  · cases kicks

/-- A call of spawn that has still to queue the kick-off had so before the step,
and has not queued it in the step; or it has just begun. -/
theorem Moves.call_unscheduled {b : InstanceId} {x x' : Actor} {link : Bool} {stage : SpawnStage}
    (move : Moves toChars s b x act e x') (call : x'.call = .spawn c link stage)
    (open_ : stage.unscheduled = true) :
    (∃ stage', x.call = .spawn c link stage' ∧ stage'.unscheduled = true) ∨
      c = s.nextInstanceId ∧ e.kicks c = false := by
  rcases move.call_cases with same | none | ⟨child, link', before, -, now⟩ |
    ⟨child, d, before, now, -⟩ | ⟨child, link', request, before, now⟩ | ⟨link', now, rfl⟩
  · exact .inl ⟨stage, same.symm.trans call, open_⟩
  · rw [none] at call
    cases call
  · rw [now] at call
    cases call
    exact .inl ⟨_, before, rfl⟩
  · rw [now] at call
    cases call
    exact .inl ⟨_, before, rfl⟩
  · rw [now] at call
    cases call
    cases open_
  · rw [now] at call
    cases call
    exact .inr ⟨rfl, rfl⟩

/-- Who queues a kick-off: the caller of spawn, or the context. -/
theorem Step.kicks_origin (h : Step toChars s act s') (trace : s'.trace = s.trace ++ [e])
    (kicks : e.kicks c = true) :
    (∃ a x x' link request, s.actors a = some x ∧ x.call = .spawn c link (.linked request) ∧
      s'.actors a = some x' ∧ ∀ link' stage, x'.call = .spawn c link' stage →
        stage.unscheduled = false) ∧ s'.outside = s.outside ∨
    c ∈ s.outside ∧ s'.outside = s.outside.erase c := by
  unfold Event.kicks at kicks
  split at kicks
  case h_2 => cases kicks
  case h_1 target mail d =>
    obtain rfl : target = some c := by simpa using kicks
    cases h with
    | act self x x' act e' hx move => exact absurd (logged_eq rfl trace) (move.not_queued _ _ _ _)
    | call self x x' act cause target mail' d' hx move =>
        have same := logged_eq (post_trace _ _ _ _) trace
        cases move with
        | send | link | spawnLink | notice => cases same
        | schedule child link request call =>
            cases same
            let d := s.queue (some self) none c nullValue
            let y : Actor :=
              { x with call := if d.isOk then .spawn c link (.scheduled request) else .none }
            let mail : Mail := ⟨none, nullValue, s.now⟩
            have made : ((s.set self y).post .schedule (some c) mail d).actors self =
                some (y.receives self (some c) mail d) := by
              rw [post_actors, set_self]
              rfl
            refine .inl ⟨⟨self, x, _, link, request, hx, call, made, ?_⟩, post_outside _ _ _ _⟩
            intro link' stage now
            rw [receives_call] at now
            have closed : (if d.isOk then Call.spawn c link (.scheduled request) else .none) =
                .spawn c link' stage := now
            split at closed
            · cases closed
              rfl
            · cases closed
    | spawn | contextSpawn => cases logged_eq rfl trace
    | outsideSend => cases logged_eq (post_trace _ _ _ _) trace
    | schedule child waiting =>
        cases logged_eq (post_trace _ _ _ _) trace
        exact .inr ⟨waiting, post_outside _ _ _ _⟩

/-- The instances the context has still to schedule. -/
theorem Step.outside_cases (h : Step toChars s act s') :
    s'.outside.Sublist s.outside ∨ s'.outside = s.nextInstanceId :: s.outside := by
  cases h with
  | act | spawn => exact .inl (List.Sublist.refl _)
  | call | outsideSend =>
      rw [post_outside]
      exact .inl (List.Sublist.refl _)
  | contextSpawn name handler => exact .inr rfl
  | schedule child waiting =>
      rw [post_outside]
      exact .inl (List.erase_sublist ..)

theorem kickedOnce_step (inv : KickedOnce s) (supervised : Supervised s)
    (h : Step toChars s act s') : KickedOnce s' := by
  have consistent := supervised.accounted.consistent
  obtain ⟨e, trace, actors⟩ := h.moves consistent.numbered
  have parents := supervised.parents
  have once := supervised.once
  constructor
  · intro a x' child link stage hx' call open_
    rw [trace, scheduled_add]
    rcases actors a x' hx' with ⟨-, caller, link', name, handlers, -, rfl, -⟩ | ⟨x, hx, move⟩
    · cases call
    · rcases move.call_unscheduled call open_ with ⟨stage', before, unscheduled⟩ | ⟨rfl, other⟩
      · have earlier := inv.calling a x child link stage' hx before unscheduled
        cases kicks : e.kicks child with
        | false => simp [earlier]
        | true =>
            -- the caller of spawn is unique, and is past the kick-off
            rcases h.kicks_origin trace kicks with
              ⟨⟨b, y, y', link', request, hy, caller, hy', past⟩, -⟩ | ⟨waiting, -⟩
            · obtain rfl := caller_unique once (parents a x hx) (parents b y hy) before caller
              cases hx'.symm.trans hy'
              rw [past link stage call] at open_
              cases open_
            · exact absurd waiting (caller_not_outside once (parents a x hx) before)
      · simp [scheduled_new consistent, other]
  · intro child member
    rw [trace, scheduled_add]
    have old (waiting : child ∈ s.outside) (other : e.kicks child = false) :
        (scheduled s.trace child || e.kicks child) = false := by
      rw [inv.outside child waiting, other]
      rfl
    cases kicks : e.kicks child with
    | true =>
        rcases h.kicks_origin trace kicks with
          ⟨⟨b, y, y', link, request, hy, caller, -, -⟩, same⟩ | ⟨-, erased⟩
        · rw [same] at member
          exact absurd member (caller_not_outside once (parents b y hy) caller)
        · rw [erased] at member
          exact absurd member inv.nodup.not_mem_erase
    | false =>
        rcases h.outside_cases with kept | new
        · exact kicks ▸ old (kept.mem member) kicks
        · rw [new] at member
          rcases List.mem_cons.mp member with rfl | waiting
          · rw [scheduled_new consistent]
            rfl
          · exact kicks ▸ old waiting kicks
  · rcases h.outside_cases with kept | new
    · exact inv.nodup.sublist kept
    · rw [new]
      refine List.nodup_cons.mpr ⟨fun member => ?_, inv.nodup⟩
      obtain ⟨i, hs, created⟩ := once.outside _ member
      exact consistent.mentioned.unlogged consistent.numbered created (.inl rfl)

end Kicks

section Phases
variable {toChars : Float → Bytes} {s s' : System} {act : Action} {e : Event} {tr : List Event}
  {c : InstanceId} {x x' : Actor} {mail kick : Mail} {n : Nat}

/-- As the constructor leaves it, but for mail and links. -/
structure Asleep (x : Actor) : Prop where
  receiver : x.receiver = some .behaviour
  exitedReceiver : x.exitedReceiver = none
  alive : x.inShutdown = false
  unobserved : x.observeLinks = false
  ownsIo : x.ownsIo = false
  call : x.call = .none

/-- Only link messages have been run, and only those are before the kick-off. -/
structure Waiting (tr : List Event) (c : InstanceId) (x : Actor) : Prop where
  asleep : Asleep x
  control : x.control = .idle ∨ ∃ mail, x.control = .running mail ∧ isLinkMsg mail.body = true
  mailbox : (scheduled tr c = false ∧ ∀ m ∈ x.mailbox, isLinkMsg m.body = true) ∨
    ∃ links kick rest, x.mailbox = links ++ kick :: rest ∧
      (∀ m ∈ links, isLinkMsg m.body = true) ∧ Kick tr c kick ∧ kick.body = nullValue ∧
      ∀ m ∈ rest, ¬ Kick tr c m
  ran : ∀ (k : Nat) m, tr[k]? = some (.ran c m) → isLinkMsg m.body = true
  unreceived : ∀ (k : Nat) m, tr[k]? ≠ some (.received c m)

/-- Run has been given the kick-off. -/
structure Starting (tr : List Event) (c : InstanceId) (x : Actor) (kick : Mail) : Prop where
  asleep : Asleep x
  control : x.control = .running kick ∨ x.control = .checking kick
  kicked : Kick tr c kick
  null : kick.body = nullValue
  mailbox : ∀ m ∈ x.mailbox, ¬ Kick tr c m
  ran : ∀ (k : Nat) m, tr[k]? = some (.ran c m) → isLinkMsg m.body = true ∨ m = kick
  unreceived : ∀ (k : Nat) m, tr[k]? ≠ some (.received c m)

/-- The stub was called with the kick-off at the given time and is gone. -/
structure Started (tr : List Event) (c : InstanceId) (x : Actor) (kick : Mail) (n : Nat) :
    Prop where
  kicked : Kick tr c kick
  received : tr[n]? = some (.received c kick)
  receiver : x.receiver ≠ some .behaviour
  exitedReceiver : x.exitedReceiver ≠ some .behaviour
  mailbox : ∀ m ∈ x.mailbox, ¬ Kick tr c m
  held : ∀ m, x.holds m → ¬ Kick tr c m
  ran : ∀ (k : Nat) m, tr[k]? = some (.ran c m) → isLinkMsg m.body = true ∨ m = kick ∨ n < k
  alone : ∀ (k : Nat) m, tr[k]? = some (.received c m) → k = n ∨ n < k ∧ ¬ Kick tr c m

inductive Phase (tr : List Event) (c : InstanceId) (x : Actor) : Prop
  | waiting (h : Waiting tr c x)
  | starting (kick : Mail) (h : Starting tr c x kick)
  | started (kick : Mail) (n : Nat) (h : Started tr c x kick n)

/-- The event says nothing of the strand of the instance and is no kick-off. -/
structure Unheard (c : InstanceId) (e : Event) : Prop where
  ran : ∀ m, e ≠ .ran c m
  received : ∀ m, e ≠ .received c m
  kicks : e.kicks c = false

theorem unheard_of_foreign (foreign : e.byItself c = false)
    (unposted : ∀ cause target mail d, e ≠ .queued cause target mail d) : Unheard c e where
  ran := by
    rintro m rfl
    simp [Event.byItself] at foreign
  received := by
    rintro m rfl
    simp [Event.byItself] at foreign
  kicks := by
    unfold Event.kicks
    split
    · exact absurd rfl (unposted _ _ _ _)
    · rfl

theorem Unheard.not_kick (h : Unheard c e) (old : ¬ Kick tr c mail) : ¬ Kick (tr ++ [e]) c mail :=
  fun kick => old (kick.old h.kicks)

theorem Unheard.ran_old (h : Unheard c e) {k : Nat} (logged : (tr ++ [e])[k]? = some (.ran c mail)) :
    tr[k]? = some (.ran c mail) := by
  rcases log_add_iff.mp logged with old | ⟨-, new⟩
  · exact old
  · exact absurd new (h.ran mail)

theorem Unheard.received_old (h : Unheard c e) {k : Nat}
    (logged : (tr ++ [e])[k]? = some (.received c mail)) : tr[k]? = some (.received c mail) := by
  rcases log_add_iff.mp logged with old | ⟨-, new⟩
  · exact old
  · exact absurd new (h.received mail)

theorem Waiting.keep (h : Waiting tr c x) (unheard : Unheard c e) (asleep : Asleep x')
    (control : x'.control = .idle ∨ ∃ mail, x'.control = .running mail ∧ isLinkMsg mail.body = true)
    (mailbox : x'.mailbox = x.mailbox) : Waiting (tr ++ [e]) c x' where
  asleep := asleep
  control := control
  mailbox := by
    rw [mailbox, scheduled_add, unheard.kicks, Bool.or_false]
    rcases h.mailbox with early | ⟨links, kick, rest, eq, before, isKick, null, after⟩
    · exact .inl early
    · exact .inr ⟨links, kick, rest, eq, before, isKick.add e, null,
        fun m hm => unheard.not_kick (after m hm)⟩
  ran := fun k m logged => h.ran k m (unheard.ran_old logged)
  unreceived := fun k m logged => h.unreceived k m (unheard.received_old logged)

theorem Starting.keep (h : Starting tr c x kick) (unheard : Unheard c e) (asleep : Asleep x')
    (control : x'.control = .running kick ∨ x'.control = .checking kick)
    (mailbox : ∀ m ∈ x'.mailbox, ¬ Kick tr c m) : Starting (tr ++ [e]) c x' kick where
  asleep := asleep
  control := control
  kicked := h.kicked.add e
  null := h.null
  mailbox := fun m hm => unheard.not_kick (mailbox m hm)
  ran := fun k m logged => h.ran k m (unheard.ran_old logged)
  unreceived := fun k m logged => h.unreceived k m (unheard.received_old logged)

/-- What the started actor runs and receives from now on is not the kick-off. -/
theorem Started.keep (h : Started tr c x kick n) (other : e.kicks c = false)
    (receiver : x'.receiver ≠ some .behaviour) (exited : x'.exitedReceiver ≠ some .behaviour)
    (mailbox : ∀ m ∈ x'.mailbox, ¬ Kick tr c m) (held : ∀ m, x'.holds m → ¬ Kick tr c m)
    (received : ∀ m, e = .received c m → ¬ Kick tr c m) : Started (tr ++ [e]) c x' kick n where
  kicked := h.kicked.add e
  received := log_old h.received [e]
  receiver := receiver
  exitedReceiver := exited
  mailbox := fun m hm now => mailbox m hm (now.old other)
  held := fun m hm now => held m hm (now.old other)
  ran := fun k m logged => by
    rcases log_add_iff.mp logged with old | ⟨rfl, -⟩
    · exact h.ran k m old
    · exact .inr (.inr (log_bound h.received))
  alone := fun k m logged => by
    rcases log_add_iff.mp logged with old | ⟨rfl, rfl⟩
    · rcases h.alone k m old with same | ⟨later, differs⟩
      · exact .inl same
      · exact .inr ⟨later, fun now => differs (now.old other)⟩
    · exact .inr ⟨log_bound h.received, fun now => received m rfl (now.old other)⟩

/-- What an actor does with a mail in its hands. -/
theorem Local.of_running {now : Nat} (move : Local toChars c now x act e x')
    (control : x.control = .running mail) (call : x.call = .none) :
    isLinkMsg mail.body = true ∧ e = .linked c mail.link ∧ x' = x.runLink mail ∨
    isLinkMsg mail.body = false ∧ e = .internal (some c) ∧
      x' = { x with control := .checking mail } := by
  cases move with
  | user u free => rcases (free_control free).2 with busy | ⟨_, _, _, busy⟩ <;> simp [control] at busy
  | recorded mail' running link =>
      cases control.symm.trans running
      exact .inl ⟨link, rfl, rfl⟩
  | passed mail' running other =>
      cases control.symm.trans running
      exact .inr ⟨other, rfl, rfl⟩
  | delivered _ _ busy | dispatched _ busy | returned _ busy | handlerThrew _ _ _ _ busy
  | handlerReturned _ _ _ busy | message _ busy | exited _ _ busy | notified _ _ _ busy
  | handler _ _ _ _ busy | concluded _ _ busy | destroyed busy =>
      rw [control] at busy
      cases busy
  | unlinked _ _ busy | spawned _ _ _ busy =>
      rw [call] at busy
      cases busy

theorem Local.of_checking {now : Nat} (move : Local toChars c now x act e x')
    (control : x.control = .checking mail) (call : x.call = .none) :
    e = (x.runMessage c mail).2 ∧ x' = (x.runMessage c mail).1 := by
  cases move with
  | user u free => rcases (free_control free).2 with busy | ⟨_, _, _, busy⟩ <;> simp [control] at busy
  | message mail' checking =>
      cases control.symm.trans checking
      exact ⟨rfl, rfl⟩
  | delivered _ _ busy | dispatched _ busy | returned _ busy | handlerThrew _ _ _ _ busy
  | handlerReturned _ _ _ busy | recorded _ busy | passed _ busy | exited _ _ busy
  | notified _ _ _ busy | handler _ _ _ _ busy | concluded _ _ busy | destroyed busy =>
      rw [control] at busy
      cases busy
  | unlinked _ _ busy | spawned _ _ _ busy =>
      rw [call] at busy
      cases busy

theorem Waiting.local {now : Nat} (h : Waiting tr c x) (sane : Sane x)
    (move : Local toChars c now x act e x') : Phase (tr ++ [e]) c x' := by
  have asleep := h.asleep
  rcases h.control with idle | ⟨mail, running, link⟩
  · rcases move.of_idle idle sane with ⟨mail, rest, waiting, rfl, rfl⟩ | ⟨owns, -⟩ | ⟨rfl, rfl⟩
    · have unreceived (k : Nat) (m : Mail) :
          (tr ++ [.ran c mail])[k]? ≠ some (.received c m) := by
        intro logged
        rcases log_add_iff.mp logged with old | ⟨-, new⟩
        · exact h.unreceived k m old
        · cases new
      have ran (k : Nat) (m : Mail) (logged : (tr ++ [.ran c mail])[k]? = some (.ran c m)) :
          isLinkMsg m.body = true ∨ m = mail := by
        rcases log_add_iff.mp logged with old | ⟨-, new⟩
        · exact .inl (h.ran k m old)
        · cases new
          exact .inr rfl
      have asleep' : Asleep { x with mailbox := rest, control := .running mail } :=
        ⟨asleep.receiver, asleep.exitedReceiver, asleep.alive, asleep.unobserved, asleep.ownsIo,
          asleep.call⟩
      -- the head of the mailbox is a link message or the kick-off
      rcases h.mailbox with ⟨early, links⟩ | ⟨links, kick, after, eq, before, kicked, null, others⟩
      · rw [waiting] at links
        have link := links mail List.mem_cons_self
        refine .waiting ⟨asleep', .inr ⟨mail, rfl, link⟩, .inl ⟨?_, ?_⟩, ?_, unreceived⟩
        · rw [scheduled_add, early]
          rfl
        · exact fun m hm => links m (List.mem_cons_of_mem _ hm)
        · intro k m logged
          rcases ran k m logged with old | rfl
          · exact old
          · exact link
      · have unkicked (m : Mail) (hm : ¬ Kick tr c m) : ¬ Kick (tr ++ [.ran c mail]) c m :=
          fun now => hm (now.old rfl)
        cases links with
        | nil =>
            rw [waiting] at eq
            obtain ⟨rfl, rfl⟩ := List.cons.inj eq
            exact .starting mail ⟨asleep', .inl rfl, kicked.add _, null,
              fun m hm => unkicked m (others m hm), ran, unreceived⟩
        | cons first links =>
            rw [waiting] at eq
            obtain ⟨rfl, rfl⟩ := List.cons.inj eq
            have link := before mail List.mem_cons_self
            refine .waiting ⟨asleep', .inr ⟨mail, rfl, link⟩, .inr ⟨links, kick, after, rfl,
              fun m hm => before m (List.mem_cons_of_mem _ hm), kicked.add _, null,
              fun m hm => unkicked m (others m hm)⟩, ?_, unreceived⟩
            intro k m logged
            rcases ran k m logged with old | rfl
            · exact old
            · exact link
    · rw [asleep.ownsIo] at owns
      cases owns
    · exact .waiting (h.keep ⟨by simp, by simp, rfl⟩ ⟨asleep.receiver, asleep.exitedReceiver,
        asleep.alive, asleep.unobserved, asleep.ownsIo, asleep.call⟩ (.inl idle) rfl)
  · rcases move.of_running running asleep.call with ⟨-, rfl, rfl⟩ | ⟨other, -⟩
    · have kept : x.runLink mail = { x with
          links := ⟨mail.sender, some mail.serial, .callee⟩ :: x.links, control := .idle } := by
        simp [runLink, asleep.unobserved]
      rw [kept]
      exact .waiting (h.keep ⟨by simp, by simp, rfl⟩ ⟨asleep.receiver, asleep.exitedReceiver,
        asleep.alive, asleep.unobserved, asleep.ownsIo, asleep.call⟩ (.inl rfl) rfl)
    · rw [link] at other
      cases other

/-- The stub is called with the kick-off. -/
theorem Starting.local {now : Nat} (h : Starting tr c x kick)
    (move : Local toChars c now x act e x') : Phase (tr ++ [e]) c x' := by
  have asleep := h.asleep
  rcases h.control with running | checking
  · rcases move.of_running running asleep.call with ⟨link, -⟩ | ⟨-, rfl, rfl⟩
    · rw [h.null] at link
      have differs : isLinkMsg nullValue = false := by decide
      rw [differs] at link
      cases link
    · exact .starting kick (h.keep ⟨by simp, by simp, rfl⟩ ⟨asleep.receiver, asleep.exitedReceiver,
        asleep.alive, asleep.unobserved, asleep.ownsIo, asleep.call⟩ (.inr rfl) h.mailbox)
  · obtain ⟨rfl, rfl⟩ := move.of_checking checking asleep.call
    have message : x.runMessage c kick =
        ({ x with receiver := none, control := .receiving }, .received c kick) := by
      have other : isExitMsg kick.body = .ok false := by
        rw [h.null]
        rfl
      rw [Actor.runMessage, if_neg (by simp [asleep.alive])]
      simp [other, asleep.receiver]
    rw [message]
    refine .started kick tr.length
      { kicked := h.kicked.add _
        received := log_last tr _
        receiver := by simp
        exitedReceiver := fun stub => by simp [asleep.exitedReceiver] at stub
        mailbox := fun m hm now => h.mailbox m hm (now.old rfl)
        held := fun m held => by rcases held with busy | busy <;> cases busy
        ran := fun k m logged => ?_
        alone := fun k m logged => ?_ }
    · rcases log_add_iff.mp logged with old | ⟨-, new⟩
      · rcases h.ran k m old with link | same
        · exact .inl link
        · exact .inr (.inl same)
      · cases new
    · rcases log_add_iff.mp logged with old | ⟨same, -⟩
      · exact absurd old (h.unreceived k m)
      · exact .inl same

theorem runMessage_receiver (x : Actor) (self : InstanceId) (mail : Mail) :
    (x.runMessage self mail).1.receiver = x.receiver ∨
      (x.runMessage self mail).1.receiver = none := by
  rw [Actor.runMessage]
  split
  · exact .inl rfl
  · dsimp only
    split
    · split <;> simp [raise_guarded]
    · split
      · exact .inl rfl
      · split <;> exact .inl rfl
      · split <;> simp [raise_guarded]

theorem Started.local {now : Nat} (h : Started tr c x kick n) (fresh : ∀ m, ¬ Kick tr c ⟨none, m, now⟩)
    (move : Local toChars c now x act e x') : Started (tr ++ [e]) c x' kick n := by
  have unposted : e.kicks c = false := by
    unfold Event.kicks
    split
    · exact absurd rfl (move.not_queued _ _ _ _)
    · rfl
  have unheld {control : Control} (running : ∀ m, control ≠ .running m)
      (checking : ∀ m, control ≠ .checking m) (m : Mail) :
      ({ x' with control := control } : Actor).holds m → ¬ Kick tr c m := by
    rintro (busy | busy)
    · exact absurd busy (running m)
    · exact absurd busy (checking m)
  cases move with
  | user u free =>
      cases u with
      | receive installed =>
          refine h.keep rfl ?_ h.exitedReceiver h.mailbox h.held (by simp)
          simp only [Actor.user]
          split <;> simp
      | trap | observeLinks | ownIo =>
          exact h.keep rfl h.receiver h.exitedReceiver h.mailbox h.held (by simp)
  | returned o control call =>
      rcases returned_cases x o with eq | ⟨guarded, m, -, eq⟩
      · rw [eq]
        exact h.keep rfl h.receiver (by simp [Actor.finish]) h.mailbox
          (unheld (by simp [Actor.finish]) (by simp [Actor.finish])) (by simp)
      · rw [eq]
        exact h.keep rfl h.receiver h.exitedReceiver h.mailbox (unheld (by simp) (by simp)) (by simp)
  | handlerThrew guarded err rest e control call =>
      cases guarded <;>
        exact h.keep rfl h.receiver h.exitedReceiver h.mailbox (unheld (by simp) (by simp)) (by simp)
  | handlerReturned guarded err rest control call =>
      exact h.keep rfl h.receiver h.exitedReceiver h.mailbox (unheld (by simp) (by simp)) (by simp)
  | delivered mail rest control mailbox =>
      refine h.keep rfl h.receiver h.exitedReceiver ?_ ?_ (by simp)
      · exact fun m hm => h.mailbox m (by rw [mailbox]; exact List.mem_cons_of_mem _ hm)
      · rintro m (running | checking)
        · cases running
          exact h.mailbox mail (by rw [mailbox]; exact List.mem_cons_self)
        · cases checking
  | dispatched m control owns lives =>
      refine h.keep rfl h.receiver h.exitedReceiver h.mailbox ?_ (by simp)
      rintro m' (running | checking)
      · cases running
        exact fresh m
      · cases checking
  | recorded mail control link =>
      refine h.keep rfl ?_ ?_ ?_ ?_ (by simp)
      all_goals unfold runLink; dsimp only; split
      · exact h.receiver
      · exact h.receiver
      · exact h.exitedReceiver
      · exact h.exitedReceiver
      · exact h.mailbox
      · exact h.mailbox
      · rintro m (running | checking)
        · cases running
        · cases checking
          exact h.held mail (.inl control)
      · rintro m (running | checking)
        · cases running
        · cases checking
  | passed mail control other =>
      refine h.keep rfl h.receiver h.exitedReceiver h.mailbox ?_ (by simp)
      rintro m (running | checking)
      · cases running
      · cases checking
        exact h.held mail (.inl control)
  | message mail control =>
      have notKick := h.held mail (.inr control)
      have receiver : (x.runMessage c mail).1.receiver ≠ some .behaviour := by
        rcases runMessage_receiver x c mail with same | none
        · rw [same]
          exact h.receiver
        · rw [none]
          simp
      rcases runMessage_cases x c mail with
        ⟨-, eq⟩ | ⟨-, ⟨guarded, m, -, eq⟩ | eq | ⟨r, eq⟩⟩
      · rw [eq]
        exact h.keep rfl h.receiver h.exitedReceiver h.mailbox (unheld (by simp) (by simp)) (by simp)
      · rw [eq]
        exact h.keep rfl h.receiver h.exitedReceiver h.mailbox (unheld (by simp) (by simp)) (by simp)
      · rw [eq]
        exact h.keep rfl h.receiver (by simp [Actor.finish]) h.mailbox
          (unheld (by simp [Actor.finish]) (by simp [Actor.finish])) (by simp)
      · rw [eq] at receiver ⊢
        refine h.keep rfl receiver h.exitedReceiver h.mailbox (unheld (by simp) (by simp)) ?_
        rintro m ⟨⟩
        exact notKick
  | exited guarded m control =>
      exact h.keep rfl h.receiver h.exitedReceiver h.mailbox (unheld (by simp) (by simp)) (by simp)
  | notified k guarded m control =>
      rcases callHandlers_cases x toChars guarded m with ⟨-, eq⟩ | ⟨err, -, eq⟩ | ⟨e, -, eq⟩
      · rw [eq]
        exact h.keep rfl h.exitedReceiver (by simp [Actor.conclude, Actor.finish]) h.mailbox
          (unheld (by simp [Actor.conclude, Actor.finish])
            (by simp [Actor.conclude, Actor.finish])) (by simp)
      · rw [eq]
        exact h.keep rfl h.receiver h.exitedReceiver h.mailbox (unheld (by simp) (by simp)) (by simp)
      · rw [eq]
        cases guarded <;>
          exact h.keep rfl h.receiver h.exitedReceiver h.mailbox
            (unheld (by simp [Actor.raise]) (by simp [Actor.raise])) (by simp)
  | handler guarded err eh rest control =>
      exact h.keep rfl h.receiver h.exitedReceiver h.mailbox (unheld (by simp) (by simp)) (by simp)
  | concluded guarded err control =>
      exact h.keep rfl h.exitedReceiver (by simp [Actor.conclude, Actor.finish]) h.mailbox
        (unheld (by simp) (by simp)) (by simp)
  | unlinked child link call skipped =>
      exact h.keep rfl h.receiver h.exitedReceiver h.mailbox h.held (by simp)
  | spawned child link request call =>
      exact h.keep rfl h.receiver h.exitedReceiver h.mailbox h.held (by simp)
  | destroyed control mailbox lifetime =>
      exact h.keep rfl h.receiver h.exitedReceiver h.mailbox h.held (by simp)

end Phases

section Posts
variable {toChars : Float → Bytes} {s s' : System} {act : Action} {e : Event} {tr : List Event}
  {c : InstanceId} {x x' : Actor} {mail kick : Mail} {n : Nat} {cause : Cause} {target : Handle}
  {d : Delivery}

theorem Phase.unheard (h : Phase tr c x) (unheard : Unheard c e) : Phase (tr ++ [e]) c x := by
  cases h with
  | waiting h => exact .waiting (h.keep unheard h.asleep h.control rfl)
  | starting kick h => exact .starting kick (h.keep unheard h.asleep h.control h.mailbox)
  | started kick n h =>
      exact .started kick n (h.keep unheard.kicks h.receiver h.exitedReceiver h.mailbox h.held
        fun m eq => absurd eq (unheard.received m))

theorem Asleep.receives (h : Asleep x) : Asleep (x.receives c target mail d) := by
  unfold Actor.receives
  split
  · exact ⟨h.receiver, h.exitedReceiver, h.alive, h.unobserved, h.ownsIo, h.call⟩
  · exact h

theorem Started.receives (h : Started tr c x kick n) (other : e.kicks c = false)
    (received : ∀ m, e ≠ .received c m) (fresh : ¬ Kick tr c mail) :
    Started (tr ++ [e]) c (x.receives c target mail d) kick n := by
  unfold Actor.receives
  split
  · refine h.keep other h.receiver h.exitedReceiver ?_ h.held fun m eq => absurd eq (received m)
    intro m hm
    rcases List.mem_append.mp hm with old | new
    · exact h.mailbox m old
    · rw [List.mem_singleton.mp new]
      exact fresh
  · exact h.keep other h.receiver h.exitedReceiver h.mailbox h.held fun m eq =>
      absurd eq (received m)

theorem unheard_of_queued (other : (Event.queued cause target mail d).kicks c = false) :
    Unheard c (.queued cause target mail d) :=
  ⟨nofun, nofun, other⟩

/-- Before the kick-off there are only link messages to receive. -/
theorem Waiting.receives (h : Waiting tr c x)
    (again : (Event.queued cause target mail d).kicks c = true →
      scheduled tr c = false ∧ mail.body = nullValue ∧ d = .posted)
    (orderly : target = some c → cause = .schedule ∨ isLinkMsg mail.body = true ∨
      scheduled tr c = true)
    (fresh : ¬ Kick tr c mail) :
    Waiting (tr ++ [.queued cause target mail d]) c (x.receives c target mail d) := by
  have control : (x.receives c target mail d).control = .idle ∨
      ∃ mail', (x.receives c target mail d).control = .running mail' ∧
        isLinkMsg mail'.body = true := by
    rw [receives_control]
    exact h.control
  by_cases hit : reaches c target d = true
  · obtain ⟨rfl, rfl⟩ := reaches_iff.mp hit
    have mailbox : (x.receives c (some c) mail .posted).mailbox = x.mailbox ++ [mail] := by
      rw [receives_mailbox, if_pos hit]
    cases kicks : (Event.queued cause (some c) mail .posted).kicks c with
    | true =>
        obtain ⟨early, null, -⟩ := again kicks
        obtain rfl : cause = .schedule := by
          unfold Event.kicks at kicks
          split at kicks
          · rename_i same
            cases same
            rfl
          · cases kicks
        have kicked : Kick (tr ++ [.queued .schedule (some c) mail .posted]) c mail :=
          ⟨tr.length, log_last tr _⟩
        refine ⟨h.asleep.receives, control, .inr ⟨x.mailbox, mail, [], mailbox, ?_, kicked, null,
          nofun⟩, ?_, ?_⟩
        · rcases h.mailbox with ⟨-, links⟩ | ⟨links, kick, rest, -, -, isKick, -⟩
          · exact links
          · rw [isKick.scheduled] at early
            cases early
        · intro k m logged
          rcases log_add_iff.mp logged with old | ⟨-, new⟩
          · exact h.ran k m old
          · cases new
        · intro k m logged
          rcases log_add_iff.mp logged with old | ⟨-, new⟩
          · exact h.unreceived k m old
          · cases new
    | false =>
        have unheard := unheard_of_queued kicks
        refine ⟨h.asleep.receives, control, ?_, fun k m logged => h.ran k m (unheard.ran_old logged),
          fun k m logged => h.unreceived k m (unheard.received_old logged)⟩
        rw [mailbox, scheduled_add, kicks, Bool.or_false]
        rcases h.mailbox with ⟨early, links⟩ | ⟨links, kick, rest, eq, before, isKick, null, after⟩
        · refine .inl ⟨early, fun m hm => ?_⟩
          rcases List.mem_append.mp hm with old | new
          · exact links m old
          · rw [List.mem_singleton.mp new]
            rcases orderly rfl with rfl | link | late
            · simp [Event.kicks] at kicks
            · exact link
            · rw [early] at late
              cases late
        · refine .inr ⟨links, kick, rest ++ [mail], by simp [eq], before, isKick.add _, null, ?_⟩
          intro m hm
          rcases List.mem_append.mp hm with old | new
          · exact unheard.not_kick (after m old)
          · rw [List.mem_singleton.mp new]
            exact unheard.not_kick fresh
  · have kicks : (Event.queued cause target mail d).kicks c = false := by
      by_contra kicked
      have kicked : (Event.queued cause target mail d).kicks c = true := by simpa using kicked
      obtain ⟨-, -, posted⟩ := again kicked
      unfold Event.kicks at kicked
      split at kicked
      · rename_i same
        cases same
        exact hit (reaches_iff.mpr ⟨by simpa using kicked, posted⟩)
      · cases kicked
    have same : x.receives c target mail d = x := by
      rw [Actor.receives, if_neg hit]
    rw [same]
    exact h.keep (unheard_of_queued kicks) h.asleep h.control rfl

theorem Phase.receives (h : Phase tr c x)
    (again : (Event.queued cause target mail d).kicks c = true →
      scheduled tr c = false ∧ mail.body = nullValue ∧ (x.inShutdown = false → d = .posted))
    (orderly : target = some c → cause = .schedule ∨ isLinkMsg mail.body = true ∨
      scheduled tr c = true)
    (fresh : ¬ Kick tr c mail) :
    Phase (tr ++ [.queued cause target mail d]) c (x.receives c target mail d) := by
  have late (kick : Mail) (kicked : Kick tr c kick) :
      (Event.queued cause target mail d).kicks c = false := by
    by_contra now
    have early := (again (by simpa using now)).1
    rw [kicked.scheduled] at early
    cases early
  cases h with
  | waiting h =>
      refine .waiting (h.receives (fun kicks => ?_) orderly fresh)
      obtain ⟨early, null, posted⟩ := again kicks
      exact ⟨early, null, posted h.asleep.alive⟩
  | starting kick h =>
      refine .starting kick (Starting.keep h (unheard_of_queued (late kick h.kicked))
        h.asleep.receives ?_ ?_)
      · rw [receives_control]
        exact h.control
      · rw [receives_mailbox]
        intro m hm
        split at hm
        · rcases List.mem_append.mp hm with old | new
          · exact h.mailbox m old
          · rw [List.mem_singleton.mp new]
            exact fresh
        · exact h.mailbox m hm
  | started kick n h =>
      exact .started kick n (h.receives (late kick h.kicked) nofun fresh)

theorem queue_posted {current sender : Handle} {m : Bytes} (hx : s.actors c = some x)
    (alive : x.inShutdown = false) : s.queue current sender c m = .posted := by
  simp [System.queue, hx, alive]

theorem Step.kick_posted (h : Step toChars s act s')
    (trace : s'.trace = s.trace ++ [.queued cause target mail d])
    (kicks : (Event.queued cause target mail d).kicks c = true) (hx : s.actors c = some x) :
    mail.body = nullValue ∧ (x.inShutdown = false → d = .posted) := by
  obtain ⟨rfl, rfl⟩ : cause = .schedule ∧ target = some c := by
    unfold Event.kicks at kicks
    split at kicks
    · rename_i same
      cases same
      exact ⟨rfl, by simpa using kicks⟩
    · cases kicks
  cases h with
  | act self y y' act e' hy move => exact absurd (logged_eq rfl trace) (move.not_queued _ _ _ _)
  | call self y y' act cause target mail' d' hy move =>
      have same := logged_eq (post_trace _ _ _ _) trace
      cases move with
      | schedule child link request call =>
          cases same
          exact ⟨rfl, queue_posted hx⟩
      | send | link | spawnLink | notice => cases same
  | spawn | contextSpawn => cases logged_eq rfl trace
  | outsideSend => cases logged_eq (post_trace _ _ _ _) trace
  | schedule child waiting =>
      cases logged_eq (post_trace _ _ _ _) trace
      exact ⟨rfl, queue_posted hx⟩

/-- What an orderly step sends to an instance that waits for its kick-off. -/
theorem Step.queued_orderly (h : Step toChars s act s') (ok : orderly s act = true)
    (trace : s'.trace = s.trace ++ [.queued cause (some c) mail d]) :
    cause = .schedule ∨ isLinkMsg mail.body = true ∨ scheduled s.trace c = true := by
  have link : isLinkMsg linkMsg = true := by simp [isLinkMsg]
  cases h with
  | act self y y' act e' hy move => exact absurd (logged_eq rfl trace) (move.not_queued _ _ _ _)
  | call self y y' act cause target mail' d' hy move =>
      have same := logged_eq (post_trace _ _ _ _) trace
      cases move with
      | schedule child link request call =>
          cases same
          exact .inl rfl
      | link | spawnLink =>
          cases same
          exact .inr (.inl link)
      | send target m free valid =>
          cases same
          exact .inr (by simpa [orderly] using ok)
      | notice k guarded m l rest control =>
          obtain ⟨peer, request, side⟩ := l
          cases same
          exact .inr (by simpa [orderly, hy, control] using ok)
  | spawn | contextSpawn => cases logged_eq rfl trace
  | outsideSend target m valid =>
      cases logged_eq (post_trace _ _ _ _) trace
      exact .inr (by simpa [orderly] using ok)
  | schedule child waiting =>
      cases logged_eq (post_trace _ _ _ _) trace
      exact .inl rfl

theorem Step.queued_serial (h : Step toChars s act s')
    (trace : s'.trace = s.trace ++ [.queued cause target mail d]) :
    mail.serial = s.trace.length := by
  rcases h.queued_move trace with ⟨self, y, y', -, move⟩ | ⟨-, serial, -⟩
  · exact move.serial
  · exact serial

/-- The stub makes no calls of the library. -/
theorem Asleep.quiet (h : Asleep x) (control : x.control = .idle ∨
    ∃ mail, x.control = .running mail ∨ x.control = .checking mail) :
    x.free = false ∧ ∀ act cause target mail d x', ¬ Calls s c x act cause target mail d x' := by
  have unfree : x.free = false := by
    rcases control with idle | ⟨mail, running | checking⟩
    · simp [Actor.free, idle]
    · simp [Actor.free, running]
    · simp [Actor.free, checking]
  refine ⟨unfree, fun act cause target mail d x' move => ?_⟩
  cases move with
  | send _ _ free | link _ free =>
      rw [unfree] at free
      cases free
  | spawnLink _ busy | schedule _ _ _ busy =>
      rw [h.call] at busy
      cases busy
  | notice _ _ _ _ _ notifying =>
      rcases control with now | ⟨mail, now | now⟩ <;> rw [now] at notifying <;> cases notifying

theorem Waiting.quiet (h : Waiting tr c x) :
    x.free = false ∧ ∀ act cause target mail d x', ¬ Calls s c x act cause target mail d x' := by
  refine h.asleep.quiet ?_
  rcases h.control with idle | ⟨mail, running, -⟩
  · exact .inl idle
  · exact .inr ⟨mail, .inl running⟩

theorem Starting.quiet (h : Starting tr c x kick) :
    x.free = false ∧ ∀ act cause target mail d x', ¬ Calls s c x act cause target mail d x' :=
  h.asleep.quiet (.inr ⟨kick, h.control⟩)

theorem Phase.calls (h : Phase tr c x)
    (move : Calls s c x act cause target mail d x') :
    ∃ kick n, Started tr c x kick n ∧ Started tr c x' kick n := by
  cases h with
  | waiting h =>
      exact absurd move (h.quiet.2 _ _ _ _ _ _)
  | starting kick h =>
      exact absurd move (h.quiet.2 _ _ _ _ _ _)
  | started kick n h =>
      refine ⟨kick, n, h, ?_⟩
      cases move with
      | send | link | spawnLink | schedule => exact { h with }
      | notice k guarded m l rest control =>
          exact { h with
            held := by rintro m (busy | busy) <;> cases busy }

theorem phase_step (inv : Everywhere (fun s c x => Phase s.trace c x) s) (kicked : KickedOnce s)
    (supervised : Supervised s) (ok : orderly s act = true) (h : Step toChars s act s') :
    Everywhere (fun s c x => Phase s.trace c x) s' := by
  have consistent := supervised.accounted.consistent
  refine inv.step consistent.numbered ?_ ?_ h
  · rintro e b x after ⟨rfl, caller, link, name, handlers, rfl, rfl, -⟩
    rw [after.trace]
    refine .waiting ⟨⟨rfl, rfl, rfl, rfl, rfl, rfl⟩, .inl rfl, .inl ⟨?_, nofun⟩, ?_, ?_⟩
    · rw [scheduled_add, scheduled_new consistent]
      rfl
    · intro k m logged
      rw [← after.trace] at logged
      cases after.only_created consistent.mentioned consistent.numbered logged rfl
    · intro k m logged
      rw [← after.trace] at logged
      cases after.only_created consistent.mentioned consistent.numbered logged rfl
  · intro e b x x' after hx phase move
    rw [after.trace]
    have sane := consistent.sane b x hx
    have posted (cause : Cause) (target : Handle) (mail : Mail) (d : Delivery)
        (eq : e = .queued cause target mail d) {y : Actor} (hy : Phase s.trace b y)
        (alive : y.inShutdown = x.inShutdown) :
        Phase (s.trace ++ [e]) b (y.receives b target mail d) := by
      subst eq
      refine hy.receives (fun kicks => ?_) ?_ ?_
      · obtain ⟨null, alive'⟩ := h.kick_posted after.trace kicks hx
        exact ⟨kicked.unscheduled h after.trace kicks, null, fun lives => alive' (alive ▸ lives)⟩
      · rintro rfl
        exact h.queued_orderly ok after.trace
      · intro kick
        have earlier := kick.serial supervised.stamped
        rw [h.queued_serial after.trace] at earlier
        exact Nat.lt_irrefl _ earlier
    cases move with
    | other act e foreign unposted => exact phase.unheard (unheard_of_foreign foreign unposted)
    | act act e x' move =>
        cases phase with
        | waiting phase => exact phase.local sane move
        | starting kick phase => exact phase.local move
        | started kick n phase =>
            refine .started kick n (phase.local (fun m now => ?_) move)
            exact Nat.lt_irrefl _ (now.serial supervised.stamped)
    | call act cause target mail d x' move =>
        obtain ⟨kick, n, -, later⟩ := phase.calls move
        exact posted cause target mail d rfl (.started kick n later) move.shutdown
    | called | outside => exact posted _ _ _ _ rfl phase rfl
    | spawn name link free =>
        cases phase with
        | waiting phase =>
            rw [(phase.quiet (s := s)).1] at free
            cases free
        | starting kick phase =>
            rw [(phase.quiet (s := s)).1] at free
            cases free
        | started kick n phase =>
            exact .started kick n (phase.keep rfl phase.receiver phase.exitedReceiver phase.mailbox
              phase.held nofun)

end Posts

section Passed
variable {toChars : Float → Bytes} {s s' : System} {act : Action} {e : Event} {c : InstanceId}
  {x x' : Actor} {mail : Mail}

/-- What run does with a mail that is neither for itself nor an exit message. -/
def Handled (s : System) (c : InstanceId) (x : Actor) (n : Nat) (mail : Mail) : Prop :=
  (x.holds mail ∧ (x.inShutdown = true → ∃ k m ls, k < n ∧ s.trace[k]? = some (.exit c m ls))) ∨
  (∃ k : Nat, s.trace[k]? = some (.received c mail)) ∨
  ∃ k m ls, k < n ∧ s.trace[k]? = some (.exit c m ls)

def Passed (s : System) (c : InstanceId) (x : Actor) : Prop :=
  ∀ (n : Nat) mail, s.trace[n]? = some (.ran c mail) → isLinkMsg mail.body = false →
    isExitMsg mail.body = .ok false → Handled s c x n mail

theorem Handled.add {n : Nat} (h : Handled s c x n mail) (trace : s'.trace = s.trace ++ [e])
    (held : x.holds mail → x'.holds mail ∧ x'.inShutdown = x.inShutdown ∨
      e = .received c mail ∨ x.inShutdown = true) : Handled s' c x' n mail := by
  unfold Handled
  rw [trace]
  have old {k : Nat} {m : Bytes} {ls : List Link} (logged : s.trace[k]? = some (.exit c m ls)) :
      (s.trace ++ [e])[k]? = some (.exit c m ls) := log_old logged [e]
  rcases h with ⟨holds, exited⟩ | ⟨k, logged⟩ | ⟨k, m, ls, before, logged⟩
  · rcases held holds with ⟨still, same⟩ | rfl | shutdown
    · refine .inl ⟨still, fun shutdown => ?_⟩
      obtain ⟨k, m, ls, before, logged⟩ := exited (same ▸ shutdown)
      exact ⟨k, m, ls, before, old logged⟩
    · exact .inr (.inl ⟨_, log_last s.trace _⟩)
    · obtain ⟨k, m, ls, before, logged⟩ := exited shutdown
      exact .inr (.inr ⟨k, m, ls, before, old logged⟩)
  · exact .inr (.inl ⟨k, log_old logged [e]⟩)
  · exact .inr (.inr ⟨k, m, ls, before, old logged⟩)

/-- A mail stays in hand until the receiver is called. -/
theorem Moves.holds_passed (move : Moves toChars s c x act e x') (sane : Sane x) (ready : Ready x)
    (unlinked : isLinkMsg mail.body = false) (other : isExitMsg mail.body = .ok false)
    (holds : x.holds mail) :
    x'.holds mail ∧ x'.inShutdown = x.inShutdown ∨ e = .received c mail ∨ x.inShutdown = true := by
  cases move with
  | other | spawn => exact .inl ⟨holds, rfl⟩
  | act act e x' move =>
      rcases holds with running | checking
      · have call := sane.call_none (by simp [running]) (by simp [running])
        rcases move.of_running running call with ⟨link, -⟩ | ⟨-, -, rfl⟩
        · rw [unlinked] at link
          cases link
        · exact .inl ⟨.inr rfl, rfl⟩
      · have call := sane.call_none (by simp [checking]) (by simp [checking])
        obtain ⟨rfl, -⟩ := move.of_checking checking call
        cases alive : x.inShutdown with
        | true => exact .inr (.inr rfl)
        | false =>
            have installed := ready alive (.inr ⟨mail, .inr checking⟩)
            exact .inr (.inl (runMessage_receives c alive installed other).1)
  | call act cause target mail' d x' move =>
      rw [receives_holds, receives_inShutdown]
      cases move with
      | send | link | spawnLink | schedule => exact .inl ⟨holds, rfl⟩
      | notice k guarded m l rest control =>
          rcases holds with busy | busy <;> rw [control] at busy <;> cases busy
  | called | outside =>
      rw [receives_holds, receives_inShutdown]
      exact .inl ⟨holds, rfl⟩

theorem passed_step (inv : Everywhere Passed s) (ready : Everywhere (fun _ _ x => Ready x) s)
    (consistent : Consistent s) (h : Step toChars s act s') : Everywhere Passed s' := by
  refine inv.step consistent.numbered ?_ ?_ h
  · rintro e b x after ⟨rfl, caller, link, name, handlers, rfl, rfl, -⟩
    intro n mail logged
    cases after.only_created consistent.mentioned consistent.numbered logged rfl
  · intro e b x x' after hx passed move n mail logged unlinked other
    rw [after.trace] at logged
    rcases log_add_iff.mp logged with old | ⟨rfl, rfl⟩
    · exact (passed n mail old unlinked other).add after.trace
        (move.holds_passed (consistent.sane b x hx) (ready b x hx) unlinked other)
    · -- the mail has just been taken from the mailbox
      obtain ⟨holds, same⟩ : x'.holds mail ∧ x'.inShutdown = x.inShutdown := by
        cases move with
        | other act e foreign unposted => simp [Event.byItself] at foreign
        | act act e x' move =>
            generalize eq : Event.ran b mail = e at move
            cases move.postal with
            | quiet e x' quiet =>
                subst eq
                cases quiet.event
            | delivered | dispatched =>
                cases eq
                exact ⟨.inl rfl, rfl⟩
            | recorded | exited | unlinked | spawned => cases eq
      refine .inl ⟨holds, fun shutdown => ?_⟩
      obtain ⟨k, m, ls, logged⟩ := (consistent.shutdown b x hx).mp (same ▸ shutdown)
      exact ⟨k, m, ls, log_bound logged, by rw [after.trace]; exact log_old logged _⟩

end Passed

section Starts
variable {toChars : Float → Bytes} {s : System} {c : InstanceId} {x : Actor}

/-- The behaviour of an actor is run once, first of all, and by the kick-off; what
is run after it is handed to a receiver it has installed. -/
structure StartsOnce (toChars : Float → Bytes) (s : System) (c : InstanceId) (x : Actor) :
    Prop where
  called : ∀ act s' mail, step toChars s act = some s' →
    s'.trace = s.trace ++ [.received c mail] →
    (x.receiver = some .behaviour ∧ Kick s.trace c mail ∧
      ∀ (k : Nat) m, s.trace[k]? ≠ some (.received c m)) ∨
    (x.receiver = some .installed ∧ ¬ Kick s.trace c mail ∧
      ∃ (k : Nat) (kick : Mail), Kick s.trace c kick ∧ s.trace[k]? = some (.received c kick))
  first : ∀ (k : Nat) m, s.trace[k]? = some (.ran c m) → isLinkMsg m.body = true ∨
    Kick s.trace c m ∨ ∃ (n : Nat) (kick : Mail), n < k ∧ Kick s.trace c kick ∧
      s.trace[n]? = some (.received c kick)
  once : ∀ (n n' : Nat) kick kick', Kick s.trace c kick → Kick s.trace c kick' →
    s.trace[n]? = some (.received c kick) → s.trace[n']? = some (.received c kick') → n = n'
  started : scheduled s.trace c = true → ∃ kick, Kick s.trace c kick ∧
    (kick ∈ x.mailbox ∨ x.holds kick ∨ ∃ n : Nat, s.trace[n]? = some (.received c kick))
  passed : Passed s c x

theorem Local.received_checking {now : Nat} {mail : Mail} {act : Action} {x' : Actor}
    (move : Local toChars c now x act (.received c mail) x') :
    x.control = .checking mail ∧ x.inShutdown = false := by
  generalize eq : Event.received c mail = e at move
  cases move with
  | message mail' control =>
      rcases runMessage_cases x c mail' with
        ⟨-, same⟩ | ⟨alive, ⟨guarded, m, -, same⟩ | same | ⟨receiver, same⟩⟩
      · rw [same] at eq
        cases eq
      · rw [same] at eq
        cases eq
      · rw [same] at eq
        cases eq
      · rw [same] at eq
        cases eq
        exact ⟨control, alive⟩
  | user | returned | handlerThrew | handlerReturned | delivered | dispatched | recorded | passed
  | exited | notified | handler | concluded | unlinked | spawned | destroyed => cases eq

theorem Phase.startsOnce (phase : Phase s.trace c x) (ready : Ready x) (passed : Passed s c x)
    (hx : s.actors c = some x) : StartsOnce toChars s c x where
  called := fun act s' mail next trace => by
    obtain ⟨y, y', hy, move⟩ := (step_sound next).own_move (b := c) trace
      (by simp [Event.byItself]) nofun
    cases hx.symm.trans hy
    obtain ⟨checking, alive⟩ := move.received_checking
    have installed := ready alive (.inr ⟨mail, .inr checking⟩)
    cases phase with
    | waiting phase =>
        rcases phase.control with busy | ⟨mail', busy, -⟩ <;> rw [checking] at busy <;> cases busy
    | starting kick phase =>
        rcases phase.control with busy | same
        · rw [checking] at busy
          cases busy
        · cases checking.symm.trans same
          exact .inl ⟨phase.asleep.receiver, phase.kicked, phase.unreceived⟩
    | started kick n phase =>
        have receiver : x.receiver = some .installed := by
          cases eq : x.receiver with
          | none => exact absurd eq installed
          | some r =>
              cases r with
              | behaviour => exact absurd eq phase.receiver
              | installed => rfl
        exact .inr ⟨receiver, phase.held mail (.inr checking), n, kick, phase.kicked,
          phase.received⟩
  first := fun k m logged => by
    cases phase with
    | waiting phase => exact .inl (phase.ran k m logged)
    | starting kick phase =>
        rcases phase.ran k m logged with link | rfl
        · exact .inl link
        · exact .inr (.inl phase.kicked)
    | started kick n phase =>
        rcases phase.ran k m logged with link | rfl | later
        · exact .inl link
        · exact .inr (.inl phase.kicked)
        · exact .inr (.inr ⟨n, kick, later, phase.kicked, phase.received⟩)
  once := fun n n' kick kick' kicked kicked' first second => by
    cases phase with
    | waiting phase => exact absurd first (phase.unreceived n kick)
    | starting _ phase => exact absurd first (phase.unreceived n kick)
    | started _ k phase =>
        rcases phase.alone n kick first with same | ⟨-, differs⟩
        · rcases phase.alone n' kick' second with same' | ⟨-, differs⟩
          · rw [same, same']
          · exact absurd kicked' differs
        · exact absurd kicked differs
  started := fun queued => by
    cases phase with
    | waiting phase =>
        rcases phase.mailbox with ⟨early, -⟩ | ⟨links, kick, rest, eq, -, kicked, -, -⟩
        · rw [early] at queued
          cases queued
        · exact ⟨kick, kicked, .inl (by simp [eq])⟩
    | starting kick phase => exact ⟨kick, phase.kicked, .inr (.inl phase.control)⟩
    | started kick n phase => exact ⟨kick, phase.kicked, .inr (.inr ⟨n, phase.received⟩)⟩
  passed := passed

/-- What holds of starting actors in every state of an orderly run. -/
structure Starts (s : System) : Prop where
  supervised : Supervised s
  kicked : KickedOnce s
  ready : Everywhere (fun _ _ x => Ready x) s
  passed : Everywhere Passed s
  phases : Everywhere (fun s c x => Phase s.trace c x) s

theorem starts_keeps :
    Keeps (step toChars) (fun s act => orderly s act = true) Starts := by
  intro s act s' inv ok next
  have h := step_sound next
  have consistent := inv.supervised.accounted.consistent
  exact ⟨inv.supervised.step h, kickedOnce_step inv.kicked inv.supervised h,
    ready_step inv.ready consistent.sane consistent.numbered h,
    passed_step inv.passed inv.ready consistent h,
    phase_step inv.phases inv.kicked inv.supervised ok h⟩

theorem starts_initial : Starts .initial where
  supervised := supervised_initial
  kicked := ⟨by simp [System.initial], by simp [System.initial], by simp [System.initial]⟩
  ready := everywhere_initial _
  passed := everywhere_initial _
  phases := everywhere_initial _

/-- As long as nothing but link messages is sent to an instance whose kick-off is
not queued yet, every actor starts with its behaviour. -/
theorem spawned_actors_start {acts : List Action} (h : run (step toChars) .initial acts = some s)
    (along : Along (step toChars) (fun s act => orderly s act = true) .initial acts)
    (hx : s.actors c = some x) : StartsOnce toChars s c x := by
  have inv := starts_keeps.run starts_initial along h
  exact (inv.phases c x hx).startsOnce (inv.ready c x hx) (inv.passed c x hx) hx

/-- A message is sent to an actor that has been spawned; its behaviour installs a
receiver, and the receiver is given the message. -/
def sentOnceScheduled : List Action :=
  [.contextSpawn (text "echo") none, .schedule 1, .outsideSend (some 1) [0x81, 0x01], .deliver 1,
    .advance 1, .advance 1, .user 1 (.receive true), .returns 1 (.returns (.ok ())), .deliver 1,
    .advance 1]

theorem spawned_actors_start_echo :
    ∃ s x, run (step fun _ => []) .initial sentOnceScheduled = some s ∧
      StartsOnce (fun _ => []) s 1 x ∧ x.control = .checking ⟨none, [0x81, 0x01], 2⟩ ∧
      x.receiver = some .installed := by
  obtain ⟨s, x, h, hx, control, receiver⟩ : ∃ s x,
      run (step fun _ => []) .initial sentOnceScheduled = some s ∧ s.actors 1 = some x ∧
      x.control = .checking ⟨none, [0x81, 0x01], 2⟩ ∧ x.receiver = some .installed :=
    ⟨_, _, rfl, rfl, rfl, rfl⟩
  have along : Along (step fun _ => []) (fun s act => orderly s act = true) .initial
      sentOnceScheduled := by
    decide +kernel
  exact ⟨s, x, h, spawned_actors_start h along hx, control, receiver⟩

/-- The same message in the window before the kick-off: the stub takes it, and
the receiver is given null. -/
def sentBeforeKick : List Action :=
  [.contextSpawn (text "echo") none, .outsideSend (some 1) [0x81, 0x01], .schedule 1, .deliver 1,
    .advance 1]

def installedForKick : List Action :=
  [.advance 1, .user 1 (.receive true), .returns 1 (.returns (.ok ())), .deliver 1, .advance 1]

theorem stub_consumes_message :
    ∃ s x s' s'' y t, run (step fun _ => []) .initial sentBeforeKick = some s ∧
      s.actors 1 = some x ∧ x.receiver = some .behaviour ∧
      step (fun _ => []) s (.advance 1) = some s' ∧
      s'.trace = s.trace ++ [.received 1 ⟨none, [0x81, 0x01], 1⟩] ∧
      ¬ StartsOnce (fun _ => []) s 1 x ∧
      run (step fun _ => []) .initial (sentBeforeKick ++ installedForKick) = some s'' ∧
      s''.actors 1 = some y ∧
      y.receiver = some .installed ∧ step (fun _ => []) s'' (.advance 1) = some t ∧
      t.trace = s''.trace ++ [.received 1 ⟨none, nullValue, 2⟩] ∧
      Kick s''.trace 1 ⟨none, nullValue, 2⟩ := by
  obtain ⟨s, x, h, hx, stub, s', next, trace, kicks⟩ : ∃ s x,
      run (step fun _ => []) .initial sentBeforeKick = some s ∧ s.actors 1 = some x ∧
      x.receiver = some .behaviour ∧ ∃ s', step (fun _ => []) s (.advance 1) = some s' ∧
      s'.trace = s.trace ++ [.received 1 ⟨none, [0x81, 0x01], 1⟩] ∧
      s.trace.all (fun e => match e with | .queued .schedule _ m _ => m.body = nullValue | _ => true) =
        true :=
    ⟨_, _, rfl, rfl, rfl, _, rfl, rfl, rfl⟩
  have later : ∃ s'' y t, run (step fun _ => []) .initial (sentBeforeKick ++ installedForKick) =
      some s'' ∧ s''.actors 1 = some y ∧ y.receiver = some .installed ∧
      step (fun _ => []) s'' (.advance 1) = some t ∧
      t.trace = s''.trace ++ [.received 1 ⟨none, nullValue, 2⟩] ∧
      s''.trace[2]? = some (.queued .schedule (some 1) ⟨none, nullValue, 2⟩ .posted) :=
    ⟨_, _, _, rfl, rfl, rfl, rfl, rfl, rfl⟩
  obtain ⟨s'', y, t, h'', hy, installed, next', trace', kick⟩ := later
  refine ⟨s, x, s', s'', y, t, h, hx, stub, next, trace, ?_, h'', hy, installed, next', trace',
    2, kick⟩
  intro starts
  rcases starts.called _ s' _ next trace with ⟨-, ⟨n, logged⟩, -⟩ | ⟨now, -⟩
  · have null := List.all_eq_true.mp kicks _ (List.mem_of_getElem? logged)
    revert null
    decide
  · rw [stub] at now
    cases now

end Starts

end Thespian.Runtime
