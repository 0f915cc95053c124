import Thespian.Runtime.Postal

/-!
Handles. Those an actor keeps in its links, its mail and its open call, and those
the trace speaks of, refer to instances that were published. An instance that is
new is therefore unknown to all of them.
-/

namespace Thespian.Runtime
open Cbor Actor Transition

section Named
variable {toChars : Float → Bytes} {s s' : System} {act : Action} {x x' : Actor} {e : Event}

/-- Every handle an actor keeps refers to a published instance. -/
structure Named (s : System) (b : InstanceId) (x : Actor) : Prop where
  links : ∀ l ∈ x.links, ∀ p, l.peer = some p → Known s p
  mail : ∀ mail, mail ∈ x.mailbox ∨ x.holds mail → ∀ p, mail.sender = some p → Known s p
  child : ∀ c link stage, x.call = .spawn c link stage → Known s c

theorem Named.mono {b : InstanceId} (h : Named s b x) (known : ∀ c, Known s c → Known s' c) :
    Named s' b x where
  links := fun l hl p hp => known p (h.links l hl p hp)
  mail := fun mail hm p hp => known p (h.mail mail hm p hp)
  child := fun c link stage hc => known c (h.child c link stage hc)

theorem Named.postal {b : InstanceId} {now : Nat} (h : Named s b x) (move : Postal b now x e x') :
    Named s b x' := by
  cases move with
  | quiet e x' quiet =>
      refine ⟨?_, ?_, ?_⟩
      · rw [quiet.links]
        exact h.links
      · intro mail held
        rw [quiet.mailbox] at held
        exact h.mail mail (held.imp_right (quiet.holds mail))
      · rw [quiet.call]
        exact h.child
  | delivered mail rest control mailbox =>
      refine ⟨h.links, ?_, h.child⟩
      rintro mail' (waiting | running | checking)
      · exact h.mail mail' (.inl (by rw [mailbox]; exact List.mem_cons_of_mem mail waiting))
      · cases running
        exact h.mail mail (.inl (by rw [mailbox]; exact List.mem_cons_self))
      · cases checking
  | dispatched m control owns lives =>
      refine ⟨h.links, ?_, h.child⟩
      rintro mail' (waiting | running | checking)
      · exact h.mail mail' (.inl waiting)
      · cases running
        intro p hp
        cases hp
      · cases checking
  | recorded mail control link =>
      have sender := h.mail mail (.inr (.inl control))
      refine ⟨?_, ?_, by rw [runLink_call]; exact h.child⟩
      · intro l hl
        rw [runLink_links] at hl
        rcases List.mem_cons.mp hl with rfl | old
        · exact sender
        · exact h.links l old
      · intro mail' held
        rw [runLink_mailbox, holds] at held
        rcases runLink_control x mail with next | next <;> rw [next] at held
        · rcases held with waiting | running | checking
          · exact h.mail mail' (.inl waiting)
          · cases running
          · cases checking
            exact sender
        · rcases held with waiting | running | checking
          · exact h.mail mail' (.inl waiting)
          · cases running
          · cases checking
  | exited guarded m control =>
      refine ⟨h.links, ?_, h.child⟩
      rintro mail' (waiting | running | checking)
      · exact h.mail mail' (.inl waiting)
      · cases running
      · cases checking
  | unlinked child link call skipped =>
      refine ⟨h.links, h.mail, ?_⟩
      intro c link' stage hc
      cases hc
      exact h.child child link .created call
  | spawned child link request call =>
      refine ⟨?_, h.mail, by simp⟩
      dsimp only
      split
      · intro l hl
        rcases List.mem_cons.mp hl with rfl | old
        · intro p hp
          cases hp
          exact h.child child link _ call
        · exact h.links l old
      · exact h.links

theorem valid_known {p : InstanceId} (h : s.valid (some p) = true) : Known s p :=
  Option.isSome_iff_exists.mp h

theorem Named.calls {b : InstanceId} {cause : Cause} {target : Handle} {mail : Mail}
    {d : Delivery} (h : Named s b x) (move : Calls s b x act cause target mail d x') :
    Named s b x' := by
  cases move with
  | send target m free valid => exact h
  | link target free valid =>
      refine ⟨?_, h.mail, h.child⟩
      dsimp only
      split
      · intro l hl
        rcases List.mem_cons.mp hl with rfl | old
        · intro p hp
          cases hp
          exact valid_known valid
        · exact h.links l old
      · exact h.links
  | spawnLink child call lifetime =>
      refine ⟨h.links, h.mail, ?_⟩
      dsimp only
      intro c link stage hc
      split at hc
      · cases hc
        exact h.child child true .created call
      · cases hc
  | schedule child link request call =>
      refine ⟨h.links, h.mail, ?_⟩
      dsimp only
      intro c link stage hc
      split at hc
      · cases hc
        exact h.child child _ _ call
      · cases hc
  | notice n guarded m l rest control =>
      refine ⟨h.links, ?_, h.child⟩
      rintro mail' (waiting | running | checking)
      · exact h.mail mail' (.inl waiting)
      · cases running
      · cases checking

theorem Named.receives {b : InstanceId} {target : Handle} {mail : Mail} {d : Delivery}
    (h : Named s b x) (sender : ∀ p, mail.sender = some p → Known s p) :
    Named s b (x.receives b target mail d) := by
  refine ⟨by rw [receives_links]; exact h.links, ?_, by rw [receives_call]; exact h.child⟩
  intro mail' held
  rw [receives_mailbox, receives_holds] at held
  split at held
  · rcases held with waiting | processed
    · rcases List.mem_append.mp waiting with old | new
      · exact h.mail mail' (.inl old)
      · cases List.mem_singleton.mp new
        exact sender
    · exact h.mail mail' (.inr processed)
  · exact h.mail mail' held

theorem Calls.sender_known {self : InstanceId} {cause : Cause} {target : Handle} {mail : Mail}
    {d : Delivery} (hx : s.actors self = some x)
    (move : Calls s self x act cause target mail d x') :
    ∀ p, mail.sender = some p → Known s p := by
  cases move with
  | send | link | spawnLink | notice =>
      intro p hp
      cases hp
      exact ⟨x, hx⟩
  | schedule => nofun

theorem named_step (inv : Everywhere Named s) (numbered : Numbered s)
    (h : Step toChars s act s') : Everywhere Named s' := by
  refine inv.step numbered ?_ ?_ h
  · rintro e b x after ⟨rfl, caller, link, name, handlers, -, rfl, -⟩
    exact ⟨by simp, by simp [holds], by simp⟩
  · intro e b x x' after hx named move
    cases move with
    | other => exact named.mono after.known
    | act act e x' move => exact (named.postal move.postal).mono after.known
    | call act cause target mail d x' move =>
        exact ((named.calls move).receives (move.sender_known hx)).mono after.known
    | called self y y' act cause target mail d foreign hy move =>
        exact (named.receives (move.sender_known hy)).mono after.known
    | outside act cause target m d either =>
        exact (named.receives (by simp)).mono after.known
    | spawn name link free =>
        have made : Known s' s.nextInstanceId := by
          cases h with
          | spawn self y name' link' hy free => exact ⟨_, set_self _ _⟩
          | act _ _ _ _ _ _ move => cases move
          | call _ _ _ _ _ _ _ _ _ move => cases move
        refine ⟨(named.mono after.known).links, (named.mono after.known).mail, ?_⟩
        intro c link' stage hc
        cases hc
        exact made

/-- The instances an event speaks of. -/
def Event.mentions : Event → InstanceId → Prop
  | .created child caller _ _, b => b = child ∨ caller = some b
  | .queued _ target mail _, b => target = some b ∨ mail.sender = some b
  | .ran self _, b | .linked self _, b | .received self _, b | .exit self _ _, b
  | .exitHandler self _ _, b => b = self
  | .spawned self child _ _, b => b = self ∨ b = child
  | .internal self, b => self = some b

/-- The trace and the context speak of published instances only. -/
structure Mentioned (s : System) : Prop where
  trace : ∀ (n : Nat) (e : Event), s.trace[n]? = some e → ∀ b, e.mentions b → Known s b
  outside : ∀ c ∈ s.outside, Known s c

theorem Local.mentions {self b : InstanceId} {now : Nat}
    (move : Local toChars self now x act e x') (h : e.mentions b) :
    b = self ∨ ∃ link stage, x.call = .spawn b link stage := by
  cases move with
  | spawned child link request call =>
      rcases h with own | new
      · exact .inl own
      · subst new
        exact .inr ⟨link, _, call⟩
  | message mail control =>
      left
      rcases runMessage_cases x self mail with
        ⟨-, eq⟩ | ⟨-, ⟨guarded, m, -, eq⟩ | eq | ⟨receiver, eq⟩⟩ <;> rw [eq] at h
      · exact (Option.some.inj h).symm
      · exact (Option.some.inj h).symm
      · exact (Option.some.inj h).symm
      · exact h
  | delivered | dispatched | recorded | exited | handler => exact .inl h
  | user | returned | handlerThrew | handlerReturned | passed | notified | concluded | unlinked
  | destroyed => exact .inl (Option.some.inj h).symm

theorem Calls.target_known {self : InstanceId} {cause : Cause} {target : Handle} {mail : Mail}
    {d : Delivery} (named : Named s self x)
    (loop : ∀ n guarded m rest, x.control = .notifying n guarded m rest → rest ⊆ x.links)
    (move : Calls s self x act cause target mail d x') :
    ∀ p, target = some p → Known s p := by
  cases move with
  | send target m free valid | link target free valid =>
      intro p hp
      subst hp
      exact valid_known valid
  | spawnLink child call lifetime =>
      intro p hp
      cases hp
      exact named.child child _ _ call
  | schedule child link request call =>
      intro p hp
      cases hp
      exact named.child child _ _ call
  | notice n guarded m l rest control =>
      exact named.links l (loop n guarded m _ control List.mem_cons_self)

/-- The loop of handle_exit runs over entries of links_ for the exit it logged. -/
structure Looping (s : System) (b : InstanceId) (x : Actor) : Prop where
  rest : ∀ n guarded m rest, x.control = .notifying n guarded m rest → rest ⊆ x.links
  exit : ∀ n guarded m rest, x.control = .notifying n guarded m rest →
    ∃ ls, s.trace[n]? = some (.exit b m ls)

theorem mentioned_step (mentioned : Mentioned s) (named : Everywhere Named s)
    (looping : Everywhere Looping s) (h : Step toChars s act s') : Mentioned s' := by
  -- the old entries stay known; the new one is looked at for each kind of step
  have kept {e : Event} (trace : s'.trace = s.trace ++ [e]) (new : ∀ b, e.mentions b → Known s' b)
      (outside : ∀ c ∈ s'.outside, Known s' c) : Mentioned s' := by
    refine ⟨fun n e' he' b hb => ?_, outside⟩
    rw [trace] at he'
    rcases log_add_iff.mp he' with old | ⟨-, rfl⟩
    · exact h.known (mentioned.trace n e' old b hb)
    · exact new b hb
  cases h with
  | act self x x' act e hx move =>
      refine kept rfl ?_ fun c hc => Step.known (.act self x x' act e hx move) (mentioned.outside c hc)
      intro b hb
      refine Step.known (.act self x x' act e hx move) ?_
      rcases move.mentions hb with rfl | ⟨link, stage, call⟩
      · exact ⟨x, hx⟩
      · exact (named self x hx).child b link stage call
  | call self x x' act cause target mail d hx move =>
      have step : Step toChars s act _ := .call self x x' act cause target mail d hx move
      have outside : ((s.set self x').post cause target mail d).outside = s.outside := by
        rw [post_outside]
        rfl
      refine kept (post_trace _ _ _ _) ?_ fun c hc => step.known (mentioned.outside c (outside ▸ hc))
      rintro b (hit | sent)
      · exact step.known (move.target_known (named self x hx) (looping self x hx).rest b hit)
      · exact step.known (move.sender_known hx b sent)
  | spawn self x name link hx free =>
      have step : Step toChars s _ _ := .spawn self x name link hx free
      refine kept rfl ?_ fun c hc => step.known (mentioned.outside c hc)
      rintro b (rfl | caller)
      · exact ⟨_, set_self _ _⟩
      · cases caller
        exact step.known ⟨x, hx⟩
  | outsideSend target m valid =>
      have step : Step toChars s _ _ := .outsideSend target m valid
      refine kept (post_trace _ _ _ _) ?_ fun c hc =>
        step.known (mentioned.outside c (post_outside (s := s) _ _ _ _ ▸ hc))
      rintro b (hit | sent)
      · subst hit
        exact step.known (valid_known valid)
      · cases sent
  | contextSpawn name handler =>
      have step : Step toChars s _ _ := .contextSpawn name handler
      have made : Known { s.create none false name handler.toList with
          outside := s.nextInstanceId :: s.outside } s.nextInstanceId := ⟨_, set_self _ _⟩
      refine kept rfl ?_ ?_
      · rintro b (rfl | caller)
        · exact made
        · cases caller
      · intro c hc
        rcases List.mem_cons.mp hc with rfl | old
        · exact made
        · exact step.known (mentioned.outside c old)
  | schedule child waiting =>
      have step : Step toChars s _ _ := .schedule child waiting
      refine kept (post_trace _ _ _ _) ?_ ?_
      · rintro b (hit | sent)
        · cases hit
          exact step.known (mentioned.outside child waiting)
        · cases sent
      · intro c hc
        rw [post_outside] at hc
        exact step.known (mentioned.outside c (List.mem_of_mem_erase hc))

/-- An instance is unknown to the trace before it is created. -/
theorem Mentioned.unlogged (h : Mentioned s) (numbered : Numbered s) {n : Nat}
    (logged : s.trace[n]? = some e) : ¬ e.mentions s.nextInstanceId := by
  intro mentions
  obtain ⟨y, hy⟩ := h.trace n e logged _ mentions
  rw [numbered _ (Nat.le_refl _)] at hy
  cases hy

/-- The event of its creation is the first that speaks of an instance. -/
theorem After.only_created {n : Nat} {caller : Handle} {link : Bool} {hs : List ExitHandler}
    (after : After s (.created s.nextInstanceId caller link hs) s') (mentioned : Mentioned s)
    (numbered : Numbered s) (logged : s'.trace[n]? = some e)
    (mentions : e.mentions s.nextInstanceId) :
    Event.created s.nextInstanceId caller link hs = e := by
  rw [after.trace] at logged
  rcases log_add_iff.mp logged with old | ⟨-, new⟩
  · exact absurd mentions (mentioned.unlogged numbered old)
  · exact new

end Named

end Thespian.Runtime
