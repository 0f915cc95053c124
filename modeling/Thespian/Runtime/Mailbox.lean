import Thespian.Runtime.Links

/-!
The strand of an actor. The first mail posted to an instance is the first it
runs; if that is a link message, the entry is recorded before anything else is
run, and so before the actor can exit.
-/

namespace Thespian.Runtime
open Cbor Actor Transition

section Recorded
variable {toChars : Float → Bytes} {s s' : System} {act : Action} {x x' : Actor} {e : Event}
  {b : InstanceId}

/-- How links_ can grow. -/
theorem Moves.links_cases (move : Moves toChars s b x act e x') :
    (x'.links = x.links ∧ (∀ l, e ≠ .linked b l) ∧
      ∀ c request, e ≠ .spawned b c true request) ∨
    (∃ mail, x.control = .running mail ∧ e = .linked b mail.link ∧
      x'.links = mail.link :: x.links) ∨
    (∃ child request, x.call = .spawn child true (.scheduled request) ∧
      e = .spawned b child true request ∧ x'.call = .none ∧
      x'.links = ⟨some child, request, .caller⟩ :: x.links) ∨
    ∃ target mail d, x.call = .none ∧ x'.call = .none ∧ e = .queued .link target mail d ∧
      x'.links = ⟨target, some s.now, .caller⟩ :: x.links := by
  cases move with
  | other act e foreign unposted =>
      refine .inl ⟨rfl, ?_, ?_⟩
      · rintro l rfl
        simp [Event.byItself] at foreign
      · rintro c request rfl
        simp [Event.byItself] at foreign
  | act act e x' move =>
      cases move.postal with
      | quiet e x' quiet =>
          refine .inl ⟨quiet.links, ?_, ?_⟩
          · rintro l rfl
            cases quiet.event
          · rintro c request rfl
            cases quiet.event
      | delivered | dispatched | exited | unlinked => exact .inl ⟨rfl, by simp, by simp⟩
      | recorded mail control link =>
          exact .inr (.inl ⟨mail, control, rfl, runLink_links x mail⟩)
      | spawned child link request call =>
          cases link with
          | false => exact .inl ⟨rfl, by simp, by simp⟩
          | true => exact .inr (.inr (.inl ⟨child, request, call, rfl, rfl, rfl⟩))
  | call act cause target mail d x' move =>
      rw [receives_links, receives_call]
      cases move with
      | send | spawnLink | schedule | notice => exact .inl ⟨rfl, by simp, by simp⟩
      | link target free valid =>
          have none := (free_control free).1
          dsimp only
          split
          · exact .inr (.inr (.inr ⟨target, _, _, none, none, rfl, rfl⟩))
          · exact .inl ⟨rfl, by simp, by simp⟩
  | called | outside => exact .inl ⟨receives_links _ _ _ _ _, by simp, by simp⟩
  | spawn name link free => exact .inl ⟨rfl, by simp, by simp⟩

/-- An entry that was recorded stays. -/
def Recorded (s : System) (b : InstanceId) (x : Actor) : Prop :=
  ∀ (u : Nat) l, s.trace[u]? = some (.linked b l) → l ∈ x.links

theorem recorded_step (inv : Everywhere Recorded s) (consistent : Consistent s)
    (h : Step toChars s act s') : Everywhere Recorded s' := by
  refine inv.step consistent.numbered ?_ ?_ h
  · rintro e b x after ⟨rfl, caller, link, name, handlers, rfl, rfl, -⟩
    intro u l logged
    cases after.only_created consistent.mentioned consistent.numbered logged rfl
  · intro e b x x' after hx recorded move u l logged
    rw [after.trace] at logged
    rcases move.links_cases with ⟨same, unlinked, -⟩ | ⟨mail, -, rfl, grown⟩ |
      ⟨child, request, -, rfl, -, grown⟩ | ⟨target, mail, d, -, -, rfl, grown⟩
    · rw [same]
      rcases log_add_iff.mp logged with old | ⟨-, new⟩
      · exact recorded u l old
      · exact absurd new (unlinked l)
    · rw [grown]
      rcases log_add_iff.mp logged with old | ⟨-, new⟩
      · exact List.mem_cons_of_mem _ (recorded u l old)
      · cases new
        exact List.mem_cons_self
    · rw [grown]
      rcases log_add_iff.mp logged with old | ⟨-, new⟩
      · exact List.mem_cons_of_mem _ (recorded u l old)
      · cases new
    · rw [grown]
      rcases log_add_iff.mp logged with old | ⟨-, new⟩
      · exact List.mem_cons_of_mem _ (recorded u l old)
      · cases new

end Recorded

section First
variable {toChars : Float → Bytes} {s s' : System} {act : Action} {x x' : Actor} {e : Event}
  {b : InstanceId} {tr : List Event} {mail mail' : Mail}

/-- The first mail posted to an instance. -/
def First (tr : List Event) (b : InstanceId) (mail : Mail) : Prop :=
  ∃ (t : Nat) (cause : Cause), tr[t]? = some (.queued cause (some b) mail .posted) ∧
    ∀ (t' : Nat) cause' mail', tr[t']? = some (.queued cause' (some b) mail' .posted) → t ≤ t'

theorem First.unique (h : First tr b mail) (h' : First tr b mail') : mail = mail' := by
  obtain ⟨t, cause, posted, first⟩ := h
  obtain ⟨t', cause', posted', first'⟩ := h'
  have same : t = t' := Nat.le_antisymm (first _ _ _ posted') (first' _ _ _ posted)
  subst same
  rw [posted] at posted'
  cases posted'
  rfl

theorem First.add (h : First tr b mail) (e : Event) : First (tr ++ [e]) b mail := by
  obtain ⟨t, cause, posted, first⟩ := h
  refine ⟨t, cause, log_old posted [e], fun t' cause' mail' posted' => ?_⟩
  rcases log_add_iff.mp posted' with old | ⟨rfl, -⟩
  · exact first t' cause' mail' old
  · exact Nat.le_of_lt (log_bound posted)

/-- The serial number of a mail is the time it was queued at. -/
def Stamped (tr : List Event) : Prop :=
  ∀ (t : Nat) cause target mail d, tr[t]? = some (.queued cause target mail d) → mail.serial = t

theorem stamped_step (inv : Stamped s.trace) (h : Step toChars s act s') : Stamped s'.trace := by
  obtain ⟨e, trace⟩ := h.logs
  intro t cause target mail d logged
  rw [trace] at logged
  rcases log_add_iff.mp logged with old | ⟨rfl, rfl⟩
  · exact inv t cause target mail d old
  · rcases h.queued_move trace with ⟨self, x, x', -, move⟩ | ⟨-, serial, -⟩
    · exact move.serial
    · exact serial

end First

section Opening
variable {toChars : Float → Bytes} {s s' : System} {act : Action} {x x' : Actor} {e : Event}
  {b : InstanceId} {tr : List Event} {mail : Mail}

/-- Nothing has run; the mailbox starts with the first mail. -/
structure Unopened (tr : List Event) (b : InstanceId) (x : Actor) : Prop where
  control : x.control = .idle
  ownsIo : x.ownsIo = false
  ran : ∀ (n : Nat) mail, tr[n]? ≠ some (.ran b mail)
  mailbox : (x.mailbox = [] ∧
      ∀ (t : Nat) cause mail, tr[t]? ≠ some (.queued cause (some b) mail .posted)) ∨
    ∃ mail rest, x.mailbox = mail :: rest ∧ First tr b mail

/-- The first mail has run; what ran besides it came after its link entry. -/
structure Opened (tr : List Event) (b : InstanceId) (x : Actor) (mail : Mail) : Prop where
  first : First tr b mail
  ran : ∀ (n : Nat) mail', tr[n]? = some (.ran b mail') → mail' = mail ∨
    (isLinkMsg mail.body = true → ∃ u, u < n ∧ tr[u]? = some (.linked b mail.link))
  recorded : isLinkMsg mail.body = true →
    x.control = .running mail ∨ ∃ u : Nat, tr[u]? = some (.linked b mail.link)

def Opening (s : System) (b : InstanceId) (x : Actor) : Prop :=
  Unopened s.trace b x ∨ ∃ mail, Opened s.trace b x mail

theorem receives_ownsIo (x : Actor) (b : InstanceId) (target : Handle) (mail : Mail)
    (d : Delivery) : (x.receives b target mail d).ownsIo = x.ownsIo := by
  unfold Actor.receives
  split <;> rfl

theorem reaches_iff {target : Handle} {d : Delivery} :
    reaches b target d = true ↔ target = some b ∧ d = .posted := by
  cases d <;> simp [reaches, Delivery.isPosted]

/-- What an actor that waits for mail can do. -/
theorem Local.of_idle {self : InstanceId} {now : Nat} (move : Local toChars self now x act e x')
    (idle : x.control = .idle) (sane : Sane x) :
    (∃ mail rest, x.mailbox = mail :: rest ∧ e = .ran self mail ∧
      x' = { x with mailbox := rest, control := .running mail }) ∨
    (x.ownsIo = true ∧ ∃ mail, e = .ran self mail) ∨
    e = .internal (some self) ∧ x' = { x with destroyed := true } := by
  have call := sane.call_none (by simp [idle]) (by simp [idle])
  cases move with
  | user u free => rcases (free_control free).2 with busy | ⟨_, _, _, busy⟩ <;> simp [idle] at busy
  | delivered mail rest control mailbox => exact .inl ⟨mail, rest, mailbox, rfl, rfl⟩
  | dispatched m control owns lives => exact .inr (.inl ⟨owns, _, rfl⟩)
  | destroyed control mailbox lifetime => exact .inr (.inr ⟨rfl, rfl⟩)
  | returned _ control | handlerThrew _ _ _ _ control | handlerReturned _ _ _ control
  | recorded _ control | passed _ control | message _ control | exited _ _ control
  | notified _ _ _ control | handler _ _ _ _ control | concluded _ _ control =>
      rw [idle] at control
      cases control
  | unlinked _ _ busy | spawned _ _ _ busy =>
      rw [call] at busy
      cases busy

theorem Calls.not_idle {self : InstanceId} {cause : Cause} {target : Handle} {mail : Mail}
    {d : Delivery} (move : Calls s self x act cause target mail d x') (sane : Sane x) :
    x.control ≠ .idle := by
  intro idle
  have call := sane.call_none (by simp [idle]) (by simp [idle])
  cases move with
  | send _ _ free | link _ free =>
      rcases (free_control free).2 with busy | ⟨_, _, _, busy⟩ <;> simp [idle] at busy
  | spawnLink _ busy | schedule _ _ _ busy =>
      rw [call] at busy
      cases busy
  | notice _ _ _ _ _ control =>
      rw [idle] at control
      cases control

/-- A mail that arrives goes behind those that wait. -/
theorem Unopened.receives (h : Unopened tr b x) (cause : Cause) (target : Handle) (mail : Mail)
    (d : Delivery) :
    Unopened (tr ++ [.queued cause target mail d]) b (x.receives b target mail d) where
  control := (receives_control x b target mail d).trans h.control
  ownsIo := (receives_ownsIo x b target mail d).trans h.ownsIo
  ran := fun n mail' logged => by
    rcases log_add_iff.mp logged with old | ⟨-, new⟩
    · exact h.ran n mail' old
    · cases new
  mailbox := by
    rw [receives_mailbox]
    rcases h.mailbox with ⟨empty, none⟩ | ⟨first, rest, waiting, early⟩
    · by_cases hit : reaches b target d = true
      · obtain ⟨rfl, rfl⟩ := reaches_iff.mp hit
        refine .inr ⟨mail, [], by simp [hit, empty], tr.length, cause, log_last tr _, ?_⟩
        intro t' cause' mail' logged
        rcases log_add_iff.mp logged with old | ⟨rfl, -⟩
        · exact absurd old (none t' cause' mail')
        · exact Nat.le_refl _
      · refine .inl ⟨by simp [hit, empty], fun t cause' mail' logged => ?_⟩
        rcases log_add_iff.mp logged with old | ⟨-, new⟩
        · exact none t cause' mail' old
        · cases new
          exact hit (reaches_iff.mpr ⟨rfl, rfl⟩)
    · by_cases hit : reaches b target d = true
      · exact .inr ⟨first, rest ++ [mail], by simp [hit, waiting], early.add _⟩
      · exact .inr ⟨first, rest, by simp [hit, waiting], early.add _⟩

/-- Nothing of the mailbox is touched. -/
theorem Unopened.keep (h : Unopened tr b x) (control : x'.control = x.control)
    (ownsIo : x'.ownsIo = x.ownsIo) (mailbox : x'.mailbox = x.mailbox)
    (unposted : ∀ cause target mail d, e ≠ .queued cause target mail d)
    (unrun : ∀ mail, e ≠ .ran b mail) : Unopened (tr ++ [e]) b x' where
  control := control.trans h.control
  ownsIo := ownsIo.trans h.ownsIo
  ran := fun n mail logged => by
    rcases log_add_iff.mp logged with old | ⟨-, new⟩
    · exact h.ran n mail old
    · exact unrun mail new
  mailbox := by
    rw [mailbox]
    rcases h.mailbox with ⟨empty, none⟩ | ⟨first, rest, waiting, early⟩
    · refine .inl ⟨empty, fun t cause mail logged => ?_⟩
      rcases log_add_iff.mp logged with old | ⟨-, new⟩
      · exact none t cause mail old
      · exact unposted _ _ _ _ new
    · exact .inr ⟨first, rest, waiting, early.add e⟩

theorem Unopened.step (h : Unopened s.trace b x) (sane : Sane x)
    (move : Moves toChars s b x act e x') :
    Unopened (s.trace ++ [e]) b x' ∨ ∃ mail, Opened (s.trace ++ [e]) b x' mail := by
  cases move with
  | other act e foreign unposted =>
      refine .inl (h.keep rfl rfl rfl unposted ?_)
      rintro mail rfl
      simp [Event.byItself] at foreign
  | act act e x' move =>
      rcases move.of_idle h.control sane with ⟨mail, rest, waiting, rfl, rfl⟩ | ⟨owns, -⟩ |
        ⟨rfl, rfl⟩
      · rcases h.mailbox with ⟨empty, -⟩ | ⟨first, rest', waiting', early⟩
        · rw [empty] at waiting
          cases waiting
        · rw [waiting'] at waiting
          cases waiting
          refine .inr ⟨_, early.add _, fun n mail' logged => ?_, fun _ => .inl rfl⟩
          rcases log_add_iff.mp logged with old | ⟨-, new⟩
          · exact absurd old (h.ran n mail')
          · cases new
            exact .inl rfl
      · rw [h.ownsIo] at owns
        cases owns
      · exact .inl (h.keep rfl rfl rfl (by simp) (by simp))
  | call act cause target mail d x' move => exact absurd h.control (move.not_idle sane)
  | called | outside => exact .inl (h.receives _ _ _ _)
  | spawn name link free =>
      rcases (free_control free).2 with busy | ⟨_, _, _, busy⟩ <;> simp [h.control] at busy

theorem Moves.ran_idle (move : Moves toChars s b x act (.ran b mail) x') : x.control = .idle := by
  cases move with
  | other act e foreign unposted => simp [Event.byItself] at foreign
  | act act e x' move =>
      generalize eq : Event.ran b mail = e at move
      cases move.postal with
      | quiet e x' quiet =>
          subst eq
          cases quiet.event
      | delivered _ _ control | dispatched _ control => exact control
      | recorded | exited | unlinked | spawned => cases eq

/-- A link message in hand is recorded by the next move of the actor. -/
theorem Moves.running_link (move : Moves toChars s b x act e x') (link : isLinkMsg mail.body = true)
    (running : x.control = .running mail) :
    x'.control = .running mail ∨ e = .linked b mail.link := by
  cases move with
  | other | spawn => exact .inl running
  | act act e x' move =>
      cases move.postal with
      | quiet e x' quiet =>
          have pending := quiet.pending mail link
          have held : x.running? = some mail := by simp [running?, running]
          rw [Actor.pending, Actor.pending, quiet.mailbox, if_pos held] at pending
          by_cases kept : x'.running? = some mail
          · exact .inl (running_control kept)
          · rw [if_neg kept] at pending
            omega
      | delivered _ _ control | dispatched _ control | exited _ _ control =>
          rw [running] at control
          cases control
      | recorded mail' control =>
          rw [running] at control
          cases control
          exact .inr rfl
      | unlinked | spawned => exact .inl running
  | call act cause target mail' d x' move =>
      rw [receives_control]
      cases move with
      | send | link | spawnLink | schedule => exact .inl running
      | notice _ _ _ _ _ control =>
          rw [running] at control
          cases control
  | called | outside =>
      rw [receives_control]
      exact .inl running

theorem Opened.step (h : Opened s.trace b x mail) (move : Moves toChars s b x act e x') :
    Opened (s.trace ++ [e]) b x' mail where
  first := h.first.add e
  ran := fun n mail' logged => by
    rcases log_add_iff.mp logged with old | ⟨rfl, rfl⟩
    · rcases h.ran n mail' old with same | later
      · exact .inl same
      · refine .inr fun link => ?_
        obtain ⟨u, before, recorded⟩ := later link
        exact ⟨u, before, log_old recorded _⟩
    · -- the actor was idle, so the first mail is no longer in its hands
      refine .inr fun link => ?_
      rcases h.recorded link with running | ⟨u, recorded⟩
      · rw [move.ran_idle] at running
        cases running
      · exact ⟨u, log_bound recorded, log_old recorded _⟩
  recorded := fun link => by
    rcases h.recorded link with running | ⟨u, recorded⟩
    · rcases move.running_link link running with still | rfl
      · exact .inl still
      · exact .inr ⟨_, log_last s.trace _⟩
    · exact .inr ⟨u, log_old recorded _⟩

theorem opening_step (inv : Everywhere Opening s) (consistent : Consistent s)
    (h : Step toChars s act s') : Everywhere Opening s' := by
  refine inv.step consistent.numbered ?_ ?_ h
  · rintro e b x after ⟨rfl, caller, link, name, handlers, rfl, rfl, -⟩
    refine .inl ⟨rfl, rfl, fun n mail logged => ?_, .inl ⟨rfl, fun t cause mail logged => ?_⟩⟩
    · cases after.only_created consistent.mentioned consistent.numbered logged rfl
    · cases after.only_created consistent.mentioned consistent.numbered logged (.inl rfl)
  · intro e b x x' after hx opening move
    unfold Opening
    rw [after.trace]
    rcases opening with unopened | ⟨mail, opened⟩
    · exact unopened.step (consistent.sane b x hx) move
    · exact .inr ⟨mail, opened.step move⟩

/-- An actor that exits has run its first mail, and found its entry if that was
a link message. -/
def ExitsOpened (s : System) : Prop :=
  ∀ (n : Nat) b m ls, s.trace[n]? = some (.exit b m ls) →
    ∃ mail, First s.trace b mail ∧ (isLinkMsg mail.body = true → ls.count mail.link = 1)

theorem exitsOpened_step (inv : ExitsOpened s) (opening : Everywhere Opening s)
    (recorded : Everywhere Recorded s) (stamped : Stamped s.trace) (accounted : Accounted s)
    (h : Step toChars s act s') : ExitsOpened s' := by
  obtain ⟨e, trace, -⟩ := h.moves accounted.consistent.numbered
  intro n b m ls exit
  rw [trace] at exit ⊢
  rcases log_add_iff.mp exit with old | ⟨-, rfl⟩
  · obtain ⟨mail, first, found⟩ := inv n b m ls old
    exact ⟨mail, first.add e, found⟩
  · obtain ⟨-, x, guarded, hx, control, rfl⟩ := h.exit_move trace
    rcases opening b x hx with unopened | ⟨mail, opened⟩
    · rw [unopened.control] at control
      cases control
    · refine ⟨mail, opened.first.add _, fun link => ?_⟩
      obtain ⟨t, cause, posted, -⟩ := opened.first
      have serial := stamped t cause _ mail _ posted
      subst serial
      have sum := accounted.counted b x hx cause mail posted link
      have entry : 0 < x.links.count mail.link := by
        rcases opened.recorded link with running | ⟨u, logged⟩
        · rw [control] at running
          cases running
        · exact List.count_pos_iff.mpr (recorded b x hx u _ logged)
      omega

end Opening

end Thespian.Runtime
