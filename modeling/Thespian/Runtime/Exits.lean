import Thespian.Runtime.Named

/-!
Executions of handle_exit. In_shutdown says whether there was one; the notices
sent by each are the links it found, in order, up to those its loop has still to
reach; and a notice that was not posted met a target that had exited.
-/

namespace Thespian.Runtime
open Cbor Actor Transition

section Shutdown
variable {toChars : Float → Bytes} {s s' : System} {act : Action} {x x' : Actor} {e : Event}
  {tr : List Event} {b : InstanceId}

def Exited (tr : List Event) (b : InstanceId) : Prop :=
  ∃ (n : Nat) (m : Bytes) (ls : List Link), tr[n]? = some (.exit b m ls)

theorem exited_add : Exited (tr ++ [e]) b ↔ Exited tr b ∨ ∃ m ls, e = .exit b m ls := by
  constructor
  · rintro ⟨n, m, ls, h⟩
    rcases log_add_iff.mp h with old | ⟨-, new⟩
    · exact .inl ⟨n, m, ls, old⟩
    · exact .inr ⟨m, ls, new⟩
  · rintro (⟨n, m, ls, h⟩ | ⟨m, ls, rfl⟩)
    · exact ⟨n, m, ls, log_old h _⟩
    · exact ⟨_, m, ls, log_last tr _⟩

theorem exited_add_other (h : ∀ m ls, e ≠ .exit b m ls) : Exited (tr ++ [e]) b ↔ Exited tr b := by
  rw [exited_add]
  exact or_iff_left (by rintro ⟨m, ls, new⟩; exact h m ls new)

theorem Calls.shutdown {self : InstanceId} {cause : Cause} {target : Handle} {mail : Mail}
    {d : Delivery} (move : Calls s self x act cause target mail d x') :
    x'.inShutdown = x.inShutdown := by
  cases move <;> rfl

theorem exit_of_quiet (h : e.isQuiet = true) (m : Bytes) (ls : List Link) : e ≠ .exit b m ls := by
  rintro rfl
  cases h

theorem Postal.shutdown {self : InstanceId} {now : Nat} (move : Postal self now x e x') :
    (∃ guarded m, x.control = .exits guarded m ∧ e = .exit self m x.links ∧
      x' = x.handleExit now guarded m) ∨
    x'.inShutdown = x.inShutdown ∧ ∀ m ls, e ≠ .exit self m ls := by
  cases move with
  | quiet e x' quiet => exact .inr ⟨quiet.inShutdown, exit_of_quiet quiet.event⟩
  | exited guarded m control => exact .inl ⟨guarded, m, control, rfl, rfl⟩
  | recorded mail control link => exact .inr ⟨runLink_inShutdown x mail, by simp⟩
  | delivered | dispatched | unlinked | spawned => exact .inr ⟨rfl, by simp⟩

/-- In_shutdown is set exactly by handle_exit. -/
def ShutdownKnown (s : System) (b : InstanceId) (x : Actor) : Prop :=
  x.inShutdown = true ↔ Exited s.trace b

theorem not_exit_of_foreign (h : e.byItself b = false) (m : Bytes) (ls : List Link) :
    e ≠ .exit b m ls := by
  rintro rfl
  simp [Event.byItself] at h

theorem shutdown_step (inv : Everywhere ShutdownKnown s) (numbered : Numbered s)
    (mentioned : Mentioned s) (h : Step toChars s act s') : Everywhere ShutdownKnown s' := by
  refine inv.step numbered ?_ ?_ h
  · rintro e b x after ⟨rfl, caller, link, name, handlers, rfl, rfl, -⟩
    refine iff_of_false (by simp) ?_
    rintro ⟨n, m, ls, logged⟩
    cases after.only_created mentioned numbered logged rfl
  · intro e b x x' after hx same move
    unfold ShutdownKnown at same ⊢
    rw [after.trace]
    cases move with
    | other act e foreign unposted =>
        rw [exited_add_other (not_exit_of_foreign foreign), same]
    | act act e x' move =>
        rcases move.postal.shutdown with ⟨guarded, m, -, rfl, rfl⟩ | ⟨kept, other⟩
        · exact iff_of_true rfl (exited_add.mpr (.inr ⟨m, x.links, rfl⟩))
        · rw [exited_add_other other, kept, same]
    | call act cause target mail d x' move =>
        rw [exited_add_other (by simp), receives_inShutdown, move.shutdown, same]
    | called | outside => rw [exited_add_other (by simp), receives_inShutdown, same]
    | spawn name link free =>
        rw [exited_add_other (by simp)]
        exact same

end Shutdown

section Notices
variable {toChars : Float → Bytes} {s s' : System} {act : Action} {x x' : Actor} {e : Event}
  {tr : List Event} {b : InstanceId}

theorem Looping.grow (h : Looping s b x) (trace : s'.trace = s.trace ++ [e])
    (control : x'.control = x.control) (links : x.links ⊆ x'.links) : Looping s' b x' := by
  constructor
  · intro n guarded m rest hc
    rw [control] at hc
    exact fun l hl => links (h.rest n guarded m rest hc hl)
  · intro n guarded m rest hc
    rw [control] at hc
    obtain ⟨ls, logged⟩ := h.exit n guarded m rest hc
    exact ⟨ls, by rw [trace]; exact log_old logged [e]⟩

theorem looping_of_control (h : ∀ n guarded m rest, x.control ≠ .notifying n guarded m rest) :
    Looping s b x :=
  ⟨fun n guarded m rest hc => absurd hc (h n guarded m rest),
    fun n guarded m rest hc => absurd hc (h n guarded m rest)⟩

theorem looping_step (inv : Everywhere Looping s) (numbered : Numbered s)
    (h : Step toChars s act s') : Everywhere Looping s' := by
  refine inv.step numbered ?_ ?_ h
  · rintro e b x after ⟨rfl, caller, link, name, handlers, -, rfl, -⟩
    exact looping_of_control (by simp)
  · intro e b x x' after hx looping move
    have same {y : Actor} (control : y.control = x.control) (links : x.links ⊆ y.links) :
        Looping s' b y := looping.grow after.trace control links
    cases move with
    | other => exact same rfl fun _ hl => hl
    | act act e x' move =>
        cases move.postal with
        | quiet e x' quiet => exact looping_of_control quiet.notifying
        | delivered | dispatched => exact looping_of_control (by simp)
        | recorded mail control link =>
            rcases runLink_control x mail with next | next <;>
              exact looping_of_control (by simp [next])
        | exited guarded m control =>
            refine ⟨?_, ?_⟩ <;> intro n guarded' m' rest hc <;> cases hc
            · exact fun _ hl => hl
            · exact ⟨x.links, by rw [after.trace]; exact log_last s.trace _⟩
        | unlinked child link call skipped => exact same rfl fun _ hl => hl
        | spawned child link request call =>
            refine same rfl ?_
            dsimp only
            split
            · exact List.subset_cons_self _ _
            · exact fun _ hl => hl
    | call act cause target mail d x' move =>
        cases move with
        | send | spawnLink | schedule =>
            exact same (receives_control _ _ _ _ _) (by rw [receives_links]; exact fun _ hl => hl)
        | link target free valid =>
            refine same (receives_control _ _ _ _ _) ?_
            rw [receives_links]
            dsimp only
            split
            · exact List.subset_cons_self _ _
            · exact fun _ hl => hl
        | notice n guarded m l rest control =>
            obtain ⟨ls, logged⟩ := looping.exit n guarded m _ control
            have subset := looping.rest n guarded m _ control
            constructor
            · intro n' guarded' m' rest' hc
              rw [receives_control] at hc
              cases hc
              rw [receives_links]
              exact fun l' hl => subset (List.mem_cons_of_mem l hl)
            · intro n' guarded' m' rest' hc
              rw [receives_control] at hc
              cases hc
              exact ⟨ls, by rw [after.trace]; exact log_old logged _⟩
    | called | outside =>
        exact same (receives_control _ _ _ _ _) (by rw [receives_links]; exact fun _ hl => hl)
    | spawn name link free => exact same rfl fun _ hl => hl

/-- The links notified by the given execution of handle_exit, with what was sent where. -/
def Event.notice? (n : Nat) : Event → Option (Link × Handle × Bytes)
  | .queued (.notice k l) target mail _ => if k = n then some (l, target, mail.body) else none
  | _ => none

def noticesOf (n : Nat) (tr : List Event) : List (Link × Handle × Bytes) :=
  tr.filterMap (Event.notice? n)

/-- What the loop of handle_exit sends for a link. -/
def noticeFor (m : Bytes) (l : Link) : Link × Handle × Bytes := (l, l.peer, m)

theorem noticesOf_add (n : Nat) : noticesOf n (tr ++ [e]) =
    noticesOf n tr ++ (e.notice? n).toList := by
  rw [noticesOf, List.filterMap_append]
  cases h : e.notice? n <;> simp [noticesOf, h]

theorem noticesOf_other {n : Nat} (h : e.notice? n = none) :
    noticesOf n (tr ++ [e]) = noticesOf n tr := by
  rw [noticesOf_add, h]
  exact List.append_nil _

/-- A notice was sent by the exit it names; one that was not posted met a target
that had exited before. -/
def NoticesSound (s : System) : Prop :=
  ∀ (t n : Nat) l target mail d, s.trace[t]? = some (.queued (.notice n l) target mail d) →
    target = l.peer ∧ n < t ∧
    (∃ self ls, s.trace[n]? = some (.exit self mail.body ls) ∧ mail = ⟨some self, mail.body, t⟩) ∧
    (d.isPosted = false → ∀ p, target = some p →
      ∃ (u : Nat) (m : Bytes) (ls : List Link), u < t ∧ s.trace[u]? = some (.exit p m ls))

theorem sendRaw_dead {current : Handle} {p : InstanceId} {m : Bytes} (hx : s.actors p = some x)
    (h : (s.sendRaw current (some p) m).isPosted = false) :
    x.destroyed = true ∨ x.inShutdown = true := by
  cases gone : x.destroyed with
  | true => exact .inl rfl
  | false =>
      cases shutdown : x.inShutdown with
      | true => exact .inr rfl
      | false => simp [System.sendRaw, System.queue, hx, gone, shutdown, Delivery.isPosted] at h

theorem noticesSound_step (sound : NoticesSound s) (sane : Everywhere (fun _ _ x => Sane x) s)
    (named : Everywhere Named s) (shutdown : Everywhere ShutdownKnown s)
    (looping : Everywhere Looping s) (h : Step toChars s act s') : NoticesSound s' := by
  obtain ⟨e, trace⟩ := h.logs
  intro t n l target mail d logged
  rw [trace] at logged ⊢
  rcases log_add_iff.mp logged with old | ⟨rfl, rfl⟩
  · obtain ⟨peer, before, ⟨self, ls, exit, from_⟩, dead⟩ := sound t n l target mail d old
    refine ⟨peer, before, ⟨self, ls, log_old exit _, from_⟩, fun unposted p hp => ?_⟩
    obtain ⟨u, m, ls', earlier, gone⟩ := dead unposted p hp
    exact ⟨u, m, ls', earlier, log_old gone _⟩
  · rcases h.queued_move trace with ⟨self, x, x', hx, move⟩ | ⟨-, -, other⟩
    · cases move with
      | notice n guarded m l rest control =>
          obtain ⟨ls, exit⟩ := (looping self x hx).exit _ _ _ _ control
          refine ⟨rfl, log_bound exit, ⟨self, ls, log_old exit _, rfl⟩, fun unposted p hp => ?_⟩
          obtain ⟨y, hy⟩ := (named self x hx).links l
            ((looping self x hx).rest _ _ _ _ control List.mem_cons_self) p hp
          rw [hp] at unposted
          have leaving : y.inShutdown = true := by
            rcases sendRaw_dead hy unposted with destroyed | leaving
            · exact (sane p y hy).destroyed destroyed
            · exact leaving
          obtain ⟨u, m, ls', gone⟩ := (shutdown p y hy).mp leaving
          exact ⟨u, m, ls', log_bound gone, log_old gone _⟩
    · rcases other with other | other <;> cases other

/-- Each execution of handle_exit has notified the links it found, in order, up
to those its loop has still to reach. -/
def LoopExact (s : System) (b : InstanceId) (x : Actor) : Prop :=
  ∀ (n : Nat) m ls, s.trace[n]? = some (.exit b m ls) →
    noticesOf n s.trace ++ (x.remaining n).map (noticeFor m) = ls.map (noticeFor m)

theorem notice?_of_quiet (h : e.isQuiet = true) (n : Nat) : e.notice? n = none := by
  cases e <;> first | rfl | cases h

theorem noticesOf_now (sound : NoticesSound s) : noticesOf s.now s.trace = [] := by
  rw [noticesOf, List.filterMap_eq_nil_iff]
  intro e he
  obtain ⟨t, logged⟩ := List.mem_iff_getElem?.mp he
  unfold Event.notice?
  split
  · rename_i k l target mail d
    obtain ⟨-, before, -, -⟩ := sound t k l target mail d logged
    have early := log_bound logged
    rw [if_neg (by unfold System.now; omega)]
  · rfl

theorem LoopExact.keep (h : LoopExact s b x) (trace : s'.trace = s.trace ++ [e])
    (silent : ∀ n m ls, s.trace[n]? = some (.exit b m ls) → e.notice? n = none)
    (other : ∀ m ls, e ≠ .exit b m ls) (remaining : ∀ n, x'.remaining n = x.remaining n) :
    LoopExact s' b x' := by
  intro n m ls logged
  rw [trace] at logged
  rcases log_add_iff.mp logged with old | ⟨-, new⟩
  · rw [trace, noticesOf_other (silent n m ls old), remaining]
    exact h n m ls old
  · exact absurd new (other m ls)

theorem loopExact_step (inv : Everywhere LoopExact s) (sound : NoticesSound s)
    (looping : Everywhere Looping s) (mentioned : Mentioned s) (numbered : Numbered s)
    (h : Step toChars s act s') : Everywhere LoopExact s' := by
  refine inv.step numbered ?_ ?_ h
  · rintro e b x after ⟨rfl, caller, link, name, handlers, rfl, rfl, -⟩
    intro n m ls logged
    cases after.only_created mentioned numbered logged rfl
  · intro e b x x' after hx exact move
    cases move with
    | other act e foreign unposted =>
        refine exact.keep after.trace (fun n _ _ _ => ?_) (not_exit_of_foreign foreign) fun _ => rfl
        unfold Event.notice?
        split
        · exact absurd rfl (unposted _ _ _ _)
        · rfl
    | act act e x' move =>
        cases move.postal with
        | quiet e x' quiet =>
            exact exact.keep after.trace (fun n _ _ _ => notice?_of_quiet quiet.event n)
              (exit_of_quiet quiet.event) quiet.remaining
        | delivered mail rest control mailbox =>
            exact exact.keep after.trace (fun _ _ _ _ => rfl) (by simp)
              (by simp [remaining, control])
        | dispatched m control owns lives =>
            exact exact.keep after.trace (fun _ _ _ _ => rfl) (by simp)
              (by simp [remaining, control])
        | recorded mail control link =>
            refine exact.keep after.trace (fun _ _ _ _ => rfl) (by simp) fun n => ?_
            rcases runLink_control x mail with next | next <;> simp [remaining, control, next]
        | exited guarded m control =>
            intro n m' ls logged
            rw [after.trace] at logged ⊢
            rw [noticesOf_other rfl]
            have idle : x.remaining n = [] := by simp [remaining, control]
            rcases log_add_iff.mp logged with old | ⟨rfl, new⟩
            · have apart : s.now ≠ n := Nat.ne_of_gt (log_bound old)
              have before := exact n m' ls old
              rw [idle] at before
              simpa [remaining, handleExit, apart] using before
            · cases new
              have none : noticesOf s.trace.length s.trace = [] := noticesOf_now sound
              simp [none, remaining, handleExit, System.now]
        | unlinked child link call skipped =>
            exact exact.keep after.trace (fun _ _ _ _ => rfl) (by simp) fun _ => rfl
        | spawned child link request call =>
            exact exact.keep after.trace (fun _ _ _ _ => rfl) (by simp) fun _ => rfl
    | call act cause target mail d x' move =>
        cases move with
        | notice n guarded m l rest control =>
            obtain ⟨ls', started⟩ := (looping b x hx).exit _ _ _ _ control
            intro k m' ls logged
            rw [after.trace] at logged ⊢
            rcases log_add_iff.mp logged with old | ⟨-, new⟩
            · have before := exact k m' ls old
              rw [noticesOf_add, receives_remaining]
              by_cases same : n = k
              · subst same
                rw [started] at old
                cases old
                simp only [remaining, control, if_true] at before ⊢
                rw [← before]
                simp [Event.notice?, noticeFor]
              · simp only [remaining, control, if_neg same] at before ⊢
                simpa [Event.notice?, same] using before
            · cases new
        | send | link | spawnLink | schedule =>
            exact exact.keep after.trace (fun _ _ _ _ => rfl) (by simp) fun n =>
              receives_remaining _ _ _ _ _ n
    | called self y y' act cause target mail d foreign hy move =>
        refine exact.keep after.trace (fun n m ls logged => ?_) (by simp) fun n =>
          receives_remaining _ _ _ _ _ n
        cases move with
        | notice k guarded m' l rest control =>
            obtain ⟨ls', started⟩ := (looping self y hy).exit _ _ _ _ control
            have apart : k ≠ n := by
              rintro rfl
              rw [started] at logged
              cases logged
              exact foreign rfl
            simp [Event.notice?, apart]
        | send | link | spawnLink | schedule => rfl
    | outside act cause target m d either =>
        refine exact.keep after.trace (fun n _ _ _ => ?_) (by simp) fun n =>
          receives_remaining _ _ _ _ _ n
        rcases either with ⟨-, rfl, -⟩ | ⟨child, -, -, rfl, -⟩ <;> rfl
    | spawn name link free =>
        exact exact.keep after.trace (fun _ _ _ _ => rfl) (by simp) fun _ => rfl

end Notices

section Consistent
variable {toChars : Float → Bytes} {s s' : System}

/-- What holds in every state of every run. -/
structure Consistent (s : System) : Prop where
  numbered : Numbered s
  sane : Everywhere (fun _ _ x => Sane x) s
  named : Everywhere Named s
  looping : Everywhere Looping s
  mentioned : Mentioned s
  shutdown : Everywhere ShutdownKnown s
  sound : NoticesSound s
  loops : Everywhere LoopExact s

theorem everywhere_initial (Φ : System → InstanceId → Actor → Prop) : Everywhere Φ .initial := by
  intro b x hx
  have none : System.initial.actors b = none := rfl
  rw [none] at hx
  cases hx

theorem consistent_initial : Consistent .initial where
  numbered := fun _ _ => rfl
  sane := everywhere_initial _
  named := everywhere_initial _
  looping := everywhere_initial _
  mentioned := ⟨by simp [System.initial], by simp [System.initial]⟩
  shutdown := everywhere_initial _
  sound := by simp [NoticesSound, System.initial]
  loops := everywhere_initial _

theorem Consistent.step {act : Action} (inv : Consistent s) (h : Step toChars s act s') :
    Consistent s' where
  numbered := h.numbered inv.numbered
  sane := sane_step inv.sane inv.numbered h
  named := named_step inv.named inv.numbered h
  looping := looping_step inv.looping inv.numbered h
  mentioned := mentioned_step inv.mentioned inv.named inv.looping h
  shutdown := shutdown_step inv.shutdown inv.numbered inv.mentioned h
  sound := noticesSound_step inv.sound inv.sane inv.named inv.shutdown inv.looping h
  loops := loopExact_step inv.loops inv.sound inv.looping inv.mentioned inv.numbered h

theorem Local.advance_of_exit {act : Action} {self b : InstanceId} {now : Nat} {x x' : Actor}
    {e : Event} {m : Bytes} {ls : List Link} (move : Local toChars self now x act e x')
    (h : e = .exit b m ls) : act = .advance self := by
  cases move <;> first | rfl | cases h

/-- An execution of handle_exit that was just logged is the step of its actor. -/
theorem Step.exit_move {act : Action} {b : InstanceId} {m : Bytes} {ls : List Link}
    (h : Step toChars s act s') (logged : s'.trace = s.trace ++ [.exit b m ls]) :
    act = .advance b ∧
      ∃ x guarded, s.actors b = some x ∧ x.control = .exits guarded m ∧ ls = x.links := by
  obtain ⟨x, x', hx, move⟩ := h.own_move (b := b) logged (by simp [Event.byItself]) (by simp)
  rcases move.postal.shutdown with ⟨guarded, m', control, eq, -⟩ | ⟨-, other⟩
  · have advance := move.advance_of_exit rfl
    cases eq
    exact ⟨advance, x, guarded, hx, control, rfl⟩
  · exact absurd rfl (other m ls)

theorem consistent_keeps : Keeps (step toChars) (fun _ _ => True) Consistent :=
  fun _ _ _ inv _ h => inv.step (step_sound h)

theorem consistent_of_run {acts : List Action} (h : run (step toChars) .initial acts = some s) :
    Consistent s :=
  consistent_keeps.run consistent_initial (along_true acts) h

end Consistent

end Thespian.Runtime
