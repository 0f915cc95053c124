import Thespian.Runtime.Mailbox

/-!
The call of spawn. Only the creator of an instance is inside the call that
creates it; it cannot exit there; the link message is the first thing the call
sends, and a live caller is not told of the child unless it was queued. The
caller's half of the link is recorded once, when the call returns.
-/

namespace Thespian.Runtime
open Cbor Actor Transition

section Origins
variable {toChars : Float → Bytes} {s s' : System} {act : Action} {x x' : Actor} {e : Event}
  {a b c : InstanceId}

/-- How the call an actor is inside of can change. -/
theorem Moves.call_cases (move : Moves toChars s b x act e x') :
    x'.call = x.call ∨ x'.call = .none ∨
    (∃ child link, x.call = .spawn child link .created ∧ ¬ (link = true ∧ x.lifetime = true) ∧
      x'.call = .spawn child link (.linked none)) ∨
    (∃ child d, x.call = .spawn child true .created ∧
      x'.call = .spawn child true (.linked (some s.now)) ∧
      d = s.queue (some b) (some b) child linkMsg ∧ d.isOk = true ∧
      e = .queued .spawnLink (some child) ⟨some b, linkMsg, s.now⟩ d) ∨
    (∃ child link request, x.call = .spawn child link (.linked request) ∧
      x'.call = .spawn child link (.scheduled request)) ∨
    ∃ link, x'.call = .spawn s.nextInstanceId link .created ∧
      e = .created s.nextInstanceId (some b) link [] := by
  cases move with
  | other => exact .inl rfl
  | act act e x' move =>
      cases move.postal with
      | quiet e x' quiet => exact .inl quiet.call
      | delivered | dispatched | exited => exact .inl rfl
      | recorded mail control link => exact .inl (runLink_call x mail)
      | unlinked child link call skipped =>
          exact .inr (.inr (.inl ⟨child, link, call, skipped, rfl⟩))
      | spawned => exact .inr (.inl rfl)
  | call act cause target mail d x' move =>
      rw [receives_call]
      cases move with
      | send | link | notice => exact .inl rfl
      | spawnLink child call lifetime =>
          dsimp only
          split
          · rename_i accepted
            exact .inr (.inr (.inr (.inl ⟨child, _, call, rfl, rfl, accepted, rfl⟩)))
          · exact .inr (.inl rfl)
      | schedule child link request call =>
          dsimp only
          split
          · exact .inr (.inr (.inr (.inr (.inl ⟨child, link, request, call, rfl⟩))))
          · exact .inr (.inl rfl)
  | called | outside => exact .inl (receives_call _ _ _ _ _)
  | spawn name link free => exact .inr (.inr (.inr (.inr (.inr ⟨link, rfl, rfl⟩))))

theorem Moves.call_origin {link : Bool} {stage : SpawnStage} (move : Moves toChars s b x act e x')
    (call : x'.call = .spawn c link stage) :
    (∃ stage', x.call = .spawn c link stage' ∧ (stage = .created → stage' = .created)) ∨
    c = s.nextInstanceId ∧ stage = .created ∧ e = .created c (some b) link [] := by
  rcases move.call_cases with same | none | ⟨child, link', before, -, now⟩ |
    ⟨child, d, before, now, -⟩ | ⟨child, link', request, before, now⟩ | ⟨link', now, rfl⟩
  · exact .inl ⟨stage, same.symm.trans call, id⟩
  · rw [none] at call
    cases call
  · rw [now] at call
    cases call
    exact .inl ⟨_, before, nofun⟩
  · rw [now] at call
    cases call
    exact .inl ⟨_, before, nofun⟩
  · rw [now] at call
    cases call
    exact .inl ⟨_, before, nofun⟩
  · rw [now] at call
    cases call
    exact .inr ⟨rfl, rfl, rfl⟩

theorem Local.not_created {self : InstanceId} {now : Nat} (move : Local toChars self now x act e x')
    (c : InstanceId) (caller : Handle) (link : Bool) (hs : List ExitHandler) :
    e ≠ .created c caller link hs := by
  rintro rfl
  cases move.postal with
  | quiet e x' quiet => cases quiet.event

/-- The child of an open call of spawn was created by the caller. -/
def Parent (s : System) (a : InstanceId) (x : Actor) : Prop :=
  ∀ c link stage, x.call = .spawn c link stage →
    ∃ (i : Nat) (hs : List ExitHandler), s.trace[i]? = some (.created c (some a) link hs)

/-- Instances are created once, and those the context waits for have no parent. -/
structure CreatedOnce (s : System) : Prop where
  unique : ∀ (i i' : Nat) c caller link hs caller' link' hs',
    s.trace[i]? = some (.created c caller link hs) →
    s.trace[i']? = some (.created c caller' link' hs') → i = i'
  outside : ∀ c ∈ s.outside,
    ∃ (i : Nat) (hs : List ExitHandler), s.trace[i]? = some (.created c none false hs)

theorem parent_step (inv : Everywhere Parent s) (numbered : Numbered s)
    (h : Step toChars s act s') : Everywhere Parent s' := by
  refine inv.step numbered ?_ ?_ h
  · rintro e b x after ⟨rfl, caller, link, name, handlers, -, rfl, -⟩
    intro c link' stage call
    cases call
  · intro e b x x' after hx parent move c link stage call
    rcases move.call_origin call with ⟨stage', before, -⟩ | ⟨rfl, -, rfl⟩
    · obtain ⟨i, hs, logged⟩ := parent c link stage' before
      exact ⟨i, hs, by rw [after.trace]; exact log_old logged [e]⟩
    · exact ⟨s.trace.length, [], by rw [after.trace]; exact log_last s.trace _⟩

theorem createdOnce_step (inv : CreatedOnce s) (consistent : Consistent s)
    (h : Step toChars s act s') : CreatedOnce s' := by
  have unknown {n : Nat} {caller : Handle} {link : Bool} {hs : List ExitHandler}
      (logged : s.trace[n]? = some (.created s.nextInstanceId caller link hs)) : False :=
    consistent.mentioned.unlogged consistent.numbered logged (.inl rfl)
  have unique (e : Event) (trace : s'.trace = s.trace ++ [e])
      (new : ∀ c caller link hs, e = .created c caller link hs → c = s.nextInstanceId) :
      ∀ (i i' : Nat) c caller link hs caller' link' hs',
        s'.trace[i]? = some (.created c caller link hs) →
        s'.trace[i']? = some (.created c caller' link' hs') → i = i' := by
    intro i i' c caller link hs caller' link' hs' first second
    rw [trace] at first second
    rcases log_add_iff.mp first with old | ⟨rfl, rfl⟩
    · rcases log_add_iff.mp second with old' | ⟨rfl, rfl⟩
      · exact inv.unique i i' c caller link hs caller' link' hs' old old'
      · obtain rfl := new c caller' link' hs' rfl
        exact (unknown old).elim
    · rcases log_add_iff.mp second with old' | ⟨rfl, -⟩
      · obtain rfl := new c caller link hs rfl
        exact (unknown old').elim
      · rfl
  have outside (e : Event) (trace : s'.trace = s.trace ++ [e]) {c : InstanceId}
      (member : c ∈ s.outside) :
      ∃ (i : Nat) (hs : List ExitHandler), s'.trace[i]? = some (.created c none false hs) := by
    obtain ⟨i, hs, logged⟩ := inv.outside c member
    exact ⟨i, hs, by rw [trace]; exact log_old logged [e]⟩
  cases h with
  | act self x x' act e hx move =>
      refine ⟨unique e rfl ?_, fun c hc => outside e rfl hc⟩
      intro c caller link hs created
      exact absurd created (move.not_created c caller link hs)
  | call self x x' act cause target mail d hx move =>
      refine ⟨unique _ (post_trace _ _ _ _) nofun, fun c hc => outside _ (post_trace _ _ _ _) ?_⟩
      rw [post_outside] at hc
      exact hc
  | spawn self x name link hx free =>
      refine ⟨unique _ rfl ?_, fun c hc => outside _ rfl hc⟩
      intro c caller link' hs eq
      cases eq
      rfl
  | outsideSend target m valid =>
      refine ⟨unique _ (post_trace _ _ _ _) nofun, fun c hc => outside _ (post_trace _ _ _ _) ?_⟩
      rw [post_outside] at hc
      exact hc
  | contextSpawn name handler =>
      refine ⟨unique _ rfl ?_, ?_⟩
      · intro c caller link' hs eq
        cases eq
        rfl
      · intro c hc
        rcases List.mem_cons.mp hc with rfl | old
        · exact ⟨s.trace.length, handler.toList, log_last s.trace _⟩
        · exact outside _ rfl old
  | schedule child waiting =>
      refine ⟨unique _ (post_trace _ _ _ _) nofun, fun c hc => outside _ (post_trace _ _ _ _) ?_⟩
      rw [post_outside] at hc
      exact List.mem_of_mem_erase hc

end Origins

section ParentHalf
variable {toChars : Float → Bytes} {s s' : System} {act : Action} {x x' : Actor} {e : Event}
  {a b c : InstanceId}

/-- The parent's half of a link. -/
def childLink (c : InstanceId) (k : Nat) : Link := ⟨some c, some k, .caller⟩

/-- The parent records its child once, when spawn returns. -/
structure ParentHalf (s : System) (a : InstanceId) (x : Actor) : Prop where
  open_ : ∀ c link stage k, x.call = .spawn c link stage →
    stage = .linked (some k) ∨ stage = .scheduled (some k) → x.links.count (childLink c k) = 0
  done : ∀ (j : Nat) c k, s.trace[j]? = some (.spawned a c true (some k)) →
    x.links.count (childLink c k) = 1

theorem Dated.count_childLink {now : Nat} (h : Dated now x) (c : InstanceId) :
    x.links.count (childLink c now) = 0 := by
  refine List.count_eq_zero.mpr fun member => ?_
  exact Nat.lt_irrefl now (h.links _ member now rfl)

theorem ParentHalf.keep (h : ParentHalf s a x) (after : After s e s')
    (silent : ∀ c request, e ≠ .spawned a c true request)
    (count : ∀ c k, 0 < x.links.count (childLink c k) ∨ x'.call ≠ .none →
      x'.links.count (childLink c k) = x.links.count (childLink c k))
    (dated : Dated s.now x) (move : Moves toChars s a x act e x') : ParentHalf s' a x' := by
  constructor
  · intro c link stage k call hk
    have before := count c k (.inr (by simp [call]))
    rw [before]
    rcases move.call_cases with same | none | ⟨child, link', -, -, now⟩ |
      ⟨child, d, -, now, -⟩ | ⟨child, link', request, was, now⟩ | ⟨link', now, -⟩
    · exact h.open_ c link stage k (same.symm.trans call) hk
    · rw [none] at call
      cases call
    · rw [now] at call
      cases call
      rcases hk with hk | hk <;> cases hk
    · rw [now] at call
      cases call
      rcases hk with hk | hk <;> cases hk
      exact dated.count_childLink c
    · rw [now] at call
      cases call
      rcases hk with hk | hk <;> cases hk
      exact h.open_ _ _ _ k was (.inl rfl)
    · rw [now] at call
      cases call
      rcases hk with hk | hk <;> cases hk
  · intro j c k logged
    rw [after.trace] at logged
    rcases log_add_iff.mp logged with old | ⟨-, new⟩
    · have one := h.done j c k old
      rw [count c k (.inl (by omega)), one]
    · exact absurd new (silent c (some k))

theorem parentHalf_step (inv : Everywhere ParentHalf s)
    (dated : Everywhere (fun s _ x => Dated s.now x) s) (consistent : Consistent s)
    (h : Step toChars s act s') : Everywhere ParentHalf s' := by
  refine inv.step consistent.numbered ?_ ?_ h
  · rintro e b x after ⟨rfl, caller, link, name, handlers, rfl, rfl, -⟩
    refine ⟨fun c link stage k call => (by cases call), fun j c k logged => ?_⟩
    cases after.only_created consistent.mentioned consistent.numbered logged (.inl rfl)
  · intro e b x x' after hx half move
    have dated := dated b x hx
    dsimp only at dated
    rcases move.links_cases with ⟨same, -, silent⟩ | ⟨mail, -, rfl, grown⟩ |
      ⟨child, request, call, rfl, none, grown⟩ | ⟨target, mail, d, none, none', rfl, grown⟩
    · exact half.keep after silent (fun c k _ => by rw [same]) dated move
    · refine half.keep after (by simp) (fun c k _ => ?_) dated move
      rw [grown]
      refine List.count_cons_of_ne fun eq => ?_
      have sides : Side.callee = Side.caller := congrArg Link.side eq
      cases sides
    · -- spawn returns: the entry it adds was not there before
      refine ⟨fun c link stage k call' => (by rw [none] at call'; cases call'), ?_⟩
      intro j c k logged
      rw [after.trace] at logged
      rw [grown]
      rcases log_add_iff.mp logged with old | ⟨-, new⟩
      · have one := half.done j c k old
        have apart : (⟨some child, request, .caller⟩ : Link) ≠ childLink c k := by
          intro eq
          have same : child = c := Option.some.inj (congrArg Link.peer eq)
          have asked : request = some k := congrArg Link.request eq
          subst same asked
          have zero := half.open_ child true _ k call (.inr rfl)
          omega
        rw [List.count_cons_of_ne apart, one]
      · cases new
        have zero := half.open_ _ true _ k call (.inr rfl)
        exact List.count_cons_self.trans (congrArg (· + 1) zero)
    · refine half.keep after (by simp) (fun c k occurs => ?_) dated move
      rw [grown]
      refine List.count_cons_of_ne fun eq => ?_
      have asked : s.now = k := Option.some.inj (congrArg Link.request eq)
      subst asked
      have zero := dated.count_childLink c
      rcases occurs with some | busy
      · omega
      · exact busy none'

end ParentHalf

section Returns
variable {toChars : Float → Bytes} {s s' : System} {act : Action} {x x' : Actor} {e : Event}
  {a b c : InstanceId}

theorem Moves.exit_call {m : Bytes} {ls : List Link} (sane : Sane x)
    (move : Moves toChars s b x act (.exit b m ls) x') : x'.call = .none := by
  cases move with
  | other act e foreign unposted => simp [Event.byItself] at foreign
  | act act e x' move =>
      rcases move.postal.shutdown with ⟨guarded, m', control, -, rfl⟩ | ⟨-, other⟩
      · exact sane.call_none (by simp [control]) (by simp [control])
      · exact absurd rfl (other m ls)

/-- An actor does not exit inside its call of spawn. -/
def Uninterrupted (s : System) (a : InstanceId) (x : Actor) : Prop :=
  ∀ c link stage (i n : Nat) caller link' hs m ls, x.call = .spawn c link stage →
    s.trace[i]? = some (.created c caller link' hs) → s.trace[n]? = some (.exit a m ls) → n < i

theorem uninterrupted_step (inv : Everywhere Uninterrupted s) (consistent : Consistent s)
    (h : Step toChars s act s') : Everywhere Uninterrupted s' := by
  refine inv.step consistent.numbered ?_ ?_ h
  · rintro e b x after ⟨rfl, caller, link, name, handlers, -, rfl, -⟩
    intro c link' stage i n caller' link'' hs m ls call
    cases call
  · intro e b x x' after hx whole move c link stage i n caller link' hs m ls call created exit
    rw [after.trace] at created exit
    rcases log_add_iff.mp exit with old | ⟨-, rfl⟩
    · rcases log_add_iff.mp created with old' | ⟨rfl, -⟩
      · rcases move.call_origin call with ⟨stage', before, -⟩ | ⟨rfl, -, -⟩
        · exact whole c link stage' i n caller link' hs m ls before old' old
        · exact absurd (.inl rfl) (consistent.mentioned.unlogged consistent.numbered old')
      · exact log_bound old
    · rw [move.exit_call (consistent.sane b x hx)] at call
      cases call

theorem Moves.alive (move : Moves toChars s b x act e x') (h : x'.inShutdown = false) :
    x.inShutdown = false := by
  cases move with
  | other | spawn => exact h
  | act act e x' move =>
      rcases move.postal.shutdown with ⟨guarded, m, -, -, rfl⟩ | ⟨same, -⟩
      · cases h
      · exact same.symm.trans h
  | call act cause target mail d x' move =>
      rw [receives_inShutdown, move.shutdown] at h
      exact h
  | called | outside =>
      rw [receives_inShutdown] at h
      exact h

/-- A live actor learns when its link message was not queued. -/
theorem queue_linkMsg {sender : Handle} (hx : s.actors b = some x) (alive : x.inShutdown = false)
    (ok : (s.queue (some b) sender c linkMsg).isOk = true) :
    s.queue (some b) sender c linkMsg = .posted := by
  have dead : (Delivery.dead (s.deadsend (some b) linkMsg sender)).isOk = false := by
    have other : matchBuffer linkMsg (.cons (.string (text "exit")) (.last (.type .more))) =
        .ok (false, []) := rfl
    simp only [System.deadsend, Option.bind_some, hx, alive, other]
    rfl
  unfold System.queue at ok ⊢
  split at ok
  · rw [dead] at ok
    cases ok
  · split at ok
    · rw [dead] at ok
      cases ok
    · exact if_neg ‹_›

/-- The link message of a live parent was queued before spawn goes on. -/
def Requested (s : System) (a : InstanceId) (x : Actor) : Prop :=
  ∀ c stage request, x.call = .spawn c true stage →
    stage = .linked request ∨ stage = .scheduled request → x.inShutdown = false →
    ∃ k, request = some k ∧
      s.trace[k]? = some (.queued .spawnLink (some c) ⟨some a, linkMsg, k⟩ .posted)

theorem requested_step (inv : Everywhere Requested s) (consistent : Consistent s)
    (h : Step toChars s act s') : Everywhere Requested s' := by
  refine inv.step consistent.numbered ?_ ?_ h
  · rintro e b x after ⟨rfl, caller, link, name, handlers, -, rfl, -⟩
    intro c stage request call
    cases call
  · intro e b x x' after hx asked move c stage request call hr alive
    have alive := move.alive alive
    have old (stage : SpawnStage) (before : x.call = .spawn c true stage)
        (hr : stage = .linked request ∨ stage = .scheduled request) : ∃ k, request = some k ∧
          s'.trace[k]? = some (.queued .spawnLink (some c) ⟨some b, linkMsg, k⟩ .posted) := by
      obtain ⟨k, some, logged⟩ := asked c stage request before hr alive
      exact ⟨k, some, by rw [after.trace]; exact log_old logged [e]⟩
    rcases move.call_cases with same | none | ⟨child, link, -, skipped, now⟩ |
      ⟨child, d, -, now, rfl, ok, rfl⟩ | ⟨child, link, request', before, now⟩ | ⟨link, now, -⟩
    · exact old stage (same.symm.trans call) hr
    · rw [none] at call
      cases call
    · rw [now] at call
      cases call
      have gone : x.lifetime = false := by simpa using skipped
      rw [(consistent.sane b x hx).lifetime gone] at alive
      cases alive
    · rw [now] at call
      cases call
      rcases hr with hr | hr <;> cases hr
      refine ⟨s.now, rfl, ?_⟩
      rw [after.trace, queue_linkMsg hx alive ok]
      exact log_last s.trace _
    · rw [now] at call
      cases call
      rcases hr with hr | hr <;> cases hr
      exact old _ before (.inl rfl)
    · rw [now] at call
      cases call
      rcases hr with hr | hr <;> cases hr

/-- What was established when spawn_link returned. -/
structure Returned (s : System) : Prop where
  uninterrupted : ∀ (i j n : Nat) a c caller link link' request hs m ls,
    s.trace[j]? = some (.spawned a c link request) →
    s.trace[i]? = some (.created c caller link' hs) →
    s.trace[n]? = some (.exit a m ls) → n < j → n < i
  found : ∀ (j n : Nat) a c k m ls, s.trace[j]? = some (.spawned a c true (some k)) →
    s.trace[n]? = some (.exit a m ls) → j < n → ls.count (childLink c k) = 1
  requested : ∀ (j : Nat) a c request, s.trace[j]? = some (.spawned a c true request) →
    (∀ (n : Nat) m ls, n < j → s.trace[n]? ≠ some (.exit a m ls)) →
    ∃ k, request = some k ∧ k < j ∧
      s.trace[k]? = some (.queued .spawnLink (some c) ⟨some a, linkMsg, k⟩ .posted)

/-- A return of spawn that was just logged is the step of its caller. -/
theorem Step.spawned_move {link : Bool} {request : Option Nat} (h : Step toChars s act s')
    (logged : s'.trace = s.trace ++ [.spawned a c link request]) :
    ∃ x, s.actors a = some x ∧ x.call = .spawn c link (.scheduled request) := by
  obtain ⟨x, x', hx, move⟩ := h.own_move (b := a) logged (by simp [Event.byItself]) (by simp)
  refine ⟨x, hx, ?_⟩
  generalize eq : Event.spawned a c link request = e at move
  cases move.postal with
  | quiet e x' quiet =>
      subst eq
      cases quiet.event
  | spawned child link' request' call =>
      cases eq
      exact call
  | delivered | dispatched | recorded | exited | unlinked => cases eq

theorem returned_step (inv : Returned s) (consistent : Consistent s)
    (whole : Everywhere Uninterrupted s) (half : Everywhere ParentHalf s)
    (asked : Everywhere Requested s) (h : Step toChars s act s') : Returned s' := by
  obtain ⟨e, trace, -⟩ := h.moves consistent.numbered
  constructor
  · intro i j n a c caller link link' request hs m ls spawned created exit early
    rw [trace] at spawned created exit
    rcases log_add_iff.mp exit with exited | ⟨rfl, -⟩
    · rcases log_add_iff.mp created with made | ⟨rfl, -⟩
      · rcases log_add_iff.mp spawned with old | ⟨rfl, rfl⟩
        · exact inv.uninterrupted i j n a c caller link link' request hs m ls old made exited early
        · obtain ⟨x, hx, call⟩ := h.spawned_move trace
          exact whole a x hx c link _ i n caller link' hs m ls call made exited
      · exact log_bound exited
    · rcases log_add_iff.mp spawned with old | ⟨rfl, -⟩
      · have bound := log_bound old
        omega
      · omega
  · intro j n a c k m ls spawned exit late
    rw [trace] at spawned exit
    rcases log_add_iff.mp exit with exited | ⟨rfl, rfl⟩
    · rcases log_add_iff.mp spawned with old | ⟨rfl, -⟩
      · exact inv.found j n a c k m ls old exited late
      · have bound := log_bound exited
        omega
    · rcases log_add_iff.mp spawned with old | ⟨rfl, -⟩
      · obtain ⟨-, x, guarded, hx, -, rfl⟩ := h.exit_move trace
        exact (half a x hx).done j c k old
      · omega
  · intro j a c request spawned alive
    rw [trace] at spawned
    rcases log_add_iff.mp spawned with old | ⟨rfl, rfl⟩
    · obtain ⟨k, some, before, queued⟩ := inv.requested j a c request old fun n m ls early gone =>
        alive n m ls early (by rw [trace]; exact log_old gone [e])
      exact ⟨k, some, before, by rw [trace]; exact log_old queued [e]⟩
    · obtain ⟨x, hx, call⟩ := h.spawned_move trace
      have lives : x.inShutdown = false := by
        refine Bool.eq_false_iff.mpr fun shutdown => ?_
        obtain ⟨n, m, ls, gone⟩ := (consistent.shutdown a x hx).mp shutdown
        exact alive n m ls (log_bound gone) (by rw [trace]; exact log_old gone _)
      obtain ⟨k, some, queued⟩ := asked a x hx c _ request call (.inr rfl) lives
      exact ⟨k, some, log_bound queued, by rw [trace]; exact log_old queued _⟩

end Returns

section Order
variable {toChars : Float → Bytes} {s s' : System} {act : Action} {x y : Actor} {a b c : InstanceId}

/-- The calls of queue made by spawn itself. -/
def Cause.ofSpawn : Cause → Bool
  | .spawnLink | .schedule => true
  | _ => false

/-- Only the actor that created an instance is inside the call that does so. -/
theorem caller_unique {link link' : Bool} {stage stage' : SpawnStage} (once : CreatedOnce s)
    (ha : Parent s a x) (hb : Parent s b y) (call : x.call = .spawn c link stage)
    (call' : y.call = .spawn c link' stage') : a = b := by
  obtain ⟨i, hs, created⟩ := ha c link stage call
  obtain ⟨i', hs', created'⟩ := hb c link' stage' call'
  have same := once.unique _ _ _ _ _ _ _ _ _ created created'
  subst same
  rw [created] at created'
  cases created'
  rfl

theorem caller_not_outside {link : Bool} {stage : SpawnStage} (once : CreatedOnce s)
    (ha : Parent s a x) (call : x.call = .spawn c link stage) : c ∉ s.outside := by
  intro waiting
  obtain ⟨i, hs, created⟩ := ha c link stage call
  obtain ⟨i', hs', created'⟩ := once.outside c waiting
  have same := once.unique _ _ _ _ _ _ _ _ _ created created'
  subst same
  rw [created] at created'
  cases created'

/-- Before its first call of queue spawn has sent nothing to the child. -/
def Untouched (s : System) (_ : InstanceId) (x : Actor) : Prop :=
  ∀ c link, x.call = .spawn c link .created → ∀ (t : Nat) cause mail d,
    s.trace[t]? = some (.queued cause (some c) mail d) → cause.ofSpawn = false

theorem untouched_step (inv : Everywhere Untouched s) (parents : Everywhere Parent s)
    (once : CreatedOnce s) (consistent : Consistent s) (h : Step toChars s act s') :
    Everywhere Untouched s' := by
  refine inv.step consistent.numbered ?_ ?_ h
  · rintro e b x after ⟨rfl, caller, link, name, handlers, -, rfl, -⟩
    intro c link' call
    cases call
  · intro e b x x' after hx untouched move c link call t cause mail d logged
    rw [after.trace] at logged
    rcases move.call_origin call with ⟨stage, before, created⟩ | ⟨rfl, -, rfl⟩
    · cases created rfl
      rcases log_add_iff.mp logged with old | ⟨-, rfl⟩
      · exact untouched c link before t cause mail d old
      · have parent := parents b x hx
        cases move with
        | other act e foreign unposted => exact absurd rfl (unposted _ _ _ _)
        | act act e x' move => exact absurd rfl (move.not_queued _ _ _ _)
        | call act cause target mail d x' move =>
            rw [receives_call] at call
            generalize target : some c = target' at move
            cases move with
            | send | link | notice => rfl
            | spawnLink child =>
                dsimp only at call
                split at call <;> cases call
            | schedule child link' request open_ =>
                rw [before] at open_
                cases open_
        | called self y y' act cause target mail d foreign hy move =>
            generalize target : some c = target' at move
            cases move with
            | send | link | notice => rfl
            | spawnLink child open_ | schedule child _ _ open_ =>
                cases target
                exact absurd (caller_unique once (parents self y hy) parent open_ before) foreign
        | outside act cause target m d either =>
            rcases either with ⟨-, rfl, -⟩ | ⟨child, waiting, -, -, target, -⟩
            · rfl
            · cases target
              exact absurd waiting (caller_not_outside once parent before)
    · rcases log_add_iff.mp logged with old | ⟨-, new⟩
      · exact absurd (.inl rfl) (consistent.mentioned.unlogged consistent.numbered old)
      · cases new

/-- The link message is the first that spawn sends. -/
def LinkFirst (tr : List Event) : Prop :=
  ∀ (k t : Nat) c mail d cause mail' d', tr[k]? = some (.queued .spawnLink (some c) mail d) →
    tr[t]? = some (.queued cause (some c) mail' d') → cause.ofSpawn = true → k ≤ t

theorem linkFirst_step (inv : LinkFirst s.trace) (untouched : Everywhere Untouched s)
    (h : Step toChars s act s') : LinkFirst s'.trace := by
  obtain ⟨e, trace⟩ := h.logs
  intro k t c mail d cause mail' d' linked queued spawn
  rw [trace] at linked queued
  rcases log_add_iff.mp queued with old | ⟨rfl, -⟩
  · rcases log_add_iff.mp linked with before | ⟨rfl, rfl⟩
    · exact inv k t c mail d cause mail' d' before old spawn
    · rcases h.queued_move trace with ⟨self, x, x', hx, move⟩ | ⟨-, -, other⟩
      · cases move with
        | spawnLink child call =>
            rw [untouched self x hx c true call t cause mail' d' old] at spawn
            cases spawn
      · rcases other with other | other <;> cases other
  · rcases log_add_iff.mp linked with before | ⟨rfl, -⟩
    · exact Nat.le_of_lt (log_bound before)
    · exact Nat.le_refl _

end Order

end Thespian.Runtime
