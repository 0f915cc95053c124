import Thespian.Runtime.Moves

/-!
Invariants of the runs. Each is a property of one actor and the trace, kept by
the moves of that actor and by the moves of the others. The first says where in
its life an actor can be.
-/

namespace Thespian.Runtime
open Cbor Actor Transition

def Known (s : System) (b : InstanceId) : Prop := ∃ x, s.actors b = some x

/-- What every step does to the system as a whole. -/
structure After (s : System) (e : Event) (s' : System) : Prop where
  trace : s'.trace = s.trace ++ [e]
  known : ∀ b, Known s b → Known s' b
  numbered : Numbered s'

def Everywhere (Φ : System → InstanceId → Actor → Prop) (s : System) : Prop :=
  ∀ b x, s.actors b = some x → Φ s b x

section Steps
variable {toChars : Float → Bytes} {s s' : System} {act : Action}

theorem known_set {a b : InstanceId} {x : Actor} (h : Known s b) : Known (s.set a x) b := by
  by_cases own : b = a
  · subst own
    exact ⟨x, set_self b x⟩
  · obtain ⟨y, hy⟩ := h
    exact ⟨y, (set_other own x).trans hy⟩

theorem known_post {b : InstanceId} (cause : Cause) (target : Handle) (mail : Mail)
    (d : Delivery) (h : Known s b) : Known (s.post cause target mail d) b := by
  obtain ⟨y, hy⟩ := h
  exact ⟨y.receives b target mail d, by rw [post_actors, hy]; rfl⟩

theorem Step.known (h : Step toChars s act s') {b : InstanceId} (hb : Known s b) : Known s' b := by
  cases h with
  | act self x x' act e hx move =>
      have kept : Known (s.set self x') b := known_set hb
      exact kept
  | call self x x' act cause target mail d hx move => exact known_post _ _ _ _ (known_set hb)
  | spawn self x name link hx free =>
      have caller : Known (s.set self { x with call := .spawn s.nextInstanceId link .created }) b :=
        known_set hb
      have kept := @known_set _ s.nextInstanceId b { name := name, exitHandlers := [] } caller
      exact kept
  | outsideSend target m valid => exact known_post _ _ _ _ hb
  | contextSpawn name handler =>
      have kept :=
        @known_set _ s.nextInstanceId b { name := name, exitHandlers := handler.toList } hb
      exact kept
  | schedule child waiting =>
      have same : Known ({ s with outside := s.outside.erase child } : System) b := hb
      exact known_post _ _ _ _ same

theorem Numbered.set (h : Numbered s) {a : InstanceId} (x : Actor) (ha : a < s.nextInstanceId) :
    Numbered (s.set a x) := by
  intro b hb
  have apart : b ≠ a := Nat.ne_of_gt (Nat.lt_of_lt_of_le ha hb)
  rw [set_other apart]
  exact h b hb

theorem Numbered.post (h : Numbered s) (cause : Cause) (target : Handle) (mail : Mail)
    (d : Delivery) : Numbered (s.post cause target mail d) := by
  intro b hb
  rw [post_nextInstanceId] at hb
  rw [post_actors, h b hb]
  rfl

theorem Numbered.create (h : Numbered s) (caller : Handle) (link : Bool) (name : Bytes)
    (handlers : List ExitHandler) : Numbered (s.create caller link name handlers) := by
  intro b hb
  have above : s.nextInstanceId < b := hb
  have apart : b ≠ s.nextInstanceId := Nat.ne_of_gt above
  exact (set_other apart _).trans (h b (Nat.le_of_lt above))

theorem Step.numbered (h : Step toChars s act s') (numbered : Numbered s) : Numbered s' := by
  cases h with
  | act self x x' act e hx move => exact numbered.set x' (numbered.lt hx)
  | call self x x' act cause target mail d hx move =>
      exact (numbered.set x' (numbered.lt hx)).post _ _ _ _
  | spawn self x name link hx free => exact (numbered.set _ (numbered.lt hx)).create _ _ _ _
  | outsideSend target m valid => exact numbered.post _ _ _ _
  | contextSpawn name handler => exact numbered.create none false name handler.toList
  | schedule child waiting =>
      have same : Numbered ({ s with outside := s.outside.erase child } : System) := numbered
      exact same.post _ _ _ _

/-- A property of all actors is kept when it holds of a new instance and every
move keeps it. -/
theorem Everywhere.step {Φ : System → InstanceId → Actor → Prop} (inv : Everywhere Φ s)
    (numbered : Numbered s)
    (fresh : ∀ e b x, After s e s' → Fresh s b act e x → Φ s' b x)
    (moves : ∀ e b x x', After s e s' → s.actors b = some x → Φ s b x →
      Moves toChars s b x act e x' → Φ s' b x')
    (h : Step toChars s act s') : Everywhere Φ s' := by
  obtain ⟨e, trace, actors⟩ := h.moves numbered
  have after : After s e s' := ⟨trace, fun _ => h.known, h.numbered numbered⟩
  intro b x' hx'
  rcases actors b x' hx' with new | ⟨x, hx, move⟩
  · exact fresh e b x' after new
  · exact moves e b x x' after hx (inv b x hx) move

end Steps

section Sane
variable {toChars : Float → Bytes} {s s' : System} {act : Action} {x x' : Actor}

/-- The thread is inside handle_exit, past the assignment of in_shutdown. -/
def Actor.leaving (x : Actor) : Bool :=
  match x.control with
  | .notifying _ _ _ _ | .handlers _ _ _ | .handler _ _ _ => true
  | _ => false

structure Sane (x : Actor) : Prop where
  calling : x.call = .none ∨ x.control = .receiving ∨
    ∃ guarded err rest, x.control = .handler guarded err rest
  leaving : x.leaving = true → x.inShutdown = true
  lifetime : x.lifetime = false → x.inShutdown = true
  destroyed : x.destroyed = true → x.inShutdown = true

theorem Sane.call_none (h : Sane x) (receiving : x.control ≠ .receiving)
    (handler : ∀ guarded err rest, x.control ≠ .handler guarded err rest) : x.call = .none := by
  rcases h.calling with none | control | ⟨guarded, err, rest, control⟩
  · exact none
  · exact absurd control receiving
  · exact absurd control (handler guarded err rest)

/-- A move to a control outside handle_exit, made while no call is open. -/
theorem Sane.turn (h : Sane x) (call : x.call = .none) (x' : Actor) (same : x'.call = x.call)
    (stays : x'.leaving = true → x.inShutdown = true)
    (lives : x'.lifetime = false → x.inShutdown = true)
    (shutdown : x'.inShutdown = x.inShutdown) (destroyed : x'.destroyed = x.destroyed) :
    Sane x' where
  calling := .inl (same.trans call)
  leaving := fun hl => shutdown.trans (stays hl)
  lifetime := fun hl => shutdown.trans (lives hl)
  destroyed := fun hd => shutdown.trans (h.destroyed (destroyed.symm.trans hd))

theorem Sane.local {self : InstanceId} {now : Nat} {e : Event} (h : Sane x)
    (move : Local toChars self now x act e x') : Sane x' := by
  cases move with
  | user u free => cases u <;> exact ⟨h.calling, h.leaving, h.lifetime, h.destroyed⟩
  | returned o control call =>
      rcases returned_cases x o with eq | ⟨guarded, m, -, eq⟩
      · rw [eq]
        exact h.turn call _ rfl (by simp [finish, Actor.leaving]) h.lifetime rfl rfl
      · rw [eq]
        exact h.turn call _ rfl (by simp [Actor.leaving]) h.lifetime rfl rfl
  | handlerThrew guarded err rest e control call =>
      cases guarded with
      | true => exact h.turn call _ rfl (by simp [raise_guarded, Actor.leaving]) h.lifetime rfl rfl
      | false =>
          exact h.turn call _ rfl (by simp [raise_unguarded, Actor.leaving]) h.lifetime rfl rfl
  | handlerReturned guarded err rest control call =>
      have shutdown : x.inShutdown = true := h.leaving (by simp [Actor.leaving, control])
      exact h.turn call _ rfl (fun _ => shutdown) h.lifetime rfl rfl
  | delivered mail rest control mailbox =>
      have call := h.call_none (by simp [control]) (by simp [control])
      exact h.turn call _ rfl (by simp [Actor.leaving]) h.lifetime rfl rfl
  | dispatched m control owns lives =>
      have call := h.call_none (by simp [control]) (by simp [control])
      exact h.turn call _ rfl (by simp [Actor.leaving]) h.lifetime rfl rfl
  | recorded mail control link =>
      have call := h.call_none (by simp [control]) (by simp [control])
      unfold runLink
      dsimp only
      split <;> exact h.turn call _ rfl (by simp [Actor.leaving]) h.lifetime rfl rfl
  | passed mail control other =>
      have call := h.call_none (by simp [control]) (by simp [control])
      exact h.turn call _ rfl (by simp [Actor.leaving]) h.lifetime rfl rfl
  | message mail control =>
      have call := h.call_none (by simp [control]) (by simp [control])
      rcases runMessage_cases x self mail with
        ⟨-, eq⟩ | ⟨-, ⟨guarded, m, -, eq⟩ | eq | ⟨receiver, eq⟩⟩
      · rw [eq]
        exact h.turn call _ rfl (by simp [Actor.leaving]) h.lifetime rfl rfl
      · rw [eq]
        exact h.turn call _ rfl (by simp [Actor.leaving]) h.lifetime rfl rfl
      · rw [eq]
        exact h.turn call _ rfl (by simp [finish, Actor.leaving]) h.lifetime rfl rfl
      · rw [eq]
        exact h.turn call _ rfl (by simp [Actor.leaving]) h.lifetime rfl rfl
  | exited guarded m control =>
      have call := h.call_none (by simp [control]) (by simp [control])
      exact ⟨.inl call, fun _ => rfl, fun _ => rfl, fun _ => rfl⟩
  | notified n guarded m control =>
      have call := h.call_none (by simp [control]) (by simp [control])
      have shutdown : x.inShutdown = true := h.leaving (by simp [Actor.leaving, control])
      rcases callHandlers_cases x toChars guarded m with ⟨-, eq⟩ | ⟨err, -, eq⟩ | ⟨e, -, eq⟩
      · rw [eq]
        exact h.turn call _ rfl (fun _ => shutdown) (fun _ => shutdown) rfl rfl
      · rw [eq]
        exact h.turn call _ rfl (fun _ => shutdown) (fun _ => shutdown) rfl rfl
      · rw [eq]
        cases guarded <;> exact h.turn call _ rfl (fun _ => shutdown) (fun _ => shutdown) rfl rfl
  | handler guarded err h' rest control =>
      have call := h.call_none (by simp [control]) (by simp [control])
      have shutdown : x.inShutdown = true := h.leaving (by simp [Actor.leaving, control])
      exact h.turn call _ rfl (fun _ => shutdown) h.lifetime rfl rfl
  | concluded guarded err control =>
      have call := h.call_none (by simp [control]) (by simp [control])
      have shutdown : x.inShutdown = true := h.leaving (by simp [Actor.leaving, control])
      exact h.turn call _ rfl (fun _ => shutdown) (fun _ => shutdown) rfl rfl
  | unlinked child link call skipped =>
      rcases h.calling with none | user
      · rw [none] at call
        cases call
      · exact ⟨.inr user, h.leaving, h.lifetime, h.destroyed⟩
  | spawned child link request call =>
      exact ⟨.inl rfl, h.leaving, h.lifetime, h.destroyed⟩
  | destroyed control mailbox lifetime =>
      exact ⟨h.calling, h.leaving, h.lifetime, fun _ => h.lifetime lifetime⟩

theorem free_control (h : x.free = true) :
    x.call = .none ∧
      (x.control = .receiving ∨ ∃ guarded err rest, x.control = .handler guarded err rest) := by
  unfold Actor.free at h
  split at h
  · exact ⟨‹_›, .inl ‹_›⟩
  · exact ⟨‹_›, .inr ⟨_, _, _, ‹_›⟩⟩
  · cases h

theorem Sane.calls {self : InstanceId} {cause : Cause} {target : Handle} {mail : Mail}
    {d : Delivery} (h : Sane x) (move : Calls s self x act cause target mail d x') : Sane x' := by
  have user (call : x.call ≠ .none) : x.control = .receiving ∨
      ∃ guarded err rest, x.control = .handler guarded err rest := by
    rcases h.calling with none | user
    · exact absurd none call
    · exact user
  cases move with
  | send target m free valid => exact h
  | link target free valid => exact ⟨h.calling, h.leaving, h.lifetime, h.destroyed⟩
  | spawnLink child call lifetime =>
      exact ⟨.inr (user (by simp [call])), h.leaving, h.lifetime, h.destroyed⟩
  | schedule child link request call =>
      exact ⟨.inr (user (by simp [call])), h.leaving, h.lifetime, h.destroyed⟩
  | notice n guarded m l rest control =>
      have call := h.call_none (by simp [control]) (by simp [control])
      have shutdown : x.inShutdown = true := h.leaving (by simp [Actor.leaving, control])
      exact h.turn call _ rfl (fun _ => shutdown) h.lifetime rfl rfl

theorem Sane.receives {b : InstanceId} {target : Handle} {mail : Mail} {d : Delivery}
    (h : Sane x) : Sane (x.receives b target mail d) := by
  unfold Actor.receives
  split
  · exact ⟨h.calling, h.leaving, h.lifetime, h.destroyed⟩
  · exact h

theorem sane_step (inv : Everywhere (fun _ _ x => Sane x) s) (numbered : Numbered s)
    (h : Step toChars s act s') : Everywhere (fun _ _ x => Sane x) s' := by
  refine inv.step numbered ?_ ?_ h
  · rintro e b x - ⟨rfl, caller, link, name, handlers, -, rfl, -⟩
    exact ⟨.inl rfl, nofun, nofun, nofun⟩
  · intro e b x x' _ _ sane move
    cases move with
    | other => exact sane
    | act act e x' move => exact sane.local move
    | call act cause target mail d x' move => exact (sane.calls move).receives
    | called | outside => exact sane.receives
    | spawn name link free =>
        exact ⟨.inr (free_control free).2, sane.leaving, sane.lifetime, sane.destroyed⟩

end Sane

end Thespian.Runtime
