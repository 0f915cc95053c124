import Thespian.Runtime.Spawn

/-!
Supervision by spawn_link. The child records its parent only when its strand
runs the link message, and the parent its child only when spawn has returned.
The link message is the first of the child's mailbox, so the child records the
parent before it can exit; the parent cannot exit inside its own call.
-/

namespace Thespian.Runtime
open Cbor Actor Transition

section Supervised
variable {toChars : Float → Bytes} {s s' : System} {act : Action} {p c : InstanceId}

/-- What holds of parents and children in every state of every run. -/
structure Supervised (s : System) : Prop where
  accounted : Accounted s
  stamped : Stamped s.trace
  recorded : Everywhere Recorded s
  opening : Everywhere Opening s
  exits : ExitsOpened s
  parents : Everywhere Parent s
  once : CreatedOnce s
  half : Everywhere ParentHalf s
  whole : Everywhere Uninterrupted s
  asked : Everywhere Requested s
  returned : Returned s
  untouched : Everywhere Untouched s
  linkFirst : LinkFirst s.trace

theorem supervised_initial : Supervised .initial where
  accounted := accounted_initial
  stamped := by simp [Stamped, System.initial]
  recorded := everywhere_initial _
  opening := everywhere_initial _
  exits := by simp [ExitsOpened, System.initial]
  parents := everywhere_initial _
  once := ⟨by simp [System.initial], by simp [System.initial]⟩
  half := everywhere_initial _
  whole := everywhere_initial _
  asked := everywhere_initial _
  returned := ⟨by simp [System.initial], by simp [System.initial], by simp [System.initial]⟩
  untouched := everywhere_initial _
  linkFirst := by simp [LinkFirst, System.initial]

theorem Supervised.step (inv : Supervised s) (h : Step toChars s act s') : Supervised s' :=
  have consistent := inv.accounted.consistent
  { accounted := inv.accounted.step h
    stamped := stamped_step inv.stamped h
    recorded := recorded_step inv.recorded consistent h
    opening := opening_step inv.opening consistent h
    exits := exitsOpened_step inv.exits inv.opening inv.recorded inv.stamped inv.accounted h
    parents := parent_step inv.parents consistent.numbered h
    once := createdOnce_step inv.once consistent h
    half := parentHalf_step inv.half inv.accounted.dated consistent h
    whole := uninterrupted_step inv.whole consistent h
    asked := requested_step inv.asked consistent h
    returned := returned_step inv.returned consistent inv.whole inv.half inv.asked h
    untouched := untouched_step inv.untouched inv.parents inv.once consistent h
    linkFirst := linkFirst_step inv.linkFirst inv.untouched h }

theorem supervised_of_run {acts : List Action} (h : run (step toChars) .initial acts = some s) :
    Supervised s :=
  have keeps : Keeps (step toChars) (fun _ _ => True) Supervised :=
    fun _ _ _ inv _ h => inv.step (step_sound h)
  keeps.run supervised_initial (along_true acts) h

/-- A call of queue that is not part of spawn. -/
def Event.addresses (c : InstanceId) : Event → Bool
  | .queued cause target _ _ => target = some c && !cause.ofSpawn
  | _ => false

/-- Nobody addresses the child before the given time. -/
def Unaddressed (tr : List Event) (c : InstanceId) (j : Nat) : Prop :=
  ∀ (t : Nat) e, t < j → tr[t]? = some e → e.addresses c = false

theorem spawn_link_never_misses_exit {acts : List Action} {i j : Nat} {hs : List ExitHandler}
    {request : Option Nat} (h : run (step toChars) .initial acts = some s)
    (created : s.trace[i]? = some (.created c (some p) true hs))
    (live : ∀ (n : Nat) m ls, s.trace[n]? = some (.exit p m ls) → i < n)
    (spawned : s.trace[j]? = some (.spawned p c true request))
    (unaddressed : Unaddressed s.trace c j) :
    ∃ k, request = some k ∧
      (∀ (n : Nat) m ls x, s.trace[n]? = some (.exit c m ls) → s.actors c = some x →
        x.remaining n = [] → Told s n c p m ⟨some p, some k, .callee⟩) ∧
      (∀ (n : Nat) m ls x, s.trace[n]? = some (.exit p m ls) → s.actors p = some x →
        x.remaining n = [] → Told s n p c m ⟨some c, some k, .caller⟩) ∧
      ∀ (n : Nat) mail, s.trace[n]? = some (.ran c mail) → mail = ⟨some p, linkMsg, k⟩ ∨
        ∃ u, u < n ∧ s.trace[u]? = some (.linked c ⟨some p, some k, .callee⟩) := by
  have inv := supervised_of_run h
  have consistent := inv.accounted.consistent
  have alive (n : Nat) (m : Bytes) (ls : List Link) (early : n < j) :
      s.trace[n]? ≠ some (.exit p m ls) := by
    intro exit
    have before := inv.returned.uninterrupted i j n _ _ _ _ _ _ _ m ls spawned created exit early
    have after := live n m ls exit
    omega
  obtain ⟨k, rfl, before, queued⟩ := inv.returned.requested j p c request spawned alive
  have first : First s.trace c ⟨some p, linkMsg, k⟩ := by
    refine ⟨k, .spawnLink, queued, fun t cause mail posted => ?_⟩
    by_contra early
    have spawn : cause.ofSpawn = true := by
      simpa [Event.addresses] using unaddressed t _ (by omega) posted
    exact early (inv.linkFirst k t c _ _ cause mail _ queued posted spawn)
  have link : isLinkMsg linkMsg = true := by simp [isLinkMsg]
  refine ⟨k, rfl, ?_, ?_, ?_⟩
  · intro n m ls x exit hx ended
    obtain ⟨mail, first', found⟩ := inv.exits n c m ls exit
    cases first.unique first'
    exact told_of_count consistent hx exit ended rfl (found link)
  · intro n m ls x exit hx ended
    have late : j < n := by
      rcases Nat.lt_trichotomy j n with late | same | early
      · exact late
      · subst same
        rw [spawned] at exit
        cases exit
      · exact absurd exit (alive n m ls early)
    have once := inv.returned.found j n p c k m ls spawned exit late
    exact told_of_count consistent hx exit ended rfl once
  · intro n mail ran
    obtain ⟨x, hx⟩ := consistent.mentioned.trace n _ ran c rfl
    rcases inv.opening c x hx with unopened | ⟨mail', opened⟩
    · exact absurd ran (unopened.ran n mail)
    · cases first.unique opened.first
      rcases opened.ran n mail ran with same | later
      · exact .inl same
      · exact .inr (later link)

/-- A parent spawns a child; first the child exits, then the parent. -/
def parentAndChild : List Action :=
  [.contextSpawn (text "parent") none, .schedule 1, .deliver 1, .advance 1, .advance 1,
    .spawn 1 (text "child") true, .call 1, .call 1, .call 1,
    .deliver 2, .advance 2, .deliver 2, .advance 2, .advance 2,
    .returns 2 (.returns (.error (exitMessage (text "done")))), .advance 2, .advance 2, .advance 2,
    .returns 1 (.returns (.error (exitMessage (text "over")))), .advance 1, .advance 1]

theorem spawn_link_never_misses_exit_of_child :
    ∃ s, run (step fun _ => []) .initial parentAndChild = some s ∧
      Told s 15 2 1 (exitMessage (text "done")) ⟨some 1, some 6, .callee⟩ ∧
      Told s 19 1 2 (exitMessage (text "over")) ⟨some 2, some 6, .caller⟩ := by
  obtain ⟨s, h, created, live, spawned, unaddressed, ⟨ls, done⟩, ⟨ls', ended⟩, ⟨x, hx, told⟩,
      ⟨y, hy, told'⟩⟩ : ∃ s, run (step fun _ => []) .initial parentAndChild = some s ∧
      s.trace[5]? = some (.created 2 (some 1) true []) ∧
      (s.trace.take 6).all (fun e => match e with | .exit a _ _ => a ≠ 1 | _ => true) = true ∧
      s.trace[8]? = some (.spawned 1 2 true (some 6)) ∧
      (s.trace.take 8).all (fun e => !e.addresses 2) = true ∧
      (∃ ls, s.trace[15]? = some (.exit 2 (exitMessage (text "done")) ls)) ∧
      (∃ ls, s.trace[19]? = some (.exit 1 (exitMessage (text "over")) ls)) ∧
      (∃ x, s.actors 2 = some x ∧ x.remaining 15 = []) ∧
      ∃ x, s.actors 1 = some x ∧ x.remaining 19 = [] :=
    ⟨_, rfl, rfl, rfl, rfl, rfl, ⟨_, rfl⟩, ⟨_, rfl⟩, ⟨_, rfl, rfl⟩, ⟨_, rfl, rfl⟩⟩
  have alive (n : Nat) (m : Bytes) (ls : List Link) (exit : s.trace[n]? = some (.exit 1 m ls)) :
      5 < n := by
    by_contra early
    have other := log_early live (by omega) exit
    simp at other
  have alone : Unaddressed s.trace 2 8 := by
    intro t e early logged
    simpa using log_early unaddressed early logged
  obtain ⟨k, same, child, parent, -⟩ :=
    spawn_link_never_misses_exit h created alive spawned alone
  cases same
  exact ⟨s, h, child 15 _ _ x done hx told, parent 19 _ _ y ended hy told'⟩

end Supervised

end Thespian.Runtime
