import Mathlib.Data.List.Perm.Basic
import Thespian.Transition.Runs

/-!
A metronome. Its timer is not bound to the strand of its owner, so a tick runs on any
thread of the executor, beside the owner and beside other ticks. Arming the timer again
aborts the wait that is pending, and one only: a tick whose handler is queued or running is
not called off, it finds out by itself that the metronome was stopped, unless it has been
started again by then.
-/

namespace Thespian.Runtime
open Transition

/-- The lines of `tick`, with those of `schedule_tick`. -/
inductive Tick where
  | checking
  | sending
  | counting
  | expiresAt
  | onExpired
  deriving DecidableEq

/-- Where the owner stands in `start` and `stop`; the destructor stops. -/
inductive Conductor where
  | idle
  | running
  | expiresAt
  | onExpired
  | clearing (destroy : Bool)
  | destroyed
  deriving DecidableEq

/-- `metronome_state`. The waits of the timer that are pending, those whose handlers are
queued, and the ticks that threads are in stand for the executor; the last are kept in no
order. What was sent to the owner is not in the source. -/
structure Metronome where
  running : Bool := false
  counter : Nat := 0
  pending : Nat := 0
  expired : Nat := 0
  aborted : Nat := 0
  ticks : List Tick := []
  conductor : Conductor := .idle
  inShutdown : Bool := false
  lifetime : Bool := true
  sent : List Nat := []
  deriving DecidableEq

inductive MetronomeAction where
  | start
  | stop
  | destroy
  | conduct
  | expire
  | abort
  | enter
  | tick (i : Nat)
  | shutdown
  | conclude
  deriving DecidableEq

/-- The owner is about to arm the timer. -/
def Conductor.starts : Conductor → Bool
  | .running | .expiresAt | .onExpired => true
  | .idle | .clearing _ | .destroyed => false

namespace Metronome

/-- `timer_.cancel()`, which `expires_at` does as well. -/
def cancel (s : Metronome) : Metronome :=
  { s with pending := 0, aborted := s.aborted + s.pending }

/-- `on_expired`: another wait of the timer. -/
def onExpired (s : Metronome) : Metronome := { s with pending := s.pending + 1 }

/-- The state goes with the owner's handle or the last tick that holds it, and the pending
wait with its timer. -/
def release (s : Metronome) : Metronome :=
  if s.conductor = .destroyed ∧ s.ticks = [] then s.cancel else s

/-- The next line of a tick, if there is one. Sending does not fail: a thread that runs no
actor gets no error for a message to one in shutdown. -/
def tickLine (s : Metronome) : Tick → Metronome × Option Tick
  | .checking => (s, if s.running then some .sending else none)
  | .sending =>
      (if s.inShutdown then s else { s with sent := s.sent ++ [s.counter] }, some .counting)
  | .counting => ({ s with counter := s.counter + 1 }, some .expiresAt)
  | .expiresAt => (s.cancel, some .onExpired)
  | .onExpired => (s.onExpired, none)

/-- The next line of the owner. -/
def conduct (s : Metronome) : Option Metronome :=
  match s.conductor with
  | .running => some { s with running := true, conductor := .expiresAt }
  | .expiresAt => some { s.cancel with conductor := .onExpired }
  | .onExpired => some { s.onExpired with conductor := .idle }
  | .clearing destroy =>
      some { s with running := false, conductor := if destroy then .destroyed else .idle }.release
  | .idle | .destroyed => none

def step (s : Metronome) : MetronomeAction → Option Metronome
  | .start =>
      if s.conductor ≠ .idle then none
      else if s.running ∨ s.lifetime = false then some s
      else some { s with conductor := .running }
  | .stop =>
      if s.conductor = .idle then some { s.cancel with conductor := .clearing false } else none
  | .destroy =>
      if s.conductor = .idle then some { s.cancel with conductor := .clearing true } else none
  | .conduct => s.conduct
  | .expire =>
      if s.pending = 0 then none
      else some { s with pending := s.pending - 1, expired := s.expired + 1 }
  | .abort => if s.aborted = 0 then none else some { s with aborted := s.aborted - 1 }
  | .enter =>
      if s.expired = 0 then none
      else some { s with
        expired := s.expired - 1
        ticks := if s.conductor = .destroyed ∧ s.ticks = [] then [] else .checking :: s.ticks }
  | .tick i =>
      match s.ticks[i]? with
      | none => none
      | some t =>
          let (s', next) := s.tickLine t
          some { s' with ticks := next.toList ++ s.ticks.eraseIdx i }.release
  | .shutdown => some { s with inShutdown := true }
  | .conclude => if s.inShutdown then some { s with lifetime := false } else none

/-- Ticks that run one at a time. -/
def serial (s : Metronome) : MetronomeAction → Bool
  | .enter => s.expired = 0 ∨ s.ticks = []
  | _ => true

/-- A start that finds nothing left of the run before. -/
def fresh (s : Metronome) : MetronomeAction → Bool
  | .start => s.pending = 0 ∧ s.expired = 0 ∧ s.ticks = []
  | _ => true

/-- What may come to a tick, or is one. -/
def tokens (s : Metronome) : Nat :=
  s.pending + s.expired + s.ticks.length + s.conductor.starts.toNat

structure Numbered (s : Metronome) : Prop where
  alone : s.ticks.length ≤ 1
  sent : ∃ n, s.sent = List.range n ∧
    (s.inShutdown = false → n = if s.ticks = [.counting] then s.counter + 1 else s.counter)

variable {s s' : Metronome}

/-- What is not sent does not change the numbers. -/
theorem Numbered.frame {s' : Metronome} (h : s.Numbered) (ticks : s'.ticks = s.ticks)
    (sent : s'.sent = s.sent) (counter : s'.counter = s.counter)
    (up : s'.inShutdown = false → s.inShutdown = false) : s'.Numbered := by
  obtain ⟨alone, n, numbers, next⟩ := h
  refine ⟨ticks ▸ alone, n, sent.trans numbers, fun alive => ?_⟩
  rw [next (up alive), ticks, counter]

theorem numbered_release (h : s.Numbered) : s.release.Numbered := by
  unfold release
  split
  · exact ⟨h.alone, h.sent⟩
  · exact h

theorem Numbered.only (h : s.Numbered) {i : Nat} {t : Tick} (here : s.ticks[i]? = some t) :
    s.ticks = [t] ∧ i = 0 := by
  obtain ⟨bound, place⟩ := List.getElem?_eq_some_iff.mp here
  have first : i = 0 := by
    have alone := h.alone
    omega
  subst first
  have one : s.ticks.length = 1 := Nat.le_antisymm h.alone bound
  obtain ⟨u, single⟩ := List.length_eq_one_iff.mp one
  simp_all

theorem numbered_tick (h : s.Numbered) {t : Tick} (only : s.ticks = [t]) :
    Numbered { (s.tickLine t).1 with ticks := (s.tickLine t).2.toList } := by
  obtain ⟨alone, n, sent, counter⟩ := h
  cases t with
  | checking => 
      refine ⟨by cases s.running <;> simp [tickLine], n, sent, ?_⟩
      cases s.running <;> simpa [tickLine, only] using counter
  | sending =>
      cases dead : s.inShutdown with
      | true =>
          exact ⟨by simp [tickLine], n, by simp [tickLine, dead, sent], by simp [tickLine, dead]⟩
      | false =>
          have last : n = s.counter := by simpa [only] using counter dead
          refine ⟨by simp [tickLine], n + 1, ?_, by simp [tickLine, dead, last]⟩
          simp [tickLine, dead, sent, last, List.range_succ]
  | counting =>
      refine ⟨by simp [tickLine], n, sent, ?_⟩
      simpa [tickLine, only] using counter
  | expiresAt | onExpired =>
      refine ⟨by simp [tickLine], n, sent, ?_⟩
      simpa [tickLine, only, cancel, onExpired] using counter

theorem numbered_step : Keeps step (fun s a => s.serial a = true) Numbered := by
  intro s a s' numbered alone h
  cases a with
  | tick i =>
      simp only [step] at h
      split at h
      · cases h
      next t here =>
        cases h
        obtain ⟨only, rfl⟩ := numbered.only here
        apply numbered_release
        simpa [only] using numbered_tick numbered only
  | enter =>
      simp only [step] at h
      obtain ⟨-, n, sent, counter⟩ := numbered
      split at h <;> cases h
      next queued =>
        have none : s.ticks = [] := by simpa [serial, queued] using alone
        refine ⟨by simp only [none]; split <;> simp, n, sent, ?_⟩
        intro alive
        rw [counter alive, none]
        cases s.conductor <;> simp
  | conduct =>
      simp only [step, conduct] at h
      obtain ⟨alone, sent⟩ := numbered
      split at h <;> cases h
      · exact ⟨alone, sent⟩
      · exact ⟨alone, sent⟩
      · exact ⟨alone, sent⟩
      · exact numbered_release ⟨alone, sent⟩
  | start =>
      simp only [step] at h
      split at h
      · cases h
      · split at h <;> cases h <;> exact numbered.frame rfl rfl rfl id
  | stop | destroy | expire | abort | conclude =>
      simp only [step] at h
      split at h <;> cases h
      exact numbered.frame rfl rfl rfl id
  | shutdown =>
      cases h
      exact numbered.frame rfl rfl rfl fun alive => by cases alive


theorem tokens_release (s : Metronome) : s.release.tokens ≤ s.tokens := by
  unfold release tokens cancel
  split
  · simp
  · exact Nat.le_refl _

theorem tokens_tick {t : Tick} {i : Nat} (here : s.ticks[i]? = some t) :
    tokens { (s.tickLine t).1 with ticks := (s.tickLine t).2.toList ++ s.ticks.eraseIdx i } ≤
      s.tokens := by
  have bound : i < s.ticks.length := (List.getElem?_eq_some_iff.mp here).1
  have length : (s.ticks.eraseIdx i).length = s.ticks.length - 1 := by
    rw [List.length_eraseIdx, if_pos bound]
  unfold tokens
  cases t with
  | checking =>
      simp only [tickLine]
      split
      · simp [length]
        omega
      · simp [length]
  | sending =>
      simp only [tickLine]
      split
      · simp [length]
        omega
      · simp [length]
        omega
  | counting | expiresAt | onExpired =>
      simp [tickLine, cancel, onExpired, length]
      omega

/-- Only a start makes a token, and there is none left when a fresh one does. -/
theorem tokens_step : Keeps step (fun s a => s.fresh a = true) (fun s => s.tokens ≤ 1) := by
  intro s a s' few fresh h
  cases a with
  | tick i =>
      simp only [step] at h
      split at h <;> cases h
      next t here => exact Nat.le_trans (tokens_release _) (Nat.le_trans (tokens_tick here) few)
  | start =>
      simp only [step] at h
      split at h
      · cases h
      · simp only [Metronome.fresh, decide_eq_true_eq] at fresh
        split at h <;> cases h
        · exact few
        · simp [tokens, fresh, Conductor.starts]
  | conduct =>
      simp only [step, conduct] at h
      unfold tokens at few
      split at h <;> cases h
      next place => simp_all [tokens, Conductor.starts]
      next place => simp_all [tokens, Conductor.starts, cancel]
      next place => simp_all [tokens, Conductor.starts, onExpired]
      next destroy place =>
        apply Nat.le_trans (tokens_release _)
        cases destroy <;> simp_all [tokens, Conductor.starts]
  | enter =>
      simp only [step] at h
      unfold tokens at few ⊢
      split at h <;> cases h
      simp only
      split <;> simp <;> omega
  | expire =>
      simp only [step] at h
      unfold tokens at few ⊢
      split at h <;> cases h
      simp only
      omega
  | stop | destroy =>
      simp only [step] at h
      unfold tokens at few ⊢
      split at h <;> cases h
      simp only [cancel, Conductor.starts, Bool.toNat_false]
      omega
  | abort | conclude =>
      simp only [step] at h
      split at h <;> cases h
      exact few
  | shutdown =>
      cases h
      exact few

/-- Nothing is started any more: what passed the check may be sent, and no more. -/
structure Stopped (n : Nat) (s : Metronome) : Prop where
  running : s.running = false
  conductor : s.conductor.starts = false
  sent : s.sent.length + s.ticks.count .sending ≤ n

theorem stopped_release {n : Nat} (h : s.Stopped n) : s.release.Stopped n := by
  unfold release
  split
  · exact ⟨h.running, h.conductor, h.sent⟩
  · exact h

theorem stopped_tick {n i : Nat} {t : Tick} (h : s.Stopped n) (here : s.ticks[i]? = some t) :
    Stopped n { (s.tickLine t).1 with
      ticks := (s.tickLine t).2.toList ++ s.ticks.eraseIdx i } := by
  obtain ⟨running, conductor, sent⟩ := h
  obtain ⟨bound, place⟩ := List.getElem?_eq_some_iff.mp here
  have split' : s.ticks.count .sending = (t :: s.ticks.eraseIdx i).count .sending := by
    rw [← place]
    exact (List.getElem_cons_eraseIdx_perm bound).count_eq .sending |>.symm
  rw [split'] at sent
  cases t with
  | checking => exact ⟨running, conductor, by simpa [tickLine, running] using sent⟩
  | sending =>
      simp only [tickLine]
      split
      · refine ⟨running, conductor, ?_⟩
        simp at sent ⊢
        omega
      · refine ⟨running, conductor, ?_⟩
        simp at sent ⊢
        omega
  | counting | expiresAt | onExpired =>
      exact ⟨running, conductor, by simpa [tickLine, cancel, onExpired] using sent⟩

theorem stopped_step (n : Nat) : Keeps step (fun _ a => a ≠ .start) (Stopped n) := by
  intro s a s' stopped unstarted h
  cases a with
  | start => exact absurd rfl unstarted
  | tick i =>
      simp only [step] at h
      split at h <;> cases h
      next t here => exact stopped_release (stopped_tick stopped here)
  | conduct =>
      simp only [step, conduct] at h
      have conductor := stopped.conductor
      split at h <;> cases h
      next place => simp [place, Conductor.starts] at conductor
      next place => simp [place, Conductor.starts] at conductor
      next place => simp [place, Conductor.starts] at conductor
      next destroy place =>
        apply stopped_release
        exact ⟨rfl, by cases destroy <;> rfl, stopped.sent⟩
  | enter =>
      simp only [step] at h
      obtain ⟨running, conductor, sent⟩ := stopped
      split at h <;> cases h
      refine ⟨running, conductor, ?_⟩
      simp only
      split
      next passed => simpa [passed.2] using sent
      next => simpa using sent
  | stop | destroy | expire | abort | shutdown | conclude =>
      simp only [step] at h
      obtain ⟨running, conductor, sent⟩ := stopped
      constructor <;> grind -linarith [cancel, Conductor.starts]

section Runs
variable {acts : List MetronomeAction}

/-- The steps of a tick and of a start from end to end. -/
def beat : List MetronomeAction :=
  [.expire, .enter, .tick 0, .tick 0, .tick 0, .tick 0, .tick 0]

def started : List MetronomeAction := [.start, .conduct, .conduct, .conduct]

/-- A start between the expiry of a tick and its handler has two ticks send one number. -/
example : (run step {} (started ++ [MetronomeAction.expire, .stop, .conduct] ++ started ++
    [MetronomeAction.expire, .enter, .enter, .tick 0, .tick 1, .tick 0, .tick 1])).map sent =
      some [0, 0] := by
  decide +kernel

/-- When the owner has stopped the metronome and does not start it again, only ticks that
had found it running before are still sent. -/
theorem metronome_stops (stopped : s.running = false) (conductor : s.conductor.starts = false)
    (h : run step s acts = some s') (unstarted : .start ∉ acts) :
    s'.sent.length ≤ s.sent.length + s.ticks.count .sending := by
  have kept : s'.Stopped (s.sent.length + s.ticks.count .sending) := by
    apply (stopped_step _).run ⟨stopped, conductor, Nat.le_refl _⟩ (along_of_forall _) h
    rintro a member rfl
    exact unstarted member
  have sent := kept.sent
  omega

theorem metronome_stops_sending : ∃ s, run step {}
    (started ++ [MetronomeAction.expire, .enter, .tick 0, .stop, .conduct]) = some s ∧
      ∀ rest s', run step s rest = some s' → .start ∉ rest → s'.sent.length ≤ 1 := by
  have checked : (run step {}
      (started ++ [MetronomeAction.expire, .enter, .tick 0, .stop, .conduct])).any
      (fun s => s.running = false ∧ s.conductor.starts = false ∧
        s.sent.length + s.ticks.count .sending = 1) = true := by
    decide +kernel
  obtain ⟨s, ran, checked⟩ := (Option.any_eq_true _ _).mp checked
  rw [decide_eq_true_eq] at checked
  obtain ⟨stopped, conductor, one⟩ := checked
  refine ⟨s, ran, ?_⟩
  intro rest s' more unstarted
  exact one ▸ metronome_stops stopped conductor more unstarted

end Runs

end Metronome

end Thespian.Runtime
