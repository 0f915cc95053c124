import Thespian.Zig.Subprocess
import Thespian.Transition.Runs

/-!
Who closes the files of a child. While the actor runs, a file it has not closed is not
null. The clean-up behind wait4 closes stdin, stdout and stderr in this order, and sets
the field of stdout to null in each case: where it closes stdin, it does not close stdout.

The clean-up is the only place where the id of the child is dropped, so a child without
one has been waited for.
-/

namespace Thespian.Zig.Subprocess
open Cbor Transition

/-- The files that start has opened. -/
def opened (stdinBehavior : StdIo) : Stream → Bool
  | .stdin => stdinBehavior = .pipe
  | .stdout | .stderr => true

def Child.holds (c : Child) : Stream → Bool
  | .stdin => c.stdin
  | .stdout => c.stdout
  | .stderr => c.stderr

/-- The handler gets to wait4: it is asked to, or finds stdout at its end. -/
def Proc.waits (s : Proc) (io : Io) : Message → Bool
  | .term => true
  | .stdoutReady => s.child.stdout && io.read = .ok []
  | _ => false

def fileStep (s : Proc) (act : Io × Message) : Option Proc := handle s act.1 act.2

/-- Neither of the two files that the clean-up mixes up is open any more, or not both. -/
def Released (s : Proc) (act : Io × Message) : Prop :=
  s.waits act.1 act.2 = true → s.child.stdin = false ∨ s.child.stdout = false

instance (s : Proc) (act : Io × Message) : Decidable (Released s act) :=
  inferInstanceAs (Decidable (_ → _ ∨ _))

/-- How often a file is to be closed, by what is still open. -/
def due (stdinBehavior : StdIo) (c : Child) (f : Stream) : Nat :=
  if c.holds f then 0 else if opened stdinBehavior f then 1 else 0

/-- Every file that was opened has been closed once or is still held. -/
structure Owned (stdinBehavior : StdIo) (s : Proc) : Prop where
  closed : ∀ f, s.closed.count f = due stdinBehavior s.child f
  held : ∀ f, s.child.holds f = true → opened stdinBehavior f = true

/-- The child and the closed files are the same. -/
structure SameFiles (s s' : Proc) : Prop where
  child : s'.child = s.child
  closed : s'.closed = s.closed

def Child.without (c : Child) : Stream → Child
  | .stdin => { c with stdin := false }
  | .stdout => { c with stdout := false }
  | .stderr => { c with stderr := false }

/-- The file is closed and its field set to null. -/
structure Releases (f : Stream) (s s' : Proc) : Prop where
  held : s.child.holds f = true
  child : s'.child = s.child.without f
  closed : s'.closed = s.closed ++ [f]

/-- What a handler that does not wait for the child does with its files. -/
def Files (s s' : Proc) : Prop := SameFiles s s' ∨ ∃ f, Releases f s s'

/-- The state a handler leaves, on both ways out. -/
def Handled.state : Handled → Proc
  | .ok s | .error s => s

section Handlers
variable {s t u : Proc} {io : Io}

theorem SameFiles.rfl : SameFiles s s := ⟨Eq.refl _, Eq.refl _⟩

theorem SameFiles.trans (first : SameFiles s t) (next : SameFiles t u) : SameFiles s u :=
  ⟨next.child.trans first.child, next.closed.trans first.closed⟩

theorem SameFiles.files (first : SameFiles s t) (next : Files t u) : Files s u := by
  rcases next with same | ⟨f, held, child, closed⟩
  · exact .inl (first.trans same)
  · refine .inr ⟨f, ?_, ?_, ?_⟩
    · rw [← first.child, held]
    · rw [child, first.child]
    · rw [closed, first.closed]

theorem same_send (s : Proc) (io : Io) (r : Report) : SameFiles s (s.send io r).state := by
  unfold Proc.send
  split
  · exact ⟨rfl, rfl⟩
  · exact ⟨rfl, rfl⟩

/-- An error is reported, and ends the actor. -/
theorem handleError_error (s : Proc) (io : Io) (e : Bytes) :
    ∃ q, s.handleError io e = .error q ∧ SameFiles s q := by
  have same := same_send s io (.term e 1)
  unfold Proc.handleError
  cases sent : s.send io (.term e 1) with
  | ok q =>
      rw [sent] at same
      exact ⟨q, rfl, same⟩
  | error q =>
      rw [sent] at same
      exact ⟨q, rfl, same⟩

theorem same_handleError (e : Bytes) : SameFiles s (s.handleError io e).state := by
  obtain ⟨q, error, same⟩ := handleError_error s io e
  rw [error]
  exact same

theorem handleTerm_error (t : Term) : ∃ q, s.handleTerm io t = .error q ∧ SameFiles s q := by
  have reported (how : Bytes) (val : Nat) : ∃ q, (match s.send io (.term how val) with
      | .ok s | .error s => (.error s : Handled)) = .error q ∧ SameFiles s q := by
    have same := same_send s io (.term how val)
    cases sent : s.send io (.term how val) <;> rw [sent] at same <;> exact ⟨_, rfl, same⟩
  unfold Proc.handleTerm
  cases t with
  | exited val => exact reported (text "exited") val
  | signal val => exact reported (text "signal") val
  | stopped val => exact reported (text "stop") val
  | unknown val => exact reported (text "unknown") val

/-- Wait4 is followed by the clean-up in any case. -/
theorem handleTerminate_error (s : Proc) (io : Io) :
    ∃ q, s.handleTerminate io = .error q ∧ SameFiles s.childWaitCleanup q := by
  unfold Proc.handleTerminate
  cases io.wait4 with
  | ok t => exact handleTerm_error t
  | error e => exact handleError_error s.childWaitCleanup io e

theorem same_waitWrite (s : Proc) (io : Io) : SameFiles s (s.waitWrite io).state := by
  unfold Proc.waitWrite
  split
  · exact same_handleError _
  · exact ⟨rfl, rfl⟩

theorem files_stdinClose : Files s s.stdinClose := by
  unfold Proc.stdinClose
  split
  · rename_i held
    exact .inr ⟨.stdin, held, rfl, rfl⟩
  · exact .inl .rfl

theorem files_closePending : Files s s.closePending := by
  unfold Proc.closePending
  split
  · exact files_stdinClose
  · exact .inl .rfl

theorem same_wrote (s : Proc) (io : Io) (n : Nat) : SameFiles s (s.wrote io n).state := by
  unfold Proc.wrote
  dsimp only
  split
  · exact ⟨rfl, rfl⟩
  · split
    · have same := same_waitWrite { s with stdinBuffer := s.stdinBuffer.drop n } io
      exact ⟨same.child, same.closed⟩
    · exact ⟨rfl, rfl⟩

theorem files_stdinReady : Files s (s.stdinReady io).state := by
  unfold Proc.stdinReady
  split
  · exact .inl .rfl
  · split
    · split
      · exact .inl (same_waitWrite s io)
      · exact .inl (same_handleError _)
    · exact .inl (same_handleError _)
    · rename_i n _
      dsimp only
      have same := same_wrote { s with
        written := s.written ++ s.stdinBuffer.take n, writePending := false } io n
      split
      · rename_i q wrote
        rw [wrote] at same
        have first : SameFiles s q := ⟨same.child, same.closed⟩
        exact first.files files_closePending
      · rename_i q wrote
        rw [wrote] at same
        have first : SameFiles s q := ⟨same.child, same.closed⟩
        exact first.files files_closePending

theorem same_stdinChunk (bytes : Bytes) : SameFiles s (s.stdinChunk io bytes).state := by
  unfold Proc.stdinChunk
  split
  · split
    · exact same_handleError _
    · have same := same_waitWrite { s with stdinBuffer := s.stdinBuffer ++ bytes } io
      exact ⟨same.child, same.closed⟩
  · exact .rfl

theorem same_dispatchStdout (waits : s.waits io .stdoutReady = false) :
    SameFiles s (s.dispatchStdout io).state := by
  unfold Proc.dispatchStdout
  split
  · exact same_handleError _
  · rename_i held
    split
    · exact .rfl
    · exact same_handleError _
    · rename_i bytes read
      split
      · rename_i empty
        simp [Proc.waits, read, empty] at waits
        simp [waits] at held
      · exact same_send s io _

theorem same_dispatchStderr : SameFiles s (s.dispatchStderr io).state := by
  unfold Proc.dispatchStderr
  split
  · exact same_handleError _
  · split
    · exact .rfl
    · exact same_handleError _
    · split
      · exact .rfl
      · exact same_send s io _

/-- What is done behind a dispatch that goes on. -/
theorem same_bind {h : Handled} {next : Proc → Handled} (first : SameFiles s h.state)
    (rest : ∀ q, SameFiles q (next q).state) : SameFiles s (Handled.state (h >>= next)) := by
  cases h with
  | ok q => exact first.trans (rest q)
  | error q => exact first

/-- A handler that does not get to wait4 closes at most one file. -/
theorem files_receive {m : Message} (waits : s.waits io m = false) :
    Files s (s.receive io m).state := by
  cases m with
  | stdoutReady =>
      refine .inl (same_bind (same_dispatchStdout waits) fun q => ?_)
      split
      · exact same_handleError _
      · exact ⟨rfl, rfl⟩
      · exact .rfl
  | stderrReady =>
      refine .inl (same_bind same_dispatchStderr fun q => ?_)
      split
      · exact same_handleError _
      · exact ⟨rfl, rfl⟩
      · exact .rfl
  | stdinReady => exact files_stdinReady
  | stdin bytes => exact .inl (same_stdinChunk bytes)
  | stdinClose =>
      rw [Proc.receive]
      split
      · exact .inl ⟨rfl, rfl⟩
      · exact files_stdinClose
  | stdoutClose =>
      rw [Proc.receive]
      split
      · rename_i held
        exact .inr ⟨.stdout, held, rfl, rfl⟩
      · exact .inl .rfl
  | stderrClose =>
      rw [Proc.receive]
      split
      · rename_i held
        exact .inr ⟨.stderr, held, rfl, rfl⟩
      · exact .inl .rfl
  | term => cases waits
  | readError errMsg => exact .inl (same_handleError errMsg)
  | other => exact .inl .rfl

theorem receive_waits {m : Message} (waits : s.waits io m = true) :
    ∃ q, s.receive io m = .error q ∧ SameFiles s.childWaitCleanup q := by
  cases m with
  | term => exact handleTerminate_error s io
  | stdoutReady =>
      obtain ⟨q, ended, same⟩ := handleTerminate_error s io
      have held : s.child.stdout = true ∧ io.read = .ok [] := by simpa [Proc.waits] using waits
      refine ⟨q, ?_, same⟩
      have dispatched : s.dispatchStdout io = .error q := by
        simp [Proc.dispatchStdout, held, ended]
      rw [Proc.receive, dispatched]
      rfl
  | stderrReady | stdinReady | stdin | stdinClose | stdoutClose | stderrClose | readError | other =>
      cases waits

/-- The actor goes on or has failed, with its files in order, or the child has been waited for. -/
theorem fileStep_cases {act : Io × Message} (h : fileStep s act = some t) :
    (s.waits act.1 act.2 = false ∧ Files s t) ∨
      s.waits act.1 act.2 = true ∧ t.running = false ∧ SameFiles s.childWaitCleanup t := by
  rw [fileStep, handle, Option.ite_none_right_eq_some] at h
  obtain ⟨-, h⟩ := h
  cases waits : s.waits act.1 act.2 with
  | false =>
      have files := files_receive waits
      refine .inl ⟨rfl, ?_⟩
      cases handled : s.receive act.1 act.2 with
      | ok q =>
          rw [handled] at h files
          cases h
          exact files
      | error q =>
          rw [handled] at h files
          cases h
          rcases files with same | ⟨f, held, child, closed⟩
          · exact .inl ⟨same.child, same.closed⟩
          · exact .inr ⟨f, held, child, closed⟩
  | true =>
      obtain ⟨q, ended, same⟩ := receive_waits waits
      rw [ended] at h
      cases h
      exact .inr ⟨rfl, rfl, same.child, same.closed⟩

end Handlers

section Runs
variable {stdinBehavior : StdIo} {s t : Proc} {acts : List (Io × Message)}

theorem owned_start (stdinBehavior : StdIo) (pid : Nat) :
    Owned stdinBehavior (Proc.start stdinBehavior pid) where
  closed := by
    intro f
    cases f <;> cases stdinBehavior <;> rfl
  held := by
    intro f
    cases f <;> cases stdinBehavior <;> simp [Proc.start, Child.holds, opened]

theorem holds_without (c : Child) (f g : Stream) :
    (c.without f).holds g = (c.holds g && g ≠ f) := by
  cases f <;> cases g <;> simp [Child.without, Child.holds]

theorem Owned.files (h : Owned stdinBehavior s) (files : Files s t) : Owned stdinBehavior t := by
  rcases files with same | ⟨f, held, child, closed⟩
  · exact ⟨fun f => by rw [same.closed, same.child, h.closed], fun f => by
      rw [same.child]
      exact h.held f⟩
  · constructor
    · intro g
      rw [closed, child, List.count_append, h.closed, due, due, holds_without]
      by_cases own : g = f
      · subst own
        simp [held, h.held g held]
      · simp [own, Ne.symm own]
    · intro g
      rw [child, holds_without, Bool.and_eq_true]
      exact fun both => h.held g both.1

theorem files_id (files : Files s t) : t.child.id = s.child.id := by
  rcases files with same | ⟨f, held, child, closed⟩
  · rw [same.child]
  · rw [child]
    cases f <;> rfl

/-- What the clean-up closes. -/
theorem closed_childWaitCleanup (s : Proc) : s.childWaitCleanup.closed = s.closed ++
    ((if s.child.stdin then [.stdin] else []) ++
      (if s.child.stdout ∧ ¬ s.child.stdin then [.stdout] else []) ++
      if s.child.stderr then [.stderr] else []) := by
  cases stdin : s.child.stdin <;> cases stdout : s.child.stdout <;> cases stderr : s.child.stderr <;>
    simp [Proc.childWaitCleanup, Proc.close, stdin, stdout, stderr]

/-- How often the files have been closed behind the clean-up. -/
theorem Owned.counts (h : Owned stdinBehavior s) (f : Stream) :
    s.childWaitCleanup.closed.count f =
      if f = .stdout ∧ s.child.stdin = true ∧ s.child.stdout = true then 0
      else if opened stdinBehavior f then 1 else 0 := by
  have before := h.closed f
  have held := h.held f
  rw [closed_childWaitCleanup, List.count_append, before]
  cases f with
  | stdin =>
      cases stdin : s.child.stdin <;> cases stdout : s.child.stdout <;>
        cases stderr : s.child.stderr <;> simp_all [due, Child.holds]
  | stdout =>
      cases stdin : s.child.stdin <;> cases stdout : s.child.stdout <;>
        cases stderr : s.child.stderr <;> simp_all [due, Child.holds]
  | stderr =>
      cases stdin : s.child.stdin <;> cases stdout : s.child.stdout <;>
        cases stderr : s.child.stderr <;> simp_all [due, Child.holds]

/-- The clean-up closes each file that is left once, but for stdout where it closes stdin. -/
theorem Owned.cleanup (h : Owned stdinBehavior s) :
    (∀ f, s.childWaitCleanup.closed.count f ≤ 1) ∧
    ((∀ f, opened stdinBehavior f = true → s.childWaitCleanup.closed.count f = 1) ↔
      s.child.stdin = false ∨ s.child.stdout = false) := by
  refine ⟨fun f => ?_, fun all => ?_, fun released f some_ => ?_⟩
  · rw [h.counts]
    split
    · exact Nat.zero_le 1
    · split <;> decide
  · have stdout := all .stdout rfl
    by_contra both
    obtain ⟨stdin, out⟩ := not_or.mp both
    rw [h.counts, if_pos ⟨rfl, Bool.ne_false_iff.mp stdin, Bool.ne_false_iff.mp out⟩] at stdout
    cases stdout
  · have not_both : ¬ (f = .stdout ∧ s.child.stdin = true ∧ s.child.stdout = true) := by
      rintro ⟨-, stdin, stdout⟩
      rcases released with gone | gone
      · exact absurd (stdin.symm.trans gone) (by decide)
      · exact absurd (stdout.symm.trans gone) (by decide)
    rw [h.counts, if_neg not_both, if_pos some_]

theorem stopped_run (stopped : s.running = false) (h : run fileStep s acts = some t) :
    acts = [] ∧ t = s := by
  cases acts with
  | nil => exact ⟨rfl, (Option.some.inj h).symm⟩
  | cons act acts =>
      obtain ⟨u, first, -⟩ := run_cons h
      simp [fileStep, handle, stopped] at first

theorem released_run_iff (h : Owned stdinBehavior s) (waiting : s.child.id ≠ none)
    (ran : run fileStep s acts = some t) (waited : t.child.id = none) :
    (∀ f, t.closed.count f ≤ 1) ∧
    ((∀ f, opened stdinBehavior f = true → t.closed.count f = 1) ↔
      Along fileStep Released s acts) := by
  induction acts generalizing s with
  | nil =>
      cases ran
      exact absurd waited waiting
  | cons act acts ih =>
      obtain ⟨u, first, rest⟩ := run_cons ran
      have along : Along fileStep Released s (act :: acts) ↔
          Released s act ∧ Along fileStep Released u acts := by
        refine and_congr_right fun _ => ⟨fun all => all u first, fun all v next => ?_⟩
        rw [first] at next
        cases next
        exact all
      rcases fileStep_cases first with ⟨goes, files⟩ | ⟨waits, stopped, same⟩
      · have released : Released s act := fun waits => absurd (waits.symm.trans goes) (by decide)
        rw [along, and_iff_right released]
        refine ih (h.files files) ?_ rest
        rw [files_id files]
        exact waiting
      · obtain ⟨rfl, rfl⟩ := stopped_run stopped rest
        have nothing : Along fileStep Released t [] := trivial
        rw [along, and_iff_left nothing, same.closed]
        refine ⟨h.cleanup.1, h.cleanup.2.trans ?_⟩
        exact (imp_iff_right waits).symm

/-- In a run that ends behind wait4 each file has been closed exactly once, if and only if
stdin or stdout was closed before. -/
theorem files_released_iff {pid : Nat}
    (h : run fileStep (Proc.start stdinBehavior pid) acts = some s) (waited : s.child.id = none) :
    (∀ f, s.closed.count f ≤ 1) ∧
    ((∀ f, opened stdinBehavior f = true → s.closed.count f = 1) ↔
      Along fileStep Released (Proc.start stdinBehavior pid) acts) :=
  released_run_iff (owned_start stdinBehavior pid) (by simp [Proc.start]) h waited

/-- The owner writes a byte and closes stdin; then the output ends. -/
def closedInTime : List (Io × Message) :=
  [({}, .stdin (text "x")), ({}, .stdinClose), ({ write := .ok 1 }, .stdinReady),
    ({ read := .ok [] }, .stdoutReady)]

theorem files_released_iff_closed :
    ∃ s, run fileStep (Proc.start .pipe 7) closedInTime = some s ∧
      ∀ f, opened .pipe f = true → s.closed.count f = 1 := by
  obtain ⟨s, h, waited⟩ : ∃ s, run fileStep (Proc.start .pipe 7) closedInTime = some s ∧
      s.child.id = none := ⟨_, rfl, rfl⟩
  exact ⟨s, h, (files_released_iff h waited).2.mpr (by decide)⟩

/-- The output ends while stdin is still open. -/
theorem stdout_leaks :
    ∃ s, run fileStep (Proc.start .pipe 7) [({ read := .ok [] }, .stdoutReady)] = some s ∧
      s.child.id = none ∧ s.closed = [.stdin, .stderr] ∧
      ¬ ∀ f, opened .pipe f = true → s.closed.count f = 1 := by
  refine ⟨_, rfl, rfl, rfl, fun all => ?_⟩
  exact absurd (all .stdout rfl) (by decide)

end Runs

end Thespian.Zig.Subprocess
