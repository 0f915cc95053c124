import Mathlib.Algebra.Group.Nat.Even
import Mathlib.Data.List.Induction

/-!
The trace channels of an environment. The set of the channels that are switched on
is a mask shared by all of them, and a channel is a mask too: a single bit, or the
bits of all channels at once.

Enabling a channel sets its bit. Disabling one flips it, so the bit of a channel
is the last request and how often it was disabled while it was off already.
-/

namespace Thespian.Trace

abbrev ChannelSet := BitVec 32

structure Channel where
  set : ChannelSet
  deriving DecidableEq, Repr

namespace Channel

def send : Channel := ⟨1⟩
def receive : Channel := ⟨2⟩
def lifetime : Channel := ⟨4⟩
def link : Channel := ⟨8⟩
def execute : Channel := ⟨16⟩
def udp : Channel := ⟨32⟩
def tcp : Channel := ⟨64⟩
def timer : Channel := ⟨128⟩
def metronome : Channel := ⟨256⟩
def endpoint : Channel := ⟨512⟩
def signal : Channel := ⟨1024⟩
def all : Channel := ⟨BitVec.intMax 32⟩

/-- A channel of one bit among those of `all`. -/
def Single (c : Channel) : Prop := ∃ i < 31, c.set = BitVec.twoPow 32 i

end Channel

/-- `env_t`, as far as tracing is concerned. A new environment traces nothing, a copy
what the original does. -/
structure Env where
  traceChannels : ChannelSet := 0
  deriving DecidableEq, Repr

namespace Env

def enableAllChannels (e : Env) : Env := { e with traceChannels := Channel.all.set }

def disableAllChannels (e : Env) : Env := { e with traceChannels := 0 }

def enable (e : Env) (c : Channel) : Env := { e with traceChannels := e.traceChannels ||| c.set }

def disable (e : Env) (c : Channel) : Env := { e with traceChannels := e.traceChannels ^^^ c.set }

def enabled (e : Env) (c : Channel) : Bool := e.traceChannels &&& c.set ≠ 0

end Env

inductive Call where
  | enable (c : Channel)
  | disable (c : Channel)
  | enableAllChannels
  | disableAllChannels
  deriving DecidableEq, Repr

namespace Call

def apply (e : Env) : Call → Env
  | .enable c => e.enable c
  | .disable c => e.disable c
  | .enableAllChannels => e.enableAllChannels
  | .disableAllChannels => e.disableAllChannels

def Single : Call → Prop
  | .enable c | .disable c => c.Single
  | .enableAllChannels | .disableAllChannels => True

def affects (d : Channel) : Call → Bool
  | .enable c | .disable c => c = d
  | .enableAllChannels | .disableAllChannels => true

def isEnable : Call → Bool
  | .enable _ | .enableAllChannels => true
  | .disable _ | .disableAllChannels => false

end Call

def Env.run (e : Env) (calls : List Call) : Env := calls.foldl Call.apply e

/-- What a call requests of a channel, where that was requested before. -/
def Call.request (d : Channel) (on : Bool) (call : Call) : Bool :=
  if call.affects d then call.isEnable else on

/-- Whether the most recent call that affects the channel is an enable; what was
the case before, where there is none. -/
def requested (d : Channel) (before : Bool) (calls : List Call) : Bool :=
  ((calls.filter (Call.affects d)).getLast?.map Call.isEnable).getD before

/-- The calls that have disabled the channel while it was off, since one that does
not depend on the previous state. -/
def Call.countIdle (d : Channel) (on : Bool) (n : Nat) : Call → Nat
  | .enable c => if c = d then 0 else n
  | .disable c => if c = d ∧ on = false then n + 1 else n
  | .enableAllChannels | .disableAllChannels => 0

def idleDisables (d : Channel) : Bool → Nat → List Call → Nat
  | _, n, [] => n
  | on, n, call :: calls => idleDisables d (call.request d on) (call.countIdle d on n) calls

section Bits
variable {c d : Channel}

theorem enabled_eq_bit {i : Nat} (bit : d.set = BitVec.twoPow 32 i) (small : i < 31) (e : Env) :
    e.enabled d = e.traceChannels.getLsbD i := by
  have inside : i < 32 := by omega
  have differs : BitVec.twoPow 32 i ≠ 0#32 := by
    intro zero
    have selected := congrArg (fun bits => bits.getLsbD i) zero
    simp [inside] at selected
  rw [Env.enabled, bit, BitVec.and_twoPow]
  cases e.traceChannels.getLsbD i with
  | true => simp [differs]
  | false => simp

/-- A bit of a single channel's mask is set in the mask of that channel only. -/
theorem bit_iff {i : Nat} (bit : d.set = BitVec.twoPow 32 i) (small : i < 31) (single : c.Single) :
    c.set.getLsbD i = decide (c = d) := by
  obtain ⟨j, bound, bit'⟩ := single
  rw [bit', BitVec.getLsbD_twoPow]
  by_cases same : j = i
  · have equal : c = d := by
      rw [← same] at bit
      exact congrArg Channel.mk (bit'.trans bit.symm)
    have inside : i < 32 := by omega
    simp [same, equal, inside]
  · have apart : c ≠ d := by
      intro equal
      have masks : BitVec.twoPow 32 j = BitVec.twoPow 32 i := by rw [← bit', equal, bit]
      have selected := congrArg (fun bits => bits.getLsbD i) masks
      have inside : i < 32 := by omega
      simp only [BitVec.getLsbD_twoPow, inside, same, decide_false, Bool.and_false, decide_true,
        Bool.and_true] at selected
      cases selected
    simp [same, apart]

theorem enabled_enable (tested : d.Single) (single : c.Single) (e : Env) :
    (e.enable c).enabled d = (e.enabled d || decide (c = d)) := by
  obtain ⟨i, small, bit⟩ := tested
  rw [enabled_eq_bit bit small, enabled_eq_bit bit small, Env.enable, BitVec.getLsbD_or,
    bit_iff bit small single]

/-- Disabling a channel switches it over. -/
theorem enabled_disable (tested : d.Single) (single : c.Single) (e : Env) :
    (e.disable c).enabled d = (e.enabled d ^^ decide (c = d)) := by
  obtain ⟨i, small, bit⟩ := tested
  rw [enabled_eq_bit bit small, enabled_eq_bit bit small, Env.disable, BitVec.getLsbD_xor,
    bit_iff bit small single]

theorem enabled_enableAllChannels (tested : d.Single) (e : Env) :
    e.enableAllChannels.enabled d = true := by
  obtain ⟨i, small, bit⟩ := tested
  rw [enabled_eq_bit bit small, Env.enableAllChannels, Channel.all, BitVec.getLsbD_intMax]
  simp only [decide_eq_true_eq]
  omega

theorem enabled_disableAllChannels (e : Env) : e.disableAllChannels.enabled d = false := by
  simp [Env.enabled, Env.disableAllChannels]

end Bits

section Requests
variable {d : Channel}

theorem requested_cons (before : Bool) (call : Call) (calls : List Call) :
    requested d before (call :: calls) = requested d (call.request d before) calls := by
  by_cases affected : call.affects d = true
  · rw [requested, requested, List.filter_cons_of_pos affected, Call.request, if_pos affected]
    cases calls.filter (Call.affects d) with
    | nil => rfl
    | cons first rest =>
        rw [List.getLast?_cons_cons]
        cases found : (first :: rest).getLast? with
        | none => simp at found
        | some last => rfl
  · rw [requested, requested, List.filter_cons_of_neg affected, Call.request, if_neg affected]

/-- The bit of a channel is what was requested, switched over once for each time it
was disabled idly. -/
def Follows (d : Channel) (on : Bool) (n : Nat) (e : Env) : Prop :=
  e.enabled d = (on ^^ decide (n % 2 = 1))

theorem Follows.apply (tested : d.Single) {call : Call} (single : call.Single) {on : Bool} {n : Nat}
    {e : Env} (follows : Follows d on n e) :
    Follows d (call.request d on) (call.countIdle d on n) (call.apply e) := by
  rw [Follows] at follows ⊢
  cases call with
  | enable c =>
      rw [Call.apply, enabled_enable tested single, follows]
      by_cases same : c = d <;> simp [Call.request, Call.affects, Call.isEnable, Call.countIdle, same]
  | disable c =>
      rw [Call.apply, enabled_disable tested single, follows]
      by_cases same : c = d
      · cases on with
        | true => simp [Call.request, Call.affects, Call.isEnable, Call.countIdle, same]
        | false =>
            have parity : decide ((n + 1) % 2 = 1) = !decide (n % 2 = 1) := by
              rcases Nat.mod_two_eq_zero_or_one n with even | odd <;>
                simp [Nat.succ_mod_two_eq_one_iff, *]
            simp [Call.request, Call.affects, Call.isEnable, Call.countIdle, same, parity]
      · simp [Call.request, Call.affects, Call.countIdle, same]
  | enableAllChannels => exact enabled_enableAllChannels tested e
  | disableAllChannels => exact enabled_disableAllChannels e

theorem Follows.run (tested : d.Single) {calls : List Call} (single : ∀ call ∈ calls, call.Single)
    {on : Bool} {n : Nat} {e : Env} (follows : Follows d on n e) :
    Follows d (requested d on calls) (idleDisables d on n calls) (e.run calls) := by
  induction calls generalizing e on n with
  | nil => exact follows
  | cons call calls ih =>
      rw [requested_cons, idleDisables]
      exact ih (fun c hc => single c (List.mem_cons_of_mem call hc))
        (follows.apply tested (single call List.mem_cons_self))

theorem idleDisables_append (on : Bool) (n : Nat) (calls more : List Call) :
    idleDisables d on n (calls ++ more) =
      idleDisables d (requested d on calls) (idleDisables d on n calls) more := by
  induction calls generalizing on n with
  | nil => rfl
  | cons call calls ih => rw [List.cons_append, idleDisables, idleDisables, ih, requested_cons]

/-- While every disable comes when the channel is on, none is idle. -/
theorem idleDisables_eq_zero {on : Bool} {calls : List Call}
    (awake : ∀ before after, calls = before ++ .disable d :: after →
      requested d on before = true) : idleDisables d on 0 calls = 0 := by
  induction calls generalizing on with
  | nil => rfl
  | cons call calls ih =>
      have first : call.countIdle d on 0 = 0 := by
        cases call with
        | enable c => simp [Call.countIdle]
        | disable c =>
            rw [Call.countIdle, if_neg]
            rintro ⟨rfl, off⟩
            have on_ := awake [] calls rfl
            exact absurd (off.symm.trans on_) Bool.false_ne_true
        | enableAllChannels | disableAllChannels => rfl
      rw [idleDisables, first]
      apply ih
      intro before after split
      rw [← requested_cons]
      exact awake (call :: before) after (by rw [split, List.cons_append])

end Requests

/-- A channel is enabled exactly if the last call that affects it was an enable and
only if it was disabled an even number of times while it was off. It is so after all
the calls of a sequence if it never was. Calls for one channel do not change another. -/
theorem channels_follow_requests_iff (e : Env) (calls : List Call)
    (single : ∀ call ∈ calls, call.Single) (d : Channel) (tested : d.Single) :
    ((e.run calls).enabled d = requested d (e.enabled d) calls ↔
      Even (idleDisables d (e.enabled d) 0 calls)) ∧
    ((∀ before after, calls = before ++ after →
        (e.run before).enabled d = requested d (e.enabled d) before) ↔
      ∀ before after, calls = before ++ .disable d :: after →
        requested d (e.enabled d) before = true) ∧
    (∀ call ∈ calls, call.affects d = false →
      ∀ e : Env, (call.apply e).enabled d = e.enabled d) ∧
    ∀ e : Env, (e.disable d).enabled d = !e.enabled d := by
  have start : Follows d (e.enabled d) 0 e := by simp [Follows]
  have agrees : ∀ calls : List Call, (∀ call ∈ calls, call.Single) →
      ((e.run calls).enabled d = requested d (e.enabled d) calls ↔
        Even (idleDisables d (e.enabled d) 0 calls)) := by
    intro calls single
    have follows := start.run tested single
    rw [Follows] at follows
    rw [follows, Nat.even_iff]
    cases requested d (e.enabled d) calls <;>
      rcases Nat.mod_two_eq_zero_or_one (idleDisables d (e.enabled d) 0 calls) with even | odd <;>
        simp [*]
  refine ⟨agrees calls single, ⟨?_, ?_⟩, ?_, ?_⟩
  · intro all before after split
    have parts : ∀ call ∈ before ++ [Call.disable d], call.Single := by
      intro call member
      refine single call ?_
      rw [split, List.append_cons]
      exact List.mem_append_left after member
    have earlier := (agrees before fun call member =>
      parts call (List.mem_append_left _ member)).mp (all before _ split)
    have later := (agrees _ parts).mp (all _ after (by rw [split, List.append_cons]))
    rw [idleDisables_append] at later
    cases off : requested d (e.enabled d) before with
    | true => rfl
    | false =>
        have counted : Even (idleDisables d (e.enabled d) 0 before + 1) := by
          simpa [idleDisables, Call.countIdle, off] using later
        exact absurd earlier (Nat.even_add_one.mp counted)
  · intro awake before after split
    have none : idleDisables d (e.enabled d) 0 before = 0 := by
      apply idleDisables_eq_zero
      intro first rest split'
      exact awake first (rest ++ after) (by rw [split, split', List.append_assoc, List.cons_append])
    refine (agrees before fun call member => single call ?_).mpr (by rw [none]; exact Even.zero)
    rw [split]
    exact List.mem_append_left after member
  · intro call member unaffected e
    cases call with
    | enable c =>
        have other : c ≠ d := of_decide_eq_false unaffected
        rw [Call.apply, enabled_enable tested (single _ member)]
        simp [other]
    | disable c =>
        have other : c ≠ d := of_decide_eq_false unaffected
        rw [Call.apply, enabled_disable tested (single _ member)]
        simp [other]
    | enableAllChannels | disableAllChannels => cases unaffected
  · intro e
    rw [enabled_disable tested tested]
    simp

theorem send_single : Channel.send.Single := ⟨0, by decide, rfl⟩

theorem channels_follow_requests_iff_send :
    (({} : Env).run [.enable .send, .disable .send]).enabled .send = false := by
  have calls : ∀ call ∈ [Call.enable .send, .disable .send], call.Single := by
    simp [Call.Single, send_single]
  exact (channels_follow_requests_iff {} [.enable .send, .disable .send] calls .send
    send_single).1.mpr (by decide)

/-- The first disable of a new environment switches the channel on. -/
theorem disable_switches_on :
    (({} : Env).run [.disable .send]).enabled .send = true ∧
      requested .send (({} : Env).enabled .send) [.disable .send] = false := by decide

end Thespian.Trace
