import Thespian.Runtime.Instance
import Thespian.Transition.Runs

/-!
A synchronous call. The caller waits for an event while an actor of its own sends the
request and takes the response. The two share a context that each of them holds once;
the last one out frees it, with a response that was never handed over. The actor lets go
of it in the destructor of its receiver, so it does so only if it came to install one.

The target and the request belong to the caller. They are there as long as the caller is
in the call; what the actor reads of them later is gone. A step that uses what is gone
sets the fault flag.
-/

namespace Thespian.Zig
open Cbor Thespian.Runtime

/-- Where the caller stands in `CallContext.call`. -/
inductive Caller where
  | spawning
  | waiting
  | taking
  | releasing
  | destroying
  | returned
  deriving DecidableEq

/-- Where the actor of the call stands, from `start` to the destructor of its receiver.
It is dead when it has ended without a receiver. -/
inductive CallActor where
  | unborn
  | spawned
  | sending
  | receiving
  | failing
  | waiting
  | notifying
  | exiting
  | releasing
  | destroying
  | gone
  | dead
  deriving DecidableEq

inductive CallResult where
  | response (m : Bytes)
  | empty
  | timeout
  | spawnFailed
  deriving DecidableEq

/-- `CallContext`, with the two threads that use it. The copies of responses that were
made, handed to the caller and freed are not in the source. -/
structure CallContext where
  caller : Caller := .spawning
  actor : CallActor := .unborn
  live : Bool := true
  refs : Nat := 2
  origin : Bool := true
  response : Option Bytes := none
  done : Bool := false
  result : Option CallResult := none
  cloned : List Bytes := []
  handed : List Bytes := []
  freed : List Bytes := []
  fault : Bool := false
  deriving DecidableEq

/-- What the two threads do next; what depends on the rest of the world is part of the action. -/
inductive CallAction where
  | spawn (ok : Bool)
  | wake
  | expire
  | take
  | callerReleases
  | callerDestroys
  | link
  | send (ok : Bool)
  | receive
  | fail
  | deliver (m : Bytes) (cloned : Bool)
  | notify
  | exit
  | actorReleases
  | actorDestroys
  deriving DecidableEq

namespace CallContext

/-- An access to the context. -/
def use (s : CallContext) (next : CallContext) : CallContext :=
  if s.live then next else { s with fault := true }

/-- An access to what the caller has lent to the call. -/
def useLent (s : CallContext) (next : CallContext) : CallContext :=
  if s.live ∧ s.caller ≠ .returned then next else { s with fault := true }

/-- `destroy` of the context in `release`, with a response that nobody has taken. -/
def destroy (s : CallContext) : CallContext :=
  { s with freed := s.freed ++ s.response.toList, response := none, live := false }

/-- A message for the actor of the call, which does not trap exits. -/
def deliver (s : CallContext) (m : Bytes) (cloned : Bool) : CallContext :=
  if isLinkMsg m then s
  else match isExitMsg m with
  | .error _ => { s with actor := .exiting }
  | .ok true => if m ≠ exitNormalMsg then { s with actor := .exiting } else s
  | .ok false =>
      if cloned then
        s.use { s with response := some m, cloned := s.cloned ++ [m], actor := .notifying }
      else { s with actor := .exiting }

/-- A message in front of the one that runs the behaviour. -/
def deliverEarly (s : CallContext) (m : Bytes) : CallContext :=
  if isLinkMsg m then s
  else match isExitMsg m with
  | .error _ => { s with actor := .dead }
  | .ok true => if m ≠ exitNormalMsg then { s with actor := .dead } else s
  | .ok false => s

def stepCaller (s : CallContext) : CallAction → Option CallContext
  | .spawn ok =>
      if s.caller ≠ .spawning then none
      else if ok then some { s with caller := .waiting, actor := .spawned }
      else some { s with caller := .returned, origin := false, live := false,
                         result := some .spawnFailed }
  | .wake =>
      if s.caller = .waiting ∧ s.done then some (s.use { s with caller := .taking }) else none
  | .expire =>
      if s.caller = .waiting then
        some (s.use { s with caller := .releasing, result := some .timeout })
      else none
  | .take =>
      if s.caller ≠ .taking then none
      else some (s.use (match s.response with
        | none => { s with caller := .releasing, result := some .empty }
        | some m => { s with caller := .releasing, result := some (.response m), response := none,
                             handed := s.handed ++ [m] }))
  | .callerReleases =>
      if s.caller = .releasing then
        some (s.use { s with refs := s.refs - 1,
                             caller := if s.refs = 1 then .destroying else .returned })
      else none
  | .callerDestroys =>
      if s.caller = .destroying then some (s.use { s.destroy with caller := .returned }) else none
  | _ => none

def stepActor (s : CallContext) : CallAction → Option CallContext
  | .link => if s.actor = .spawned then some (s.useLent { s with actor := .sending }) else none
  | .send ok =>
      if s.actor = .sending then
        some (s.useLent { s with actor := if ok then .receiving else .failing })
      else none
  | .receive =>
      if s.actor = .receiving then some (s.use { s with actor := .waiting }) else none
  | .fail =>
      if s.actor = .failing then some (s.use { s with done := true, actor := .dead }) else none
  | .deliver m cloned =>
      match s.actor with
      | .spawned => some (s.deliverEarly m)
      | .waiting => some (s.deliver m cloned)
      | _ => none
  | .notify =>
      if s.actor = .notifying then some (s.use { s with done := true, actor := .exiting }) else none
  | .exit =>
      if s.actor = .exiting then
        if s.origin then some (s.use { s with origin := false, actor := .releasing })
        else some { s with fault := true }
      else none
  | .actorReleases =>
      if s.actor = .releasing then
        some (s.use { s with refs := s.refs - 1,
                             actor := if s.refs = 1 then .destroying else .gone })
      else none
  | .actorDestroys =>
      if s.actor = .destroying then some (s.use { s.destroy with actor := .gone }) else none
  | _ => none

def step (s : CallContext) (a : CallAction) : Option CallContext :=
  (s.stepCaller a).or (s.stepActor a)

end CallContext

end Thespian.Zig
