import Std.Data.TreeMap
import Std.Data.TreeMap.Lemmas
import Thespian.Cbor.Buffer
import Thespian.Transition.Runs

/-!
The registry of names of a context. While debugging is enabled, spawn enters each
named actor, and a listing on a debug connection drops the names whose actors have
expired. Each section under the registry mutex is one step, and so are the checks
made outside of it: register_instance locks its handle before it locks the
registry, disable clears the registry after it has counted down, and a listing
erases the names it has collected one by one, each under a lock of its own.

A handle does not own its actor. The actor has expired once it has exited and
nobody holds a locked reference.
-/

namespace Thespian.Debug
open Cbor

abbrev ActorId := Nat

inductive Life where
  | alive | exited | expired
  deriving DecidableEq, Repr

/-- How far register_instance has come with an actor. -/
inductive Registration where
  | pending | locked | done
  deriving DecidableEq, Repr

structure Actor where
  name : Bytes
  life : Life := .alive
  registration : Registration := .pending
  deriving DecidableEq, Repr

/-- A debug connection: the names its listing has still to unregister, and
whether unregister_instance has found debugging enabled for the first of them. -/
structure Connection where
  expiredNames : List Bytes := []
  unregistering : Bool := false
  written : Bytes := []
  deriving DecidableEq, Repr

/-- The last field is no part of the context: the actor registered last under a
name, if debugging has stayed enabled since. -/
structure Context where
  debugEnabled : UInt64
  clearing : Nat
  registry : Std.TreeMap Bytes ActorId
  actors : ActorId → Option Actor
  connections : List Connection
  latest : Bytes → Option ActorId

inductive Action where
  | spawn (a : ActorId) (name : Bytes)
  | lock (a : ActorId)
  | register (a : ActorId)
  | exit (a : ActorId)
  | release (a : ActorId)
  | enable
  | disable
  | clear
  | connect
  | list (k : Nat)
  | unregister (k : Nat)
  | erase (k : Nat)
  deriving DecidableEq, Repr

namespace Context
variable (ctx : Context)

def initial : Context := ⟨0, 0, ∅, fun _ => none, [], fun _ => none⟩

def isenabled : Bool := ctx.debugEnabled ≠ 0

def alive (a : ActorId) : Bool :=
  match ctx.actors a with
  | some x => x.life = .alive
  | none => false

def expired (a : ActorId) : Bool :=
  match ctx.actors a with
  | some x => x.life = .expired
  | none => true

def getName (name : Bytes) : Option ActorId := ctx.registry[name]?

/-- The names in the registry, in order, of the actors that have expired or not. -/
def names (expired : Bool) : List Bytes :=
  (ctx.registry.toList.filter fun entry => ctx.expired entry.2 = expired).map Prod.fst

def set (a : ActorId) (x : Actor) : Context :=
  { ctx with actors := fun b => if b = a then some x else ctx.actors b }

def setConnection (k : Nat) (c : Connection) : Context :=
  { ctx with connections := ctx.connections.set k c }

/-- The counter is changed; what was registered before counts no longer once it
is zero. -/
def count (n : UInt64) : Context :=
  { ctx with debugEnabled := n, latest := if n = 0 then fun _ => none else ctx.latest }

def enter (name : Bytes) (a : ActorId) : Context :=
  { ctx with
    registry := ctx.registry.insert name a
    latest := fun n =>
      if n = name then if ctx.isenabled then some a else none else ctx.latest n }

def remove (name : Bytes) : Context := { ctx with registry := ctx.registry.erase name }

end Context

/-- The names of a listing, separated by blanks. -/
def listing (names : List Bytes) : Bytes := (names.intersperse [0x20]).flatten ++ [0x0A]

def step (ctx : Context) : Action → Option Context
  | .spawn a name =>
      match ctx.actors a with
      | none => some (ctx.set a { name })
      | some _ => none
  | .lock a =>
      match ctx.actors a with
      | some x =>
          if x.registration = .pending then
            if ctx.isenabled && !ctx.expired a && !x.name.isEmpty then
              some (ctx.set a { x with registration := .locked })
            else
              some (ctx.set a { x with registration := .done })
          else none
      | none => none
  | .register a =>
      match ctx.actors a with
      | some x =>
          if x.registration = .locked then
            some ((ctx.enter x.name a).set a { x with registration := .done })
          else none
      | none => none
  | .exit a =>
      match ctx.actors a with
      | some x => if x.life = .alive then some (ctx.set a { x with life := .exited }) else none
      | none => none
  | .release a =>
      match ctx.actors a with
      | some x =>
          if x.life = .exited ∧ x.registration ≠ .locked then
            some (ctx.set a { x with life := .expired })
          else none
      | none => none
  | .enable => some (ctx.count (ctx.debugEnabled + 1))
  | .disable =>
      let counted := ctx.count (ctx.debugEnabled - 1)
      if ctx.debugEnabled = 1 then some { counted with clearing := ctx.clearing + 1 }
      else some counted
  | .clear =>
      match ctx.clearing with
      | 0 => none
      | n + 1 => some { ctx with clearing := n, registry := ∅ }
  | .connect => some { ctx with connections := ctx.connections ++ [{}] }
  | .list k =>
      match ctx.connections[k]? with
      | some ⟨[], _, written⟩ =>
          some (ctx.setConnection k
            ⟨ctx.names true, false, written ++ listing (ctx.names false)⟩)
      | _ => none
  | .unregister k =>
      match ctx.connections[k]? with
      | some ⟨name :: names, false, written⟩ =>
          if ctx.isenabled then some (ctx.setConnection k ⟨name :: names, true, written⟩)
          else some (ctx.setConnection k ⟨names, false, written⟩)
      | _ => none
  | .erase k =>
      match ctx.connections[k]? with
      | some ⟨name :: names, true, written⟩ =>
          some ((ctx.remove name).setConnection k ⟨names, false, written⟩)
      | _ => none

end Thespian.Debug
