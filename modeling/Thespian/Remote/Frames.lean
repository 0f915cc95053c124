import Thespian.Remote.System

/-!
What the calls of a node leave alone. Sending, linking and exiting move mailboxes,
links and statuses on; who is there, of what kind, and what the endpoint records
stay the same. Nothing an actor was ever sent is forgotten, and nobody comes back
from shutdown.
-/

namespace Thespian.Remote
open Cbor Zig Transition

/-- Everything that was ever put in the mailbox, in order. -/
def Actor.arrived (x : Actor) : List Mail := x.received ++ x.mailbox

/-- The actor at a later time. -/
structure Later (x x' : Actor) : Prop where
  name : x'.name = x.name
  kind : x'.kind = x.kind
  dead : x.status ≠ .alive → x'.status ≠ .alive
  arrived : x.arrived <+: x'.arrived
  links : ∀ h ∈ x.links, h ∈ x'.links

/-- The actor at a later time, with no turn of its own in between. The mails it was
sent are as described. -/
structure Posted (Q : Mail → Prop) (x x' : Actor) : Prop extends Later x x' where
  posted : ∃ new, x'.mailbox = x.mailbox ++ new ∧ ∀ mail ∈ new, Q mail
  received : x'.received = x.received

/-- The same, with nothing said about the mails. -/
abbrev Moved := Posted fun _ => True

/-- The mails are all from the same sender. -/
abbrev SentBy (sender : Handle) := Posted fun mail => mail.sender = sender

theorem Later.refl (x : Actor) : Later x x := ⟨rfl, rfl, id, List.prefix_rfl, fun _ => id⟩

theorem Later.trans {x y z : Actor} (h : Later x y) (h' : Later y z) : Later x z :=
  ⟨h'.name.trans h.name, h'.kind.trans h.kind, fun dead => h'.dead (h.dead dead),
    h.arrived.trans h'.arrived, fun l member => h'.links l (h.links l member)⟩

section Posted
variable {Q : Mail → Prop} {x y z : Actor}

/-- Nothing was sent. -/
theorem Posted.of_mailbox (later : Later x y) (mailbox : y.mailbox = x.mailbox)
    (received : y.received = x.received) : Posted Q x y :=
  ⟨later, ⟨[], by simp [mailbox], nofun⟩, received⟩

theorem Posted.refl (x : Actor) : Posted Q x x := .of_mailbox (.refl x) rfl rfl

theorem Posted.trans (h : Posted Q x y) (h' : Posted Q y z) : Posted Q x z := by
  obtain ⟨new, sent, allowed⟩ := h.posted
  obtain ⟨more, sent', allowed'⟩ := h'.posted
  refine ⟨h.toLater.trans h'.toLater, ⟨new ++ more, ?_, ?_⟩, h'.received.trans h.received⟩
  · rw [sent', sent, List.append_assoc]
  · exact List.forall_mem_append.mpr ⟨allowed, allowed'⟩

theorem Posted.mono {S : Mail → Prop} (weaker : ∀ mail, Q mail → S mail) (h : Posted Q x y) :
    Posted S x y := by
  obtain ⟨new, sent, allowed⟩ := h.posted
  exact ⟨h.toLater, ⟨new, sent, fun mail member => weaker mail (allowed mail member)⟩, h.received⟩

theorem Posted.moved (h : Posted Q x y) : Moved x y := h.mono fun _ _ => trivial

theorem Posted.mailbox (h : Posted Q x y) : x.mailbox <+: y.mailbox := by
  obtain ⟨new, sent, -⟩ := h.posted
  exact ⟨new, sent.symm⟩

end Posted

/-- Only the actors themselves have moved on, as the relation says. -/
structure Framed (R : Actor → Actor → Prop) (n n' : Node) : Prop where
  actor : ∀ a x, n.actors a = some x → ∃ x', n'.actors a = some x' ∧ R x x'
  absent : ∀ a, n.actors a = none → n'.actors a = none
  endpoint : n'.endpoint = n.endpoint
  procs : n'.procs = n.procs
  next : n'.next = n.next
  remoteProxies : n'.remoteProxies = n.remoteProxies
  accumulator : n'.accumulator = n.accumulator
  outgoing : n'.outgoing = n.outgoing
  deinited : n'.deinited = n.deinited
  framesOut : n'.framesOut = n.framesOut
  framesIn : n'.framesIn = n.framesIn

namespace Framed
variable {R : Actor → Actor → Prop} {Q : Mail → Prop} {n n' n'' : Node}

theorem refl (n : Node) : Framed (Posted Q) n n :=
  ⟨fun _ x h => ⟨x, h, .refl x⟩, fun _ => id, rfl, rfl, rfl, rfl, rfl, rfl, rfl, rfl, rfl⟩

theorem mono {S : Actor → Actor → Prop} (weaker : ∀ x x', R x x' → S x x') (h : Framed R n n') :
    Framed S n n' where
  actor := by
    intro a x known
    obtain ⟨x', known', moved⟩ := h.actor a x known
    exact ⟨x', known', weaker x x' moved⟩
  absent := h.absent
  endpoint := h.endpoint
  procs := h.procs
  next := h.next
  remoteProxies := h.remoteProxies
  accumulator := h.accumulator
  outgoing := h.outgoing
  deinited := h.deinited
  framesOut := h.framesOut
  framesIn := h.framesIn

theorem later (h : Framed (Posted Q) n n') : Framed Later n n' := h.mono fun _ _ => Posted.toLater

theorem moved (h : Framed (Posted Q) n n') : Framed Moved n n' := h.mono fun _ _ => Posted.moved

theorem comp (compose : ∀ {x y z}, R x y → R y z → R x z) (h : Framed R n n')
    (h' : Framed R n' n'') : Framed R n n'' where
  actor := by
    intro a x known
    obtain ⟨x', known', later⟩ := h.actor a x known
    obtain ⟨x'', known'', later'⟩ := h'.actor a x' known'
    exact ⟨x'', known'', compose later later'⟩
  absent := fun a none => h'.absent a (h.absent a none)
  endpoint := h'.endpoint.trans h.endpoint
  procs := h'.procs.trans h.procs
  next := h'.next.trans h.next
  remoteProxies := h'.remoteProxies.trans h.remoteProxies
  accumulator := h'.accumulator.trans h.accumulator
  outgoing := h'.outgoing.trans h.outgoing
  deinited := h'.deinited.trans h.deinited
  framesOut := h'.framesOut.trans h.framesOut
  framesIn := h'.framesIn.trans h.framesIn

theorem trans (h : Framed (Posted Q) n n') (h' : Framed (Posted Q) n' n'') :
    Framed (Posted Q) n n'' :=
  h.comp Posted.trans h'

/-- Nobody has appeared. -/
theorem back (h : Framed R n n') {a : InstanceId} {x' : Actor} (known : n'.actors a = some x') :
    ∃ x, n.actors a = some x ∧ R x x' := by
  cases before : n.actors a with
  | none =>
      rw [h.absent a before] at known
      cases known
  | some x =>
      obtain ⟨y, known', moved⟩ := h.actor a x before
      rw [known] at known'
      cases known'
      exact ⟨x, rfl, moved⟩

theorem alive (h : Framed Later n n') {a : InstanceId} (after : n'.isAlive a = true) :
    n.isAlive a = true := by
  obtain ⟨x', known', status⟩ := Node.isAlive_iff.mp after
  obtain ⟨x, known, moved⟩ := h.back known'
  refine Node.isAlive_iff.mpr ⟨x, known, ?_⟩
  by_contra dead
  exact moved.dead dead status

theorem not_alive (h : Framed Later n n') {a : InstanceId} (dead : n.isAlive a = false) :
    n'.isAlive a = false := by
  rw [Bool.eq_false_iff] at dead ⊢
  exact fun after => dead (h.alive after)

theorem update (n : Node) (a : InstanceId) {f : Actor → Actor} (refl : ∀ x, R x x)
    (moved : ∀ x, R x (f x)) : Framed R n (n.update a f) where
  actor := by
    intro b x known
    by_cases same : b = a
    · subst same
      exact ⟨f x, Node.actors_update_of_some known, moved x⟩
    · exact ⟨x, (Node.actors_update_of_ne same).trans known, refl x⟩
  absent := by
    intro b none
    by_cases same : b = a
    · subst same
      rw [Node.actors_update_self, none]
      rfl
    · exact (Node.actors_update_of_ne same).trans none
  endpoint := rfl
  procs := rfl
  next := rfl
  remoteProxies := rfl
  accumulator := rfl
  outgoing := rfl
  deinited := rfl
  framesOut := rfl
  framesIn := rfl

theorem crash (n : Node) : Framed (Posted Q) n { n with crashed := true } :=
  ⟨fun _ x h => ⟨x, h, .refl x⟩, fun _ => id, rfl, rfl, rfl, rfl, rfl, rfl, rfl, rfl, rfl⟩

theorem post (n : Node) (b : InstanceId) {mail : Mail} (allowed : Q mail) :
    Framed (Posted Q) n (n.post b mail) := by
  refine .update n b Posted.refl fun x =>
    ⟨⟨rfl, rfl, id, ?_, fun _ => id⟩, ⟨[mail], rfl, by simp [allowed]⟩, rfl⟩
  rw [Actor.arrived, Actor.arrived, ← List.append_assoc]
  exact List.prefix_append _ _

theorem sendRaw (n : Node) (current target : Handle) (m : Bytes) (route : Route)
    (allowed : Q ⟨current, m, route⟩) :
    Framed (Posted Q) n (n.sendRaw current target m route).1 := by
  rcases n.sendRaw_cases current target m route with ⟨b, x, rfl, -, -, eq⟩ | ⟨-, sender, eq⟩
  · rw [eq]
    exact .post n b allowed
  · rw [eq]
    exact .refl n

theorem links (n : Node) (a : InstanceId) (h : Handle) :
    Framed (Posted Q) n (n.update a fun x => { x with links := h :: x.links }) :=
  .update n a Posted.refl fun _ =>
    .of_mailbox ⟨rfl, rfl, id, List.prefix_rfl, fun _ => List.mem_cons_of_mem h⟩ rfl rfl

theorem link (n : Node) (a : InstanceId) (target : Handle)
    (allowed : Q ⟨some a, Runtime.linkMsg, .own⟩) : Framed (Posted Q) n (n.link a target) := by
  have sent := Framed.sendRaw n (some a) target Runtime.linkMsg .own allowed
  unfold Node.link
  split
  · rename_i n' eq
    rw [eq] at sent
    exact sent.trans (.links n' a target)
  · rename_i n' f eq
    rw [eq] at sent
    exact sent

theorem notify (n : Node) (a : InstanceId) (m : Bytes) (links : List Handle)
    (allowed : Q ⟨some a, m, .own⟩) :
    Framed (Posted Q) n (links.foldl (fun n h => (n.sendRaw (some a) h m .own).1) n) := by
  induction links generalizing n with
  | nil => exact .refl n
  | cons h links ih => exact (Framed.sendRaw n (some a) h m .own allowed).trans (ih _)

theorem exiting (n : Node) (a : InstanceId) :
    Framed (Posted Q) n (n.update a fun x => { x with status := .exiting }) :=
  .update n a Posted.refl fun _ =>
    .of_mailbox ⟨rfl, rfl, fun _ => nofun, List.prefix_rfl, fun _ => id⟩ rfl rfl

theorem handleExit (n : Node) (a : InstanceId) (m : Bytes)
    (allowed : Q ⟨some a, m, .own⟩) : Framed (Posted Q) n (n.handleExit a m) := by
  unfold Node.handleExit
  split
  · exact .refl n
  · exact (Framed.exiting n a).trans (.notify _ a m _ allowed)

theorem fail (n : Node) (a : InstanceId) (f : Failure)
    (allowed : ∀ m, f = .exit m → Q ⟨some a, m, .own⟩) : Framed (Posted Q) n (n.fail a f) := by
  cases f with
  | exit m => exact .handleExit n a m (allowed m rfl)
  | reachedUnreachable | outOfBounds | exception _ => exact .crash n

theorem settle {r : Outcome} (a : InstanceId) (h : Framed (Posted Q) n r.1)
    (allowed : ∀ m, r.2 = some (.exit m) → Q ⟨some a, m, .own⟩) :
    Framed (Posted Q) n (Node.settle a r) := by
  obtain ⟨m, f⟩ := r
  cases f with
  | none => exact h
  | some f =>
      refine h.trans (.fail m a f ?_)
      rintro m rfl
      exact allowed m rfl

theorem take (n : Node) (a : InstanceId) : Framed Later n (n.take a) := by
  refine .update n a Later.refl fun x => ⟨rfl, rfl, id, ?_, fun _ => id⟩
  rw [Actor.arrived, Actor.arrived, List.append_assoc]
  cases x.mailbox with
  | nil => exact List.prefix_rfl
  | cons mail rest => exact List.prefix_rfl

/-- A proxy sends, links or exits, and does nothing else. -/
theorem proxyReceive {ε : Type} (ext : Externals ε) (n : Node) (self : InstanceId)
    (remoteId : Rpiid) (mail : Mail) :
    Framed (SentBy (some self)) n (proxyReceive ext n self remoteId mail).1 := by
  unfold Remote.proxyReceive
  dsimp only
  split
  · exact .refl n
  · exact .refl n
  · split
    · exact .sendRaw n _ _ _ _ rfl
    · exact .sendRaw n _ _ _ _ rfl
  · exact .sendRaw n _ _ _ _ rfl
  · split
    · exact .link n _ _ rfl
    · exact .refl n
  · exact .sendRaw n _ _ _ _ rfl
  · split
    · exact .sendRaw n _ _ _ _ rfl
    · exact .refl n
  · exact .sendRaw n _ _ _ _ rfl

end Framed

end Thespian.Remote
