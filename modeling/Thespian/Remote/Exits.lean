import Thespian.Remote.Network

/-!
Who exits in a step, and with which message. A step of a node is taken by one actor at
most, which takes one mail and may exit; everybody else only gets mails. When an actor
exits, everybody it is linked with and who is alive is sent its message.
-/

namespace Thespian.Remote
open Decoding Decoding.Decoder Cbor Zig Transition

namespace Node
variable {ε : Type} (ext : Externals ε)

def linksOf (n : Node) (a : InstanceId) : List Handle := ((n.actors a).map Actor.links).getD []

/-- The message with which the actor exits on the mail, if it does. -/
def lastWords (n : Node) (a : InstanceId) (x : Actor) (mail : Mail) : Option Bytes :=
  let isLink := Runtime.isLinkMsg mail.body
  let n := if isLink then n.update a fun x => { x with links := mail.sender :: x.links } else n
  let failure (outcome : Outcome) : Option Bytes :=
    match outcome.2 with
    | some (.exit m) => some m
    | _ => none
  if isLink && !observesLinks x.kind then none
  else if x.status ≠ .alive then none
  else if traps x.kind then failure (n.receive ext a x.kind mail)
  else match Runtime.isExitMsg mail.body with
    | .error e => some (Runtime.Exception.std e.what).exitMessage
    | .ok true => if mail.body ≠ Runtime.exitNormalMsg then some mail.body else none
    | .ok false => failure (n.receive ext a x.kind mail)

/-- Who exits in a step of the node's own, and with which message. -/
def exitOf (n : Node) : Action → Option (InstanceId × Bytes)
  | .quit a m => some (a, m)
  | .stop m => some (n.endpoint, m)
  | .turn a =>
      match n.actors a with
      | some x =>
          match x.mailbox with
          | mail :: _ => ((n.take a).lastWords ext a x mail).map fun m => (a, m)
          | [] => none
      | none => none
  | _ => none

end Node

/-- What a step leaves of a node, where one actor may take a mail and one may exit. -/
structure Passes (taker leaver : Handle) (n n' : Node) : Prop where
  kind : ∀ a k, n.kindOf a = some k → n'.kindOf a = some k
  gone : ∀ a, Gone a n → Gone a n'
  alive : ∀ a, leaver ≠ some a → n.isAlive a = true → n'.isAlive a = true
  arrived : ∀ a, n.arrived a <+: n'.arrived a
  mailbox : ∀ a mail, mail ∈ (if taker = some a then (n.mailbox a).tail else n.mailbox a) →
    mail ∈ n'.mailbox a
  links : ∀ a h, h ∈ n.linksOf a → h ∈ n'.linksOf a
  received : ∀ a, n'.received a =
    n.received a ++ if taker = some a then (n.mailbox a).take 1 else []
  endpoint : n'.endpoint = n.endpoint

section Passes
variable {n n' n'' : Node} {taker leaver : Handle} {a : InstanceId}

theorem Passes.refl (n : Node) : Passes none none n n :=
  ⟨fun _ _ => id, fun _ => id, fun _ _ => id, fun _ => List.prefix_rfl, fun _ _ => id, fun _ _ => id,
    fun _ => (List.append_nil _).symm, rfl⟩

theorem Passes.trans (h : Passes taker none n n') (h' : Passes none leaver n' n'') :
    Passes taker leaver n n'' where
  kind := fun a k known => h'.kind a k (h.kind a k known)
  gone := fun a gone => h'.gone a (h.gone a gone)
  alive := fun a stays alive => h'.alive a stays (h.alive a nofun alive)
  arrived := fun a => (h.arrived a).trans (h'.arrived a)
  mailbox := fun a mail waits => h'.mailbox a mail (h.mailbox a mail waits)
  links := fun a l member => h'.links a l (h.links a l member)
  received := fun a => (h'.received a).trans ((List.append_nil _).trans (h.received a))
  endpoint := h'.endpoint.trans h.endpoint

theorem linksOf_of_some {x : Actor} (known : n.actors a = some x) : n.linksOf a = x.links := by
  simp [Node.linksOf, known]

theorem mailbox_of_some {x : Actor} (known : n.actors a = some x) : n.mailbox a = x.mailbox := by
  simp [Node.mailbox, known]

theorem Framed.linksOf (framed : Framed Later n n') {h : Handle} (member : h ∈ n.linksOf a) :
    h ∈ n'.linksOf a := by
  cases known : n.actors a with
  | none => simp [Node.linksOf, known] at member
  | some x =>
      obtain ⟨x', known', later⟩ := framed.actor a x known
      rw [linksOf_of_some known] at member
      rw [linksOf_of_some known']
      exact later.links h member

theorem Framed.arrived (framed : Framed Later n n') (a : InstanceId) :
    n.arrived a <+: n'.arrived a := by
  cases known : n.actors a with
  | none => simp [Node.arrived, known]
  | some x =>
      obtain ⟨x', known', later⟩ := framed.actor a x known
      rw [Node.arrived_of_some known, Node.arrived_of_some known']
      exact later.arrived

theorem Framed.mailbox (framed : Framed Moved n n') (a : InstanceId) :
    n.mailbox a <+: n'.mailbox a := by
  cases known : n.actors a with
  | none => simp [Node.mailbox, known]
  | some x =>
      obtain ⟨x', known', moved⟩ := framed.actor a x known
      rw [mailbox_of_some known, mailbox_of_some known']
      exact moved.mailbox

theorem Framed.received (framed : Framed Moved n n') (a : InstanceId) :
    n'.received a = n.received a := by
  cases known : n.actors a with
  | none => simp [Node.received, known, framed.absent a known]
  | some x =>
      obtain ⟨x', known', moved⟩ := framed.actor a x known
      simp [Node.received, known, known', moved.received]

/-- What moves actors on, with the statuses given. -/
theorem Passes.of_framed (framed : Framed Moved n n')
    (alive : ∀ a, leaver ≠ some a → n.isAlive a = true → n'.isAlive a = true) :
    Passes none leaver n n' where
  kind := fun a _ => ((framed.later.kindOf a).trans ·)
  gone := fun _ gone => gone.framed framed.later
  alive := alive
  arrived := framed.later.arrived
  mailbox := fun a _ waits => (framed.mailbox a).subset waits
  links := fun _ _ => framed.later.linksOf
  received := fun a => (framed.received a).trans (List.append_nil _).symm
  endpoint := framed.endpoint

theorem Passes.of_fields (actors : n'.actors = n.actors) (endpoint : n'.endpoint = n.endpoint) :
    Passes none none n n' := by
  refine ⟨?_, ?_, ?_, ?_, ?_, ?_, ?_, endpoint⟩
  · simp only [Node.kindOf, actors]
    exact fun _ _ => id
  · simp only [Gone, actors]
    exact fun _ => id
  · simp only [Node.isAlive, Node.status, actors]
    exact fun _ _ => id
  · simp only [Node.arrived, actors]
    exact fun _ => List.prefix_rfl
  · simp only [Node.mailbox, actors]
    exact fun _ _ => id
  · simp only [Node.linksOf, actors]
    exact fun _ _ => id
  · simp [Node.received, actors]

theorem isAlive_update {f : Actor → Actor} (b : InstanceId) (same : ∀ x, (f x).status = x.status) :
    (n.update a f).isAlive b = n.isAlive b := by
  by_cases here : b = a
  · subst here
    cases known : n.actors b with
    | none => simp [Node.isAlive, Node.status, known]
    | some x => simp [Node.isAlive, Node.status, known, same]
  · exact Node.isAlive_congr (Node.actors_update_of_ne here)

theorem isAlive_sendRaw (current target : Handle) (m : Bytes) (route : Route) (b : InstanceId) :
    (n.sendRaw current target m route).1.isAlive b = n.isAlive b := by
  rw [Node.isAlive, Node.isAlive, sendRaw_status]

theorem Passes.sendRaw (n : Node) (current target : Handle) (m : Bytes) (route : Route) :
    Passes none none n (n.sendRaw current target m route).1 := by
  refine .of_framed (.sendRaw n current target m route trivial) fun b _ alive => ?_
  rw [isAlive_sendRaw]
  exact alive

theorem Passes.addLink (n : Node) (a : InstanceId) (h : Handle) :
    Passes none none n (n.update a fun x => { x with links := h :: x.links }) := by
  refine .of_framed (.links n a h) fun b _ alive => (isAlive_update b ?_).trans alive
  exact fun _ => rfl

theorem Passes.link (n : Node) (a : InstanceId) (target : Handle) :
    Passes none none n (n.link a target) := by
  have sent := Passes.sendRaw n (some a) target Runtime.linkMsg .own
  unfold Node.link
  split
  · rename_i n' eq
    rw [eq] at sent
    exact sent.trans (.addLink n' a target)
  · rename_i n' f eq
    rw [eq] at sent
    exact sent

theorem Passes.spawn (fresh : n.actors n.nextId = none) (name : Bytes) (kind : Kind) :
    Passes none none n (n.spawn name kind) := by
  have listed (f : Actor → List Mail) (b : InstanceId) : ((n.actors b).map f).getD [] <+:
      (((n.spawn name kind).actors b).map f).getD [] := by
    cases known : n.actors b with
    | none => exact List.nil_prefix
    | some x => rw [spawn_known fresh known]
  refine ⟨?_, ?_, ?_, listed Actor.arrived, ?_, ?_, ?_, rfl⟩
  · exact fun _ _ => spawn_kinds fresh
  · exact fun _ gone => gone.spawn fresh name kind
  · intro b _ alive
    obtain ⟨x, known, status⟩ := Node.isAlive_iff.mp alive
    exact Node.isAlive_iff.mpr ⟨x, spawn_known fresh known, status⟩
  · exact fun b mail waits => (listed Actor.mailbox b).subset waits
  · intro b h member
    cases known : n.actors b with
    | none => simp [Node.linksOf, known] at member
    | some x =>
        rw [linksOf_of_some (spawn_known fresh known)]
        rw [linksOf_of_some known] at member
        exact member
  · intro b
    rw [if_neg nofun, List.append_nil]
    cases known : n.actors b with
    | some x => simp [Node.received, known, spawn_known fresh known]
    | none =>
        cases after : (n.spawn name kind).actors b with
        | none => simp [Node.received, known, after]
        | some y =>
            rcases spawn_cases after with before | ⟨-, rfl⟩
            · rw [known] at before
              cases before
            · simp [Node.received, known, after]

theorem Passes.take (n : Node) (a : InstanceId) : Passes (some a) none n (n.take a) where
  kind := fun b _ => (((Framed.take n a).kindOf b).trans ·)
  gone := fun _ gone => gone.framed (.take n a)
  alive := by
    refine fun b _ alive => (isAlive_update b ?_).trans alive
    exact fun _ => rfl
  arrived := (Framed.take n a).arrived
  mailbox := by
    intro b mail waits
    by_cases same : b = a
    · subst same
      rw [if_pos rfl] at waits
      cases known : n.actors b with
      | none => simp [Node.mailbox, known] at waits
      | some x =>
          rw [mailbox_of_some known] at waits
          rw [mailbox_of_some (take_known known)]
          exact waits
    · rw [if_neg fun eq => same (Option.some.inj eq).symm] at waits
      rw [Node.mailbox, take_others same]
      exact waits
  links := fun _ _ => (Framed.take n a).linksOf
  received := by
    intro b
    by_cases same : b = a
    · subst same
      rw [if_pos rfl]
      cases known : n.actors b with
      | none => simp [Node.received, Node.mailbox, Node.take, Node.update, known]
      | some x => simp [Node.received, Node.mailbox, known, take_known known]
    · rw [if_neg fun eq => same (Option.some.inj eq).symm, List.append_nil, Node.received,
        take_others same, Node.received]
  endpoint := rfl

theorem mem_post {b : InstanceId} {x : Actor} (known : n.actors b = some x) (mail : Mail) :
    mail ∈ (n.post b mail).mailbox b := by
  have after : (n.post b mail).actors b = some { x with mailbox := x.mailbox ++ [mail] } :=
    Node.actors_update_of_some known
  rw [mailbox_of_some after]
  simp

theorem isAlive_notify (links : List Handle) (n : Node) (a : InstanceId) (m : Bytes)
    (b : InstanceId) :
    (links.foldl (fun n h => (n.sendRaw (some a) h m .own).1) n).isAlive b = n.isAlive b := by
  induction links generalizing n with
  | nil => rfl
  | cons h links ih => rw [List.foldl_cons, ih, isAlive_sendRaw]

theorem isAlive_handleExit {b : InstanceId} (other : b ≠ a) (m : Bytes) :
    (n.handleExit a m).isAlive b = n.isAlive b := by
  unfold Node.handleExit
  split
  · rfl
  · rw [isAlive_notify]
    exact Node.isAlive_congr (Node.actors_update_of_ne other)

theorem Passes.handleExit (n : Node) (a : InstanceId) (m : Bytes) :
    Passes none (some a) n (n.handleExit a m) := by
  refine .of_framed (.handleExit n a m trivial) fun b stays alive => ?_
  rw [isAlive_handleExit (fun same => stays (congrArg some same.symm))]
  exact alive

theorem notify_tells {links : List Handle} {b : InstanceId} (member : some b ∈ links)
    (alive : n.isAlive b = true) (m : Bytes) :
    ⟨some a, m, .own⟩ ∈
      (links.foldl (fun n h => (n.sendRaw (some a) h m .own).1) n).mailbox b := by
  induction links generalizing n with
  | nil => cases member
  | cons h links ih =>
      rw [List.foldl_cons]
      rcases List.mem_cons.mp member with rfl | member
      · obtain ⟨x, known, status⟩ := Node.isAlive_iff.mp alive
        have later : Framed Moved _ (links.foldl (fun n h => (n.sendRaw (some a) h m .own).1)
            (n.sendRaw (some a) (some b) m .own).1) := .notify _ a m links trivial
        refine (later.mailbox b).subset ?_
        rw [Node.sendRaw_of_alive known status]
        exact mem_post known _
      · exact ih member (by rw [isAlive_sendRaw]; exact alive)

/-- Everybody the actor is linked with is sent its message. -/
theorem handleExit_tells {b : InstanceId} (member : some b ∈ n.linksOf a) (other : b ≠ a)
    (alive : n.isAlive b = true) (m : Bytes) :
    ⟨some a, m, .own⟩ ∈ (n.handleExit a m).mailbox b := by
  cases known : n.actors a with
  | none => simp [Node.linksOf, known] at member
  | some x =>
      rw [linksOf_of_some known] at member
      unfold Node.handleExit
      rw [known]
      refine notify_tells member ?_ m
      exact (Node.isAlive_congr (Node.actors_update_of_ne other)).trans alive

/-- The actor exits with the message. -/
structure Departs (taker : Handle) (n n' : Node) (a : InstanceId) (m : Bytes) : Prop where
  passes : Passes taker (some a) n n'
  dead : n'.isAlive a = false
  tells : ∀ b, some b ∈ n.linksOf a → b ≠ a → n.isAlive b = true → ⟨some a, m, .own⟩ ∈ n'.mailbox b

theorem Departs.handleExit {x : Actor} (known : n.actors a = some x) (m : Bytes) :
    Departs none n (n.handleExit a m) a m :=
  ⟨.handleExit n a m, handleExit_dead known m,
    fun _ member other alive => handleExit_tells member other alive m⟩

theorem Departs.after {m : Bytes} (h : Passes taker none n n') (h' : Departs none n' n'' a m) :
    Departs taker n n'' a m where
  passes := h.trans h'.passes
  dead := h'.dead
  tells := fun b member other alive => h'.tells b (h.links a _ member) other (h.alive b nofun alive)

end Passes

section Steps
variable {ε : Type} {ext : Externals ε} {n n' : Node} {taker : Handle} {a : InstanceId} {x y : Actor}
  {mail : Mail}

theorem Passes.proxyReceive (ext : Externals ε) (n : Node) (self : InstanceId) (remoteId : Rpiid)
    (mail : Mail) : Passes none none n (proxyReceive ext n self remoteId mail).1 := by
  unfold Remote.proxyReceive
  dsimp only
  split
  · exact .refl n
  · exact .refl n
  · split
    · exact .sendRaw n _ _ _ _
    · exact .sendRaw n _ _ _ _
  · exact .sendRaw n _ _ _ _
  · split
    · exact .link n _ _
    · exact .refl n
  · exact .sendRaw n _ _ _ _
  · split
    · exact .sendRaw n _ _ _ _
    · exact .refl n
  · exact .sendRaw n _ _ _ _

theorem Passes.endpointReceive (ext : Externals ε) (n : Node) (m : Bytes) :
    Passes none none n (endpointReceive ext n m).1 := by
  have effect := endpointReceive_effect ext n m
  generalize Remote.endpointReceive ext n m = outcome at effect
  cases effect with
  | failed _ => exact .refl n
  | sent _ _ _ | removed _ => exact .of_fields rfl rfl

theorem Passes.receive (ext : Externals ε) (n : Node) (a : InstanceId) (kind : Kind) (mail : Mail) :
    Passes none none n (n.receive ext a kind mail).1 := by
  cases kind with
  | user trap => exact .refl n
  | endpoint => exact .endpointReceive ext n mail.body
  | proxy r => exact .proxyReceive ext n a r mail

/-- The actor goes on, or exits with its last words. -/
def GoesOn (taker : Handle) (n n' : Node) (a : InstanceId) (words : Option Bytes) : Prop :=
  (words = none ∧ Passes taker none n n') ∨ ∃ m, words = some m ∧ Departs taker n n' a m

theorem GoesOn.settle {outcome : Outcome} (known : n.actors a = some x)
    (received : Passes none none n outcome.1)
    (running : (Node.settle a outcome).crashed = false) :
    GoesOn none n (Node.settle a outcome) a
      (match outcome.2 with
      | some (.exit m) => some m
      | _ => none) := by
  obtain ⟨n₁, failure⟩ := outcome
  cases failure with
  | none => exact .inl ⟨rfl, received⟩
  | some failure =>
      cases failure with
      | exit m =>
          obtain ⟨k, kind⟩ : Known n₁ a := ⟨x.kind, received.kind a _
            (Node.kindOf_eq_some.mpr ⟨x, known, rfl⟩)⟩
          obtain ⟨x', known', -⟩ := Node.kindOf_eq_some.mp kind
          exact .inr ⟨m, rfl, .after received (.handleExit known' m)⟩
      | reachedUnreachable | outOfBounds | exception _ => cases running

theorem GoesOn.after {n₀ : Node} {words : Option Bytes} (h : Passes taker none n n₀)
    (h' : GoesOn none n₀ n' a words) : GoesOn taker n n' a words := by
  rcases h' with ⟨none, passes⟩ | ⟨m, words, departs⟩
  · exact .inl ⟨none, h.trans passes⟩
  · exact .inr ⟨m, words, .after h departs⟩

theorem GoesOn.links {words : Option Bytes} (h : GoesOn taker n n' a words) {b : InstanceId}
    {l : Handle} (member : l ∈ n.linksOf b) : l ∈ n'.linksOf b := by
  rcases h with ⟨-, passes⟩ | ⟨m, -, departs⟩
  · exact passes.links b l member
  · exact departs.passes.links b l member

/-- What a turn does to the node, once the mail is taken. -/
theorem runMail_goesOn (known : n.actors a = some y)
    (running : (n.runMail ext a x mail).crashed = false) :
    ∃ n₀, Passes none none n n₀ ∧
      (Runtime.isLinkMsg mail.body = true → mail.sender ∈ n₀.linksOf a) ∧
      GoesOn none n₀ (n.runMail ext a x mail) a (n.lastWords ext a x mail) := by
  unfold Node.runMail at running ⊢
  unfold Node.lastWords
  dsimp only at running ⊢
  generalize start : (if Runtime.isLinkMsg mail.body then
    n.update a fun x => { x with links := mail.sender :: x.links } else n) = n₀ at running ⊢
  have linked : Passes none none n n₀ := by
    rw [← start]
    split
    · exact .addLink n a mail.sender
    · exact .refl n
  obtain ⟨k, kind⟩ : Known n₀ a := ⟨y.kind, linked.kind a _
    (Node.kindOf_eq_some.mpr ⟨y, known, rfl⟩)⟩
  obtain ⟨z, known₀, -⟩ := Node.kindOf_eq_some.mp kind
  refine ⟨n₀, linked, ?_, ?_⟩
  · intro link
    rw [← start, if_pos link, linksOf_of_some (Node.actors_update_of_some known)]
    exact List.mem_cons_self
  · have received := Passes.receive ext n₀ a x.kind mail
    split
    · exact .inl ⟨rfl, .refl n₀⟩
    · rename_i heard
      rw [if_neg heard] at running
      split
      · exact .inl ⟨rfl, .refl n₀⟩
      · rename_i alive
        rw [if_neg alive] at running
        split
        · rename_i traps
          rw [if_pos traps] at running
          exact .settle known₀ received running
        · rename_i noTrap
          rw [if_neg noTrap] at running
          generalize Runtime.isExitMsg mail.body = matched at running ⊢
          cases matched with
          | error e => exact .inr ⟨_, rfl, .handleExit known₀ _⟩
          | ok exits =>
              cases exits with
              | false => exact .settle known₀ received running
              | true =>
                  dsimp only
                  split
                  · exact .inr ⟨_, rfl, .handleExit known₀ _⟩
                  · exact .inl ⟨rfl, .refl n₀⟩

/-- What a step of the node's own does, while the endpoint stays up. -/
theorem step_passes {act : Action} (consistent : Consistent n) (own : act.isArrive = false)
    (next : n.step ext act = some n') (up : n'.isAlive n'.endpoint = true)
    (running : n'.crashed = false) :
    ∃ taker, (∀ a, taker = some a → act = .turn a) ∧ (Passes taker none n n' ∨
      ∃ a m, n.exitOf ext act = some (a, m) ∧ Departs taker n n' a m) := by
  obtain ⟨-, performed, bound⟩ := step_eq_some next
  have user {a : InstanceId} (user : n.isUser a = true) : ∃ x, n.actors a = some x := by
    obtain ⟨x, -, known, -⟩ := isUser_iff.mp user
    exact ⟨x, known⟩
  cases act with
  | spawn name trap =>
      cases performed
      exact ⟨none, by simp, .inl (.spawn (consistent.fresh (Nat.lt_of_succ_lt bound)) name _)⟩
  | send a target m =>
      simp only [Node.perform, Option.ite_none_right_eq_some] at performed
      cases performed.2
      exact ⟨none, by simp, .inl (.sendRaw n _ _ _ _)⟩
  | link a target =>
      simp only [Node.perform, Option.ite_none_right_eq_some] at performed
      cases performed.2
      exact ⟨none, by simp, .inl (.link n a target)⟩
  | quit a m =>
      simp only [Node.perform, Option.ite_none_right_eq_some] at performed
      cases performed.2
      obtain ⟨x, known⟩ := user performed.1
      exact ⟨none, by simp, .inr ⟨a, m, rfl, .handleExit known m⟩⟩
  | turn a =>
      obtain ⟨x, mail, rest, known, mailbox, eq⟩ := turn_eq_some performed
      subst eq
      have taken := Passes.take n a
      refine ⟨some a, fun b same => congrArg Action.turn (Option.some.inj same), ?_⟩
      obtain ⟨n₀, linked, -, goesOn⟩ := runMail_goesOn (take_known known) running
      rcases goesOn.after (taken.trans linked) with ⟨-, passes⟩ | ⟨m, words, departs⟩
      · exact .inl passes
      · refine .inr ⟨a, m, ?_, departs⟩
        simp [Node.exitOf, known, mailbox, words]
  | destroy a =>
      simp only [Node.perform] at performed
      split at performed
      · rename_i x known
        simp only [Option.ite_none_right_eq_some] at performed
        obtain ⟨⟨exiting, -⟩, eq⟩ := performed
        cases eq
        refine ⟨none, by simp, .inl (.of_framed (.update n a Posted.refl fun _ =>
          .of_mailbox ⟨rfl, rfl, fun _ => by simp, List.prefix_rfl, fun _ => id⟩ rfl rfl) ?_)⟩
        intro b _ alive
        have other : b ≠ a := by
          rintro rfl
          obtain ⟨x', known', status⟩ := Node.isAlive_iff.mp alive
          cases known.symm.trans known'
          rw [exiting] at status
          cases status
        exact (Node.isAlive_congr (Node.actors_update_of_ne other)).trans alive
      · cases performed
  | arrive bytes => cases own
  | stop m =>
      simp only [Node.perform, Option.ite_none_right_eq_some] at performed
      cases performed.2
      obtain ⟨x, known, -⟩ := Node.isAlive_iff.mp performed.1
      exact ⟨none, by simp, .inr ⟨n.endpoint, m, rfl, .handleExit known m⟩⟩
  | deinit =>
      simp only [Node.perform, Option.ite_none_left_eq_some, Bool.or_eq_true, not_or,
        Bool.not_eq_true] at performed
      cases performed.2
      obtain ⟨n₁, framed, eq⟩ := deinit_framed ext n
      have down := framed.later.not_alive performed.1.1
      rw [eq] at up
      have same : n₁.endpoint = n.endpoint := framed.endpoint
      change n₁.isAlive n₁.endpoint = true at up
      rw [same, down] at up
      cases up

/-- A frame that is dispatched takes no mail and ends nobody. -/
theorem Passes.dispatchMessage (ext : Externals ε) (consistent : Consistent n)
    (msg : ProtocolMessage) (bound : (dispatchMessage ext n msg).1.next < 2 ^ 64) :
    Passes none none n (Remote.dispatchMessage ext n msg).1 := by
  obtain ⟨n₁, made, sent⟩ := dispatchMessage_sends ext n msg
  have sends : Passes none none n₁ (Remote.dispatchMessage ext n msg).1 := by
    rcases sent with eq | ⟨target, m, route, eq⟩
    · rw [eq]
      exact .refl n₁
    · rw [eq]
      exact .sendRaw n₁ _ target m route
  have next : (Remote.dispatchMessage ext n msg).1.next = n₁.next := by
    rcases sent with eq | ⟨target, m, route, eq⟩
    · rw [eq]
    · rw [eq]
      exact (Framed.sendRaw n₁ _ target m route trivial : Framed Moved _ _).next
  rw [next] at bound
  rcases made with rfl | ⟨r, -, -, rfl⟩
  · exact sends
  · have fresh := consistent.fresh (Nat.lt_of_succ_lt bound)
    have spawned : Passes none none n (n.spawnProxy r) :=
      (Passes.spawn fresh (text "proxy") (.proxy r)).trans (.of_fields rfl rfl)
    exact spawned.trans sends

/-- A step of the node's own adds frames to the stream. -/
theorem step_emits {act : Action} (consistent : Consistent n) (own : act.isArrive = false)
    (next : n.step ext act = some n') : ∃ frames, Emitted ext n n' frames := by
  obtain ⟨-, performed, bound⟩ := step_eq_some next
  cases perform_effect consistent.endpoint performed with
  | spawned name trap =>
      exact ⟨[], (List.append_nil _).symm, (List.append_nil _).symm, nofun, rfl, rfl⟩
  | moved _ framed => exact ⟨[], .of_framed framed⟩
  | @turned a x mail rest _ _ _ _ framed =>
      have whole : Framed Later n n' := (Framed.take n a).comp Later.trans framed.later
      exact ⟨[], .of_framed whole⟩
  | @received a x mail rest _ _ _ _ _ =>
      have effect := endpointReceive_effect ext (n.take a) mail.body
      generalize endpointReceive ext (n.take a) mail.body = outcome at effect
      cases effect with
      | failed f =>
          have settled : Framed Moved (n.take a) (Node.settle a (n.take a, some f)) :=
            .settle a (.refl _) fun _ _ => trivial
          have whole : Framed Later n (Node.settle a (n.take a, some f)) :=
            (Framed.take n a).comp Later.trans settled.later
          exact ⟨[], .of_framed whole⟩
      | @sent message msg frame _ _ encoded =>
          exact ⟨[(frame, msg)], rfl, by simp [Node.settle, Node.sendFrame, Node.take, Node.update, wire],
            by simpa using encoded, rfl, rfl⟩
      | removed _ =>
          exact ⟨[], (List.append_nil _).symm, (List.append_nil _).symm, nofun, rfl, rfl⟩
  | fed _ => cases own
  | deinited _ _ =>
      obtain ⟨n₁, framed, eq⟩ := deinit_framed ext n
      rw [eq]
      exact ⟨[], framed.framesOut.trans (List.append_nil _).symm,
        framed.outgoing.trans (List.append_nil _).symm, nofun, framed.framesIn, framed.accumulator⟩

/-- What was added is known by the messages. -/
theorem Emitted.unique {frames frames' : List (Frame UInt8 ProtocolMessage)}
    (h : Emitted ext n n' frames) (h' : Emitted ext n n' frames') : frames = frames' := by
  have same : frames.map Prod.snd = frames'.map Prod.snd :=
    List.append_cancel_left (h.framesOut.symm.trans h'.framesOut)
  have bytes : ∀ f ∈ frames, ∀ f' ∈ frames', f.2 = f'.2 → f = f' := by
    intro f member f' member' same
    have encoded := h.encoded f member
    rw [same, h'.encoded f' member'] at encoded
    exact Prod.ext (Except.ok.inj encoded).symm same
  clear h h'
  induction frames generalizing frames' with
  | nil => exact (List.map_eq_nil_iff.mp same.symm).symm
  | cons f frames ih =>
      cases frames' with
      | nil => cases same
      | cons f' frames' =>
          obtain ⟨head, tail⟩ := List.cons.inj same
          rw [bytes f (by simp) f' (by simp) head, ih tail fun g member g' member' =>
            bytes g (by simp [member]) g' (by simp [member'])]

/-- The endpoint makes a frame of a request. -/
theorem request_emits (consistent : Consistent n) {rest : List Mail} {message : EndpointMessage}
    {msg : ProtocolMessage} (mailbox : n.mailbox n.endpoint = mail :: rest)
    (before : n.isAlive n.endpoint = true) (plain : Runtime.isLinkMsg mail.body = false)
    (classified : EndpointMessage.classify ext.cbor ext.errorName mail.body = .ok message)
    (asked : message.frame? = some msg) (next : n.step ext (.turn n.endpoint) = some n')
    (up : n'.isAlive n'.endpoint = true) (running : n'.crashed = false) :
    ∃ frame, Emitted ext n n' [(frame, msg)] := by
  obtain ⟨-, performed, bound⟩ := step_eq_some next
  obtain ⟨x, known, kind⟩ := consistent.endpoint
  obtain ⟨x', mail', rest', known', mailbox', eq⟩ := turn_eq_some performed
  cases known.symm.trans known'
  rw [mailbox_of_some known] at mailbox
  cases mailbox.symm.trans mailbox'
  have alive : x.status = .alive := by
    obtain ⟨y, known', status⟩ := Node.isAlive_iff.mp before
    cases known.symm.trans known'
    exact status
  have run : n' = Node.settle n.endpoint (sendWire ext (n.take n.endpoint) msg) := by
    rw [eq, ← endpointReceive_wire classified asked]
    simp [Node.runMail, plain, kind, alive, Node.traps, Node.receive]
  unfold sendWire at run
  cases encoded : msg.encode ext.cbor maxFrameSize with
  | ok frame =>
      rw [encoded] at run
      subst run
      exact ⟨frame, rfl, by simp [Node.settle, Node.sendFrame, Node.take, Node.update, wire],
        by simpa using encoded, rfl, rfl⟩
  | error e =>
      rw [encoded] at run
      have down := fail_down (take_known known)
        (exitError ext.cbor (protocolErrorName ext.errorName e))
      subst run
      have settled : Framed Moved (n.take n.endpoint) (Node.settle n.endpoint (n.take n.endpoint,
          some (exitError ext.cbor (protocolErrorName ext.errorName e)))) :=
        .settle _ (.refl _) fun _ _ => trivial
      rw [settled.endpoint] at up
      rcases down with down | down
      · exact absurd up (Bool.eq_false_iff.mp down)
      · exact absurd down (Bool.eq_false_iff.mp running)

end Steps

end Thespian.Remote
