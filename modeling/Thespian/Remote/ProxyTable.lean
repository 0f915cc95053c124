import Thespian.Remote.Turns
import Thespian.Remote.Controls

/-!
The table of an endpoint and the proxies it has spawned. An entry is dropped when a
proxy_exit message is handled, and the endpoint does not ask who sent it. As long
as the proxy it names has exited by then, every proxy that is alive is the one
recorded for its remote id; with the message delivered from elsewhere a second
proxy comes to stand beside the first, which nobody tells when the endpoint ends.
-/

namespace Thespian.Remote
open Cbor Zig Transition

/-- The actor is a proxy for the remote id, and is alive. -/
def LiveProxy (n : Node) (p : InstanceId) (r : Rpiid) (x : Actor) : Prop :=
  n.actors p = some x ∧ x.kind = .proxy r ∧ x.status = .alive

/-- One proxy for a remote id, recorded under it; and every one told at the end. -/
structure Tabled {ε : Type} (ext : Externals ε) (n : Node) : Prop where
  unique : ∀ p p' r x x', LiveProxy n p r x → LiveProxy n p' r x' → p = p'
  entry : n.deinited = false → ∀ p r x, LiveProxy n p r x → n.remoteProxies.lookup r = some p
  told : n.deinited = true → ∀ p r x, LiveProxy n p r x →
    ∃ mail ∈ x.mailbox, mail.body = endpointExitMessage ext.cbor

section Invariant
variable {ε : Type} {ext : Externals ε} {n n' : Node} {p : InstanceId} {r : Rpiid} {x : Actor}

theorem LiveProxy.back (framed : Framed Later n n') (h : LiveProxy n' p r x) :
    ∃ y, LiveProxy n p r y ∧ Later y x := by
  obtain ⟨known, kind, alive⟩ := h
  obtain ⟨y, before, later⟩ := framed.back known
  refine ⟨y, ⟨before, later.kind.symm.trans kind, ?_⟩, later⟩
  by_contra dead
  exact later.dead dead alive

theorem LiveProxy.back_moved (framed : Framed Moved n n') (h : LiveProxy n' p r x) :
    ∃ y, LiveProxy n p r y ∧ Moved y x := by
  obtain ⟨known, kind, alive⟩ := h
  obtain ⟨y, before, moved⟩ := framed.back known
  refine ⟨y, ⟨before, moved.kind.symm.trans kind, ?_⟩, moved⟩
  by_contra dead
  exact moved.dead dead alive

theorem Tabled.moved (h : Tabled ext n) (framed : Framed Moved n n') : Tabled ext n' where
  unique := by
    intro p p' r x x' live live'
    obtain ⟨y, before, -⟩ := live.back_moved framed
    obtain ⟨y', before', -⟩ := live'.back_moved framed
    exact h.unique p p' r y y' before before'
  entry := by
    intro running p r x live
    obtain ⟨y, before, -⟩ := live.back_moved framed
    rw [framed.remoteProxies]
    exact h.entry (framed.deinited ▸ running) p r y before
  told := by
    intro ended p r x live
    obtain ⟨y, before, moved⟩ := live.back_moved framed
    obtain ⟨mail, member, body⟩ := h.told (framed.deinited ▸ ended) p r y before
    exact ⟨mail, moved.mailbox.subset member, body⟩

/-- The fields the table does not depend on. -/
theorem Tabled.of_fields (h : Tabled ext n) (actors : n'.actors = n.actors)
    (remoteProxies : n'.remoteProxies = n.remoteProxies) (deinited : n'.deinited = n.deinited) :
    Tabled ext n' := by
  have same : ∀ p r x, LiveProxy n' p r x = LiveProxy n p r x := by
    intro p r x
    rw [LiveProxy, LiveProxy, actors]
  refine ⟨?_, ?_, ?_⟩
  · simp only [same]
    exact h.unique
  · simp only [same, remoteProxies, deinited]
    exact h.entry
  · simp only [same, deinited]
    exact h.told

theorem Tabled.spawn (h : Tabled ext n) (name : Bytes) (trap : Bool) :
    Tabled ext (n.spawn name (.user trap)) := by
  have back {p : InstanceId} {r : Rpiid} {x : Actor}
      (live : LiveProxy (n.spawn name (.user trap)) p r x) : LiveProxy n p r x := by
    obtain ⟨known, kind, alive⟩ := live
    rcases spawn_cases known with before | ⟨-, rfl⟩
    · exact ⟨before, kind, alive⟩
    · cases kind
  exact ⟨fun p p' r x x' live live' => h.unique p p' r x x' (back live) (back live'),
    fun running p r x live => h.entry running p r x (back live),
    fun ended p r x live => h.told ended p r x (back live)⟩

/-- A new proxy is made only where none is recorded, and then none is alive. -/
theorem Tabled.spawnProxy (h : Tabled ext n) (running : n.deinited = false)
    (missing : n.remoteProxies.lookup r = none) : Tabled ext (n.spawnProxy r) := by
  have back {p : InstanceId} {r' : Rpiid} {x : Actor} (live : LiveProxy (n.spawnProxy r) p r' x) :
      LiveProxy n p r' x ∧ r' ≠ r ∨ p = n.nextId ∧ r' = r := by
    obtain ⟨known, kind, alive⟩ := live
    rcases spawn_cases known with before | ⟨rfl, rfl⟩
    · refine .inl ⟨⟨before, kind, alive⟩, ?_⟩
      rintro rfl
      have recorded := h.entry running p r' x ⟨before, kind, alive⟩
      rw [missing] at recorded
      cases recorded
    · cases kind
      exact .inr ⟨rfl, rfl⟩
  refine ⟨?_, ?_, ?_⟩
  · intro p p' r' x x' live live'
    rcases back live with ⟨old, other⟩ | ⟨rfl, rfl⟩
    · rcases back live' with ⟨old', -⟩ | ⟨-, new⟩
      · exact h.unique p p' r' x x' old old'
      · exact absurd new other
    · rcases back live' with ⟨-, other⟩ | ⟨rfl, -⟩
      · exact absurd rfl other
      · rfl
  · intro _ p r' x live
    change List.lookup r' ((r, n.nextId) :: n.remoteProxies) = some p
    rcases back live with ⟨old, other⟩ | ⟨rfl, rfl⟩
    · rw [List.lookup_cons, beq_false_of_ne other]
      exact h.entry running p r' x old
    · exact List.lookup_cons_self
  · intro ended
    change n.deinited = true at ended
    rw [running] at ended
    cases ended

theorem lookup_filter_ne {r r' : Rpiid} (other : r' ≠ r) (entries : List (Rpiid × InstanceId)) :
    (entries.filter fun entry => entry.1 ≠ r).lookup r' = entries.lookup r' := by
  induction entries with
  | nil => rfl
  | cons entry entries ih =>
      by_cases hit : entry.1 = r
      · rw [List.filter_cons_of_neg (by simp [hit]), ih, List.lookup_cons,
          beq_false_of_ne (hit ▸ other)]
      · rw [List.filter_cons_of_pos (by simp [hit]), List.lookup_cons, List.lookup_cons, ih]

theorem Tabled.fetchRemove (h : Tabled ext n)
    (dead : ∀ p, n.remoteProxies.lookup r = some p → n.isAlive p = false) :
    Tabled ext (n.fetchRemove r) := by
  refine ⟨h.unique, ?_, h.told⟩
  intro running p r' x live
  have recorded := h.entry running p r' x live
  have other : r' ≠ r := by
    rintro rfl
    have alive : n.isAlive p = true := Node.isAlive_iff.mpr ⟨x, live.1, live.2.2⟩
    rw [dead p recorded] at alive
    cases alive
  exact (lookup_filter_ne other _).trans recorded

/-- Who takes a mail may have been told of the end by it, and must then exit. -/
theorem Tabled.taken {a : InstanceId} {x : Actor} {mail : Mail} {rest : List Mail}
    (h : Tabled ext n) (known : n.actors a = some x) (mailbox : x.mailbox = mail :: rest)
    (framed : Framed Moved (n.take a) n')
    (ends : ∀ r, x.kind = .proxy r → x.status = .alive →
      mail.body = endpointExitMessage ext.cbor → n'.isAlive a = false) : Tabled ext n' where
  unique := by
    intro p p' r y y' live live'
    obtain ⟨z, taken, -⟩ := live.back_moved framed
    obtain ⟨z', taken', -⟩ := live'.back_moved framed
    obtain ⟨w, before, -⟩ := taken.back (.take n a)
    obtain ⟨w', before', -⟩ := taken'.back (.take n a)
    exact h.unique p p' r w w' before before'
  entry := by
    intro running p r y live
    obtain ⟨z, taken, -⟩ := live.back_moved framed
    obtain ⟨w, before, -⟩ := taken.back (.take n a)
    rw [framed.remoteProxies]
    exact h.entry (framed.deinited ▸ running) p r w before
  told := by
    intro ended p r y live
    obtain ⟨z, taken, moved⟩ := live.back_moved framed
    have ended : n.deinited = true := framed.deinited ▸ ended
    by_cases same : p = a
    · subst same
      obtain ⟨w, before, later⟩ := taken.back (.take n p)
      rw [before.1] at known
      cases known
      obtain ⟨told, member, body⟩ := h.told ended p r _ before
      rw [mailbox] at member
      rcases List.mem_cons.mp member with rfl | member
      · have alive : n'.isAlive p = true := Node.isAlive_iff.mpr ⟨y, live.1, live.2.2⟩
        rw [ends r before.2.1 before.2.2 body] at alive
        cases alive
      · have rest : z.mailbox = rest := by
          have after := taken.1
          rw [Node.take, Node.actors_update_of_some before.1] at after
          cases after
          simp [mailbox]
        exact ⟨told, moved.mailbox.subset (rest ▸ member), body⟩
    · have before : LiveProxy n p r z := by
        refine ⟨?_, taken.2⟩
        rw [← taken.1, Node.take, Node.actors_update_of_ne same]
      obtain ⟨told, member, body⟩ := h.told ended p r z before
      exact ⟨told, moved.mailbox.subset member, body⟩

end Invariant

section Steps
variable {ε : Type} {ext : Externals ε} {n n' : Node}

theorem handleExit_dead {a : InstanceId} {x : Actor} (known : n.actors a = some x) (m : Bytes) :
    (n.handleExit a m).isAlive a = false := by
  have exiting : (n.update a fun x => { x with status := .exiting }).actors a =
      some { x with status := .exiting } := Node.actors_update_of_some known
  unfold Node.handleExit
  rw [known]
  have told : Framed Moved _ (x.links.foldl (fun n h => (n.sendRaw (some a) h m .own).1)
      (n.update a fun x => { x with status := .exiting })) := .notify _ a m x.links trivial
  obtain ⟨x', known', moved⟩ := told.actor a _ exiting
  rw [Bool.eq_false_iff]
  intro alive
  obtain ⟨y, same, status⟩ := Node.isAlive_iff.mp alive
  rw [known'] at same
  cases same
  exact moved.dead nofun status

theorem classify_endpointExit (doc : Selective ext.cbor) :
    ProxyMessage.classify ext.cbor ext.errorName (endpointExitMessage ext.cbor) =
      .ok (.endpointExit (text "transport_closed")) := by
  rw [endpointExitMessage_eq doc.toDocumented]
  refine ProxyMessage.classify_elements doc nofun (items_of_forall (by decide) ?_)
  simp only [ProxyMessage.elements, List.forall_mem_cons]
  exact ⟨item_string (by decide), item_string (by decide), by simp⟩

theorem endpointExit_not_link (doc : Selective ext.cbor) :
    Runtime.isLinkMsg (endpointExitMessage ext.cbor) = false := by
  rw [endpointExitMessage_eq doc.toDocumented]
  decide

/-- A proxy that is told of the end of its endpoint exits. -/
theorem told_proxy_exits (doc : Selective ext.cbor) {a : InstanceId} {x y : Actor} {mail : Mail}
    {r : Rpiid} (known : n.actors a = some y) (kind : x.kind = .proxy r)
    (alive : x.status = .alive) (body : mail.body = endpointExitMessage ext.cbor) :
    (n.runMail ext a x mail).isAlive a = false := by
  have carried : Zig.exit ext.cbor (text "transport_closed") =
      .exit (arrayOf [pushString (text "exit"), pushString (text "transport_closed")]) := by
    unfold Zig.exit
    rw [exitMessage_eq doc.toDocumented, if_pos (by decide)]
    rfl
  unfold Node.runMail
  dsimp only
  rw [body, endpointExit_not_link doc, kind, alive]
  simp only [Bool.false_eq_true, if_false, Bool.false_and, ne_eq, not_true_eq_false, Node.traps,
    if_true, Node.receive, proxyReceive, body, classify_endpointExit doc, carried, Node.settle,
    Node.fail]
  exact handleExit_dead known _

/-- Every proxy of the table that is alive is told. -/
theorem deinit_tells (ext : Externals ε) (entries : List (Rpiid × InstanceId)) (n : Node)
    {entry : Rpiid × InstanceId} (member : entry ∈ entries) {x : Actor}
    (known : (entries.foldl (fun n entry =>
      (n.sendRaw none (some entry.2) (endpointExitMessage ext.cbor) .own).1) n).actors entry.2 =
        some x) (alive : x.status = .alive) :
    ∃ mail ∈ x.mailbox, mail.body = endpointExitMessage ext.cbor := by
  induction entries generalizing n with
  | nil => cases member
  | cons first entries ih =>
      rcases List.mem_cons.mp member with rfl | member
      · have later := tells_framed ext entries
          (n.sendRaw none (some entry.2) (endpointExitMessage ext.cbor) .own).1
        obtain ⟨y, after, moved⟩ := later.back known
        have aliveAfter : y.status = .alive := by
          by_contra dead
          exact moved.dead dead alive
        have first : Framed Moved n
            (n.sendRaw none (some entry.2) (endpointExitMessage ext.cbor) .own).1 :=
          .sendRaw n _ _ _ _ trivial
        obtain ⟨z, before, sent⟩ := first.back after
        have aliveBefore : z.status = .alive := by
          by_contra dead
          exact sent.dead dead aliveAfter
        rw [Node.sendRaw_of_alive before aliveBefore, Node.post,
          Node.actors_update_of_some before] at after
        cases after
        exact ⟨_, moved.mailbox.subset (List.mem_append_right _ (List.mem_singleton_self _)), rfl⟩
      · exact ih _ member known

theorem Tabled.deinit (h : Tabled ext n) (running : n.deinited = false) :
    Tabled ext (deinit ext n) := by
  have framed := (tells_framed ext n.remoteProxies n).moved
  refine ⟨(h.moved framed).unique, nofun, ?_⟩
  intro _ p r x live
  obtain ⟨y, before, -⟩ := LiveProxy.back_moved framed live
  obtain ⟨front, back, split, -⟩ := List.lookup_eq_some_iff.mp (h.entry running p r y before)
  have member : (r, p) ∈ n.remoteProxies := by simp [split]
  exact deinit_tells ext n.remoteProxies n member live.1 live.2.2

/-- The endpoint is not alive when its receiver is dropped. -/
def Stopped (n : Node) : Prop := n.deinited = true → n.isAlive n.endpoint = false

theorem Stopped.later (h : Stopped n) (framed : Framed Later n n') : Stopped n' := by
  intro ended
  rw [framed.endpoint]
  exact framed.not_alive (h (framed.deinited ▸ ended))

theorem Stopped.moved (h : Stopped n) (framed : Framed Moved n n') : Stopped n' :=
  h.later framed.later

end Steps

end Thespian.Remote
