import Thespian.Runtime.Exits
import Mathlib.Data.List.Count

/-!
Links. The caller of link records its half at once, the other actor only when it
comes to the link message. Until then the message is in its mailbox or in its
hands, afterwards the entry is in its links, and never both. An actor notifies
exactly the entries it has when it calls handle_exit, so a link message that
still waits at that moment is lost on its sender.
-/

namespace Thespian.Runtime
open Cbor Actor Transition

section Dated
variable {toChars : Float → Bytes} {s s' : System} {act : Action} {x x' : Actor} {e : Event}
  {b : InstanceId}

/-- Serial numbers are times that have passed. -/
structure Dated (now : Nat) (x : Actor) : Prop where
  links : ∀ l ∈ x.links, ∀ k, l.request = some k → k < now
  mail : ∀ mail, mail ∈ x.mailbox ∨ x.holds mail → mail.serial < now
  call : ∀ c link stage, x.call = .spawn c link stage →
    ∀ k, stage = .linked (some k) ∨ stage = .scheduled (some k) → k < now

theorem Dated.mono {now now' : Nat} (h : Dated now x) (le : now ≤ now') : Dated now' x where
  links := fun l hl k hk => Nat.lt_of_lt_of_le (h.links l hl k hk) le
  mail := fun mail hm => Nat.lt_of_lt_of_le (h.mail mail hm) le
  call := fun c link stage hc k hk => Nat.lt_of_lt_of_le (h.call c link stage hc k hk) le

theorem Dated.postal {now : Nat} (h : Dated now x) (move : Postal b now x e x') :
    Dated (now + 1) x' := by
  have old := h.mono (Nat.le_succ now)
  cases move with
  | quiet e x' quiet =>
      refine ⟨by rw [quiet.links]; exact old.links, ?_, by rw [quiet.call]; exact old.call⟩
      intro mail held
      rw [quiet.mailbox] at held
      exact old.mail mail (held.imp_right (quiet.holds mail))
  | delivered mail rest control mailbox =>
      refine ⟨old.links, ?_, old.call⟩
      rintro mail' (waiting | running | checking)
      · exact old.mail mail' (.inl (by rw [mailbox]; exact List.mem_cons_of_mem mail waiting))
      · cases running
        exact old.mail mail (.inl (by rw [mailbox]; exact List.mem_cons_self))
      · cases checking
  | dispatched m control owns lives =>
      refine ⟨old.links, ?_, old.call⟩
      rintro mail' (waiting | running | checking)
      · exact old.mail mail' (.inl waiting)
      · cases running
        exact Nat.lt_succ_self now
      · cases checking
  | recorded mail control link =>
      have dated := old.mail mail (.inr (.inl control))
      refine ⟨?_, ?_, by rw [runLink_call]; exact old.call⟩
      · intro l hl k hk
        rw [runLink_links] at hl
        rcases List.mem_cons.mp hl with rfl | earlier
        · cases hk
          exact dated
        · exact old.links l earlier k hk
      · intro mail' held
        rw [runLink_mailbox, holds] at held
        rcases runLink_control x mail with next | next <;> rw [next] at held
        · rcases held with waiting | running | checking
          · exact old.mail mail' (.inl waiting)
          · cases running
          · cases checking
            exact dated
        · rcases held with waiting | running | checking
          · exact old.mail mail' (.inl waiting)
          · cases running
          · cases checking
  | exited guarded m control =>
      refine ⟨old.links, ?_, old.call⟩
      rintro mail' (waiting | running | checking)
      · exact old.mail mail' (.inl waiting)
      · cases running
      · cases checking
  | unlinked child link call skipped =>
      refine ⟨old.links, old.mail, ?_⟩
      intro c link' stage hc k hk
      cases hc
      rcases hk with hk | hk <;> cases hk
  | spawned child link request call =>
      refine ⟨?_, old.mail, by simp⟩
      dsimp only
      split
      · intro l hl k hk
        rcases List.mem_cons.mp hl with rfl | earlier
        · exact old.call child link _ call k (.inr (congrArg SpawnStage.scheduled hk))
        · exact old.links l earlier k hk
      · exact old.links

theorem Dated.calls {cause : Cause} {target : Handle} {mail : Mail} {d : Delivery}
    (h : Dated s.now x) (move : Calls s b x act cause target mail d x') :
    Dated (s.now + 1) x' := by
  have old := h.mono (Nat.le_succ s.now)
  cases move with
  | send target m free valid => exact old
  | link target free valid =>
      refine ⟨?_, old.mail, old.call⟩
      dsimp only
      split
      · intro l hl k hk
        rcases List.mem_cons.mp hl with rfl | earlier
        · cases hk
          exact Nat.lt_succ_self _
        · exact old.links l earlier k hk
      · exact old.links
  | spawnLink child call lifetime =>
      refine ⟨old.links, old.mail, ?_⟩
      intro c link stage hc k hk
      dsimp only at hc
      split at hc
      · cases hc
        rcases hk with hk | hk <;> cases hk
        exact Nat.lt_succ_self _
      · cases hc
  | schedule child link request call =>
      refine ⟨old.links, old.mail, ?_⟩
      intro c link' stage hc k hk
      dsimp only at hc
      split at hc
      · cases hc
        rcases hk with hk | hk <;> cases hk
        exact old.call child link _ call k (.inl rfl)
      · cases hc
  | notice n guarded m l rest control =>
      refine ⟨old.links, ?_, old.call⟩
      rintro mail' (waiting | running | checking)
      · exact old.mail mail' (.inl waiting)
      · cases running
      · cases checking

theorem Dated.receives {now : Nat} {target : Handle} {mail : Mail} {d : Delivery}
    (h : Dated now x) (serial : mail.serial < now) : Dated now (x.receives b target mail d) := by
  refine ⟨by rw [receives_links]; exact h.links, ?_, by rw [receives_call]; exact h.call⟩
  intro mail' held
  rw [receives_mailbox, receives_holds] at held
  split at held
  · rcases held with waiting | processed
    · rcases List.mem_append.mp waiting with old | new
      · exact h.mail mail' (.inl old)
      · cases List.mem_singleton.mp new
        exact serial
    · exact h.mail mail' (.inr processed)
  · exact h.mail mail' held

theorem Calls.serial {self : InstanceId} {cause : Cause} {target : Handle} {mail : Mail}
    {d : Delivery} (move : Calls s self x act cause target mail d x') : mail.serial = s.now := by
  cases move <;> rfl

theorem now_after (after : After s e s') : s'.now = s.now + 1 := by
  unfold System.now
  rw [after.trace, List.length_append]
  rfl

theorem dated_step (inv : Everywhere (fun s _ x => Dated s.now x) s) (numbered : Numbered s)
    (h : Step toChars s act s') : Everywhere (fun s _ x => Dated s.now x) s' := by
  refine inv.step numbered ?_ ?_ h
  · rintro e b x after ⟨rfl, caller, link, name, handlers, -, rfl, -⟩
    exact ⟨by simp, by simp [holds], by simp⟩
  · intro e b x x' after hx dated move
    have now : s'.now = s.now + 1 := now_after after
    have old : Dated (s.now + 1) x := Dated.mono dated (Nat.le_succ _)
    rw [now]
    cases move with
    | other => exact old
    | act act e x' move => exact Dated.postal dated move.postal
    | call act cause target mail d x' move =>
        exact (Dated.calls dated move).receives (by rw [move.serial]; exact Nat.lt_succ_self _)
    | called self y y' act cause target mail d foreign hy move =>
        exact old.receives (by rw [move.serial]; exact Nat.lt_succ_self _)
    | outside => exact old.receives (Nat.lt_succ_self _)
    | spawn name link free =>
        refine ⟨old.links, old.mail, ?_⟩
        intro c link' stage hc k hk
        cases hc
        rcases hk with hk | hk <;> cases hk

end Dated

section Counted
variable {toChars : Float → Bytes} {s s' : System} {act : Action} {x x' : Actor} {e : Event}
  {b : InstanceId} {tr : List Event}

/-- A posted link message is either still to be processed or recorded, and this once. -/
def Counted (tr : List Event) (b : InstanceId) (x : Actor) : Prop :=
  ∀ cause mail, tr[mail.serial]? = some (.queued cause (some b) mail .posted) →
    isLinkMsg mail.body = true → x.pending mail + x.links.count mail.link = 1

theorem link_inj {mail mail' : Mail} (h : isLinkMsg mail.body = true)
    (h' : isLinkMsg mail'.body = true) : mail.link = mail'.link ↔ mail = mail' := by
  constructor
  · intro same
    obtain ⟨sender, body, serial⟩ := mail
    obtain ⟨sender', body', serial'⟩ := mail'
    simp only [isLinkMsg, decide_eq_true_eq] at h h'
    subst h h'
    cases same
    rfl
  · exact congrArg Mail.link

theorem Counted.same (h : Counted tr b x)
    (pending : ∀ mail, isLinkMsg mail.body = true → x'.pending mail = x.pending mail)
    (links : ∀ mail : Mail, x'.links.count mail.link = x.links.count mail.link) :
    Counted tr b x' := by
  intro cause mail logged link
  rw [pending mail link, links mail]
  exact h cause mail logged link

theorem count_caller {peer : Handle} {request : Option Nat} (mail : Mail) (links : List Link) :
    (⟨peer, request, .caller⟩ :: links : List Link).count mail.link = links.count mail.link := by
  refine List.count_cons_of_ne ?_
  intro same
  cases same

/-- Nothing that is not a call of queue makes a link message. -/
theorem Counted.add (h : Counted tr b x)
    (unposted : ∀ cause target mail d, e ≠ .queued cause target mail d) :
    Counted (tr ++ [e]) b x := by
  intro cause mail logged link
  rcases log_add_iff.mp logged with old | ⟨-, new⟩
  · exact h cause mail old link
  · exact absurd new (unposted _ _ _ _)

theorem Counted.postal (h : Counted s.trace b x) (move : Postal b s.now x e x') :
    Counted s.trace b x' := by
  cases move with
  | quiet e x' quiet => exact h.same quiet.pending fun mail => by rw [quiet.links]
  | delivered mail rest control mailbox =>
      refine h.same (fun mail' _ => ?_) fun _ => rfl
      simp only [pending, running?, control, mailbox, List.count_cons, Option.some.injEq, beq_iff_eq]
      simp
  | dispatched m control owns lives =>
      intro cause mail logged link
      have apart : (⟨none, m, s.now⟩ : Mail) ≠ mail := by
        rintro rfl
        exact Nat.lt_irrefl _ (log_bound logged)
      have before := h cause mail logged link
      simp only [pending, running?, control] at before
      simpa [pending, running?, apart] using before
  | recorded mail control link =>
      intro cause mail' logged link'
      have before := h cause mail' logged link'
      have idle : (x.runLink mail).running? = none := by
        rcases runLink_control x mail with next | next <;> simp [running?, next]
      have links : (x.runLink mail).links = mail.link :: x.links := runLink_links x mail
      simp only [pending, running?, control, Option.some.injEq] at before
      simp only [pending, runLink_mailbox, idle, links, List.count_cons, beq_iff_eq]
      simp only [link_inj link link', reduceCtorEq, if_false]
      omega
  | exited guarded m control =>
      refine h.same (fun mail _ => ?_) fun _ => rfl
      simp [pending, running?, handleExit, control]
  | unlinked child link call skipped => exact h.same (fun _ _ => rfl) fun _ => rfl
  | spawned child link request call =>
      refine h.same (fun _ _ => rfl) fun mail => ?_
      dsimp only
      split
      · exact count_caller mail x.links
      · rfl

/-- A call of queue leaves the caller's own mail and the links it was asked for. -/
structure Unmailed (x x' : Actor) : Prop where
  mailbox : x'.mailbox = x.mailbox
  running : x'.running? = x.running?
  links : ∀ mail : Mail, x'.links.count mail.link = x.links.count mail.link

theorem Calls.unmailed {cause : Cause} {target : Handle} {mail : Mail} {d : Delivery}
    (move : Calls s b x act cause target mail d x') : Unmailed x x' := by
  cases move with
  | send | spawnLink | schedule => exact ⟨rfl, rfl, fun _ => rfl⟩
  | link target free valid =>
      refine ⟨rfl, rfl, fun mail => ?_⟩
      dsimp only
      split
      · exact count_caller mail x.links
      · rfl
  | notice n guarded m l rest control =>
      exact ⟨rfl, by simp [running?, control], fun _ => rfl⟩

theorem Counted.unmailed (h : Counted tr b x) (same : Unmailed x x') : Counted tr b x' :=
  h.same (fun mail _ => by rw [pending, pending, same.mailbox, same.running]) same.links

theorem receives_pending (target : Handle) (mail : Mail) (d : Delivery) (mail' : Mail) :
    (x.receives b target mail d).pending mail' =
      x.pending mail' + if reaches b target d = true ∧ mail = mail' then 1 else 0 := by
  have running : (x.receives b target mail d).running? = x.running? := by
    simp only [running?, receives_control]
  unfold pending
  rw [running, receives_mailbox]
  by_cases hit : reaches b target d = true
  · rw [if_pos hit, List.count_append, List.count_singleton]
    by_cases same : mail = mail'
    · simp [hit, same]
      omega
    · simp [hit, same]
  · simp [hit]

theorem running_control {mail : Mail} (h : x.running? = some mail) :
    x.control = .running mail := by
  unfold running? at h
  split at h
  · cases h
    assumption
  · cases h

/-- No mail and no link made of a mail has the next serial number. -/
theorem Dated.unused {mail : Mail} (h : Dated s.now x) (serial : mail.serial = s.now) :
    x.pending mail + x.links.count mail.link = 0 := by
  have unread : x.mailbox.count mail = 0 := by
    refine List.count_eq_zero.mpr fun member => ?_
    have early := h.mail mail (.inl member)
    omega
  have unheld : x.running? ≠ some mail := by
    intro running
    have early := h.mail mail (.inr (.inl (running_control running)))
    omega
  have unlinked : x.links.count mail.link = 0 := by
    refine List.count_eq_zero.mpr fun member => ?_
    have early := h.links mail.link member mail.serial rfl
    omega
  simp [pending, unread, unheld, unlinked]

/-- A mail enters the books with the next serial number. -/
theorem Counted.post {cause : Cause} {target : Handle} {mail : Mail} {d : Delivery}
    (h : Counted s.trace b x) (unused : x.pending mail + x.links.count mail.link = 0)
    (serial : mail.serial = s.now) :
    Counted (s.trace ++ [.queued cause target mail d]) b (x.receives b target mail d) := by
  intro cause' mail' logged link
  rw [receives_pending, receives_links]
  rcases log_add_iff.mp logged with old | ⟨-, new⟩
  · have apart : mail ≠ mail' := by
      rintro rfl
      have early := log_bound old
      rw [serial] at early
      exact Nat.lt_irrefl _ early
    rw [if_neg (by simp [apart]), Nat.add_zero]
    exact h cause' mail' old link
  · cases new
    rw [if_pos ⟨by simp [reaches, Delivery.isPosted], rfl⟩]
    omega

theorem counted_step (inv : Everywhere (fun s b x => Counted s.trace b x) s)
    (dated : Everywhere (fun s _ x => Dated s.now x) s) (consistent : Consistent s)
    (h : Step toChars s act s') : Everywhere (fun s b x => Counted s.trace b x) s' := by
  refine inv.step consistent.numbered ?_ ?_ h
  · rintro e b x after ⟨rfl, caller, link, name, handlers, rfl, rfl, -⟩
    intro cause mail logged link
    cases after.only_created consistent.mentioned consistent.numbered logged (.inl rfl)
  · intro e b x x' after hx counted move
    have dated := dated b x hx
    dsimp only at counted dated ⊢
    rw [after.trace]
    cases move with
    | other act e foreign unposted => exact counted.add unposted
    | act act e x' move => exact (counted.postal move.postal).add move.not_queued
    | call act cause target mail d x' move =>
        -- the caller's own half has this serial number, but it is a caller's entry
        have same := move.unmailed
        have unused := dated.unused move.serial
        refine (counted.unmailed same).post ?_ move.serial
        rwa [pending, same.mailbox, same.running, same.links]
    | called self y y' act cause target mail d foreign hy move =>
        exact counted.post (dated.unused move.serial) move.serial
    | outside => exact counted.post (dated.unused rfl) rfl
    | spawn name link free =>
        exact (counted.same (fun _ _ => rfl) fun _ => rfl).add (by simp)

end Counted

section Told
variable {toChars : Float → Bytes} {s s' : System} {act : Action} {x x' : Actor} {e : Event}
  {b : InstanceId}

/-- The n-th event is an execution of handle_exit by self, and for the given link
it sent its message to p exactly once. The message was queued unless p had
exited before. -/
def Told (s : System) (n : Nat) (self p : InstanceId) (m : Bytes) (l : Link) : Prop :=
  ∃ t d, n < t ∧ s.trace[t]? = some (.queued (.notice n l) (some p) ⟨some self, m, t⟩ d) ∧
    (d.isPosted = false → ∃ (u : Nat) (m' : Bytes) (ls : List Link),
      u < t ∧ s.trace[u]? = some (.exit p m' ls)) ∧
    ∀ (t' : Nat) target mail d',
      s.trace[t']? = some (.queued (.notice n l) target mail d') → t' = t

/-- A link found once by handle_exit has been told once when the loop is over. -/
theorem told_of_count {n : Nat} {p : InstanceId} {m : Bytes} {l : Link} {ls : List Link}
    (consistent : Consistent s) (hx : s.actors b = some x)
    (exit : s.trace[n]? = some (.exit b m ls)) (ended : x.remaining n = [])
    (peer : l.peer = some p) (once : ls.count l = 1) : Told s n b p m l := by
  have notices := consistent.loops b x hx n m ls exit
  rw [ended, List.map_nil, List.append_nil] at notices
  have injective : Function.Injective (noticeFor m) := fun _ _ same => congrArg Prod.fst same
  have found : (s.trace.filterMap (Event.notice? n)).count (noticeFor m l) = 1 := by
    show (noticesOf n s.trace).count (noticeFor m l) = 1
    rw [notices, List.count_map_of_injective _ _ injective]
    exact once
  obtain ⟨t, e, logged, image, unique⟩ := log_unique found
  unfold Event.notice? at image
  split at image
  · rename_i k l' target mail d
    split at image
    · rename_i same
      subst same
      cases image
      obtain ⟨-, before, ⟨self, ls', started, eq⟩, dead⟩ :=
        consistent.sound t k l l.peer mail d logged
      rw [exit] at started
      cases started
      rw [peer, eq] at logged
      refine ⟨t, d, before, logged, fun unposted => dead unposted p peer, ?_⟩
      intro t' target' mail' d' logged'
      obtain ⟨target, -, ⟨self', ls'', started', eq'⟩, -⟩ :=
        consistent.sound t' k l target' mail' d' logged'
      rw [exit] at started'
      have body : mail.body = mail'.body := by
        injection Option.some.inj started'
      refine unique t' _ logged' ?_
      simp [Event.notice?, noticeFor, target, body]
    · cases image
  · cases image

/-- The loop over the links goes on until it is over. -/
theorem loop_completes {n : Nat} {rest : List Link} (hx : s.actors b = some x)
    (remaining : x.remaining n = rest) :
    ∃ s' x', run (step toChars) s (List.replicate rest.length (.advance b)) = some s' ∧
      s'.actors b = some x' ∧ x'.remaining n = [] := by
  induction rest generalizing s x with
  | nil => exact ⟨s, x, rfl, hx, remaining⟩
  | cons l rest ih =>
      obtain ⟨guarded, m, control⟩ : ∃ guarded m, x.control = .notifying n guarded m (l :: rest) := by
        unfold Actor.remaining at remaining
        split at remaining
        · split at remaining
          · rename_i k guarded m rest' control same
            subst same remaining
            exact ⟨guarded, m, control⟩
          · cases remaining
        · cases remaining
      let y : Actor := { x with control := .notifying n guarded m rest }
      let d := s.sendRaw (some b) l.peer m
      let t := (s.set b y).post (.notice n l) l.peer ⟨some b, m, s.now⟩ d
      have first : step toChars s (.advance b) = some t := by
        simp only [step, hx, Option.bind_eq_bind, Option.bind_some, stepAdvance, control]
        rfl
      have ht : t.actors b = some (y.receives b l.peer ⟨some b, m, s.now⟩ d) := by
        rw [post_actors, set_self]
        rfl
      obtain ⟨s', x', others, hx', ended⟩ := ih ht (by rw [receives_remaining]; exact if_pos rfl)
      refine ⟨s', x', ?_, hx', ended⟩
      rw [List.length_cons, List.replicate_succ, run, first]
      exact others

/-- No link message waits in the mailbox of an actor that calls handle_exit. -/
def settled (s : System) : Action → Bool
  | .advance b =>
      match s.actors b with
      | some x =>
          match x.control with
          | .exits _ _ => x.mailbox.all fun mail => !isLinkMsg mail.body
          | _ => true
      | none => true
  | _ => true

/-- Every link message posted to an actor before its handle_exit was found by it. -/
def Heard (s : System) : Prop :=
  ∀ (n : Nat) b m ls cause (mail : Mail), s.trace[n]? = some (.exit b m ls) →
    s.trace[mail.serial]? = some (.queued cause (some b) mail .posted) →
    isLinkMsg mail.body = true → mail.serial < n → ls.count mail.link = 1

theorem counted_at_exit {guarded : Bool} {m : Bytes} {cause : Cause} {mail : Mail}
    (counted : Counted s.trace b x) (control : x.control = .exits guarded m)
    (none : ∀ mail ∈ x.mailbox, isLinkMsg mail.body = false)
    (logged : s.trace[mail.serial]? = some (.queued cause (some b) mail .posted))
    (link : isLinkMsg mail.body = true) : x.links.count mail.link = 1 := by
  have sum := counted cause mail logged link
  have unread : x.mailbox.count mail = 0 := by
    refine List.count_eq_zero.mpr fun member => ?_
    have other := none mail member
    rw [link] at other
    cases other
  simpa [pending, running?, control, unread] using sum

theorem heard_step (heard : Heard s) (counted : Everywhere (fun s b x => Counted s.trace b x) s)
    (consistent : Consistent s) (clean : settled s act = true) (h : Step toChars s act s') :
    Heard s' := by
  obtain ⟨e, trace, -⟩ := h.moves consistent.numbered
  intro n b m ls cause mail exit logged link early
  rw [trace] at exit logged
  have old : s.trace[mail.serial]? = some (.queued cause (some b) mail .posted) := by
    have bound := log_bound exit
    rw [List.length_append, List.length_singleton] at bound
    rwa [List.getElem?_append_left (by omega)] at logged
  rcases log_add_iff.mp exit with before | ⟨-, new⟩
  · exact heard n b m ls cause mail before old link early
  · subst new
    obtain ⟨rfl, x, guarded, hx, control, rfl⟩ := h.exit_move trace
    have none : ∀ mail ∈ x.mailbox, isLinkMsg mail.body = false := by
      simpa [settled, hx, control] using clean
    exact counted_at_exit (counted b x hx) control none old link

/-- What holds of mail and links in every state of every run. -/
structure Accounted (s : System) : Prop where
  consistent : Consistent s
  dated : Everywhere (fun s _ x => Dated s.now x) s
  counted : Everywhere (fun s b x => Counted s.trace b x) s

theorem accounted_initial : Accounted .initial :=
  ⟨consistent_initial, everywhere_initial _, everywhere_initial _⟩

theorem Accounted.step (inv : Accounted s) (h : Step toChars s act s') : Accounted s' where
  consistent := inv.consistent.step h
  dated := dated_step inv.dated inv.consistent.numbered h
  counted := counted_step inv.counted inv.dated inv.consistent h

/-- An actor whose call of link was accepted is told of every later exit. -/
def LinkHonoured (s : System) : Prop :=
  ∀ (k n : Nat) a b m ls x,
    s.trace[k]? = some (.queued .link (some b) ⟨some a, linkMsg, k⟩ .posted) → k < n →
    s.trace[n]? = some (.exit b m ls) → s.actors b = some x → x.remaining n = [] →
    Told s n b a m ⟨some a, some k, .callee⟩

theorem link_honoured_when_settled {acts : List Action}
    (clean : Along (step toChars) (fun s act => settled s act = true) .initial acts)
    (h : run (step toChars) .initial acts = some s) : LinkHonoured s := by
  have keeps : Keeps (step toChars) (fun s act => settled s act = true)
      fun s => Accounted s ∧ Heard s := by
    rintro s act s' ⟨inv, heard⟩ clean h
    have step := step_sound h
    exact ⟨inv.step step, heard_step heard inv.counted inv.consistent clean step⟩
  have start : Accounted .initial ∧ Heard .initial :=
    ⟨accounted_initial, by simp [Heard, System.initial]⟩
  obtain ⟨inv, heard⟩ := keeps.run start clean h
  intro k n a b m ls x posted early exit hx ended
  have once := heard n b m ls .link ⟨some a, linkMsg, k⟩ exit posted (by simp [isLinkMsg]) early
  exact told_of_count inv.consistent hx exit ended rfl once

/-- Two actors; the first is in its behaviour, the second waits for mail. -/
def twoActors : List Action :=
  [.contextSpawn (text "a") none, .schedule 1, .deliver 1, .advance 1, .advance 1,
    .contextSpawn (text "b") none, .schedule 2, .deliver 2, .advance 2, .advance 2,
    .user 2 (.receive true), .returns 2 (.returns (.ok ()))]

def linkThenExit : List Action :=
  twoActors ++
    [.link 1 (some 2), .outsideSend (some 2) (exitMessage (text "die")), .deliver 2, .advance 2,
      .deliver 2, .advance 2, .advance 2, .advance 2, .advance 2, .advance 2]

theorem link_honoured_when_settled_first :
    ∃ s, run (step fun _ => []) .initial linkThenExit = some s ∧
      Told s 19 2 1 (exitMessage (text "die")) ⟨some 1, some 12, .callee⟩ := by
  have clean : Along (step fun _ => []) (fun s act => settled s act = true) .initial
      linkThenExit := by decide
  refine ⟨_, rfl, ?_⟩
  have honoured := link_honoured_when_settled clean rfl 12 19 1 2 (exitMessage (text "die"))
  exact honoured _ _ rfl (by decide) rfl rfl rfl

def exitThenLink : List Action :=
  twoActors ++
    [.outsideSend (some 2) (exitMessage (text "die")), .link 1 (some 2), .deliver 2, .advance 2,
      .advance 2, .advance 2, .advance 2, .deliver 2, .advance 2]

/-- The link message waits behind the exit message and is recorded by an actor
that has already notified its links. -/
theorem link_silently_lost :
    ¬ ∀ acts s, run (step fun _ => []) .initial acts = some s → LinkHonoured s := by
  intro honoured
  have lost := honoured exitThenLink _ rfl 13 17 1 2 (exitMessage (text "die"))
  obtain ⟨t, d, -, logged, -⟩ := lost _ _ rfl (by decide) rfl rfl rfl
  have none : ∀ s, run (step fun _ => []) .initial exitThenLink = some s →
      noticesOf 17 s.trace = [] := by
    intro s h
    cases h
    rfl
  have silent := List.filterMap_eq_nil_iff.mp (none _ rfl) _ (List.mem_of_getElem? logged)
  simp [Event.notice?] at silent

end Told

end Thespian.Runtime
