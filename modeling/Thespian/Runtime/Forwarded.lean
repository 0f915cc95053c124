import Thespian.Cbor.MatchReturns
import Thespian.Endpoint.Connection
import Thespian.Runtime.Exits

/-!
What becomes of an item the endpoint framing has accepted. The framing knows
three kinds of message and the classification in run and deadsend knows two: the
matcher takes null for an empty array and throws on a map. A map ends its owner
and every actor that sends it to a dead one; the other two kinds are dispatched.
-/

namespace Thespian.Runtime
open Cbor Actor Decoding Decoding.Decoder Transition

/-- The connection has read an array, a map or null and sends it to its owner. -/
def Forwards (c : Endpoint.Connection) (sends : Nat → Bool) (chunk item : Bytes) : Prop :=
  extractRange item = .ok (some item, []) ∧
    ∃ c' actions outcome,
      c.receive sends (Endpoint.readCompleteMessage c.tag chunk) = .ok (c', actions, outcome) ∧
        Endpoint.Action.ownerSend item ∈ actions

def IsMap (item : Bytes) : Prop := ∃ type rest, item = type :: rest ∧ type >>> 5 = 5

/-- An array whose first element is the text exit. -/
def StartsWithExit (item : Bytes) : Prop :=
  ∃ n rest t, decodeArrayHeader item = .ok (n, rest) ∧ n ≠ 0 ∧
    matchString rest = .ok (some (text "exit"), t)

/-- The task of a message has been started at a live actor that does not trap exits. -/
structure Running (s : System) (a : InstanceId) (x : Actor) (mail : Mail) : Prop where
  actor : s.actors a = some x
  control : x.control = .running mail
  alive : x.inShutdown = false
  untrapped : x.trapExit = false

/-- The thread of the actor goes on into the receiver, or into the exit branch. -/
def Dispatched (toChars : Float → Bytes) (s : System) (a : InstanceId) (mail : Mail) : Prop :=
  ∃ s₁ s₂ x, step toChars s (.advance a) = some s₁ ∧ step toChars s₁ (.advance a) = some s₂ ∧
    s₂.actors a = some x ∧
    (s₂.trace = s₁.trace ++ [.received a mail] ∧ x.control = .receiving ∨
      StartsWithExit mail.body ∧
        (x.control = .exits true mail.body ∨ mail.body = exitNormalMsg ∧ x.control = .idle))

/-- Expired, or past the beginning of handle_exit. -/
def Unreachable (s : System) (target : Handle) : Prop :=
  ∀ b x, target = some b → s.actors b = some x → x.destroyed = true ∨ x.inShutdown = true

/-- The current instance exists and has not begun to exit. -/
def Awake (s : System) (current : Handle) : Prop :=
  ∃ x, current.bind s.actors = some x ∧ x.inShutdown = false

section Ready
variable {toChars : Float → Bytes} {s s' : System} {act : Action} {x x' : Actor}

/-- Between two messages a live actor has a receiver. -/
def Ready (x : Actor) : Prop :=
  x.inShutdown = false → (x.control = .idle ∨ ∃ mail, x.control = .running mail ∨
    x.control = .checking mail) → x.receiver ≠ none

theorem Ready.keep (h : Ready x) (receiver : x'.receiver = x.receiver)
    (shutdown : x'.inShutdown = x.inShutdown)
    (control : x'.control = x.control ∨ ∃ mail, x.control = .idle ∨ x.control = .running mail ∨
      x.control = .checking mail) : Ready x' := by
  intro alive between
  rw [receiver]
  rw [shutdown] at alive
  rcases control with same | ⟨mail, was⟩
  · rw [same] at between
    exact h alive between
  · rcases was with idle | running | checking
    · exact h alive (.inl idle)
    · exact h alive (.inr ⟨mail, .inl running⟩)
    · exact h alive (.inr ⟨mail, .inr checking⟩)

theorem ready_of_control (idle : x.control ≠ .idle) (running : ∀ mail, x.control ≠ .running mail)
    (checking : ∀ mail, x.control ≠ .checking mail) : Ready x := by
  rintro - (now | ⟨mail, now | now⟩)
  · exact absurd now idle
  · exact absurd now (running mail)
  · exact absurd now (checking mail)

theorem ready_of_shutdown (h : x.inShutdown = true) : Ready x := by
  intro alive
  rw [h] at alive
  cases alive

theorem Ready.returned (o : Outcome) : Ready (x.returned o) := by
  unfold Actor.returned
  split
  · split
    · exact ready_of_control nofun nofun nofun
    · rename_i installed
      exact fun _ _ => installed
  · exact ready_of_control nofun nofun nofun
  · exact ready_of_control nofun nofun nofun

theorem Ready.local {self : InstanceId} {now : Nat} {e : Event} (h : Ready x) (sane : Sane x)
    (move : Local toChars self now x act e x') : Ready x' := by
  cases move with
  | user u free =>
      obtain ⟨-, receiving | ⟨guarded, err, rest, handler⟩⟩ := free_control free
      · cases u <;> exact ready_of_control (by simp [Actor.user, receiving])
          (by simp [Actor.user, receiving]) (by simp [Actor.user, receiving])
      · cases u <;> exact ready_of_control (by simp [Actor.user, handler])
          (by simp [Actor.user, handler]) (by simp [Actor.user, handler])
  | returned o control call => exact .returned o
  | handlerThrew guarded err rest e control call =>
      cases guarded <;> exact ready_of_control (by simp [Actor.raise]) (by simp [Actor.raise])
        (by simp [Actor.raise])
  | handlerReturned guarded err rest control call =>
      exact ready_of_control (by simp) (by simp) (by simp)
  | delivered mail rest control mailbox => exact h.keep rfl rfl (.inr ⟨mail, .inl control⟩)
  | dispatched m control owns lives => exact h.keep rfl rfl (.inr ⟨⟨none, m, now⟩, .inl control⟩)
  | recorded mail control link =>
      unfold runLink
      dsimp only
      split <;> exact h.keep rfl rfl (.inr ⟨mail, .inr (.inl control)⟩)
  | passed mail control other => exact h.keep rfl rfl (.inr ⟨mail, .inr (.inl control)⟩)
  | message mail control =>
      rcases runMessage_cases x self mail with
        ⟨shutdown, eq⟩ | ⟨-, ⟨guarded, m, -, eq⟩ | eq | ⟨receiver, eq⟩⟩
      · rw [eq]
        exact ready_of_shutdown shutdown
      · rw [eq]
        exact ready_of_control (by simp) (by simp) (by simp)
      · rw [eq]
        exact h.keep rfl rfl (.inr ⟨mail, .inr (.inr control)⟩)
      · rw [eq]
        exact ready_of_control (by simp) (by simp) (by simp)
  | exited guarded m control => exact ready_of_shutdown rfl
  | notified n guarded m control =>
      have shutdown : x.inShutdown = true := sane.leaving (by simp [Actor.leaving, control])
      rcases callHandlers_cases x toChars guarded m with ⟨-, eq⟩ | ⟨err, -, eq⟩ | ⟨e, -, eq⟩
      · rw [eq]
        exact ready_of_shutdown shutdown
      · rw [eq]
        exact ready_of_shutdown shutdown
      · rw [eq]
        cases guarded <;> exact ready_of_shutdown shutdown
  | handler guarded err eh rest control => exact ready_of_control (by simp) (by simp) (by simp)
  | concluded guarded err control =>
      have shutdown : x.inShutdown = true := sane.leaving (by simp [Actor.leaving, control])
      exact ready_of_shutdown shutdown
  | unlinked child link call skipped => exact h.keep rfl rfl (.inl rfl)
  | spawned child link request call => exact h.keep rfl rfl (.inl rfl)
  | destroyed control mailbox lifetime => exact h.keep rfl rfl (.inl rfl)

theorem Ready.receives {b : InstanceId} {target : Handle} {mail : Mail} {d : Delivery}
    (h : Ready x) : Ready (x.receives b target mail d) := by
  unfold Actor.receives
  split
  · exact h.keep rfl rfl (.inl rfl)
  · exact h

theorem ready_step (inv : Everywhere (fun _ _ x => Ready x) s)
    (sane : Everywhere (fun _ _ x => Sane x) s) (numbered : Numbered s)
    (h : Step toChars s act s') : Everywhere (fun _ _ x => Ready x) s' := by
  refine inv.step numbered ?_ ?_ h
  · rintro e b x - ⟨rfl, caller, link, name, handlers, -, rfl, -⟩
    intro _ _
    exact nofun
  · intro e b x x' _ hx ready move
    cases move with
    | other => exact ready
    | act act e x' move => exact ready.local (sane b x hx) move
    | call act cause target mail d x' move =>
        have kept : Ready x' := by
          cases move with
          | send target m free valid => exact ready
          | link target free valid => exact ready.keep rfl rfl (.inl rfl)
          | spawnLink child call lifetime => exact ready.keep rfl rfl (.inl rfl)
          | schedule child link request call => exact ready.keep rfl rfl (.inl rfl)
          | notice n guarded m l rest control => exact ready_of_control nofun nofun nofun
        exact kept.receives
    | called | outside => exact ready.receives
    | spawn name link free => exact ready.keep rfl rfl (.inl rfl)

theorem ready_of_run {acts : List Action} (h : run (step toChars) .initial acts = some s) :
    Everywhere (fun _ _ x => Ready x) s := by
  have keeps : Keeps (step toChars) (fun _ _ => True)
      fun s => Consistent s ∧ Everywhere (fun _ _ x => Ready x) s :=
    fun _ _ _ inv _ h => ⟨inv.1.step (step_sound h),
      ready_step inv.2 inv.1.sane inv.1.numbered (step_sound h)⟩
  exact (keeps.run ⟨consistent_initial, everywhere_initial _⟩ (along_true acts) h).2

end Ready

section Classification
variable {item : Bytes}

/-- Null, an array, or a map; and the skipper has read all of it. -/
theorem framed_cases (framed : extractRange item = .ok (some item, [])) :
    item = nullValue ∨
      (∃ type rest, item = type :: rest ∧ type >>> 5 = 4 ∧ skipValue item = .ok ((), [])) ∨
      IsMap item := by
  unfold extractRange at framed
  split at framed
  case h_1 v r typed =>
    split at framed
    case isFalse => cases framed
    case isTrue message =>
      obtain rfl : r = [] := (Prod.mk.inj (Except.ok.inj framed)).2
      cases item with
      | nil => cases typed
      | cons type rest =>
          rw [matchType, bind_of_ok (decodeType_cons type rest)] at typed
          obtain ⟨_, t, skipped, last⟩ := bind_eq_ok typed
          obtain ⟨kind, rfl⟩ : typeOf (type >>> 5) type = some v ∧ t = [] := by
            have both := Except.ok.inj last
            exact ⟨(Prod.mk.inj both).1, (Prod.mk.inj both).2⟩
          rw [← skipValue_cons] at skipped
          have major : type >>> 5 = 4 ∨ type >>> 5 = 5 ∨ type = 0xf6 := by
            unfold typeOf at kind
            split at kind
            case h_5 array => exact .inl array
            case h_6 map => exact .inr (.inl map)
            case h_7 =>
              split at kind
              · rename_i null
                exact .inr (.inr null)
              · split at kind
                · cases kind
                  simp at message
                · split at kind <;> cases kind <;> simp at message
            all_goals
              cases kind
              try simp at message
          rcases major with array | map | rfl
          · exact .inr (.inl ⟨type, rest, rfl, array, skipped⟩)
          · exact .inr (.inr ⟨type, rest, rfl, map⟩)
          · left
            rw [skipValue_cons] at skipped
            have whole : Except.ok ((), rest) = Except.ok (ε := DomainError) ((), []) := skipped
            cases whole
            rfl
  all_goals cases framed

theorem not_map_of_array {type : UInt8} {rest : Bytes} (array : type >>> 5 = 4) :
    ¬ IsMap (type :: rest) := by
  rintro ⟨type', rest', eq, map⟩
  obtain ⟨rfl, -⟩ := List.cons.inj eq
  rw [array] at map
  cases map

/-- The matcher reads a map only up to its header. -/
theorem matchBuffer_map (map : IsMap item) (parms : Patterns) :
    ∃ e, matchBuffer item parms = .error e := by
  obtain ⟨type, rest, rfl, major⟩ := map
  have notNull : type ≠ 0xf6 := by
    rintro rfl
    revert major
    decide
  have refused : ∃ e, decodeArrayHeader (type :: rest) = .error e := by
    rw [decodeArrayHeader, bind_of_ok (decodeType_cons type rest)]
    simp [notNull, major]
  obtain ⟨e, refused⟩ := refused
  refine ⟨e, ?_⟩
  rw [matchBuffer, matchArray, bind_of_error refused]
  rfl

/-- The matcher answers on null and on arrays. -/
theorem matchBuffer_framed (framed : extractRange item = .ok (some item, []))
    (other : ¬ IsMap item) {p : Pattern} {parms : Patterns}
    (tame : ∀ q ∈ (Patterns.cons p parms).toList, Tame q) :
    ∃ b ws, matchBuffer item (.cons p parms) = .ok (b, ws) := by
  rcases framed_cases framed with rfl | ⟨type, rest, rfl, array, skipped⟩ | map
  · exact ⟨false, [], rfl⟩
  · exact matchBuffer_of_skipped tame array skipped
  · exact absurd map other

theorem tame_exitPattern : ∀ q ∈ exitPattern.toList, Tame q := by
  simp only [exitPattern, Patterns.toList, List.forall_mem_cons]
  exact ⟨tame_string _, tame_type _, tame_type _, by simp⟩

theorem startsWithExit_of_isExitMsg (h : isExitMsg item = .ok true) : StartsWithExit item := by
  unfold isExitMsg matchBuffer at h
  cases run : matchArray exitPattern item with
  | error e =>
      rw [run] at h
      cases h
  | ok res =>
      obtain ⟨⟨b, ws⟩, t⟩ := res
      rw [run] at h
      obtain rfl : b = true := Except.ok.inj h
      obtain ⟨n, rest, header, next⟩ := bind_eq_ok run
      rw [exitPattern, matchNext] at next
      split at next
      · cases next
      · rename_i some
        obtain ⟨⟨matched, ws'⟩, t', first, tail⟩ := bind_eq_ok next
        cases matched with
        | false => cases tail
        | true =>
            refine ⟨n, rest, t', header, fun zero => some (by rw [zero]; rfl), ?_⟩
            rw [matchValue, matchLiteral] at first
            obtain ⟨found, u, read, compared⟩ := bind_eq_ok first
            cases found with
            | none => cases compared
            | some val =>
                have both := Prod.mk.inj (Except.ok.inj compared)
                have equal : val = text "exit" := by simpa using (Prod.mk.inj both.1).1
                rw [read, equal, both.2]

end Classification

section Dispatch
variable {toChars : Float → Bytes} {s s₁ : System} {a : InstanceId} {x : Actor} {mail : Mail}

/-- Where run stands behind its link branch. -/
structure Checking (s : System) (a : InstanceId) (x : Actor) (mail : Mail) : Prop where
  actor : s.actors a = some x
  control : x.control = .checking mail
  alive : x.inShutdown = false
  untrapped : x.trapExit = false
  ready : x.receiver ≠ none

theorem Checking.advance (h : Checking s a x mail) :
    step toChars s (.advance a) =
      some ((s.set a (x.runMessage a mail).1).log (x.runMessage a mail).2) := by
  simp only [step, h.actor, Option.bind_eq_bind, Option.bind_some, stepAdvance, h.control]

/-- A message that is classified as no exit message reaches the receiver. -/
theorem runMessage_receives (self : InstanceId) (alive : x.inShutdown = false)
    (ready : x.receiver ≠ none) (other : isExitMsg mail.body = .ok false) :
    (x.runMessage self mail).2 = .received self mail ∧
      (x.runMessage self mail).1.control = .receiving := by
  rw [Actor.runMessage, if_neg (by simp [alive])]
  cases receiver : x.receiver with
  | none => exact absurd receiver ready
  | some r => cases r <;> cases trap : x.trapExit <;> simp [other]

theorem Checking.exits (h : Checking s a x mail) (exit : isExitMsg mail.body = .ok true) :
    (x.runMessage a mail).1.control = .exits true mail.body ∨
      mail.body = exitNormalMsg ∧ (x.runMessage a mail).1.control = .idle := by
  rw [Actor.runMessage, if_neg (by simp [h.alive])]
  simp only [h.untrapped, exit]
  by_cases normal : mail.body = exitNormalMsg
  · simp [normal, finish]
  · simp [normal]

theorem Checking.throws (h : Checking s a x mail) {e : DomainError}
    (unclassified : isExitMsg mail.body = .error e) :
    x.runMessage a mail =
      ({ x with control := .exits false (Exception.std e.what).exitMessage },
        .internal (some a)) := by
  rw [Actor.runMessage, if_neg (by simp [h.alive])]
  dsimp only
  rw [if_neg (by simp [h.untrapped]), unclassified]
  rfl

/-- The link branch of run keeps everything but the links and the control. -/
theorem Running.advance (h : Running s a x mail) (ready : Ready x)
    (goes : mail.body ≠ linkMsg ∨ x.observeLinks = true) :
    ∃ s₁ y, step toChars s (.advance a) = some s₁ ∧ Checking s₁ a y mail := by
  have installed : x.receiver ≠ none := ready h.alive (.inr ⟨mail, .inl h.control⟩)
  simp only [step, h.actor, Option.bind_eq_bind, Option.bind_some, stepAdvance, h.control]
  by_cases link : isLinkMsg mail.body = true
  · have observing : x.observeLinks = true := by
      rcases goes with differs | observing
      · exact absurd (by simpa [isLinkMsg] using link) differs
      · exact observing
    rw [if_pos link]
    refine ⟨_, x.runLink mail, rfl, set_self a _, ?_, ?_, ?_, ?_⟩
    all_goals simp [runLink, observing, h.alive, h.untrapped, installed]
  · rw [if_neg link]
    exact ⟨_, { x with control := .checking mail }, rfl, set_self a _, rfl, h.alive, h.untrapped,
      installed⟩

/-- A link message ends at the link branch of an actor that does not observe links. -/
theorem Running.stops (h : Running s a x mail) (link : mail.body = linkMsg)
    (unobserved : x.observeLinks = false) (first : step toChars s (.advance a) = some s₁) :
    step toChars s₁ (.advance a) = none := by
  have isLink : isLinkMsg mail.body = true := by simp [isLinkMsg, link]
  simp only [step, h.actor, Option.bind_eq_bind, Option.bind_some, stepAdvance, h.control,
    isLink] at first
  cases first
  have idle : (x.runLink mail).control = .idle := by simp [runLink, unobserved]
  simp [step, stepAdvance, idle]

theorem Checking.dispatched (h : Checking s₁ a x mail)
    (first : step toChars s (.advance a) = some s₁) {b : Bool}
    (classified : isExitMsg mail.body = .ok b) : Dispatched toChars s a mail := by
  refine ⟨s₁, _, (x.runMessage a mail).1, first, h.advance, set_self a _, ?_⟩
  cases b with
  | false =>
      obtain ⟨event, control⟩ := runMessage_receives a h.alive h.ready classified
      refine .inl ⟨?_, control⟩
      rw [event]
      rfl
  | true => exact .inr ⟨startsWithExit_of_isExitMsg classified, h.exits classified⟩

theorem Checking.undispatched (h : Checking s₁ a x mail)
    (first : step toChars s (.advance a) = some s₁) {e : DomainError}
    (unclassified : isExitMsg mail.body = .error e) : ¬ Dispatched toChars s a mail := by
  rintro ⟨s₁', s₂, y, first', second, hy, outcome⟩
  cases first.symm.trans first'
  rw [h.advance, h.throws unclassified] at second
  cases second
  have same : y.control = .exits false (Exception.std e.what).exitMessage := by
    have hz := (set_self (s := s₁) a _).symm.trans hy
    cases hz
    rfl
  rw [same] at outcome
  rcases outcome with ⟨-, control⟩ | ⟨-, control | ⟨-, control⟩⟩
  all_goals cases control

/-- Run dispatches an item exactly when the item is no map, and is not taken by the
link branch. -/
theorem Running.dispatched_iff (h : Running s a x mail) (ready : Ready x)
    (framed : extractRange mail.body = .ok (some mail.body, [])) :
    Dispatched toChars s a mail ↔
      ¬ IsMap mail.body ∧ (mail.body ≠ linkMsg ∨ x.observeLinks = true) := by
  by_cases goes : mail.body ≠ linkMsg ∨ x.observeLinks = true
  · obtain ⟨s₁, y, first, checking⟩ : ∃ s₁ y, step toChars s (.advance a) = some s₁ ∧
        Checking s₁ a y mail := h.advance ready goes
    by_cases map : IsMap mail.body
    · obtain ⟨e, refused⟩ := matchBuffer_map map exitPattern
      have unclassified : isExitMsg mail.body = .error e := by
        rw [isExitMsg, refused]
        rfl
      exact iff_of_false (checking.undispatched first unclassified) fun both => both.1 map
    · obtain ⟨b, ws, matched⟩ := matchBuffer_framed framed map tame_exitPattern
      have classified : isExitMsg mail.body = .ok b := by
        rw [isExitMsg, exitPattern, matched]
        rfl
      exact iff_of_true (checking.dispatched first classified) ⟨map, goes⟩
  · refine iff_of_false ?_ fun both => goes both.2
    rintro ⟨s₁, s₂, y, first, second, -⟩
    obtain ⟨link, unobserved⟩ := not_or.mp goes
    rw [h.stops (not_not.mp link) (by simpa using unobserved) first] at second
    cases second

end Dispatch

section Deadsend
variable {s : System} {current target : Handle} {m : Bytes}

theorem sendRaw_unreachable (h : Unreachable s target) :
    ∃ sender, s.sendRaw current target m = .dead (s.deadsend current m sender) := by
  cases target with
  | none => exact ⟨none, rfl⟩
  | some b =>
      simp only [System.sendRaw]
      cases hx : s.actors b with
      | none => exact ⟨some b, rfl⟩
      | some x =>
          dsimp only
          split
          · exact ⟨some b, rfl⟩
          · rename_i present
            rcases h b x rfl hx with destroyed | shutdown
            · exact absurd destroyed present
            · exact ⟨current, by simp [System.queue, hx, shutdown]⟩

/-- Deadsend asks the matcher only while its caller is awake. -/
theorem deadsend_returns_iff (framed : extractRange m = .ok (some m, [])) (sender : Handle) :
    (∃ ret, s.deadsend current m sender = .ok ret) ↔ (IsMap m → ¬ Awake s current) := by
  unfold System.deadsend
  cases hx : current.bind s.actors with
  | none =>
      refine iff_of_true ⟨_, rfl⟩ ?_
      rintro - ⟨x, hx', -⟩
      rw [hx] at hx'
      cases hx'
  | some x =>
      cases asleep : x.inShutdown with
      | true =>
          refine iff_of_true ⟨.ok (), by simp [asleep]; rfl⟩ ?_
          rintro - ⟨y, hy, awake⟩
          cases hx.symm.trans hy
          rw [asleep] at awake
          cases awake
      | false =>
          have awake : Awake s current := ⟨x, hx, asleep⟩
          by_cases map : IsMap m
          · obtain ⟨e, refused⟩ :=
              matchBuffer_map map (.cons (.string (text "exit")) (.last (.type .more)))
            refine iff_of_false ?_ fun h => h map awake
            rintro ⟨ret, returned⟩
            simp [asleep, refused, bind, Except.bind] at returned
          · have tame : ∀ q ∈ (Patterns.cons (.string (text "exit"))
                (.last (.type .more))).toList, Tame q := by
              simp only [Patterns.toList, List.forall_mem_cons]
              exact ⟨tame_string _, tame_type _, by simp⟩
            obtain ⟨b, ws, matched⟩ := matchBuffer_framed framed map tame
            refine iff_of_true ?_ fun found => absurd found map
            simp only [asleep, matched, bind, Except.bind]
            cases b with
            | true => exact ⟨_, rfl⟩
            | false => exact ⟨_, rfl⟩

end Deadsend

section Meaning
variable {toChars : Float → Bytes} {s : System}

/-- A forwarded item is dispatched, and can be sent to a dead actor, unless it is
a map; the link message is for run itself. -/
theorem forwarded_items_dispatched_iff {acts : List Action}
    (h : run (step toChars) .initial acts = some s) {c : Endpoint.Connection} {sends : Nat → Bool}
    {chunk item : Bytes} (forwards : Forwards c sends chunk item) :
    (∀ a x mail, Running s a x mail → mail.body = item →
      (Dispatched toChars s a mail ↔
        ¬ IsMap item ∧ (item ≠ linkMsg ∨ x.observeLinks = true))) ∧
    ∀ current target, Unreachable s target →
      ((∃ ret, s.sendRaw current target item = .dead (.ok ret)) ↔
        (IsMap item → ¬ Awake s current)) := by
  constructor
  · rintro a x mail running rfl
    exact running.dispatched_iff (ready_of_run h a x running.actor) forwards.1
  · intro current target unreachable
    obtain ⟨sender, dead⟩ : ∃ sender, s.sendRaw current target item =
        .dead (s.deadsend current item sender) := sendRaw_unreachable unreachable
    rw [dead, ← deadsend_returns_iff forwards.1 sender]
    simp

/-- An actor installs a receiver and is then sent an item. -/
def ownerSent (item : Bytes) : List Action :=
  [.contextSpawn (text "owner") none, .schedule 1, .deliver 1, .advance 1, .advance 1,
    .user 1 (.receive true), .returns 1 (.returns (.ok ())), .outsideSend (some 1) item, .deliver 1]

def freshConnection : Endpoint.Connection := ⟨text "tcp", [], false, false⟩

/-- Whatever the framing accepts is forwarded. -/
theorem forwards_alone {item : Bytes} (framed : extractRange item = .ok (some item, []))
    (sized : item.length < 2 ^ 63) : Forwards freshConnection (fun _ => true) item item := by
  have nonempty : item ≠ [] := by
    rintro rfl
    cases framed
  refine ⟨framed, _, _, _,
    Endpoint.receive_readComplete _ freshConnection item (by decide) sized, ?_⟩
  have drained : drain extractRange item = ([some item], []) := by
    rw [drain_of_ok advances_extractRange framed, drain_of_error Endpoint.extractRange_nil]
  have loop := Endpoint.readLoop_sends item.length 0 { freshConnection with readBuf := item }
    (Nat.le_refl _) [item] (by rw [drained]; rfl)
  rw [Endpoint.Connection.readComplete, if_neg nonempty]
  dsimp only [freshConnection, List.nil_append] at loop ⊢
  rw [loop]
  simp

theorem ownerSent_running (item : Bytes) :
    ∃ s x, run (step fun _ => []) .initial (ownerSent item) = some s ∧
      Running s 1 x ⟨none, item, 7⟩ :=
  ⟨_, _, rfl, rfl, rfl, rfl, rfl⟩

theorem forwarded_items_dispatched_iff_array :
    ∃ s, run (step fun _ => []) .initial (ownerSent [0x81, 0x01]) = some s ∧
      Dispatched (fun _ => []) s 1 ⟨none, [0x81, 0x01], 7⟩ ∧
      ∃ ret, s.sendRaw (some 1) none [0x81, 0x01] = .dead (.ok ret) := by
  obtain ⟨s, x, h, running⟩ := ownerSent_running [0x81, 0x01]
  have forwards : Forwards freshConnection (fun _ => true) [0x81, 0x01] [0x81, 0x01] :=
    forwards_alone rfl (by decide)
  have other : ¬ IsMap [0x81, 0x01] := not_map_of_array (by decide)
  have link : [0x81, 0x01] ≠ linkMsg := by decide
  have expired : Unreachable s none := by
    rintro b x ⟨⟩
  obtain ⟨dispatched, sent⟩ := forwarded_items_dispatched_iff h forwards
  refine ⟨s, h, (dispatched 1 x _ running rfl).mpr ⟨other, .inl link⟩, ?_⟩
  exact (sent (some 1) none expired).mpr fun map => absurd map other

/-- The empty map passes the framing and ends its owner as an unhandled exception;
the owner cannot even pass it on to an actor that is gone. -/
theorem forwarded_map_unhandled :
    Forwards freshConnection (fun _ => true) [0xa0] [0xa0] ∧
      ∃ s x s₁ s₂ y, run (step fun _ => []) .initial (ownerSent [0xa0]) = some s ∧
        Running s 1 x ⟨none, [0xa0], 7⟩ ∧ ¬ Dispatched (fun _ => []) s 1 ⟨none, [0xa0], 7⟩ ∧
        step (fun _ => []) s (.advance 1) = some s₁ ∧
        step (fun _ => []) s₁ (.advance 1) = some s₂ ∧ s₂.actors 1 = some y ∧
        y.control = .exits false (exitMessage
          (text "UNHANDLED_EXCEPTION: cbor unexpected type (expected array)")) ∧
        s.sendRaw (some 1) none [0xa0] =
          .dead (.error ⟨text "cbor unexpected type (expected array)"⟩) := by
  obtain ⟨s, x, h, running⟩ := ownerSent_running [0xa0]
  have ready : Ready x := ready_of_run h 1 x running.actor
  have link : [0xa0] ≠ linkMsg := by decide
  have unclassified : isExitMsg [0xa0] =
      .error ⟨text "cbor unexpected type (expected array)"⟩ := rfl
  obtain ⟨s₁, z, first, checking⟩ : ∃ s₁ z, step (fun _ => []) s (.advance 1) = some s₁ ∧
      Checking s₁ 1 z ⟨none, [0xa0], 7⟩ := running.advance ready (.inl link)
  have second : step (fun _ => []) s₁ (.advance 1) = _ := checking.advance
  have refused : matchBuffer [0xa0] (.cons (.string (text "exit")) (.last (.type .more))) =
      .error ⟨text "cbor unexpected type (expected array)"⟩ := rfl
  have dead : s.sendRaw (some 1) none [0xa0] =
      .dead (.error ⟨text "cbor unexpected type (expected array)"⟩) := by
    simp [System.sendRaw, System.deadsend, running.actor, running.alive, refused, bind,
      Except.bind]
  refine ⟨forwards_alone rfl (by decide), s, x, s₁, _, _, h, running,
    checking.undispatched first unclassified, first, second, set_self (s := s₁) 1 _, ?_, dead⟩
  rw [checking.throws unclassified]
  rfl

end Meaning

end Thespian.Runtime
