import Thespian.Debug.Registry

/-!
Whether a registered actor is found under its name. A listing erases by name, so
it erases whatever stands under the name by then. As long as no actor is registered
under a name that some listing has collected and not erased yet, what it erases has
expired; otherwise the listing goes on to hide the actor.
-/

namespace Thespian.Debug
open Cbor Transition

/-- An actor is registered under names that no listing is about to erase, and the
registry is cleared while debugging is disabled. -/
def undisturbed (ctx : Context) : Action → Bool
  | .register a =>
      match ctx.actors a with
      | some x =>
          x.registration ≠ .locked || ctx.connections.all fun c => !c.expiredNames.contains x.name
      | none => true
  | .clear => ctx.clearing = 0 || !ctx.isenabled
  | _ => true

/-- The actor registered last under a name is found there as long as it lives. -/
def Addressable (ctx : Context) : Prop :=
  ∀ name a, ctx.latest name = some a → ctx.alive a = true → ctx.getName name = some a

/-- A listing that erases a name takes no living actor from the registry. -/
def ErasesExpired (ctx : Context) : Prop :=
  ∀ k ctx', step ctx (.erase k) = some ctx' → ∀ name a, ctx.getName name = some a →
    ctx.alive a = true → ctx'.getName name = some a

namespace Context
variable {ctx ctx' : Context} {name n : Bytes} {a b : ActorId} {x : Actor}

theorem getName_enter : (ctx.enter name a).getName n = if n = name then some a else ctx.getName n := by
  rw [getName, enter, Std.TreeMap.getElem?_insert]
  by_cases same : name = n
  · rw [if_pos (Std.LawfulEqCmp.compare_eq_iff_eq.mpr same), if_pos same.symm]
  · rw [if_neg (mt Std.LawfulEqCmp.compare_eq_iff_eq.mp same), if_neg (Ne.symm same)]
    rfl

theorem getName_remove : (ctx.remove name).getName n = if n = name then none else ctx.getName n := by
  rw [getName, remove, Std.TreeMap.getElem?_erase]
  by_cases same : name = n
  · rw [if_pos (Std.LawfulEqCmp.compare_eq_iff_eq.mpr same), if_pos same.symm]
  · rw [if_neg (mt Std.LawfulEqCmp.compare_eq_iff_eq.mp same), if_neg (Ne.symm same)]
    rfl

theorem latest_enter : (ctx.enter name a).latest n =
    if n = name then if ctx.isenabled then some a else none else ctx.latest n :=
  rfl

/-- What a listing collects stands in the registry and has expired, or not. -/
theorem mem_names {expired : Bool} :
    n ∈ ctx.names expired ↔ ∃ a, ctx.getName n = some a ∧ ctx.expired a = expired := by
  constructor
  · intro member
    obtain ⟨⟨m, a⟩, kept, rfl⟩ := List.mem_map.mp member
    obtain ⟨listed, hit⟩ := List.mem_filter.mp kept
    exact ⟨a, Std.TreeMap.mem_toList_iff_getElem?_eq_some.mp listed, of_decide_eq_true hit⟩
  · rintro ⟨a, found, hit⟩
    have listed : (n, a) ∈ ctx.registry.toList :=
      Std.TreeMap.mem_toList_iff_getElem?_eq_some.mpr found
    exact List.mem_map.mpr ⟨(n, a), List.mem_filter.mpr ⟨listed, decide_eq_true hit⟩, rfl⟩

theorem not_expired_of_alive (alive : ctx.alive a = true) : ctx.expired a = false := by
  unfold Context.alive at alive
  unfold expired
  split at alive
  · have life := of_decide_eq_true alive
    simp [life]
  · cases alive

theorem set_self : (ctx.set a x).actors a = some x := if_pos rfl

theorem set_other (other : b ≠ a) : (ctx.set a x).actors b = ctx.actors b := if_neg other

theorem expired_of_actors (same : ctx'.actors a = ctx.actors a) : ctx'.expired a = ctx.expired a := by
  rw [expired, expired, same]

end Context

/-- The names that some listing has collected and not erased yet. -/
def Collected (ctx : Context) (name : Bytes) : Prop :=
  ∃ c ∈ ctx.connections, name ∈ c.expiredNames

/-- What holds of the registry in every state of an undisturbed run. -/
structure Found (ctx : Context) : Prop where
  known : ∀ name a, ctx.getName name = some a ∨ ctx.latest name = some a → ctx.actors a ≠ none
  found : ∀ name a, ctx.latest name = some a → ctx.expired a = false → ctx.getName name = some a
  collected : ∀ name a, Collected ctx name → ctx.getName name = some a → ctx.expired a = true
  locked : ∀ a x, ctx.actors a = some x → x.registration = .locked → x.life ≠ .expired
  counted : ctx.isenabled = false → ∀ name, ctx.latest name = none

namespace Found
variable {ctx : Context} {name : Bytes} {a : ActorId} {x : Actor}

/-- An actor's own step: what has expired stays so. -/
theorem set (inv : Found ctx)
    (expires : ∀ y, ctx.actors a = some y → y.life = .expired → x.life = .expired)
    (locked : x.registration = .locked → x.life ≠ .expired) : Found (ctx.set a x) := by
  have older : ∀ b, ctx.actors b ≠ none → ctx.expired b = true → (ctx.set a x).expired b = true := by
    intro b spawned gone
    by_cases same : b = a
    · subst same
      cases hy : ctx.actors b with
      | none => exact absurd hy spawned
      | some y =>
          rw [Context.expired, hy] at gone
          rw [Context.expired, Context.set_self]
          exact decide_eq_true (expires y hy (of_decide_eq_true gone))
    · rw [Context.expired_of_actors (Context.set_other same)]
      exact gone
  refine ⟨?_, ?_, ?_, ?_, inv.counted⟩
  · intro n b mentioned
    by_cases same : b = a
    · rw [same, Context.set_self]
      exact Option.some_ne_none x
    · rw [Context.set_other same]
      exact inv.known n b mentioned
  · intro n b latest living
    refine inv.found n b latest ?_
    by_contra gone
    have spawned := inv.known n b (.inr latest)
    rw [older b spawned (Bool.not_eq_false _ ▸ gone)] at living
    cases living
  · intro n b pending found
    exact older b (inv.known n b (.inl found)) (inv.collected n b pending found)
  · intro b y hy held
    by_cases same : b = a
    · rw [same, Context.set_self] at hy
      cases hy
      exact locked held
    · rw [Context.set_other same] at hy
      exact inv.locked b y hy held

/-- The counter may drop to zero, and then no registration counts any more. -/
theorem count (inv : Found ctx) (n : UInt64) : Found (ctx.count n) := by
  have earlier : ∀ name a, (ctx.count n).latest name = some a → ctx.latest name = some a := by
    intro name a latest
    by_cases zero : n = 0
    · have none : (ctx.count n).latest name = none := by rw [Context.count, if_pos zero]
      rw [none] at latest
      cases latest
    · rw [Context.count, if_neg zero] at latest
      exact latest
  refine ⟨?_, ?_, inv.collected, inv.locked, ?_⟩
  · rintro name a (found | latest)
    · exact inv.known name a (.inl found)
    · exact inv.known name a (.inr (earlier name a latest))
  · intro name a latest living
    exact inv.found name a (earlier name a latest) living
  · intro disabled name
    have zero : n = 0 := not_not.mp (of_decide_eq_false disabled)
    rw [Context.count, if_pos zero]

theorem clearing (inv : Found ctx) (n : Nat) : Found { ctx with clearing := n } :=
  ⟨inv.known, inv.found, inv.collected, inv.locked, inv.counted⟩

theorem clear (inv : Found ctx) (disabled : ctx.isenabled = false) :
    Found { ctx with registry := ∅ } := by
  have empty : ∀ name, ({ ctx with registry := ∅ } : Context).getName name = none :=
    fun _ => Std.TreeMap.getElem?_emptyc
  refine ⟨?_, ?_, ?_, inv.locked, inv.counted⟩
  · rintro name a (found | latest)
    · rw [empty] at found
      cases found
    · exact inv.known name a (.inr latest)
  · intro name a latest _
    rw [show ctx.latest name = none from inv.counted disabled name] at latest
    cases latest
  · intro name a _ found
    rw [empty] at found
    cases found

theorem enter (inv : Found ctx) (hx : ctx.actors a = some x) (living : x.life ≠ .expired)
    (free : ¬ Collected ctx name) : Found (ctx.enter name a) := by
  have alive : ctx.expired a = false := by
    rw [Context.expired, hx]
    exact decide_eq_false living
  have latest_cases : ∀ n b, (ctx.enter name a).latest n = some b →
      n = name ∧ b = a ∨ n ≠ name ∧ ctx.latest n = some b := by
    intro n b latest
    by_cases same : n = name
    · rw [Context.latest_enter, if_pos same] at latest
      cases on : ctx.isenabled with
      | true =>
          rw [on] at latest
          exact .inl ⟨same, (Option.some.inj latest).symm⟩
      | false =>
          rw [on] at latest
          cases latest
    · rw [Context.latest_enter, if_neg same] at latest
      exact .inr ⟨same, latest⟩
  have found_cases : ∀ n b, (ctx.enter name a).getName n = some b →
      n = name ∧ b = a ∨ n ≠ name ∧ ctx.getName n = some b := by
    intro n b found
    rw [Context.getName_enter] at found
    by_cases same : n = name
    · rw [if_pos same] at found
      exact .inl ⟨same, (Option.some.inj found).symm⟩
    · rw [if_neg same] at found
      exact .inr ⟨same, found⟩
  refine ⟨?_, ?_, ?_, inv.locked, ?_⟩
  · rintro n b (found | latest)
    · rcases found_cases n b found with ⟨-, rfl⟩ | ⟨-, before⟩
      · exact fun none => Option.some_ne_none x (hx.symm.trans none)
      · exact inv.known n b (.inl before)
    · rcases latest_cases n b latest with ⟨-, rfl⟩ | ⟨-, before⟩
      · exact fun none => Option.some_ne_none x (hx.symm.trans none)
      · exact inv.known n b (.inr before)
  · intro n b latest notExpired
    rw [Context.getName_enter]
    rcases latest_cases n b latest with ⟨rfl, rfl⟩ | ⟨other, before⟩
    · exact if_pos rfl
    · rw [if_neg other]
      exact inv.found n b before notExpired
  · intro n b pending found
    rcases found_cases n b found with ⟨rfl, rfl⟩ | ⟨-, before⟩
    · exact absurd pending free
    · exact inv.collected n b pending before
  · intro disabled n
    have off : ctx.isenabled = false := disabled
    by_cases same : n = name
    · rw [Context.latest_enter, if_pos same, off]
      rfl
    · rw [Context.latest_enter, if_neg same]
      exact inv.counted off n

theorem remove (inv : Found ctx) (pending : Collected ctx name) : Found (ctx.remove name) := by
  have earlier : ∀ n a, (ctx.remove name).getName n = some a → ctx.getName n = some a := by
    intro n a found
    rw [Context.getName_remove] at found
    split at found
    · cases found
    · exact found
  refine ⟨?_, ?_, ?_, inv.locked, inv.counted⟩
  · rintro n a (found | latest)
    · exact inv.known n a (.inl (earlier n a found))
    · exact inv.known n a (.inr latest)
  · intro n a latest living
    have found := inv.found n a latest living
    rw [Context.getName_remove]
    by_cases same : n = name
    · rw [same] at found
      have gone := inv.collected name a pending found
      rw [show ctx.expired a = false from living] at gone
      cases gone
    · rw [if_neg same]
      exact found
  · intro n a pending' found
    exact inv.collected n a pending' (earlier n a found)

/-- A connection holds names it held before, and names that have expired. -/
theorem connections (inv : Found ctx) {cs : List Connection}
    (held : ∀ c ∈ cs, ∀ n ∈ c.expiredNames,
      Collected ctx n ∨ ∀ a, ctx.getName n = some a → ctx.expired a = true) :
    Found { ctx with connections := cs } := by
  refine ⟨inv.known, inv.found, ?_, inv.locked, inv.counted⟩
  rintro n a ⟨c, hc, member⟩ found
  rcases held c hc n member with before | gone
  · exact inv.collected n a before found
  · exact gone a found

theorem setConnection (inv : Found ctx) (k : Nat) {c : Connection}
    (held : ∀ n ∈ c.expiredNames,
      Collected ctx n ∨ ∀ a, ctx.getName n = some a → ctx.expired a = true) :
    Found (ctx.setConnection k c) := by
  refine inv.connections ?_
  intro c' hc' n member
  rcases List.mem_or_eq_of_mem_set hc' with old | rfl
  · exact .inl ⟨c', old, member⟩
  · exact held n member

end Found

theorem collected_of_getElem {ctx : Context} {k : Nat} {c : Connection} {name : Bytes}
    (hc : ctx.connections[k]? = some c) (member : name ∈ c.expiredNames) : Collected ctx name :=
  ⟨c, List.mem_of_getElem? hc, member⟩

theorem not_collected {ctx : Context} {name : Bytes}
    (free : (ctx.connections.all fun c => !c.expiredNames.contains name) = true) :
    ¬ Collected ctx name := by
  rintro ⟨c, hc, member⟩
  have without := List.all_eq_true.mp free c hc
  simp [member] at without

section Steps
variable {ctx ctx' : Context} {act : Action}

theorem found_keeps : Keeps step (fun ctx act => undisturbed ctx act = true) Found := by
  intro ctx act ctx' inv calm next
  cases act with
  | spawn a name =>
      simp only [step] at next
      split at next
      · rename_i fresh
        cases next
        exact inv.set (fun y hy => absurd (hy.symm.trans fresh) (Option.some_ne_none y)) nofun
      · cases next
  | lock a =>
      simp only [step] at next
      split at next
      · rename_i x hx
        split at next
        · rename_i pending
          have expires : ∀ (r : Registration) y, ctx.actors a = some y → y.life = .expired →
              ({ x with registration := r } : Actor).life = .expired := by
            intro r y hy gone
            cases hx.symm.trans hy
            exact gone
          split at next
          · rename_i living
            cases next
            refine inv.set (expires .locked) ?_
            intro _ gone
            have gone' : ctx.expired a = true := by
              rw [Context.expired, hx]
              exact decide_eq_true gone
            simp [gone'] at living
          · cases next
            exact inv.set (expires .done) nofun
        · cases next
      · cases next
  | register a =>
      simp only [step] at next
      split at next
      · rename_i x hx
        split at next
        · rename_i held
          cases next
          have living := inv.locked a x hx held
          simp only [undisturbed, hx, held, ne_eq, not_true_eq_false, decide_false,
            Bool.false_or] at calm
          refine (inv.enter hx living (not_collected calm)).set ?_ nofun
          intro y hy gone
          cases hx.symm.trans hy
          exact gone
        · cases next
      · cases next
  | exit a =>
      simp only [step] at next
      split at next
      · rename_i x hx
        split at next
        · rename_i alive
          cases next
          refine inv.set ?_ nofun
          intro y hy gone
          cases hx.symm.trans hy
          rw [alive] at gone
          cases gone
        · cases next
      · cases next
  | release a =>
      simp only [step] at next
      split at next
      · rename_i x hx
        split at next
        · rename_i free
          cases next
          exact inv.set (fun _ _ _ => rfl) fun held => absurd held free.2
        · cases next
      · cases next
  | enable =>
      cases next
      exact inv.count _
  | disable =>
      simp only [step] at next
      split at next
      · cases next
        exact (inv.count _).clearing _
      · cases next
        exact inv.count _
  | clear =>
      simp only [step] at next
      split at next
      · cases next
      · rename_i n outstanding
        cases next
        have off : ctx.isenabled = false := by
          simpa [undisturbed, outstanding] using calm
        exact (inv.clear off).clearing n
  | connect =>
      cases next
      refine inv.connections ?_
      intro c hc n member
      rcases List.mem_append.mp hc with old | new
      · exact .inl ⟨c, old, member⟩
      · cases List.mem_singleton.mp new
        cases member
  | list k =>
      simp only [step] at next
      split at next
      · cases next
        refine inv.setConnection k ?_
        intro n member
        obtain ⟨b, found, gone⟩ := Context.mem_names.mp member
        right
        intro a found'
        cases found.symm.trans found'
        exact gone
      · cases next
  | unregister k =>
      simp only [step] at next
      split at next
      · rename_i name names written hc
        split at next
        · cases next
          exact inv.setConnection k fun n member => .inl (collected_of_getElem hc member)
        · cases next
          exact inv.setConnection k fun n member =>
            .inl (collected_of_getElem hc (List.mem_cons_of_mem name member))
      · cases next
  | erase k =>
      simp only [step] at next
      split at next
      · rename_i name names written hc
        cases next
        have pending := collected_of_getElem hc List.mem_cons_self
        have others : ∀ n ∈ names, Collected (ctx.remove name) n := fun n member =>
          collected_of_getElem hc (List.mem_cons_of_mem name member)
        exact (inv.remove pending).setConnection k fun n member => .inl (others n member)
      · cases next

theorem found_initial : Found .initial where
  known := by
    rintro name a (found | latest)
    · rw [show Context.initial.getName name = none from Std.TreeMap.getElem?_emptyc] at found
      cases found
    · cases latest
  found := nofun
  collected := by
    rintro name a ⟨c, member, -⟩
    cases member
  locked := nofun
  counted := fun _ _ => rfl

theorem Found.addressable (inv : Found ctx) : Addressable ctx :=
  fun name a latest alive => inv.found name a latest (Context.not_expired_of_alive alive)

theorem Found.erasesExpired (inv : Found ctx) : ErasesExpired ctx := by
  intro k ctx' next name a found alive
  simp only [step] at next
  split at next
  · rename_i expiredName names written hc
    cases next
    change (ctx.remove expiredName).getName name = some a
    rw [Context.getName_remove]
    by_cases same : name = expiredName
    · subst same
      have gone := inv.collected name a (collected_of_getElem hc List.mem_cons_self) found
      rw [Context.not_expired_of_alive alive] at gone
      cases gone
    · rw [if_neg same]
      exact found
  · cases next

end Steps

/-- A listing that has found debugging enabled erases its next name. -/
theorem erase_next {ctx : Context} {k : Nat} {name : Bytes} {names : List Bytes} {begun : Bool}
    {written : Bytes} (hc : ctx.connections[k]? = some ⟨name :: names, begun, written⟩)
    (on : ctx.isenabled = true) :
    ∃ acts, run step ctx acts = some ((ctx.remove name).setConnection k ⟨names, false, written⟩) := by
  have erased : ∀ ctx : Context, ctx.connections[k]? = some ⟨name :: names, true, written⟩ →
      step ctx (.erase k) = some ((ctx.remove name).setConnection k ⟨names, false, written⟩) := by
    intro ctx hc
    simp only [step, hc]
  cases begun with
  | true => exact ⟨[.erase k], by rw [run, erased ctx hc]; rfl⟩
  | false =>
      let begun := ctx.setConnection k ⟨name :: names, true, written⟩
      have first : step ctx (.unregister k) = some begun := by simp only [step, hc, on, if_true, begun]
      obtain ⟨bound, -⟩ := List.getElem?_eq_some_iff.mp hc
      have held : begun.connections[k]? = some ⟨name :: names, true, written⟩ :=
        List.getElem?_set_self bound
      refine ⟨[.unregister k, .erase k], ?_⟩
      rw [run, first, Option.bind_some, run, erased begun held]
      change some _ = some _
      simp only [begun, Context.remove, Context.setConnection, List.set_set]

/-- A listing goes on to erase each name it has collected. -/
theorem erase_collected {ctx : Context} {k : Nat} {name : Bytes} {c : Connection}
    (hc : ctx.connections[k]? = some c) (member : name ∈ c.expiredNames)
    (on : ctx.isenabled = true) :
    ∃ acts ctx', run step ctx acts = some ctx' ∧ ctx'.getName name = none ∧
      ctx'.latest = ctx.latest ∧ ctx'.actors = ctx.actors := by
  obtain ⟨names, begun, written⟩ := c
  induction names generalizing ctx begun with
  | nil => cases member
  | cons first names ih =>
      obtain ⟨acts, erased⟩ := erase_next hc on
      by_cases here : name = first
      · refine ⟨acts, _, erased, ?_, rfl, rfl⟩
        change (ctx.remove first).getName name = none
        rw [Context.getName_remove, if_pos here]
      · have later : name ∈ names := (List.mem_cons.mp member).resolve_left here
        let next := (ctx.remove first).setConnection k ⟨names, false, written⟩
        obtain ⟨bound, -⟩ := List.getElem?_eq_some_iff.mp hc
        have still : next.isenabled = true := on
        have held : next.connections[k]? = some ⟨names, false, written⟩ :=
          List.getElem?_set_self bound
        obtain ⟨rest, ctx', reached, hidden, latest, actors⟩ := ih still false held later
        exact ⟨acts ++ rest, ctx', run_append erased reached, hidden, latest, actors⟩

/-- An actor registered under a collected name is hidden once the listing goes on. -/
theorem hidden_of_disturbed {ctx ctx' : Context} {a : ActorId}
    (next : step ctx (.register a) = some ctx') (alive : ctx.alive a = true)
    (on : ctx.isenabled = true) (disturbed : undisturbed ctx (.register a) = false) :
    ∃ acts ctx'', run step ctx' acts = some ctx'' ∧ ¬ Addressable ctx'' := by
  simp only [step] at next
  split at next
  case h_2 => cases next
  rename_i x hx
  split at next
  case isFalse => cases next
  rename_i held
  cases next
  simp only [undisturbed, hx, held, ne_eq, not_true_eq_false, decide_false, Bool.false_or,
    List.all_eq_false] at disturbed
  obtain ⟨c, hc, member⟩ := disturbed
  obtain ⟨k, hk⟩ := List.mem_iff_getElem?.mp hc
  have pending : x.name ∈ c.expiredNames := by simpa using member
  let entered := (ctx.enter x.name a).set a { x with registration := .done }
  have held : entered.connections[k]? = some c := hk
  obtain ⟨acts, ctx'', reached, hidden, latest, actors⟩ := erase_collected held pending on
  refine ⟨acts, ctx'', reached, ?_⟩
  intro addressable
  have mine : ctx''.latest x.name = some a := by
    rw [latest]
    change (ctx.enter x.name a).latest x.name = some a
    rw [Context.latest_enter, if_pos rfl, on]
    rfl
  have living : ctx''.alive a = true := by
    rw [Context.alive, actors, show entered.actors a = some _ from Context.set_self]
    simpa [Context.alive, hx] using alive
  have found := addressable x.name a mine living
  rw [hidden] at found
  cases found

/-- In an undisturbed run every living actor is found under the name it was
registered last under, and listings erase none of them. A registration that is not
undisturbed leaves a living actor hidden once the listing has gone on. -/
theorem registered_addressable {acts : List Action} {ctx : Context}
    (reached : run step .initial acts = some ctx)
    (along : Along step (fun ctx act => undisturbed ctx act = true) .initial acts) :
    Addressable ctx ∧ ErasesExpired ctx ∧
      ∀ a ctx', step ctx (.register a) = some ctx' → ctx.alive a = true → ctx.isenabled = true →
        undisturbed ctx (.register a) = false →
        ∃ more ctx'', run step ctx' more = some ctx'' ∧ ¬ Addressable ctx'' := by
  have inv := found_keeps.run found_initial along reached
  exact ⟨inv.addressable, inv.erasesExpired, fun a ctx' next alive on disturbed =>
    hidden_of_disturbed next alive on disturbed⟩

/-- An actor exits and a listing drops its name before an actor of the same name is
registered. -/
def relisted : List Action :=
  [.enable, .connect, .spawn 1 [0x61], .lock 1, .register 1, .exit 1, .release 1, .list 0,
    .spawn 2 [0x61], .lock 2, .unregister 0, .erase 0, .register 2]

theorem registered_addressable_relisted :
    ∃ ctx, run step .initial relisted = some ctx ∧ Addressable ctx ∧
      ctx.latest [0x61] = some 2 ∧ ctx.alive 2 = true := by
  have shown : ((run step .initial relisted).map fun ctx =>
      (ctx.latest [0x61], ctx.alive 2)) = some (some 2, true) := by
    decide +kernel
  obtain ⟨ctx, reached, facts⟩ := Option.map_eq_some_iff.mp shown
  obtain ⟨latest, alive⟩ := Prod.mk.inj facts
  have along : Along step (fun ctx act => undisturbed ctx act = true) .initial relisted := by
    decide +kernel
  exact ⟨ctx, reached, (registered_addressable reached along).1, latest, alive⟩

/-- The listing collects the name of the first actor, the second is registered
under it, and the listing erases it. -/
def relistedLate : List Action :=
  [.enable, .connect, .spawn 1 [0x61], .lock 1, .register 1, .exit 1, .release 1, .list 0,
    .spawn 2 [0x61], .lock 2, .register 2, .unregister 0, .erase 0]

theorem live_actor_hidden :
    ∃ ctx, run step .initial relistedLate = some ctx ∧ ctx.latest [0x61] = some 2 ∧
      ctx.alive 2 = true ∧ ctx.isenabled = true ∧ ctx.getName [0x61] = none ∧
      ¬ Addressable ctx := by
  have shown : ((run step .initial relistedLate).map fun ctx =>
      (ctx.latest [0x61], ctx.alive 2, ctx.isenabled, ctx.getName [0x61])) =
        some (some 2, true, true, none) := by
    decide +kernel
  obtain ⟨ctx, reached, facts⟩ := Option.map_eq_some_iff.mp shown
  obtain ⟨latest, alive, on, hidden⟩ : ctx.latest [0x61] = some 2 ∧ ctx.alive 2 = true ∧
      ctx.isenabled = true ∧ ctx.getName [0x61] = none := by simpa using facts
  refine ⟨ctx, reached, latest, alive, on, hidden, ?_⟩
  intro addressable
  rw [addressable [0x61] 2 latest alive] at hidden
  cases hidden

end Thespian.Debug
