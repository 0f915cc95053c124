import Thespian.Remote.LinkStages

/-!
Links across the connection over whole runs. What may be said of a link in one state is
kept by the own steps of either side, where they meet its conditions, and by whatever
arrives, as long as both endpoints are up; and endpoints that are up at the end of a run
have been up all along.
-/

namespace Thespian.Remote
open Decoding Decoding.Decoder Cbor Zig Transition

/-- A condition on what a side does by itself. -/
def Advance.Meets (P : Action → Prop) : Advance → Prop
  | .act own => P own
  | .chunk _ => True

section Rules
variable {ε : Type} {ext : Externals ε} {A A' B B' : Node} {x p y : InstanceId}
  {forth back : List (Frame UInt8 ProtocolMessage)} {adv : Advance}

/-- What may be said of a link in every state of a run, where each side's own steps meet
a condition. -/
structure Stages (ext : Externals ε) (x p y : InstanceId) (asks answers : Node → Action → Prop)
    (S : Node → Node → List (Frame UInt8 ProtocolMessage) → List (Frame UInt8 ProtocolMessage) →
      Prop) : Prop where
  settled : ∀ {A B forth back}, Settled A x p → S A B forth back
  asker : ∀ {A A' B forth back act taker leaver new}, S A B forth back → Up A → Up A' →
    (∃ trap, A.kindOf x = some (.user trap)) → A.kindOf p = some (.proxy ⟨y⟩) → asks A act →
    Turned ext A act A' taker leaver → A.step ext act = some A' → Emitted ext A A' new →
    S A' B (forth ++ new) back
  other : ∀ {A B B' forth back act taker leaver new}, S A B forth back → Up B → Up B' →
    Person B y → answers B act → Turned ext B act B' taker leaver → B.step ext act = some B' →
    Emitted ext B B' new → S A B' forth (back ++ new)
  feeds : ∀ {A B B' forth back count}, S A B forth back → Wired ext A B forth back →
    B.step ext (.arrive (A.outgoing.take count)) = some B' → Up B' →
    ∃ rest, Wired ext (A.written count) B' rest back ∧ S (A.written count) B' rest back
  arrives : ∀ {A A' B forth back count}, S A B forth back → Wired ext A B forth back →
    A.step ext (.arrive (B.outgoing.take count)) = some A' → Up A' →
    ∃ rest, Wired ext A' (B.written count) forth rest ∧ S A' (B.written count) forth rest

/-- The actor's link with the proxy, between two sides that are up. -/
structure Linking (ext : Externals ε) (x p y : InstanceId)
    (S : Node → Node → List (Frame UInt8 ProtocolMessage) → List (Frame UInt8 ProtocolMessage) →
      Prop) (A B : Node) : Prop where
  user : ∃ trap, A.kindOf x = some (.user trap)
  kind : A.kindOf p = some (.proxy ⟨y⟩)
  stands : ∃ forth back, Wired ext A B forth back ∧ S A B forth back

theorem Wired.advance (doc : Documented ext.cbor) (h : Wired ext A B forth back)
    (next : advance ext A B adv = some (A', B')) (up : Up A') (up' : Up B') :
    (∃ forth back, Wired ext A' B' forth back) ∧ (∃ taker leaver, Passes taker leaver A A') ∧
      ∃ taker leaver, Passes taker leaver B B' := by
  rcases advance_cases next with ⟨act, -, own, stepped, rfl⟩ | ⟨count, -, stepped, rfl⟩
  · obtain ⟨new, -, wired⟩ := h.act own stepped up
    obtain ⟨taker, leaver, turned⟩ := step_turned h.up.1 own stepped up
    exact ⟨⟨_, _, wired⟩, ⟨taker, leaver, turned.passes⟩, none, none, .refl _⟩
  · obtain ⟨rest, wired, feeds⟩ := h.chunk doc stepped up'
    exact ⟨⟨_, _, wired⟩, ⟨none, none, .of_fields rfl rfl⟩, none, none, feeds.passes⟩

variable {asks answers : Node → Action → Prop}
  {S : Node → Node → List (Frame UInt8 ProtocolMessage) → List (Frame UInt8 ProtocolMessage) → Prop}

/-- The asking side takes a step, or some of what it has written arrives. -/
theorem Stages.here (stages : Stages ext x p y asks answers S) (doc : Documented ext.cbor)
    (h : Linking ext x p y S A B) (next : advance ext A B adv = some (A', B')) (up : Up A')
    (up' : Up B') (met : Settled A x p ∨ adv.Meets (asks A)) : Linking ext x p y S A' B' := by
  obtain ⟨⟨trap, user⟩, kind, forth, back, wired, stage⟩ := h
  obtain ⟨⟨forth', back', wired'⟩, ⟨taker, leaver, passes⟩, -⟩ := wired.advance doc next up up'
  refine ⟨⟨trap, passes.kind x _ user⟩, passes.kind p _ kind, ?_⟩
  rcases met with settled | met
  · exact ⟨forth', back', wired', stages.settled (settled.passes passes)⟩
  · rcases advance_cases next with ⟨act, rfl, own, stepped, rfl⟩ | ⟨count, -, stepped, rfl⟩
    · obtain ⟨new, emitted, wired'⟩ := wired.act own stepped up
      obtain ⟨taker, leaver, turned⟩ := step_turned wired.up.1 own stepped up
      have stage' := stages.asker stage wired.up up ⟨trap, user⟩ kind met turned stepped emitted
      exact ⟨_, _, wired', stage'⟩
    · obtain ⟨rest, wired, stage⟩ := stages.feeds stage wired stepped up'
      exact ⟨_, _, wired, stage⟩

/-- The other side does. -/
theorem Stages.there (stages : Stages ext x p y asks answers S) (doc : Documented ext.cbor)
    (h : Linking ext x p y S A B) (next : advance ext B A adv = some (B', A')) (up : Up A')
    (up' : Up B') (person : Person B y) (met : Settled A x p ∨ adv.Meets (answers B)) :
    Linking ext x p y S A' B' := by
  obtain ⟨⟨trap, user⟩, kind, forth, back, wired, stage⟩ := h
  obtain ⟨⟨back', forth', wired'⟩, -, taker, leaver, passes⟩ := wired.symm.advance doc next up' up
  refine ⟨⟨trap, passes.kind x _ user⟩, passes.kind p _ kind, ?_⟩
  rcases met with settled | met
  · exact ⟨forth', back', wired'.symm, stages.settled (settled.passes passes)⟩
  · rcases advance_cases next with ⟨act, rfl, own, stepped, rfl⟩ | ⟨count, -, stepped, rfl⟩
    · obtain ⟨new, emitted, wired'⟩ := wired.symm.act own stepped up'
      obtain ⟨taker, leaver, turned⟩ := step_turned wired.up'.1 own stepped up'
      have stage' := stages.other stage wired.up' up' person met turned stepped emitted
      exact ⟨_, _, wired'.symm, stage'⟩
    · obtain ⟨rest, wired, stage⟩ := stages.arrives stage wired stepped up
      exact ⟨_, _, wired, stage⟩

theorem reporting_stages (doc : Selective ext.cbor) (x p y : InstanceId) :
    Stages ext x p y (fun A => LeavesEntry ext A ⟨y⟩ p) (fun B => Reports ext B y x)
      (fun A B _ back => Reporting ext A B x p y back) where
  settled := .settled
  asker := by
    rintro A A' B forth back act taker leaver new stage up up' ⟨trap, user⟩ kind entry turned next -
    exact stage.asker doc up up' user kind entry turned next
  other := by
    intro A B B' forth back act taker leaver new stage up up' person reports turned next emitted
    exact stage.other doc up up' turned next emitted person reports
  feeds := by
    intro A B B' forth back count stage wired next up
    obtain ⟨rest, wired, feeds⟩ := wired.chunk doc.toDocumented next up
    exact ⟨rest, wired, stage.fed feeds.passes⟩
  arrives := fun stage wired next up => stage.arrives doc wired next up

theorem watched_stages (doc : Selective ext.cbor) (x p y : InstanceId) :
    Stages ext x p y (fun A act => TakesRequest A x p act ∧ LeavesEntry ext A ⟨y⟩ p act)
      (fun B act => Answers ext B y x act ∧ Reports ext B y x act)
      (fun A B => Watched ext A B x p y) where
  settled := fun settled => .reporting (.settled settled)
  asker := by
    rintro A A' B forth back act taker leaver new stage up up' ⟨trap, user⟩ kind ⟨request, entry⟩
      turned next emitted
    exact stage.asker doc up up' user kind request entry turned next emitted
  other := by
    rintro A B B' forth back act taker leaver new stage up up' person ⟨answers, reports⟩ turned next
      emitted
    exact stage.other doc up up' turned next emitted person answers reports
  feeds := fun stage wired next up => stage.feeds doc wired next up
  arrives := fun stage wired next up => stage.arrives doc wired next up

end Rules

section Stands
variable {ε : Type} {ext : Externals ε} {n n' : Node} {x y : InstanceId} {w w' : Network}

theorem Person.before (h : Person n' x) (consistent : Consistent n) {act : Action}
    (next : n.step ext act = some n') : Person n x :=
  fun k known => h k (kinds_step consistent next known)

/-- An endpoint that is up has not been down. -/
theorem Up.before (h : Up n') (consistent : Consistent n) {act : Action}
    (next : n.step ext act = some n') : Up n := by
  refine ⟨consistent, ?_, (step_eq_some next).1⟩
  obtain ⟨e, known, kind⟩ := consistent.endpoint
  obtain ⟨e', known', kind'⟩ := Node.kindOf_eq_some.mp
    (kinds_step consistent next (Node.kindOf_eq_some.mpr ⟨e, known, kind⟩))
  have same := h.1.only _ e' known' kind'
  by_contra down
  have gone := gone_step consistent (.of_not_alive known down) next
  rw [same] at gone
  exact gone.not_alive h.2.1

/-- Both endpoints are up, and the two actors, where they are, are users'. -/
structure Stands (x y : InstanceId) (w : Network) : Prop where
  left : Up w.left
  right : Up w.right
  person : Person w.left x
  person' : Person w.right y

theorem Stands.before (h : Stands x y w') (left : Consistent w.left) (right : Consistent w.right)
    {act : NetworkAction} (next : w.step ext act = some w') : Stands x y w := by
  have back {A A' B B' : Node} {adv : Advance} {a b : InstanceId} (consistent : Consistent A)
      (consistent' : Consistent B) (next : advance ext A B adv = some (A', B')) (up : Up A')
      (up' : Up B') (person : Person A' a) (person' : Person B' b) :
      (Up A ∧ Person A a) ∧ Up B ∧ Person B b := by
    rcases advance_cases next with ⟨act, -, -, stepped, rfl⟩ | ⟨count, -, stepped, rfl⟩
    · exact ⟨⟨up.before consistent stepped, person.before consistent stepped⟩, up', person'⟩
    · exact ⟨⟨⟨consistent, up.2⟩, person⟩, up'.before consistent' stepped,
        person'.before consistent' stepped⟩
  rcases network_step_eq_some next with ⟨adv, -, next⟩ | ⟨adv, -, next⟩
  · obtain ⟨⟨up, person⟩, up', person'⟩ := back left right next h.left h.right h.person h.person'
    exact ⟨up, up', person, person'⟩
  · obtain ⟨⟨up', person'⟩, up, person⟩ := back right left next h.right h.left h.person' h.person
    exact ⟨up, up', person, person'⟩

theorem network_step_consistent {act : NetworkAction} (left : Consistent w.left)
    (right : Consistent w.right) (next : w.step ext act = some w') :
    Consistent w'.left ∧ Consistent w'.right := by
  rcases network_step_eq_some next with ⟨adv, -, next⟩ | ⟨adv, -, next⟩
  · exact advance_consistent next left right
  · exact (advance_consistent next right left).symm

/-- What the steps keep while both endpoints are up holds at the end of a run after which
they are. -/
theorem run_stands {met : Network → NetworkAction → Prop} {I : Network → Prop}
    (keeps : ∀ w act w', met w act → Stands x y w → Stands x y w' →
      w.step ext act = some w' → I w → I w') {acts : List NetworkAction}
    (left : Consistent w.left) (right : Consistent w.right)
    (along : Along (Network.step ext) met w acts) (ran : run (Network.step ext) w acts = some w')
    (after : Stands x y w') (start : Stands x y w → I w) : I w' ∧ Stands x y w := by
  induction acts generalizing w with
  | nil =>
      cases ran
      exact ⟨start after, after⟩
  | cons act acts ih =>
      obtain ⟨t, first, rest⟩ := run_cons ran
      obtain ⟨left', right'⟩ := network_step_consistent left right first
      have sofar : Stands x y t → I t := fun stands =>
        keeps w act t along.1 (stands.before left right first) stands first
          (start (stands.before left right first))
      obtain ⟨kept, stands⟩ := ih left' right' (along.2 t first) rest sofar
      exact ⟨kept, stands.before left right first⟩

theorem wired_initial (left : Initial w.left) (right : Initial w.right) (up : Up w.left)
    (up' : Up w.right) : ∃ forth back, Wired ext w.left w.right forth back := by
  obtain ⟨forth, inFlight, -⟩ := @stream_initial ε ext _ _ left right
  obtain ⟨back, inFlight', -⟩ := @stream_initial ε ext _ _ right left
  exact ⟨forth, back, up, up', inFlight, inFlight'⟩

theorem wired_run (doc : Documented ext.cbor) (left : Initial w.left) (right : Initial w.right)
    {acts : List NetworkAction} (ran : run (Network.step ext) w acts = some w')
    (after : Stands x y w') : ∃ forth back, Wired ext w'.left w'.right forth back := by
  have consistent := (@kept_initial ε ext _ left).consistent
  have consistent' := (@kept_initial ε ext _ right).consistent
  have keeps (w : Network) (act : NetworkAction) (w' : Network) (_ : True) (_ : Stands x y w)
      (after : Stands x y w') (next : w.step ext act = some w')
      (h : ∃ forth back, Wired ext w.left w.right forth back) :
      ∃ forth back, Wired ext w'.left w'.right forth back := by
    obtain ⟨forth, back, wired⟩ := h
    rcases network_step_eq_some next with ⟨adv, -, next⟩ | ⟨adv, -, next⟩
    · exact (wired.advance doc next after.left after.right).1
    · obtain ⟨back, forth, wired⟩ := (wired.symm.advance doc next after.right after.left).1
      exact ⟨forth, back, wired.symm⟩
  have kept := run_stands keeps consistent consistent' (along_true acts) ran after
    fun stands => wired_initial left right stands.left stands.right
  exact kept.1

end Stands

end Thespian.Remote
