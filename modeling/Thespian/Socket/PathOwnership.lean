import Thespian.Socket.UnixAcceptor

/-!
Who may unlink a path. An acceptor unlinks what it has found stale and what it has
bound, and does so by path. As long as nobody binds a path that another acceptor has
yet to unlink, and nobody probes a socket between its bind and its listen, no file
of an open acceptor is unlinked by another one. Otherwise it is, when the other
acceptor goes on.
-/

namespace Thespian.Socket.Unx
open Cbor Transition

variable {ν : Type} (entry : Bytes → Option ν)

/-- The acceptor comes to unlink the entry: it has found it stale, or it holds it. -/
def Acceptor.unlinks [DecidableEq ν] (x : Acceptor) (e : ν) : Bool :=
  x.held entry = some e ||
    match x.next with
    | .unlink path => entry path = some e
    | _ => false

section Properties
variable [DecidableEq ν]

/-- Nobody else has yet to unlink what an acceptor binds, and a socket of another
acceptor that it probes listens or is closed. -/
def apart (s : State ν) : Action → Bool
  | .advance a succeeds =>
      match s.acceptors[a]? with
      | none => true
      | some x =>
          match x.next with
          | .connect path =>
              match s.fileAt entry path with
              | some (.acceptor b) => !succeeds || b = a || s.status b = .closed || s.status b = .listening
              | _ => true
          | .bind path .file =>
              match entry path with
              | some e =>
                  !(succeeds && s.canBind entry x path .file) ||
                    s.acceptors.zipIdx.all fun y => y.2 = a || !y.1.unlinks entry e
              | none => true
          | _ => true
  | _ => true

/-- A step takes the file of an acceptor that is not closed only as its own. -/
def Exclusive (s : State ν) : Prop :=
  ∀ act s', step entry s act = some s' → ∀ e b, s.files e = some (.acceptor b) →
    s'.files e ≠ some (.acceptor b) → s.status b ≠ .closed → act.acceptor = some b

/-- The path of a listening acceptor leads to it. -/
def Leads (s : State ν) : Prop :=
  ∀ (b : AcceptorId) (x : Acceptor) e, s.acceptors[b]? = some x → x.socket = .listening → x.held entry = some e →
    s.files e = some (.acceptor b)

end Properties

namespace State
variable {s : State ν} {a b : AcceptorId} {x y : Acceptor} {e e' : ν}

theorem set_self (bound : a < s.acceptors.length) : (s.set a x).acceptors[a]? = some x :=
  List.getElem?_set_self bound

theorem set_other (other : b ≠ a) : (s.set a x).acceptors[b]? = s.acceptors[b]? :=
  List.getElem?_set_ne (Ne.symm other)

theorem set_cases {z : Acceptor} (hx : s.acceptors[a]? = some x) (hy : (s.set a y).acceptors[b]? = some z) :
    b = a ∧ z = y ∨ b ≠ a ∧ s.acceptors[b]? = some z := by
  obtain ⟨bound, -⟩ := List.getElem?_eq_some_iff.mp hx
  by_cases same : b = a
  · rw [same, set_self bound] at hy
    exact .inl ⟨same, (Option.some.inj hy).symm⟩
  · rw [set_other same] at hy
    exact .inr ⟨same, hy⟩

theorem status_eq (hx : s.acceptors[a]? = some x) : s.status a = x.socket := by
  rw [status, hx]
  rfl

theorem status_set_other (other : b ≠ a) : (s.set a x).status b = s.status b := by
  rw [status, set_other other, status]

theorem status_set_self (hx : s.acceptors[a]? = some x) : (s.set a y).status a = y.socket := by
  obtain ⟨bound, -⟩ := List.getElem?_eq_some_iff.mp hx
  exact status_eq (set_self bound)

theorem put_self [DecidableEq ν] {f : Option File} : (s.put e f).files e = f := if_pos rfl

theorem put_other [DecidableEq ν] {f : Option File} (other : e' ≠ e) :
    (s.put e f).files e' = s.files e' :=
  if_neg other

theorem ite_remove_acceptors [DecidableEq ν] (succeeds : Bool) (target : Option ν) :
    (if succeeds then s.remove target else s).acceptors = s.acceptors := by
  cases succeeds <;> cases target <;> rfl

end State

/-- What holds in every state of a run whose steps are apart. -/
structure Kept (s : State ν) : Prop where
  stale : ∀ (b : AcceptorId) (x : Acceptor) path e, s.acceptors[b]? = some x → x.next = .unlink path → entry path = some e →
    ∀ c : AcceptorId, s.files e = some (.acceptor c) →
      s.status c = .closed ∨ c = b ∧ x.socket ≠ .listening
  held : ∀ (b : AcceptorId) (x : Acceptor) e, s.acceptors[b]? = some x → x.held entry = some e →
    ∀ c : AcceptorId, s.files e = some (.acceptor c) → c = b ∨ s.status c = .closed
  leads : ∀ (b : AcceptorId) (x : Acceptor) e, s.acceptors[b]? = some x →
    (x.socket = .listening ∨ x.next = .chmod ∨ x.next = .listen) → x.held entry = some e →
    s.files e = some (.acceptor b)
  listens : ∀ (b : AcceptorId) (x : Acceptor), s.acceptors[b]? = some x → x.next = .chmod ∨ x.next = .listen →
    x.socket = .bound
  releases : ∀ (b : AcceptorId) (x : Acceptor) d, s.acceptors[b]? = some x → x.next = .releasePath d → x.socket = .closed
  unbound : ∀ (b : AcceptorId) (x : Acceptor), s.acceptors[b]? = some x → x.socket = .opened → x.path = []
  gone : ∀ (b : AcceptorId) (x : Acceptor), s.acceptors[b]? = some x → x.next = .destroyed →
    x.path = []
  known : ∀ e (c : AcceptorId), s.files e = some (.acceptor c) → c < s.acceptors.length

namespace Kept
variable {entry : Bytes → Option ν} {s : State ν} {a : AcceptorId} {x y : Acceptor} {e : ν}

/-- An acceptor goes on, and the files stay. -/
theorem set (inv : Kept entry s) (hx : s.acceptors[a]? = some x)
    (closes : x.socket = .closed → y.socket = .closed)
    (stale : ∀ path e, y.next = .unlink path → entry path = some e →
      ∀ c, s.files e = some (.acceptor c) → s.status c = .closed ∨ c = a ∧ y.socket ≠ .listening)
    (held : ∀ e, y.held entry = some e → ∀ c, s.files e = some (.acceptor c) →
      c = a ∨ s.status c = .closed)
    (leads : (y.socket = .listening ∨ y.next = .chmod ∨ y.next = .listen) →
      ∀ e, y.held entry = some e → s.files e = some (.acceptor a))
    (listens : y.next = .chmod ∨ y.next = .listen → y.socket = .bound)
    (releases : ∀ d, y.next = .releasePath d → y.socket = .closed)
    (unbound : y.socket = .opened → y.path = [])
    (gone : y.next = .destroyed → y.path = []) : Kept entry (s.set a y) := by
  have closed : ∀ c, s.status c = .closed → (s.set a y).status c = .closed := by
    intro c gone
    by_cases same : c = a
    · subst same
      rw [State.status_set_self hx]
      exact closes ((State.status_eq hx).symm.trans gone)
    · rw [State.status_set_other same]
      exact gone
  constructor
  · intro b z path e hz next leads' c file
    rcases State.set_cases hx hz with ⟨rfl, rfl⟩ | ⟨-, old⟩
    · exact (stale path e next leads' c file).imp (closed c) id
    · exact (inv.stale b z path e old next leads' c file).imp (closed c) id
  · intro b z e hz mine c file
    rcases State.set_cases hx hz with ⟨rfl, rfl⟩ | ⟨-, old⟩
    · exact (held e mine c file).imp id (closed c)
    · exact (inv.held b z e old mine c file).imp id (closed c)
  · intro b z e hz active mine
    rcases State.set_cases hx hz with ⟨rfl, rfl⟩ | ⟨-, old⟩
    · exact leads active e mine
    · exact inv.leads b z e old active mine
  · intro b z hz next
    rcases State.set_cases hx hz with ⟨rfl, rfl⟩ | ⟨-, old⟩
    · exact listens next
    · exact inv.listens b z old next
  · intro b z d hz next
    rcases State.set_cases hx hz with ⟨rfl, rfl⟩ | ⟨-, old⟩
    · exact releases d next
    · exact inv.releases b z d old next
  · intro b z hz opened
    rcases State.set_cases hx hz with ⟨rfl, rfl⟩ | ⟨-, old⟩
    · exact unbound opened
    · exact inv.unbound b z old opened
  · intro b z hz next
    rcases State.set_cases hx hz with ⟨rfl, rfl⟩ | ⟨-, old⟩
    · exact gone next
    · exact inv.gone b z old next
  · intro e c file
    have bound := inv.known e c file
    rwa [State.set, List.length_set]

/-- An acceptor comes to a call that is not one of the last two of listen, and
keeps its socket and its path. -/
theorem goes (inv : Kept entry s) (hx : s.acceptors[a]? = some x) {next : Next}
    (stale : ∀ path e, next = .unlink path → entry path = some e →
      ∀ c, s.files e = some (.acceptor c) → s.status c = .closed ∨ c = a ∧ x.socket ≠ .listening)
    (other : next ≠ .chmod ∧ next ≠ .listen ∧ next ≠ .destroyed ∧ ∀ d, next ≠ .releasePath d) :
    Kept entry (s.set a { x with next }) := by
  refine inv.set hx id stale (fun e mine => inv.held a x e hx mine) ?_ ?_ ?_ (inv.unbound a x hx)
    fun now => absurd now other.2.2.1
  · rintro (listening | now | now) e mine
    · exact inv.leads a x e hx (.inl listening) mine
    · exact absurd now other.1
    · exact absurd now other.2.1
  · rintro (now | now)
    · exact absurd now other.1
    · exact absurd now other.2.1
  · exact fun d now => absurd now (other.2.2.2 d)

/-- What an acceptor has found stale, or has closed, is held by no open acceptor. -/
theorem unlink_free (inv : Kept entry s) (hx : s.acceptors[a]? = some x)
    (unlinks : (∃ path, x.next = .unlink path ∧ entry path = some e) ∨
      (∃ d, x.next = .releasePath d) ∧ x.held entry = some e) :
    ∀ (b : AcceptorId) (z : Acceptor), s.acceptors[b]? = some z →
      (z.socket = .listening ∨ z.next = .chmod ∨ z.next = .listen) → z.held entry ≠ some e := by
  intro b z hz active mine
  have file := inv.leads b z e hz active mine
  have opened : z.socket ≠ .closed := by
    intro closed
    rcases active with listening | next
    · rw [listening] at closed
      cases closed
    · rw [inv.listens b z hz next] at closed
      cases closed
  rcases unlinks with ⟨path, next, leads⟩ | ⟨⟨d, next⟩, holds⟩
  · rcases inv.stale a x path e hx next leads b file with closed | ⟨rfl, silent⟩
    · exact opened ((State.status_eq hz).symm.trans closed)
    · cases hx.symm.trans hz
      rcases active with listening | now | now
      · exact silent listening
      · rw [next] at now
        cases now
      · rw [next] at now
        cases now
  · rcases inv.held a x e hx holds b file with rfl | closed
    · cases hx.symm.trans hz
      exact opened (inv.releases b x d hx next)
    · exact opened ((State.status_eq hz).symm.trans closed)

variable [DecidableEq ν]

theorem remove (inv : Kept entry s)
    (free : ∀ (b : AcceptorId) (z : Acceptor), s.acceptors[b]? = some z →
      (z.socket = .listening ∨ z.next = .chmod ∨ z.next = .listen) → z.held entry ≠ some e) :
    Kept entry (s.remove (some e)) := by
  have earlier : ∀ e' c, (s.remove (some e)).files e' = some (.acceptor c) →
      s.files e' = some (.acceptor c) := by
    intro e' c file
    simp only [State.remove, State.put] at file
    split at file
    · cases file
    · exact file
  refine ⟨?_, ?_, ?_, inv.listens, inv.releases, inv.unbound, inv.gone, ?_⟩
  · exact fun b z path e' hz next leads c file =>
      inv.stale b z path e' hz next leads c (earlier e' c file)
  · exact fun b z e' hz mine c file => inv.held b z e' hz mine c (earlier e' c file)
  · intro b z e' hz active mine
    have other : e' ≠ e := fun same => free b z hz active (same ▸ mine)
    simp only [State.remove, State.put, if_neg other]
    exact inv.leads b z e' hz active mine
  · exact fun e' c file => inv.known e' c (earlier e' c file)

theorem put (inv : Kept entry s) (bound : a < s.acceptors.length)
    (free : ∀ (b : AcceptorId) (z : Acceptor), s.acceptors[b]? = some z → z.unlinks entry e = false) :
    Kept entry (s.put e (some (.acceptor a))) := by
  have unheld : ∀ (b : AcceptorId) (z : Acceptor), s.acceptors[b]? = some z → z.held entry ≠ some e := by
    intro b z hz mine
    have apart := free b z hz
    simp [Acceptor.unlinks, mine] at apart
  have unmarked : ∀ (b : AcceptorId) (z : Acceptor) path, s.acceptors[b]? = some z → z.next = .unlink path →
      entry path ≠ some e := by
    intro b z path hz next leads
    have apart := free b z hz
    simp [Acceptor.unlinks, next, leads] at apart
  refine ⟨?_, ?_, ?_, inv.listens, inv.releases, inv.unbound, inv.gone, ?_⟩
  · intro b z path e' hz next leads c file
    have other : e' ≠ e := fun same => unmarked b z path hz next (same ▸ leads)
    rw [State.put_other other] at file
    exact inv.stale b z path e' hz next leads c file
  · intro b z e' hz mine c file
    have other : e' ≠ e := fun same => unheld b z hz (same ▸ mine)
    rw [State.put_other other] at file
    exact inv.held b z e' hz mine c file
  · intro b z e' hz active mine
    have other : e' ≠ e := fun same => unheld b z hz (same ▸ mine)
    rw [State.put_other other]
    exact inv.leads b z e' hz active mine
  · intro e' c file
    by_cases same : e' = e
    · rw [same, State.put_self] at file
      cases file
      exact bound
    · rw [State.put_other same] at file
      exact inv.known e' c file

theorem removes (inv : Kept entry s) (hx : s.acceptors[a]? = some x) {target : Option ν}
    (unlinks : ∀ e, target = some e → (∃ path, x.next = .unlink path ∧ entry path = some e) ∨
      (∃ d, x.next = .releasePath d) ∧ x.held entry = some e) (succeeds : Bool) :
    Kept entry (if succeeds then s.remove target else s) := by
  cases succeeds with
  | false => exact inv
  | true =>
      cases target with
      | none => exact inv
      | some e => exact inv.remove (inv.unlink_free hx (unlinks e rfl))

omit [DecidableEq ν] in
theorem create (inv : Kept entry s) :
    Kept entry { s with acceptors := s.acceptors ++ [{}] } := by
  have cases_of : ∀ (b : AcceptorId) z, (s.acceptors ++ [({} : Acceptor)])[b]? = some z →
      s.acceptors[b]? = some z ∨ z = ({} : Acceptor) := by
    intro b z hz
    rcases log_add_iff.mp hz with old | ⟨-, new⟩
    · exact .inl old
    · exact .inr new.symm
  have status_of : ∀ e (c : AcceptorId), s.files e = some (.acceptor c) →
      ({ s with acceptors := s.acceptors ++ [{}] } : State ν).status c = s.status c := by
    intro e c file
    rw [State.status, State.status, List.getElem?_append_left (inv.known e c file)]
  refine ⟨?_, ?_, ?_, ?_, ?_, ?_, ?_, ?_⟩
  · intro b z path e hz next leads c file
    rw [status_of e c file]
    rcases cases_of b z hz with old | rfl
    · exact inv.stale b z path e old next leads c file
    · cases next
  · intro b z e hz mine c file
    rw [status_of e c file]
    rcases cases_of b z hz with old | rfl
    · exact inv.held b z e old mine c file
    · cases mine
  · intro b z e hz active mine
    rcases cases_of b z hz with old | rfl
    · exact inv.leads b z e old active mine
    · cases mine
  · intro b z hz next
    rcases cases_of b z hz with old | rfl
    · exact inv.listens b z old next
    · rcases next with now | now <;> cases now
  · intro b z d hz next
    rcases cases_of b z hz with old | rfl
    · exact inv.releases b z d old next
    · cases next
  · intro b z hz opened
    rcases cases_of b z hz with old | rfl
    · exact inv.unbound b z old opened
    · rfl
  · intro b z hz next
    rcases cases_of b z hz with old | rfl
    · exact inv.gone b z old next
    · rfl
  · intro e c file
    rw [List.length_append]
    exact Nat.lt_add_right _ (inv.known e c file)

omit [DecidableEq ν] in
theorem close (inv : Kept entry s) (hx : s.acceptors[a]? = some x) (destroying : Bool) :
    Kept entry (s.set a { x with socket := .closed, next := .releasePath destroying }) := by
  refine inv.set hx (fun _ => rfl) nofun (fun e mine => inv.held a x e hx mine) ?_ ?_
    (fun _ _ => rfl) nofun nofun
  · rintro (now | now | now) <;> cases now
  · rintro (now | now) <;> cases now

/-- The acceptor probes the file: what refuses the connect is closed, or it is its own. -/
theorem probe (inv : Kept entry s) (hx : s.acceptors[a]? = some x) {path : Bytes}
    (next : x.next = .connect path) (meets : apart entry s (.advance a true) = true)
    (refused : (s.fileAt entry path).any s.refuses = true) :
    Kept entry (s.set a { x with next := .unlink path }) := by
  refine inv.goes hx ?_ ⟨nofun, nofun, nofun, nofun⟩
  intro path' e now leads c file
  cases now
  have found : s.fileAt entry path = some (.acceptor c) := by
    rw [State.fileAt, leads]
    exact file
  rw [found] at refused
  have silent : s.status c ≠ .listening := by simpa [State.refuses] using refused
  simp only [apart, hx, next, found, Bool.not_true, Bool.false_or, Bool.or_eq_true,
    decide_eq_true_eq] at meets
  rcases meets with (rfl | closed) | listening
  · rw [State.status_eq hx] at silent
    exact .inr ⟨rfl, silent⟩
  · exact .inl closed
  · exact absurd listening silent

/-- The acceptor binds a path that nobody else has yet to unlink. -/
theorem bindFile (inv : Kept entry s) (hx : s.acceptors[a]? = some x) {path : Bytes}
    (next : x.next = .bind path .file) (meets : apart entry s (.advance a true) = true)
    (free : s.canBind entry x path .file = true) :
    Kept entry ((match entry path with
      | some e => s.put e (some (.acceptor a))
      | none => s).set a { socket := .bound, path, next := .chmod }) := by
  simp only [State.canBind, Bool.and_eq_true, decide_eq_true_eq] at free
  have opened : x.socket = .opened := free.1.1
  have closes : ∀ {y : Acceptor}, x.socket = .closed → y.socket = .closed := by
    intro y closed
    rw [opened] at closed
    cases closed
  obtain ⟨bound, -⟩ := List.getElem?_eq_some_iff.mp hx
  cases leads : entry path with
  | none =>
      have unheld : ∀ e, ({ socket := .bound, path, next := .chmod } : Acceptor).held entry ≠ some e := by
        intro e mine
        simp [Acceptor.held, leads] at mine
      refine inv.set hx closes nofun ?_ ?_ (fun _ => rfl) nofun nofun nofun
      · exact fun e mine => absurd mine (unheld e)
      · exact fun _ e mine => absurd mine (unheld e)
  | some e =>
      simp only [apart, hx, next, leads] at meets
      have free' : s.canBind entry x path .file = true := by
        simp only [State.canBind, Bool.and_eq_true, decide_eq_true_eq]
        exact free
      rw [free', Bool.true_and, Bool.not_true, Bool.false_or, List.all_eq_true] at meets
      have nobody : ∀ (b : AcceptorId) (z : Acceptor), s.acceptors[b]? = some z →
          z.unlinks entry e = false := by
        intro b z hz
        have member : (z, b) ∈ s.acceptors.zipIdx := List.mem_zipIdx_iff_getElem?.mpr hz
        have other := meets (z, b) member
        simp only [Bool.or_eq_true, decide_eq_true_eq, Bool.not_eq_true'] at other
        rcases other with rfl | other
        · cases hx.symm.trans hz
          have unheld : x.held entry = none := by simp [Acceptor.held, inv.unbound _ x hx opened]
          simp [Acceptor.unlinks, unheld, next]
        · exact other
      have file : (s.put e (some (.acceptor a))).files e = some (.acceptor a) := State.put_self
      have mine_eq : ∀ e', ({ socket := .bound, path, next := .chmod } : Acceptor).held entry = some e' →
          e' = e := by
        intro e' mine
        unfold Acceptor.held at mine
        split at mine
        · cases mine
        · exact Option.some.inj (mine.symm.trans leads)
      refine (inv.put bound nobody).set hx closes nofun ?_ ?_ (fun _ => rfl) nofun nofun nofun
      · intro e' mine c file'
        rw [mine_eq e' mine, file] at file'
        cases file'
        exact .inl rfl
      · intro _ e' mine
        rw [mine_eq e' mine]
        exact file

theorem advance (inv : Kept entry s) (hx : s.acceptors[a]? = some x) {succeeds : Bool}
    {s' : State ν} (meets : apart entry s (.advance a succeeds) = true)
    (go : s.advance entry a x succeeds = some s') : Kept entry s' := by
  unfold State.advance at go
  split at go
  case h_1 => cases go
  case h_2 => cases go
  case h_3 path next =>
      split at go <;> cases go <;> exact inv.goes hx nofun ⟨nofun, nofun, nofun, nofun⟩
  case h_4 path next =>
      split at go
      · rename_i refused
        simp only [Bool.and_eq_true] at refused
        obtain ⟨rfl, refused⟩ := refused
        cases go
        exact inv.probe hx next meets refused
      · cases go
        exact inv.goes hx nofun ⟨nofun, nofun, nofun, nofun⟩
  case h_5 path next =>
      cases go
      have unlinks : ∀ e, entry path = some e →
          (∃ path, x.next = .unlink path ∧ entry path = some e) ∨
            (∃ d, x.next = .releasePath d) ∧ x.held entry = some e :=
        fun e leads => .inl ⟨path, next, leads⟩
      have kept := inv.removes hx unlinks succeeds
      refine Kept.goes kept ?_ nofun ⟨nofun, nofun, nofun, nofun⟩
      rw [State.ite_remove_acceptors]
      exact hx
  case h_6 path mode next =>
      split at go
      · rename_i free
        simp only [Bool.and_eq_true] at free
        obtain ⟨rfl, free⟩ := free
        cases mode with
        | abstract =>
            cases go
            have opened : x.socket = .opened := by
              simp only [State.canBind, Bool.and_eq_true, decide_eq_true_eq] at free
              exact free.1.1
            have unheld : x.held entry = none := by simp [Acceptor.held, inv.unbound a x hx opened]
            refine inv.set hx ?_ nofun ?_ ?_ (fun _ => rfl) nofun nofun nofun
            · intro closed
              rw [opened] at closed
              cases closed
            · exact fun e mine => inv.held a x e hx mine
            · intro _ e mine
              cases unheld.symm.trans mine
        | file =>
            cases go
            exact inv.bindFile hx next meets free
      · cases go
        exact inv.goes hx nofun ⟨nofun, nofun, nofun, nofun⟩
  case h_7 next =>
      cases go
      have bound := inv.listens a x hx (.inl next)
      refine inv.set hx id nofun (fun e mine => inv.held a x e hx mine) ?_ (fun _ => bound) nofun
        (inv.unbound a x hx) nofun
      exact fun _ e mine => inv.leads a x e hx (.inr (.inl next)) mine
  case h_8 next =>
      have leads := fun e mine => inv.leads a x e hx (.inr (.inr next)) mine
      have bound := inv.listens a x hx (.inr next)
      split at go
      · cases go
        refine inv.set hx ?_ nofun (fun e mine => inv.held a x e hx mine) (fun _ => leads) ?_ nofun
          nofun nofun
        · intro closed
          rw [bound] at closed
          cases closed
        · rintro (now | now) <;> cases now
      · cases go
        exact inv.goes hx nofun ⟨nofun, nofun, nofun, nofun⟩
  case h_9 destroying next =>
      cases go
      have unlinks : ∀ e, x.held entry = some e →
          (∃ path, x.next = .unlink path ∧ entry path = some e) ∨
            (∃ d, x.next = .releasePath d) ∧ x.held entry = some e :=
        fun e mine => .inr ⟨⟨destroying, next⟩, mine⟩
      have kept := inv.removes hx unlinks succeeds
      have closed := inv.releases a x destroying hx next
      have hx' : (if succeeds then s.remove (x.held entry) else s).acceptors[a]? = some x := by
        rw [State.ite_remove_acceptors]
        exact hx
      refine kept.set hx' id ?_ ?_ ?_ ?_ ?_ (fun _ => rfl) (fun _ => rfl)
      · intro path e now
        cases destroying <;> cases now
      · intro e mine
        simp [Acceptor.held] at mine
      · intro _ e mine
        simp [Acceptor.held] at mine
      · rintro (now | now) <;> cases destroying <;> cases now
      · intro d now
        cases destroying <;> cases now

end Kept

theorem kept_keeps [DecidableEq ν] :
    Keeps (step entry) (fun s act => apart entry s act = true) (Kept entry) := by
  intro s act s' inv meets next
  cases act with
  | create =>
      cases next
      exact inv.create
  | listen a path mode =>
      simp only [step] at next
      split at next
      · rename_i x hx
        split at next
        · split at next <;> cases next <;> exact inv.goes hx nofun ⟨nofun, nofun, nofun, nofun⟩
        · cases next
      · cases next
  | close a =>
      simp only [step] at next
      split at next
      · rename_i x hx
        split at next
        · cases next
          exact inv.close hx false
        · cases next
      · cases next
  | destroy a =>
      simp only [step] at next
      split at next
      · rename_i x hx
        split at next
        · cases next
          exact inv.close hx true
        · cases next
      · cases next
  | advance a succeeds =>
      simp only [step] at next
      split at next
      · rename_i x hx
        exact inv.advance hx meets next
      · cases next

theorem kept_initial (foreign : ν → Option Foreign) : Kept entry (.initial foreign) := by
  refine ⟨nofun, nofun, nofun, nofun, nofun, nofun, nofun, ?_⟩
  intro e c file
  simp [State.initial] at file

theorem Kept.reaches {s : State ν} (inv : Kept entry s) : Leads entry s :=
  fun b x e hx listening mine => inv.leads b x e hx (.inl listening) mine

section Runs
variable {entry} [DecidableEq ν] {s s' : State ν} {a b : AcceptorId} {x y : Acceptor} {e : ν}

/-- What a step does to the files: nothing, an unlink of what the acceptor has found
stale or holds, or a bind. -/
theorem files_of_step {act : Action} (next : step entry s act = some s') :
    s'.files = s.files ∨
      (∃ a x e, act.acceptor = some a ∧ s.acceptors[a]? = some x ∧
        ((∃ path, x.next = .unlink path ∧ entry path = some e) ∨
          (∃ d, x.next = .releasePath d) ∧ x.held entry = some e) ∧
        s'.files = (s.remove (some e)).files) ∨
      ∃ a e, s.files e = none ∧ s'.files = (s.put e (some (.acceptor a))).files := by
  cases act with
  | create =>
      cases next
      exact .inl rfl
  | listen a path mode =>
      simp only [step] at next
      split at next
      · split at next
        · split at next <;> cases next <;> exact .inl rfl
        · cases next
      · cases next
  | close a | destroy a =>
      simp only [step] at next
      split at next
      · split at next
        · cases next
          exact .inl rfl
        · cases next
      · cases next
  | advance a succeeds =>
      simp only [step] at next
      split at next
      case h_2 => cases next
      rename_i x hx
      unfold State.advance at next
      split at next
      case h_1 => cases next
      case h_2 => cases next
      case h_3 | h_4 =>
          split at next <;> cases next <;> exact .inl rfl
      case h_5 path now =>
          cases next
          cases succeeds with
          | false => exact .inl rfl
          | true =>
              cases leads : entry path with
              | none => exact .inl rfl
              | some e => exact .inr (.inl ⟨a, x, e, rfl, hx, .inl ⟨path, now, leads⟩, rfl⟩)
      case h_6 path mode now =>
          split at next
          · rename_i free
            cases mode with
            | abstract =>
                cases next
                exact .inl rfl
            | file =>
                cases next
                cases leads : entry path with
                | none => exact .inl rfl
                | some e =>
                    have absent : s.files e = none := by
                      simp only [State.canBind, State.fileAt, leads, Bool.and_eq_true] at free
                      simpa using free.2.2
                    exact .inr (.inr ⟨a, e, absent, rfl⟩)
          · cases next
            exact .inl rfl
      case h_7 =>
          cases next
          exact .inl rfl
      case h_8 =>
          split at next <;> cases next <;> exact .inl rfl
      case h_9 destroying now =>
          cases next
          cases succeeds with
          | false => exact .inl rfl
          | true =>
              cases mine : x.held entry with
              | none => exact .inl rfl
              | some e => exact .inr (.inl ⟨a, x, e, rfl, hx, .inr ⟨⟨destroying, now⟩, mine⟩, rfl⟩)

theorem Kept.exclusive (inv : Kept entry s) : Exclusive entry s := by
  intro act s' next e b file taken opened
  rcases files_of_step next with same | ⟨a, x, e', acts, hx, unlinks, files⟩ | ⟨a, e', absent, files⟩
  · rw [same] at taken
    exact absurd file taken
  · have here : e = e' := by
      by_contra other
      rw [files] at taken
      exact taken ((State.put_other other).trans file)
    subst here
    rcases unlinks with ⟨path, now, leads⟩ | ⟨-, mine⟩
    · rcases inv.stale a x path e hx now leads b file with closed | ⟨rfl, -⟩
      · exact absurd closed opened
      · exact acts
    · rcases inv.held a x e hx mine b file with rfl | closed
      · exact acts
      · exact absurd closed opened
  · rw [files] at taken
    have other : e ≠ e' := by
      rintro rfl
      rw [file] at absent
      cases absent
    exact absurd ((State.put_other other).trans file) taken

/-- An acceptor that is about to unlink the file of another open one. -/
theorem not_exclusive (hx : s.acceptors[b]? = some x)
    (unlinks : (∃ path, x.next = .unlink path ∧ entry path = some e) ∨
      (∃ d, x.next = .releasePath d) ∧ x.held entry = some e)
    (file : s.files e = some (.acceptor a)) (opened : s.status a ≠ .closed) (other : b ≠ a) :
    ¬ Exclusive entry s := by
  intro exclusive
  have removed : ∃ s', step entry s (.advance b true) = some s' ∧
      s'.files = (s.remove (some e)).files := by
    rcases unlinks with ⟨path, next, leads⟩ | ⟨⟨d, next⟩, mine⟩
    · let y : Acceptor := { x with next := .bind path .file }
      have go : step entry s (.advance b true) = some ((s.remove (entry path)).set b y) := by
        simp only [step, hx, State.advance, next, if_true, y]
      exact ⟨_, go, by rw [leads]; rfl⟩
    · let y : Acceptor := { x with path := [], next := if d then .destroyed else .idle }
      have go : step entry s (.advance b true) = some ((s.remove (x.held entry)).set b y) := by
        simp only [step, hx, State.advance, next, if_true, y]
      exact ⟨_, go, by rw [mine]; rfl⟩
  obtain ⟨s', next, files⟩ := removed
  have taken : s'.files e ≠ some (.acceptor a) := by
    rw [files, State.remove, State.put_self]
    nofun
  have acts := exclusive _ s' next e a file taken opened
  exact other (Option.some.inj acts)

/-- Without a change to the files or to the sockets of others, the acceptor comes to
unlink its path. -/
def ComesToRelease (entry : Bytes → Option ν) (s : State ν) (b : AcceptorId) (path : Bytes) : Prop :=
  ∃ more t z, run (step entry) s more = some t ∧ t.files = s.files ∧ t.acceptors[b]? = some z ∧
    z.path = path ∧ (∃ d, z.next = .releasePath d) ∧ ∀ c, c ≠ b → t.status c = s.status c

theorem ComesToRelease.after {act : Action} {path : Bytes}
    (next : step entry s act = some (s.set b y))
    (h : ComesToRelease entry (s.set b y) b path) : ComesToRelease entry s b path := by
  obtain ⟨more, t, z, reached, files, hz, held, releases, others⟩ := h
  refine ⟨act :: more, t, z, ?_, files, hz, held, releases, ?_⟩
  · rw [run, next, Option.bind_some]
    exact reached
  · intro c other
    rw [others c other, State.status_set_other other]

theorem comesToRelease_idle (hx : s.acceptors[b]? = some x) (idle : x.next = .idle) :
    ComesToRelease entry s b x.path := by
  let y : Acceptor := { x with socket := .closed, next := .releasePath false }
  have next : step entry s (.close b) = some (s.set b y) := by
    simp only [step, hx, idle, if_true, y]
  obtain ⟨bound, -⟩ := List.getElem?_eq_some_iff.mp hx
  refine ⟨[.close b], s.set b y, y, ?_, rfl, State.set_self bound, rfl, ⟨false, rfl⟩, ?_⟩
  · rw [run, next]
    rfl
  · exact fun c other => State.status_set_other other

/-- Calls that fail bring the acceptor back from listen, one at a time. -/
theorem comesToRelease_fail (hx : s.acceptors[b]? = some x) (next : Next)
    (go : step entry s (.advance b false) = some (s.set b { x with next }))
    (rest : ∀ (s' : State ν) x', s'.acceptors[b]? = some x' → x'.next = next →
      ComesToRelease entry s' b x'.path) :
    ComesToRelease entry s b x.path := by
  obtain ⟨bound, -⟩ := List.getElem?_eq_some_iff.mp hx
  exact .after go (rest (s.set b { x with next }) { x with next } (State.set_self bound) rfl)

theorem comesToRelease_last (hx : s.acceptors[b]? = some x)
    (next : (∃ path mode, x.next = .bind path mode) ∨ x.next = .listen) :
    ComesToRelease entry s b x.path := by
  refine comesToRelease_fail hx .idle ?_ fun s' x' => comesToRelease_idle
  rcases next with ⟨path, mode, now⟩ | now
  · simp [step, hx, State.advance, now]
  · simp [step, hx, State.advance, now]

theorem comesToRelease (hx : s.acceptors[b]? = some x) (lives : x.next ≠ .destroyed) :
    ComesToRelease entry s b x.path := by
  cases now : x.next with
  | destroyed => exact absurd now lives
  | idle => exact comesToRelease_idle hx now
  | lstat path | connect path | unlink path =>
      refine comesToRelease_fail hx (.bind path .file) ?_ fun s' x' hx' now' =>
        comesToRelease_last hx' (.inl ⟨path, .file, now'⟩)
      simp [step, hx, State.advance, now]
  | bind path mode => exact comesToRelease_last hx (.inl ⟨path, mode, now⟩)
  | chmod =>
      refine comesToRelease_fail hx .listen ?_ fun s' x' hx' now' =>
        comesToRelease_last hx' (.inr now')
      simp [step, hx, State.advance, now]
  | listen => exact comesToRelease_last hx (.inr now)
  | releasePath d => exact ⟨[], s, x, rfl, rfl, hx, rfl, ⟨d, now⟩, fun _ _ => rfl⟩

/-- The other acceptor unlinks what has just been bound. -/
theorem bound_unlinked (inv : Kept entry s) {z : Acceptor} (hz : s.acceptors[b]? = some z)
    (unlinks : z.unlinks entry e = true) (hz' : s'.acceptors[b]? = some z)
    (file : s'.files e = some (.acceptor a)) (opened : s'.status a ≠ .closed) (other : b ≠ a) :
    ∃ more t, run (step entry) s' more = some t ∧ ¬ Exclusive entry t := by
  by_cases mine : z.held entry = some e
  · have lives : z.next ≠ .destroyed := by
      intro gone
      rw [Acceptor.held, if_pos (inv.gone b z hz gone)] at mine
      cases mine
    obtain ⟨more, t, y, reached, files, hy, path, releases, others⟩ := comesToRelease hz' lives
    have mine' : y.held entry = some e := by
      rw [Acceptor.held, path]
      exact mine
    refine ⟨more, t, reached, not_exclusive hy (.inr ⟨releases, mine'⟩) ?_ ?_ other⟩
    · rw [files]
      exact file
    · rw [others a (Ne.symm other)]
      exact opened
  · refine ⟨[], s', rfl, not_exclusive hz' (.inl ?_) file opened other⟩
    rw [Acceptor.unlinks, decide_eq_false mine, Bool.false_or] at unlinks
    split at unlinks
    · rename_i path next
      exact ⟨path, next, of_decide_eq_true unlinks⟩
    · cases unlinks

/-- A step that is not apart leads to an unlink of another acceptor's file. -/
theorem overlap_unlinks (inv : Kept entry s) {act : Action} (go : step entry s act = some s')
    (overlaps : apart entry s act = false) :
    ∃ more t, run (step entry) s' more = some t ∧ ¬ Exclusive entry t := by
  unfold apart at overlaps
  split at overlaps
  case h_2 => cases overlaps
  rename_i a succeeds
  split at overlaps
  case h_1 => cases overlaps
  rename_i x hx
  simp only [step, hx] at go
  obtain ⟨bound, -⟩ := List.getElem?_eq_some_iff.mp hx
  split at overlaps
  case h_3 => cases overlaps
  case h_1 path next =>
      split at overlaps
      case h_2 => cases overlaps
      rename_i b found
      simp only [Bool.or_eq_false_iff, Bool.not_eq_false', decide_eq_false_iff_not] at overlaps
      obtain ⟨⟨⟨rfl, other⟩, opened⟩, silent⟩ := overlaps
      obtain ⟨e, leads, file⟩ := Option.bind_eq_some_iff.mp found
      have refused : (s.fileAt entry path).any s.refuses = true := by
        simp [found, State.refuses, silent]
      simp only [State.advance, next, refused, Bool.and_self, if_true] at go
      cases go
      refine ⟨[], _, rfl, not_exclusive (State.set_self bound) (.inl ⟨path, rfl, leads⟩) file ?_
        (Ne.symm other)⟩
      rw [State.status_set_other other]
      exact opened
  case h_2 path next =>
      split at overlaps
      case h_2 => cases overlaps
      rename_i e leads
      simp only [Bool.or_eq_false_iff, Bool.not_eq_false', Bool.and_eq_true,
        List.all_eq_false] at overlaps
      obtain ⟨⟨rfl, free⟩, ⟨z, b⟩, member, busy⟩ := overlaps
      have hz : s.acceptors[b]? = some z := List.mem_zipIdx_iff_getElem?.mp member
      obtain ⟨other, unlinks⟩ : b ≠ a ∧ z.unlinks entry e = true := by simpa using busy
      simp only [State.advance, next, free, leads, Bool.and_self, if_true] at go
      cases go
      have hx' : (s.put e (some (.acceptor a))).acceptors[a]? = some x := hx
      refine bound_unlinked inv hz unlinks ?_ State.put_self ?_ other
      · rw [State.set_other other]
        exact hz
      · rw [State.status_set_self hx']
        nofun

end Runs

section Exclusion
variable [DecidableEq ν]

/-- In a run whose steps are apart no acceptor unlinks the file of another open one,
and the path of a listening acceptor leads to it. A step that is not apart leads to
such an unlink. -/
theorem acceptors_exclusive {entry : Bytes → Option ν} {foreign : ν → Option Foreign}
    {acts : List Action} {s : State ν}
    (reached : run (step entry) (.initial foreign) acts = some s)
    (along : Along (step entry) (fun s act => apart entry s act = true) (.initial foreign) acts) :
    Exclusive entry s ∧ Leads entry s ∧
      ∀ act s', step entry s act = some s' → apart entry s act = false →
        ∃ more t, run (step entry) s' more = some t ∧ ¬ Exclusive entry t := by
  have inv := (kept_keeps entry).run (kept_initial entry foreign) along reached
  exact ⟨inv.exclusive, inv.reaches entry, fun act s' next overlaps => overlap_unlinks inv next overlaps⟩

end Exclusion

/-- Paths that each lead to an entry of their own. -/
def ownEntry (path : Bytes) : Option Bytes := some path

def listening (a : AcceptorId) : List Action :=
  [.create, .listen a [0x73] .file, .advance a true, .advance a true, .advance a true,
    .advance a true]

/-- An acceptor closes and unlinks its path before the next one listens there. -/
def takenOver : List Action :=
  listening 0 ++ [.close 0, .advance 0 true] ++ listening 1

theorem acceptors_exclusive_takenOver :
    ∃ s, run (step ownEntry) (.initial fun _ => none) takenOver = some s ∧
      Exclusive ownEntry s ∧ Leads ownEntry s ∧ s.status 1 = .listening ∧
      s.files [0x73] = some (.acceptor 1) := by
  have shown : ((run (step ownEntry) (.initial fun _ => none) takenOver).map fun s =>
      (s.status 1, s.files [0x73])) = some (.listening, some (.acceptor 1)) := by
    decide +kernel
  obtain ⟨s, reached, facts⟩ := Option.map_eq_some_iff.mp shown
  obtain ⟨status, file⟩ := Prod.mk.inj facts
  have along : Along (step ownEntry) (fun s act => apart ownEntry s act = true)
      (.initial fun _ => none) takenOver := by
    decide +kernel
  obtain ⟨exclusive, leads, -⟩ := acceptors_exclusive reached along
  exact ⟨s, reached, exclusive, leads, status, file⟩

/-- The first acceptor has closed its socket but not yet unlinked the path when the
second probes it, unlinks it and binds. -/
def closedInBetween : List Action :=
  listening 0 ++ [.create, .listen 1 [0x73] .file, .advance 1 true, .close 0, .advance 1 true,
    .advance 1 true, .advance 1 true, .advance 1 true, .advance 1 true]

theorem acceptor_unlinks_other :
    ∃ s s', run (step ownEntry) (.initial fun _ => none) closedInBetween = some s ∧
      s.status 1 = .listening ∧ s.files [0x73] = some (.acceptor 1) ∧
      step ownEntry s (.advance 0 true) = some s' ∧ s'.status 1 = .listening ∧
      s'.files [0x73] = none ∧ ¬ Exclusive ownEntry s ∧ ¬ Leads ownEntry s' := by
  have shown : ((run (step ownEntry) (.initial fun _ => none) closedInBetween).bind fun s =>
      (step ownEntry s (.advance 0 true)).map fun s' =>
        (s.status 1, s.files [0x73], s'.files [0x73], s'.acceptors[1]?)) =
      some (.listening, some (.acceptor 1), none,
        some { socket := .listening, path := [0x73], next := .idle }) := by
    decide +kernel
  obtain ⟨s, reached, rest⟩ := Option.bind_eq_some_iff.mp shown
  obtain ⟨s', next, facts⟩ := Option.map_eq_some_iff.mp rest
  simp only [Prod.mk.injEq] at facts
  obtain ⟨status, file, file', hx⟩ := facts
  refine ⟨s, s', reached, status, file, next, State.status_eq hx, file', ?_, ?_⟩
  · intro exclusive
    have taken : s'.files [0x73] ≠ some (.acceptor 1) := by
      rw [file']
      nofun
    have opened : s.status 1 ≠ .closed := by
      rw [status]
      nofun
    have acts := exclusive _ s' next [0x73] 1 file taken opened
    cases acts
  · intro leads
    have leads' := leads 1 _ [0x73] hx rfl rfl
    rw [file'] at leads'
    cases leads'

end Thespian.Socket.Unx
