import Mathlib.Data.List.Basic
import Mathlib.Data.List.Count
import Mathlib.Data.List.Nodup
import Mathlib.Data.List.Perm.Basic

/-!
Requests that are answered once. A request is answered when it is made, or it takes a
ticket and is answered when the report on its ticket is taken, under the name that the
table of tickets has for it. A ticket that is given out was not given out before. Until
a report may have been lost, each ticket is in one of three places: its report is still
to come, it is on its way, or it was answered.
-/

namespace Transition

structure Request (ι τ : Type) where
  id : ι
  ticket : Option τ

/-- What an answer is for: the request at a position, or a ticket. -/
inductive Source (τ : Type) where
  | direct (i : Nat)
  | ticket (t : τ)
  deriving DecidableEq

structure Ledger (ι τ ρ : Type) where
  requests : List (Request ι τ)
  answers : List (Source τ × ρ)
  reports : List τ
  running : List τ
  entries : τ → Option ι
  lost : Prop

namespace Ledger
variable {ι τ ρ : Type}

def issued (l : Ledger ι τ ρ) : List τ := l.requests.filterMap Request.ticket

/-- The tickets that are still to be answered. -/
def waiting (l : Ledger ι τ ρ) : List τ := l.reports ++ l.running

theorem mem_issued {l : Ledger ι τ ρ} {q : Request ι τ} {t : τ} (member : q ∈ l.requests)
    (taken : q.ticket = some t) : t ∈ l.issued :=
  List.mem_filterMap.mpr ⟨q, member, taken⟩

/-- A request at a position of a list that has grown by one. -/
theorem found_add {l l' : Ledger ι τ ρ} {q new : Request ι τ} {i : Nat} (requests : l'.requests = l.requests ++ [new])
    (found : l'.requests[i]? = some q) :
    l.requests[i]? = some q ∧ i ≠ l.requests.length ∨ i = l.requests.length ∧ q = new := by
  rw [requests] at found
  rcases Nat.lt_trichotomy i l.requests.length with before | rfl | behind
  · rw [List.getElem?_append_left before] at found
    exact .inl ⟨found, Nat.ne_of_lt before⟩
  · simp only [List.getElem?_concat_length, Option.some.injEq] at found
    exact .inr ⟨rfl, found.symm⟩
  · rw [List.getElem?_eq_none (by simp; omega)] at found
    cases found

/-- The steps of a ledger, for answers that carry the name of a request. -/
inductive Move (carries : ι → ρ → Prop) (l l' : Ledger ι τ ρ) : Prop
  | keep (requests : l'.requests = l.requests) (answers : l'.answers = l.answers)
      (reports : l'.reports = l.reports) (running : l'.running = l.running)
      (entries : l'.entries = l.entries) (lost : l.lost → l'.lost)
  | answerDirectly (id : ι) (r : ρ) (carried : carries id r)
      (requests : l'.requests = l.requests ++ [⟨id, none⟩])
      (answers : l'.answers = l.answers ++ [(.direct l.requests.length, r)])
      (reports : l'.reports = l.reports) (running : l'.running = l.running)
      (entries : ∀ t ∈ l.waiting, l'.entries t = l.entries t) (lost : l.lost → l'.lost)
  | take (id : ι) (t : τ) (fresh : t ∉ l.issued)
      (requests : l'.requests = l.requests ++ [⟨id, some t⟩]) (answers : l'.answers = l.answers)
      (reports : l'.reports = l.reports) (running : l'.running = l.running ++ [t])
      (entry : l'.entries t = some id)
      (entries : ∀ u ∈ l.waiting, l'.entries u = l.entries u) (lost : l.lost → l'.lost)
  | report (t : τ) (requests : l'.requests = l.requests) (answers : l'.answers = l.answers)
      (reports : l'.reports = l.reports ++ [t]) (running : l.running.Perm (t :: l'.running))
      (entries : l'.entries = l.entries) (lost : l.lost → l'.lost)
  | answer (t : τ) (r : ρ) (carried : ∀ id, l.entries t = some id → carries id r)
      (requests : l'.requests = l.requests) (answers : l'.answers = l.answers ++ [(.ticket t, r)])
      (reports : l.reports = t :: l'.reports) (running : l'.running = l.running)
      (entries : ∀ u, u ≠ t → l'.entries u = l.entries u) (lost : l.lost → l'.lost)
  | lose (requests : l'.requests = l.requests) (answers : l'.answers = l.answers)
      (reports : l'.reports.Sublist l.reports) (running : l'.running.Sublist l.running)
      (entries : ∀ t ∈ l'.waiting, l'.entries t = l.entries t) (lost : l'.lost)
  | fail (t : τ) (requests : l'.requests = l.requests) (answers : l'.answers = l.answers)
      (reports : l.reports = t :: l'.reports) (running : l'.running = l.running)
      (entries : ∀ u, u ≠ t → l'.entries u = l.entries u) (lost : l'.lost)

section Balance
variable [DecidableEq τ]

def answersTo (l : Ledger ι τ ρ) (source : Source τ) : List ρ :=
  (l.answers.filter fun a => a.1 = source).map Prod.snd

/-- In how many places a ticket is. -/
def places (l : Ledger ι τ ρ) (t : τ) : Nat :=
  (l.answersTo (.ticket t)).length + l.reports.count t + l.running.count t

/-- Every request has its answer or its ticket, a ticket is in at most one place, and
in one while nothing was lost. The table has the name of each ticket that is still to
be answered, and the answers carry the names. -/
structure Balanced (carries : ι → ρ → Prop) (l : Ledger ι τ ρ) : Prop where
  direct : ∀ i q, l.requests[i]? = some q → q.ticket = none →
    ∃ r, l.answersTo (.direct i) = [r] ∧ carries q.id r
  deferred : ∀ i q t, l.requests[i]? = some q → q.ticket = some t → l.answersTo (.direct i) = []
  beyond : ∀ i, l.requests.length ≤ i → l.answersTo (.direct i) = []
  distinct : l.issued.Nodup
  single : ∀ t, l.places t ≤ 1
  known : ∀ t, t ∉ l.issued → l.places t = 0
  entered : ∀ q ∈ l.requests, ∀ t, q.ticket = some t → t ∈ l.waiting → l.entries t = some q.id
  answered : ∀ q ∈ l.requests, ∀ t, q.ticket = some t → ∀ r ∈ l.answersTo (.ticket t),
    carries q.id r
  kept : ¬ l.lost → ∀ t ∈ l.issued, l.places t = 1

variable {carries : ι → ρ → Prop} {l l' : Ledger ι τ ρ}

theorem answersTo_same (answers : l'.answers = l.answers) (source : Source τ) :
    l'.answersTo source = l.answersTo source := by
  rw [answersTo, answers, answersTo]

theorem answersTo_add {source : Source τ} {r : ρ} (answers : l'.answers = l.answers ++ [(source, r)])
    (source' : Source τ) :
    l'.answersTo source' = l.answersTo source' ++ if source = source' then [r] else [] := by
  rw [answersTo, answers, List.filter_append, List.map_append, answersTo]
  split
  case isTrue same => simp [same]
  case isFalse other => simp [other]

theorem waiting_iff {t : τ} : t ∈ l.waiting ↔ l.reports.count t + l.running.count t ≠ 0 := by
  rw [waiting, List.mem_append, ← List.count_pos_iff, ← List.count_pos_iff]
  omega

/-- A ticket that is still to be answered has been given out and was not answered. -/
theorem Balanced.of_waiting (h : Balanced carries l) {t : τ} (waits : t ∈ l.waiting) :
    t ∈ l.issued ∧ l.answersTo (.ticket t) = [] := by
  have counted := waiting_iff.mp waits
  have single := h.single t
  rw [places] at single
  refine ⟨?_, List.length_eq_zero_iff.mp (by omega)⟩
  by_contra unknown
  have absent := h.known t unknown
  rw [places] at absent
  omega

section Step
variable {t : τ}

/-- The ticket of a report that is taken is not still to be answered. -/
theorem Balanced.taken (h : Balanced carries l) (reports : l.reports = t :: l'.reports)
    (running : l'.running = l.running) : ∀ u ∈ l'.waiting, u ≠ t ∧ u ∈ l.waiting := by
  intro u waits
  have counted := waiting_iff.mp waits
  have single := h.single t
  refine ⟨?_, waiting_iff.mpr ?_⟩
  · rintro rfl
    simp only [Ledger.places, reports, List.count_cons_self] at single
    have same := congrArg (List.count u) running
    omega
  · rw [reports, ← running, List.count_cons]
    omega

theorem places_same (answers : l'.answersTo (.ticket t) = l.answersTo (.ticket t))
    (reports : l'.reports = l.reports) (running : l'.running = l.running) :
    l'.places t = l.places t := by
  rw [places, answers, reports, running, places]

/-- While the requests and the answers stay, the rest of the ledger is all that matters. -/
theorem Balanced.of_same (h : Balanced carries l) (requests : l'.requests = l.requests)
    (answers : l'.answers = l.answers) (fewer : ∀ t, l'.places t ≤ l.places t)
    (entries : ∀ t ∈ l'.waiting, t ∈ l.waiting ∧ l'.entries t = l.entries t)
    (kept : ¬ l'.lost → ¬ l.lost ∧ ∀ t, l'.places t = l.places t) : Balanced carries l' := by
  have same := answersTo_same answers
  have issued : l'.issued = l.issued := by rw [Ledger.issued, requests, Ledger.issued]
  constructor
  case direct =>
      intro i q found none_
      rw [same]
      exact h.direct i q (requests ▸ found) none_
  case deferred =>
      intro i q t found some_
      rw [same]
      exact h.deferred i q t (requests ▸ found) some_
  case beyond =>
      intro i far
      rw [same]
      exact h.beyond i (requests ▸ far)
  case distinct => exact issued ▸ h.distinct
  case single => exact fun t => Nat.le_trans (fewer t) (h.single t)
  case known =>
      intro t unknown
      have none_ := h.known t (issued ▸ unknown)
      have less := fewer t
      omega
  case entered =>
      intro q member t some_ waits
      obtain ⟨before, entry⟩ := entries t waits
      rw [entry]
      exact h.entered q (requests ▸ member) t some_ before
  case answered =>
      intro q member t some_ r answer
      rw [same] at answer
      exact h.answered q (requests ▸ member) t some_ r answer
  case kept =>
      intro open_ t member
      obtain ⟨before, places⟩ := kept open_
      rw [places t]
      exact h.kept before t (issued ▸ member)

theorem Balanced.keep (h : Balanced carries l) (requests : l'.requests = l.requests)
    (answers : l'.answers = l.answers) (reports : l'.reports = l.reports)
    (running : l'.running = l.running) (entries : l'.entries = l.entries)
    (lost : l.lost → l'.lost) : Balanced carries l' := by
  have places : ∀ t, l'.places t = l.places t := fun t =>
    places_same (answersTo_same answers _) reports running
  refine h.of_same requests answers (fun t => Nat.le_of_eq (places t)) ?_ ?_
  · intro t waits
    rw [waiting, reports, running] at waits
    exact ⟨waits, congrFun entries t⟩
  · exact fun open_ => ⟨fun before => open_ (lost before), places⟩

theorem Balanced.report (h : Balanced carries l) (requests : l'.requests = l.requests)
    (answers : l'.answers = l.answers) (reports : l'.reports = l.reports ++ [t])
    (running : l.running.Perm (t :: l'.running)) (entries : l'.entries = l.entries)
    (lost : l.lost → l'.lost) : Balanced carries l' := by
  have counts : ∀ u, l'.reports.count u + l'.running.count u =
      l.reports.count u + l.running.count u := by
    intro u
    have moved := running.count_eq u
    rw [List.count_cons] at moved
    rw [reports, List.count_append, List.count_singleton]
    omega
  have places : ∀ u, l'.places u = l.places u := by
    intro u
    have both := counts u
    rw [Ledger.places, answersTo_same answers, Ledger.places]
    omega
  refine h.of_same requests answers (fun u => Nat.le_of_eq (places u)) ?_ ?_
  · intro u waits
    rw [waiting_iff, counts] at waits
    exact ⟨waiting_iff.mpr waits, congrFun entries u⟩
  · exact fun open_ => ⟨fun before => open_ (lost before), places⟩

theorem Balanced.lose (h : Balanced carries l) (requests : l'.requests = l.requests)
    (answers : l'.answers = l.answers) (reports : l'.reports.Sublist l.reports)
    (running : l'.running.Sublist l.running)
    (entries : ∀ t ∈ l'.waiting, l'.entries t = l.entries t) (lost : l'.lost) :
    Balanced carries l' := by
  refine h.of_same requests answers ?_ ?_ (fun open_ => absurd lost open_)
  · intro t
    have fewer := reports.count_le t
    have fewer' := running.count_le t
    rw [places, answersTo_same answers, places]
    omega
  · intro t waits
    refine ⟨?_, entries t waits⟩
    rcases List.mem_append.mp waits with member | member
    · exact List.mem_append_left _ (reports.subset member)
    · exact List.mem_append_right _ (running.subset member)

theorem Balanced.fail (h : Balanced carries l) (requests : l'.requests = l.requests)
    (answers : l'.answers = l.answers) (reports : l.reports = t :: l'.reports)
    (running : l'.running = l.running) (entries : ∀ u, u ≠ t → l'.entries u = l.entries u)
    (lost : l'.lost) : Balanced carries l' := by
  refine h.of_same requests answers ?_ ?_ (fun open_ => absurd lost open_)
  · intro u
    rw [places, answersTo_same answers, places, reports, running, List.count_cons]
    omega
  · intro u waits
    obtain ⟨other, before⟩ := h.taken reports running u waits
    exact ⟨before, entries u other⟩

theorem Balanced.answer (h : Balanced carries l) {r : ρ}
    (carried : ∀ id, l.entries t = some id → carries id r) (requests : l'.requests = l.requests)
    (answers : l'.answers = l.answers ++ [(.ticket t, r)]) (reports : l.reports = t :: l'.reports)
    (running : l'.running = l.running) (entries : ∀ u, u ≠ t → l'.entries u = l.entries u)
    (lost : l.lost → l'.lost) : Balanced carries l' := by
  have waited : t ∈ l.waiting := by
    rw [waiting, reports]
    exact List.mem_cons_self
  have added := answersTo_add answers
  have direct : ∀ i, l'.answersTo (.direct i) = l.answersTo (.direct i) := fun i => by simp [added]
  have issued : l'.issued = l.issued := by rw [Ledger.issued, requests, Ledger.issued]
  have places : ∀ u, l'.places u = l.places u := by
    intro u
    rw [Ledger.places, added, Ledger.places, reports, running, List.count_cons, List.length_append]
    by_cases same : t = u
    · simp [same]
      omega
    · simp [same]
  have still := h.taken reports running
  constructor
  case direct =>
      intro i q found none_
      rw [direct]
      exact h.direct i q (requests ▸ found) none_
  case deferred =>
      intro i q u found some_
      rw [direct]
      exact h.deferred i q u (requests ▸ found) some_
  case beyond =>
      intro i far
      rw [direct]
      exact h.beyond i (requests ▸ far)
  case distinct => exact issued ▸ h.distinct
  case single => exact fun u => places u ▸ h.single u
  case known =>
      intro u unknown
      rw [places u]
      exact h.known u (issued ▸ unknown)
  case entered =>
      intro q member u some_ waits
      obtain ⟨other, before⟩ := still u waits
      rw [entries u other]
      exact h.entered q (requests ▸ member) u some_ before
  case answered =>
      intro q member u some_ r' answer
      rw [added, List.mem_append] at answer
      rcases answer with old | new
      · exact h.answered q (requests ▸ member) u some_ r' old
      · split at new
        case isTrue same =>
          cases same
          cases List.mem_singleton.mp new
          exact carried _ (h.entered q (requests ▸ member) t some_ waited)
        case isFalse => cases new
  case kept =>
      intro open_ u member
      rw [places u]
      exact h.kept (fun before => open_ (lost before)) u (issued ▸ member)

theorem Balanced.answerDirectly (h : Balanced carries l) {id : ι} {r : ρ} (carried : carries id r)
    (requests : l'.requests = l.requests ++ [⟨id, none⟩])
    (answers : l'.answers = l.answers ++ [(.direct l.requests.length, r)])
    (reports : l'.reports = l.reports) (running : l'.running = l.running)
    (entries : ∀ t ∈ l.waiting, l'.entries t = l.entries t) (lost : l.lost → l'.lost) :
    Balanced carries l' := by
  have added := answersTo_add answers
  have tickets : ∀ t, l'.answersTo (.ticket t) = l.answersTo (.ticket t) := fun t => by simp [added]
  have places : ∀ t, l'.places t = l.places t := fun t => places_same (tickets t) reports running
  have issued : l'.issued = l.issued := by simp [Ledger.issued, requests]
  have old : ∀ q ∈ l'.requests, ∀ t, q.ticket = some t → q ∈ l.requests := by
    intro q member t some_
    rw [requests] at member
    rcases List.mem_append.mp member with before | new
    · exact before
    · cases List.mem_singleton.mp new
      cases some_
  constructor
  case direct =>
      intro i q found none_
      rw [added]
      rcases found_add requests found with ⟨before, other⟩ | ⟨rfl, rfl⟩
      · rw [if_neg (by simp [other.symm]), List.append_nil]
        exact h.direct i q before none_
      · rw [if_pos rfl, h.beyond _ (Nat.le_refl _)]
        exact ⟨r, rfl, carried⟩
  case deferred =>
      intro i q t found some_
      rw [added]
      rcases found_add requests found with ⟨before, other⟩ | ⟨rfl, rfl⟩
      · rw [if_neg (by simp [other.symm]), List.append_nil]
        exact h.deferred i q t before some_
      · cases some_
  case beyond =>
      intro i far
      rw [requests, List.length_append, List.length_singleton] at far
      rw [added, if_neg (by simp; omega), List.append_nil]
      exact h.beyond i (by omega)
  case distinct => exact issued ▸ h.distinct
  case single => exact fun t => places t ▸ h.single t
  case known =>
      intro t unknown
      rw [places t]
      exact h.known t (issued ▸ unknown)
  case entered =>
      intro q member t some_ waits
      rw [waiting, reports, running] at waits
      rw [entries t waits]
      exact h.entered q (old q member t some_) t some_ waits
  case answered =>
      intro q member t some_ r' answer
      rw [tickets] at answer
      exact h.answered q (old q member t some_) t some_ r' answer
  case kept =>
      intro open_ t member
      rw [places t]
      exact h.kept (fun before => open_ (lost before)) t (issued ▸ member)

theorem Balanced.take (h : Balanced carries l) {id : ι} (fresh : t ∉ l.issued)
    (requests : l'.requests = l.requests ++ [⟨id, some t⟩]) (answers : l'.answers = l.answers)
    (reports : l'.reports = l.reports) (running : l'.running = l.running ++ [t])
    (entry : l'.entries t = some id) (entries : ∀ u ∈ l.waiting, l'.entries u = l.entries u)
    (lost : l.lost → l'.lost) : Balanced carries l' := by
  have same := answersTo_same answers
  have issued : l'.issued = l.issued ++ [t] := by simp [Ledger.issued, requests]
  have nowhere := h.known t fresh
  have places : ∀ u, l'.places u = l.places u + if u = t then 1 else 0 := by
    intro u
    rw [Ledger.places, same, Ledger.places, reports, running, List.count_append,
      List.count_singleton]
    simp only [beq_iff_eq, eq_comm (a := t)]
    omega
  constructor
  case direct =>
      intro i q found none_
      rw [same]
      rcases found_add requests found with ⟨before, -⟩ | ⟨-, rfl⟩
      · exact h.direct i q before none_
      · cases none_
  case deferred =>
      intro i q u found some_
      rw [same]
      rcases found_add requests found with ⟨before, -⟩ | ⟨rfl, -⟩
      · exact h.deferred i q u before some_
      · exact h.beyond _ (Nat.le_refl _)
  case beyond =>
      intro i far
      rw [requests, List.length_append] at far
      rw [same]
      exact h.beyond i (by omega)
  case distinct =>
      rw [issued, List.nodup_append]
      refine ⟨h.distinct, List.nodup_singleton t, ?_⟩
      intro u member v new
      cases List.mem_singleton.mp new
      rintro rfl
      exact fresh member
  case single =>
      intro u
      rw [places]
      split
      case isTrue same =>
        subst same
        omega
      case isFalse => exact h.single u
  case known =>
      intro u unknown
      rw [issued, List.mem_append, not_or] at unknown
      have other : u ≠ t := fun same => unknown.2 (List.mem_singleton.mpr same)
      rw [places, h.known u unknown.1, if_neg other]
  case entered =>
      intro q member u some_ waits
      rw [waiting, reports, running, ← List.append_assoc, List.mem_append] at waits
      rw [requests, List.mem_append] at member
      rcases member with before | new
      · rcases waits with waits | new
        · rw [entries u waits]
          exact h.entered q before u some_ waits
        · cases List.mem_singleton.mp new
          exact absurd (mem_issued before some_) fresh
      · cases List.mem_singleton.mp new
        cases some_
        exact entry
  case answered =>
      intro q member u some_ r answer
      rw [same] at answer
      rw [requests, List.mem_append] at member
      rcases member with before | new
      · exact h.answered q before u some_ r answer
      · cases List.mem_singleton.mp new
        cases some_
        rw [Ledger.places] at nowhere
        have none_ : l.answersTo (.ticket t) = [] := List.length_eq_zero_iff.mp (by omega)
        rw [none_] at answer
        cases answer
  case kept =>
      intro open_ u member
      rw [places]
      split
      case isTrue same => rw [same, nowhere]
      case isFalse other =>
        rw [issued, List.mem_append] at member
        refine h.kept (fun before => open_ (lost before)) u (member.resolve_right ?_)
        exact fun new => other (List.mem_singleton.mp new)

/-- Every step keeps the balance. -/
theorem Move.balanced (move : Move carries l l') (h : Balanced carries l) : Balanced carries l' := by
  cases move with
  | keep requests answers reports running entries lost =>
      exact h.keep requests answers reports running entries lost
  | answerDirectly id r carried requests answers reports running entries lost =>
      exact h.answerDirectly carried requests answers reports running entries lost
  | take id t fresh requests answers reports running entry entries lost =>
      exact h.take fresh requests answers reports running entry entries lost
  | report t requests answers reports running entries lost =>
      exact h.report requests answers reports running entries lost
  | answer t r carried requests answers reports running entries lost =>
      exact h.answer carried requests answers reports running entries lost
  | lose requests answers reports running entries lost =>
      exact h.lose requests answers reports running entries lost
  | fail t requests answers reports running entries lost =>
      exact h.fail requests answers reports running entries lost

/-- While nothing was lost, a ticket that has no answer waits for one. -/
theorem Balanced.waits (h : Balanced carries l) (found : ¬ l.lost) (issued : t ∈ l.issued)
    (unanswered : l.answersTo (.ticket t) = []) : t ∈ l.waiting := by
  have one := h.kept found t issued
  rw [places, unanswered, List.length_nil, Nat.zero_add] at one
  exact waiting_iff.mpr (by omega)

/-- Nothing was requested yet. -/
theorem balanced_empty {l : Ledger ι τ ρ} (requests : l.requests = []) (answers : l.answers = [])
    (reports : l.reports = []) (running : l.running = []) : Balanced carries l := by
  have none_ : ∀ source, l.answersTo source = [] := fun source => by
    rw [answersTo, answers]
    rfl
  have issued : l.issued = [] := by
    rw [Ledger.issued, requests]
    rfl
  have nowhere : ∀ t, l.places t = 0 := fun t => by
    rw [places, none_, reports, running]
    rfl
  refine ⟨?_, ?_, fun i _ => none_ _, ?_, ?_, fun t _ => nowhere t, ?_, ?_, ?_⟩
  · simp [requests]
  · simp [requests]
  · rw [issued]
    exact List.nodup_nil
  · exact fun t => nowhere t ▸ Nat.zero_le 1
  · simp [requests]
  · simp [requests]
  · simp [issued]

end Step

end Balance

end Ledger

end Transition
