import Thespian.Cbor.MatchSemantics
import Thespian.Runtime.Instance

/-!
The messages in which an acceptor or a connector reports to the actor that it belongs to.
An actor recognises them one pattern after the other, so what matters of a report is which
of the patterns it matches.
-/

namespace Thespian.Endpoint
open Cbor Thespian.Runtime

inductive Transport where
  | tcp
  | unx
  deriving DecidableEq

/-- `std::error_code`, with the text for it. -/
structure ErrorCode where
  value : Int32
  message : Bytes
  sized : message.length < 2 ^ 63
  deriving DecidableEq

/-- `owner_.send(component, tag_, event, parms...)` -/
def report (component tag event : Bytes) (parms : List Value) : Bytes :=
  array (.string component :: .string tag :: .string event :: parms)

/-- `m(component, tag, event, parms...)` -/
def reportPattern (component tag event : Bytes) : List Pattern → Patterns
  | [] => .cons (.string component) (.cons (.string tag) (.last (.string event)))
  | [p] => .cons (.string component) (.cons (.string tag) (.cons (.string event) (.last p)))
  | p :: q :: _ => .cons (.string component) (.cons (.string tag)
      (.cons (.string event) (.cons p (.last q))))

def boundInt (ws : Writes) (var : Nat) : Int :=
  match ws.lookup var with
  | some (.int i) => i
  | _ => 0

/-- The pattern matches the message. -/
def Recognised (m : Bytes) (p : Patterns) : Prop := (matchBuffer m p).map Prod.fst = .ok true

instance (m : Bytes) (p : Patterns) : Decidable (Recognised m p) :=
  inferInstanceAs (Decidable (_ = Except.ok true))

section
variable {component tag event other : Bytes} {parms : List Value} {ps : List Pattern}

theorem report_sized (component' : component.length < 2 ^ 63) (tag' : tag.length < 2 ^ 63)
    (event' : event.length < 2 ^ 63) (sized : ∀ v ∈ parms, v.Sized (2 ^ 63)) :
    ∀ v ∈ .string component :: .string tag :: .string event :: parms, Value.Sized (2 ^ 63) v := by
  simp only [List.forall_mem_cons]
  exact ⟨component', tag', event', sized⟩

theorem isFlat_string (lit : Bytes) : (Pattern.string lit).isFlat = true := rfl

theorem reportPattern_flat (flat : ∀ p ∈ ps, p.isFlat = true) :
    (reportPattern component tag event ps).isFlat = true := by
  match ps with
  | [] => rfl
  | [p] => simpa [reportPattern, Patterns.isFlat, isFlat_string] using flat
  | p :: q :: _ =>
      simp only [List.forall_mem_cons] at flat
      simp [reportPattern, Patterns.isFlat, isFlat_string, flat.1, flat.2.1]

/-- A report is not taken for another one. -/
theorem report_not_recognised (component' : component.length < 2 ^ 63)
    (tag' : tag.length < 2 ^ 63) (event' : event.length < 2 ^ 63)
    (sized : ∀ v ∈ parms, v.Sized (2 ^ 63)) (few : parms.length ≤ 2) 
    (flat : ∀ p ∈ ps, p.isFlat = true) (differs : event ≠ other) :
    ¬Recognised (report component tag event parms) (reportPattern component tag other ps) := by
  intro recognised
  have not_matched : ¬(reportPattern component tag other ps).Matches
      (.string component :: .string tag :: .string event :: parms) := by
    match ps with
    | [] => cases parms <;> simp [reportPattern, Patterns.Matches, Pattern.Matches, Value.string?,
        isMore, differs]
    | [_] | _ :: _ :: _ =>
        simp [reportPattern, Patterns.Matches, Pattern.Matches, Value.string?, differs]
  obtain ⟨ws, refused⟩ := matchBuffer_of_not_matches (reportPattern_flat flat)
    (by simp only [List.length_cons]; omega) (report_sized component' tag' event' sized) not_matched
  rw [Recognised, report, refused] at recognised
  cases recognised

/-- A descriptor is read back from the report about it. -/
theorem report_fd (component' : component.length < 2 ^ 63) (tag' : tag.length < 2 ^ 63)
    (event' : event.length < 2 ^ 63) (fd : Int32) :
    ∃ ws, matchBuffer (report component tag event [.int fd.toInt64])
      (reportPattern component tag event [.extract (.int .signedInt) 0]) = .ok (true, ws) ∧
      boundInt ws 0 = fd.toInt := by
  have low := fd.le_toInt
  have high := fd.toInt_lt
  have least : IntType.signedInt.min = -2 ^ 31 := by decide
  have greatest : IntType.signedInt.max = 2 ^ 31 - 1 := by decide
  have range : IntType.signedInt.min ≤ fd.toInt ∧ fd.toInt ≤ IntType.signedInt.max := by
    rw [least, greatest]
    omega
  have matches' : (reportPattern component tag event [.extract (.int .signedInt) 0]).Matches
      [.string component, .string tag, .string event, .int fd.toInt64] := by
    simp [reportPattern, Patterns.Matches, Pattern.Matches, Value.string?, Extractor.bind?,
      Value.integer?, isMore, range]
  have matched := matchBuffer_of_matches rfl (by simp)
    (report_sized component' tag' event' (by simp [Value.Sized])) matches'
  refine ⟨_, matched, ?_⟩
  simp [reportPattern, Patterns.bindings, Pattern.bindings, Extractor.bind?, Value.integer?,
    Option.filter, range, boundInt]

theorem report_not_link (few : parms.length ≤ 2) :
    isLinkMsg (report component tag event parms) = false := by
  have header : (report component tag event parms).head? ≠ some 0x81 := by
    have small : ∀ n ∈ [3, 4, 5], (arrayHeader (UInt64.ofNat n)).head? ≠ some 0x81 ∧
        arrayHeader (UInt64.ofNat n) ≠ [] := by
      decide
    obtain ⟨differs, nonempty⟩ := small (parms.length + 3) (by
      simp only [List.mem_cons, List.not_mem_nil, or_false]
      omega)
    rw [report, array]
    · exact List.head?_append_of_ne_nil _ nonempty ▸ differs
    · simp
  rw [isLinkMsg, decide_eq_false_iff_not]
  intro same
  apply header
  rw [same]
  decide

end

end Thespian.Endpoint
