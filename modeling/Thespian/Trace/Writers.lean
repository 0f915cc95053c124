import Thespian.Cbor.Iterate
import Thespian.Cbor.MatchSemantics
import Thespian.Cbor.PrintedLines
import Thespian.Console.Lines
import Thespian.Decoding.Frames
import Thespian.Trace.FileRuns

/-!
The writers of the trace files. A file of items reads back item by item, a newline string
behind each entry, and a file of texts line by line. The diagram writer looks for the
actor at the front of an entry; the runtime puts its counters there, and the match throws.
-/

namespace Thespian.Trace
open Cbor Decoding Decoding.Decoder Console

/-- `array("\n")` -/
def cborCr : Bytes := Cbor.array [.string [newline]]

/-- The on_trace of trace_to_cbor_file. -/
def writeCbor (s msg : Bytes) : Except Bytes Bytes := .ok (s ++ msg ++ cborCr)

/-- What a variable holds that was empty before the writes. -/
def textOf (writes : Writes) (var : Nat) : Bytes :=
  writes.foldl (fun held w =>
    match w with
    | (v, .string s) => if v = var then s else held
    | _ => held) []

def itemOf (writes : Writes) (var : Nat) : Bytes :=
  writes.foldl (fun held w =>
    match w with
    | (v, .range item) => if v = var then item else held
    | _ => held) []

/-- `A(any, any, extract(..))` -/
def referencePattern (var : Nat) : Pattern :=
  .A (.cons (.type .any) (.cons (.type .any) (.last (.extract .string var))))

def entryPattern : Patterns :=
  .cons (referencePattern 0) (.cons (.extract .string 1) (.last (.type .more)))

def sendPattern : Patterns :=
  .cons (.type .any) (.cons (.type .any) (.cons (referencePattern 2) (.last (.extract .range 3))))

def linkPattern : Patterns := .cons (.type .any) (.cons (.type .any) (.last (referencePattern 2)))

def exitEntryPattern : Patterns :=
  .cons (.type .any) (.cons (.type .any)
    (.last (.A (.cons (.type .any) (.cons (.extract .string 2) (.last (.type .more)))))))

/-- A match against an entry; an exception leaves the file as it is. -/
def matching (s msg : Bytes) (parms : Patterns) : Except Bytes (Bool × Writes) :=
  (matchBuffer msg parms).mapError fun _ => s

section
variable (toChars : Float → Bytes)

/-- The on_trace of trace_to_json_file. -/
def writeJson (s msg : Bytes) : Except Bytes Bytes :=
  match toJsonStream toChars s msg with
  | .ok (s, _) => .ok (s ++ [newline])
  | .error (_, s) => .error s

/-- The branches of to_mermaid. -/
def toMermaidEntry (s msg source typ : Bytes) : Except Bytes Bytes :=
  if typ = text "spawn" then .ok (s ++ text "    Note right of " ++ source ++ text ": SPAWN\n")
  else if typ = text "receive" then .ok s
  else if typ = text "run" then .ok (s ++ text "    activate " ++ source ++ [newline])
  else if typ = text "sleep" then .ok (s ++ text "    deactivate " ++ source ++ [newline])
  else if typ = text "send" then do
    let (matched, writes) ← matching s msg sendPattern
    if matched then
      writeJson toChars
        (s ++ text "    " ++ source ++ text "->>" ++ textOf writes 2 ++ text ": send ")
        (itemOf writes 3)
    else
      return s
  else if typ = text "link" then do
    let (matched, writes) ← matching s msg linkPattern
    if matched then
      return s ++ text "    " ++ source ++ text "-->>" ++ textOf writes 2 ++ text ": create link\n"
    else
      return s
  else if typ = text "exit" then do
    let (matched, writes) ← matching s msg exitEntryPattern
    if matched then
      return s ++ text "    Note right of " ++ source ++ text ": EXIT " ++ textOf writes 2 ++
        [newline]
    else
      return s
  else .ok s

/-- `to_mermaid`, the on_trace of trace_to_mermaid_file. -/
def toMermaid (s msg : Bytes) : Except Bytes Bytes := do
  let (matched, writes) ← matching s msg entryPattern
  if matched then
    let source := textOf writes 0
    toMermaidEntry toChars s msg (if source = [] then text "UNKNOWN" else source) (textOf writes 1)
  else
    return s

end

def mermaidHeader : Bytes := text "sequenceDiagram\n"

/-- The entry of do_trace_raw. -/
def traceEntry (pendingTasks pendingPosts active : UInt64) (useCount : Int64) (parms : List Value) :
    Bytes :=
  Cbor.array (.uint pendingTasks :: .uint pendingPosts :: .uint active :: .int useCount :: parms)

/-- The bytes of the item in front. -/
def takeItem : Reader Bytes := fun s =>
  match skipValue s with
  | .ok (_, r) => .ok (s.take (s.length - r.length), r)
  | .error e => .error e

theorem takeItem_append {x : Bytes} (item : IsItem x) (r : Bytes) :
    takeItem (x ++ r) = .ok (x, r) := by
  rw [takeItem, item.skip r]
  simp

theorem advances_takeItem : Advances takeItem := by
  intro s x r taken
  unfold takeItem at taken
  split at taken
  · next skipped =>
    cases taken
    exact advances_skipValue s _ r skipped
  · cases taken

/-- A sequence of items is taken apart into them. -/
theorem drain_items (items : List Bytes) (wellFormed : ∀ x ∈ items, IsItem x) :
    drain takeItem items.flatten = (items, []) := by
  induction items with
  | nil => rfl
  | cons x items ih =>
      obtain ⟨item, others⟩ := List.forall_mem_cons.mp wellFormed
      rw [List.flatten_cons, drain_of_ok advances_takeItem (takeItem_append item _), ih others]

theorem isItem_cborCr : IsItem cborCr := rfl

namespace TraceFile
variable {τ ι : Type} [DecidableEq τ] [DecidableEq ι] {acts : List (τ × Action ι Bytes)}
variable {f : TraceFile τ ι Bytes Bytes}

/-- The published entries were pushed. -/
theorem pushed_of_published {onTrace : Bytes → Bytes → Except Bytes Bytes} {start : Bytes}
    (ran : Transition.run (step onTrace) (create τ ι Bytes start) acts = some f)
    {e : τ × Bytes} (member : e ∈ f.published) : (e.1, .push e.2) ∈ acts := by
  have program := program_run (consistent_create onTrace start) ran e.1
  have among : e.2 ∈ f.publishedBy e.1 :=
    List.mem_map.mpr ⟨e, List.mem_filter.mpr ⟨member, decide_eq_true rfl⟩, rfl⟩
  have pushed : e.2 ∈ pushes e.1 acts := by
    have none :
        (create τ ι Bytes start).publishedBy e.1 ++ (create τ ι Bytes start).begun e.1 = [] :=
      rfl
    rw [none, List.nil_append] at program
    rw [← program]
    exact List.mem_append_left _ among
  obtain ⟨a, here, found⟩ := List.mem_filterMap.mp pushed
  split at found
  · next same =>
    obtain ⟨u, action⟩ := a
    cases action with
    | push x =>
        cases found
        cases same
        exact here
    | destroy | allocate _ | exchange _ | tryLock _ | advance => cases found
  · cases found

theorem foldl_writeCbor (written : List Bytes) (s : Bytes) :
    written.foldl (emit writeCbor) s = s ++ (written.flatMap fun m => [m, cborCr]).flatten := by
  induction written generalizing s with
  | nil => simp
  | cons m written ih =>
      rw [List.foldl_cons, ih]
      simp [emit, writeCbor]

/-- At any time the file of items reads back as the entries that came first, each with a
newline behind it. -/
theorem cbor_file_reads_back (items : ∀ a ∈ acts, ∀ m, a.2 = .push m → IsItem m)
    (ran : Transition.run (step writeCbor) (create τ ι Bytes []) acts = some f) :
    ∃ written pending, f.published.map Prod.snd = written ++ pending ∧
      drain takeItem f.s = (written.flatMap fun m => [m, cborCr], []) ∧
      (f.head = none → f.m = none → pending = []) := by
  obtain ⟨-, -, handled, pending, written, published, -, file, complete, rest⟩ :=
    file_linearized ran (rfl : Transition.run (step writeCbor) f [] = some f)
  have writable : f.Writable writeCbor := fun _ _ _ => ⟨_, rfl⟩
  have whole := complete writable
  subst whole
  refine ⟨written, pending, published, ?_, rest⟩
  rw [file, foldl_writeCbor, List.nil_append]
  refine drain_items _ fun x member => ?_
  obtain ⟨m, among, here⟩ := List.mem_flatMap.mp member
  simp only [List.mem_cons, List.not_mem_nil, or_false] at here
  rcases here with rfl | rfl
  · have entry : x ∈ f.published.map Prod.snd := by
      rw [published]
      exact List.mem_append_left _ among
    obtain ⟨e, inside, rfl⟩ := List.mem_map.mp entry
    exact items _ (pushed_of_published ran inside) _ rfl
  · exact isItem_cborCr

/-- Lines without newlines are found again in the text. -/
theorem splitOn_lines (lines : List Bytes) (free : ∀ line ∈ lines, newline ∉ line) :
    (lines.flatMap fun line => line ++ [newline]).splitOn newline = lines ++ [[]] := by
  induction lines with
  | nil => exact List.splitOn_nil _
  | cons line lines ih =>
      obtain ⟨here, others⟩ := List.forall_mem_cons.mp free
      rw [List.flatMap_cons, List.append_assoc, List.singleton_append,
        List.splitOn_append_cons_self_of_not_mem here, ih others]
      rfl

section Json
variable (toChars : Float → Bytes)

theorem foldl_writeJson (written : List Bytes)
    (trees : ∀ m ∈ written, ∃ v : Value, m = encode v ∧ v.Sized (2 ^ 64)) (s : Bytes) :
    ∃ lines, List.Forall₂ (fun m line => toJson toChars m = .ok line) written lines ∧
      written.foldl (emit (writeJson toChars)) s =
        s ++ lines.flatMap fun line => line ++ [newline] := by
  induction written generalizing s with
  | nil => exact ⟨[], .nil, by simp⟩
  | cons m written ih =>
      obtain ⟨here, others⟩ := List.forall_mem_cons.mp trees
      obtain ⟨v, rfl, sized⟩ := here
      obtain ⟨t, prints⟩ := printable toChars v sized
      have whole := prints s []
      have alone := toJson_prints toChars prints []
      rw [List.append_nil] at whole alone
      have line : emit (writeJson toChars) s (encode v) = s ++ (t ++ [newline]) := by
        rw [emit, writeJson, whole]
        exact List.append_assoc _ _ _
      obtain ⟨lines, each, rest⟩ := ih others (s ++ (t ++ [newline]))
      refine ⟨t :: lines, .cons alone each, ?_⟩
      rw [List.foldl_cons, line, rest, List.flatMap_cons]
      simp only [List.append_assoc]

theorem newline_notMem_lines (plain : ∀ v, newline ∉ toChars v) {written lines : List Bytes}
    (each : List.Forall₂ (fun m line => toJson toChars m = .ok line) written lines) :
    ∀ line ∈ lines, newline ∉ line := by
  induction each with
  | nil => exact fun _ member => absurd member List.not_mem_nil
  | cons printed _ ih => exact List.forall_mem_cons.mpr ⟨newline_notMem_toJson plain printed, ih⟩

/-- At any time the lines of the file of texts are the texts of the entries that came first. -/
theorem json_file_lines (plain : ∀ v, newline ∉ toChars v)
    (trees : ∀ a ∈ acts, ∀ m, a.2 = .push m → ∃ v : Value, m = encode v ∧ v.Sized (2 ^ 64))
    (ran : Transition.run (step (writeJson toChars)) (create τ ι Bytes []) acts = some f) :
    ∃ written pending lines, f.published.map Prod.snd = written ++ pending ∧
      List.Forall₂ (fun m line => toJson toChars m = .ok line) written lines ∧
      f.s.splitOn newline = lines ++ [[]] ∧ (f.head = none → f.m = none → pending = []) := by
  obtain ⟨-, -, handled, pending, written, published, -, file, complete, rest⟩ :=
    file_linearized ran (rfl : Transition.run (step (writeJson toChars)) f [] = some f)
  have entries (e : τ × Bytes) (inside : e ∈ f.published) :
      ∃ v : Value, e.2 = encode v ∧ v.Sized (2 ^ 64) :=
    trees _ (pushed_of_published ran inside) _ rfl
  have writable : f.Writable (writeJson toChars) := by
    intro e inside s
    obtain ⟨v, same, sized⟩ := entries e inside
    obtain ⟨t, prints⟩ := printable toChars v sized
    have whole := prints s []
    rw [List.append_nil] at whole
    exact ⟨_, by rw [same, writeJson, whole]⟩
  have whole := complete writable
  subst whole
  have known : ∀ m ∈ written, ∃ v : Value, m = encode v ∧ v.Sized (2 ^ 64) := by
    intro m member
    have entry : m ∈ f.published.map Prod.snd := by
      rw [published]
      exact List.mem_append_left _ member
    obtain ⟨e, inside, rfl⟩ := List.mem_map.mp entry
    exact entries e inside
  obtain ⟨lines, each, text⟩ := foldl_writeJson toChars written known []
  refine ⟨written, pending, lines, published, each, ?_, rest⟩
  rw [file, text, List.nil_append]
  exact splitOn_lines lines (newline_notMem_lines toChars plain each)

/-- The diagram writer looks for the actor where the runtime puts a counter. -/
theorem toMermaid_traceEntry (tasks posts active : UInt64) (count : Int64) (parms : List Value)
    (few : parms.length + 4 < 2 ^ 64) (s : Bytes) :
    toMermaid toChars s (traceEntry tasks posts active count parms) = .error s := by
  have header := decodeArrayHeader_pushed
    (UInt64.ofNat (.uint tasks :: .uint posts :: .uint active :: .int count :: parms).length)
    (encodeItems (.uint tasks :: .uint posts :: .uint active :: .int count :: parms))
  have some : (UInt64.ofNat
      (.uint tasks :: .uint posts :: .uint active :: .int count :: parms).length).toNat ≠ 0 := by
    rw [toNat_ofNat_register (by simp only [List.length_cons]; omega)]
    simp
  have front := decodeArrayHeader_encode (v := .uint tasks) trivial
    (encodeItems (.uint posts :: .uint active :: .int count :: parms))
  obtain ⟨e, rejected⟩ := front
  have matched :
      matchArray entryPattern (traceEntry tasks posts active count parms) = .error e := by
    rw [traceEntry, array_cons, encode, matchArray, bind_of_ok header, entryPattern, matchNext,
      if_neg some,
      referencePattern]
    refine bind_of_error ?_ _
    rw [matchValue, encodeItems]
    exact bind_of_error rejected _
  rw [toMermaid, matching, matchBuffer, matched]
  rfl

theorem foldl_unchanged {onTrace : Bytes → Bytes → Except Bytes Bytes} (written : List Bytes)
    (same : ∀ m ∈ written, ∀ s, emit onTrace s m = s) (s : Bytes) :
    written.foldl (emit onTrace) s = s := by
  induction written with
  | nil => rfl
  | cons m written ih =>
      obtain ⟨here, others⟩ := List.forall_mem_cons.mp same
      rw [List.foldl_cons, here, ih others]

/-- A diagram of what the runtime traces has no lines: each entry makes the writer throw. -/
theorem mermaid_file_empty
    (traced : ∀ a ∈ acts, ∀ m, a.2 = .push m → ∃ tasks posts active count parms,
      parms.length + 4 < 2 ^ 64 ∧ m = traceEntry tasks posts active count parms)
    (ran : Transition.run (step (toMermaid toChars)) (create τ ι Bytes mermaidHeader) acts =
      some f) : f.s = mermaidHeader := by
  obtain ⟨-, -, handled, pending, written, published, sublist, file, -⟩ :=
    file_linearized ran (rfl : Transition.run (step (toMermaid toChars)) f [] = some f)
  have entries : ∀ m ∈ written, ∀ s, emit (toMermaid toChars) s m = s := by
    intro m member s
    have entry : m ∈ f.published.map Prod.snd := by
      rw [published]
      exact List.mem_append_left _ (sublist.subset member)
    obtain ⟨e, inside, rfl⟩ := List.mem_map.mp entry
    obtain ⟨tasks, posts, active, count, parms, few, same⟩ :=
      traced _ (pushed_of_published ran inside) _ rfl
    rw [emit, same, toMermaid_traceEntry toChars tasks posts active count parms few s]
  rw [file, foldl_unchanged written entries]

end Json

section Example

/-- One thread pushes two entries. -/
def pushesTwo (m m' : Bytes) : List (Bool × Action Nat Bytes) :=
  [(false, Action.push m), (false, .allocate 1), (false, .exchange false)] ++ drains false 1 ++
    [(false, Action.push m'), (false, .allocate 1), (false, .exchange false)] ++ drains false 1

def someEntry : Bytes :=
  traceEntry 0 0 1 1 [.array [.string (text "PID"), .uint 7], .string (text "run")]

theorem pushed_two {m m' x : Bytes} {a : Bool × Action Nat Bytes} (among : a ∈ pushesTwo m m')
    (push : a.2 = .push x) : x = m ∨ x = m' := by
  have calls : (pushesTwo m m').filterMap (fun a => a.2.pushed) = [m, m'] := rfl
  have pushed : x ∈ (pushesTwo m m').filterMap fun a => a.2.pushed :=
    List.mem_filterMap.mpr ⟨a, among, by rw [push]; rfl⟩
  rw [calls] at pushed
  simpa using pushed

theorem cbor_file_reads_back_two : ∃ f : TraceFile Bool Nat Bytes Bytes,
    Transition.run (step writeCbor) (create Bool Nat Bytes []) (pushesTwo someEntry cborCr) =
      some f ∧
      drain takeItem f.s = ([someEntry, cborCr, cborCr, cborCr], []) := by
  have checked : ((Transition.run (step writeCbor) (create Bool Nat Bytes [])
      (pushesTwo someEntry cborCr)).any fun f =>
        decide (f.head = none ∧ f.m = none ∧ f.published = [(false, someEntry), (false, cborCr)])) =
      true := by
    decide +kernel
  obtain ⟨f, ran, checked⟩ := (Option.any_eq_true _ _).mp checked
  rw [decide_eq_true_eq] at checked
  obtain ⟨empty, free, published⟩ := checked
  have items : ∀ a ∈ pushesTwo someEntry cborCr, ∀ m, a.2 = .push m → IsItem m := by
    intro a among m push
    rcases pushed_two among push with rfl | rfl
    · rfl
    · rfl
  obtain ⟨written, pending, order, back, rest⟩ := cbor_file_reads_back items ran
  rw [rest empty free, List.append_nil, published] at order
  subst order
  exact ⟨f, ran, back⟩

theorem json_file_lines_two : ∃ (f : TraceFile Bool Nat Bytes Bytes) (line line' : Bytes),
    Transition.run (step (writeJson fun _ => [])) (create Bool Nat Bytes [])
        (pushesTwo someEntry cborCr) = some f ∧
      toJson (fun _ => []) someEntry = .ok line ∧ toJson (fun _ => []) cborCr = .ok line' ∧
      f.s.splitOn newline = [line, line', []] := by
  have checked : ((Transition.run (step (writeJson fun _ => [])) (create Bool Nat Bytes [])
      (pushesTwo someEntry cborCr)).any fun f =>
        decide (f.head = none ∧ f.m = none ∧ f.published = [(false, someEntry), (false, cborCr)])) =
      true := by
    decide +kernel
  obtain ⟨f, ran, checked⟩ := (Option.any_eq_true _ _).mp checked
  rw [decide_eq_true_eq] at checked
  obtain ⟨empty, free, published⟩ := checked
  have trees : ∀ a ∈ pushesTwo someEntry cborCr, ∀ m, a.2 = .push m →
      ∃ v : Value, m = encode v ∧ v.Sized (2 ^ 64) := by
    intro a among m push
    rcases pushed_two among push with rfl | rfl
    · exact ⟨_, array_cons _ _, by simp [Value.Sized, SizedItems, text]⟩
    · exact ⟨_, array_cons _ _, by simp [Value.Sized, SizedItems]⟩
  obtain ⟨written, pending, lines, order, each, split, rest⟩ :=
    json_file_lines (fun _ => []) (fun _ => List.not_mem_nil) trees ran
  rw [rest empty free, List.append_nil, published] at order
  subst order
  cases each with
  | cons first each =>
      cases each with
      | cons second each =>
          cases each
          exact ⟨f, _, _, ran, first, second, split⟩

/-- An entry that the writer throws for. -/
def pushesThrown : List (Bool × Action Nat Bytes) :=
  [(false, .push someEntry), (false, .allocate 1), (false, .exchange false)] ++
    (drains false 1).take 8

theorem mermaid_file_empty_thrown : ∃ f : TraceFile Bool Nat Bytes Bytes,
    Transition.run (step (toMermaid fun _ => [])) (create Bool Nat Bytes mermaidHeader)
        pushesThrown = some f ∧
      f.published = [(false, someEntry)] ∧ (∀ t, f.threads t = .idle) ∧ f.head = none ∧
      f.s = mermaidHeader := by
  have checked : ((Transition.run (step (toMermaid fun _ => []))
      (create Bool Nat Bytes mermaidHeader) pushesThrown).any fun f =>
        decide (f.published = [(false, someEntry)] ∧ (∀ t, f.threads t = .idle) ∧ f.head = none)) =
      true := by
    decide +kernel
  obtain ⟨f, ran, checked⟩ := (Option.any_eq_true _ _).mp checked
  rw [decide_eq_true_eq] at checked
  obtain ⟨published, idle, empty⟩ := checked
  refine ⟨f, ran, published, idle, empty, mermaid_file_empty (fun _ => []) ?_ ran⟩
  intro a among m push
  have calls : pushesThrown.filterMap (fun a => a.2.pushed) = [someEntry] := rfl
  have pushed : m ∈ pushesThrown.filterMap fun a => a.2.pushed :=
    List.mem_filterMap.mpr ⟨a, among, by rw [push]; rfl⟩
  rw [calls, List.mem_singleton] at pushed
  exact ⟨0, 0, 1, 1, _, by simp, pushed⟩

end Example

end TraceFile

end Thespian.Trace
