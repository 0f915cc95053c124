import Thespian.Cbor.Buffer
import Thespian.Decoding.CommandLine

/-!
The command line of a child process on Windows, as bytes that are not yet UTF-16. For a
program it is taken apart by the child's C runtime. For a batch file it goes through
cmd.exe, to which a quote begins or ends a quoted part whatever is in front of it.
-/

namespace Thespian.Zig
open Cbor CommandLine

inductive CommandLineError where
  | invalidArg0
  | invalidBatchScriptArg
  deriving DecidableEq

namespace Child

def quote : UInt8 := 0x22
def backslash : UInt8 := 0x5c
def blank : UInt8 := 0x20
def percent : UInt8 := 0x25

/-- The loop over the name of the program. -/
def arg0NeedsQuotes : Bool → Bytes → Except CommandLineError Bool
  | needsQuotes, [] => .ok needsQuotes
  | needsQuotes, c :: s =>
      if c ≤ blank then arg0NeedsQuotes true s
      else if c = quote then .error .invalidArg0
      else arg0NeedsQuotes needsQuotes s

def argNeedsQuotes (arg : Bytes) : Bool :=
  arg.any (fun c => c ≤ blank || c = quote) || arg.length = 0

/-- The loop over an argument that needs quotes, and what it leaves to be appended. -/
def escape : Nat → Bytes → Bytes
  | backslashCount, [] => List.replicate (backslashCount * 2) backslash
  | backslashCount, byte :: arg =>
      if byte = backslash then escape (backslashCount + 1) arg
      else if byte = quote then
        List.replicate (backslashCount * 2 + 1) backslash ++ quote :: escape 0 arg
      else List.replicate backslashCount backslash ++ byte :: escape 0 arg

def quoteArg (arg : Bytes) : Bytes :=
  if argNeedsQuotes arg then quote :: escape 0 arg ++ [quote] else arg

def argvToCommandLine : List Bytes → Except CommandLineError Bytes
  | [] => .ok []
  | arg0 :: args => do
      let needsQuotes ← arg0NeedsQuotes (arg0.length = 0) arg0
      let program := if needsQuotes then quote :: arg0 ++ [quote] else arg0
      return program ++ args.flatMap fun arg => blank :: quoteArg arg

/-- The characters an argument of a batch file may hold outside of quotes. -/
def scriptSafe (c : UInt8) : Bool :=
  (0x41 ≤ c && c ≤ 0x5a) || (0x61 ≤ c && c ≤ 0x7a) || (0x30 ≤ c && c ≤ 0x39) ||
    (text "#$*+-./:?@\\_").contains c

/-- The loop over an argument of a batch file. -/
def scriptEscape (needsQuotes : Bool) : Nat → Bytes → Bytes
  | backslashes, [] =>
      if needsQuotes then List.replicate backslashes backslash ++ [quote] else []
  | backslashes, c :: arg =>
      if c = backslash then c :: scriptEscape needsQuotes (backslashes + 1) arg
      else if c = quote then
        List.replicate backslashes backslash ++ quote :: c :: scriptEscape needsQuotes 0 arg
      else if c = percent then text "%%cd:~," ++ c :: scriptEscape needsQuotes 0 arg
      else c :: scriptEscape needsQuotes 0 arg

def scriptArgNeedsQuotes (arg : Bytes) : Bool :=
  arg.length = 0 || arg.getLast? = some backslash || !arg.all scriptSafe

def scriptArg (arg : Bytes) : Except CommandLineError Bytes :=
  if arg.any fun c => c = 0 || c = 0x0d || c = 0x0a then .error .invalidBatchScriptArg
  else
    let needsQuotes := scriptArgNeedsQuotes arg
    .ok (blank :: (if needsQuotes then [quote] else []) ++ scriptEscape needsQuotes 0 arg)

def argvToScriptCommandLine (scriptPath : Bytes) (scriptArgs : List Bytes) :
    Except CommandLineError Bytes := do
  let scriptArgs ← scriptArgs.mapM scriptArg
  let path := if scriptPath.any fun c => c = backslash || c = 0x2f then scriptPath
    else text ".\\" ++ scriptPath
  return text "cmd.exe /d /e:ON /v:OFF /c \"" ++ quote :: path ++ quote :: scriptArgs.flatten ++
    [quote]

/-- The lexis of the C runtime. -/
def runtimeLexis : Lexis UInt8 where
  quote := quote
  backslash := backslash
  terminator := 0
  blank c := c = blank ∨ c = 0x09
  quote_ne := by decide
  backslash_ne := by decide
  terminator_ne := by decide

section Program
variable {arg s : Bytes} {n : Nat}

theorem arg0NeedsQuotes_error {needs : Bool} :
    arg0NeedsQuotes needs arg = .error .invalidArg0 ↔ quote ∈ arg := by
  fun_induction arg0NeedsQuotes needs arg with
  | case1 => simp
  | case2 needs c s low ih =>
      have other : quote ≠ c := by
        rintro rfl
        exact absurd low (by decide)
      rw [ih, List.mem_cons]
      simp [other]
  | case3 => simp
  | case4 needs c s low other ih =>
      rw [ih, List.mem_cons]
      simp [Ne.symm other]

theorem arg0NeedsQuotes_ok {needs needed : Bool} (h : arg0NeedsQuotes needs arg = .ok needed) :
    needed = (needs || arg.any fun c => c ≤ blank) := by
  fun_induction arg0NeedsQuotes needs arg with
  | case1 needs => simpa using h.symm
  | case2 needs c s low ih => simp [ih h, low]
  | case3 => cases h
  | case4 needs c s high other ih => simp [ih h, high]

/-- In a quoted part the runtime reads back what the loop has escaped. -/
theorem scan_escape (k : Nat) (arg cur s : Bytes) (last : s.head? ≠ some quote)
    (regular : (0 : UInt8) ∉ arg) :
    scan runtimeLexis 0 true cur (escape k arg ++ quote :: s) =
      scan runtimeLexis 0 false (cur ++ List.replicate k backslash ++ arg) s := by
  induction arg generalizing k cur with
  | nil =>
      rw [escape]
      refine (scan_backslashes (L := runtimeLexis) (k * 2) (quote :: s)).trans ?_
      rw [Nat.zero_add, Nat.mul_comm, List.append_nil]
      exact scan_close (L := runtimeLexis) last
  | cons byte arg ih =>
      obtain ⟨nonzero, rest⟩ := not_or.mp (List.mem_cons.not.mp regular)
      rw [escape]
      split
      next slash =>
        rw [ih (k + 1) cur rest, List.replicate_succ', slash]
        simp
      next solid =>
        split
        next quoted =>
          rw [List.append_assoc]
          refine (scan_backslashes (L := runtimeLexis) (k * 2 + 1) _).trans ?_
          rw [Nat.zero_add, Nat.mul_comm, List.cons_append]
          refine (scan_odd (L := runtimeLexis) _).trans ?_
          refine (ih 0 _ rest).trans ?_
          rw [quoted]
          simp [runtimeLexis]
        next unquoted =>
          rw [List.append_assoc]
          refine (scan_backslashes (L := runtimeLexis) k _).trans ?_
          rw [Nat.zero_add, List.cons_append]
          have plain : byte ≠ 0 ∧ byte ≠ backslash ∧ byte ≠ quote :=
            ⟨Ne.symm nonzero, solid, unquoted⟩
          refine (scan_regular (L := runtimeLexis) plain (.inl rfl) _).trans ?_
          refine (ih 0 _ rest).trans ?_
          simp [runtimeLexis]

/-- An argument that needs no quotes has nothing in it that the runtime looks at. -/
theorem plain_of_not_needs (h : argNeedsQuotes arg = false) :
    arg ≠ [] ∧ ∀ c ∈ arg, c ≠ 0 ∧ c ≠ quote ∧ ¬runtimeLexis.blank c := by
  rw [argNeedsQuotes, Bool.or_eq_false_iff] at h
  obtain ⟨none, filled⟩ := h
  constructor
  · rintro rfl
    cases filled
  intro c member
  have plain := List.any_eq_false.mp none c member
  simp only [Bool.or_eq_true, decide_eq_true_eq, not_or] at plain
  obtain ⟨high, other⟩ := plain
  refine ⟨?_, other, ?_⟩
  · rintro rfl
    exact high (by decide)
  · rintro (rfl | rfl)
    · exact high (by decide)
    · exact high (by decide)

theorem scan_quoteArg (regular : (0 : UInt8) ∉ arg)
    (ends : ∀ c, s.head? = some c → runtimeLexis.blank c) :
    scan runtimeLexis 0 false [] (quoteArg arg ++ s) = (arg, s) := by
  unfold quoteArg
  split
  next needs =>
    have last : s.head? ≠ some quote := by
      intro same
      exact runtimeLexis.quote_ne.2.2 (ends quote same)
    rw [List.append_assoc, List.singleton_append]
    refine (scan_open (L := runtimeLexis) _).trans ?_
    refine (scan_escape 0 arg [] s last regular).trans ?_
    refine (scan_end (L := runtimeLexis) ends).trans ?_
    simp
  next needs =>
    have plain := (plain_of_not_needs (by simpa using needs)).2
    refine (scan_plain (L := runtimeLexis) plain ends).trans ?_
    simp

/-- An argument begins where the runtime looks for one. -/
theorem quoteArg_cons (arg : Bytes) (regular : (0 : UInt8) ∉ arg) :
    ∃ c s, quoteArg arg = c :: s ∧ c ≠ 0 ∧ ¬runtimeLexis.blank c := by
  unfold quoteArg
  split
  next needs => exact ⟨quote, _, rfl, by decide, runtimeLexis.quote_ne.2.2⟩
  next needs =>
    obtain ⟨filled, plain⟩ := plain_of_not_needs (by simpa using needs)
    obtain ⟨c, rest, rfl⟩ := List.exists_cons_of_ne_nil filled
    have here := plain c List.mem_cons_self
    exact ⟨c, rest, rfl, here.1, here.2.2⟩

theorem head_quoteArgs (args : List Bytes) : ∀ c,
    (args.flatMap fun arg => blank :: quoteArg arg).head? = some c → runtimeLexis.blank c := by
  cases args with
  | nil => simp
  | cons next args =>
      intro c first
      cases first
      exact .inl rfl

theorem arguments_quoteArgs {args : List Bytes} (regular : ∀ a ∈ args, (0 : UInt8) ∉ a) :
    arguments runtimeLexis (args.flatMap fun arg => blank :: quoteArg arg) = args := by
  induction args with
  | nil => simp [arguments]
  | cons arg args ih =>
      obtain ⟨here, rest⟩ := List.forall_mem_cons.mp regular
      have ends := head_quoteArgs args
      obtain ⟨c, s, start, nonzero, dark⟩ := quoteArg_cons arg here
      have read := scan_quoteArg here ends
      rw [List.flatMap_cons, List.cons_append, arguments_blank (L := runtimeLexis) (.inl rfl)]
      rw [start, List.cons_append] at read ⊢
      rw [arguments_cons (L := runtimeLexis) nonzero dark, read, ih rest]

theorem programName_end (ends : ∀ c, s.head? = some c → runtimeLexis.blank c) :
    (programName runtimeLexis false s).1 = [] ∧
      arguments runtimeLexis (programName runtimeLexis false s).2 = arguments runtimeLexis s := by
  cases s with
  | nil => exact ⟨rfl, rfl⟩
  | cons c s =>
      have blank : runtimeLexis.blank c := ends c rfl
      have regular : c ≠ runtimeLexis.terminator ∧ c ≠ runtimeLexis.quote := by
        constructor <;> rintro rfl
        · exact runtimeLexis.terminator_ne blank
        · exact runtimeLexis.quote_ne.2.2 blank
      rw [programName, if_neg regular.1, if_neg regular.2, if_pos ⟨rfl, blank⟩]
      exact ⟨rfl, (arguments_blank blank).symm⟩

/-- The runtime finds the name of the program, and goes on behind it. -/
theorem parse_program {arg0 : Bytes} {needs : Bool} (regular : (0 : UInt8) ∉ arg0)
    (h : arg0NeedsQuotes (arg0.length = 0) arg0 = .ok needs)
    (ends : ∀ c, s.head? = some c → runtimeLexis.blank c) :
    parse runtimeLexis ((if needs then quote :: arg0 ++ [quote] else arg0) ++ s) =
      arg0 :: arguments runtimeLexis s := by
  have unquoted : quote ∉ arg0 := by
    rw [← @arg0NeedsQuotes_error arg0 (arg0.length = 0), h]
    simp
  have plain : ∀ c ∈ arg0, c ≠ 0 ∧ c ≠ quote := by
    intro c member
    constructor <;> rintro rfl
    · exact regular member
    · exact unquoted member
  have toggle : ∀ quoted s, programName runtimeLexis quoted (quote :: s) =
      programName runtimeLexis (!quoted) s := fun _ s => programName_quote (L := runtimeLexis) s
  obtain ⟨none, next⟩ := programName_end ends
  have needed := arg0NeedsQuotes_ok h
  cases needs with
  | true =>
      have name : programName runtimeLexis true (arg0 ++ quote :: s) =
        (arg0 ++ (programName runtimeLexis true (quote :: s)).1,
          (programName runtimeLexis true (quote :: s)).2) := programName_plain plain (.inl rfl)
      simp only [if_true, parse, List.cons_append, List.append_assoc, List.nil_append]
      rw [toggle, Bool.not_false, name, toggle, Bool.not_true, none, next, List.append_nil]
  | false =>
      have dark : ∀ c ∈ arg0, ¬runtimeLexis.blank c := by
        intro c member
        have high := List.any_eq_false.mp (Bool.or_eq_false_iff.mp needed.symm).2 c member
        rw [decide_eq_true_eq] at high
        rintro (rfl | rfl)
        · exact high (by decide)
        · exact high (by decide)
      have name : programName runtimeLexis false (arg0 ++ s) =
        (arg0 ++ (programName runtimeLexis false s).1, (programName runtimeLexis false s).2) :=
          programName_plain plain (.inr dark)
      simp only [Bool.false_eq_true, if_false, parse]
      rw [name, none, next, List.append_nil]

end Program

section Script
variable {arg : Bytes}

/-- In quotes an argument stays in quotes: it doubles its own. -/
theorem unquoted_scriptEscape (n : Nat) (arg : Bytes) :
    unquoted quote true (scriptEscape true n arg) = ([], false) := by
  have slashes : ∀ n, quote ∉ List.replicate n backslash := by
    intro n member
    exact absurd (List.eq_of_mem_replicate member) (by decide)
  induction arg generalizing n with
  | nil =>
      rw [scriptEscape, if_pos rfl, unquoted_append, unquoted_plain (slashes n)]
      rfl
  | cons c arg ih =>
      rw [scriptEscape]
      split
      next slash => simp [slash, unquoted, ih, show backslash ≠ quote by decide]
      next =>
        split
        next quoted =>
          rw [unquoted_append, unquoted_plain (slashes n)]
          simp [quoted, unquoted, ih]
        next other =>
          split
          next =>
            rw [unquoted_append, unquoted_plain (by decide)]
            simp [unquoted, other, ih]
          next => simp [unquoted, other, ih]

/-- Outside of quotes an argument is written as it is. -/
theorem scriptEscape_safe (safe : ∀ c ∈ arg, scriptSafe c = true) (n : Nat) :
    scriptEscape false n arg = arg := by
  induction arg generalizing n with
  | nil => rfl
  | cons c arg ih =>
      obtain ⟨here, rest⟩ := List.forall_mem_cons.mp safe
      have unquoted : c ≠ quote := by
        rintro rfl
        exact absurd here (by decide)
      have literal : c ≠ percent := by
        rintro rfl
        exact absurd here (by decide)
      rw [scriptEscape, if_neg unquoted, if_neg literal, ih rest, ih rest, ite_self]

theorem scriptArg_error : scriptArg arg = .error .invalidBatchScriptArg ↔
    ∃ c ∈ arg, c = 0 ∨ c = 0x0d ∨ c = 0x0a := by
  unfold scriptArg
  split
  next bad => simpa [or_assoc] using bad
  next good => simpa [or_assoc] using good

theorem unquoted_scriptArg {part : Bytes} (h : scriptArg arg = .ok part) :
    (unquoted quote false part).2 = false ∧
      ∀ c ∈ (unquoted quote false part).1, c = blank ∨ scriptSafe c = true := by
  unfold scriptArg at h
  split at h <;> cases h
  cases needs : scriptArgNeedsQuotes arg with
  | true => simp [unquoted, unquoted_scriptEscape, show blank ≠ quote by decide]
  | false =>
      have safe : ∀ c ∈ arg, scriptSafe c = true := by
        simp only [scriptArgNeedsQuotes, Bool.or_eq_false_iff] at needs
        simpa using needs.2
      have plain : quote ∉ arg := by
        intro member
        exact absurd (safe quote member) (by decide)
      simp [unquoted, scriptEscape_safe safe, unquoted_plain plain, show blank ≠ quote by decide]
      intro c member
      exact .inr (safe c member)

theorem mapM_scriptArg_error {args : List Bytes} :
    args.mapM scriptArg = .error .invalidBatchScriptArg ↔
      ∃ a ∈ args, ∃ c ∈ a, c = 0 ∨ c = 0x0d ∨ c = 0x0a := by
  induction args with
  | nil => simp [pure, Except.pure]
  | cons arg args ih =>
      rw [List.mapM_cons, List.exists_mem_cons_iff, ← ih, ← scriptArg_error]
      have only : scriptArg arg ≠ .error .invalidArg0 := by
        unfold scriptArg
        split <;> simp
      cases first : scriptArg arg with
      | error e => cases e <;> simp_all [bind, Except.bind]
      | ok part => cases args.mapM scriptArg <;> simp [bind, Except.bind, pure, Except.pure]

theorem unquoted_scriptArgs {args parts : List Bytes} (h : args.mapM scriptArg = .ok parts) :
    (unquoted quote false parts.flatten).2 = false ∧
      ∀ c ∈ (unquoted quote false parts.flatten).1, c = blank ∨ scriptSafe c = true := by
  induction args generalizing parts with
  | nil =>
      cases h
      simp [unquoted]
  | cons arg args ih =>
      rw [List.mapM_cons] at h
      cases first : scriptArg arg with
      | error e =>
          rw [first] at h
          cases h
      | ok part =>
          cases more : args.mapM scriptArg with
          | error e =>
              rw [first, more] at h
              cases h
          | ok rest =>
              rw [first, more] at h
              cases h
              obtain ⟨closed, safe⟩ := unquoted_scriptArg first
              obtain ⟨closed', safe'⟩ := ih more
              rw [List.flatten_cons, unquoted_append, closed]
              refine ⟨closed', ?_⟩
              intro c member
              rcases List.mem_append.mp member with here | there
              · exact safe c here
              · exact safe' c there

end Script

end Child

end Thespian.Zig
