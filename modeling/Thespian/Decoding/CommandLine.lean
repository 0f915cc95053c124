import Mathlib.Data.List.Basic

/-!
How a C runtime on Windows takes a command line apart. The name of the program goes to
the first blank outside of quotes. In the arguments behind it a run of backslashes counts
only in front of a quote: half of it stands for itself, and an odd one takes the quote with
it. In a quoted part two quotes stand for one. Everything ends at the terminator.
-/

namespace CommandLine

/-- The characters with a meaning. -/
structure Lexis (α : Type) where
  quote : α
  backslash : α
  terminator : α
  blank : α → Prop
  [decidableBlank : DecidablePred blank]
  quote_ne : quote ≠ backslash ∧ quote ≠ terminator ∧ ¬blank quote
  backslash_ne : backslash ≠ terminator ∧ ¬blank backslash
  terminator_ne : ¬blank terminator

variable {α : Type} [DecidableEq α] (L : Lexis α)

instance (L : Lexis α) : DecidablePred L.blank := L.decidableBlank

/-- The name of the program and what is left behind it. -/
def programName : Bool → List α → List α × List α
  | _, [] => ([], [])
  | quoted, c :: s =>
      if c = L.terminator then ([], [])
      else if c = L.quote then programName (!quoted) s
      else if quoted = false ∧ L.blank c then ([], s)
      else
        let (name, rest) := programName quoted s
        (c :: name, rest)

/-- One argument and what is left behind it. The number is that of the backslashes that
have been read and not yet been judged. -/
def scan : Nat → Bool → List α → List α → List α × List α
  | n, _, arg, [] => (arg ++ List.replicate n L.backslash, [])
  | n, quoted, arg, c :: s =>
      if c = L.terminator then (arg ++ List.replicate n L.backslash, [])
      else if c = L.backslash then scan (n + 1) quoted arg s
      else if c = L.quote then
        let arg := arg ++ List.replicate (n / 2) L.backslash
        if n % 2 = 1 then scan 0 quoted (arg ++ [L.quote]) s
        else if quoted then
          match s with
          | [] => scan 0 false arg []
          | d :: s =>
              if d = L.quote then scan 0 true (arg ++ [L.quote]) s else scan 0 false arg (d :: s)
        else scan 0 true arg s
      else if quoted = false ∧ L.blank c then (arg ++ List.replicate n L.backslash, c :: s)
      else scan 0 quoted (arg ++ List.replicate n L.backslash ++ [c]) s

section Scan
variable {L} {n k : Nat} {quoted : Bool} {arg s : List α} {c : α}

/-- One round of the scan. -/
theorem scan_cons : scan L n quoted arg (c :: s) =
    if c = L.terminator then (arg ++ List.replicate n L.backslash, [])
    else if c = L.backslash then scan L (n + 1) quoted arg s
    else if c = L.quote then
      if n % 2 = 1 then scan L 0 quoted (arg ++ List.replicate (n / 2) L.backslash ++ [L.quote]) s
      else if quoted then
        match s with
        | [] => scan L 0 false (arg ++ List.replicate (n / 2) L.backslash) []
        | d :: s =>
            if d = L.quote then
              scan L 0 true (arg ++ List.replicate (n / 2) L.backslash ++ [L.quote]) s
            else scan L 0 false (arg ++ List.replicate (n / 2) L.backslash) (d :: s)
      else scan L 0 true (arg ++ List.replicate (n / 2) L.backslash) s
    else if quoted = false ∧ L.blank c then (arg ++ List.replicate n L.backslash, c :: s)
    else scan L 0 quoted (arg ++ List.replicate n L.backslash ++ [c]) s := by
  conv_lhs => rw [scan]

theorem length_scan (n : Nat) (quoted : Bool) (arg s : List α) :
    (scan L n quoted arg s).2.length ≤ s.length := by
  fun_induction scan L n quoted arg s <;> simp_all <;> omega

/-- An argument is not empty in the command line. -/
theorem length_scan_cons (regular : c ≠ L.terminator) (dark : ¬L.blank c) :
    (scan L 0 false [] (c :: s)).2.length < (c :: s).length := by
  have rest : ∀ n quoted (arg : List α), (scan L n quoted arg s).2.length < (c :: s).length := by
    intro n quoted arg
    exact Nat.lt_succ_of_le (length_scan n quoted arg s)
  rw [scan_cons, if_neg regular]
  split
  · exact rest _ _ _
  · split
    · simpa using rest 0 true []
    · simpa [dark] using rest 0 false [c]

theorem scan_backslashes (k : Nat) (s : List α) :
    scan L n quoted arg (List.replicate k L.backslash ++ s) = scan L (n + k) quoted arg s := by
  induction k generalizing n with
  | zero => rfl
  | succ k ih =>
      rw [List.replicate_succ, List.cons_append, scan_cons, if_neg L.backslash_ne.1, if_pos rfl, ih,
        Nat.add_assoc, Nat.add_comm 1 k]

/-- A quote behind an odd number of backslashes belongs to the argument. -/
theorem scan_odd (s : List α) : scan L (2 * k + 1) quoted arg (L.quote :: s) =
    scan L 0 quoted (arg ++ List.replicate k L.backslash ++ [L.quote]) s := by
  rw [scan_cons, if_neg L.quote_ne.2.1, if_neg L.quote_ne.1, if_pos rfl]
  simp [Nat.add_mod, show (2 * k + 1) / 2 = k by omega]

theorem scan_open (s : List α) :
    scan L 0 false arg (L.quote :: s) = scan L 0 true arg s := by
  rw [scan_cons, if_neg L.quote_ne.2.1, if_neg L.quote_ne.1, if_pos rfl]
  simp

/-- A quote behind an even number of backslashes closes the quoted part. -/
theorem scan_close (last : s.head? ≠ some L.quote) : scan L (2 * k) true arg (L.quote :: s) =
    scan L 0 false (arg ++ List.replicate k L.backslash) s := by
  cases s with
  | nil => simp [scan, L.quote_ne]
  | cons d s =>
      have other : d ≠ L.quote := fun same => last (congrArg some same)
      rw [scan_cons, if_neg L.quote_ne.2.1, if_neg L.quote_ne.1, if_pos rfl]
      simp [other]

theorem scan_regular (regular : c ≠ L.terminator ∧ c ≠ L.backslash ∧ c ≠ L.quote)
    (inside : quoted = true ∨ ¬L.blank c) (s : List α) : scan L n quoted arg (c :: s) =
    scan L 0 quoted (arg ++ List.replicate n L.backslash ++ [c]) s := by
  rw [scan_cons, if_neg regular.1, if_neg regular.2.1, if_neg regular.2.2, if_neg]
  rintro ⟨unquoted, blank⟩
  cases inside with
  | inl quoted => exact absurd (unquoted.symm.trans quoted) (by decide)
  | inr dark => exact dark blank

/-- An argument ends with the command line or in front of a blank. -/
theorem scan_end (ends : ∀ c, s.head? = some c → L.blank c) :
    scan L n false arg s = (arg ++ List.replicate n L.backslash, s) := by
  cases s with
  | nil => rfl
  | cons c s =>
      have blank : L.blank c := ends c rfl
      have regular : c ≠ L.terminator ∧ c ≠ L.backslash ∧ c ≠ L.quote := by
        refine ⟨?_, ?_, ?_⟩ <;> rintro rfl
        · exact L.terminator_ne blank
        · exact L.backslash_ne.2 blank
        · exact L.quote_ne.2.2 blank
      rw [scan_cons, if_neg regular.1, if_neg regular.2.1, if_neg regular.2.2, if_pos ⟨rfl, blank⟩]

/-- What needs no quotes stands for itself. -/
theorem scan_plain {word : List α} (plain : ∀ c ∈ word, c ≠ L.terminator ∧ c ≠ L.quote ∧ ¬L.blank c)
    (ends : ∀ c, s.head? = some c → L.blank c) :
    scan L n false arg (word ++ s) = (arg ++ List.replicate n L.backslash ++ word, s) := by
  induction word generalizing n arg with
  | nil => rw [List.nil_append, List.append_nil, scan_end ends]
  | cons c word ih =>
      obtain ⟨⟨regular, unquoted, dark⟩, rest⟩ := List.forall_mem_cons.mp plain
      rw [List.cons_append]
      by_cases slash : c = L.backslash
      · subst slash
        have one : scan L n false arg (List.replicate 1 L.backslash ++ (word ++ s)) =
          scan L (n + 1) false arg (word ++ s) := scan_backslashes 1 (word ++ s)
        rw [List.replicate_one, List.singleton_append] at one
        rw [one, ih rest, List.replicate_succ']
        simp
      · rw [scan_regular ⟨regular, slash, unquoted⟩ (.inr dark), ih rest]
        simp

/-- No argument holds a terminator. -/
theorem terminator_scan (h : L.terminator ∉ arg) : L.terminator ∉ (scan L n quoted arg s).1 := by
  have slash : L.terminator ≠ L.backslash := L.backslash_ne.1.symm
  have quote : L.terminator ≠ L.quote := L.quote_ne.2.1.symm
  fun_induction scan L n quoted arg s <;> simp_all [List.mem_replicate]
  all_goals grind -linarith

theorem terminator_programName (quoted : Bool) (s : List α) :
    L.terminator ∉ (programName L quoted s).1 := by
  fun_induction programName L quoted s <;> simp_all
  all_goals grind -linarith

theorem programName_quote (s : List α) :
    programName L quoted (L.quote :: s) = programName L (!quoted) s := by
  rw [programName, if_neg L.quote_ne.2.1, if_pos rfl]

/-- A name without quotes stands for itself. -/
theorem programName_plain {name : List α} (plain : ∀ c ∈ name, c ≠ L.terminator ∧ c ≠ L.quote)
    (inside : quoted = true ∨ ∀ c ∈ name, ¬L.blank c) :
    programName L quoted (name ++ s) =
      (name ++ (programName L quoted s).1, (programName L quoted s).2) := by
  induction name with
  | nil => rfl
  | cons c name ih =>
      obtain ⟨⟨regular, unquoted⟩, rest⟩ := List.forall_mem_cons.mp plain
      have here : ¬(quoted = false ∧ L.blank c) := by grind -linarith
      rw [List.cons_append, programName, if_neg regular, if_neg unquoted, if_neg here, ih rest]
      · rfl
      · grind -linarith

end Scan

/-- The arguments behind the name of the program. -/
def arguments : List α → List (List α)
  | [] => []
  | c :: s =>
      if c = L.terminator then []
      else if L.blank c then arguments s
      else (scan L 0 false [] (c :: s)).1 :: arguments (scan L 0 false [] (c :: s)).2
termination_by s => s.length
decreasing_by
  · simp
  · exact length_scan_cons ‹_› ‹_›

def parse (s : List α) : List (List α) :=
  (programName L false s).1 :: arguments L (programName L false s).2

section Parse
variable {L} {s : List α} {c : α}

theorem arguments_blank (blank : L.blank c) : arguments L (c :: s) = arguments L s := by
  have regular : c ≠ L.terminator := by
    rintro rfl
    exact L.terminator_ne blank
  rw [arguments, if_neg regular, if_pos blank]

theorem arguments_cons (regular : c ≠ L.terminator) (dark : ¬L.blank c) :
    arguments L (c :: s) =
      (scan L 0 false [] (c :: s)).1 :: arguments L (scan L 0 false [] (c :: s)).2 := by
  rw [arguments, if_neg regular, if_neg dark]

theorem terminator_arguments (s : List α) : ∀ a ∈ arguments L s, L.terminator ∉ a := by
  fun_induction arguments L s with
  | case1 => simp
  | case2 => simp
  | case3 c s _ _ ih => exact ih
  | case4 c s regular dark ih =>
      rw [List.forall_mem_cons]
      exact ⟨terminator_scan (by simp), ih⟩

theorem terminator_parse (s : List α) : ∀ a ∈ parse L s, L.terminator ∉ a := by
  rw [parse, List.forall_mem_cons]
  exact ⟨terminator_programName false s, terminator_arguments _⟩

end Parse

section Shell
variable (quote : α)

/-- What a shell that toggles at every quote finds outside of quoted parts, and whether it
is in one at the end. -/
def unquoted : Bool → List α → List α × Bool
  | quoted, [] => ([], quoted)
  | quoted, c :: s =>
      if c = quote then unquoted (!quoted) s
      else if quoted then unquoted quoted s
      else (c :: (unquoted quoted s).1, (unquoted quoted s).2)

variable {quote}

theorem unquoted_append (quoted : Bool) (s t : List α) : unquoted quote quoted (s ++ t) =
    ((unquoted quote quoted s).1 ++ (unquoted quote (unquoted quote quoted s).2 t).1,
      (unquoted quote (unquoted quote quoted s).2 t).2) := by
  fun_induction unquoted quote quoted s <;> simp_all [unquoted]

/-- Text without quotes does not change sides. -/
theorem unquoted_plain {s : List α} (plain : quote ∉ s) (quoted : Bool) :
    unquoted quote quoted s = (if quoted then [] else s, quoted) := by
  induction s with
  | nil => cases quoted <;> rfl
  | cons c s ih =>
      obtain ⟨other, rest⟩ := not_or.mp (List.mem_cons.not.mp plain)
      cases quoted <;> simp [unquoted, Ne.symm other, ih rest]

end Shell

end CommandLine
