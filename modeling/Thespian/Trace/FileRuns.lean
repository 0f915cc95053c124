import Thespian.Trace.FileOrder

/-!
Runs of a trace file. Whatever the threads do and wherever the allocator puts the nodes,
the entries reach the file in the order in which they were published, each of them once,
and no node is read or freed after it is gone. An entry stays behind on the stack only if
its thread found the mutex taken by one that had seen the end of the stack already.
-/

namespace Thespian.Trace
open Concurrent

variable {τ ι α φ : Type}

namespace Control

/-- The thread looks at the stack again before it leaves. -/
def attends : Control ι α → Bool
  | .idle | .allocating _ _ | .publishing _ | .loaded none => false
  | _ => true

/-- The thread has seen the end of the stack and leaves. -/
def leaves : Control ι α → Bool
  | .loaded none => true
  | _ => false

/-- Inside of the mutex a thread leaves without another look only from the end of the stack. -/
theorem attends_of_depth {c : Control ι α} (inside : 0 < c.depth) (more : c.leaves = false) :
    c.attends = true := by
  cases c with
  | loaded p =>
      cases p with
      | none => cases more
      | some p => rfl
  | idle | allocating _ _ | publishing _ | working => exact absurd inside (Nat.lt_irrefl 0)
  | tried | guarded | locked | reversing _ _ | writing _ | written _ => rfl

end Control

/-- The entries a thread has pushed, in the order of its calls. -/
def pushes [DecidableEq τ] (t : τ) (acts : List (τ × Action ι α)) : List α :=
  acts.filterMap fun a => if a.1 = t then a.2.pushed else none

theorem pushes_cons [DecidableEq τ] (t : τ) (a : τ × Action ι α) (acts : List (τ × Action ι α)) :
    pushes t (a :: acts) = (if a.1 = t then a.2.pushed.toList else []) ++ pushes t acts := by
  unfold pushes
  rw [List.filterMap_cons]
  by_cases same : a.1 = t
  · rw [if_pos same, if_pos same]
    cases a.2.pushed <;> rfl
  · rw [if_neg same, if_neg same]
    rfl

namespace TraceFile

/-- The entries that were published by a thread. -/
def publishedBy [DecidableEq τ] (f : TraceFile τ ι α φ) (t : τ) : List α :=
  (f.published.filter fun e => e.1 = t).map Prod.snd

/-- The entry of a call of push that has not published it yet. -/
def begun (f : TraceFile τ ι α φ) (t : τ) : List α :=
  match f.threads t with
  | .allocating data _ => [data]
  | .publishing p => ((f.nodes p).map Cell.data).toList
  | _ => []

/-- A try_lock fails for no reason, or as the owner of the mutex is about to leave. -/
def misses (f : TraceFile τ ι α φ) (a : τ × Action ι α) : Bool :=
  match a.2 with
  | .tryLock true => true
  | .tryLock false =>
      match f.m with
      | some (u, _) => (f.threads u).leaves
      | none => false
  | _ => false

/-- While there are entries on the stack, a thread is going to take them. -/
def Attended (f : TraceFile τ ι α φ) : Prop :=
  f.head ≠ none → ∃ t, (f.threads t).attends = true

section Rest
variable {onTrace : φ → α → Except φ φ} {start : φ} {f : TraceFile τ ι α φ}

/-- What the published entries are when no thread is inside of the mutex. -/
theorem Consistent.at_rest (h : f.Consistent onTrace start) (free : f.m = none)
    (empty : f.head = none)
    (writable : f.Writable onTrace) :
    f.s = (f.published.map Prod.snd).foldl (emit onTrace) start := by
  obtain ⟨cells, queue, handled, written, layout, order⟩ := h
  have stack := layout.stack
  rw [empty] at stack
  rw [order.file, order.published, free, stack.of_null, (order.complete writable).1]
  simp

/-- When all threads are out and nothing is left on the stack, all nodes have been freed. -/
theorem Consistent.all_free (h : f.Consistent onTrace start) (idle : ∀ t, f.threads t = .idle)
    (empty : f.head = none) (writable : f.Writable onTrace) (i : ι) :
    f.nodes i = none := by
  obtain ⟨cells, queue, handled, written, layout, order⟩ := h
  by_contra live
  obtain ⟨o, member⟩ := (layout.partition.live i).mp live
  cases o with
  | stack =>
      have stack := layout.stack
      rw [empty] at stack
      rw [stack.of_null] at member
      cases member
  | thread t =>
      have held := layout.held t
      rw [idle t] at held
      rw [held.1] at member
      cases member
  | lost =>
      rw [(order.complete writable).2] at member
      cases member

theorem Consistent.unlocked (h : f.Consistent onTrace start) (idle : ∀ t, f.threads t = .idle) :
    f.m = none := by
  obtain ⟨cells, queue, handled, written, layout, -⟩ := h
  cases owner : f.m with
  | none => rfl
  | some held =>
      obtain ⟨positive, deep⟩ := layout.mutex.depth held.1 held.2 owner
      rw [idle] at deep
      exact absurd positive (deep ▸ Nat.lt_irrefl 0)

theorem Attended.empty (h : f.Attended) (idle : ∀ t, f.threads t = .idle) : f.head = none := by
  by_contra waiting
  obtain ⟨t, attends⟩ := h waiting
  rw [idle t] at attends
  cases attends

theorem Writable.earlier {f' : TraceFile τ ι α φ} (h : f'.Writable onTrace)
    (before : f.published <+: f'.published) :
    f.Writable onTrace := fun e member => h e (before.subset member)

end Rest

section Steps
variable [DecidableEq τ] [DecidableEq ι] {onTrace : φ → α → Except φ φ} {start : φ}
variable {f f' : TraceFile τ ι α φ} {t : τ} {a : Action ι α}

theorem consistent_move (h : f.Consistent onTrace start) (move : Move onTrace f t a f') :
    f'.Consistent onTrace start := by
  cases move with
  | push x here =>
      exact consistent_outside h (by rw [here]; rfl) rfl fun cells held => by
        rw [here] at held
        exact held
  | destroy here =>
      exact consistent_outside h (by rw [here]; rfl) rfl fun cells held => by
        rw [here] at held
        exact held
  | allocate x next p here free => exact consistent_allocate h here free
  | publish p node here cell same => exact consistent_publish h here cell same
  | retry p spurious node here cell => exact consistent_retry h here cell
  | skip spurious here missed =>
      exact consistent_outside h (by rw [here]; rfl) rfl fun cells held => by
        rw [here] at held
        exact held
  | enter m here locked =>
      have out : (f.threads t).depth = 0 := by rw [here]; rfl
      refine consistent_mutex h (fun mutex => ?_) ?_ ⟨rfl, rfl⟩
      · obtain ⟨owned, held⟩ := mutex.lock locked
        rw [out] at owned held
        refine ⟨held, fun queue none => ?_⟩
        rw [owned, mutex.free_of_lock out locked]
        exact none
      · intro cells q held
        rw [here] at held
        exact held
  | guard m here locked =>
      have once : (f.threads t).depth = 1 := by rw [here]; rfl
      refine consistent_mutex h (fun mutex => ?_) ?_ ⟨rfl, rfl⟩
      · obtain ⟨owned, held⟩ := mutex.lock locked
        rw [once] at owned held
        refine ⟨held, fun queue _ => ?_⟩
        rw [owned, mutex.owner t (by omega)]
        rfl
      · intro cells q held
        rw [here] at held
        exact held
  | release here =>
      have twice : (f.threads t).depth = 2 := by rw [here]; rfl
      refine consistent_mutex h (fun mutex => ?_) ?_ ⟨rfl, rfl⟩
      · have released := mutex.unlock (t := t) (by omega)
        rw [twice] at released
        refine ⟨released, fun queue _ => ?_⟩
        rw [mutex.owner t (by omega), twice]
        rfl
      · intro cells q held
        rw [here] at held
        exact held
  | load here =>
      exact consistent_inside h (by rw [here]; rfl) fun cells q held => by
        rw [here] at held
        exact held
  | empty here =>
      have once : (f.threads t).depth = 1 := by rw [here]; rfl
      refine consistent_mutex h (fun mutex => ?_) ?_ ⟨rfl, rfl⟩
      · have released := mutex.unlock (t := t) (by omega)
        rw [once] at released
        refine ⟨released, fun queue none => ?_⟩
        rw [mutex.owner t (by omega), once]
        exact none.symm
      · intro cells q held
        rw [here] at held
        exact held
  | take p here same => exact consistent_take h here same
  | reload p spurious here =>
      exact consistent_inside h (by rw [here]; rfl) fun cells q held => by
        rw [here] at held
        exact held
  | turn prev p node here cell => exact consistent_turn h here cell
  | turned prev here =>
      refine consistent_inside h (by rw [here]; rfl) fun cells q held => ?_
      rw [here] at held
      obtain ⟨done, rest, rfl, front, back, rfl⟩ := held
      cases back.of_null
      exact ⟨by rwa [List.append_nil], by simp⟩
  | write p node s here cell traced => exact consistent_write h here cell traced
  | throw p node s here cell thrown => exact consistent_throw h here cell thrown
  | finish here =>
      have once : (f.threads t).depth = 1 := by rw [here]; rfl
      refine consistent_mutex h (fun mutex => ?_) ?_ ⟨rfl, rfl⟩
      · have released := mutex.unlock (t := t) (by omega)
        rw [once] at released
        refine ⟨released, fun queue none => ?_⟩
        rw [mutex.owner t (by omega), once]
        exact none.symm
      · intro cells q held
        rw [here] at held
        obtain ⟨chain, rfl⟩ := held
        cases chain.of_null
        exact ⟨rfl, rfl⟩
  | delete p node here cell => exact consistent_delete h here cell
  | fault a p here absent =>
      obtain ⟨cells, queue, handled, written, layout, -⟩ := h
      exact absurd absent (layout.no_fault here)

theorem keeps_consistent :
    Transition.Keeps (step onTrace) (fun _ _ => True)
      fun f : TraceFile τ ι α φ => f.Consistent onTrace start := by
  intro f a f' h _ next
  exact consistent_move h (step_move next)

/-- A step of one thread is none of the others. -/
theorem move_others {cells : Owner τ → Cells ι α} {queue : τ → List α} {u : τ}
    (layout : f.Layout cells queue) (move : Move onTrace f t a f') (other : u ≠ t) :
    f'.threads u = f.threads u ∧ f'.publishedBy u = f.publishedBy u ∧
      ∀ i ∈ (cells (.thread u)).addresses, f'.nodes i = f.nodes i := by
  have elsewhere {p i : ι} {c : Option (Cell ι α)} (mine : (f.threads t).reads = some p)
      (member : i ∈ (cells (.thread u)).addresses) :
      Function.update f.nodes p c i = f.nodes i := by
    have owned := ((layout.held t).reads mine).1
    exact Function.update_of_ne
      (ne_of_mem_of_not_mem member (layout.partition.outside owned (by simp [other]))) _ _
  have on (c : Control ι α) : Function.update f.threads t c u = f.threads u :=
    Function.update_of_ne other _ _
  cases move with
  | push | destroy | skip | enter | guard | release | load | empty | take | reload | turned | write
  | throw | finish => exact ⟨on _, rfl, fun _ _ => rfl⟩
  | allocate x next p here free =>
      refine ⟨on _, rfl, fun i member => ?_⟩
      exact Function.update_of_ne (ne_of_mem_of_not_mem member (layout.partition.fresh free _)) _ _
  | publish p node here cell same =>
      refine ⟨on _, ?_, fun _ _ => rfl⟩
      simp [publishedBy, goto, other.symm]
  | retry p spurious node here cell =>
      exact ⟨rfl, rfl, fun i member => elsewhere (by rw [here]; rfl) member⟩
  | turn prev p node here cell =>
      exact ⟨on _, rfl, fun i member => elsewhere (by rw [here]; rfl) member⟩
  | delete p node here cell =>
      exact ⟨on _, rfl, fun i member => elsewhere (by rw [here]; rfl) member⟩
  | fault p here absent => exact ⟨rfl, rfl, fun _ _ => rfl⟩

/-- Each call of push publishes its entry once, before the next call of the thread. -/
theorem program_move (h : f.Consistent onTrace start) (move : Move onTrace f t a f') (u : τ) :
    f'.publishedBy u ++ f'.begun u =
      f.publishedBy u ++ f.begun u ++ if t = u then a.pushed.toList else [] := by
  obtain ⟨cells, queue, handled, written, layout, -⟩ := h
  by_cases same : t = u
  · subst same
    rw [if_pos rfl]
    have on (c : Control ι α) : Function.update f.threads t c t = c := Function.update_self ..
    cases move with
    | push x here => simp [begun, publishedBy, goto, here, Action.pushed]
    | destroy here | skip _ here _ | enter _ here _ | guard _ here _ | release here | load here
    | empty here | take _ here _ | reload _ _ here | turn _ _ _ here _ | turned _ here
    | write _ _ _ here _ _ | throw _ _ _ here _ _ | finish here | delete _ _ here _ =>
        simp [begun, publishedBy, goto, store, here, Action.pushed]
    | allocate x next p here free =>
        simp [begun, publishedBy, goto, store, here, Action.pushed]
    | publish p node here cell same =>
        simp [begun, publishedBy, goto, here, cell, Action.pushed]
    | retry p spurious node here cell =>
        simp [begun, publishedBy, store, here, cell, Action.pushed]
    | fault a p here absent => exact absurd absent (layout.no_fault here)
  · obtain ⟨threads, published, nodes⟩ := move_others layout move (Ne.symm same)
    rw [if_neg same, List.append_nil, published]
    congr 1
    unfold begun
    rw [threads]
    have held := layout.held u
    cases here : f.threads u with
    | publishing p =>
        rw [here] at held
        dsimp only
        rw [nodes p (held.reads rfl).1]
    | idle | allocating _ _ | working | tried | guarded | locked | loaded _ | reversing _ _
    | writing _ | written _ => rfl

/-- A thread that looked at the stack while there was something on it attends to it. -/
theorem attended_move (consistent : f.Consistent onTrace start) (writable : f.Writable onTrace)
    (h : f.Attended) (attentive : f.misses (t, a) = false)
    (move : Move onTrace f t a f') : f'.Attended := by
  obtain ⟨cells, queue, handled, written, layout, order⟩ := consistent
  have moved {f' : TraceFile τ ι α φ} {c : Control ι α}
      (threads : f'.threads = Function.update f.threads t c) (attends : c.attends = true) :
      f'.Attended := fun _ => ⟨t, by rw [threads, Function.update_self]; exact attends⟩
  have left {c : Control ι α} (away : (f.threads t).attends = false) {f' : TraceFile τ ι α φ}
      (threads : f'.threads = Function.update f.threads t c) (head : f'.head = f.head) :
      f'.Attended := by
    intro waiting
    obtain ⟨u, attends⟩ := h (head ▸ waiting)
    refine ⟨u, ?_⟩
    rw [threads, Function.update_of_ne]
    · exact attends
    · rintro rfl
      rw [away] at attends
      cases attends
  have looked : (f.goto t (.loaded f.head)).Attended := by
    intro waiting
    cases head : f.head with
    | none => exact absurd head waiting
    | some p => exact moved (c := .loaded (some p)) (by rw [← head]; rfl) rfl waiting
  cases move with
  | destroy | enter | guard | release | take | turn | turned | write | finish | delete | publish =>
      exact moved rfl rfl
  | push x here => exact left (by rw [here]; rfl) rfl rfl
  | allocate x next p here free => exact left (by rw [here]; rfl) rfl rfl
  | retry p spurious node here cell => exact h
  | load here => exact looked
  | reload p spurious here => exact looked
  | empty here => exact left (by rw [here]; rfl) rfl rfl
  | throw p node s here cell thrown =>
      obtain ⟨e, published, same⟩ := order.of_writing layout here cell
      obtain ⟨s', fine⟩ := writable e published f.s
      rw [same] at fine
      cases thrown.symm.trans fine
  | fault a p here absent => exact absurd absent (layout.no_fault here)
  | skip spurious here missed =>
      rcases missed with rfl | failed
      · cases attentive
      · cases spurious with
        | true => cases attentive
        | false =>
            intro _
            simp only [misses] at attentive
            cases owner : f.m with
            | none =>
                rw [owner] at failed
                cases failed
            | some held =>
                obtain ⟨u, n⟩ := held
                rw [owner] at attentive failed
                obtain ⟨positive, deep⟩ := layout.mutex.depth u n owner
                have other : u ≠ t := by
                  rintro rfl
                  simp [Mutex.lock] at failed
                refine ⟨u, ?_⟩
                simp only [goto, Function.update_of_ne other]
                exact Control.attends_of_depth (by omega) attentive

/-- A step only adds to the published entries. -/
theorem published_move (move : Move onTrace f t a f') : f.published <+: f'.published := by
  cases move with
  | publish p node here cell same => exact List.prefix_append _ _
  | push | destroy | allocate | retry | skip | enter | guard | release | load | empty | take
  | reload | turn | turned | write | throw | finish | delete | fault => exact List.prefix_rfl

end Steps

section Runs
variable [DecidableEq τ] [DecidableEq ι] {onTrace : φ → α → Except φ φ} {start : φ}
variable {f f' : TraceFile τ ι α φ} {acts more : List (τ × Action ι α)}

theorem consistent_run (ran : Transition.run (step onTrace) (create τ ι α start) acts = some f) :
    f.Consistent onTrace start :=
  keeps_consistent.run (consistent_create onTrace start) (Transition.along_true acts) ran

theorem published_run (ran : Transition.run (step onTrace) f acts = some f') :
    f.published <+: f'.published := by
  refine Transition.Keeps.run (P := fun _ _ => True) (I := fun g => f.published <+: g.published)
    (fun g a g' before _ next => ?_) List.prefix_rfl (Transition.along_true acts) ran
  exact before.trans (published_move (step_move next))

theorem program_run (h : f.Consistent onTrace start)
    (ran : Transition.run (step onTrace) f acts = some f') (t : τ) :
    f'.publishedBy t ++ f'.begun t = f.publishedBy t ++ f.begun t ++ pushes t acts := by
  induction acts generalizing f with
  | nil =>
      cases ran
      simp [pushes]
  | cons a acts ih =>
      obtain ⟨g, first, rest⟩ := Transition.run_cons ran
      have move := step_move first
      rw [ih (consistent_move h move) rest, program_move h move, pushes_cons, List.append_assoc]

/-- Each entry of the file is one of those that were pushed, in an order that agrees with
the calls of each thread and with which call returned before which was made. -/
theorem file_linearized (first : Transition.run (step onTrace) (create τ ι α start) acts = some f)
    (rest : Transition.run (step onTrace) f more = some f') :
    f.published <+: f'.published ∧
      (∀ t, f'.threads t = .idle → f'.publishedBy t = pushes t (acts ++ more)) ∧
      ∃ handled pending written, f'.published.map Prod.snd = handled ++ pending ∧
        written.Sublist handled ∧ f'.s = written.foldl (emit onTrace) start ∧
        (f'.Writable onTrace → written = handled) ∧
        (f'.head = none → f'.m = none → pending = []) := by
  have ran := Transition.run_append first rest
  have consistent := consistent_run ran
  refine ⟨published_run rest, fun t idle => ?_, ?_⟩
  · have program := program_run (consistent_create onTrace start) ran t
    have none : f'.begun t = [] := by
      unfold begun
      rw [idle]
    rw [none, List.append_nil] at program
    exact program
  · obtain ⟨cells, queue, handled, written, layout, order⟩ := consistent
    refine ⟨handled, hand f'.m queue ++ (cells .stack).contents.reverse, written, ?_,
      order.sublist, order.file, fun writable => (order.complete writable).1, fun empty free => ?_⟩
    · rw [order.published, List.append_assoc]
    · have stack := layout.stack
      rw [empty] at stack
      rw [free, stack.of_null]
      rfl

/-- No thread reads or frees a node that is gone, wherever the nodes were allocated, and
none is left when the threads are out and the stack is empty. -/
theorem memory_safe (ran : Transition.run (step onTrace) (create τ ι α start) acts = some f) :
    f.fault = false ∧
      (f.Writable onTrace → (∀ t, f.threads t = .idle) → f.head = none →
        ∀ i, f.nodes i = none) := by
  have consistent := consistent_run ran
  refine ⟨?_, fun writable idle empty i => consistent.all_free idle empty writable i⟩
  obtain ⟨cells, queue, handled, written, layout, -⟩ := consistent
  exact layout.sound

theorem attended_run (consistent : f.Consistent onTrace start) (attended : f.Attended)
    (attentive : Transition.Along (step onTrace) (fun g a => g.misses a = false) f acts)
    (ran : Transition.run (step onTrace) f acts = some f') (writable : f'.Writable onTrace) :
    f'.Attended := by
  induction acts generalizing f with
  | nil =>
      cases ran
      exact attended
  | cons a acts ih =>
      obtain ⟨g, first, rest⟩ := Transition.run_cons ran
      have move := step_move first
      have before := (published_move move).trans (published_run rest)
      exact ih (consistent_move consistent move)
        (attended_move consistent (writable.earlier before) attended attentive.1 move)
        (attentive.2 g first) rest

/-- What holds while one thread is left, in the destructor. -/
structure Alone (onTrace : φ → α → Except φ φ) (start : φ) (t : τ)
    (f : TraceFile τ ι α φ) : Prop where
  consistent : f.Consistent onTrace start
  attended : f.Writable onTrace → f.Attended
  others : ∀ u, u ≠ t → f.threads u = .idle

theorem Alone.attentive {t : τ} {a : Action ι α} (h : f.Alone onTrace start t)
    (strong : a ≠ .tryLock true) (next : step onTrace f (t, a) = some f') :
    f.misses (t, a) = false := by
  cases a with
  | tryLock spurious =>
      cases spurious with
      | true => exact absurd rfl strong
      | false =>
          have outside : (f.threads t).depth = 0 := by
            cases here : f.threads t with
            | loaded p => cases p <;> simp [step, here] at next
            | reversing prev p => cases p <;> simp [step, here] at next
            | writing p => cases p <;> simp [step, here] at next
            | tried | guarded | locked | written p => simp [step, here] at next
            | idle | allocating _ _ | publishing _ | working => rfl
          obtain ⟨cells, queue, handled, written, layout, -⟩ := h.consistent
          simp only [misses]
          split
          · next u n owner =>
            obtain ⟨positive, deep⟩ := layout.mutex.depth u n owner
            by_cases same : u = t
            · subst same
              omega
            · rw [h.others u same]
              rfl
          · rfl
  | push | destroy | allocate | exchange | advance => rfl

theorem keeps_alone (t : τ) :
    Transition.Keeps (step onTrace) (fun _ a => a.1 = t ∧ a.2.pushed = none ∧ a.2 ≠ .tryLock true)
      fun f : TraceFile τ ι α φ => f.Alone onTrace start t := by
  rintro f ⟨u, a⟩ f' h ⟨rfl, -, strong⟩ next
  have move := step_move next
  have attentive := h.attentive strong next
  obtain ⟨cells, queue, handled, written, layout, -⟩ := h.consistent
  refine ⟨consistent_move h.consistent move, fun writable => ?_, fun u other => ?_⟩
  · have before := writable.earlier (published_move move)
    exact attended_move h.consistent before (h.attended before) attentive move
  · rw [(move_others layout move other).1, h.others u other]

/-- A run without calls of push that begins and ends at rest publishes nothing. -/
theorem published_same (consistent : f.Consistent onTrace start)
    (quiet : ∀ a ∈ acts, a.2.pushed = none)
    (ran : Transition.run (step onTrace) f acts = some f') (idle : ∀ t, f.threads t = .idle)
    (idle' : ∀ t, f'.threads t = .idle) : f'.published = f.published := by
  obtain ⟨extra, grown⟩ := published_run ran
  have none : extra = [] := by
    rw [List.eq_nil_iff_forall_not_mem]
    intro e member
    have program := program_run consistent ran e.1
    have none : pushes e.1 acts = [] := by
      refine List.filterMap_eq_nil_iff.mpr fun a among => ?_
      rw [quiet a among]
      split <;> rfl
    have before : f.begun e.1 = [] := by
      unfold begun
      rw [idle]
    have after : f'.begun e.1 = [] := by
      unfold begun
      rw [idle']
    rw [none, before, after, publishedBy, ← grown] at program
    simp only [List.filter_append, List.map_append, publishedBy, List.append_nil,
      List.append_right_eq_self, List.map_eq_nil_iff, List.filter_eq_nil_iff] at program
    exact program e member (decide_eq_true rfl)
  rw [← grown, none, List.append_nil]

end Runs

section Example

/-- A writer that keeps the entries. -/
def keepEntry (s : List Nat) (x : Nat) : Except (List Nat) (List Nat) := .ok (s ++ [x])

theorem writable_keepEntry (f : TraceFile Bool Nat Nat (List Nat)) : f.Writable keepEntry :=
  fun _ _ _ => ⟨_, rfl⟩

/-- A thread writes out a stack of the given size, and leaves. -/
def drains {α : Type} (t : Bool) (size : Nat) : List (Bool × Action Nat α) :=
  (t, Action.tryLock false) :: List.replicate 3 (t, Action.advance) ++
    (t, Action.exchange false) :: List.replicate (3 * size + 2) (t, Action.advance) ++
    (t, Action.tryLock false) :: List.replicate 4 (t, Action.advance)

/-- The second thread finds the head that it has read long ago, but it is another node. -/
def reuses : List (Bool × Action Nat Nat) :=
  [(false, Action.push 7), (false, .allocate 1), (false, .exchange false), (true, .push 8)] ++
    drains false 1 ++
  [(false, Action.push 9), (false, .allocate 1), (false, .exchange false), (true, .allocate 2),
    (true, .exchange false), (true, .tryLock false), (false, .tryLock false)] ++
    (drains true 2).tail

theorem reuses_checked :
    ((Transition.run (step keepEntry) (create Bool Nat Nat []) reuses).any fun f =>
      decide ((∀ t, f.threads t = .idle) ∧ f.head = none ∧ f.m = none ∧ f.s = [7, 9, 8] ∧
        f.published = [(false, 7), (false, 9), (true, 8)])) = true := by
  decide +kernel

theorem file_linearized_reuse : ∃ f : TraceFile Bool Nat Nat (List Nat),
    Transition.run (step keepEntry) (create Bool Nat Nat []) reuses = some f ∧
      f.publishedBy false = [7, 9] ∧ f.publishedBy true = [8] ∧ f.s = [7, 9, 8] := by
  obtain ⟨f, ran, checked⟩ := (Option.any_eq_true _ _).mp reuses_checked
  rw [decide_eq_true_eq] at checked
  obtain ⟨idle, -, -, file, -⟩ := checked
  obtain ⟨-, program, -⟩ :=
    file_linearized ran (rfl : Transition.run (step keepEntry) f [] = some f)
  exact ⟨f, ran, program false (idle false), program true (idle true), file⟩

theorem memory_safe_reuse : ∃ f : TraceFile Bool Nat Nat (List Nat),
    Transition.run (step keepEntry) (create Bool Nat Nat []) reuses = some f ∧
      f.fault = false ∧ ∀ i, f.nodes i = none := by
  obtain ⟨f, ran, checked⟩ := (Option.any_eq_true _ _).mp reuses_checked
  rw [decide_eq_true_eq] at checked
  obtain ⟨idle, empty, -⟩ := checked
  obtain ⟨sound, freed⟩ := memory_safe ran
  exact ⟨f, ran, sound, freed (writable_keepEntry f) idle empty⟩

/-- The second thread finds the mutex taken by one that has seen the end of the stack. -/
def leavesBehind : List (Bool × Action Nat Nat) :=
  [(true, Action.push 5), (true, .allocate 1), (true, .exchange false)] ++
    (drains true 1).dropLast ++
  [(false, Action.push 7), (false, .allocate 2), (false, .exchange false), (false, .tryLock false),
    (true, .advance)]

end Example

end TraceFile

end Thespian.Trace
