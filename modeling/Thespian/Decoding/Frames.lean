import Thespian.Decoding.Basic

/-!
Framing of a stream. A receiver buffers what has arrived and delivers the frames
that are complete. If one chunk keeps it so, then how a stream is cut into chunks
does not matter: at any time the frames delivered are those that have arrived
completely, and the buffer holds the beginning of the next one. Taking items off
the buffer with a stable decoder until it throws is the common way to deliver
what is complete.
-/

namespace Decoding
namespace Decoder

variable {ε τ α β σ : Type}

/-- Take up to the given number of frames off the input. -/
def drainN (d : Decoder ε τ α) : Nat → List τ → List α × List τ
  | 0, s => ([], s)
  | n + 1, s =>
      match d s with
      | .error _ => ([], s)
      | .ok (a, r) => (a :: (drainN d n r).1, (drainN d n r).2)

/-- Take frames off the input until the decoder throws. -/
def drain (d : Decoder ε τ α) (s : List τ) : List α × List τ := drainN d s.length s

section Drain
variable {d : Decoder ε τ α}

/-- The bound does not matter once it covers the input. -/
theorem drainN_agree (advances : Advances d) (m n : Nat) (s : List τ) (hm : s.length ≤ m)
    (hn : s.length ≤ n) : drainN d m s = drainN d n s := by
  induction m generalizing n s with
  | zero =>
      have empty : s = [] := List.length_eq_zero_iff.mp (Nat.le_zero.mp hm)
      subst empty
      cases n with
      | zero => rfl
      | succ n =>
          rw [drainN, drainN]
          cases hd : d [] with
          | error e => rfl
          | ok p => exact absurd (advances [] p.1 p.2 hd) (by simp)
  | succ m ih =>
      cases hd : d s with
      | error e => cases n <;> simp [drainN, hd]
      | ok p =>
          have shorter := advances s p.1 p.2 hd
          obtain ⟨n, rfl⟩ : ∃ k, n = k + 1 := ⟨n - 1, by omega⟩
          simp only [drainN, hd, ih n p.2 (by omega) (by omega)]

theorem drain_of_error {s : List τ} {e : ε} (h : d s = .error e) : drain d s = ([], s) := by
  rw [drain]
  cases s.length <;> simp [drainN, h]

theorem drain_of_ok (advances : Advances d) {s r : List τ} {a : α} (h : d s = .ok (a, r)) :
    drain d s = (a :: (drain d r).1, (drain d r).2) := by
  have shorter := advances s a r h
  obtain ⟨n, hn⟩ : ∃ k, s.length = k + 1 := ⟨s.length - 1, by omega⟩
  have rest : drainN d n r = drain d r := drainN_agree advances n r.length r (by omega) (by omega)
  rw [drain, hn, drainN, h]
  simp only [rest]

/-- Input that comes in two parts: what the first leaves is in front of the second. -/
theorem drain_append (stable : Stable d) (advances : Advances d) (s t : List τ) :
    drain d (s ++ t) = ((drain d s).1 ++ (drain d ((drain d s).2 ++ t)).1,
      (drain d ((drain d s).2 ++ t)).2) := by
  generalize hn : s.length = n
  induction n using Nat.strongRecOn generalizing s with
  | _ n ih =>
      cases hd : d s with
      | error e => rw [drain_of_error hd, List.nil_append]
      | ok p =>
          have shorter := advances s p.1 p.2 hd
          rw [drain_of_ok advances (stable s p.1 p.2 hd t), drain_of_ok advances hd,
            ih p.2.length (by omega) p.2 rfl]
          rfl

/-- What is left is no complete frame. -/
theorem drain_stops (advances : Advances d) (s : List τ) : ∃ e, d (drain d s).2 = .error e := by
  generalize hn : s.length = n
  induction n using Nat.strongRecOn generalizing s with
  | _ n ih =>
      cases hd : d s with
      | error e =>
          rw [drain_of_error hd]
          exact ⟨e, hd⟩
      | ok p =>
          have shorter := advances s p.1 p.2 hd
          rw [drain_of_ok advances hd]
          exact ih p.2.length (by omega) p.2 rfl

end Drain

/-- A frame on the wire together with the message it carries. -/
abbrev Frame (τ β : Type) := List τ × β

/-- The tokens of a sequence of frames. -/
def wire (frames : List (Frame τ β)) : List τ := (frames.map Prod.fst).flatten

/-- What is buffered is only the beginning of the next frame. -/
def Incomplete (frames : List (Frame τ β)) (buffered : List τ) : Prop :=
  ∀ f ∈ frames.head?, buffered.length < f.1.length

theorem wire_cons (f : Frame τ β) (frames : List (Frame τ β)) :
    wire (f :: frames) = f.1 ++ wire frames := by
  simp [wire]

/-- Of a beginning of the stream, the first frame is missing, incomplete or whole. -/
theorem wire_cases {frames : List (Frame τ β)} {s later : List τ}
    (arrived : s ++ later = wire frames) :
    (frames = [] ∧ s = []) ∨
    (∃ f rest, frames = f :: rest ∧ s.length < f.1.length ∧ s <+: f.1 ∧ s ≠ f.1) ∨
    (∃ f rest t, frames = f :: rest ∧ s = f.1 ++ t ∧ t ++ later = wire rest) := by
  cases frames with
  | nil => exact .inl ⟨rfl, (List.append_eq_nil_iff.mp arrived).1⟩
  | cons f frames =>
      rw [wire_cons] at arrived
      by_cases short : s.length < f.1.length
      · refine .inr (.inl ⟨f, frames, rfl, short, ?_, fun same => by simp [same] at short⟩)
        exact List.prefix_of_prefix_length_le ⟨later, arrived⟩ (List.prefix_append _ _)
          (Nat.le_of_lt short)
      · obtain ⟨t, rfl⟩ : f.1 <+: s :=
          List.prefix_of_prefix_length_le (List.prefix_append _ _) ⟨later, arrived⟩ (by omega)
        rw [List.append_assoc] at arrived
        exact .inr (.inr ⟨f, frames, t, rfl, rfl, List.append_cancel_left arrived⟩)

theorem incomplete_of_length {f : Frame τ β} {s : List τ} (short : s.length < f.1.length)
    (rest : List (Frame τ β)) : Incomplete (f :: rest) s := by
  intro g hg
  cases hg
  exact short

/-- Nothing incomplete is left of a stream that has arrived as a whole. -/
theorem Incomplete.done {rest : List (Frame τ β)} {tail : List τ} (h : Incomplete rest tail)
    (all : tail = wire rest) : rest = [] ∧ tail = [] := by
  cases rest with
  | nil => exact ⟨rfl, all⟩
  | cons f rest =>
      have short := h f rfl
      rw [all, wire_cons, List.length_append] at short
      omega

/-- Taking items off a beginning of a stream of frames takes the complete ones. -/
theorem drain_wire {d : Decoder ε τ α} (stable : Stable d) (advances : Advances d)
    (frames : List (Frame τ α)) (reads : ∀ f ∈ frames, Reads d f.1 f.2) {s later : List τ}
    (arrived : s ++ later = wire frames) :
    ∃ done rest tail, frames = done ++ rest ∧ drain d s = (done.map Prod.snd, tail) ∧
      tail ++ later = wire rest ∧ Incomplete rest tail := by
  induction frames generalizing s with
  | nil =>
      have empty : s = [] := (List.append_eq_nil_iff.mp arrived).1
      subst empty
      exact ⟨[], [], [], rfl, rfl, arrived, by simp [Incomplete]⟩
  | cons f frames ih =>
      have exact := reads f (by simp)
      rcases wire_cases arrived with ⟨none, -⟩ | ⟨g, rest, same, short, start, proper⟩ |
        ⟨g, rest, t, same, rfl, arrived⟩
      · cases none
      · cases same
        obtain ⟨e, he⟩ := stable.throws_on_proper exact start proper
        exact ⟨[], f :: frames, s, rfl, drain_of_error he, arrived, incomplete_of_length short _⟩
      · cases same
        obtain ⟨done, rest, tail, split, drained, left, incomplete⟩ :=
          ih (fun g hg => reads g (by simp [hg])) arrived
        refine ⟨f :: done, rest, tail, by simp [split], ?_, left, incomplete⟩
        rw [drain_of_ok advances (exact t), drained]
        rfl

section Receiver
variable {ε' : Type}

/-- Feed chunks to a receiver one after another, collecting what it delivers. -/
def feedAll (feed : σ → List τ → Except ε' (σ × List β)) :
    σ → List (List τ) → Except ε' (σ × List β)
  | s, [] => .ok (s, [])
  | s, chunk :: chunks => do
      let (s, delivered) ← feed s chunk
      let (s, more) ← feedAll feed s chunks
      return (s, delivered ++ more)

/-- Fed one more chunk of a stream of frames, the receiver delivers the messages
of those that are complete now and keeps the beginning of the next. -/
structure Receives (feed : σ → List τ → Except ε' (σ × List β)) (buffered : σ → List τ)
    (Inv : σ → Prop) (Admissible : List τ → Prop) (IsFrame : List τ → β → Prop) : Prop where
  step : ∀ s chunk later frames, Inv s → Admissible chunk →
    (∀ f ∈ frames, IsFrame f.1 f.2) → buffered s ++ (chunk ++ later) = wire frames →
    Incomplete frames (buffered s) →
    ∃ s' done rest, frames = done ++ rest ∧ feed s chunk = .ok (s', done.map Prod.snd) ∧
      Inv s' ∧ buffered s' ++ later = wire rest ∧ Incomplete rest (buffered s')

variable {feed : σ → List τ → Except ε' (σ × List β)} {buffered : σ → List τ}
  {Inv : σ → Prop} {Admissible : List τ → Prop} {IsFrame : List τ → β → Prop}

/-- Over any chunks, every frame that has arrived completely has been delivered,
in order and once. -/
theorem Receives.all (receiver : Receives feed buffered Inv Admissible IsFrame)
    (chunks : List (List τ)) (admissible : ∀ chunk ∈ chunks, Admissible chunk)
    (frames : List (Frame τ β)) (isFrame : ∀ f ∈ frames, IsFrame f.1 f.2) (s : σ) (inv : Inv s)
    (later : List τ) (arrived : buffered s ++ (chunks.flatten ++ later) = wire frames)
    (incomplete : Incomplete frames (buffered s)) :
    ∃ s' done rest, frames = done ++ rest ∧
      feedAll feed s chunks = .ok (s', done.map Prod.snd) ∧ Inv s' ∧
      buffered s' ++ later = wire rest ∧ Incomplete rest (buffered s') := by
  induction chunks generalizing s frames with
  | nil => exact ⟨s, [], frames, rfl, rfl, inv, by simpa using arrived, incomplete⟩
  | cons chunk chunks ih =>
      rw [List.flatten_cons, List.append_assoc] at arrived
      obtain ⟨t, done, rest, rfl, fed, inv', left, short⟩ :=
        receiver.step s chunk _ frames inv (admissible chunk (by simp)) isFrame arrived incomplete
      obtain ⟨s', more, last, rfl, run, inv'', left', short'⟩ :=
        ih (fun c hc => admissible c (by simp [hc])) rest (fun f hf => isFrame f (by simp [hf]))
          t inv' left short
      refine ⟨s', done ++ more, last, by rw [List.append_assoc], ?_, inv'', left', short'⟩
      rw [feedAll, fed]
      simp only [bind, Except.bind, run, List.map_append]
      rfl

/-- Fed the whole stream, the receiver has delivered every message. -/
theorem Receives.whole (receiver : Receives feed buffered Inv Admissible IsFrame)
    (chunks : List (List τ)) (admissible : ∀ chunk ∈ chunks, Admissible chunk)
    (frames : List (Frame τ β)) (isFrame : ∀ f ∈ frames, IsFrame f.1 f.2) (s : σ) (inv : Inv s)
    (arrived : buffered s ++ chunks.flatten = wire frames)
    (incomplete : Incomplete frames (buffered s)) :
    ∃ s', feedAll feed s chunks = .ok (s', frames.map Prod.snd) ∧ Inv s' ∧ buffered s' = [] := by
  obtain ⟨s', done, rest, rfl, run, inv', left, short⟩ :=
    receiver.all chunks admissible frames isFrame s inv [] (by simpa using arrived) incomplete
  rw [List.append_nil] at left
  obtain ⟨rfl, empty⟩ := short.done left
  exact ⟨s', by simpa using run, inv', empty⟩

end Receiver
end Decoder
end Decoding
