/-
# Reading a stream as a plain computation

A computation that rebuilds an object while it reads bytes has two parts that can
be told apart once the bytes are known to be an encoding: what is read, and what
is done with it.

* `onFirst m` : the computation `m` on the object, the unread bytes left alone;
* `zoom part put m` : `m` on a part of the object, put back whatever the outcome;
* `Reads m bs plain` : in front of the bytes `bs` the computation `m` has the
  outcome of `plain` and leaves the object that `plain` leaves, and when it
  succeeds it has read exactly `bs`.

There is one rule for each way of building a computation, so that the plain form
of a restore is assembled from those of its steps.
-/
import ElephantFlow.Fallible

open ByteCodec

namespace Fallible

variable {ε σ τ α β κ : Type} {a : α} {m : Fallible ε (σ × Bytes) α} {plain : Fallible ε σ α}
  {f : α → Fallible ε (σ × Bytes) β} {next : α → Fallible ε σ β}

/-- Run a computation on the object, and leave the unread bytes alone. -/
def onFirst (m : Fallible ε σ α) : Fallible ε (σ × Bytes) α := fun s =>
  ((m s.1).1, ((m s.1).2, s.2))

/-- Run a computation on a part of the object and put the part back, whatever the outcome. -/
def zoom (part : σ → τ) (put : σ → τ → σ) (m : Fallible ε τ α) : Fallible ε σ α := fun s =>
  ((m (part s)).1, put s (m (part s)).2)

theorem decides_zoom {P : Prop} {part : σ → τ} {put : σ → τ → σ} {m : Fallible ε τ α} {s : σ}
    {t : τ} (h : Decides m (part s) P a t) :
    Decides (zoom part put m) s P a (put s t) := by
  refine ⟨fun hP => ?_, fun hP => ?_⟩
  · unfold zoom
    rw [h.1 hP]
  · obtain ⟨e, t', he⟩ := h.2 hP
    refine ⟨e, put s t', ?_⟩
    unfold zoom
    rw [he]

/-- In front of the bytes the computation does what the plain one does; when it succeeds, it has
read exactly these bytes. -/
def Reads (m : Fallible ε (σ × Bytes) α) (bs : Bytes) (plain : Fallible ε σ α) : Prop :=
  ∀ s rest, ∃ left, m (s, bs ++ rest) = ((plain s).1, ((plain s).2, left)) ∧
    ∀ a, (plain s).1 = .ok a → left = rest

variable {bs bs' : Bytes}

/-- A step that reads nothing. -/
theorem reads_onFirst (m : Fallible ε σ α) : Reads (onFirst m) [] m :=
  fun _ rest => ⟨rest, rfl, fun _ _ => rfl⟩

theorem Reads.congr {m' : Fallible ε (σ × Bytes) α} (h : Reads m bs plain) (heq : m' = m) :
    Reads m' bs plain := heq ▸ h

/-- Two steps read their bytes one behind the other. -/
theorem Reads.bind (hm : Reads m bs plain) (hf : ∀ a, Reads (f a) bs' (next a)) :
    Reads (m >>= f) (bs ++ bs') (plain >>= next) := by
  intro s rest
  obtain ⟨left, heq, hleft⟩ := hm s (bs' ++ rest)
  rw [List.append_assoc]
  rcases hplain : plain s with ⟨r, s'⟩
  rw [hplain] at heq hleft
  cases r with
  | error e =>
    rw [bind_of_error heq, bind_of_error hplain]
    exact ⟨left, rfl, fun _ hno => nomatch hno⟩
  | ok a =>
    rw [hleft a rfl] at heq
    rw [bind_of_ok heq, bind_of_ok hplain]
    exact hf a s' rest

theorem Reads.step (hm : m = onFirst plain) (hf : ∀ a, Reads (f a) bs (next a)) :
    Reads (m >>= f) bs (plain >>= next) :=
  ((reads_onFirst plain).congr hm).bind hf

/-- A value that is read, in front of the steps that use it. -/
theorem Reads.value {d : Decoder ε α} {plain : Fallible ε σ β} (hd : Decodes d bs a)
    (hf : Reads (f a) bs' plain) :
    Reads (read d >>= f) (bs ++ bs') plain := by
  intro s rest
  rw [List.append_assoc, bind_read_apply hd]
  exact hf s rest

/-- A step that always succeeds with the same result, in front of the steps that use it. -/
theorem Reads.known {f : σ → σ} {k : α → Fallible ε (σ × Bytes) β} {plain : Fallible ε σ β}
    (hm : ∀ s rest, m (s, bs ++ rest) = (.ok a, (f s, rest))) (hk : Reads (k a) bs' plain) :
    Reads (m >>= k) (bs ++ bs') (modify f >>= fun _ => plain) := by
  intro s rest
  rw [List.append_assoc, bind_of_ok (hm s (bs' ++ rest))]
  exact hk (f s) rest

theorem Reads.last (hm : Reads m bs plain) (hf : ∀ a, f a = onFirst (next a)) :
    Reads (m >>= f) bs (plain >>= next) := by
  have h := hm.bind fun a => (reads_onFirst (next a)).congr (hf a)
  rwa [List.append_nil] at h

/-- A counted loop over the encodings of a list is the loop over the list. -/
theorem reads_times {item : Fallible ε (σ × Bytes) Unit} {enc : κ → Bytes}
    {body : κ → Fallible ε σ Unit} {ks : List κ} (h : ∀ k ∈ ks, Reads item (enc k) (body k)) :
    Reads (times item ks.length) (ks.flatMap enc) (forEach body ks) := by
  induction ks with
  | nil => exact reads_onFirst (pure ())
  | cons k ks ih =>
    rw [List.length_cons, List.flatMap_cons]
    exact (h k List.mem_cons_self).bind fun _ => ih fun j hj => h j (List.mem_cons_of_mem k hj)

/-! ## Steps that read nothing -/

theorem lift_eq_onFirst (x : Except ε α) :
    (lift x : Fallible ε (σ × Bytes) α) = onFirst (lift x) := rfl

theorem ensure_eq_onFirst (c : Bool) (e : ε) :
    (ensure c e : Fallible ε (σ × Bytes) Unit) = onFirst (ensure c e) := by
  cases c with
  | false => rfl
  | true => rfl

end Fallible
