/-
# Computations whose state survives an error

A member function that returns early with an error keeps what it has already
written.  `Fallible ε σ α` is such a computation: it maps a state to a result and
the state it leaves, in both outcomes.  The library gives the sequencing rules
(`bind_of_ok`, `bind_of_error`, `bind_eq_ok_iff`), counted loops and loops over a
list, the rules by which an invariant passes through them (`Keeps`), and those by
which the exact outcome of a computation is put together (`Decides`).
-/
import ElephantFlow.ByteCodec

open ByteCodec

/-- A computation over a state that survives an error. -/
def Fallible (ε σ α : Type) := σ → Except ε α × σ

namespace Fallible

variable {ε σ τ α β κ : Type} {m : Fallible ε σ α} {f : α → Fallible ε σ β} {s s' t : σ} {a : α}
  {e : ε} {d : Decoder ε α} {body : κ → Fallible ε σ Unit} {ks : List κ} {P : List κ → σ → Prop}

instance : Monad (Fallible ε σ) where
  pure a := fun s => (.ok a, s)
  bind m f := fun s =>
    match m s with
    | (.ok a, s) => f a s
    | (.error e, s) => (.error e, s)

/-- Fail and leave the state as it is. -/
def fail (e : ε) : Fallible ε σ α := fun s => (.error e, s)

/-- Fail with the given error unless the condition holds. -/
def ensure (c : Bool) (e : ε) : Fallible ε σ Unit := if c then pure () else fail e

/-- A result that does not depend on the state. -/
def lift (x : Except ε α) : Fallible ε σ α := fun s => (x, s)

/-- Read the state. -/
def gets (f : σ → α) : Fallible ε σ α := fun s => (.ok (f s), s)

/-- Change the state. -/
def modify (f : σ → σ) : Fallible ε σ Unit := fun s => (.ok (), f s)

/-- Change the state by an update that may fail, in which case the state stays. -/
def update (f : σ → Except ε σ) : Fallible ε σ Unit := fun s =>
  match f s with
  | .ok s' => (.ok (), s')
  | .error e => (.error e, s)

/-- Consume bytes from the second component of the state; a failed read consumes nothing. -/
def read (d : Decoder ε α) : Fallible ε (σ × Bytes) α := fun s =>
  match d s.2 with
  | .ok (a, rest) => (.ok a, (s.1, rest))
  | .error e => (.error e, s)

/-- Run a computation `n` times. -/
def times (m : Fallible ε σ Unit) : ℕ → Fallible ε σ Unit
  | 0 => pure ()
  | n + 1 => do
    m
    times m n

/-- Run a computation for every element of a list, in order. -/
def forEach (body : κ → Fallible ε σ Unit) : List κ → Fallible ε σ Unit
  | [] => pure ()
  | k :: ks => do
    body k
    forEach body ks

/-- Run a computation for every element of a list, in order, and collect the results. -/
def collect (body : κ → Fallible ε σ α) : List κ → Fallible ε σ (List α)
  | [] => pure []
  | k :: ks => do
    let a ← body k
    let as ← collect body ks
    pure (a :: as)

/-! ## Sequencing -/

@[simp] theorem pure_apply (a : α) (s : σ) : (pure a : Fallible ε σ α) s = (.ok a, s) := rfl

@[simp] theorem fail_apply (e : ε) (s : σ) : (fail e : Fallible ε σ α) s = (.error e, s) := rfl

@[simp] theorem modify_apply (f : σ → σ) (s : σ) :
    (modify f : Fallible ε σ Unit) s = (.ok (), f s) := rfl

@[simp] theorem gets_apply (f : σ → α) (s : σ) : (gets f : Fallible ε σ α) s = (.ok (f s), s) := rfl

@[simp] theorem lift_apply (x : Except ε α) (s : σ) : (lift x : Fallible ε σ α) s = (x, s) := rfl

theorem bind_apply (m : Fallible ε σ α) (f : α → Fallible ε σ β) (s : σ) :
    (m >>= f) s =
      match m s with
      | (.ok a, s) => f a s
      | (.error e, s) => (.error e, s) := rfl

theorem bind_of_ok (h : m s = (.ok a, s')) : (m >>= f) s = f a s' := by
  rw [bind_apply, h]

theorem bind_of_error (h : m s = (.error e, s')) : (m >>= f) s = (.error e, s') := by
  rw [bind_apply, h]

/-- A sequence succeeds exactly when both of its parts do. -/
theorem bind_eq_ok_iff {b : β} :
    (m >>= f) s = (.ok b, t) ↔ ∃ a s', m s = (.ok a, s') ∧ f a s' = (.ok b, t) := by
  rcases hm : m s with ⟨r, s'⟩
  cases r with
  | error e => simp [bind_of_error hm]
  | ok a => simp [bind_of_ok hm]

theorem ensure_eq_ok_iff {c : Bool} {u : Unit} :
    (ensure c e : Fallible ε σ Unit) s = (.ok u, t) ↔ c = true ∧ s = t := by
  unfold ensure
  cases c <;> simp

theorem update_eq_ok_iff {f : σ → Except ε σ} {u : Unit} :
    (update f : Fallible ε σ Unit) s = (.ok u, t) ↔ f s = .ok t := by
  unfold update
  cases f s <;> simp

theorem read_eq_ok_iff {s t : σ × Bytes} :
    (read d : Fallible ε (σ × Bytes) α) s = (.ok a, t) ↔ t.1 = s.1 ∧ d s.2 = .ok (a, t.2) := by
  unfold read
  obtain ⟨t₁, t₂⟩ := t
  cases hd : d s.2 with
  | error e => simp
  | ok p =>
    obtain ⟨b, rest⟩ := p
    simp only [Prod.mk.injEq, Except.ok.injEq]
    constructor
    · rintro ⟨rfl, rfl, rfl⟩
      exact ⟨rfl, rfl, rfl⟩
    · rintro ⟨rfl, rfl, rfl⟩
      exact ⟨rfl, rfl, rfl⟩

theorem bind_read_apply {bs : Bytes} (h : Decodes d bs a) (f : α → Fallible ε (σ × Bytes) β) (s : σ)
    (rest : Bytes) :
    (read d >>= f) (s, bs ++ rest) = f a (s, rest) := by
  apply bind_of_ok
  simp only [read, h rest]

/-! ## Keeping an invariant

`Keeps P m` says that `m` leads from states in `P` to states in `P`, whatever its outcome.  There is
one rule for each way of building a computation. -/

/-- The computation keeps the invariant, in both outcomes. -/
def Keeps (P : σ → Prop) (m : Fallible ε σ α) : Prop := ∀ s, P s → P (m s).2

section Keeps

variable {P : σ → Prop} {m : Fallible ε σ α} {f : α → Fallible ε σ β}

theorem Keeps.pure (a : α) : Keeps P (pure a : Fallible ε σ α) := fun _ hs => hs

theorem Keeps.fail (e : ε) : Keeps P (fail e : Fallible ε σ α) := fun _ hs => hs

theorem Keeps.gets (f : σ → α) : Keeps P (gets f : Fallible ε σ α) := fun _ hs => hs

theorem Keeps.ensure (c : Bool) (e : ε) : Keeps P (ensure c e : Fallible ε σ Unit) := by
  unfold Fallible.ensure
  cases c with
  | false => exact Keeps.fail e
  | true => exact Keeps.pure ()

theorem Keeps.modify {f : σ → σ} (h : ∀ s, P s → P (f s)) :
    Keeps P (modify f : Fallible ε σ Unit) := h

theorem Keeps.update {f : σ → Except ε σ} (h : ∀ s s', P s → f s = .ok s' → P s') :
    Keeps P (update f : Fallible ε σ Unit) := by
  intro s hs
  unfold Fallible.update
  rcases hf : f s with e | s'
  · exact hs
  · exact h s s' hs hf

theorem Keeps.read (d : Decoder ε α) :
    Keeps (fun s => P s.1) (read d : Fallible ε (σ × Bytes) α) := by
  intro s hs
  unfold Fallible.read
  rcases d s.2 with e | ⟨a, rest⟩
  · exact hs
  · exact hs

/-- A last step that leads out of the invariant. -/
theorem Keeps.bind_post {Q : σ → Prop} (hm : Keeps P m) (hQ : ∀ s, P s → Q s)
    (hf : ∀ a s, P s → Q (f a s).2) {s : σ} (hs : P s) :
    Q ((m >>= f) s).2 := by
  have h := hm s hs
  rcases hr : m s with ⟨r, s'⟩
  rw [hr] at h
  cases r with
  | error e =>
    rw [bind_of_error hr]
    exact hQ s' h
  | ok a =>
    rw [bind_of_ok hr]
    exact hf a s' h

theorem Keeps.bind (hm : Keeps P m) (hf : ∀ a, Keeps P (f a)) : Keeps P (m >>= f) :=
  fun _ hs => hm.bind_post (fun _ h => h) (fun a s h => hf a s h) hs

/-- A step whose result is known to have a property. -/
theorem Keeps.bind_of {R : α → Prop} (hm : Keeps P m) (hR : ∀ s a s', m s = (.ok a, s') → R a)
    (hf : ∀ a, R a → Keeps P (f a)) :
    Keeps P (m >>= f) := by
  intro s hs
  have h := hm s hs
  rcases hr : m s with ⟨r, s'⟩
  rw [hr] at h
  cases r with
  | error e =>
    rw [bind_of_error hr]
    exact h
  | ok a =>
    rw [bind_of_ok hr]
    exact hf a (hR s a s' hr) s' h

theorem Keeps.times {m : Fallible ε σ Unit} (h : Keeps P m) (n : ℕ) : Keeps P (times m n) := by
  induction n with
  | zero => exact Keeps.pure ()
  | succ n ih => exact h.bind fun _ => ih

theorem Keeps.forEach {body : κ → Fallible ε σ Unit} {ks : List κ} (h : ∀ k ∈ ks, Keeps P (body k)) :
    Keeps P (forEach body ks) := by
  induction ks with
  | nil => exact Keeps.pure ()
  | cons k ks ih =>
    exact (h k List.mem_cons_self).bind fun _ => ih fun j hj => h j (List.mem_cons_of_mem _ hj)

theorem Keeps.collect {body : κ → Fallible ε σ α} {ks : List κ} (h : ∀ k ∈ ks, Keeps P (body k)) :
    Keeps P (collect body ks) := by
  induction ks with
  | nil => exact Keeps.pure []
  | cons k ks ih =>
    refine (h k List.mem_cons_self).bind fun a => ?_
    exact (ih fun j hj => h j (List.mem_cons_of_mem _ hj)).bind fun as => Keeps.pure (a :: as)

end Keeps

/-! ## Loops -/

/-- A measure that one iteration raises by at most one, `n` iterations raise by at most `n`. -/
theorem times_le {m : Fallible ε σ Unit} {μ : σ → ℕ} (step : ∀ s, μ (m s).2 ≤ μ s + 1) (n : ℕ)
    (s : σ) : μ (times m n s).2 ≤ μ s + n := by
  induction n generalizing s with
  | zero => exact le_refl _
  | succ n ih =>
    have h := step s
    rcases hm : m s with ⟨r, s'⟩
    rw [hm] at h
    cases r with
    | error e =>
      rw [times, bind_of_error hm]
      exact le_trans h (by omega)
    | ok u =>
      rw [times, bind_of_ok hm]
      have := ih s'
      simp only at h
      omega

theorem collect_commutes {body : κ → Fallible ε σ α} {f : σ → σ}
    (step : ∀ k s, body k (f s) = ((body k s).1, f (body k s).2)) (ks : List κ) (s : σ) :
    collect body ks (f s) = ((collect body ks s).1, f (collect body ks s).2) := by
  induction ks generalizing s with
  | nil => rfl
  | cons k ks ih =>
    have h := step k s
    rcases hk : body k s with ⟨r, s'⟩
    rw [hk] at h
    cases r with
    | error e => rw [collect, bind_of_error hk, bind_of_error h]
    | ok a =>
      have hrest := ih s'
      rw [collect, bind_of_ok hk, bind_of_ok h]
      rcases hks : collect body ks s' with ⟨r', s''⟩
      rw [hks] at hrest
      cases r' with
      | error e => rw [bind_of_error hks, bind_of_error hrest]
      | ok as =>
        rw [bind_of_ok hks, bind_of_ok hrest]
        rfl

/-- A collecting loop fails with the error of one of its iterations. -/
theorem collect_error {body : κ → Fallible ε σ α} (h : (collect body ks s).1 = .error e) :
    ∃ k ∈ ks, ∃ s', (body k s').1 = .error e := by
  induction ks generalizing s with
  | nil => cases h
  | cons k ks ih =>
    rcases hk : body k s with ⟨res, s'⟩
    cases res with
    | error e' =>
      rw [collect, bind_of_error hk] at h
      cases h
      exact ⟨k, List.mem_cons_self, s, by rw [hk]⟩
    | ok a =>
      rw [collect, bind_of_ok hk] at h
      rcases hks : collect body ks s' with ⟨res', s''⟩
      cases res' with
      | error e' =>
        rw [bind_of_error hks] at h
        cases h
        obtain ⟨k', hk', s₁, hs₁⟩ := ih (s := s') (by rw [hks])
        exact ⟨k', List.mem_cons_of_mem _ hk', s₁, hs₁⟩
      | ok as =>
        rw [bind_of_ok hks] at h
        cases h

/-- A collecting loop succeeds when every iteration does, under an invariant that names what is left
of the loop. -/
theorem collect_isOk {body : κ → Fallible ε σ α}
    (step : ∀ k ks s, P (k :: ks) s → ∃ a s', body k s = (.ok a, s') ∧ P ks s') (h : P ks s) :
    ∃ as, (collect body ks s).1 = .ok as := by
  induction ks generalizing s with
  | nil => exact ⟨[], rfl⟩
  | cons k ks ih =>
    obtain ⟨a, s', hk, hs'⟩ := step k ks s h
    obtain ⟨as, has⟩ := ih hs'
    rcases hks : collect body ks s' with ⟨res, s''⟩
    rw [hks] at has
    cases has
    exact ⟨a :: as, by rw [collect, bind_of_ok hk, bind_of_ok hks]; rfl⟩

/-- What every iteration establishes for its result, under an invariant of the loop, holds for every
collected result. -/
theorem collect_forall {body : κ → Fallible ε σ α} {P : σ → Prop} {Q : α → Prop}
    (keep : ∀ k ∈ ks, Keeps P (body k)) (step : ∀ k ∈ ks, ∀ s a, P s → (body k s).1 = .ok a → Q a)
    (hs : P s) {as : List α} (h : (collect body ks s).1 = .ok as) : ∀ a ∈ as, Q a := by
  induction ks generalizing s as with
  | nil =>
    have hnil : [] = as := Except.ok.inj h
    simp [← hnil]
  | cons k ks ih =>
    have hk := step k List.mem_cons_self s
    have hkeep := keep k List.mem_cons_self s hs
    rcases hr : body k s with ⟨r, s'⟩
    rw [hr] at hk hkeep
    cases r with
    | error e =>
      rw [collect, bind_of_error hr] at h
      cases h
    | ok a =>
      rw [collect, bind_of_ok hr] at h
      rcases hrest : collect body ks s' with ⟨r', s''⟩
      cases r' with
      | error e =>
        rw [bind_of_error hrest] at h
        cases h
      | ok rest =>
        rw [bind_of_ok hrest] at h
        have hcons : a :: rest = as := Except.ok.inj h
        rw [← hcons]
        refine List.forall_mem_cons.mpr ⟨hk a hs rfl, ?_⟩
        exact ih (fun j hj => keep j (List.mem_cons_of_mem _ hj))
          (fun j hj => step j (List.mem_cons_of_mem _ hj)) hkeep (by rw [hrest])

/-- A loop whose iterations keep an invariant that rules out their errors does not fail. -/
theorem forEach_ok {P : σ → Prop} (keep : ∀ k ∈ ks, Keeps P (body k))
    (step : ∀ k ∈ ks, ∀ s, P s → (body k s).1 = .ok ()) (hs : P s) :
    (forEach body ks s).1 = .ok () := by
  induction ks generalizing s with
  | nil => rfl
  | cons k ks ih =>
    have hk := step k List.mem_cons_self s hs
    have hkeep := keep k List.mem_cons_self s hs
    rcases hr : body k s with ⟨r, s'⟩
    rw [hr] at hk hkeep
    simp only at hk
    subst hk
    rw [forEach, bind_of_ok hr]
    exact ih (fun j hj => keep j (List.mem_cons_of_mem _ hj))
      (fun j hj => step j (List.mem_cons_of_mem _ hj)) hkeep

/-- A loop whose invariant names the elements it has not visited yet, which a repetition among the
elements would break.  An error leaves the rest unvisited. -/
theorem forEach_visits (step : ∀ k ks s, k ∉ ks → P (k :: ks) s → P ks (body k s).2)
    (hnodup : ks.Nodup) (hs : P ks s) : ∃ rest, P rest (forEach body ks s).2 := by
  induction ks generalizing s with
  | nil => exact ⟨[], hs⟩
  | cons k ks ih =>
    obtain ⟨hk, hnodup⟩ := List.nodup_cons.mp hnodup
    have hstep := step k ks s hk hs
    rcases hr : body k s with ⟨r, s'⟩
    rw [hr] at hstep
    cases r with
    | error e =>
      rw [forEach, bind_of_error hr]
      exact ⟨ks, hstep⟩
    | ok u =>
      rw [forEach, bind_of_ok hr]
      exact ih hnodup hstep

/-- A loop over two lists, the first of which is done without an error. -/
theorem forEach_append {ks' : List κ} {s'' : σ} (h : forEach body ks s = (.ok (), s'))
    (h' : forEach body ks' s' = (.ok (), s'')) :
    forEach body (ks ++ ks') s = (.ok (), s'') := by
  induction ks generalizing s with
  | nil =>
    cases h
    exact h'
  | cons k ks ih =>
    obtain ⟨u, t, hk, hrest⟩ := bind_eq_ok_iff.mp h
    exact (bind_of_ok hk).trans (ih hrest)

/-- Two loops whose iterations have the same outcome on related states, and relate the states they
leave, do so as a whole. -/
theorem forEach_related {body' : κ → Fallible ε τ Unit} {R : σ → τ → Prop}
    (step : ∀ k ∈ ks, ∀ s t, R s t → (body' k t).1 = (body k s).1 ∧ R (body k s).2 (body' k t).2)
    {t : τ} (h : R s t) : (forEach body' ks t).1 = (forEach body ks s).1 ∧
      R (forEach body ks s).2 (forEach body' ks t).2 := by
  induction ks generalizing s t with
  | nil => exact ⟨rfl, h⟩
  | cons k ks ih =>
    obtain ⟨hresult, hstate⟩ := step k List.mem_cons_self s t h
    rcases hs : body k s with ⟨r, s'⟩
    rcases ht : body' k t with ⟨r', t'⟩
    rw [hs, ht] at hresult hstate
    simp only at hresult hstate
    subst hresult
    cases r' with
    | error e =>
      rw [forEach, forEach, bind_of_error hs, bind_of_error ht]
      exact ⟨rfl, hstate⟩
    | ok u =>
      rw [forEach, forEach, bind_of_ok hs, bind_of_ok ht]
      exact ih (fun j hj => step j (List.mem_cons_of_mem _ hj)) hstate

/-- A loop that ends without an error establishes for every element what the iteration of that
element establishes and the later iterations keep. -/
theorem forEach_establishes {Q : κ → σ → Prop} (step : ∀ k s s', body k s = (.ok (), s') → Q k s')
    (keep : ∀ k k' s s', Q k s → body k' s = (.ok (), s') → Q k s')
    (h : forEach body ks s = (.ok (), s')) : ∀ k ∈ ks, Q k s' := by
  -- the elements already visited are carried along as a second list
  have main : ∀ (ks seen : List κ) (s : σ), (∀ k ∈ seen, Q k s) →
      forEach body ks s = (.ok (), s') → ∀ k ∈ seen ++ ks, Q k s' := by
    intro ks
    induction ks with
    | nil =>
      intro seen s hseen hrun
      cases hrun
      simpa using hseen
    | cons k ks ih =>
      intro seen s hseen hrun
      obtain ⟨u, t, hk, hrest⟩ := bind_eq_ok_iff.mp hrun
      have hseen' : ∀ j ∈ seen ++ [k], Q j t := by
        intro j hj
        rcases List.mem_append.mp hj with hj | hj
        · exact keep j k s t (hseen j hj) hk
        · rw [List.mem_singleton.mp hj]
          exact step k s t hk
      have := ih (seen ++ [k]) t hseen' hrest
      simpa using this
  simpa using main ks [] s (by simp) h

/-! ## Exact outcomes

`Decides m s P a t` says that `m` succeeds from `s` exactly under the condition `P`, and then with the
result `a` and the state `t`.  The rules follow the computation from left to right: a step that always
succeeds is skipped (`Decides.after`), and the conditions of the others are conjoined. -/

/-- From the state the computation succeeds exactly under the condition, with the given result and
state. -/
def Decides (m : Fallible ε σ α) (s : σ) (P : Prop) (a : α) (t : σ) : Prop :=
  (P → m s = (.ok a, t)) ∧ (¬ P → ∃ e s', m s = (.error e, s'))

section Decides

variable {P Q : Prop} {s t u : σ} {a : α} {b : β} {m : Fallible ε σ α} {f : α → Fallible ε σ β}

theorem Decides.fst_eq_ok_iff (h : Decides m s P a t) : (m s).1 = .ok a ↔ P := by
  constructor
  · intro hok
    by_contra hP
    obtain ⟨e, s', he⟩ := h.2 hP
    rw [he] at hok
    cases hok
  · intro hP
    rw [h.1 hP]

theorem Decides.congr (h : Decides m s P a t) (hPQ : P ↔ Q) : Decides m s Q a t :=
  ⟨fun hQ => h.1 (hPQ.mpr hQ), fun hQ => h.2 fun hP => hQ (hPQ.mp hP)⟩

/-- A step that always succeeds. -/
theorem Decides.of_eq (h : m s = (.ok a, t)) : Decides m s True a t :=
  ⟨fun _ => h, fun hno => absurd trivial hno⟩

theorem Decides.after (hm : m s = (.ok a, t)) (h : Decides (f a) t P b u) :
    Decides (m >>= f) s P b u := by
  unfold Decides
  rw [bind_of_ok hm]
  exact h

theorem Decides.bind (hm : Decides m s P a t) (hf : P → Decides (f a) t Q b u) :
    Decides (m >>= f) s (P ∧ Q) b u := by
  constructor
  · rintro ⟨hP, hQ⟩
    rw [bind_of_ok (hm.1 hP)]
    exact (hf hP).1 hQ
  · intro hno
    by_cases hP : P
    · rw [bind_of_ok (hm.1 hP)]
      exact (hf hP).2 fun hQ => hno ⟨hP, hQ⟩
    · obtain ⟨e, s', he⟩ := hm.2 hP
      exact ⟨e, s', bind_of_error he⟩

/-- A last step that always succeeds. -/
theorem Decides.before (hm : Decides m s P a t) (hf : f a t = (.ok b, u)) :
    Decides (m >>= f) s P b u :=
  (hm.bind fun _ => .of_eq hf).congr ⟨fun h => h.1, fun h => ⟨h, trivial⟩⟩

theorem decides_ensure (c : Bool) (e : ε) :
    Decides (ensure c e : Fallible ε σ Unit) s (c = true) () s := by
  refine ⟨fun h => ensure_eq_ok_iff.mpr ⟨h, rfl⟩, fun h => ?_⟩
  rw [Bool.eq_false_of_not_eq_true h]
  exact ⟨e, s, rfl⟩

theorem decides_lift {x : Except ε α} (hok : P → x = .ok a) (hno : ¬ P → ∃ e, x = .error e) :
    Decides (lift x : Fallible ε σ α) s P a s := by
  refine ⟨fun h => by rw [lift_apply, hok h], fun h => ?_⟩
  obtain ⟨e, he⟩ := hno h
  exact ⟨e, s, by rw [lift_apply, he]⟩

theorem decides_update {f : σ → Except ε σ} (hok : P → f s = .ok t)
    (hno : ¬ P → ∃ e, f s = .error e) : Decides (update f) s P () t := by
  refine ⟨fun h => update_eq_ok_iff.mpr (hok h), fun h => ?_⟩
  obtain ⟨e, he⟩ := hno h
  refine ⟨e, s, ?_⟩
  unfold update
  rw [he]

/-- A loop over a list, under an invariant that names what is left of it. -/
theorem decides_forEach {body : κ → Fallible ε σ Unit} {put : σ → κ → σ} {Q : κ → Prop}
    {I : List κ → σ → Prop}
    (step : ∀ k ks x, I (k :: ks) x → Decides (body k) x (Q k) () (put x k))
    (next : ∀ k ks x, I (k :: ks) x → Q k → I ks (put x k)) {ks : List κ} {x : σ}
    (h : I ks x) : Decides (forEach body ks) x (∀ k ∈ ks, Q k) () (ks.foldl put x) := by
  induction ks generalizing x with
  | nil => exact (Decides.of_eq rfl).congr (by simp)
  | cons k ks ih =>
    exact ((step k ks x h).bind fun hk => ih (next k ks x h hk)).congr (by simp)

end Decides

end Fallible
