/-
# Stores that compare versions with what they hold

A store keeps at most one value under each key, and each value has a version.  A
submission is compared with the value that the store holds for its key and never
lowers the version there; an expiry forgets values.  Nothing else is remembered, so
the versions accepted for one key may go down after the value was forgotten.

Whether they do is decided by the version that the last expiry forgot: they never go
down over a run exactly if no value comes to an empty place with a lower version than
was forgotten there (`accepted_ordered_iff`).
-/
import Mathlib

/-- A store of versioned values: what it holds, how it changes, and the laws of both. -/
structure VersionedStore (σ κ α τ ε : Type) where
  lookup : σ → κ → Option α
  submit : σ → α → Except ε σ
  expire : σ → τ → σ
  key : α → κ
  version : α → ℕ
  /-- The store has room for a value whose key it does not hold. -/
  admits : σ → α → Prop
  submit_absent {s : σ} {a : α} : lookup s (key a) = none →
    ((∃ s', submit s a = .ok s') ↔ admits s a)
  submit_le {s s' : σ} {a b : α} : submit s a = .ok s' → lookup s (key a) = some b →
    version b ≤ version a
  submit_self {s s' : σ} {a : α} : submit s a = .ok s' →
    ∃ b, lookup s' (key a) = some b ∧ version b = version a
  submit_other {s s' : σ} {a : α} {k : κ} : submit s a = .ok s' → k ≠ key a →
    lookup s' k = lookup s k
  lookup_expire {s : σ} {now : τ} {k : κ} {b : α} : lookup (expire s now) k = some b →
    lookup s k = some b

namespace VersionedStore

open Std

variable {σ κ α τ ε : Type} (T : VersionedStore σ κ α τ ε)

/-- The calls that change a store. -/
inductive Call (α τ : Type)
  | submit (a : α)
  | expire (now : τ)

/-- The values that the store accepts in a sequence of calls, in the order of the calls. -/
def accepted (s : σ) : List (Call α τ) → List α
  | [] => []
  | .submit a :: calls =>
    match T.submit s a with
    | .ok s' => a :: accepted s' calls
    | .error _ => accepted s calls
  | .expire now :: calls => accepted (T.expire s now) calls

/-- The later of two values of one key has no lower version. -/
def Ordered (a b : α) : Prop := T.key a = T.key b → T.version a ≤ T.version b

/-- The versions forgotten last, after an expiry. -/
def forget (floor : κ → ℕ) (s : σ) (now : τ) (k : κ) : ℕ :=
  match T.lookup s k, T.lookup (T.expire s now) k with
  | some b, none => T.version b
  | _, _ => floor k

/-- No value comes to an empty place with a lower version than was forgotten there last. -/
def NeverRelapses (floor : κ → ℕ) (s : σ) : List (Call α τ) → Prop
  | [] => True
  | .submit a :: calls =>
    (T.lookup s (T.key a) = none → T.admits s a → floor (T.key a) ≤ T.version a) ∧
      match T.submit s a with
      | .ok s' => NeverRelapses floor s' calls
      | .error _ => NeverRelapses floor s calls
  | .expire now :: calls => NeverRelapses (T.forget floor s now) (T.expire s now) calls

/-- What is held or was forgotten last bounds the values accepted so far, and is the version of one
of them. -/
structure Recalls (past : List α) (floor : κ → ℕ) (s : σ) : Prop where
  held : ∀ a ∈ past, ∀ b, T.lookup s (T.key a) = some b → T.version a ≤ T.version b
  gone : ∀ a ∈ past, T.lookup s (T.key a) = none → T.version a ≤ floor (T.key a)
  heldBy : ∀ k b, T.lookup s k = some b → ∃ a ∈ past, T.key a = k ∧ T.version a = T.version b
  goneBy : ∀ k, T.lookup s k = none → floor k ≠ 0 → ∃ a ∈ past, T.key a = k ∧ T.version a = floor k

variable {T} {past : List α} {floor : κ → ℕ} {s s' : σ} {a : α} {now : τ}

theorem recalls_nil (hempty : ∀ k, T.lookup s k = none) : T.Recalls [] (fun _ => 0) s where
  held := fun _ h => absurd h List.not_mem_nil
  gone := fun _ h => absurd h List.not_mem_nil
  heldBy := fun k b hk => by
    rw [hempty k] at hk
    cases hk
  goneBy := fun _ _ h => absurd rfl h

/-- A submission is accepted in order exactly if it does not fall below what was forgotten. -/
theorem Recalls.ordered_iff (h : T.Recalls past floor s) (hok : T.submit s a = .ok s') :
    (∀ p ∈ past, T.Ordered p a) ↔
      (T.lookup s (T.key a) = none → floor (T.key a) ≤ T.version a) := by
  constructor
  · intro hordered hnone
    by_cases hzero : floor (T.key a) = 0
    · rw [hzero]
      exact Nat.zero_le _
    · obtain ⟨p, hp, hkey, hversion⟩ := h.goneBy _ hnone hzero
      rw [← hversion]
      exact hordered p hp hkey
  · intro hfloor p hp hkey
    rcases hheld : T.lookup s (T.key a) with _ | b
    · have hbelow := h.gone p hp (by rw [hkey, hheld])
      rw [hkey] at hbelow
      exact hbelow.trans (hfloor hheld)
    · exact (h.held p hp b (by rw [hkey, hheld])).trans (T.submit_le hok hheld)

/-- An accepted submission that is in order becomes the bound of its key. -/
theorem Recalls.submit (h : T.Recalls past floor s) (hok : T.submit s a = .ok s')
    (hordered : ∀ p ∈ past, T.Ordered p a) : T.Recalls (a :: past) floor s' := by
  obtain ⟨c, hc, hversion⟩ := T.submit_self hok
  have hother : ∀ {k : κ}, k ≠ T.key a → T.lookup s' k = T.lookup s k :=
    fun hk => T.submit_other hok hk
  constructor
  · intro p hp b hb
    by_cases hkey : T.key p = T.key a
    · rw [hkey, hc] at hb
      obtain rfl := Option.some.inj hb
      rw [hversion]
      rcases List.mem_cons.mp hp with rfl | hp
      · exact le_rfl
      · exact hordered p hp hkey
    · rw [hother hkey] at hb
      exact h.held p ((List.mem_cons.mp hp).resolve_left fun heq => hkey (by rw [heq])) b hb
  · intro p hp hnone
    have hkey : T.key p ≠ T.key a := by
      intro hkey
      rw [hkey, hc] at hnone
      cases hnone
    rw [hother hkey] at hnone
    exact h.gone p ((List.mem_cons.mp hp).resolve_left fun heq => hkey (by rw [heq])) hnone
  · intro k b hb
    by_cases hk : k = T.key a
    · subst hk
      rw [hc] at hb
      obtain rfl := Option.some.inj hb
      exact ⟨a, List.mem_cons_self, rfl, hversion.symm⟩
    · rw [hother hk] at hb
      obtain ⟨p, hp, hpk⟩ := h.heldBy k b hb
      exact ⟨p, List.mem_cons_of_mem _ hp, hpk⟩
  · intro k hnone hne
    have hk : k ≠ T.key a := by
      rintro rfl
      rw [hc] at hnone
      cases hnone
    rw [hother hk] at hnone
    obtain ⟨p, hp, hpk⟩ := h.goneBy k hnone hne
    exact ⟨p, List.mem_cons_of_mem _ hp, hpk⟩

theorem forget_of_held {k : κ} {b : α} (hb : T.lookup s k = some b)
    (hnone : T.lookup (T.expire s now) k = none) : T.forget floor s now k = T.version b := by
  unfold forget
  rw [hb, hnone]

theorem forget_of_absent {k : κ} (hnone : T.lookup s k = none) :
    T.forget floor s now k = floor k := by
  unfold forget
  rw [hnone]

theorem Recalls.expire (h : T.Recalls past floor s) (now : τ) :
    T.Recalls past (T.forget floor s now) (T.expire s now) where
  held := fun p hp b hb => h.held p hp b (T.lookup_expire hb)
  gone := fun p hp hnone => by
    rcases hb : T.lookup s (T.key p) with _ | b
    · rw [forget_of_absent hb]
      exact h.gone p hp hb
    · rw [forget_of_held hb hnone]
      exact h.held p hp b hb
  heldBy := fun k b hb => h.heldBy k b (T.lookup_expire hb)
  goneBy := fun k hnone hne => by
    rcases hb : T.lookup s k with _ | b
    · rw [forget_of_absent hb] at hne ⊢
      exact h.goneBy k hb hne
    · rw [forget_of_held hb hnone]
      exact h.heldBy k b hb

theorem Recalls.accepted_ordered_iff (h : T.Recalls past floor s) (calls : List (Call α τ)) :
    ((T.accepted s calls).Pairwise T.Ordered ∧
      ∀ p ∈ past, ∀ a ∈ T.accepted s calls, T.Ordered p a) ↔ T.NeverRelapses floor s calls := by
  induction calls generalizing past floor s with
  | nil => exact ⟨fun _ => trivial, fun _ => ⟨.nil, fun _ _ _ ha => absurd ha List.not_mem_nil⟩⟩
  | cons call calls ih =>
    cases call with
    | expire now => exact ih (h.expire now)
    | submit a =>
      unfold accepted NeverRelapses
      rcases hok : T.submit s a with e | s'
      · -- a refused submission was not admitted to an empty place
        have hrefused : T.lookup s (T.key a) = none → T.admits s a →
            floor (T.key a) ≤ T.version a := by
          intro hnone hadmits
          obtain ⟨s', hs'⟩ := (T.submit_absent hnone).mpr hadmits
          rw [hok] at hs'
          cases hs'
        exact (ih h).trans ⟨fun hrest => ⟨hrefused, hrest⟩, fun hrest => hrest.2⟩
      · have hadmits : T.lookup s (T.key a) = none → T.admits s a :=
          fun hnone => (T.submit_absent hnone).mp ⟨s', hok⟩
        have hfirst := h.ordered_iff hok
        constructor
        · rintro ⟨hpairs, hpast⟩
          have hnow : ∀ p ∈ past, T.Ordered p a := fun p hp => hpast p hp a List.mem_cons_self
          refine ⟨fun hnone _ => hfirst.mp hnow hnone, (ih (h.submit hok hnow)).mp ?_⟩
          obtain ⟨hhead, htail⟩ := List.pairwise_cons.mp hpairs
          refine ⟨htail, fun p hp b hb => ?_⟩
          rcases List.mem_cons.mp hp with rfl | hp
          · exact hhead b hb
          · exact hpast p hp b (List.mem_cons_of_mem _ hb)
        · rintro ⟨hfloor, hrest⟩
          have hnow : ∀ p ∈ past, T.Ordered p a :=
            hfirst.mpr fun hnone => hfloor hnone (hadmits hnone)
          obtain ⟨hpairs, hpast⟩ := (ih (h.submit hok hnow)).mpr hrest
          refine ⟨List.pairwise_cons.mpr ⟨hpast a List.mem_cons_self, hpairs⟩, fun p hp b hb => ?_⟩
          rcases List.mem_cons.mp hb with rfl | hb
          · exact hnow p hp
          · exact hpast p (List.mem_cons_of_mem _ hp) b hb

theorem accepted_ordered_iff (hempty : ∀ k, T.lookup s k = none) (calls : List (Call α τ)) :
    (T.accepted s calls).Pairwise T.Ordered ↔ T.NeverRelapses (fun _ => 0) s calls := by
  rw [← (recalls_nil hempty).accepted_ordered_iff calls]
  constructor
  · intro h
    exact ⟨h, fun p hp => absurd hp List.not_mem_nil⟩
  · exact fun h => h.1

/-! ## Stores over maps -/

section Map

variable [Ord κ] [TransOrd κ] [LawfulEqOrd κ] {key : α → κ} {version : α → ℕ}
  {m m' : ExtTreeMap κ α}

/-- What an accepted value does to a map: it takes the place of its key, where no value of a higher
version was, or repeats the version that is there. -/
structure Updates (key : α → κ) (version : α → ℕ) (m : ExtTreeMap κ α) (a : α)
    (m' : ExtTreeMap κ α) : Prop where
  le : ∀ {b}, m[key a]? = some b → version b ≤ version a
  change : m' = m.insert (key a) a ∨ m' = m ∧ ∃ b, m[key a]? = some b ∧ version b = version a

theorem Updates.self (h : Updates key version m a m') :
    ∃ b, m'[key a]? = some b ∧ version b = version a := by
  rcases h.change with rfl | ⟨rfl, hsame⟩
  · exact ⟨a, by rw [ExtTreeMap.getElem?_insert, if_pos ReflCmp.compare_self], rfl⟩
  · exact hsame

theorem Updates.other (h : Updates key version m a m') {k : κ} (hk : k ≠ key a) :
    m'[k]? = m[k]? := by
  rcases h.change with rfl | ⟨rfl, -⟩
  · rw [ExtTreeMap.getElem?_insert, if_neg]
    exact fun heq => hk (LawfulEqOrd.compare_eq_iff_eq.mp heq).symm
  · rfl

theorem getElem?_of_filter {keep : κ → α → Bool} {k : κ} {b : α}
    (h : (m.filter keep)[k]? = some b) : m[k]? = some b := by
  rw [ExtTreeMap.getElem?_filter'] at h
  exact Option.eq_some_of_filter_eq_some h

end Map

end VersionedStore
