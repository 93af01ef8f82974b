/-
# Maps whose values name their keys

A table keeps every value under the key that the value itself names, and holds
valid values only (`Keyed`).  Such a map can be listed and built again: the values
come out in the order of the keys, every one of them is new to the map of those
before it (`Fresh`), and inserting them all gives the map back
(`foldl_insert_values`).
-/
import Mathlib

namespace KeyedMap

open Std

variable {α β : Type} [Ord α] [TransOrd α] {k : α} {l : List (α × β)} {ks : List α}

/-- The values of a map are those of its entries, in the same order. -/
theorem values_eq_map_toList (t : ExtTreeMap α β) : t.values = t.toList.map Prod.snd := by
  obtain ⟨⟨q⟩⟩ := t
  induction q using Quotient.inductionOn with
  | h m =>
    show m.inner.values = (DTreeMap.Internal.Impl.Const.toList m.inner).map Prod.snd
    unfold DTreeMap.Internal.Impl.values DTreeMap.Internal.Impl.Const.toList
    rw [DTreeMap.Internal.Impl.foldr_eq_foldr, DTreeMap.Internal.Impl.foldr_eq_foldr]
    generalize m.inner.toListModel = l
    induction l with
    | nil => rfl
    | cons a l ih => simp [ih]

@[simp] theorem length_values (t : ExtTreeMap α β) : t.values.length = t.size := by
  rw [values_eq_map_toList, List.length_map, ExtTreeMap.length_toList]

variable [LawfulEqOrd α] {t : ExtTreeMap α β}

theorem mem_values_iff {v : β} : v ∈ t.values ↔ ∃ k : α, t[k]? = some v := by
  rw [values_eq_map_toList, List.mem_map]
  constructor
  · rintro ⟨⟨k, v'⟩, hmem, rfl⟩
    exact ⟨k, ExtTreeMap.mem_toList_iff_getElem?_eq_some.mp hmem⟩
  · rintro ⟨k, hk⟩
    exact ⟨(k, v), ExtTreeMap.mem_toList_iff_getElem?_eq_some.mpr hk, rfl⟩

/-- The keys of the entries are distinct. -/
theorem nodup_keys_toList (t : ExtTreeMap α β) : (t.toList.map Prod.fst).Nodup := by
  rw [List.nodup_map_iff_inj_on (t.distinct_keys_toList.imp fun hne heq => ?_)]
  · rintro ⟨k, v⟩ hv ⟨k', v'⟩ hv' (rfl : k = k')
    have hsome := ExtTreeMap.mem_toList_iff_getElem?_eq_some.mp hv
    have hsome' := ExtTreeMap.mem_toList_iff_getElem?_eq_some.mp hv'
    rw [hsome] at hsome'
    rw [Option.some.inj hsome']
  · rw [heq] at hne
    exact hne ReflCmp.compare_self

/-! ## Building a map -/

theorem getElem?_insert_self (t : ExtTreeMap α β) (k : α) (v : β) :
    (t.insert k v)[k]? = some v := by
  rw [ExtTreeMap.getElem?_insert, if_pos ReflCmp.compare_self]

theorem getElem?_insert_of_ne (t : ExtTreeMap α β) {k' : α} (h : k ≠ k') (v : β) :
    (t.insert k v)[k']? = t[k']? := by
  rw [ExtTreeMap.getElem?_insert, if_neg fun heq => h (LawfulEqOrd.eq_of_compare heq)]

/-- Inserting a list of entries changes nothing under the other keys. -/
theorem getElem?_foldl_insert_of_notMem (h : k ∉ l.map Prod.fst) (t : ExtTreeMap α β) :
    (l.foldl (fun m e => m.insert e.1 e.2) t)[k]? = t[k]? := by
  induction l generalizing t with
  | nil => rfl
  | cons e l ih =>
    rw [List.map_cons, List.mem_cons, not_or] at h
    rw [List.foldl_cons, ih h.2, getElem?_insert_of_ne t (Ne.symm h.1)]

theorem getElem?_foldl_insert_of_mem (hnodup : (l.map Prod.fst).Nodup) {e : α × β} (h : e ∈ l)
    (t : ExtTreeMap α β) :
    (l.foldl (fun m e => m.insert e.1 e.2) t)[e.1]? = some e.2 := by
  induction l generalizing t with
  | nil => exact absurd h List.not_mem_nil
  | cons e' l ih =>
    rw [List.map_cons, List.nodup_cons] at hnodup
    rw [List.foldl_cons]
    rcases List.mem_cons.mp h with rfl | hmem
    · rw [getElem?_foldl_insert_of_notMem hnodup.1, getElem?_insert_self]
    · exact ih hnodup.2 hmem _

theorem foldl_insert_toList (t : ExtTreeMap α β) :
    t.toList.foldl (fun m e => m.insert e.1 e.2) ∅ = t := by
  ext k : 1
  rcases hk : t[k]? with _ | v
  · rw [getElem?_foldl_insert_of_notMem]
    · simp
    · intro hmem
      obtain ⟨⟨k', v⟩, hv, rfl⟩ := List.mem_map.mp hmem
      rw [ExtTreeMap.mem_toList_iff_getElem?_eq_some.mp hv] at hk
      cases hk
  · have hmem : (k, v) ∈ t.toList := ExtTreeMap.mem_toList_iff_getElem?_eq_some.mpr hk
    exact getElem?_foldl_insert_of_mem (nodup_keys_toList t) hmem ∅

/-! ## Changing the values -/

/-- Changing the values under some keys changes nothing under the others. -/
theorem getElem?_foldl_modify_of_notMem (hk : k ∉ ks) (f : β → β) (t : ExtTreeMap α β) :
    (ks.foldl (fun m j => m.modify j f) t)[k]? = t[k]? := by
  induction ks generalizing t with
  | nil => rfl
  | cons j ks ih =>
    rw [List.mem_cons, not_or] at hk
    rw [List.foldl_cons, ih hk.2, ExtTreeMap.getElem?_modify,
      if_neg fun heq => hk.1 (LawfulEqOrd.eq_of_compare heq).symm]

/-- The value under a key is changed once. -/
theorem getElem?_foldl_modify_of_mem (hnodup : ks.Nodup) (hk : k ∈ ks) (f : β → β)
    (t : ExtTreeMap α β) :
    (ks.foldl (fun m j => m.modify j f) t)[k]? = t[k]?.map f := by
  induction ks generalizing t with
  | nil => exact absurd hk List.not_mem_nil
  | cons j ks ih =>
    rw [List.nodup_cons] at hnodup
    rw [List.foldl_cons]
    rcases List.mem_cons.mp hk with rfl | hk
    · rw [getElem?_foldl_modify_of_notMem hnodup.1, ExtTreeMap.getElem?_modify_self]
    · rw [ih hnodup.2 hk, ExtTreeMap.getElem?_modify, if_neg]
      intro heq
      rw [LawfulEqOrd.eq_of_compare heq] at hnodup
      exact hnodup.1 hk

theorem nodup_keys (t : ExtTreeMap α β) : t.keys.Nodup := by
  rw [← ExtTreeMap.map_fst_toList_eq_keys]
  exact nodup_keys_toList t

/-- All values are changed when every key of the map is visited once. -/
theorem getElem?_foldl_modify (hnodup : ks.Nodup) (hall : ∀ k ∈ t, k ∈ ks) (f : β → β) (k : α) :
    (ks.foldl (fun m j => m.modify j f) t)[k]? = t[k]?.map f := by
  by_cases hk : k ∈ ks
  · exact getElem?_foldl_modify_of_mem hnodup hk f t
  · rw [getElem?_foldl_modify_of_notMem hk,
      ExtTreeMap.getElem?_eq_none fun hmem => hk (hall k hmem)]
    rfl

/-! ## Fresh values -/

section Fresh

variable {key : β → α} {limit : ℕ}

/-- The values have distinct keys that are new to the map, and there is room for all of them. -/
structure Fresh (key : β → α) (limit : ℕ) (vs : List β) (t : ExtTreeMap α β) : Prop where
  distinct : (vs.map key).Nodup
  new : ∀ v ∈ vs, key v ∉ t
  room : t.size + vs.length ≤ limit

omit [LawfulEqOrd α] in
theorem Fresh.head {v : β} {vs : List β} (h : Fresh key limit (v :: vs) t) :
    key v ∉ t ∧ t.size < limit := by
  have hroom := h.room
  rw [List.length_cons] at hroom
  exact ⟨h.new v List.mem_cons_self, by omega⟩

theorem Fresh.tail {v : β} {vs : List β} (h : Fresh key limit (v :: vs) t) (v' : β) :
    Fresh key limit vs (t.insert (key v) v') := by
  have hdistinct := h.distinct
  rw [List.map_cons, List.nodup_cons] at hdistinct
  refine ⟨hdistinct.2, fun w hw hmem => ?_, ?_⟩
  · rcases ExtTreeMap.mem_insert.mp hmem with heq | hold
    · rw [LawfulEqOrd.eq_of_compare heq] at hdistinct
      exact hdistinct.1 (List.mem_map_of_mem hw)
    · exact h.new w (List.mem_cons_of_mem _ hw) hold
  · have hroom := h.room
    rw [ExtTreeMap.size_insert, if_neg (by simpa using h.head.1)]
    rw [List.length_cons] at hroom
    omega

end Fresh

/-! ## Keyed maps -/

section Keyed

variable {key : β → α} {Valid : β → Prop} {limit : ℕ}

/-- The map is within its limit, and every value is valid and stands under its own key. -/
structure Keyed (key : β → α) (Valid : β → Prop) (limit : ℕ) (t : ExtTreeMap α β) : Prop where
  size : t.size ≤ limit
  entries : ∀ k v, t[k]? = some v → key v = k ∧ Valid v

omit [LawfulEqOrd α] in
theorem keyed_empty : Keyed key Valid limit (∅ : ExtTreeMap α β) := by
  refine ⟨?_, fun k v h => ?_⟩
  · rw [ExtTreeMap.size_empty]
    exact Nat.zero_le _
  · simp at h

theorem Keyed.insert (h : Keyed key Valid limit t) {v : β} (hv : Valid v)
    (hroom : key v ∈ t ∨ t.size < limit) : Keyed key Valid limit (t.insert (key v) v) := by
  refine ⟨?_, fun k v' hk => ?_⟩
  · have hsize := h.size
    rw [ExtTreeMap.size_insert]
    split_ifs with hmem
    · exact hsize
    · rcases hroom with hin | hlt
      · exact absurd hin hmem
      · omega
  · by_cases hkey : key v = k
    · subst hkey
      rw [getElem?_insert_self] at hk
      rw [← Option.some.inj hk]
      exact ⟨rfl, hv⟩
    · rw [getElem?_insert_of_ne t hkey] at hk
      exact h.entries k v' hk

theorem Keyed.filter (h : Keyed key Valid limit t) (keep : α → β → Bool) :
    Keyed key Valid limit (t.filter keep) := by
  refine ⟨ExtTreeMap.size_filter_le_size.trans h.size, fun k v hk => ?_⟩
  rw [ExtTreeMap.getElem?_filter'] at hk
  exact h.entries k v (Option.eq_some_of_filter_eq_some hk)

theorem Keyed.valid (h : Keyed key Valid limit t) {v : β} (hv : v ∈ t.values) : Valid v := by
  obtain ⟨k, hk⟩ := mem_values_iff.mp hv
  exact (h.entries k v hk).2

theorem Keyed.key_of_mem (h : Keyed key Valid limit t) {e : α × β} (he : e ∈ t.toList) :
    key e.2 = e.1 :=
  (h.entries e.1 e.2 (ExtTreeMap.mem_toList_iff_getElem?_eq_some.mp he)).1

theorem Keyed.fresh (h : Keyed key Valid limit t) :
    Fresh key limit t.values (∅ : ExtTreeMap α β) := by
  have hkeys : t.values.map key = t.toList.map Prod.fst := by
    rw [values_eq_map_toList, List.map_map]
    exact List.map_congr_left fun e he => h.key_of_mem he
  refine ⟨?_, fun v _ hmem => ?_, ?_⟩
  · rw [hkeys]
    exact nodup_keys_toList t
  · exact absurd hmem ExtTreeMap.not_mem_empty
  · rw [ExtTreeMap.size_empty, Nat.zero_add, length_values]
    exact h.size

theorem Keyed.foldl_insert_values (h : Keyed key Valid limit t) :
    t.values.foldl (fun m v => m.insert (key v) v) ∅ = t := by
  rw [values_eq_map_toList, List.foldl_map]
  refine Eq.trans ?_ (foldl_insert_toList t)
  exact List.foldl_ext _ _ _ fun m e he => by rw [h.key_of_mem he]

end Keyed

end KeyedMap
