/-
# Grouped maps and totals over their values

A map of maps keeps a group of entries under every outer key and drops a group
when it becomes empty.  The library gives the two writes of such a map,
`insertAt` and `eraseAt`, by their effect on the groups, and the total of a
weight over the values of one group, by its change when an entry joins or leaves.
A count or a sum that is maintained next to the map is then a total.
-/
import Mathlib

namespace GroupedMap

open Std

/-! ## Totals -/

section Total

variable {β γ : Type} [Ord β] [TransOrd β] [LawfulEqOrd β] {t : ExtTreeMap β γ}
  {b : β} {c : γ} (w : γ → ℕ)

/-- The sum of a weight over the values of a map. -/
def total (t : ExtTreeMap β γ) : ℕ := (t.toList.map fun e => w e.2).sum

omit [LawfulEqOrd β] in
@[simp] theorem total_empty : total w (∅ : ExtTreeMap β γ) = 0 := by
  have hlen : (∅ : ExtTreeMap β γ).toList.length = 0 := by
    rw [ExtTreeMap.length_toList, ExtTreeMap.size_empty]
  rw [total, List.length_eq_zero_iff.mp hlen]
  rfl

theorem nodup_toList (t : ExtTreeMap β γ) : t.toList.Nodup := by
  apply t.distinct_keys_toList.imp
  intro x y hne heq
  exact hne (heq ▸ ReflCmp.compare_self)

/-- The entries of a map into which a new key was inserted. -/
theorem perm_toList_insert (h : t[b]? = none) : (t.insert b c).toList.Perm ((b, c) :: t.toList) := by
  have hnew : (b, c) ∉ t.toList := by
    rw [ExtTreeMap.mem_toList_iff_getElem?_eq_some, h]
    simp
  rw [List.perm_ext_iff_of_nodup (nodup_toList _) (List.nodup_cons.mpr ⟨hnew, nodup_toList t⟩)]
  rintro ⟨k, v⟩
  rw [ExtTreeMap.mem_toList_iff_getElem?_eq_some, List.mem_cons,
    ExtTreeMap.mem_toList_iff_getElem?_eq_some, ExtTreeMap.getElem?_insert]
  split_ifs with hk
  · have hk := LawfulEqOrd.eq_of_compare hk
    subst hk
    simp [h, eq_comm]
  · have hne : ¬ k = b := fun heq => hk (heq ▸ ReflCmp.compare_self)
    simp [hne]

theorem total_insert (h : t[b]? = none) : total w (t.insert b c) = w c + total w t := by
  unfold total
  rw [((perm_toList_insert h).map _).sum_eq, List.map_cons, List.sum_cons]

theorem insert_erase (h : t[b]? = some c) : (t.erase b).insert b c = t := by
  ext k : 1
  rw [ExtTreeMap.getElem?_insert, ExtTreeMap.getElem?_erase]
  split_ifs with hk
  · rw [← LawfulEqOrd.eq_of_compare hk, h]
  · rfl

/-- What an entry that leaves takes from the total. -/
theorem total_erase (h : t[b]? = some c) : total w t = w c + total w (t.erase b) := by
  have hnone : (t.erase b)[b]? = none := by simp
  rw [← total_insert w hnone, insert_erase h]

omit [LawfulEqOrd β] in
/-- A total of bounded weights. -/
theorem total_le {n : ℕ} (hw : ∀ c, w c ≤ n) (t : ExtTreeMap β γ) : total w t ≤ t.size * n := by
  rw [← ExtTreeMap.length_toList, ← List.length_map (fun e : β × γ => w e.2), ← smul_eq_mul]
  apply List.sum_le_card_nsmul
  intro x hx
  obtain ⟨e, -, rfl⟩ := List.mem_map.mp hx
  exact hw e.2

omit [LawfulEqOrd β] in
theorem total_one (t : ExtTreeMap β γ) : total (fun _ => 1) t = t.size := by
  simp [total, ExtTreeMap.length_toList]

end Total

/-! ## Groups -/

section Group

variable {α β γ : Type} [Ord α] [TransOrd α] [Ord β] [TransOrd β]
  {m : ExtTreeMap α (ExtTreeMap β γ)} {a a' : α} {b : β} {c : γ}

/-- The group of an outer key. -/
def group (m : ExtTreeMap α (ExtTreeMap β γ)) (a : α) : ExtTreeMap β γ := m[a]?.getD ∅

/-- Put an entry into a group. -/
def insertAt (m : ExtTreeMap α (ExtTreeMap β γ)) (a : α) (b : β) (c : γ) :
    ExtTreeMap α (ExtTreeMap β γ) := m.insert a ((group m a).insert b c)

/-- Take an entry out of a group, and the group out of the map when it was the last one. -/
def eraseAt (m : ExtTreeMap α (ExtTreeMap β γ)) (a : α) (b : β) :
    ExtTreeMap α (ExtTreeMap β γ) :=
  if ((group m a).erase b).isEmpty then m.erase a else m.insert a ((group m a).erase b)

/-- No group of the map is empty. -/
def Pruned (m : ExtTreeMap α (ExtTreeMap β γ)) : Prop :=
  ∀ (a : α) (t : ExtTreeMap β γ), m[a]? = some t → t ≠ ∅

theorem group_insertAt [DecidableEq α] [LawfulEqOrd α] :
    group (insertAt m a b c) a' = if a = a' then (group m a).insert b c else group m a' := by
  unfold insertAt
  rw [group, ExtTreeMap.getElem?_insert]
  by_cases h : a = a'
  · rw [if_pos h, if_pos (h ▸ ReflCmp.compare_self)]
    rfl
  · rw [if_neg h, if_neg fun hc => h (LawfulEqOrd.eq_of_compare hc)]
    rfl

theorem group_eraseAt [DecidableEq α] [LawfulEqOrd α] :
    group (eraseAt m a b) a' = if a = a' then (group m a).erase b else group m a' := by
  unfold eraseAt
  split_ifs with hempty h h
  · subst h
    rw [ExtTreeMap.isEmpty_iff.mp hempty]
    simp [group]
  · rw [group, ExtTreeMap.getElem?_erase, if_neg fun hc => h (LawfulEqOrd.eq_of_compare hc)]
    rfl
  · subst h
    simp [group]
  · rw [group, ExtTreeMap.getElem?_insert, if_neg fun hc => h (LawfulEqOrd.eq_of_compare hc)]
    rfl

theorem Pruned.insertAt (h : Pruned m) (a : α) (b : β) (c : γ) : Pruned (insertAt m a b c) := by
  intro a' t ht
  unfold GroupedMap.insertAt at ht
  rw [ExtTreeMap.getElem?_insert] at ht
  split_ifs at ht
  · rw [← Option.some.inj ht]
    intro hempty
    have := congrArg (·.contains b) hempty
    simp at this
  · exact h a' t ht

theorem Pruned.eraseAt (h : Pruned m) (a : α) (b : β) : Pruned (eraseAt m a b) := by
  intro a' t ht
  unfold GroupedMap.eraseAt at ht
  split_ifs at ht with hempty
  · rw [ExtTreeMap.getElem?_erase] at ht
    split_ifs at ht
    exact h a' t ht
  · rw [ExtTreeMap.getElem?_insert] at ht
    split_ifs at ht
    · rw [← Option.some.inj ht]
      exact fun hc => hempty (ExtTreeMap.isEmpty_iff.mpr hc)
    · exact h a' t ht

end Group

end GroupedMap
