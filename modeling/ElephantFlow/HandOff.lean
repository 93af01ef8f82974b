/-
# Handing work over in order

A producer side accepts items, a consumer side receives them one at a time, and a
part of what is still pending may be discarded.  `Accounts` relates the four lists
such a hand-off leaves: the items accepted so far, those delivered, those pending
and those discarded.  It says that nothing is reordered or delivered twice
(`ordered`) and that nothing is lost (`complete`).  The three rules `accept`,
`deliver` and `discard` are the moves that a queue between two threads makes.
-/
import Mathlib.Data.List.Perm.Basic

namespace HandOff

variable {α : Type*}

/-- The delivered and pending items are accepted items in the order of acceptance, and together with
the discarded ones they are all of them. -/
structure Accounts (accepted delivered pending discarded : List α) : Prop where
  ordered : (delivered ++ pending).Sublist accepted
  complete : (delivered ++ pending ++ discarded).Perm accepted

variable {accepted delivered pending discarded : List α}

namespace Accounts

theorem start : Accounts ([] : List α) [] [] [] :=
  ⟨List.Sublist.refl _, List.Perm.refl _⟩

/-- An accepted item goes to the end of what is pending. -/
theorem accept (h : Accounts accepted delivered pending discarded) (x : α) :
    Accounts (accepted ++ [x]) delivered (pending ++ [x]) discarded := by
  constructor
  · rw [← List.append_assoc]
    exact h.ordered.append (List.Sublist.refl [x])
  · calc (delivered ++ (pending ++ [x]) ++ discarded).Perm
          ((delivered ++ pending) ++ ([x] ++ discarded)) := by
          simp only [List.append_assoc]
          exact List.Perm.refl _
      List.Perm _ ((delivered ++ pending) ++ (discarded ++ [x])) :=
          List.Perm.append_left _ List.perm_append_comm
      List.Perm _ (accepted ++ [x]) := by
          rw [← List.append_assoc]
          exact h.complete.append_right [x]

theorem deliver {x : α} (h : Accounts accepted delivered (x :: pending) discarded) :
    Accounts accepted (delivered ++ [x]) pending discarded := by
  have hsplit : delivered ++ [x] ++ pending = delivered ++ x :: pending := by
    rw [List.append_assoc, List.singleton_append]
  constructor
  · rw [hsplit]
    exact h.ordered
  · rw [hsplit]
    exact h.complete

/-- The end of what is pending is discarded. -/
theorem discard {kept gone : List α}
    (h : Accounts accepted delivered (kept ++ gone) discarded) :
    Accounts accepted delivered kept (discarded ++ gone) := by
  constructor
  · exact ((List.sublist_append_left kept gone).append_left delivered).trans h.ordered
  · refine List.Perm.trans ?_ h.complete
    rw [← List.append_assoc delivered kept gone, List.append_assoc (delivered ++ kept) gone]
    exact List.Perm.append_left _ List.perm_append_comm

theorem delivered_sublist (h : Accounts accepted delivered pending discarded) :
    delivered.Sublist accepted :=
  (List.sublist_append_left delivered pending).trans h.ordered

/-- Every accepted item is counted once. -/
theorem length_accepted (h : Accounts accepted delivered pending discarded) :
    accepted.length = delivered.length + pending.length + discarded.length := by
  rw [← h.complete.length_eq, List.length_append, List.length_append]

end Accounts

end HandOff
