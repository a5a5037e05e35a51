/-
# An index into a heap

A table from keys to pointers, beside the heap it points into.
-/

import Spgw.Lib.Heap
import Mathlib.Logic.Function.Basic

abbrev Table (κ : Type*) := κ → Option ℕ

namespace Table

open Function

variable {κ : Type*} [DecidableEq κ] {t : Table κ} {k l : κ} {p q : ℕ}

def insertNew (t : Table κ) (k : κ) (p : ℕ) : Table κ :=
  match t k with
  | none => update t k (some p)
  | some _ => t

def erase (t : Table κ) (k : κ) : Table κ := update t k none

/-- The table without the entries that point to `p`. -/
def without (t : Table κ) (p : ℕ) : Table κ := fun k => if t k = some p then none else t k

@[grind =]
theorem insertNew_apply : t.insertNew k p l = if l = k ∧ t k = none then some p else t l := by
  cases hk : t k with
  | none => simp [insertNew, hk, update_apply]
  | some q => simp [insertNew, hk]

@[grind =]
theorem erase_apply : t.erase k l = if l = k then none else t l := update_apply ..

end Table

section Indexed

variable {κ α : Type*} {key : α → κ} {ok : α → Prop} {h : Heap α} {t : Table κ} {k : κ} {p : ℕ}
  {a : α}

/-- Every entry points to a record that is `ok` and has the key of the entry. -/
def Indexed (key : α → κ) (ok : α → Prop) (h : Heap α) (t : Table κ) : Prop :=
  ∀ k p, t k = some p → ∃ a, h.get p = some a ∧ ok a ∧ key a = k

namespace Indexed

theorem key_eq (ht : Indexed key ok h t) (hp : h.get p = some a) (hk : t k = some p) :
    k = key a := by
  obtain ⟨b, hb, -, rfl⟩ := ht k p hk
  rw [Option.some.inj (hb.symm.trans hp)]

theorem modify (ht : Indexed key ok h t) (hp : ∀ l, t l ≠ some p) (f : α → α) :
    Indexed key ok (h.modify p f) t := by
  intro l q hl
  obtain ⟨a, ha, hok, hkey⟩ := ht l q hl
  have hne : q ≠ p := by
    rintro rfl
    exact hp l hl
  exact ⟨a, by rw [Heap.get_modify, if_neg hne, ha], hok, hkey⟩

theorem alloc (ht : Indexed key ok h t) : Indexed key ok (h.alloc a) t := by
  intro l q hl
  obtain ⟨b, hb, hok, hkey⟩ := ht l q hl
  exact ⟨b, by grind, hok, hkey⟩

variable [DecidableEq κ]

/-- **Erasing the key of a record removes exactly its entries** -/
theorem erase_eq_without (ht : Indexed key ok h t) (hp : h.get p = some a)
    (hk : ∀ q, t (key a) = some q → q = p) : t.erase (key a) = t.without p := by
  funext l
  unfold Table.without
  by_cases hl : l = key a
  · subst hl
    cases hq : t (key a) with
    | none => simp [Table.erase_apply]
    | some q => simp [Table.erase_apply, hk q hq]
  · have hne : t l ≠ some p := fun hlp => hl (ht.key_eq hp hlp)
    rw [Table.erase_apply, if_neg hl, if_neg hne]

theorem insertNew (ht : Indexed key ok h t) (hp : h.get p = some a) (hok : ok a)
    (hkey : key a = k) : Indexed key ok h (t.insertNew k p) := by
  intro l q hl
  by_cases hnew : l = k ∧ t k = none
  · grind
  · exact ht l q (by grind)

end Indexed

end Indexed
