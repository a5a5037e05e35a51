/-
# Cells written one behind the other

A loop goes over a list and writes into an array, at the counter of the loop itself, so that the
cells of skipped elements stay as they are, or at a second counter that moves on only when a cell is
written.
-/

import Mathlib.Data.List.Basic
import Mathlib.Data.List.Nodup
import Mathlib.Logic.Function.Basic

namespace Cells

open Function

variable {ι α β : Type*}

def marked (p : α → Bool) (xs : List α) : List (α × ℕ) := xs.zipIdx.filter fun e => p e.1

theorem foldl_marked {σ : Type*} (p : α → Bool) (f : σ → α × ℕ → σ) (xs : List α) (s : σ) :
    xs.zipIdx.foldl (fun s e => if p e.1 then f s e else s) s = (marked p xs).foldl f s :=
  List.foldl_filter.symm

theorem map_fst_marked (p : α → Bool) (xs : List α) : (marked p xs).map Prod.fst = xs.filter p := by
  have h : (fun e : α × ℕ => p e.1) = p ∘ Prod.fst := rfl
  rw [marked, h, ← List.filter_map, List.zipIdx_map_fst]

theorem head?_marked_cons (p : α → Bool) (x : α) (xs : List α) (h : p x = true) :
    (marked p (x :: xs)).head? = some (x, 0) := by
  simp [marked, h]

theorem position_pos_of_not (p : α → Bool) (x : α) (xs : List α) (h : p x = false) {e : α × ℕ}
    (he : e ∈ marked p (x :: xs)) : 0 < e.2 := by
  have hmem : e ∈ (xs.zipIdx 1).filter fun e => p e.1 := by
    simpa [marked, h] using he
  have hzip : (e.1, e.2) ∈ xs.zipIdx 1 := List.mem_of_mem_filter hmem
  exact List.le_snd_of_mem_zipIdx hzip

def put (f : ι → β → β) (s : ℕ × (ℕ → β)) (e : ι) : ℕ × (ℕ → β) :=
  (s.1 + 1, update s.2 s.1 (f e (s.2 s.1)))

variable (f : ι → β → β)

theorem foldl_put_of_lt (es : List ι) {j m : ℕ} (a : ℕ → β) (h : m < j) :
    (es.foldl (put f) (j, a)).2 m = a m := by
  induction es generalizing j a with
  | nil => rfl
  | cons e es ih =>
    rw [List.foldl_cons, put, ih _ (Nat.lt_succ_of_lt h)]
    exact update_of_ne (Nat.ne_of_lt h) ..

/-- **The element at position `k` works on cell `k` behind the start of the counter.** -/
theorem foldl_put_add (es : List ι) (j k : ℕ) (a : ℕ → β) : (es.foldl (put f) (j, a)).2 (j + k) =
      es[k]?.elim (a (j + k)) fun e => f e (a (j + k)) := by
  induction es generalizing j k a with
  | nil => rfl
  | cons e es ih =>
    cases k with
    | zero => exact (foldl_put_of_lt f es _ (Nat.lt_succ_self j)).trans (update_self ..)
    | succ k =>
      have hne : j + (k + 1) ≠ j := by omega
      have hcell := ih (j + 1) k (update a j (f e (a j)))
      rw [Nat.add_assoc, Nat.add_comm 1 k, update_of_ne hne] at hcell
      simpa [put] using hcell

theorem map_range_foldl_put (es : List ι) (b : β) :
    (List.range es.length).map (es.foldl (put f) (0, fun _ => b)).2 = es.map (f · b) := by
  apply List.ext_getElem?
  intro k
  have hcell := foldl_put_add f es 0 k fun _ => b
  rw [Nat.zero_add] at hcell
  rcases Nat.lt_or_ge k es.length with hk | hk
  · rw [List.getElem?_eq_getElem hk] at hcell
    simp [hk, hcell]
  · simp [hk]

def mark (g : α → β → β) (a : ℕ → β) (e : α × ℕ) : ℕ → β := update a e.2 (g e.1 (a e.2))

theorem foldl_mark_holds {g : α → β → β} {P : β → Prop} (hg : ∀ x b, P (g x b))
    (es : List (α × ℕ)) (a : ℕ → β) :
    (∀ e ∈ es, P (es.foldl (mark g) a e.2)) ∧ ∀ m, P (a m) → P (es.foldl (mark g) a m) := by
  induction es generalizing a with
  | nil => exact ⟨fun e he => absurd he List.not_mem_nil, fun m hm => hm⟩
  | cons e es ih =>
    obtain ⟨hmem, hkeep⟩ := ih (mark g a e)
    have hself : P (mark g a e e.2) := by
      rw [mark, update_self]
      exact hg ..
    refine ⟨?_, ?_⟩
    · intro x hx
      rcases List.mem_cons.mp hx with rfl | hx
      · exact hkeep _ hself
      · exact hmem x hx
    · intro m hm
      refine hkeep m ?_
      rcases eq_or_ne m e.2 with rfl | hne
      · exact hself
      · rwa [mark, update_of_ne hne]

end Cells
