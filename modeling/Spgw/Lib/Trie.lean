/-
# A search tree over key lists

A node has a child for some of the keys and a value; a path of keys leads to at most one node.
-/

import Mathlib.Logic.Function.Basic
import Mathlib.Data.Option.Basic

inductive Trie (κ ν : Type)
  | node (child : κ → Option (Trie κ ν)) (val : ν)

namespace Trie

open Function

variable {κ ν : Type}

def leaf (v : ν) : Trie κ ν := node (fun _ => none) v

def find? : Trie κ ν → List κ → Option ν
  | node _ v, [] => some v
  | node child _, k :: ks => match child k with
    | some t => t.find? ks
    | none => none

@[simp] theorem find?_leaf_cons (v : ν) (k : κ) (ks : List κ) :
    (leaf v).find? (k :: ks) = none := rfl

variable [DecidableEq κ]

/-- The value at the end of a path becomes `v`; nothing happens off the tree. -/
def set (v : ν) : Trie κ ν → List κ → Trie κ ν
  | node child _, [] => node child v
  | node child w, k :: ks => match child k with
    | some t => node (update child k (some (t.set v ks))) w
    | none => node child w

/-- The nodes of a path that are missing are created, with value `v`. -/
def insert (v : ν) : Trie κ ν → List κ → Trie κ ν
  | t, [] => t
  | node child w, k :: ks =>
    node (update child k (some ((child k).getD (leaf v) |>.insert v ks))) w

theorem find?_set {v : ν} (t : Trie κ ν) (p q : List κ) :
    (t.set v p).find? q = if p = q then (t.find? p).map fun _ => v else t.find? q := by
  induction p generalizing t q with
  | nil =>
    obtain ⟨child, w⟩ := t
    cases q <;> simp [set, find?]
  | cons k ks ih =>
    obtain ⟨child, w⟩ := t
    cases q with
    | nil => cases hk : child k <;> simp [set, find?, hk]
    | cons k' ks' =>
      by_cases hkk : k = k'
      · subst hkk
        cases hk : child k <;> simp [set, find?, hk, ih]
      · have hne : ¬ k :: ks = k' :: ks' := by simp [hkk]
        rw [if_neg hne]
        cases hk : child k with
        | none => simp [set, hk]
        | some t => simp [set, find?, hk, update_of_ne (Ne.symm hkk)]

theorem find?_insert {v : ν} (t : Trie κ ν) (p q : List κ) :
    (t.insert v p).find? q = t.find? q ∨ (t.find? q = none ∧ (t.insert v p).find? q = some v) := by
  induction p generalizing t q with
  | nil =>
    obtain ⟨child, w⟩ := t
    exact Or.inl rfl
  | cons k ks ih =>
    obtain ⟨child, w⟩ := t
    cases q with
    | nil => exact Or.inl rfl
    | cons k' ks' =>
      by_cases hkk : k = k'
      · subst hkk
        cases hk : child k with
        | some t => simpa [insert, find?, hk] using ih t ks'
        | none =>
          have hnew : ((node child w).insert v (k :: ks)).find? (k :: ks') =
              ((leaf v).insert v ks).find? ks' := by simp [insert, find?, hk]
          have hold : (node child w).find? (k :: ks') = none := by simp [find?, hk]
          rw [hnew, hold]
          rcases ih (leaf v) ks' with h | ⟨-, h⟩
          · cases ks' with
            | nil => exact Or.inr ⟨rfl, h⟩
            | cons => exact Or.inl h
          · exact Or.inr ⟨rfl, h⟩
      · exact Or.inl (by simp [insert, find?, update_of_ne (Ne.symm hkk)])

theorem find?_insert_self {v : ν} (t : Trie κ ν) (p : List κ) :
    (t.insert v p).find? p = some ((t.find? p).getD v) := by
  induction p generalizing t with
  | nil =>
    obtain ⟨child, w⟩ := t
    rfl
  | cons k ks ih =>
    obtain ⟨child, w⟩ := t
    cases hk : child k with
    | some t => simp [insert, find?, hk, ih]
    | none =>
      have hnew := ih (leaf v)
      cases ks with
      | nil => simp [insert, find?, hk, leaf]
      | cons => simpa [insert, find?, hk] using hnew

theorem find?_insert_of_ne {v : ν} (t : Trie κ ν) {p q : List κ} (hlen : p.length = q.length)
    (hne : p ≠ q) : (t.insert v p).find? q = t.find? q := by
  induction p generalizing t q with
  | nil => exact absurd (List.length_eq_zero_iff.mp hlen.symm).symm hne
  | cons k ks ih =>
    obtain ⟨child, w⟩ := t
    cases q with
    | nil => simp at hlen
    | cons k' ks' =>
      by_cases hkk : k = k'
      · subst hkk
        have hrest : ks ≠ ks' := fun h => hne (by rw [h])
        have hlen' : ks.length = ks'.length := by simpa using hlen
        cases hk : child k with
        | some t => simp [insert, find?, hk, ih t hlen' hrest]
        | none =>
          have hnew := ih (leaf v) hlen' hrest
          cases ks' with
          | nil => exact absurd (List.length_eq_zero_iff.mp hlen') hrest
          | cons => simpa [insert, find?, hk] using hnew
      · simp [insert, find?, update_of_ne (Ne.symm hkk)]

end Trie
