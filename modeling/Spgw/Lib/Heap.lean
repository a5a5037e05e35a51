/-
# A heap of records

A heap is a list of cells; a pointer is an index. A cell that has been freed stays in the list as
`none`, so a pointer is never handed out twice.
-/

import Mathlib.Data.List.Basic

structure Heap (α : Type*) where
  cells : List (Option α) := []

attribute [grind =] Function.update_apply

namespace Heap

variable {α : Type*} {h : Heap α} {p q : ℕ} {a b : α}

/-- The record at `p`, if it is allocated. -/
def get (h : Heap α) (p : ℕ) : Option α := h.cells[p]?.join

def next (h : Heap α) : ℕ := h.cells.length

def alloc (h : Heap α) (a : α) : Heap α := ⟨h.cells ++ [some a]⟩

def set (h : Heap α) (p : ℕ) (a : α) : Heap α := ⟨h.cells.set p (some a)⟩

def free (h : Heap α) (p : ℕ) : Heap α := ⟨h.cells.set p none⟩

/-- A write through `f`; nothing happens at a pointer that is not allocated. -/
def modify (h : Heap α) (p : ℕ) (f : α → α) : Heap α :=
  match h.get p with
  | some a => h.set p (f a)
  | none => h

def live (h : Heap α) : List α := h.cells.filterMap id

@[grind →] theorem lt_next_of_get (hp : h.get p = some a) : p < h.next := by
  by_contra hlt
  rw [get, List.getElem?_eq_none (Nat.not_lt.mp hlt)] at hp
  cases hp

@[grind =] theorem get_next : h.get h.next = none := by
  simp [get, next]

@[grind =] theorem get_alloc : (h.alloc a).get q = if q = h.next then some a else h.get q := by
  unfold get alloc next
  split_ifs with hq
  · simp [hq]
  · rcases Nat.lt_or_ge q h.cells.length with hlt | hge
    · rw [List.getElem?_append_left hlt]
    · have hlen : (h.cells ++ [some a]).length ≤ q := by
        rw [List.length_append, List.length_singleton]
        omega
      rw [List.getElem?_eq_none hlen, List.getElem?_eq_none hge]

@[grind =] theorem get_set_eq :
    (h.set p b).get q = if q = p ∧ p < h.next then some b else h.get q := by
  unfold get set next
  rw [List.getElem?_set]
  grind

theorem get_set (hp : h.get p = some a) : (h.set p b).get q = if q = p then some b else h.get q := by
  simp only [get_set_eq, lt_next_of_get hp, and_true]

@[grind =] theorem get_free : (h.free p).get q = if q = p then none else h.get q := by
  unfold get free
  split_ifs with hq
  · rcases Nat.lt_or_ge p h.cells.length with hlt | hge
    · simp [hq, hlt]
    · rw [List.getElem?_eq_none (by simpa [hq] using hge)]
      rfl
  · rw [List.getElem?_set_ne (Ne.symm hq)]

theorem get_of_get_free (hq : (h.free p).get q = some a) : h.get q = some a := by
  rw [get_free] at hq
  split_ifs at hq
  exact hq

@[grind =] theorem get_modify (f : α → α) :
    (h.modify p f).get q = if q = p then (h.get q).map f else h.get q := by
  cases hp : h.get p with
  | none =>
    simp only [modify, hp]
    split_ifs with hq
    · rw [hq, hp]
      rfl
    · rfl
  | some a =>
    simp only [modify, hp]
    rw [get_set hp]
    split_ifs with hq
    · rw [hq, hp]
      rfl
    · rfl

@[simp, grind =] theorem next_alloc : (h.alloc a).next = h.next + 1 := by
  simp [next, alloc]

@[simp, grind =] theorem next_set : (h.set p a).next = h.next := by
  simp [next, set]

@[simp, grind =] theorem next_free : (h.free p).next = h.next := by
  simp [next, free]

theorem next_modify (f : α → α) : (h.modify p f).next = h.next := by
  unfold modify
  split
  · exact next_set
  · rfl

@[simp] theorem live_alloc : (h.alloc a).live = h.live ++ [a] := by
  simp [live, alloc, List.filterMap_append]

@[grind =] theorem mem_live_iff : a ∈ h.live ↔ ∃ p, h.get p = some a := by
  simp only [live, List.mem_filterMap, id, get]
  constructor
  · rintro ⟨o, ho, rfl⟩
    obtain ⟨i, hi⟩ := List.getElem?_of_mem ho
    exact ⟨i, by simp [hi]⟩
  · rintro ⟨i, hi⟩
    cases ho : h.cells[i]? with
    | none => simp [ho] at hi
    | some o =>
      refine ⟨o, List.mem_of_getElem? ho, ?_⟩
      simpa [ho] using hi

theorem exists_live_eq (hp : h.get p = some a) :
    ∃ l r, h.live = l ++ a :: r ∧ (∀ b, (h.set p b).live = l ++ b :: r) ∧
      (h.free p).live = l ++ r := by
  have hlt : p < h.cells.length := lt_next_of_get hp
  have hcell : h.cells[p] = some a := by
    rw [get, List.getElem?_eq_getElem hlt] at hp
    simpa using hp
  have hsplit : h.cells.take p ++ some a :: h.cells.drop (p + 1) = h.cells := by simp [← hcell]
  refine ⟨(h.cells.take p).filterMap id, (h.cells.drop (p + 1)).filterMap id, ?_, ?_, ?_⟩
  · calc h.live = (h.cells.take p ++ some a :: h.cells.drop (p + 1)).filterMap id := by
          rw [hsplit, live]
      _ = _ := by rw [List.filterMap_append]; rfl
  · intro b
    simp [live, set, List.set_eq_take_append_cons_drop, hlt, List.filterMap_append]
  · simp [live, free, List.set_eq_take_append_cons_drop, hlt, List.filterMap_append]

theorem set_self (hp : h.get p = some a) : h.set p a = h := by
  have hlt : p < h.cells.length := lt_next_of_get hp
  have hcell : h.cells[p] = some a := by
    rw [get, List.getElem?_eq_getElem hlt] at hp
    simpa using hp
  rw [set, ← hcell, List.set_getElem_self hlt]

theorem set_set : (h.set p a).set p b = h.set p b := by
  simp [set]

theorem map_get_set {β : Type*} {f : α → β} (hp : h.get p = some a) (hf : f b = f a) :
    ((h.set p b).get q).map f = (h.get q).map f := by
  rw [get_set hp]
  split_ifs with hq
  · rw [hq, hp, Option.map_some, Option.map_some, hf]
  · rfl

theorem free_set : (h.set p a).free p = h.free p := by
  simp [set, free]

theorem set_alloc : (h.alloc a).set h.next b = h.alloc b := by
  simp [set, alloc, next]

/-- Every record of `h'` was there in `h`, and has changed only as `R` allows. -/
def Evolves (R : α → α → Prop) (h h' : Heap α) : Prop :=
  ∀ p b, h'.get p = some b → ∃ a, h.get p = some a ∧ R a b

section Evolves

variable {R : α → α → Prop} {h' h'' : Heap α}

theorem Evolves.refl (hR : ∀ a, R a a) : Evolves R h h :=
  fun _ b hb => ⟨b, hb, hR b⟩

theorem Evolves.trans (hR : ∀ a b c, R a b → R b c → R a c) (h₁ : Evolves R h h')
    (h₂ : Evolves R h' h'') : Evolves R h h'' := by
  intro p c hc
  obtain ⟨b, hb, hbc⟩ := h₂ p c hc
  obtain ⟨a, ha, hab⟩ := h₁ p b hb
  exact ⟨a, ha, hR a b c hab hbc⟩

theorem Evolves.mono {R' : α → α → Prop} (h₁ : Evolves R h h') (hR : ∀ a b, R a b → R' a b) :
    Evolves R' h h' := by
  intro p b hb
  obtain ⟨a, ha, hab⟩ := h₁ p b hb
  exact ⟨a, ha, hR a b hab⟩

theorem evolves_set (hR : ∀ a, R a a) (hp : h.get p = some a) (hab : R a b) :
    Evolves R h (h.set p b) := by
  intro q c hc
  rw [get_set hp] at hc
  split_ifs at hc with hq
  · cases hc
    exact ⟨a, hq ▸ hp, hab⟩
  · exact ⟨c, hc, hR c⟩

theorem evolves_free (hR : ∀ a, R a a) : Evolves R h (h.free p) := by
  intro q c hc
  rw [get_free] at hc
  split_ifs at hc
  exact ⟨c, hc, hR c⟩

end Evolves

variable {β : Type*} {f : α → Option β}

def held (f : α → Option β) (h : Heap α) : List β := h.live.filterMap f

@[simp] theorem held_alloc : (h.alloc a).held f = h.held f ++ (f a).toList := by
  cases hfa : f a <;> simp [held, List.filterMap_append, hfa]

theorem exists_held_perm (f : α → Option β) (hp : h.get p = some a) :
    ∃ rest, (h.held f).Perm ((f a).toList ++ rest) ∧
      (∀ b, ((h.set p b).held f).Perm ((f b).toList ++ rest)) ∧
      ((h.free p).held f).Perm rest := by
  obtain ⟨l, r, hlive, hset, hfree⟩ := exists_live_eq hp
  have hmove (b : α) : ((l ++ b :: r).filterMap f).Perm ((f b).toList ++ (l ++ r).filterMap f) := by
    rw [List.filterMap_append, List.filterMap_append]
    cases hfb : f b with
    | none => rw [List.filterMap_cons_none hfb]; rfl
    | some c =>
      rw [List.filterMap_cons_some hfb]
      exact List.perm_middle
  refine ⟨(l ++ r).filterMap f, ?_, fun b => ?_, ?_⟩
  · rw [held, hlive]
    exact hmove a
  · rw [held, hset]
    exact hmove b
  · rw [held, hfree]

end Heap
