/-
# Computations that may not end

A program with an unbounded loop has no total function for its meaning.
-/

import Mathlib.Order.Basic
import Mathlib.Data.Nat.Basic

universe u

structure Comp (α : Type u) where
  run : ℕ → Option α
  mono : ∀ ⦃m n : ℕ⦄ ⦃a : α⦄, m ≤ n → run m = some a → run n = some a

namespace Comp

variable {α β σ : Type u}

/-- The computation returns `a`. -/
def Yields (c : Comp α) (a : α) : Prop := ∃ n, c.run n = some a

def Ends (c : Comp α) : Prop := ∃ a, c.Yields a

theorem Yields.unique {c : Comp α} {a b : α} (ha : c.Yields a) (hb : c.Yields b) : a = b := by
  obtain ⟨m, hm⟩ := ha
  obtain ⟨n, hn⟩ := hb
  have hm' := c.mono (le_max_left m n) hm
  rw [c.mono (le_max_right m n) hn] at hm'
  exact (Option.some.inj hm').symm

instance : Monad Comp where
  pure a := { run := fun _ => some a, mono := fun _ _ _ _ h => h }
  bind c f :=
    { run := fun n => (c.run n).bind fun a => (f a).run n
      mono := by
        intro m n b hmn h
        obtain ⟨a, ha, hb⟩ := Option.bind_eq_some_iff.mp h
        exact Option.bind_eq_some_iff.mpr ⟨a, c.mono hmn ha, (f a).mono hmn hb⟩ }

@[simp] theorem yields_pure {a b : α} : (pure a : Comp α).Yields b ↔ b = a :=
  ⟨fun ⟨_, h⟩ => (Option.some.inj h).symm, fun h => ⟨0, congrArg some h.symm⟩⟩

theorem yields_bind {c : Comp α} {f : α → Comp β} {b : β} :
    (c >>= f).Yields b ↔ ∃ a, c.Yields a ∧ (f a).Yields b := by
  constructor
  · rintro ⟨n, h⟩
    obtain ⟨a, ha, hb⟩ := Option.bind_eq_some_iff.mp h
    exact ⟨a, ⟨n, ha⟩, ⟨n, hb⟩⟩
  · rintro ⟨a, ⟨m, ha⟩, ⟨n, hb⟩⟩
    exact ⟨max m n, Option.bind_eq_some_iff.mpr
      ⟨a, c.mono (le_max_left m n) ha, (f a).mono (le_max_right m n) hb⟩⟩

inductive Turn (σ β : Type u)
  | again (s : σ)
  | leave (b : β)

def loopRun (body : σ → Comp (Turn σ β)) : ℕ → σ → Option β
  | 0, _ => none
  | n + 1, s =>
    match (body s).run n with
    | none => none
    | some (.leave b) => some b
    | some (.again t) => loopRun body n t

theorem loopRun_mono {body : σ → Comp (Turn σ β)} {m n : ℕ} {s : σ} {b : β} (hmn : m ≤ n)
    (h : loopRun body m s = some b) : loopRun body n s = some b := by
  induction m generalizing n s with
  | zero => simp [loopRun] at h
  | succ m ih =>
    obtain ⟨n, rfl⟩ : ∃ k, n = k + 1 := ⟨n - 1, by omega⟩
    have hmn' : m ≤ n := by omega
    cases hturn : (body s).run m with
    | none => simp [loopRun, hturn] at h
    | some turn =>
      cases turn with
      | leave b' => simpa [loopRun, hturn, (body s).mono hmn' hturn] using h
      | again t =>
        simp only [loopRun, hturn] at h
        simpa [loopRun, (body s).mono hmn' hturn] using ih hmn' h

/-- `while (1)`. -/
def loop (body : σ → Comp (Turn σ β)) (s : σ) : Comp β where
  run n := loopRun body n s
  mono _ _ _ hmn h := loopRun_mono hmn h

variable {body : σ → Comp (Turn σ β)} {s : σ} {b : β}

theorem yields_loop : (loop body s).Yields b ↔
      (body s).Yields (.leave b) ∨ ∃ t, (body s).Yields (.again t) ∧ (loop body t).Yields b := by
  constructor
  · rintro ⟨n, h⟩
    cases n with
    | zero => cases h
    | succ n =>
      cases hturn : (body s).run n with
      | none => simp [loop, loopRun, hturn] at h
      | some turn =>
        cases turn with
        | leave b' =>
          obtain rfl : b' = b := by simpa [loop, loopRun, hturn] using h
          exact .inl ⟨n, hturn⟩
        | again t =>
          have ht : loopRun body n t = some b := by simpa [loop, loopRun, hturn] using h
          exact .inr ⟨t, ⟨n, hturn⟩, ⟨n, ht⟩⟩
  · rintro (⟨n, h⟩ | ⟨t, ⟨m, hm⟩, ⟨n, hn⟩⟩)
    · exact ⟨n + 1, by simp [loop, loopRun, h]⟩
    · refine ⟨max m n + 1, ?_⟩
      have hturn := (body s).mono (le_max_left m n) hm
      have hrest : loopRun body (max m n) t = some b := loopRun_mono (le_max_right m n) hn
      simp [loop, loopRun, hturn, hrest]

theorem loop_invariant {I : σ → Prop} {P : β → Prop}
    (hleave : ∀ s b, I s → (body s).Yields (.leave b) → P b)
    (hagain : ∀ s t, I s → (body s).Yields (.again t) → I t)
    (hs : I s) (h : (loop body s).Yields b) : P b := by
  obtain ⟨n, hn⟩ := h
  induction n generalizing s with
  | zero => cases hn
  | succ n ih =>
    cases hturn : (body s).run n with
    | none => simp [loop, loopRun, hturn] at hn
    | some turn =>
      cases turn with
      | leave b' =>
        obtain rfl : b' = b := by simpa [loop, loopRun, hturn] using hn
        exact hleave s b' hs ⟨n, hturn⟩
      | again t =>
        have ht : (loop body t).run n = some b := by simpa [loop, loopRun, hturn] using hn
        exact ih (hagain s t hs ⟨n, hturn⟩) ht

theorem not_ends_loop {I : σ → Prop} (hleave : ∀ s b, I s → ¬ (body s).Yields (.leave b))
    (hagain : ∀ s t, I s → (body s).Yields (.again t) → I t) (hs : I s) :
    ¬ (loop body s).Ends := by
  rintro ⟨b, h⟩
  exact loop_invariant (P := fun _ => False) (fun s b hI hb => hleave s b hI hb) hagain hs h

end Comp
