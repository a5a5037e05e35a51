/-
# Computations that leave a state as it is

A computation over a state `σ` that may fail, and whose writes survive its failure, is an `ExceptT φ
(StateM σ)`.
-/

import Mathlib.Data.List.Basic

namespace Frame

variable {σ φ α β ι : Type} {s : σ}

/-- From `s`, `m` gives `x` and leaves the state. -/
def Leaves (m : ExceptT φ (StateM σ) α) (s : σ) (x : Except φ α) : Prop := m.run.run s = (x, s)

def lift (x : Except φ α) : ExceptT φ (StateM σ) α := ExceptT.mk (pure x)

theorem leaves_lift (x : Except φ α) : Leaves (lift x) s x := rfl

theorem leaves_pure (a : α) : Leaves (pure a : ExceptT φ (StateM σ) α) s (.ok a) := rfl

theorem Leaves.bind {m : ExceptT φ (StateM σ) α} {x : Except φ α}
    {f : α → ExceptT φ (StateM σ) β} {g : α → Except φ β} (hm : Leaves m s x)
    (hf : ∀ a, x = .ok a → Leaves (f a) s (g a)) : Leaves (m >>= f) s (x >>= g) := by
  unfold Leaves at hm ⊢
  rw [ExceptT.run_bind, StateT.run_bind, hm]
  cases x with
  | error e => rfl
  | ok a => exact hf a rfl

theorem Leaves.run_bind {m : ExceptT φ (StateM σ) α} {a : α} {f : α → ExceptT φ (StateM σ) β}
    (hm : Leaves m s (.ok a)) : (m >>= f).run.run s = (f a).run.run s := by
  unfold Leaves at hm
  rw [ExceptT.run_bind, StateT.run_bind, hm]
  rfl

theorem run_bind_of_error {m : ExceptT φ (StateM σ) α} {e : φ} {t : σ}
    {f : α → ExceptT φ (StateM σ) β} (hm : m.run.run s = (.error e, t)) :
    (m >>= f).run.run s = (.error e, t) := by
  rw [ExceptT.run_bind, StateT.run_bind, hm]
  rfl

theorem Leaves.seq {m : ExceptT φ (StateM σ) α} {a : α} {f : α → ExceptT φ (StateM σ) β}
    {y : Except φ β} (hm : Leaves m s (.ok a)) (hf : Leaves (f a) s y) : Leaves (m >>= f) s y :=
  hm.bind (g := fun _ => y) fun _ hb => Except.ok.inj hb ▸ hf

theorem Leaves.andThen {m : ExceptT φ (StateM σ) α} {x : Except φ α}
    {f : α → ExceptT φ (StateM σ) α} (hm : Leaves m s x) (hf : ∀ a, Leaves (f a) s (.ok a)) :
    Leaves (m >>= f) s x := by
  have h := hm.bind (g := pure) fun a _ => hf a
  rwa [bind_pure] at h

theorem Leaves.foldlM {f : α → ι → ExceptT φ (StateM σ) α} {g : α → ι → Except φ α}
    {Q : α → Prop} {l : List ι} {a : α}
    (hf : ∀ a, Q a → ∀ i ∈ l, Leaves (f a i) s (g a i) ∧ ∀ b, g a i = .ok b → Q b) (ha : Q a) :
    Leaves (l.foldlM f a) s (l.foldlM g a) ∧ ∀ b, l.foldlM g a = .ok b → Q b := by
  induction l generalizing a with
  | nil => exact ⟨leaves_pure a, fun b hb => Except.ok.inj hb ▸ ha⟩
  | cons i l ih =>
    obtain ⟨hturn, hkeeps⟩ := hf a ha i (List.mem_cons_self ..)
    have hrest (b : α) (hb : g a i = .ok b) :=
      ih (fun a ha j hj => hf a ha j (List.mem_cons_of_mem i hj)) (hkeeps b hb)
    rw [List.foldlM_cons, List.foldlM_cons]
    refine ⟨hturn.bind fun b hb => (hrest b hb).1, fun c hc => ?_⟩
    cases hgi : g a i with
    | error e =>
      rw [hgi] at hc
      cases hc
    | ok b =>
      rw [hgi] at hc
      exact (hrest b hgi).2 c hc

end Frame
