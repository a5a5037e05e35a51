/-
# Infinite runs

A `Behaviour` of a partial event machine is a sequence of states with one event between two of them,
or none.
-/

import Mathlib.Data.Nat.Find
import Mathlib.Tactic.Common
import Spgw.Lib.Run

namespace Machine

variable {σ ε : Type*} {step : σ → ε → Option σ}

/-- A run of the machine; `none` is a moment at which nothing happens. -/
structure Behaviour (step : σ → ε → Option σ) where
  state : ℕ → σ
  event : ℕ → Option ε
  moves : ∀ n e, event n = some e → step (state n) e = some (state (n + 1))
  rests : ∀ n, event n = none → state (n + 1) = state n

namespace Behaviour

variable {b : Behaviour step} {G : σ → ε → Prop} {I : σ → Prop}

/-- Every event meets `G` in the state it arrives in. -/
def Guarded (b : Behaviour step) (G : σ → ε → Prop) : Prop :=
  ∀ n e, b.event n = some e → G (b.state n) e

/-- **An invariant that every guarded step keeps holds at every moment.** -/
theorem invariant (hstep : ∀ s e t, I s → G s e → step s e = some t → I t) (hg : b.Guarded G)
    (hstart : I (b.state 0)) (n : ℕ) : I (b.state n) := by
  induction n with
  | zero => exact hstart
  | succ n ih =>
    cases he : b.event n with
    | none =>
      rw [b.rests n he]
      exact ih
    | some e => exact hstep _ e _ ih (hg n e he) (b.moves n e he)

theorem step_final_take (s : σ) (es : List ε) (h : (final step s es).isSome) (n : ℕ) (e : ε)
    (he : es[n]? = some e) : step ((final step s (es.take n)).getD s) e =
      some ((final step s (es.take (n + 1))).getD s) := by
  obtain ⟨hn, rfl⟩ := List.getElem?_eq_some_iff.mp he
  have htake : es.take (n + 1) = es.take n ++ [es[n]] := List.take_succ_eq_append_getElem hn
  have hsplit : final step s es =
      (final step s (es.take n)).bind fun t => final step t (es.drop n) := by
    rw [← final_append, List.take_append_drop]
  rw [hsplit, List.drop_eq_getElem_cons hn] at h
  rw [htake, final_append]
  cases hs : final step s (es.take n) with
  | none =>
    rw [hs] at h
    cases h
  | some t =>
    rw [hs] at h
    cases ht : step t es[n] with
    | none =>
      rw [Option.bind_some, final, ht] at h
      cases h
    | some u => simp [final, ht]

theorem final_take_succ (s : σ) (es : List ε) (n : ℕ) (he : es[n]? = none) :
    (final step s (es.take (n + 1))).getD s = (final step s (es.take n)).getD s := by
  have hn : es.length ≤ n := List.getElem?_eq_none_iff.mp he
  rw [List.take_of_length_le hn, List.take_of_length_le (by omega)]

def ofRun (s : σ) (es : List ε) (h : (final step s es).isSome) : Behaviour step where
  state n := (final step s (es.take n)).getD s
  event n := es[n]?
  moves := step_final_take s es h
  rests := final_take_succ s es

theorem ofRun_state_of_le {s : σ} {es : List ε} {h : (final step s es).isSome} {n : ℕ}
    (hn : es.length ≤ n) : (ofRun s es h).state n = (ofRun s es h).state es.length := by
  simp only [ofRun, List.take_of_length_le hn, List.take_length]

end Behaviour

variable {P Q : ℕ → Prop} {n : ℕ}

theorem until_next (hnext : ∀ k, n ≤ k → P k → Q k ∨ P (k + 1)) (hn : P n) {k : ℕ} (hk : n ≤ k) :
    (∃ j, n ≤ j ∧ j < k ∧ Q j) ∨ P k := by
  induction k, hk using Nat.le_induction with
  | base => exact Or.inr hn
  | succ k hk ih =>
    rcases ih with ⟨j, hnj, hjk, hj⟩ | hP
    · exact Or.inl ⟨j, hnj, by omega, hj⟩
    · rcases hnext k hk hP with hQ | hP
      · exact Or.inl ⟨k, hk, by omega, hQ⟩
      · exact Or.inr hP

/-- **If from every moment with `P` there is a later one with `Q`, or with `P` and a smaller rank,
then `P` leads to `Q`.** -/
theorem exists_of_rank (rank : ℕ → ℕ)
    (hnext : ∀ k, P k → ∃ l, k ≤ l ∧ (Q l ∨ P l ∧ rank l < rank k)) (hn : P n) :
    ∃ k, n ≤ k ∧ Q k := by
  induction hr : rank n using Nat.strongRecOn generalizing n with
  | _ r ih =>
    obtain ⟨l, hl, hQ | ⟨hP, hlt⟩⟩ := hnext n hn
    · exact ⟨l, hl, hQ⟩
    · obtain ⟨k, hk, hQ⟩ := ih (rank l) (hr ▸ hlt) hP rfl
      exact ⟨k, Nat.le_trans hl hk, hQ⟩

end Machine
