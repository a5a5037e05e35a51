/-
# Runs of a partial event machine

A machine is a partial step function `step : σ → ε → Option σ`; `none` is an event that the program
does not survive (a failed assertion, a dangling pointer).
-/

import Mathlib.Data.List.Basic
import Mathlib.Data.List.Forall2

namespace Machine

variable {σ ε : Type*}

def trace (step : σ → ε → Option σ) : σ → List ε → List σ
  | s, [] => [s]
  | s, e :: es => s :: match step s e with
    | some t => trace step t es
    | none => []

/-- Every event of the run meets `G` in the state it arrives in. -/
def Guarded (step : σ → ε → Option σ) (G : σ → ε → Prop) : σ → List ε → Prop
  | _, [] => True
  | s, e :: es => G s e ∧ match step s e with
    | some t => Guarded step G t es
    | none => True

instance Guarded.instDecidable (step : σ → ε → Option σ) (G : σ → ε → Prop)
    [∀ s e, Decidable (G s e)] : ∀ s es, Decidable (Guarded step G s es)
  | _, [] => isTrue trivial
  | s, e :: es =>
    have : Decidable (match step s e with
        | some t => Guarded step G t es
        | none => True) :=
      match step s e with
      | some t => Guarded.instDecidable step G t es
      | none => isTrue trivial
    inferInstanceAs (Decidable (G s e ∧ _))

variable {step : σ → ε → Option σ} {G : σ → ε → Prop} {I : σ → Prop}

def final (step : σ → ε → Option σ) : σ → List ε → Option σ
  | s, [] => some s
  | s, e :: es => (step s e).bind fun t => final step t es

theorem final_append {s : σ} {es es' : List ε} :
    final step s (es ++ es') = (final step s es).bind fun t => final step t es' := by
  induction es generalizing s with
  | nil => rfl
  | cons e es ih =>
    cases hse : step s e with
    | none => simp [final, hse]
    | some t => simpa [final, hse] using ih

theorem mem_trace_of_final {s t : σ} {es : List ε} (h : final step s es = some t) :
    t ∈ trace step s es := by
  induction es generalizing s with
  | nil =>
    obtain rfl := Option.some.inj h
    exact List.mem_singleton_self s
  | cons e es ih =>
    obtain ⟨u, hu, ht⟩ := Option.bind_eq_some_iff.mp h
    simp only [trace, hu]
    exact List.mem_cons_of_mem s (ih ht)

/-- **An invariant that every guarded step keeps holds along every guarded run.** -/
theorem trace_invariant
    (hstep : ∀ s e t, I s → G s e → step s e = some t → I t) {s : σ} {es : List ε}
    (hs : I s) (hg : Guarded step G s es) : ∀ t ∈ trace step s es, I t := by
  induction es generalizing s with
  | nil =>
    intro t ht
    rw [List.mem_singleton.mp ht]
    exact hs
  | cons e es ih =>
    intro t ht
    obtain ⟨hge, hrest⟩ := hg
    rcases List.mem_cons.mp ht with rfl | ht
    · exact hs
    · cases hse : step s e with
      | none => simp [hse] at ht
      | some u =>
        simp only [hse] at ht hrest
        exact ih (hstep s e u hs hge hse) hrest t ht

theorem guarded_of_forall {H : ε → Prop} {es : List ε} (h : ∀ e ∈ es, H e) (s : σ) :
    Guarded step (fun _ => H) s es := by
  induction es generalizing s with
  | nil => trivial
  | cons e es ih =>
    refine ⟨h e (List.mem_cons_self ..), ?_⟩
    cases step s e with
    | none => trivial
    | some t => exact ih (fun e' he' => h e' (List.mem_cons_of_mem e he')) t

/-- **An invariant that every step keeps holds at the end of every run.** -/
theorem final_invariant (hstep : ∀ s e t, I s → step s e = some t → I t) {s t : σ} {es : List ε}
    (hs : I s) (h : final step s es = some t) : I t := by
  induction es generalizing s with
  | nil => exact Option.some.inj h ▸ hs
  | cons e es ih =>
    obtain ⟨u, hu, ht⟩ := Option.bind_eq_some_iff.mp h
    exact ih (hstep s e u hs hu) ht

/-- **What an invariant and the guard imply of an event holds of every event of a guarded
run.** -/
theorem Guarded.of_invariant {H : σ → ε → Prop}
    (hstep : ∀ s e t, I s → G s e → step s e = some t → I t)
    (hH : ∀ s e, I s → G s e → H s e) {s : σ} {es : List ε} (hs : I s)
    (hg : Guarded step G s es) : Guarded step H s es := by
  induction es generalizing s with
  | nil => trivial
  | cons e es ih =>
    obtain ⟨hge, hrest⟩ := hg
    refine ⟨hH s e hs hge, ?_⟩
    cases hse : step s e with
    | none => trivial
    | some t =>
      simp only [hse] at hrest
      exact ih (hstep s e t hs hge hse) hrest

theorem Guarded.isSome_final (hstep : ∀ s e, I s → G s e → ∃ t, step s e = some t ∧ I t) {s : σ}
    {es : List ε} (hs : I s) (hg : Guarded step G s es) : (final step s es).isSome := by
  induction es generalizing s with
  | nil => rfl
  | cons e es ih =>
    obtain ⟨hge, hrest⟩ := hg
    obtain ⟨t, hse, ht⟩ := hstep s e hs hge
    simp only [hse] at hrest
    simpa [final, hse] using ih ht hrest

/-- **A property that a run has in all its states proves a guard** -/
theorem guarded_of_trace {P : σ → Prop} (hstep : ∀ s e t, I s → step s e = some t → P t → G s e ∧ I t)
    {s : σ} {es : List ε} (hs : I s) (hfinal : (final step s es).isSome)
    (hP : ∀ t ∈ trace step s es, P t) : Guarded step G s es := by
  induction es generalizing s with
  | nil => trivial
  | cons e es ih =>
    cases hse : step s e with
    | none => simp [final, hse] at hfinal
    | some t =>
      simp only [final, hse, Option.bind_some] at hfinal
      simp only [trace, hse, List.mem_cons, forall_eq_or_imp] at hP
      have ht : t ∈ trace step t es := by
        cases es with
        | nil => exact List.mem_singleton_self t
        | cons e' es => exact List.mem_cons_self ..
      obtain ⟨hg, hi⟩ := hstep s e t hs hse (hP.2 t ht)
      refine ⟨hg, ?_⟩
      rw [hse]
      exact ih hi hfinal hP.2

/-! ### Steps that may fail

A program that can fail gives a step `σ → ε → Except φ σ`.  Its run goes on while
the steps succeed; the failure, if there is one, is the last entry of the trace. -/

/-- `m` fails with a failure in `E` or succeeds with a result in `Q`. -/
def Sat {φ α : Type*} (m : Except φ α) (Q : α → Prop) (E : φ → Prop) : Prop :=
  match m with
  | .ok a => Q a
  | .error f => E f

section Sat

universe u

variable {φ : Type*} {α β : Type u} {E : φ → Prop} {m : Except φ α}

theorem Sat.bind {R : α → Prop} {Q : β → Prop} {f : α → Except φ β} (hm : Sat m R E)
    (hf : ∀ a, R a → Sat (f a) Q E) : Sat (m >>= f) Q E := by
  cases m with
  | ok a => exact hf a hm
  | error e => exact hm

theorem Sat.mono {Q R : α → Prop} (hm : Sat m R E) (h : ∀ a, R a → Q a) : Sat m Q E := by
  cases m with
  | ok a => exact h a hm
  | error e => exact hm

theorem Sat.weaken {Q : α → Prop} {E' : φ → Prop} (hm : Sat m Q E) (h : ∀ f, E f → E' f) :
    Sat m Q E' := by
  cases m with
  | ok a => exact hm
  | error e => exact h e hm

theorem Sat.and {Q R : α → Prop} {E' : φ → Prop} (h₁ : Sat m Q E) (h₂ : Sat m R E') :
    Sat m (fun a => Q a ∧ R a) E := by
  cases m with
  | ok a => exact ⟨h₁, h₂⟩
  | error e => exact h₁

theorem sat_iff {Q : α → Prop} : Sat m Q E ↔ (∀ a, m = .ok a → Q a) ∧ ∀ f, m = .error f → E f := by
  cases m <;> simp [Sat]

theorem bind_eq_ok {f : α → Except φ β} {b : β} :
    (m >>= f) = .ok b ↔ ∃ a, m = .ok a ∧ f a = .ok b := by
  cases m with
  | ok a =>
    constructor
    · exact fun h => ⟨a, rfl, h⟩
    · rintro ⟨a', ha, h⟩
      cases ha
      exact h
  | error e =>
    constructor
    · exact fun h => nomatch h
    · rintro ⟨a', ha, -⟩
      cases ha

theorem foldlM_concat_eq_ok {σ : Type u} {f : σ → α → Except φ σ} {s t : σ} {xs : List α} {x : α} :
    (xs ++ [x]).foldlM f s = .ok t ↔ ∃ u, xs.foldlM f s = .ok u ∧ f u x = .ok t := by
  rw [List.foldlM_append, bind_eq_ok]
  simp only [List.foldlM_cons, List.foldlM_nil, bind_pure]

theorem mapM_eq_ok_iff {ι : Type*} {f : ι → Except φ α} {l : List ι} {l' : List α} :
    l.mapM f = .ok l' ↔ List.Forall₂ (fun i a => f i = .ok a) l l' := by
  induction l generalizing l' with
  | nil =>
    rw [List.mapM_nil]
    constructor
    · intro h
      cases h
      exact .nil
    · intro h
      cases h
      rfl
  | cons i l ih =>
    rw [List.mapM_cons, bind_eq_ok]
    constructor
    · rintro ⟨a, ha, h⟩
      obtain ⟨as, has, h⟩ := bind_eq_ok.mp h
      cases h
      exact .cons ha (ih.mp has)
    · intro h
      cases h with
      | cons ha has => exact ⟨_, ha, bind_eq_ok.mpr ⟨_, ih.mpr has, rfl⟩⟩

theorem eq_map_of_mapM {ι : Type*} {f : ι → Except φ α} {g : ι → α} {l : List ι} {l' : List α}
    (h : l.mapM f = .ok l') (hf : ∀ i a, f i = .ok a → a = g i) : l' = l.map g := by
  rw [mapM_eq_ok_iff] at h
  induction h with
  | nil => rfl
  | cons ha _ ih => rw [List.map_cons, ih, hf _ _ ha]

theorem exists_ok_of_mapM {ι : Type*} {f : ι → Except φ α} {l : List ι} {l' : List α} {i : ι}
    (h : l.mapM f = .ok l') (hi : i ∈ l) : ∃ a ∈ l', f i = .ok a := by
  rw [mapM_eq_ok_iff] at h
  induction h with
  | nil => cases hi
  | cons ha _ ih =>
    rcases List.mem_cons.mp hi with rfl | hi
    · exact ⟨_, List.mem_cons_self, ha⟩
    · obtain ⟨a, hmem, ha'⟩ := ih hi
      exact ⟨a, List.mem_cons_of_mem _ hmem, ha'⟩

theorem Sat.exists_ok {Q : α → Prop} (h : Sat m Q fun _ => False) : ∃ a, m = .ok a ∧ Q a := by
  cases m with
  | ok a => exact ⟨a, rfl, h⟩
  | error e => exact h.elim

/-- No fault is ruled out. -/
abbrev AnyFault : φ → Prop := fun _ => True

theorem sat_true (m : Except φ α) : Sat m (fun _ => True) AnyFault := by
  cases m <;> trivial

theorem sat_pure {a : α} {Q : α → Prop} (h : Q a) : Sat (pure a : Except φ α) Q E := h

theorem sat_throw {f : φ} {Q : α → Prop} (h : E f) : Sat (throw f : Except φ α) Q E := h

/-- **An invariant of the turns of a loop holds at its end.** -/
theorem Sat.foldlM {ι : Type*} {Q : α → Prop} {f : α → ι → Except φ α} {l : List ι} {a : α}
    (hf : ∀ a, ∀ i ∈ l, Q a → Sat (f a i) Q E) (ha : Q a) : Sat (l.foldlM f a) Q E := by
  induction l generalizing a with
  | nil => exact ha
  | cons i l ih =>
    rw [List.foldlM_cons]
    refine (hf a i (List.mem_cons_self ..) ha).bind fun b hb => ?_
    exact ih (fun a j hj => hf a j (List.mem_cons_of_mem i hj)) hb

instance {Q : α → Prop} [DecidablePred Q] [DecidablePred E] : Decidable (Sat m Q E) :=
  match m with
  | .ok a => inferInstanceAs (Decidable (Q a))
  | .error f => inferInstanceAs (Decidable (E f))

end Sat

/-! ### Labelled actions

A state whose changes are given by a few labelled actions; `Path` says that only
actions that meet `A`, each where it is taken, lead from one state to another. -/

section Path

variable {α : Type*} {act : σ → α → σ} {A B : σ → α → Prop} {s t u : σ} {a : α}

inductive Path (act : σ → α → σ) (A : σ → α → Prop) (s : σ) : σ → Prop
  | refl : Path act A s s
  | snoc {t : σ} {a : α} : Path act A s t → A t a → Path act A s (act t a)

theorem Path.single (h : A s a) : Path act A s (act s a) := Path.snoc .refl h

theorem Path.trans (h₁ : Path act A s t) (h₂ : Path act A t u) : Path act A s u := by
  induction h₂ with
  | refl => exact h₁
  | snoc _ ha ih => exact ih.snoc ha

theorem Path.mono (h : Path act A s t) (hAB : ∀ s a, A s a → B s a) : Path act B s t := by
  induction h with
  | refl => exact .refl
  | snoc _ ha ih => exact ih.snoc (hAB _ _ ha)

/-- **An invariant that every allowed action keeps holds at the end of a path.** -/
theorem Path.invariant (h : Path act A s t) (hs : I s)
    (hact : ∀ s a, I s → A s a → I (act s a)) : I t := by
  induction h with
  | refl => exact hs
  | snoc _ ha ih => exact hact _ _ ih ha

end Path

section Fail

variable {φ : Type*} {stepE : σ → ε → Except φ σ} {E : φ → Prop}

def failStep (stepE : σ → ε → Except φ σ) : Except φ σ → ε → Option (Except φ σ)
  | .ok s, e => some (stepE s e)
  | .error _, _ => none

/-- The condition on every step up to a failure. -/
def failGuard (G : σ → ε → Prop) : Except φ σ → ε → Prop
  | .ok s, e => G s e
  | .error _, _ => True

instance (G : σ → ε → Prop) [∀ s e, Decidable (G s e)] :
    ∀ (w : Except φ σ) e, Decidable (failGuard G w e)
  | .ok s, e => inferInstanceAs (Decidable (G s e))
  | .error _, _ => isTrue trivial

/-- **An invariant of the successful steps holds along every guarded run** -/
theorem failTrace_invariant (hstep : ∀ s e, I s → G s e → Sat (stepE s e) I E) {s : σ}
    {es : List ε} (hs : I s) (hg : Guarded (failStep stepE) (failGuard G) (.ok s) es) :
    ∀ w ∈ trace (failStep stepE) (.ok s) es, Sat w I E := by
  refine trace_invariant (I := fun w => Sat w I E) ?_ hs hg
  intro w e w' hw hge hstep'
  cases w with
  | error f => cases hstep'
  | ok s =>
    cases hstep'
    exact hstep s e hw hge

end Fail

end Machine
