/-
# Decoders that walk over type-length-value elements

A decoder looks at the key of the element at its counter, calls the function for that key, and adds
what it returns to the counter, a number of sixteen bits.
-/

import Spgw.Lib.Buffer

namespace Tlv

variable {σ : Type}

/-- The loop, with a bound on its turns: the offsets it visits, each with what is stored there, and
the counter behind them. -/
def walk (body : ℕ → Option (ℕ × σ)) (limit : ℕ) : ℕ → ℕ → Option (List (ℕ × σ) × ℕ)
  | 0, _ => none
  | fuel + 1, o =>
    if o < limit then do
      let (next, out) ← body o
      let (visits, last) ← walk body limit fuel next
      some ((o, out) :: visits, last)
    else
      some ([], o)

theorem walk_eq_some {body : ℕ → Option (ℕ × σ)} {limit fuel o last : ℕ} {visits : List (ℕ × σ)} :
    walk body limit (fuel + 1) o = some (visits, last) ↔ (limit ≤ o ∧ visits = [] ∧ last = o) ∨
        (o < limit ∧ ∃ next out rest, body o = some (next, out) ∧
          walk body limit fuel next = some (rest, last) ∧ visits = (o, out) :: rest) := by
  by_cases ho : o < limit
  · simp only [walk, if_pos ho, Option.bind_eq_bind, Option.bind_eq_some_iff, Option.some.injEq,
      Prod.mk.injEq, Prod.exists]
    constructor
    · rintro ⟨next, out, hbody, rest, last', hrest, rfl, rfl⟩
      exact .inr ⟨ho, next, out, rest, hbody, hrest, rfl⟩
    · rintro (⟨hle, _⟩ | ⟨_, next, out, rest, hbody, hrest, rfl⟩)
      · omega
      · exact ⟨next, out, hbody, rest, last, hrest, rfl, rfl⟩
  · simp [walk, ho, not_lt.mp ho, eq_comm]

/-- The steps from `o` lead over `visits` to `last`, the first offset not below the limit. -/
inductive Lands (step : ℕ → ℕ → Prop) (limit : ℕ) : ℕ → List ℕ → ℕ → Prop
  | stop {o : ℕ} (h : limit ≤ o) : Lands step limit o [] o
  | next {o next last : ℕ} {visits : List ℕ} (h : o < limit) (hstep : step o next)
      (hrest : Lands step limit next visits last) : Lands step limit o (o :: visits) last

/-- The steps from `o` reach `c`, over offsets below the limit. -/
inductive Reaches (step : ℕ → ℕ → Prop) (limit : ℕ) : ℕ → ℕ → Prop
  | refl {o : ℕ} : Reaches step limit o o
  | next {o next c : ℕ} (h : o < limit) (hstep : step o next)
      (hrest : Reaches step limit next c) : Reaches step limit o c

namespace Lands

variable {step step' : ℕ → ℕ → Prop} {limit o last : ℕ} {visits : List ℕ}

theorem mem_of_reaches (h : Lands step limit o visits last)
    (hfun : ∀ {o a b : ℕ}, step o a → step o b → a = b) {c : ℕ} (hc : Reaches step limit o c)
    (hlt : c < limit) : c ∈ visits := by
  induction hc generalizing visits with
  | refl =>
    cases h with
    | stop hle => omega
    | next => exact List.mem_cons_self
  | next ho hstep _ ih =>
    cases h with
    | stop hle => omega
    | next _ hstep' hrest => exact List.mem_cons_of_mem _ (ih (hfun hstep hstep' ▸ hrest) hlt)

theorem limit_le (h : Lands step limit o visits last) : limit ≤ last := by
  induction h with
  | stop h => exact h
  | next _ _ _ ih => exact ih

theorem lt_limit (h : Lands step limit o visits last) : ∀ c ∈ visits, c < limit := by
  induction h with
  | stop => simp
  | next hlt _ _ ih => exact List.forall_mem_cons.mpr ⟨hlt, ih⟩

theorem last_unique {others : List ℕ} {last' : ℕ} (h : Lands step limit o visits last)
    (h' : Lands step limit o others last')
    (hfun : ∀ {o a b : ℕ}, step o a → step o b → a = b) : last = last' := by
  induction h generalizing others with
  | stop hle =>
    cases h' with
    | stop => rfl
    | next hlt => omega
  | next ho hstep _ ih =>
    cases h' with
    | stop hle => omega
    | next _ hstep' hrest => exact ih (hfun hstep hstep' ▸ hrest)

/-- A step that stays where it is never lands. -/
theorem not_of_loop (hfun : ∀ {o a b : ℕ}, step o a → step o b → a = b) (hstep : step o o)
    (ho : o < limit) : ¬ Lands step limit o visits last := by
  intro h
  induction h with
  | stop hle => omega
  | next _ hnext _ ih =>
    obtain rfl := hfun hstep hnext
    exact ih hstep ho

/-- The same steps under a limit that lies behind the last visit. -/
theorem under {limit' : ℕ} (h : Lands step limit o visits last) (hvisits : ∀ c ∈ visits, c < limit')
    (hlast : limit' ≤ last) : Lands step limit' o visits last := by
  induction h with
  | stop => exact .stop hlast
  | next _ hstep _ ih =>
    rw [List.forall_mem_cons] at hvisits
    exact .next hvisits.1 hstep (ih hvisits.2 hlast)

end Lands

/-! ### Elements end to end -/

/-- Elements lie end to end at the offsets, from the first to the last, each with four octets and as
many as its length says. -/
inductive Filled (len : ℕ → ℕ) (last : ℕ) : ℕ → List ℕ → Prop
  | done : Filled len last last []
  | cons {o : ℕ} {offsets : List ℕ} (hrest : Filled len last (o + (4 + len o)) offsets) :
    Filled len last o (o :: offsets)

namespace Filled

variable {len : ℕ → ℕ} {step : ℕ → ℕ → Prop} {last o : ℕ} {offsets : List ℕ}

theorem le (h : Filled len last o offsets) :
    o ≤ last ∧ ∀ c ∈ offsets, o ≤ c ∧ c + (4 + len c) ≤ last := by
  induction h with
  | done => simp
  | cons _ ih =>
    refine ⟨by omega, ?_⟩
    rw [List.forall_mem_cons]
    exact ⟨⟨le_rfl, ih.1⟩, fun c hc => ⟨by have := (ih.2 c hc).1; omega, (ih.2 c hc).2⟩⟩

theorem eq_of_nil (h : Filled len last o []) : o = last := by
  cases h
  rfl

theorem head_eq {c : ℕ} (h : Filled len last o (c :: offsets)) : c = o := by
  cases h
  rfl

theorem unique {others : List ℕ} (h : Filled len last o offsets) (h' : Filled len last o others) :
    offsets = others := by
  induction h generalizing others with
  | done =>
    cases h' with
    | done => rfl
    | cons hrest =>
      have := hrest.le.1
      omega
  | cons hrest ih =>
    cases h' with
    | done =>
      have := hrest.le.1
      omega
    | cons hrest' => rw [ih hrest']

theorem lands (h : Filled len last o offsets) (hstep : ∀ c ∈ offsets, step c (c + (4 + len c))) :
    Lands step last o offsets last := by
  induction h with
  | done => exact .stop le_rfl
  | cons hrest ih =>
    rw [List.forall_mem_cons] at hstep
    have := hrest.le.1
    exact .next (by omega) hstep.1 (ih hstep.2)

/-- **A loop that takes of elements that lie end to end no more than they have, and visits them all,
takes all of each.** -/
theorem eq_of_lands {stop : ℕ} (h : Filled len last o offsets) (hlast : last < 65536)
    (hstep : ∀ c ∈ offsets, ∀ next, step c next → ∃ n ≤ 4 + len c, next = (c + n) % 65536)
    (hlands : Lands step last o offsets stop) :
    stop = last ∧ ∀ c ∈ offsets, step c (c + (4 + len c)) := by
  induction h with
  | done =>
    cases hlands
    exact ⟨rfl, by simp⟩
  | @cons o offsets hrest ih =>
    rw [List.forall_mem_cons] at hstep ⊢
    cases hlands with
    | next ho hnext hlands =>
      obtain ⟨n, hn, rfl⟩ := hstep.1 _ hnext
      have hle := hrest.le
      rw [Nat.mod_eq_of_lt (by omega)] at hnext hlands
      -- The next visit is that of the next element, or the end.
      have heq : n = 4 + len o := by
        cases hlands with
        | stop hstop => omega
        | next =>
          have := hrest.head_eq
          omega
      subst heq
      obtain ⟨hstop, hvisits⟩ := ih hstep.2 hlands
      exact ⟨hstop, hnext, hvisits⟩

end Filled

end Tlv
