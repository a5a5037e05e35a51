/-
# Tables of decoders

The function for an element reads the fields of the element, or walks over the elements inside it.
What it stores is kept as the values of the fields, element by element.
-/

import Spgw.Lib.Tlv

namespace Tlv

section Walk

variable {σ : Type} {limit : ℕ}

theorem walk_mono {body body' : ℕ → Option (ℕ × σ)}
    (h : ∀ o r, body o = some r → body' o = some r) {fuel fuel' : ℕ} (hfuel : fuel ≤ fuel') {o : ℕ}
    {r : List (ℕ × σ) × ℕ} (hr : walk body limit fuel o = some r) :
    walk body' limit fuel' o = some r := by
  induction fuel generalizing fuel' o r with
  | zero => cases hr
  | succ fuel ih =>
    obtain ⟨fuel', rfl⟩ : ∃ k, fuel' = k + 1 := ⟨fuel' - 1, by omega⟩
    obtain ⟨visits, last⟩ := r
    obtain ⟨hle, rfl, rfl⟩ | ⟨ho, next, out, rest, hbody, hrest, rfl⟩ := walk_eq_some.mp hr
    · exact walk_eq_some.mpr (.inl ⟨hle, rfl, rfl⟩)
    · exact walk_eq_some.mpr (.inr ⟨ho, next, out, rest, h o _ hbody, ih (by omega) hrest, rfl⟩)

/-- What a body that is given with a bound does if the bound is high enough. -/
def Steps (body : ℕ → ℕ → Option (ℕ × σ)) (o next : ℕ) : Prop :=
  ∃ fuel out, body fuel o = some (next, out)

variable {body : ℕ → ℕ → Option (ℕ × σ)}
  (hmono : ∀ {fuel fuel' : ℕ}, fuel ≤ fuel' → ∀ o r, body fuel o = some r → body fuel' o = some r)

include hmono in
include hmono in
/-- **A loop returns exactly if its steps land.** -/
theorem walk_iff {o last : ℕ} {offsets : List ℕ} :
    (∃ fuel visits, walk (body fuel) limit fuel o = some (visits, last) ∧
        visits.map Prod.fst = offsets) ↔ Lands (Steps body) limit o offsets last := by
  constructor
  · rintro ⟨fuel, visits, h, rfl⟩
    -- The bound on the turns of this loop goes down, the one inside the bodies stays.
    generalize hinner : body fuel = inner at h
    generalize fuel = turns at h
    induction turns generalizing o visits with
    | zero => cases h
    | succ turns ih =>
      obtain ⟨ho, rfl, rfl⟩ | ⟨ho, next, out, rest, hnext, hrest, rfl⟩ := walk_eq_some.mp h
      · exact .stop ho
      · exact .next ho ⟨fuel, out, hinner ▸ hnext⟩ (ih _ hrest)
  · intro h
    induction h with
    | stop ho => exact ⟨1, [], walk_eq_some.mpr (.inl ⟨ho, rfl, rfl⟩), rfl⟩
    | @next o next last offsets ho hstep _ ih =>
      obtain ⟨m, out, hm⟩ := hstep
      obtain ⟨n, visits, hn, rfl⟩ := ih
      refine ⟨max m n + 1, (o, out) :: visits, walk_eq_some.mpr (.inr ?_), rfl⟩
      exact ⟨ho, next, out, visits, hmono (by omega) o _ hm,
        walk_mono (fun o r => hmono (by omega) o r) (by omega) hn, rfl⟩

/-- **Steps that lead forward land.** -/
theorem exists_lands {step : ℕ → ℕ → Prop} {o : ℕ}
    (h : ∀ c, Reaches step limit o c → c < limit → ∃ next, step c next ∧ c < next) :
    ∃ offsets last, Lands step limit o offsets last ∧ o ≤ last := by
  induction hn : limit - o using Nat.strong_induction_on generalizing o with
  | _ n ih =>
    by_cases ho : o < limit
    · obtain ⟨next, hstep, hlt⟩ := h o .refl ho
      obtain ⟨offsets, last, hlands, hle⟩ :=
        ih (limit - next) (by omega) (fun c hc => h c (.next ho hstep hc)) rfl
      exact ⟨o :: offsets, last, .next ho hstep hlands, by omega⟩
    · exact ⟨[], o, .stop (not_lt.mp ho), le_rfl⟩

end Walk

/-- The values of the fields, each with its offset and its width. -/
def valuesOf (b : Buffer) (fields : List (ℕ × ℕ)) : List ℕ := fields.map fun f => b.bits f.1 f.2

/-- The fields lie within the first `avail` bits. -/
def Within (avail : ℕ) (fields : List (ℕ × ℕ)) : Prop := ∀ f ∈ fields, f.2 = 0 ∨ f.1 + f.2 ≤ avail

instance {avail : ℕ} {fields : List (ℕ × ℕ)} : Decidable (Within avail fields) :=
  inferInstanceAs (Decidable (∀ f ∈ fields, _))

/-- The function for an element without elements inside: the fields it reads, relative to the start
of the element, and the octets it returns. -/
structure Leaf where
  fields : Buffer → List (ℕ × ℕ)
  size : Buffer → ℕ
  congr : ∀ {b c}, valuesOf b (fields b) = valuesOf c (fields b) →
    fields c = fields b ∧ size c = size b

/-- The loop of an element with elements inside: the octets before the counter, the counter at first,
the limit as a function of the length, and what is added to the last counter. -/
structure Group where
  shift : ℕ
  start : ℕ
  limit : ℕ → ℕ
  extra : ℕ := 0

/-- The header of an element, a type, a length of two octets and an instance, four octets together;
the functions for elements; and the loops of those with elements inside. -/
structure Format (ι γ : Type) where
  typeBits : ℕ
  instBits : ℕ
  header_eq : typeBits + 16 + instBits = 32
  leaf : ι → Leaf
  group : γ → Group

/-- The function for an element, with its table by type and instance if there are elements inside;
`skip` passes over an element that is not known. -/
inductive Decoder (ι γ : Type)
  | skip
  | leaf (i : ι)
  | group (g : γ) (table : ℕ → ℕ → Decoder ι γ)

variable {ι γ : Type}

namespace Format

variable (F : Format ι γ) (b : Buffer)

def type : ℕ := b.bits 0 F.typeBits

def len : ℕ := b.bits F.typeBits 16

def inst : ℕ := b.bits (F.typeBits + 16) F.instBits

def header : List ℕ := [F.type b, F.len b, F.inst b]

/-- The limit of the loop over the elements inside. -/
def limit (g : γ) (b : Buffer) : ℕ := (F.group g).limit (F.len b)

variable {F b}

end Format

/-- The buffer from the element at the counter on. -/
def element (b : Buffer) (shift o : ℕ) : Buffer := b.drop (8 * (shift + o))

section Exec

variable (F : Format ι γ)

/-- One turn of a loop over elements. -/
def turn {σ : Type} (exec : ℕ → ℕ → Buffer → Option (ℕ × σ)) (b : Buffer) (shift o : ℕ) :
    Option (ℕ × σ) :=
  let e := element b shift o
  (exec (F.type e) (F.inst e) e).map fun r => ((o + r.1) % 65536, r.2)

/-- The octets that the function for an element returns and what it stores, with a bound on the
turns of its loops. -/
def Decoder.exec : Decoder ι γ → ℕ → Buffer → Option (ℕ × List (List ℕ))
  | .skip, _, b => some (4 + F.len b, [])
  | .leaf i, _, b => some ((F.leaf i).size b, [valuesOf b ((F.leaf i).fields b)])
  | .group g table, fuel, b =>
    (walk (turn F (fun t i e => (table t i).exec fuel e) b (F.group g).shift) (F.limit g b) fuel
      (F.group g).start).map fun r => (r.2 + (F.group g).extra, F.header b :: r.1.flatMap Prod.snd)

/-- The function returns `size`, if the bound is high enough. -/
def Decoder.Takes (d : Decoder ι γ) (b : Buffer) (size : ℕ) : Prop :=
  ∃ fuel out, d.exec F fuel b = some (size, out)

variable (table : ℕ → ℕ → Decoder ι γ) (b : Buffer)

/-- The function for the element at the counter. -/
def decoderAt (shift o : ℕ) : Decoder ι γ :=
  table (F.type (element b shift o)) (F.inst (element b shift o))

def body (shift fuel : ℕ) : ℕ → Option (ℕ × List (List ℕ)) :=
  turn F (fun t i e => (table t i).exec F fuel e) b shift

/-- The loop over the elements of a message or a grouped element. -/
def loop (shift limit fuel o : ℕ) : Option (List (ℕ × List (List ℕ)) × ℕ) :=
  walk (body F table b shift fuel) limit fuel o

def Step (shift o next : ℕ) : Prop :=
  ∃ size, (decoderAt F table b shift o).Takes F (element b shift o) size ∧
    next = (o + size) % 65536

end Exec

section Rules

variable {F : Format ι γ} {table : ℕ → ℕ → Decoder ι γ} {b : Buffer}

theorem turn_mono {σ : Type} {exec exec' : ℕ → ℕ → Buffer → Option (ℕ × σ)}
    (h : ∀ t i e r, exec t i e = some r → exec' t i e = some r) {shift o : ℕ} {r : ℕ × σ}
    (hr : turn F exec b shift o = some r) : turn F exec' b shift o = some r := by
  obtain ⟨r', hr', rfl⟩ := Option.map_eq_some_iff.mp hr
  exact Option.map_eq_some_iff.mpr ⟨r', h _ _ _ _ hr', rfl⟩

theorem Decoder.exec_mono {d : Decoder ι γ} {fuel fuel' : ℕ} (hfuel : fuel ≤ fuel')
    {r : ℕ × List (List ℕ)} (h : d.exec F fuel b = some r) : d.exec F fuel' b = some r := by
  induction d generalizing b r with
  | skip => exact h
  | leaf i => exact h
  | group g table ih =>
    obtain ⟨r', hr', rfl⟩ := Option.map_eq_some_iff.mp h
    refine Option.map_eq_some_iff.mpr ⟨r', ?_, rfl⟩
    exact walk_mono (fun o r => turn_mono fun t i e r => ih t i) hfuel hr'

theorem Decoder.Takes.unique {d : Decoder ι γ} {size size' : ℕ} (h : d.Takes F b size)
    (h' : d.Takes F b size') : size = size' := by
  obtain ⟨m, out, hm⟩ := h
  obtain ⟨n, out', hn⟩ := h'
  have hleft := exec_mono (le_max_left m n) hm
  have hright := exec_mono (le_max_right m n) hn
  exact congrArg Prod.fst (Option.some.inj (hleft.symm.trans hright))

theorem Step.unique {shift o x y : ℕ} (hx : Step F table b shift o x)
    (hy : Step F table b shift o y) : x = y := by
  obtain ⟨size, hsize, rfl⟩ := hx
  obtain ⟨size', hsize', rfl⟩ := hy
  rw [hsize.unique hsize']

theorem body_mono {shift fuel fuel' : ℕ} (hfuel : fuel ≤ fuel') (o : ℕ) (r : ℕ × List (List ℕ))
    (h : body F table b shift fuel o = some r) : body F table b shift fuel' o = some r :=
  turn_mono (fun _ _ _ _ => Decoder.exec_mono hfuel) h

theorem steps_body (shift : ℕ) : Steps (body F table b shift) = Step F table b shift := by
  funext o next
  simp only [Steps, Step, body, turn, Decoder.Takes, Option.map_eq_some_iff, Prod.mk.injEq,
    Prod.exists, eq_iff_iff]
  constructor
  · rintro ⟨fuel, out, size, out', hexec, rfl, rfl⟩
    exact ⟨size, ⟨fuel, out', hexec⟩, rfl⟩
  · rintro ⟨size, ⟨fuel, out, hexec⟩, rfl⟩
    exact ⟨fuel, out, size, out, hexec, rfl, rfl⟩

/-- **The loop over the elements returns exactly if its steps land.** -/
theorem loop_iff {shift limit o last : ℕ} {offsets : List ℕ} :
    (∃ fuel visits, loop F table b shift limit fuel o = some (visits, last) ∧
        visits.map Prod.fst = offsets) ↔ Lands (Step F table b shift) limit o offsets last := by
  rw [← steps_body]
  exact walk_iff body_mono

theorem loop_unique {shift limit o m n : ℕ} {r r' : List (ℕ × List (List ℕ)) × ℕ}
    (hm : loop F table b shift limit m o = some r) (hn : loop F table b shift limit n o = some r') :
    r = r' := by
  have hmono {fuel fuel' : ℕ} {r} (hfuel : fuel ≤ fuel')
      (hr : loop F table b shift limit fuel o = some r) :
      loop F table b shift limit fuel' o = some r := walk_mono (body_mono hfuel) hfuel hr
  exact Option.some.inj ((hmono (le_max_left m n) hm).symm.trans (hmono (le_max_right m n) hn))

theorem takes_skip {size : ℕ} :
    (Decoder.skip : Decoder ι γ).Takes F b size ↔ size = 4 + F.len b := by
  simp [Decoder.Takes, Decoder.exec, eq_comm]

theorem takes_leaf {i : ι} {size : ℕ} :
    (Decoder.leaf i).Takes F b size ↔ size = (F.leaf i).size b := by
  simp [Decoder.Takes, Decoder.exec, eq_comm]

theorem exec_group {g : γ} {fuel : ℕ} : (Decoder.group g table).exec F fuel b =
    (loop F table b (F.group g).shift (F.limit g b) fuel (F.group g).start).map fun r =>
      (r.2 + (F.group g).extra, F.header b :: r.1.flatMap Prod.snd) := rfl

theorem takes_group {g : γ} {size : ℕ} : (Decoder.group g table).Takes F b size ↔
    ∃ offsets last, Lands (Step F table b (F.group g).shift) (F.limit g b) (F.group g).start offsets
      last ∧ size = last + (F.group g).extra := by
  simp only [← loop_iff, Decoder.Takes, exec_group, Option.map_eq_some_iff, Prod.mk.injEq,
    Prod.exists]
  constructor
  · rintro ⟨fuel, out, visits, last, hwalk, rfl, rfl⟩
    exact ⟨_, last, ⟨fuel, visits, hwalk, rfl⟩, rfl⟩
  · rintro ⟨_, last, ⟨fuel, visits, hwalk, rfl⟩, rfl⟩
    exact ⟨fuel, _, visits, last, hwalk, rfl, rfl⟩

end Rules

/-! ### Counters that do not wrap -/

section NoWrap

variable (F : Format ι γ) (short : ι → Buffer → Prop)

/-- In the loops inside the element the counter stays below `2 ^ 16`, and no element without
elements inside is returned as empty. -/
def Decoder.NoWrap : Decoder ι γ → Buffer → Prop
  | .skip, _ => True
  | .leaf i, b => short i b
  | .group g table, b =>
    0 < (F.group g).start + F.limit g b + (F.group g).extra ∧
      ∀ o, Reaches (Step F table b (F.group g).shift) (F.limit g b) (F.group g).start o →
        o < F.limit g b → let e := element b (F.group g).shift o
        (table (F.type e) (F.inst e)).NoWrap e ∧
          ∀ size, (table (F.type e) (F.inst e)).Takes F e size → o + size < 65536

variable {F short} {table : ℕ → ℕ → Decoder ι γ} {b : Buffer} {shift limit o : ℕ}

theorem exists_lands_of_noWrap (h : ∀ c, Reaches (Step F table b shift) limit o c → c < limit →
      (∃ size, 0 < size ∧ (decoderAt F table b shift c).Takes F (element b shift c) size) ∧
        ∀ size, (decoderAt F table b shift c).Takes F (element b shift c) size → c + size < 65536) :
    ∃ offsets last, Lands (Step F table b shift) limit o offsets last ∧ o ≤ last := by
  refine exists_lands fun c hc hlt => ?_
  obtain ⟨⟨size, hpos, htakes⟩, hwrap⟩ := h c hc hlt
  have hmod := Nat.mod_eq_of_lt (hwrap size htakes)
  exact ⟨c + size, ⟨size, htakes, hmod.symm⟩, by omega⟩

/-- **A function whose counters do not wrap returns, and not zero.** -/
theorem Decoder.NoWrap.takes (hshort : ∀ i b, short i b → 0 < (F.leaf i).size b) {d : Decoder ι γ}
    (h : d.NoWrap F short b) : ∃ size, 0 < size ∧ d.Takes F b size := by
  induction d generalizing b with
  | skip => exact ⟨4 + F.len b, by omega, 0, _, rfl⟩
  | leaf i => exact ⟨_, hshort i b h, 0, _, rfl⟩
  | group g table ih =>
    obtain ⟨hpos, hinner⟩ := h
    obtain ⟨offsets, last, hlands, hle⟩ := exists_lands_of_noWrap fun c hc hlt =>
      ⟨ih _ _ (hinner c hc hlt).1, (hinner c hc hlt).2⟩
    have hlimit := hlands.limit_le
    exact ⟨last + (F.group g).extra, by omega, takes_group.mpr ⟨offsets, last, hlands, rfl⟩⟩

end NoWrap

/-! ### What lies within the received octets -/

section Inside

variable (F : Format ι γ)

/-- The element and all elements that are reached in it lie within the first `avail` bits, as far as
they are read. -/
def Decoder.Inside : Decoder ι γ → Buffer → ℕ → Prop
  | .skip, _, _ => True
  | .leaf i, b, avail => Within avail ((F.leaf i).fields b)
  | .group g table, b, avail =>
    ∀ o, Reaches (Step F table b (F.group g).shift) (F.limit g b) (F.group g).start o →
      o < F.limit g b → let e := element b (F.group g).shift o
      32 ≤ avail - 8 * ((F.group g).shift + o) ∧
        (table (F.type e) (F.inst e)).Inside e (avail - 8 * ((F.group g).shift + o))

variable {F} {table : ℕ → ℕ → Decoder ι γ} {b c : Buffer} {avail shift limit fuel o : ℕ}

end Inside

/-! ### Elements that are filled by those inside -/

section Formed

variable (F : Format ι γ) (shift : ℕ)

/-- The elements inside one, end to end behind its header and as many as its length says. -/
def Nested (b : Buffer) (offsets : List ℕ) : Prop :=
  Filled (fun o => F.len (element b shift o)) (4 - shift + F.len b) (4 - shift) offsets

/-- The elements inside fill the element, and so at any depth. -/
def Decoder.Formed : Decoder ι γ → Buffer → Prop
  | .group _ table, b =>
    (∃ offsets, Nested F shift b offsets) ∧ ∀ offsets, Nested F shift b offsets → ∀ o ∈ offsets,
      let e := element b shift o
      (table (F.type e) (F.inst e)).Formed e
  | _, _ => True

variable {F shift}

theorem Decoder.formed_group {g : γ} {table : ℕ → ℕ → Decoder ι γ} {b : Buffer} {offsets : List ℕ}
    (h : Nested F shift b offsets)
    (hinner : ∀ o ∈ offsets, (decoderAt F table b shift o).Formed F shift (element b shift o)) :
    (Decoder.group g table).Formed F shift b := by
  refine ⟨⟨offsets, h⟩, fun others hothers => ?_⟩
  obtain rfl := h.unique hothers
  exact hinner

end Formed

end Tlv
