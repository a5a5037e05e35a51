/-
# Bit fields that are written and read back

An encoder that writes bit fields one behind the other into a zeroed buffer leaves a list of bits
and zeros behind it (`buffer`).
-/

import Spgw.Lib.Buffer
import Mathlib.Data.BitVec

/-- The variables of a decoder: the bits decoded so far and the width of the last field,
both `uint16_t`. -/
structure Cursor where
  total : ℕ := 0
  decoded : ℕ := 0

abbrev Dec (α : Type) := ReaderT Buffer (StateM Cursor) α

namespace Dec

variable {α β : Type}

def peek (n : ℕ) : Dec ℕ := fun b c => (b.bits c.total n, { c with decoded := n })

def addDecoded : Dec Unit := fun _ c => ((), { c with total := (c.total + c.decoded) % 65536 })

def bits (n : ℕ) : Dec ℕ := do
  let v ← peek n
  addDecoded
  return v

def eval (b : Buffer) (d : Dec α) (c : Cursor) : α × Cursor := d b c

section Rules

variable (b : Buffer) (c : Cursor)

@[simp] theorem eval_pure (a : α) : eval b (pure a : Dec α) c = (a, c) := rfl

@[simp] theorem eval_bind (d : Dec α) (f : α → Dec β) :
    eval b (d >>= f) c = eval b (f (eval b d c).1) (eval b d c).2 := rfl

@[simp] theorem eval_peek (n : ℕ) :
    eval b (peek n) c = (b.bits c.total n, { c with decoded := n }) := rfl

@[simp] theorem eval_addDecoded :
    eval b addDecoded c = ((), { c with total := (c.total + c.decoded) % 65536 }) := rfl

@[simp] theorem eval_bits (n : ℕ) : eval b (bits n) c =
      (b.bits c.total n, { total := (c.total + n) % 65536, decoded := n }) := rfl

end Rules

end Dec

namespace BitFields

variable {α β : Type} {w : ℕ}

/-- The `n` low bits of a number, the most significant first. -/
def bitsOf (v : ℕ) : ℕ → List Bool
  | 0 => []
  | n + 1 => bitsOf (v / 2) n ++ [v.testBit 0]

def put (v : BitVec w) : List Bool := bitsOf v.toNat w

def putAll (vs : List (BitVec w)) : List Bool := vs.flatMap put

def buffer (bits : List Bool) : Buffer := fun i => bits.getD i false

theorem length_bitsOf {v n : ℕ} : (bitsOf v n).length = n := by
  induction n generalizing v with
  | zero => rfl
  | succ n ih => rw [bitsOf, List.length_append, ih, List.length_singleton]

@[simp] theorem length_put (v : BitVec w) : (put v).length = w := length_bitsOf

@[simp] theorem length_putAll (vs : List (BitVec w)) : (putAll vs).length = w * vs.length := by
  induction vs with
  | nil => rfl
  | cons v vs ih =>
    rw [putAll, List.flatMap_cons, List.length_append, length_put, ← putAll, ih, List.length_cons,
      Nat.mul_succ, Nat.add_comm]

/-- The bits are in the buffer at `off`. -/
def Holds (b : Buffer) (off : ℕ) (bits : List Bool) : Prop :=
  ∀ i, ∀ h : i < bits.length, b (off + i) = bits.get ⟨i, h⟩

theorem holds_buffer (bits : List Bool) : Holds (buffer bits) 0 bits := by
  intro i h
  simp [buffer, h]

theorem holds_append {b : Buffer} {off : ℕ} {l l' : List Bool} :
    Holds b off (l ++ l') ↔ Holds b off l ∧ Holds b (off + l.length) l' := by
  constructor
  · intro h
    refine ⟨fun i hi => ?_, fun i hi => ?_⟩
    · simpa [hi] using h i (by rw [List.length_append]; omega)
    · simpa [Nat.add_assoc] using h (l.length + i) (by rw [List.length_append]; omega)
  · rintro ⟨hl, hl'⟩ i hi
    rw [List.length_append] at hi
    rcases Nat.lt_or_ge i l.length with hlt | hge
    · simpa [hlt] using hl i hlt
    · have := hl' (i - l.length) (by omega)
      rw [Nat.add_assoc, Nat.add_sub_cancel' hge] at this
      simpa [hge] using this

theorem bits_of_holds {b : Buffer} {off v n : ℕ} (h : Holds b off (bitsOf v n)) :
    b.bits off n = v % 2 ^ n := by
  induction n generalizing v with
  | zero => simp [Buffer.bits, Nat.mod_one]
  | succ n ih =>
    obtain ⟨hhigh, hlow⟩ := holds_append.mp h
    have hbit : b (off + n) = v.testBit 0 := by simpa [length_bitsOf] using hlow 0 (by simp)
    have hlast : (v.testBit 0).toNat = v % 2 := by
      rw [Nat.testBit_zero]
      rcases Nat.mod_two_eq_zero_or_one v with h | h <;> simp [h]
    rw [Buffer.bits, ih hhigh, hbit, hlast, Nat.pow_succ', Nat.mod_mul]
    omega

def Reads (d : Dec α) (bits : List Bool) (P : α → Prop) : Prop :=
  ∀ b c, Holds b c.total bits → c.total + bits.length < 65536 →
    P (d.eval b c).1 ∧ (d.eval b c).2.total = c.total + bits.length

def take (w : ℕ) : Dec (BitVec w) := do
  let v ← Dec.bits w
  return BitVec.ofNat w v

def takeAll (w : ℕ) : ℕ → Dec (List (BitVec w))
  | 0 => return []
  | n + 1 => do
    let v ← take w
    let vs ← takeAll w n
    return v :: vs

def takeIf (p : Prop) [Decidable p] (d : Dec α) (old : α) : Dec α := if p then d else pure old

section Rules

variable {d : Dec α} {f : α → Dec β} {l l' : List Bool} {P : α → Prop} {Q : β → Prop}

theorem Reads.bind (hd : Reads d l P) (hf : ∀ a, P a → Reads (f a) l' Q) :
    Reads (d >>= f) (l ++ l') Q := by
  intro b c hb hlt
  rw [List.length_append] at hlt ⊢
  obtain ⟨hl, hl'⟩ := holds_append.mp hb
  obtain ⟨hP, htotal⟩ := hd b c hl (by omega)
  rw [Dec.eval_bind, ← Nat.add_assoc, ← htotal]
  exact hf _ hP b _ (htotal ▸ hl') (by omega)

theorem Reads.next {a : α} (hd : Reads d l (· = a)) (hf : Reads (f a) l' Q) :
    Reads (d >>= f) (l ++ l') Q :=
  hd.bind fun _ ha => ha ▸ hf

theorem reads_pure {a : α} (h : P a) : Reads (pure a) [] P := fun _ _ _ _ => ⟨h, rfl⟩

theorem Reads.last {a : α} {g : α → β} (hd : Reads d l (· = a)) (h : Q (g a)) :
    Reads (d >>= fun a => pure (g a)) l Q := by
  rw [← List.append_nil l]
  exact hd.next (reads_pure h)

theorem Reads.mono {P' : α → Prop} (hd : Reads d l P) (h : ∀ a, P a → P' a) : Reads d l P' :=
  fun b c hb hlt => ⟨h _ (hd b c hb hlt).1, (hd b c hb hlt).2⟩

theorem reads_takeIf {p : Prop} [Decidable p] {a old : α} (hd : Reads d l (· = a)) :
    Reads (takeIf p d old) (if p then l else []) (· = if p then a else old) := by
  unfold takeIf
  split_ifs
  · exact hd
  · exact reads_pure rfl

theorem reads_take (v : BitVec w) : Reads (take w) (put v) (· = v) := by
  intro b c hb hlt
  rw [length_put] at hlt ⊢
  simp only [take, Dec.eval_bind, Dec.eval_bits, Dec.eval_pure]
  refine ⟨?_, Nat.mod_eq_of_lt hlt⟩
  rw [bits_of_holds hb, Nat.mod_eq_of_lt v.isLt, BitVec.ofNat_toNat, BitVec.setWidth_eq]

theorem reads_takeAll (vs : List (BitVec w)) :
    Reads (takeAll w vs.length) (putAll vs) (· = vs) := by
  induction vs with
  | nil => exact reads_pure rfl
  | cons v vs ih => exact (reads_take v).next (ih.last rfl)

theorem Reads.eval_buffer (hd : Reads d l P) (h : l.length < 65536) :
    P (d.eval (buffer l) {}).1 ∧ (d.eval (buffer l) {}).2.total = l.length := by
  have := hd (buffer l) {} (holds_buffer l) (by simpa using h)
  simpa using this

end Rules

section Arrays

variable {m k : ℕ}

/-- The first `k` entries of an array. -/
def putArray (a : Fin m → BitVec w) (k : ℕ) : List Bool := putAll ((List.ofFn a).take k)

/-- The first `k` entries of an array are read; the others are left as they are. -/
def takeArray (old : Fin m → BitVec w) (k : ℕ) : Dec (Fin m → BitVec w) := do
  let vs ← takeAll w k
  return fun i => vs.getD i (old i)

theorem length_putArray (a : Fin m → BitVec w) (h : k ≤ m) : (putArray a k).length = w * k := by
  rw [putArray, length_putAll, List.length_take, List.length_ofFn, Nat.min_eq_left h]

theorem reads_takeArray {a old : Fin m → BitVec w} (h : k ≤ m) :
    Reads (takeArray old k) (putArray a k) (· = fun i : Fin m => if (i : ℕ) < k then a i else old i) := by
  have hlen : ((List.ofFn a).take k).length = k := by
    rw [List.length_take, List.length_ofFn, Nat.min_eq_left h]
  have hread := reads_takeAll ((List.ofFn a).take k)
  rw [hlen] at hread
  refine hread.last (funext fun i => ?_)
  by_cases hi : (i : ℕ) < k <;> simp [hi]

end Arrays

def Fields : List ℕ → Type
  | [] => Unit
  | w :: ws => BitVec w × Fields ws

namespace Fields

def put : {ws : List ℕ} → Fields ws → List Bool
  | [], _ => []
  | _ :: _, (v, vs) => BitFields.put v ++ put vs

def take : (ws : List ℕ) → Dec (Fields ws)
  | [] => return ()
  | w :: ws => do
    let v ← BitFields.take w
    let vs ← take ws
    return (v, vs)

@[simp] theorem length_put : {ws : List ℕ} → (vs : Fields ws) → vs.put.length = ws.sum
  | [], _ => rfl
  | _ :: _, (v, vs) => by
    rw [put, List.length_append, BitFields.length_put, length_put vs, List.sum_cons]

theorem reads_take : {ws : List ℕ} → (vs : Fields ws) → Reads (take ws) vs.put (· = vs)
  | [], _ => reads_pure rfl
  | _ :: _, (v, vs) => (BitFields.reads_take v).next ((reads_take vs).last rfl)

end Fields

end BitFields
