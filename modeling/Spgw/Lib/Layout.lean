/-
# Layouts of elements

An element is decoded field by field: first a fixed list of fields, then parts that depend on the
values of the first fields. The position in bits is a number of sixteen bits; only a copy at the end
of an element can take it that far, so it is reduced when the octets are returned.
-/

import Spgw.Lib.Decoder

namespace Tlv

/-- Fields one behind the other, by their widths. -/
def fieldsAt : ℕ → List ℕ → List (ℕ × ℕ)
  | _, [] => []
  | pos, n :: widths => (pos, n) :: fieldsAt (pos + n) widths

theorem within_append {avail : ℕ} {fields others : List (ℕ × ℕ)} :
    Within avail (fields ++ others) ↔ Within avail fields ∧ Within avail others :=
  List.forall_mem_append

theorem within_fieldsAt {avail pos : ℕ} {widths : List ℕ} :
    Within avail (fieldsAt pos widths) ↔ widths.sum = 0 ∨ pos + widths.sum ≤ avail := by
  induction widths generalizing pos with
  | nil => simp [fieldsAt, Within]
  | cons n widths ih =>
    have hcons : Within avail (fieldsAt pos (n :: widths)) ↔
        (n = 0 ∨ pos + n ≤ avail) ∧ Within avail (fieldsAt (pos + n) widths) :=
      List.forall_mem_cons
    rw [hcons, ih, List.sum_cons]
    omega

inductive Part
  /-- A field at the position. -/
  | bits (n : ℕ)
  /-- `n` octets at the octet of the position, which moves on by `add` bits. -/
  | octets (n add : ℕ)
  /-- The position moves on by the width of the last field once more. -/
  | stale
  /-- A field with a number of octets, by which the position moves on as well. -/
  | counted (n : ℕ)

namespace Part

variable (b : Buffer)

def fields : ℕ → ℕ → List Part → List (ℕ × ℕ)
  | _, _, [] => []
  | pos, _, .bits n :: parts => (pos, n) :: fields (pos + n) n parts
  | pos, last, .octets n add :: parts => (8 * (pos / 8), 8 * n) :: fields (pos + add) last parts
  | pos, last, .stale :: parts => fields (pos + last) last parts
  | pos, _, .counted n :: parts =>
    (pos, n) :: fields (pos + n + 8 * b.bits pos n) (8 * b.bits pos n) parts

/-- The position behind the parts. -/
def total : ℕ → ℕ → List Part → ℕ
  | pos, _, [] => pos
  | pos, _, .bits n :: parts => total (pos + n) n parts
  | pos, last, .octets _ add :: parts => total (pos + add) last parts
  | pos, last, .stale :: parts => total (pos + last) last parts
  | pos, _, .counted n :: parts => total (pos + n + 8 * b.bits pos n) (8 * b.bits pos n) parts

variable {b} {pos last : ℕ}

theorem le_total (parts : List Part) : pos ≤ total b pos last parts := by
  induction parts generalizing pos last with
  | nil => exact le_rfl
  | cons p parts ih =>
    cases p with
    | counted n => exact (by omega : pos ≤ pos + n + 8 * b.bits pos n).trans ih
    | bits | octets | stale => exact (Nat.le_add_right _ _).trans ih

theorem congr {c : Buffer} {parts : List Part}
    (h : valuesOf b (fields b pos last parts) = valuesOf c (fields b pos last parts)) :
    fields c pos last parts = fields b pos last parts ∧
      total c pos last parts = total b pos last parts := by
  induction parts generalizing pos last with
  | nil => exact ⟨rfl, rfl⟩
  | cons p parts ih =>
    cases p with
    | stale => exact ih h
    | bits n | octets n add =>
      obtain ⟨hfields, htotal⟩ := ih (List.cons.inj h).2
      exact ⟨congrArg (List.cons _) hfields, htotal⟩
    | counted n =>
      obtain ⟨hvalue, hrest⟩ := List.cons.inj h
      obtain ⟨hfields, htotal⟩ := ih hrest
      simp only [fields, total]
      rw [← show b.bits pos n = c.bits pos n from hvalue]
      exact ⟨congrArg (List.cons _) hfields, htotal⟩

@[simp] theorem fields_bits (widths : List ℕ) :
    fields b pos last (widths.map .bits) = fieldsAt pos widths := by
  induction widths generalizing pos last with
  | nil => rfl
  | cons n widths ih => exact congrArg (List.cons _) ih

@[simp] theorem total_bits (widths : List ℕ) :
    total b pos last (widths.map .bits) = pos + widths.sum := by
  induction widths generalizing pos last with
  | nil => rfl
  | cons n widths ih =>
    rw [List.map_cons, total, ih, List.sum_cons, Nat.add_assoc]

end Part

/-- The length in the header, its second field. -/
def lenOf (vs : List ℕ) : ℕ := vs.getD 1 0

/-- `len - 1` as the `size_t` of a `memcpy`. -/
@[irreducible]
def lenMinusOne (len : ℕ) : ℕ := (len + (2 ^ 64 - 1)) % 2 ^ 64

theorem lenMinusOne_cases {len : ℕ} (h : len < 2 ^ 16) :
    (len = 0 ∧ lenMinusOne len = 2 ^ 64 - 1) ∨ (1 ≤ len ∧ lenMinusOne len + 1 = len) := by
  unfold lenMinusOne
  omega

/-- The widths of the first fields, the parts behind them, and whether the function returns the
length in the header instead of what it has counted. -/
structure Layout where
  first : List ℕ
  rest : List ℕ → List Part := fun _ => []
  byLength : Bool := false

namespace Layout

variable (l : Layout) (b : Buffer)

def values : List ℕ := valuesOf b (fieldsAt 0 l.first)

def fields : List (ℕ × ℕ) :=
  fieldsAt 0 l.first ++ Part.fields b l.first.sum (l.first.getLastD 0) (l.rest (l.values b))

/-- The position behind the element. -/
def total : ℕ := Part.total b l.first.sum (l.first.getLastD 0) (l.rest (l.values b))

def size : ℕ := if l.byLength then 4 + lenOf (l.values b) else l.total b % 65536 / 8

def leaf : Leaf where
  fields := l.fields
  size := l.size
  congr := by
    intro b c h
    rw [fields, valuesOf, valuesOf, List.map_append, List.map_append] at h
    obtain ⟨hfirst, hrest⟩ := List.append_inj h (by simp)
    have hvalues : l.values b = l.values c := hfirst
    obtain ⟨hfields, htotal⟩ := Part.congr hrest
    simp only [fields, size, total, ← hvalues, hfields, htotal, and_self]

end Layout

end Tlv
