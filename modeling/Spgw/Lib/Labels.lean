/-
# Names made of labels

A name of several labels is written in two ways: as text, with a separator between two labels, and
on the wire, with the length of each label in the octet before it.
-/

import Spgw.Lib.CString

namespace Labels

open Octets Function

/-- `'.'`. -/
def dot : UInt8 := 46

def wire (labels : List (List UInt8)) : List UInt8 :=
  labels.flatMap fun l => UInt8.ofNat l.length :: l

@[simp]
theorem wire_nil : wire [] = [] := rfl

@[simp]
theorem wire_cons (l : List UInt8) (ls : List (List UInt8)) :
    wire (l :: ls) = UInt8.ofNat l.length :: (l ++ wire ls) := rfl

structure Label (sep : UInt8) (l : List UInt8) : Prop where
  ne_nil : l ≠ []
  length_lt : l.length < 256
  noNul : 0 ∉ l
  noSep : sep ∉ l

variable {sep : UInt8}

theorem length_wire_eq_sum (ls : List (List UInt8)) :
    (wire ls).length = (ls.map List.length).sum + ls.length := by
  induction ls with
  | nil => rfl
  | cons l ls ih =>
    rw [wire_cons, List.length_cons, List.length_append, ih, List.map_cons, List.sum_cons,
      List.length_cons]
    omega

theorem length_wire (ls : List (List UInt8)) (h : ls ≠ []) :
    (wire ls).length = ([sep].intercalate ls).length + 1 := by
  induction ls with
  | nil => exact absurd rfl h
  | cons l ls ih =>
    cases ls with
    | nil => rw [wire_cons, List.intercalate_singleton]; simp
    | cons l' ls =>
      have hrec := ih (List.cons_ne_nil l' ls)
      rw [wire_cons, List.length_cons, List.length_append, hrec, List.intercalate_cons_cons]
      simp only [List.length_append, List.length_singleton]
      omega

theorem length_wire_splitOn (text : List UInt8) :
    (wire (text.splitOn sep)).length = text.length + 1 := by
  have h : (wire (text.splitOn sep)).length = ([sep].intercalate (text.splitOn sep)).length + 1 :=
    length_wire _ (List.splitOn_ne_nil sep text)
  rwa [List.intercalate_splitOn] at h

theorem ofNat_length_ne_zero {l : List UInt8} (hl : l ≠ []) (hlt : l.length < 256) :
    UInt8.ofNat l.length ≠ 0 := by
  intro h
  have hval : l.length % 256 = 0 := by
    have := congrArg UInt8.toNat h
    rwa [UInt8.toNat_ofNat'] at this
  have hpos := List.length_pos_iff.mpr hl
  omega

theorem zero_notMem_wire {ls : List (List UInt8)} (h : ∀ l ∈ ls, Label sep l) : 0 ∉ wire ls := by
  induction ls with
  | nil => exact List.not_mem_nil
  | cons l ls ih =>
    have hl := h l List.mem_cons_self
    rw [wire_cons, List.mem_cons, List.mem_append, not_or, not_or]
    exact ⟨(ofNat_length_ne_zero hl.ne_nil hl.length_lt).symm, hl.noNul,
      ih fun l' hl' => h l' (List.mem_cons_of_mem l hl')⟩

def tallyStep (sep b : UInt8) (s : UInt8 × List UInt8) : UInt8 × List UInt8 :=
  if b = sep then (0, s.1 :: s.2) else (s.1 + 1, b :: s.2)

/-- The scan over text, from its end, with the count at `c`. -/
def tally (sep c : UInt8) (text : List UInt8) : UInt8 × List UInt8 :=
  text.foldr (tallyStep sep) (c, [])

theorem tally_cons (c b : UInt8) (text : List UInt8) :
    tally sep c (b :: text) = tallyStep sep b (tally sep c text) := rfl

theorem foldr_tallyStep (c : UInt8) (done text : List UInt8) :
    text.foldr (tallyStep sep) (c, done) = ((tally sep c text).1, (tally sep c text).2 ++ done) := by
  induction text with
  | nil => rfl
  | cons b text ih =>
    rw [List.foldr_cons, ih, tally_cons, tallyStep, tallyStep]
    split_ifs <;> rfl

theorem tally_concat (c b : UInt8) (text : List UInt8) : tally sep c (text ++ [b]) =
      if b = sep then ((tally sep 0 text).1, (tally sep 0 text).2 ++ [c])
      else ((tally sep (c + 1) text).1, (tally sep (c + 1) text).2 ++ [b]) := by
  rw [tally, List.foldr_append, List.foldr_cons, List.foldr_nil, tallyStep]
  split_ifs <;> exact foldr_tallyStep ..

@[simp]
theorem length_tally (c : UInt8) (text : List UInt8) :
    (tally sep c text).2.length = text.length := by
  induction text with
  | nil => rfl
  | cons b text ih =>
    rw [tally_cons, tallyStep]
    split_ifs <;> rw [List.length_cons, List.length_cons, ih]

theorem tally_zero (text : List UInt8) :
    (tally sep 0 text).1 :: (tally sep 0 text).2 = wire (text.splitOn sep) := by
  induction text with
  | nil => rfl
  | cons b text ih =>
    obtain ⟨l, ls, hsplit⟩ := List.exists_cons_of_ne_nil (List.splitOn_ne_nil sep text)
    rw [hsplit, wire_cons, List.cons.injEq] at ih
    rw [tally_cons, tallyStep, List.splitOn_cons_eq_if_modifyHead, hsplit]
    by_cases hb : b = sep
    · rw [if_pos hb, if_pos (beq_iff_eq.mpr hb), wire_cons, wire_cons, ih.1, ih.2]
      rfl
    · have hlen : UInt8.ofNat l.length + 1 = UInt8.ofNat (l.length + 1) :=
        (UInt8.ofNat_add ..).symm
      rw [if_neg hb, if_neg (fun h => hb (beq_iff_eq.mp h)), List.modifyHead_cons, wire_cons,
        ih.1, ih.2, List.length_cons, hlen, List.cons_append]

/-- The scan of positions `n`, …, 1 of a buffer, with the count in position 0. -/
def inPlace (sep : UInt8) (m : Memory) : ℕ → Memory
  | 0 => m
  | n + 1 =>
    if m (n + 1) = sep then
      inPlace sep (update (update m (n + 1) (m 0)) 0 0) n
    else inPlace sep (update m 0 (m 0 + 1)) n

theorem inPlace_eq_write_tally (m : Memory) (n : ℕ) : inPlace sep m n =
      write m 0 ((tally sep (m 0) (read m 1 n)).1 :: (tally sep (m 0) (read m 1 n)).2) := by
  induction n generalizing m with
  | zero =>
    rw [inPlace]
    exact (update_eq_self 0 m).symm
  | succ n ih =>
    have hlen : ∀ c, ((tally sep c (read m 1 n)).1 :: (tally sep c (read m 1 n)).2).length
        = n + 1 := fun c => by
      rw [List.length_cons, length_tally, length_read]
    have hlast : read m 1 (n + 1) = read m 1 n ++ [m (1 + n)] := read_add ..
    rw [inPlace, hlast, Nat.add_comm 1 n, tally_concat]
    split_ifs with hsep
    · -- the count replaces the separator
      have hread : read (update (update m (n + 1) (m 0)) 0 0) 1 n =
          read m 1 n := by
        refine read_congr fun j hj hlt => ?_
        rw [update_of_ne (by omega), update_of_ne (by omega)]
      rw [ih, update_self, hread]
      refine write_zero_concat ?_ fun j hj => ?_
      · rw [hlen, update_of_ne (Nat.succ_ne_zero n), update_self]
      · rw [hlen] at hj
        rw [update_of_ne (by omega), update_of_ne (by omega)]
    · have hread : read (update m 0 (m 0 + 1)) 1 n = read m 1 n :=
        read_congr fun j hj hlt => update_of_ne (by omega) ..
      rw [ih, update_self, hread]
      refine write_zero_concat ?_ fun j hj => ?_
      · rw [hlen, update_of_ne (Nat.succ_ne_zero n)]
      · rw [hlen] at hj
        exact update_of_ne (by omega) ..

theorem inPlace_eq {m : Memory} {text : List UInt8} (h0 : m 0 = 0)
    (h : read m 1 text.length = text) :
    inPlace sep m text.length = write m 0 (wire (text.splitOn sep)) := by
  rw [inPlace_eq_write_tally, h0, h, tally_zero]

end Labels
