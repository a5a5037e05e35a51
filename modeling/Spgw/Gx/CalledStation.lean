/-
# The APN in a CCR

`fill_ccr_request` (`cp/gx/gx_interface.c`) writes the APN of a PDN connection, labels after their
lengths, into the Called-Station-Id: it appends each label to the text with `strncat` and stores a
dot.
-/

import Spgw.Lib.Labels
import Spgw.Session.State

namespace Spgw.Gx

open Octets Labels Function
open Session (deref deref_some)

/-- `strncat` of at most `len` characters behind position `i` of an array of 64, to a string in an
array of 64. -/
def strncat (apn src : Memory) (i len : ℕ) : Except Fault Memory := do
  let n ← deref (strlen 64 apn)
  let bs := cstr (read src i len)
  if i + min len (bs.length + 1) ≤ 64 ∧ n + bs.length < 64 then
    .ok (write apn n (bs ++ [0]))
  else .error .badPointer

/-- The loop over `pdn->apn` from position `i` on. -/
def copyLabels (src : Memory) : ℕ → ℕ → Memory → Except Fault Memory
  | 0, _, _ => .error .endless
  | fuel + 1, i, apn =>
    if i < 64 then
      if src i ≠ 0 then do
        let len := (src i).toNat
        let apn ← strncat apn src (i + 1) len
        if len < 64 then copyLabels src fuel (i + len + 1) (update apn len dot)
        else .error .badPointer
      else if i = 0 then .error .badPointer
      else .ok (update apn (i - 1) 0)
    else .ok apn

/-- `called_station_id` of the CCR, for `pdn->apn` and `pdn->apn_len`. -/
def calledStationId (apn : Memory) (apnLen : UInt8) : Except Fault (Option (List UInt8)) :=
  if apnLen = 0 then .ok none
  else do
    let text ← copyLabels apn 65 0 (padded [])
    let len ← deref (strlen 64 text)
    .ok (some (read text 0 len))

def putDot (text : List UInt8) (j : ℕ) : List UInt8 :=
  if j < text.length then text.set j dot else text ++ [dot]

def built (text : List UInt8) (labels : List (List UInt8)) : List UInt8 :=
  labels.foldl (fun text l => putDot (text ++ l) l.length) text

section Built

variable {text l : List UInt8} {labels : List (List UInt8)}

theorem length_putDot_of_ne_nil (h : text ≠ []) :
    (putDot (text ++ l) l.length).length = text.length + l.length := by
  have := List.length_pos_iff.mpr h
  rw [putDot, if_pos (by rw [List.length_append]; omega), List.length_set, List.length_append]

theorem zero_notMem_putDot {j : ℕ} (h : 0 ∉ text) : 0 ∉ putDot text j := by
  rw [putDot]
  split_ifs
  · exact fun hmem => (List.mem_or_eq_of_mem_set hmem).elim h (by decide)
  · rw [List.mem_append, not_or]
    exact ⟨h, by decide⟩

theorem length_built (h : text ≠ []) :
    (built text labels).length = text.length + (labels.map List.length).sum := by
  induction labels generalizing text with
  | nil => rfl
  | cons l labels ih =>
    have hlen := length_putDot_of_ne_nil (l := l) h
    have hne : putDot (text ++ l) l.length ≠ [] := by
      refine List.ne_nil_of_length_pos ?_
      have := List.length_pos_iff.mpr h
      omega
    change (built (putDot (text ++ l) l.length) labels).length = _
    rw [ih hne, hlen, List.map_cons, List.sum_cons, Nat.add_assoc]

theorem zero_notMem_built (htext : 0 ∉ text) (h : ∀ l ∈ labels, 0 ∉ l) : 0 ∉ built text labels := by
  induction labels generalizing text with
  | nil => exact htext
  | cons l labels ih =>
    refine ih (zero_notMem_putDot ?_) fun l' hl' => h l' (List.mem_cons_of_mem l hl')
    rw [List.mem_append, not_or]
    exact ⟨htext, h l List.mem_cons_self⟩

end Built

/-- No label is empty or has a NUL. -/
def Labelled (labels : List (List UInt8)) : Prop := ∀ l ∈ labels, l ≠ [] ∧ 0 ∉ l

/-- The labels lie in the array from `i` on, with a NUL behind them if there is room. -/
structure HoldsLabels (src : Memory) (i : ℕ) (labels : List (List UInt8)) : Prop where
  wire : read src i (wire labels).length = wire labels
  fits : i + (Labels.wire labels).length ≤ 64
  ends : i + (Labels.wire labels).length < 64 → src (i + (Labels.wire labels).length) = 0

section Loop

variable {src : Memory} {i : ℕ} {text l : List UInt8} {labels : List (List UInt8)}

theorem strncat_padded (htext : 0 ∉ text) (hl : 0 ∉ l) (hread : read src i l.length = l)
    (hsrc : i + l.length ≤ 64) (hroom : text.length + l.length < 64) :
    strncat (padded text) src i l.length = .ok (padded (text ++ l)) := by
  have hstrlen : strlen 64 (padded text) = some text.length := strlen_write htext rfl (by omega)
  have hwrite : padded (text ++ (l ++ [0])) = write (padded text) (0 + text.length) (l ++ [0]) :=
    write_append ..
  rw [Nat.zero_add, ← List.append_assoc, padded_concat_zero] at hwrite
  rw [strncat, hstrlen, hread, cstr_eq_self hl, deref_some, pure_bind,
    if_pos ⟨by omega, hroom⟩, hwrite]

theorem update_dot (text l : List UInt8) :
    update (padded (text ++ l)) l.length dot = padded (putDot (text ++ l) l.length) := by
  rw [putDot]
  split_ifs with h
  · exact update_padded_of_lt dot h
  · have hnil : text = [] := by
      refine List.length_eq_zero_iff.mp ?_
      rw [List.length_append] at h
      omega
    rw [hnil, List.nil_append, update_padded_length]

theorem HoldsLabels.cons (h : HoldsLabels src i (l :: labels)) :
    src i = UInt8.ofNat l.length ∧ read src (i + 1) l.length = l ∧
      HoldsLabels src (i + l.length + 1) labels := by
  obtain ⟨hwire, hfits, hends⟩ := h
  have hlen : (Labels.wire (l :: labels)).length = l.length + (Labels.wire labels).length + 1 := by
    rw [wire_cons, List.length_cons, List.length_append]
  have hend : i + (Labels.wire (l :: labels)).length =
      i + l.length + 1 + (Labels.wire labels).length := by omega
  rw [hlen, Octets.read, wire_cons, List.cons.injEq, read_add] at hwire
  obtain ⟨hl, hrest⟩ := List.append_inj hwire.2 (length_read ..)
  refine ⟨hwire.1, hl, ?_, by omega, fun hlt => ?_⟩
  · rw [Nat.add_right_comm]
    exact hrest
  · rw [← hend] at hlt ⊢
    exact hends hlt

theorem copyLabels_eq {fuel : ℕ} (hlabels : Labelled labels) (h : HoldsLabels src i labels)
    (htext : 0 ∉ text) (hle : text.length ≤ i) (hi : labels = [] → i ≠ 0)
    (hfuel : labels.length < fuel) :
    copyLabels src fuel i (padded text) = .ok (padded (if i + (wire labels).length < 64 then
        (built text labels).take (i + (wire labels).length - 1) else built text labels)) := by
  induction labels generalizing i text fuel with
  | nil =>
    obtain ⟨fuel, rfl⟩ := Nat.exists_eq_succ_of_ne_zero (Nat.ne_of_gt hfuel)
    have hne := hi rfl
    rw [copyLabels, wire_nil, List.length_nil, Nat.add_zero i]
    by_cases hlt : i < 64
    · have hsrc : src i = 0 := h.ends hlt
      rw [if_pos hlt, if_neg (not_not.mpr hsrc), if_neg hne, if_pos hlt,
        update_padded_zero (by omega)]
      rfl
    · rw [if_neg hlt, if_neg hlt]
      rfl
  | cons l labels ih =>
    obtain ⟨fuel, rfl⟩ := Nat.exists_eq_succ_of_ne_zero (Nat.ne_of_gt (Nat.zero_lt_of_lt hfuel))
    obtain ⟨hlen, hread, hrest⟩ := h.cons
    obtain ⟨hne, hnul⟩ := hlabels l List.mem_cons_self
    have hfits := hrest.fits
    have htoNat : (src i).toNat = l.length := by
      rw [hlen, UInt8.toNat_ofNat']
      omega
    have hsrc : src i ≠ 0 := hlen ▸ ofNat_length_ne_zero hne (by omega)
    have happ : 0 ∉ text ++ l := by
      rw [List.mem_append, not_or]
      exact ⟨htext, hnul⟩
    have hputDot : (putDot (text ++ l) l.length).length ≤ i + l.length + 1 := by
      rw [putDot]
      split_ifs <;> simp only [List.length_set, List.length_append, List.length_singleton] <;> omega
    have hend : i + (wire (l :: labels)).length = i + l.length + 1 + (wire labels).length := by
      rw [wire_cons, List.length_cons, List.length_append]
      omega
    rw [copyLabels, if_pos (by omega), if_pos hsrc]
    simp only [htoNat]
    rw [strncat_padded htext hnul hread (by omega) (by omega)]
    change (if l.length < 64 then _ else _) = _
    rw [if_pos (by omega), update_dot, hend]
    refine ih (fun l' hl' => hlabels l' (List.mem_cons_of_mem l hl')) hrest
      (zero_notMem_putDot happ) hputDot (fun _ => by omega) ?_
    rw [List.length_cons] at hfuel
    omega

end Loop

/-- The labels with dots between them. -/
def JoinsLabels (labels : List (List UInt8)) (placed : Except Fault (Option (List UInt8))) : Prop :=
  placed = .ok (if labels = [] then none else some ([dot].intercalate labels))

/-- At most two labels, the second dot falling on the first. -/
def Joinable : List (List UInt8) → Prop
  | [] => True
  | [a] => a.length ≤ 62
  | [a, b] => (a ++ dot :: b).getD b.length 0 = dot
  | _ => False

theorem set_eq_self_iff {text : List UInt8} {j : ℕ} {b : UInt8} (h : j < text.length) :
    text.set j b = text ↔ text.getD j 0 = b := by
  rw [List.getD_eq_getElem _ _ h]
  constructor
  · intro hset
    have hget : (text.set j b)[j]? = some b := List.getElem?_set_self h
    rw [hset, List.getElem?_eq_getElem h] at hget
    exact Option.some.inj hget
  · intro hget
    rw [← hget, List.set_getElem_self]

/-- **Two or more labels come out right if they are joinable.** -/
theorem built_eq_iff {a b : List UInt8} {rest : List (List UInt8)} :
    built [] (a :: b :: rest) = [dot].intercalate (a :: b :: rest) ↔ Joinable (a :: b :: rest) := by
  have hfirst : built [] (a :: b :: rest) = built (a ++ [dot]) (b :: rest) :=
    congrArg (built · (b :: rest)) (if_neg (Nat.lt_irrefl a.length))
  have happ : a ++ [dot] ++ b = a ++ dot :: b := List.append_assoc ..
  rw [hfirst]
  cases rest with
  | nil =>
    have hlen : b.length < (a ++ dot :: b).length := by
      rw [List.length_append, List.length_cons]
      omega
    change putDot (a ++ [dot] ++ b) b.length = _ ↔ (a ++ dot :: b).getD b.length 0 = dot
    rw [List.intercalate_cons_cons, List.intercalate_singleton, happ, putDot, if_pos hlen]
    exact set_eq_self_iff hlen
  | cons c rest =>
    refine iff_of_false (fun h => ?_) id
    have hlen := congrArg List.length h
    have hjoin : _ = ([dot].intercalate (a :: b :: c :: rest)).length + 1 :=
      length_wire (a :: b :: c :: rest) (List.cons_ne_nil _ _)
    rw [length_wire_eq_sum] at hjoin
    rw [length_built (by simp)] at hlen
    simp only [List.length_append, List.map_cons, List.sum_cons, List.length_cons,
      List.length_nil] at hlen hjoin
    omega

theorem readBack {text : List UInt8} (h0 : 0 ∉ text) :
    (deref (strlen 64 (padded text)) >>= fun len =>
      (.ok (some (read (padded text) 0 len)) : Except Fault _)) =
      if text.length < 64 then .ok (some text) else .error .badPointer := by
  split_ifs with hlt
  · have hstrlen : strlen 64 (padded text) = some text.length := strlen_write h0 rfl hlt
    rw [hstrlen, deref_some, pure_bind, padded, read_write]
  · have hstrlen : strlen 64 (padded text) = none := strlen_write_eq_none h0 (Nat.not_lt.mp hlt)
    rw [hstrlen]
    rfl

theorem calledStationId_eq {src : Memory} {labels : List (List UInt8)} {n : ℕ}
    (hlabels : Labelled labels) (h : HoldsLabels src 0 labels) (hne : labels ≠ [])
    (hn : (wire labels).length = n) :
    calledStationId src (.ofNat n) =
      (let text := if n < 64 then (built [] labels).take (n - 1) else built [] labels
      if text.length < 64 then .ok (some text) else .error .badPointer) := by
  subst hn
  have hfits : (wire labels).length ≤ 64 := by simpa using h.fits
  have hsum := length_wire_eq_sum labels
  have hpos := List.length_pos_iff.mpr hne
  have hlen : UInt8.ofNat (wire labels).length ≠ 0 :=
    ofNat_length_ne_zero (List.ne_nil_of_length_pos (by omega)) (by omega)
  have h0 : 0 ∉ built [] labels := zero_notMem_built List.not_mem_nil fun l hl => (hlabels l hl).2
  have hcopy : copyLabels src 65 0 (padded []) = _ :=
    copyLabels_eq hlabels h List.not_mem_nil (Nat.le_refl 0) (fun hnil => absurd hnil hne) (by omega)
  rw [Nat.zero_add] at hcopy
  rw [calledStationId, if_neg hlen, hcopy]
  refine readBack ?_
  split_ifs
  · exact fun hmem => h0 (List.mem_of_mem_take hmem)
  · exact h0

/-- **The APN is placed with a dot between its labels if they are joinable.** -/
theorem joinsLabels_iff {src : Memory} {labels : List (List UInt8)} (hlabels : Labelled labels)
    (h : HoldsLabels src 0 labels) :
    JoinsLabels labels (calledStationId src (.ofNat (wire labels).length)) ↔ Joinable labels := by
  have hfits : (wire labels).length ≤ 64 := by simpa using h.fits
  have hsum := length_wire_eq_sum labels
  cases labels with
  | nil => exact iff_of_true rfl trivial
  | cons a rest =>
    have hne := List.cons_ne_nil a rest
    rw [JoinsLabels, if_neg hne, calledStationId_eq hlabels h hne rfl]
    dsimp only
    cases rest with
    | nil =>
      have hn : (wire [a]).length = a.length + 1 := by simp
      have hbuilt : built [] [a] = a ++ [dot] := if_neg (Nat.lt_irrefl _)
      rw [hn, hbuilt, List.intercalate_singleton, Joinable]
      by_cases hlt : a.length + 1 < 64
      · rw [if_pos hlt, Nat.add_sub_cancel, List.take_left, if_pos (by omega)]
        exact iff_of_true rfl (by omega)
      · rw [if_neg hlt, List.length_append, List.length_singleton, if_neg hlt]
        refine iff_of_false (fun heq => ?_) (by omega)
        cases heq
    | cons b rest =>
      have hfirst : built [] (a :: b :: rest) = built (a ++ [dot]) (b :: rest) :=
        congrArg (built · (b :: rest)) (if_neg (Nat.lt_irrefl a.length))
      have hlen : (built [] (a :: b :: rest)).length + 1 ≤ (wire (a :: b :: rest)).length := by
        rw [hfirst, length_built (by simp), hsum]
        simp only [List.length_append, List.map_cons, List.sum_cons, List.length_cons,
          List.length_nil]
        omega
      rw [List.take_of_length_le (by omega), ite_self, if_pos (by omega), Except.ok.injEq,
        Option.some.injEq]
      exact built_eq_iff

theorem holdsLabels_padded {labels : List (List UInt8)} (h : (wire labels).length ≤ 64) :
    HoldsLabels (padded (wire labels)) 0 labels := by
  refine ⟨read_write .., (Nat.zero_add _).symm ▸ h, fun _ => ?_⟩
  rw [Nat.zero_add, padded_apply, List.getD_eq_default _ _ (Nat.le_refl _)]

/-- The name `ims.mnc`, with labels of the same length. -/
theorem joinsLabels_sameLength : JoinsLabels [[105, 109, 115], [109, 110, 99]]
    (calledStationId (padded (wire [[105, 109, 115], [109, 110, 99]])) 8) := by
  refine (joinsLabels_iff (fun l hl => ?_) (holdsLabels_padded (by decide))).mpr rfl
  rcases List.mem_pair.mp hl with rfl | rfl <;> decide

/-- **The name `a.bc` comes out as `a..c`.** -/
theorem not_joinsLabels_overwritten :
    calledStationId (padded (wire [[97], [98, 99]])) 5 = .ok (some [97, 46, 46, 99]) ∧
      ¬JoinsLabels [[97], [98, 99]] (calledStationId (padded (wire [[97], [98, 99]])) 5) := by
  have hplaced : calledStationId (padded (wire [[97], [98, 99]])) 5 =
      .ok (some [97, 46, 46, 99]) := by
    rfl
  refine ⟨hplaced, ?_⟩
  rw [hplaced, JoinsLabels]
  decide

end Spgw.Gx
