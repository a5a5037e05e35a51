/-
# The IMSI and the PCO of a Create Session Request

`decode_gtp_imsi_ie` and `decode_pco_ie_t` of `libgtpv2c/src/gtp_ies_decoder.c`, on a buffer that
starts with the element; what lies behind it is arbitrary.
-/

import Spgw.Lib.Octets
import Mathlib.Data.List.GetD

namespace Spgw.Codec.GtpIe

open Octets (Memory)

/-- `header.len` after `decode_ie_header_t`. -/
def headerLen (buf : Memory) : ℕ := (buf 1).toNat * 256 + (buf 2).toNat

/-- The octets of a `uint16_t` in network order. -/
def putUint16 (n : ℕ) : List UInt8 := [.ofNat (n / 256), .ofNat n]

def putHeader (type : UInt8) (len : ℕ) (inst : UInt8) : List UInt8 := type :: putUint16 len ++ [inst]

def Starts (buf : Memory) (l : List UInt8) : Prop := Octets.read buf 0 l.length = l

theorem read_append {m : Memory} {off : ℕ} {l l' : List UInt8} :
    Octets.read m off (l ++ l').length = l ++ l' ↔
      Octets.read m off l.length = l ∧ Octets.read m (off + l.length) l'.length = l' := by
  induction l generalizing off with
  | nil => simp [Octets.read]
  | cons b l ih =>
    have hoff : off + (b :: l).length = off + 1 + l.length := by
      rw [List.length_cons]
      omega
    rw [hoff]
    simp only [List.cons_append, List.length_cons, Octets.read, List.cons.injEq, ih, and_assoc]

theorem headerLen_of_starts {buf : Memory} {type inst : UInt8} {len : ℕ} {l : List UInt8}
    (h : Starts buf (putHeader type len inst ++ l)) (hlen : len < 65536) : headerLen buf = len := by
  obtain ⟨hhead, -⟩ := read_append.mp h
  simp only [putHeader, putUint16, List.cons_append, List.nil_append, List.length_cons,
    List.length_nil, Octets.read, List.cons.injEq] at hhead
  rw [headerLen, hhead.2.1, hhead.2.2.1, UInt8.toNat_ofNat', UInt8.toNat_ofNat']
  omega

theorem read_of_starts {buf : Memory} {type inst : UInt8} {len : ℕ} {l : List UInt8}
    (h : Starts buf (putHeader type len inst ++ l)) : Octets.read buf 4 l.length = l := by
  have := (read_append.mp h).2
  rwa [Nat.zero_add] at this

def nibble (o : UInt8) (i : ℕ) : ℕ := if i = 0 then o.toNat % 16 else o.toNat / 16

/-- `digit1` (`i = 0`) to `digit16` of `imsi_bcd_t` at the octet behind the header. -/
def digit (buf : Memory) (i : ℕ) : ℕ := nibble (buf (4 + i / 2)) (i % 2)

/-- `imsi64` after the first digits, in 64 bits. -/
def foldDigits (buf : Memory) : ℕ → ℕ
  | 0 => 0
  | k + 1 => (foldDigits buf k * 10 + digit buf k) % 2 ^ 64

structure GtpImsiIe where
  headerLen : ℕ
  imsiNumberDigits : List UInt8
  imsi64 : ℕ

def decodeGtpImsiIe (buf : Memory) : GtpImsiIe × ℕ :=
  let len := headerLen buf
  (⟨len, Octets.read buf 4 len, foldDigits buf (if len = 8 then 15 else 14)⟩, 4 + len)

/-- Digits in pairs, with the filler `0xF`. -/
def tbcd : List (Fin 10) → List UInt8
  | [] => []
  | [a] => [.ofNat (a + 16 * 15)]
  | a :: b :: ds => .ofNat (a + 16 * b) :: tbcd ds

structure Imsi where
  digits : List (Fin 10)
  six_le : 6 ≤ digits.length
  le_fifteen : digits.length ≤ 15

namespace Imsi

def value (ds : List (Fin 10)) : ℕ := ds.foldl (fun v d => v * 10 + d.val) 0

def element (imsi : Imsi) (inst : UInt8) : List UInt8 :=
  putHeader 1 (tbcd imsi.digits).length inst ++ tbcd imsi.digits

/-- Wherever the element stands, `imsi64` is the value of the digits. -/
def Decodes (imsi : Imsi) : Prop :=
  ∀ inst buf, Starts buf (imsi.element inst) → (decodeGtpImsiIe buf).1.imsi64 = value imsi.digits

end Imsi

theorem length_tbcd (ds : List (Fin 10)) : (tbcd ds).length = (ds.length + 1) / 2 := by
  induction ds using tbcd.induct with
  | case1 => rfl
  | case2 a => simp [tbcd]
  | case3 a b ds ih =>
    rw [tbcd, List.length_cons, ih, List.length_cons, List.length_cons]
    omega

theorem nibble_tbcd (ds : List (Fin 10)) (i : ℕ) :
    nibble ((tbcd ds).getD (i / 2) 0xFF) (i % 2) = (ds.map Fin.val).getD i 15 := by
  induction ds using tbcd.induct generalizing i with
  | case1 => rcases Nat.mod_two_eq_zero_or_one i with h | h <;> simp [tbcd, nibble, h]
  | case2 a =>
    match i with
    | 0 | 1 =>
      have := a.isLt
      simp [tbcd, nibble, UInt8.toNat_ofNat']
      omega
    | i + 2 => rcases Nat.mod_two_eq_zero_or_one i with h | h <;> simp [tbcd, nibble, h]
  | case3 a b ds ih =>
    match i with
    | 0 | 1 =>
      have := a.isLt
      have := b.isLt
      simp [tbcd, nibble, UInt8.toNat_ofNat']
      omega
    | i + 2 => simpa [tbcd] using ih i

theorem foldDigits_le (buf : Memory) {k : ℕ} (hk : k ≤ 15) : foldDigits buf k + 2 ≤ 2 * 10 ^ k := by
  induction k with
  | zero => simp [foldDigits]
  | succ k ih =>
    have hprev := ih (by omega)
    have hdigit : digit buf k ≤ 15 := by
      have := (buf (4 + k / 2)).toNat_lt
      unfold digit nibble
      split_ifs <;> omega
    have := Nat.mod_le (foldDigits buf k * 10 + digit buf k) (2 ^ 64)
    rw [foldDigits, Nat.pow_succ]
    omega

theorem foldDigits_succ (buf : Memory) {k : ℕ} (hk : k < 15) :
    foldDigits buf (k + 1) = foldDigits buf k * 10 + digit buf k := by
  have hprev := foldDigits_le buf (Nat.le_of_lt hk)
  have hpow : 10 ^ k ≤ 10 ^ 14 := Nat.pow_le_pow_right (by decide) (by omega)
  have hdigit : digit buf k ≤ 15 := by
    have := (buf (4 + k / 2)).toNat_lt
    unfold digit nibble
    split_ifs <;> omega
  exact Nat.mod_eq_of_lt (by omega)

theorem foldDigits_eq {buf : Memory} {ds : List (Fin 10)} (hds : ds.length ≤ 15)
    (h : ∀ i < ds.length, digit buf i = (ds.map Fin.val).getD i 15) :
    foldDigits buf ds.length = Imsi.value ds := by
  induction ds using List.reverseRecOn with
  | nil => rfl
  | append_singleton ds d ih =>
    rw [List.length_append, List.length_singleton] at hds h ⊢
    have hinit := ih (by omega) fun i hi => by
      rw [h i (by omega), List.map_append, List.getD_append _ _ _ _ (by simpa using hi)]
    have hlast : digit buf ds.length = d := by
      rw [h ds.length (by omega)]
      simp
    rw [foldDigits_succ buf (by omega), hinit, hlast, Imsi.value, Imsi.value, List.foldl_append]
    rfl

theorem foldDigits_lt {buf : Memory} {n k : ℕ} (h : ∀ i, n ≤ i → digit buf i = 15) (hk : n < k)
    (hmax : k ≤ 15) : foldDigits buf n < foldDigits buf k := by
  induction k, hk using Nat.le_induction with
  | base =>
    rw [foldDigits_succ buf (by omega), h n (Nat.le_refl n)]
    omega
  | succ k hk ih =>
    have := ih (by omega)
    rw [foldDigits_succ buf (by omega), h k (by omega)]
    omega

theorem getD_of_read {m : Memory} {off i : ℕ} {l : List UInt8} (h : Octets.read m off l.length = l)
    (hi : i < l.length) (o : UInt8) : m (off + i) = l.getD i o := by
  induction l generalizing off i with
  | nil => simp at hi
  | cons b l ih =>
    simp only [List.length_cons, Octets.read, List.cons.injEq] at h hi
    cases i with
    | zero => exact h.1
    | succ i =>
      rw [List.getD_cons_succ, ← ih h.2 (by omega), Nat.add_assoc, Nat.add_comm 1]

theorem read_getD (l : List UInt8) (o : UInt8) (pre : List UInt8) :
    Octets.read (fun i => (pre ++ l).getD i o) pre.length l.length = l := by
  induction l generalizing pre with
  | nil => rfl
  | cons b l ih =>
    have htail := ih (pre ++ [b])
    rw [List.append_assoc, List.length_append, List.length_singleton, List.singleton_append] at htail
    rw [List.length_cons, Octets.read, htail]
    simp

/-- **The IMSI is decoded to the value of its digits, whatever follows it, exactly if it has
fourteen or fifteen digits.** -/
theorem imsi_decodes_iff (imsi : Imsi) : imsi.Decodes ↔ 14 ≤ imsi.digits.length := by
  have hsix := imsi.six_le
  have hmax := imsi.le_fifteen
  have hlen := length_tbcd imsi.digits
  constructor
  · intro h
    by_contra hshort
    -- Nothing but ones behind the element.
    let buf : Memory := fun i => (imsi.element 0).getD i 0xFF
    have hstarts : Starts buf (imsi.element 0) := read_getD (imsi.element 0) 0xFF []
    have hdigit : ∀ i, digit buf i = (imsi.digits.map Fin.val).getD i 15 := by
      intro i
      rw [← nibble_tbcd, digit]
      congr 1
      simp only [buf, Imsi.element]
      rw [List.getD_append_right _ _ _ _ (by simp [putHeader, putUint16])]
      congr 1
      simp [putHeader, putUint16]
    have hvalue := foldDigits_eq hmax fun i _ => hdigit i
    have hless := foldDigits_lt (n := imsi.digits.length) (k := 14)
      (fun i hi => by rw [hdigit i]; simp [hi]) (by omega) (by decide)
    have hres := h 0 buf hstarts
    have hneq : (tbcd imsi.digits).length ≠ 8 := by omega
    simp only [decodeGtpImsiIe, headerLen_of_starts hstarts (by omega), if_neg hneq] at hres
    omega
  · intro hlong inst buf hstarts
    have hread := read_of_starts hstarts
    have hdigit : ∀ i < imsi.digits.length, digit buf i = (imsi.digits.map Fin.val).getD i 15 := by
      intro i hi
      rw [← nibble_tbcd, digit, getD_of_read hread (by omega) 0xFF]
    have hcount : (if (tbcd imsi.digits).length = 8 then 15 else 14) = imsi.digits.length := by
      split_ifs <;> omega
    simp only [decodeGtpImsiIe, headerLen_of_starts hstarts (by omega), hcount]
    exact foldDigits_eq hmax hdigit

theorem six_le_twelve : 6 ≤ (List.replicate 12 (1 : Fin 10)).length := by decide

theorem twelve_le_fifteen : (List.replicate 12 (1 : Fin 10)).length ≤ 15 := by decide

/-- An IMSI of twelve digits `1`. -/
def twelveOnes : Imsi := ⟨List.replicate 12 1, six_le_twelve, twelve_le_fifteen⟩

/-- The type of the element behind it, `0x4C`, gives the IMSI two more digits. -/
theorem not_decodes_twelveOnes : ∃ buf : Memory, Starts buf (twelveOnes.element 0) ∧
    (decodeGtpImsiIe buf).1.imsi64 = 11111111111224 ∧
    Imsi.value twelveOnes.digits = 111111111111 :=
  ⟨fun i => (twelveOnes.element 0 ++ [0x4C]).getD i 0, by unfold Starts; decide, by decide, by decide⟩

structure PcoOpt where
  type : ℕ
  len : ℕ
  data : List UInt8
  deriving DecidableEq

/-- The loop of `decode_pco_ie_t` with `left` entries of `ids` still free: the containers it reads
from `count` on. -/
def pcoLoop (buf : Memory) (len : ℕ) : ℕ → ℕ → Option (List PcoOpt)
  | 0, _ => some []
  | left + 1, count =>
    if count < len then
      let type := (buf count).toNat * 256 + (buf (count + 1)).toNat
      let n := (buf (count + 2)).toNat
      if n ≤ 20 then
        (pcoLoop buf len left (count + 3 + n)).map (⟨type, n, Octets.read buf (count + 3) n⟩ :: ·)
      else none
    else some []

/-- `pco_ie_t` after `decode_pco_ie_t`. -/
structure PcoIe where
  headerLen : ℕ
  ext : ℕ
  configProto : ℕ
  ids : List PcoOpt

def decodePcoIe (buf : Memory) : Option (PcoIe × ℕ) :=
  let len := headerLen buf
  (pcoLoop buf len 16 5).map fun ids =>
    (⟨len, (buf 4).toNat / 128, (buf 4).toNat % 8, ids⟩, 4 + len)

structure Container where
  type : UInt16
  data : List UInt8
  length_lt : data.length < 256

namespace Container

def put (c : Container) : List UInt8 := putUint16 c.type.toNat ++ .ofNat c.data.length :: c.data

def opt (c : Container) : PcoOpt := ⟨c.type.toNat, c.data.length, c.data⟩

theorem length_put (c : Container) : c.put.length = 3 + c.data.length := by
  simp [put, putUint16]
  omega

end Container

structure Pco where
  config : UInt8
  containers : List Container
  length_le : containers.length ≤ 16

namespace Pco

def body (pco : Pco) : List UInt8 := pco.config :: pco.containers.flatMap Container.put

def element (pco : Pco) (inst : UInt8) : List UInt8 := putHeader 78 pco.body.length inst ++ pco.body

/-- Wherever the element stands, the options are those of the containers. -/
def Returned (pco : Pco) : Prop :=
  ∀ inst buf, Starts buf (pco.element inst) →
    (decodePcoIe buf).map (·.1.ids) = some (pco.containers.map Container.opt)

end Pco

/-- No container is longer than an option, and the last one has two octets. -/
def Seen (cs : List Container) : Prop :=
  (∀ c ∈ cs, c.data.length ≤ 20) ∧ ∀ c ∈ cs.getLast?, 2 ≤ c.data.length

theorem length_flatMap_put_le (cs : List Container) :
    (cs.flatMap Container.put).length ≤ 258 * cs.length := by
  induction cs with
  | nil => rfl
  | cons c cs ih =>
    have := c.length_lt
    rw [List.flatMap_cons, List.length_append, c.length_put, List.length_cons]
    omega

theorem read_put {buf : Memory} {count : ℕ} {c : Container}
    (h : Octets.read buf count c.put.length = c.put) :
    (buf count).toNat * 256 + (buf (count + 1)).toNat = c.type.toNat ∧
      (buf (count + 2)).toNat = c.data.length ∧
      Octets.read buf (count + 3) c.data.length = c.data := by
  have htype := c.type.toNat_lt
  have hlen := c.length_lt
  rw [Container.put, putUint16, List.cons_append, List.cons_append, List.nil_append] at h
  simp only [List.length_cons, Octets.read, List.cons.injEq, Nat.add_assoc] at h
  obtain ⟨h₀, h₁, h₂, hdata⟩ := h
  rw [h₀, h₁, h₂, UInt8.toNat_ofNat', UInt8.toNat_ofNat', UInt8.toNat_ofNat']
  exact ⟨by omega, by omega, hdata⟩

theorem pcoLoop_eq_iff {buf : Memory} {len left count : ℕ} {cs : List Container}
    (hleft : cs.length ≤ left)
    (hread : Octets.read buf count (cs.flatMap Container.put).length = cs.flatMap Container.put)
    (hend : count + (cs.flatMap Container.put).length = len + 4) :
    pcoLoop buf len left count = some (cs.map Container.opt) ↔ Seen cs := by
  induction cs generalizing left count with
  | nil =>
    have hstop : ¬ count < len := by
      rw [List.flatMap_nil, List.length_nil] at hend
      omega
    cases left <;> simp [pcoLoop, hstop, Seen]
  | cons c cs ih =>
    obtain ⟨left, rfl⟩ := Nat.exists_eq_succ_of_ne_zero (Nat.ne_of_gt (Nat.lt_of_lt_of_le
      (Nat.succ_pos cs.length) hleft))
    rw [List.flatMap_cons] at hread hend
    obtain ⟨hc, hcs⟩ := read_append.mp hread
    obtain ⟨htype, hlen, hdata⟩ := read_put hc
    rw [c.length_put, ← Nat.add_assoc] at hcs
    rw [List.length_append, c.length_put] at hend
    have hrest := ih (Nat.le_of_succ_le_succ hleft) hcs (by omega)
    -- A container is missed if it is the last one and ends within four octets.
    have hstart : count < len ↔ ∀ d ∈ (c :: cs).getLast?, cs = [] → 2 ≤ d.data.length := by
      cases cs with
      | nil =>
        rw [List.flatMap_nil, List.length_nil] at hend
        simp
        omega
      | cons d cs =>
        rw [List.flatMap_cons, List.length_append, d.length_put] at hend
        simp
        omega
    have hseen : Seen (c :: cs) ↔ count < len ∧ c.data.length ≤ 20 ∧ Seen cs := by
      rw [hstart]
      cases cs with
      | nil => simp [Seen, and_comm]
      | cons d cs => simp [Seen, and_assoc]
    rw [hseen, ← hrest, pcoLoop]
    simp only [htype, hlen, hdata]
    by_cases hlt : count < len
    · by_cases hfit : c.data.length ≤ 20
      · simp [hlt, hfit, Container.opt]
      · simp [hlt, hfit]
    · simp [hlt]

/-- **All the containers are returned exactly if none has more than twenty octets and the last one
has at least two.** -/
theorem pco_returned_iff (pco : Pco) : pco.Returned ↔ Seen pco.containers := by
  have hbody := length_flatMap_put_le pco.containers
  have hcount := pco.length_le
  have hlen : pco.body.length = 1 + (pco.containers.flatMap Container.put).length := by
    rw [Pco.body, List.length_cons, Nat.add_comm]
  have hloop : ∀ {inst buf}, Starts buf (pco.element inst) →
      ((decodePcoIe buf).map (·.1.ids) = some (pco.containers.map Container.opt) ↔
        Seen pco.containers) := by
    intro inst buf hstarts
    have hread := read_of_starts hstarts
    rw [Pco.body, List.length_cons, Octets.read, List.cons.injEq] at hread
    rw [decodePcoIe, headerLen_of_starts hstarts (by omega), Option.map_map]
    simpa [Function.comp_def] using pcoLoop_eq_iff hcount hread.2 (by omega)
  constructor
  · intro h
    have hstarts : Starts (fun i => (pco.element 0).getD i 0) (pco.element 0) :=
      read_getD (pco.element 0) 0 []
    exact (hloop hstarts).mp (h 0 _ hstarts)
  · intro hseen inst buf hstarts
    exact (hloop hstarts).mpr hseen

theorem empty_lt : ([] : List UInt8).length < 256 := by decide

def emptyContainer : Container := ⟨0x000d, [], empty_lt⟩

theorem one_le_sixteen : [emptyContainer].length ≤ 16 := by decide

def dnsRequest : Pco := ⟨0x80, [emptyContainer], one_le_sixteen⟩

/-- The only container of the element is not returned. -/
theorem not_returned_dnsRequest : ∃ buf : Memory, Starts buf (dnsRequest.element 0) ∧
    (decodePcoIe buf).map (·.1.ids) = some [] :=
  ⟨fun i => (dnsRequest.element 0).getD i 0, by unfold Starts; decide, by decide⟩

end Spgw.Codec.GtpIe
