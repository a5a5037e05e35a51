/-
# Messages of type-length-value elements

A message is a header, which tells where the elements start and how many octets they have, and the
elements.
-/

import Spgw.Lib.Decoder

namespace Tlv

variable {ι γ : Type}

structure Protocol (ι γ : Type) where
  format : Format ι γ
  headerFields : Buffer → List (ℕ × ℕ)
  start : Buffer → ℕ
  limit : Buffer → ℕ
  limit_lt : ∀ b, limit b < 65536
  congr : ∀ {b c avail}, Within avail (headerFields b) → (∀ i < avail, b i = c i) →
    headerFields c = headerFields b ∧ start c = start b ∧ limit c = limit b

namespace Protocol

variable (P : Protocol ι γ) (table : ℕ → ℕ → Decoder ι γ) (b : Buffer)

/-- The offsets of the elements that are decoded, each with what is stored for it, and the last
counter. -/
def decode (fuel : ℕ) : Option (List (ℕ × List (List ℕ)) × ℕ) :=
  loop P.format table b (P.start b) (P.limit b) fuel 0

def elementAt (o : ℕ) : Buffer := element b (P.start b) o

def decoderAt (o : ℕ) : Decoder ι γ := Tlv.decoderAt P.format table b (P.start b) o

def Next (o next : ℕ) : Prop := Step P.format table b (P.start b) o next

/-- The decoder gets to an element at the offset. -/
def Visits (o : ℕ) : Prop := Reaches (P.Next table b) (P.limit b) 0 o ∧ o < P.limit b

variable {P table b}

theorem decode_iff {offsets : List ℕ} {last : ℕ} :
    (∃ fuel visits, P.decode table b fuel = some (visits, last) ∧ visits.map Prod.fst = offsets) ↔
      Lands (P.Next table b) (P.limit b) 0 offsets last := loop_iff

theorem mem_of_visits {fuel : ℕ} {r : List (ℕ × List (List ℕ)) × ℕ}
    (h : P.decode table b fuel = some r) {o : ℕ} (ho : P.Visits table b o) :
    o ∈ r.1.map Prod.fst :=
  (decode_iff.mp ⟨fuel, r.1, h, rfl⟩).mem_of_reaches Step.unique ho.1 ho.2

section NoWrap

variable (short : ι → Buffer → Prop)

variable (P table b) in
/-- No counter gets to `2 ^ 16`, in the loop over the message and in those over its elements, and no
element is returned as empty. -/
def NoWrap : Prop :=
  ∀ o, P.Visits table b o → (P.decoderAt table b o).NoWrap P.format short (P.elementAt b o) ∧
      ∀ size, (P.decoderAt table b o).Takes P.format (P.elementAt b o) size → o + size < 65536

variable {short}

/-- **A decoder whose counters do not wrap returns.** -/
theorem returns_of_noWrap (hshort : ∀ i b, short i b → 0 < (P.format.leaf i).size b)
    (h : P.NoWrap table b short) : ∃ fuel r, P.decode table b fuel = some r := by
  obtain ⟨offsets, last, hlands, -⟩ := exists_lands_of_noWrap fun c hc hlt =>
    ⟨(h c ⟨hc, hlt⟩).1.takes hshort, (h c ⟨hc, hlt⟩).2⟩
  obtain ⟨fuel, visits, hdecode, -⟩ := decode_iff.mpr hlands
  exact ⟨fuel, _, hdecode⟩

end NoWrap

section Inside

variable (P table b) in
/-- An element of no known type that is cut off in its length: whatever octet follows the first one
of the length, the element is the last one. -/
def CutOff (avail o : ℕ) : Prop :=
  let e := P.elementAt b o
  let high := e.bits P.format.typeBits 8
  P.format.typeBits + 8 ≤ avail - 8 * (P.start b + o) ∧
    (∀ inst, table (P.format.type e) inst = .skip) ∧
    P.limit b ≤ o + 4 + 256 * high ∧ o + 4 + 256 * high + 255 < 65536

variable (P table b) in
/-- The header of the message and every element that is reached lie within the first `avail` bits,
as far as they are read. -/
def Inside (avail : ℕ) : Prop :=
  Within avail (P.headerFields b) ∧ ∀ o, P.Visits table b o → (32 ≤ avail - 8 * (P.start b + o) ∧
        (P.decoderAt table b o).Inside P.format (P.elementAt b o) (avail - 8 * (P.start b + o))) ∨
      P.CutOff table b avail o

variable {c : Buffer} {avail fuel o : ℕ}

end Inside

end Protocol

end Tlv
