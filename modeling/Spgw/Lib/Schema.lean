/-
# Record schemas

A schema lists the members of every kind of record: values of a fixed number of octets, strings in
buffers of a fixed size, records, and lists of these.
-/

import Spgw.Lib.Packing

namespace Record

open Octets

/-- Bit `i` of an octet. -/
def bit (c : UInt8) (i : ℕ) : Bool := c.toBitVec.getLsbD i

def octet (b : ℕ → Bool) : UInt8 :=
  .ofBitVec (BitVec.ofBoolListLE [b 0, b 1, b 2, b 3, b 4, b 5, b 6, b 7])

theorem bit_octet (b : ℕ → Bool) {i : ℕ} (h : i < 8) : bit (octet b) i = b i := by
  have hbit : bit (octet b) i = [b 0, b 1, b 2, b 3, b 4, b 5, b 6, b 7].getD i false :=
    BitVec.getLsbD_ofBoolListLE
  rw [hbit]
  match i, h with
  | 0, _ | 1, _ | 2, _ | 3, _ | 4, _ | 5, _ | 6, _ | 7, _ => rfl

def flagOctets (bits : List Bool) : List UInt8 :=
  (List.range ((bits.length + 7) / 8)).map fun j => octet fun i => bits.getD (8 * j + i) false

def flagPattern (bits : List Bool) : Pattern :=
  (List.range ((bits.length + 7) / 8)).map fun j c => (List.range 8).all fun i =>
    decide (bits.length ≤ 8 * j + i) || bit c i == bits.getD (8 * j + i) false

def flags (m : Memory) (off n : ℕ) : List Bool :=
  (List.range n).map fun i => bit (m (off + i / 8)) (i % 8)

theorem length_flagOctets (bits : List Bool) :
    (flagOctets bits).length = (bits.length + 7) / 8 := by
  simp [flagOctets]

theorem length_flagPattern (bits : List Bool) :
    (flagPattern bits).length = (bits.length + 7) / 8 := by
  simp [flagPattern]

theorem length_flags (m : Memory) (off n : ℕ) : (flags m off n).length = n := by
  simp [flags]

theorem shows_flagPattern_iff {m : Memory} {off : ℕ} {bits : List Bool} :
    Shows m off (flagPattern bits) ↔ flags m off bits.length = bits := by
  rw [flagPattern, shows_map_range]
  constructor
  · intro h
    apply List.ext_getElem (length_flags ..)
    intro i hi hbits
    have hoctet := h (i / 8) (by omega)
    rw [List.all_eq_true] at hoctet
    have hbit := hoctet (i % 8) (List.mem_range.mpr (Nat.mod_lt i (by decide)))
    have hpos : 8 * (i / 8) + i % 8 = i := Nat.div_add_mod i 8
    have hlt : ¬ bits.length ≤ i := Nat.not_le_of_lt hbits
    simp only [hpos, hlt, decide_false, Bool.false_or, beq_iff_eq] at hbit
    rw [List.getD_eq_getElem _ _ hbits] at hbit
    simpa [flags] using hbit
  · intro h j _
    rw [List.all_eq_true]
    intro i hi
    have hi : i < 8 := List.mem_range.mp hi
    rcases Nat.lt_or_ge (8 * j + i) bits.length with hlt | hge
    · have hdiv : (8 * j + i) / 8 = j := by omega
      have hmod : (8 * j + i) % 8 = i := by omega
      have hbit : (flags m off bits.length).getD (8 * j + i) false =
          bits.getD (8 * j + i) false := by rw [h]
      rw [List.getD_eq_getElem _ _ (by rwa [length_flags])] at hbit
      simp only [flags, List.getElem_map, List.getElem_range, hdiv, hmod] at hbit
      simp [hbit]
    · simp [hge]

theorem shows_write_flags (m : Memory) (off : ℕ) (bits : List Bool) :
    Shows (write m off (flagOctets bits)) off (flagPattern bits) := by
  have hwritten := shows_write_exactly m off (flagOctets bits)
  rw [exactly, flagOctets, List.map_map, shows_map_range] at hwritten
  rw [flagPattern, shows_map_range]
  intro j hj
  have hoctet : write m off (flagOctets bits) (off + j) =
      octet fun i => bits.getD (8 * j + i) false := beq_iff_eq.mp (hwritten j hj)
  rw [hoctet, List.all_eq_true]
  intro i hi
  rw [bit_octet _ (List.mem_range.mp hi), beq_self_eq_true, Bool.or_true]

section Members

variable {ι : Type} {V : ι → Type}

def Members (V : ι → Type) : List ι → Type
  | [] => Unit
  | k :: ks => Option (V k) × Members V ks

def Members.bits : {ks : List ι} → Members V ks → List Bool
  | [], _ => []
  | _ :: _, (x, xs) => x.isSome :: Members.bits xs

theorem Members.length_bits {ks : List ι} (v : Members V ks) : v.bits.length = ks.length := by
  induction ks with
  | nil => rfl
  | cons k ks ih => exact congrArg (· + 1) (ih v.2)

def members (C : (k : ι) → Codec (V k)) : List Bool → (ks : List ι) → Codec (Members V ks)
  | _, [] => unit
  | bits, k :: ks => pair (optional (bits.headD false) (C k)) (members C bits.tail ks)

def membersItem (F : (k : ι) → V k → Item) : {ks : List ι} → Members V ks → Item
  | [], _ => .nil
  | k :: _, (x, xs) => (optionalItem (F k) x).seq (membersItem F xs)

theorem describes_members {C : (k : ι) → Codec (V k)} {F : (k : ι) → V k → Item} {ks : List ι}
    (h : ∀ k ∈ ks, ∀ x, Describes (F k x) (C k) x) (v : Members V ks) :
    Describes (membersItem F v) (members C v.bits ks) v := by
  induction ks with
  | nil => exact describes_unit
  | cons k ks ih =>
    obtain ⟨x, xs⟩ := v
    exact describes_pair (describes_optional (h k List.mem_cons_self) x)
      (ih (fun k' hk => h k' (List.mem_cons_of_mem k hk)) xs)

theorem bits_of_members_unpack {C : (k : ι) → Codec (V k)} {ks : List ι} {bits : List Bool}
    (hlen : bits.length = ks.length) {len : ℕ} {m : Memory} {off o : ℕ} {v : Members V ks}
    (h : (members C bits ks).unpack len m off = some (v, o)) : v.bits = bits := by
  induction ks generalizing bits off with
  | nil => exact (List.length_eq_zero_iff.mp hlen).symm
  | cons k ks ih =>
    obtain ⟨b, bs, rfl⟩ := List.exists_cons_of_length_eq_add_one hlen
    obtain ⟨x, xs⟩ := v
    obtain ⟨o₁, hx, hxs⟩ := pair_unpack_eq_some.mp h
    have hhead : x.isSome = b := isSome_of_optional_unpack hx
    have htail : xs.bits = bs := ih (Nat.succ.inj hlen) hxs
    rw [Members.bits, hhead, htail]

def record (C : (k : ι) → Codec (V k)) (ks : List ι) : Codec (Members V ks) where
  size v := (ks.length + 7) / 8 + (members C v.bits ks).size v
  pack v len m off :=
    if off + (ks.length + 7) / 8 ≤ len then
      (members C v.bits ks).pack v len (write m off (flagOctets v.bits)) (off + (ks.length + 7) / 8)
    else none
  unpack len m off :=
    if off + (ks.length + 7) / 8 ≤ len then
      (members C (flags m off ks.length) ks).unpack len m (off + (ks.length + 7) / 8)
    else none

def presenceItem (bits : List Bool) : Item := .plain (flagPattern bits) (flagOctets bits) false

def recordItem (F : (k : ι) → V k → Item) {ks : List ι} (v : Members V ks) : Item :=
  (presenceItem v.bits).seq (membersItem F v)

theorem lawful_presence (bits : List Bool) : (presenceItem bits).Lawful
    (.plain (flagPattern bits) (flagOctets bits) false) :=
  lawful_plain ((length_flagOctets bits).trans (length_flagPattern bits).symm)
    (fun m off => shows_write_flags m off bits) fun h => nomatch h

theorem size_presence {ks : List ι} (v : Members V ks) :
    (presenceItem v.bits).size = (ks.length + 7) / 8 := by
  rw [presenceItem, Item.size, Item.plain, length_flagPattern, v.length_bits]

theorem le_size_recordItem (F : (k : ι) → V k → Item) {ks : List ι} (v : Members V ks) :
    (ks.length + 7) / 8 ≤ (recordItem F v).size := by
  rw [recordItem, Item.size_seq, size_presence]
  exact Nat.le_add_right ..

theorem describes_record {C : (k : ι) → Codec (V k)} {F : (k : ι) → V k → Item} {ks : List ι}
    (h : ∀ k ∈ ks, ∀ x, Describes (F k x) (C k) x) (v : Members V ks) :
    Describes (recordItem F v) (record C ks) v := by
  have hmembers := describes_members h v
  have hoctets : (flagOctets v.bits).length = (ks.length + 7) / 8 := by
    rw [length_flagOctets, v.length_bits]
  have hpattern : (flagPattern v.bits).length = (ks.length + 7) / 8 := by
    rw [length_flagPattern, v.length_bits]
  refine .of_lawful ?_ ((lawful_presence v.bits).seq hmembers.lawful) ?_ ?_ ?_
  · rw [recordItem, Item.size_seq, size_presence]
    exact congrArg ((ks.length + 7) / 8 + ·) hmembers.size_eq
  · intro len m off
    simp only [record, Access.seq, Access.plain, hoctets, Codec.access]
    split <;> rfl
  · intro len m off o
    have hshows : Shows m off (flagPattern v.bits) ↔ flags m off ks.length = v.bits := by
      rw [shows_flagPattern_iff, v.length_bits]
    simp only [Access.seq, Access.plain, hpattern, hshows, Codec.access, fits]
    constructor
    · intro hr
      simp only [record] at hr
      split at hr
      · rename_i hroom
        have hbits := bits_of_members_unpack (length_flags ..) hr
        rw [← hbits] at hr
        exact ⟨_, ⟨decide_eq_true hroom, hbits.symm, rfl⟩, hr⟩
      · cases hr
    · rintro ⟨_, ⟨hroom, hbits, rfl⟩, hr⟩
      simp only [record, hbits]
      rw [if_pos (of_decide_eq_true hroom)]
      exact hr
  · rintro len m off hf
    have hshows : Shows m off (flagPattern v.bits) ↔ flags m off ks.length = v.bits := by
      rw [shows_flagPattern_iff, v.length_bits]
    simp only [Access.seq, Access.plain, hpattern, hshows, Codec.access, fits] at hf
    rcases hf with hf | ⟨_, ⟨hroom, hbits, rfl⟩, hf⟩
    · exact if_neg (of_decide_eq_false hf)
    · simp only [record, hbits]
      rw [if_pos (of_decide_eq_true hroom)]
      exact hf

end Members

/-- What a member may be; `κ` names the kinds of records. -/
inductive Kind (κ : Type)
  | basic (w : ℕ)
  | string (cap : ℕ)
  | record (k : κ)
  | basics (w : ℕ)
  | strings (cap : ℕ)
  | records (k : κ)

namespace Kind

variable {κ : Type} {T : κ → Type}

def Val (T : κ → Type) : Kind κ → Type
  | .basic w => {bs : List UInt8 // bs.length = w}
  | .string cap => {bs : List UInt8 // bs.length ≤ cap}
  | .record k => T k
  | .basics w => {l : List {bs : List UInt8 // bs.length = w} // l.length < 2 ^ 31}
  | .strings cap => {l : List {bs : List UInt8 // bs.length ≤ cap} // l.length < 2 ^ 31}
  | .records k => {l : List (T k) // l.length < 2 ^ 31}

def codec (C : (k : κ) → Codec (T k)) : (kind : Kind κ) → Codec (kind.Val T)
  | .basic w => Record.basic w
  | .string cap => Record.string cap
  | .record k => C k
  | .basics w => counted false (Record.basic w)
  | .strings cap => counted true (element cap)
  | .records k => counted false (C k)

def item (F : (k : κ) → T k → Item) : (kind : Kind κ) → kind.Val T → Item
  | .basic _, v => basicItem v
  | .string _, v => textItem false v.1
  | .record k, v => F k v
  | .basics _, v => countedItem false basicItem v.1
  | .strings _, v => countedItem true (fun x => textItem true x.1) v.1
  | .records k, v => countedItem false (F k) v.1

/-- The buffers of strings are larger than two octets, and their size is an `uint32_t`. -/
def Good : Kind κ → Prop
  | .string cap | .strings cap => 2 ≤ cap ∧ cap < 2 ^ 32
  | _ => True

instance : DecidablePred (Good : Kind κ → Prop) := fun kind =>
  match kind with
  | .string _ | .strings _ => inferInstanceAs (Decidable (_ ∧ _))
  | .basic _ | .record _ | .basics _ | .records _ => inferInstanceAs (Decidable True)

theorem describes_item {C : (k : κ) → Codec (T k)} {F : (k : κ) → T k → Item}
    (h : ∀ k x, Describes (F k x) (C k) x) {kind : Kind κ} (hgood : kind.Good)
    (v : kind.Val T) : Describes (kind.item F v) (kind.codec C) v := by
  cases kind with
  | basic w => exact describes_basic v
  | string cap => exact describes_text hgood.1 hgood.2 v
  | record k => exact h k v
  | basics w => exact describes_counted describes_basic v
  | strings cap => exact describes_counted (describes_text hgood.1 hgood.2) v
  | records k => exact describes_counted (h k) v

end Kind

section Schema

variable {κ μ : Type} (schema : κ → List (μ × Kind κ))

/-- The records of a kind that are nested at most `n` deep. -/
def Rec : ℕ → κ → Type
  | 0, _ => Empty
  | n + 1, k => Members (fun e : μ × Kind κ => e.2.Val (Rec n)) (schema k)

def codec : (n : ℕ) → (k : κ) → Codec (Rec schema n k)
  | 0, _ => { size := nofun, pack := nofun, unpack := fun _ _ _ => none }
  | n + 1, k => record (fun e => e.2.codec (codec n)) (schema k)

def item : (n : ℕ) → (k : κ) → Rec schema n k → Item
  | 0, _ => nofun
  | n + 1, _ => recordItem fun e => e.2.item (item n)

/-- **The packed form of a record, at any depth of nesting.** -/
theorem describes_rec (hgood : ∀ k, ∀ e ∈ schema k, e.2.Good) (n : ℕ) (k : κ)
    (r : Rec schema n k) : Describes (item schema n k r) (codec schema n k) r := by
  induction n generalizing k with
  | zero => exact r.elim
  | succ n ih => exact describes_record (fun e he x => Kind.describes_item ih (hgood k e he) x) r

end Schema

end Record
