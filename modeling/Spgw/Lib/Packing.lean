/-
# Packing values, strings and lists

Codecs for the parts of a record: values of a fixed number of octets, strings in buffers of a fixed
size, optional values, and lists behind their number of elements.
-/

import Spgw.Lib.Record
import Mathlib.Data.Vector.Basic

namespace Record

open Octets

structure Codec (α : Type) where
  size : α → ℕ
  pack : α → ℕ → Memory → ℕ → Option (Memory × ℕ)
  unpack : ℕ → Memory → ℕ → Option (α × ℕ)

def Codec.access {α : Type} (c : Codec α) (v : α) : Access where
  pack := c.pack v
  Returns len m off o := c.unpack len m off = some (v, o)
  Fails len m off := c.unpack len m off = none

structure Describes {α : Type} (i : Item) (c : Codec α) (v : α) : Prop where
  size_eq : c.size v = i.size
  lawful : i.Lawful (c.access v)

theorem Describes.of_lawful {α : Type} {i : Item} {c : Codec α} {v : α} {a : Access}
    (hsize : c.size v = i.size) (h : i.Lawful a)
    (hpack : ∀ len m off, c.pack v len m off = a.pack len m off)
    (hret : ∀ {len m off o}, c.unpack len m off = some (v, o) ↔ a.Returns len m off o)
    (hfail : ∀ {len m off}, a.Fails len m off → c.unpack len m off = none) :
    Describes i c v where
  size_eq := hsize
  lawful := h.congr hpack hret hfail fun hr hf => by
    have hsome : c.unpack _ _ _ = some _ := hr
    rw [show c.unpack _ _ _ = none from hf] at hsome
    cases hsome

def Item.nil : Item where
  pattern := []
  written m _ := m
  fixed := true
  endsOpen := false

def Access.nil : Access where
  pack _ m off := some (m, off)
  Returns _ _ off o := o = off
  Fails _ _ _ := False

theorem lawful_nil : Item.nil.Lawful Access.nil where
  size_pos h := nomatch h
  pack_eq hoff := (if_pos hoff).symm
  written_of_out _ := rfl
  shows_written _ := trivial
  returns_inj h h' := h.trans h'.symm
  not_fails _ h := h
  returns _ _ _ _ := rfl
  fails _ _ h := nomatch h
  shows_of_returns _ _ _ _ _ := trivial
  not_returns _ _ h := nomatch h

def fits (strict : Bool) (len o : ℕ) : Bool := if strict then o < len else o ≤ len

theorem fits_of_not {strict : Bool} {len o : ℕ} (hle : o ≤ len)
    (h : ¬ (strict = true ∧ o = len)) : fits strict len o = true := by
  cases strict with
  | false => exact decide_eq_true hle
  | true =>
    have hlt : o < len := Nat.lt_of_le_of_ne hle fun heq => h ⟨rfl, heq⟩
    exact decide_eq_true hlt

/-- Octets `bs` are written, and octets that pass the tests `p` are accepted. -/
def Item.plain (p : Pattern) (bs : List UInt8) (strict : Bool) : Item where
  pattern := p
  written m off := write m off bs
  fixed := true
  endsOpen := strict

def Access.plain (p : Pattern) (bs : List UInt8) (strict : Bool) : Access where
  pack len m off :=
    if off + bs.length ≤ len then some (write m off bs, off + bs.length) else none
  Returns len m off o := fits strict len (off + p.length) = true ∧ Shows m off p ∧ o = off + p.length
  Fails len _ off := fits strict len (off + p.length) = false

theorem lawful_plain {p : Pattern} {bs : List UInt8} {strict : Bool} (hlen : bs.length = p.length)
    (hshows : ∀ m off, Shows (write m off bs) off p) (hpos : strict = true → 0 < p.length) :
    (Item.plain p bs strict).Lawful (Access.plain p bs strict) where
  size_pos := hpos
  pack_eq _ := by
    change (if _ + bs.length ≤ _ then _ else _) = _
    rw [hlen]
    rfl
  written_of_out h := write_of_out _ bs (by rw [hlen]; exact h)
  shows_written _ := hshows ..
  returns_inj h h' := h.2.2.trans h'.2.2.symm
  not_fails h hf := by
    have heq : true = false := h.1.symm.trans hf
    cases heq
  returns _ hroom hs hopen := ⟨fits_of_not hroom hopen, hs, rfl⟩
  fails _ _ hopen heq := by
    obtain rfl : strict = true := hopen
    exact decide_eq_false fun hlt => Nat.ne_of_lt hlt heq
  shows_of_returns _ _ _ _ hret := hret.2.1
  not_returns _ _ h := nomatch h

/-- A value of `w` octets. -/
def basic (w : ℕ) : Codec {bs : List UInt8 // bs.length = w} where
  size _ := w
  pack v len m off := if off + w ≤ len then some (write m off v.1, off + w) else none
  unpack len m off :=
    if off + w ≤ len then some (⟨read m off w, length_read m off w⟩, off + w) else none

def basicItem {w : ℕ} (v : {bs : List UInt8 // bs.length = w}) : Item :=
  Item.plain (exactly v.1) v.1 false

theorem describes_basic {w : ℕ} (v : {bs : List UInt8 // bs.length = w}) :
    Describes (basicItem v) (basic w) v := by
  obtain ⟨bs, rfl⟩ := v
  have hlawful : (Item.plain (exactly bs) bs false).Lawful (.plain (exactly bs) bs false) :=
    lawful_plain (length_exactly bs).symm (fun m off => shows_write_exactly m off bs)
      fun h => nomatch h
  refine .of_lawful (length_exactly bs).symm hlawful (fun _ _ _ => rfl) ?_ ?_
  · intro len m off o
    simp only [basic, Access.plain, fits, length_exactly, shows_exactly_iff]
    by_cases hroom : off + bs.length ≤ len <;> simp [hroom, eq_comm]
  · intro len m off hf
    simp only [Access.plain, fits, length_exactly] at hf
    simpa [basic] using hf

/-- A string behind its length, in a buffer of `cap` octets. -/
def text (listed : Bool) (cap : ℕ) : Codec {bs : List UInt8 // bs.length ≤ cap} where
  size v := 4 + v.1.length
  pack v len m off :=
    if off + 4 + v.1.length ≤ len then
      let n := if listed then (word m off + v.1.length) % 2 ^ 32 else v.1.length
      some (write (write m off (littleEndian 4 n)) (off + 4) v.1, off + 4 + v.1.length)
    else none
  unpack len m off :=
    if off + 4 ≤ len then
      let n := word m off
      let o := (off + 4 + n) % 2 ^ 32
      if listed = true ∨ o ≤ len then
        some (⟨read m (off + 4) (min n cap), by rw [length_read]; exact Nat.min_le_right ..⟩, o)
      else none
    else none

def string (cap : ℕ) : Codec {bs : List UInt8 // bs.length ≤ cap} := text false cap

def element (cap : ℕ) : Codec {bs : List UInt8 // bs.length ≤ cap} := text true cap

def textLength (listed : Bool) (bs : List UInt8) (m : Memory) (off : ℕ) : ℕ :=
  if listed then (word m off + bs.length) % 2 ^ 32 else bs.length

def textItem (listed : Bool) (bs : List UInt8) : Item where
  pattern := exactly (littleEndian 4 bs.length) ++ exactly bs
  written m off := write (write m off (littleEndian 4 (textLength listed bs m off))) (off + 4) bs
  fixed := !listed
  endsOpen := false

section Text

variable {listed : Bool} {bs : List UInt8}

theorem size_textItem : (textItem listed bs).size = 4 + bs.length := by
  rw [Item.size, textItem, List.length_append, length_exactly, length_exactly, length_littleEndian]

theorem shows_textItem {m : Memory} {off : ℕ} (h : bs.length < 2 ^ 32) :
    Shows m off (textItem listed bs).pattern ↔
      word m off = bs.length ∧ read m (off + 4) bs.length = bs := by
  rw [textItem, shows_append, shows_littleEndian_iff h, length_exactly, length_littleEndian,
    shows_exactly_iff]

theorem textLength_lt {m : Memory} {off : ℕ} (h : bs.length < 2 ^ 32) :
    textLength listed bs m off < 2 ^ 32 := by
  cases listed with
  | false => exact h
  | true => exact Nat.mod_lt _ (by decide)

theorem textItem_written_of_out {m : Memory} {off j : ℕ}
    (h : j < off ∨ off + (textItem listed bs).size ≤ j) :
    (textItem listed bs).written m off j = m j := by
  rw [size_textItem] at h
  change write (write m off _) (off + 4) bs j = m j
  rw [write_of_out _ _ (by omega), write_of_out _ _ (by rw [length_littleEndian]; omega)]

theorem word_textItem_written {m : Memory} {off : ℕ} (h : bs.length < 2 ^ 32) :
    word ((textItem listed bs).written m off) off = textLength listed bs m off := by
  have hword : word ((textItem listed bs).written m off) off =
      word (write m off (littleEndian 4 (textLength listed bs m off))) off :=
    word_congr fun j hj hlt => write_of_out _ _ (.inl hlt)
  rw [hword, word_write (textLength_lt h)]

theorem textLength_eq {m : Memory} {off : ℕ} (h : bs.length < 2 ^ 32)
    (hm : listed = false ∨ ∀ j, off ≤ j → j < off + 4 → m j = 0) :
    textLength listed bs m off = bs.length := by
  cases listed with
  | false => rfl
  | true =>
    have hzero := hm.resolve_left Bool.noConfusion
    have hword : word m off = 0 := (word_congr (m := fun _ => 0) hzero).trans (word_const 0 off)
    rw [textLength, if_pos rfl, hword, Nat.zero_add, Nat.mod_eq_of_lt h]

theorem textLength_listed {m : Memory} {off : ℕ} (hm : ∀ j, off ≤ j → j < off + 4 → m j = 255) :
    textLength true bs m off = (2 ^ 32 - 1 + bs.length) % 2 ^ 32 := by
  have hword : word m off = 2 ^ 32 - 1 :=
    (word_congr (m := fun _ => 255) hm).trans (word_const 255 off)
  rw [textLength, if_pos rfl, hword]

theorem shows_textItem_of_read {m : Memory} {off k cap : ℕ} (hcap : 2 ≤ cap) (hk : k ≤ 2)
    (hbs : bs.length < 2 ^ 32)
    (h : Shows m off ((textItem listed bs).pattern.take ((textItem listed bs).size - k)))
    (hread : read m (off + 4) (min (word m off) cap) = bs) :
    Shows m off (textItem listed bs).pattern := by
  have hmin : min (word m off) cap = bs.length := by
    rw [← length_read m (off + 4) (min (word m off) cap), hread]
  have hword : word m off = bs.length := by
    by_cases hle : word m off ≤ cap
    · rwa [Nat.min_eq_left hle] at hmin
    · have hfull : cap = bs.length := by rwa [Nat.min_eq_right (by omega)] at hmin
      have hlen : 4 ≤ (textItem listed bs).size - k := by
        rw [size_textItem]
        omega
      rw [textItem, List.take_append, shows_append] at h
      rw [List.take_of_length_le (by rw [length_exactly, length_littleEndian]; exact hlen)] at h
      exact (shows_littleEndian_iff hbs).mp h.1
  refine (shows_textItem hbs).mpr ⟨hword, ?_⟩
  rwa [hmin] at hread

variable {cap : ℕ} {hle : bs.length ≤ cap} {len : ℕ} {m : Memory} {off o : ℕ}

theorem text_unpack (hroom : off + (4 + bs.length) ≤ len) (hlen : len < 2 ^ 32)
    (hword : word m off = bs.length) (hread : read m (off + 4) bs.length = bs) :
    (text listed cap).unpack len m off = some (⟨bs, hle⟩, off + (4 + bs.length)) := by
  have hmod : (off + 4 + bs.length) % 2 ^ 32 = off + (4 + bs.length) := by
    rw [Nat.add_assoc]
    exact Nat.mod_eq_of_lt (Nat.lt_of_le_of_lt hroom hlen)
  have hhead : off + 4 ≤ len := by omega
  simp only [text, hword, Nat.min_eq_left hle, hread, hmod]
  rw [if_pos hhead, if_pos (.inr hroom)]

theorem read_of_text_unpack (h : (text listed cap).unpack len m off = some (⟨bs, hle⟩, o)) :
    read m (off + 4) (min (word m off) cap) = bs := by
  simp only [text] at h
  split at h
  · split at h
    · exact congrArg (fun x => x.1.1) (Option.some.inj h)
    · cases h
  · cases h

end Text

theorem describes_text {listed : Bool} {cap : ℕ} (hcap : 2 ≤ cap) (hcap' : cap < 2 ^ 32)
    (v : {bs : List UInt8 // bs.length ≤ cap}) :
    Describes (textItem listed v.1) (text listed cap) v := by
  obtain ⟨bs, hle⟩ := v
  have hbs : bs.length < 2 ^ 32 := Nat.lt_of_le_of_lt hle hcap'
  refine ⟨size_textItem.symm, ?_⟩
  constructor
  case size_pos => exact fun h => nomatch h
  case pack_eq =>
    intro len m off _
    rw [size_textItem, ← Nat.add_assoc]
    rfl
  case written_of_out => exact textItem_written_of_out
  case shows_written =>
    intro m off h
    rw [size_textItem] at h
    have hm : listed = false ∨ ∀ j, off ≤ j → j < off + 4 → m j = 0 :=
      h.imp (by simp [textItem]) fun hzero j hj hlt => hzero j hj (by omega)
    refine (shows_textItem hbs).mpr ⟨?_, read_write ..⟩
    rw [word_textItem_written hbs, textLength_eq hbs hm]
  case returns_inj =>
    intro len m off o o' h h'
    have heq : some (_, o) = some (_, o') := h.symm.trans h'
    exact (Prod.mk.inj (Option.some.inj heq)).2
  case not_fails =>
    intro len m off o h hf
    have heq : some _ = none := h.symm.trans hf
    cases heq
  case returns =>
    intro len m off hlen hroom hs _
    obtain ⟨hword, hread⟩ := (shows_textItem hbs).mp hs
    rw [size_textItem] at hroom ⊢
    exact text_unpack hroom hlen hword hread
  case fails => exact fun _ _ h => nomatch h
  case shows_of_returns =>
    intro len m off o k _ _ hk hs hret
    exact shows_textItem_of_read hcap hk hbs hs (read_of_text_unpack hret)
  case not_returns =>
    intro len m m' off o _ _ hfixed hold hnew hret
    obtain rfl : listed = true := by simpa [textItem] using hfixed
    rw [size_textItem] at hold hnew
    have hword : word m' off = (2 ^ 32 - 1 + bs.length) % 2 ^ 32 := by
      rw [word_congr fun j hj hlt => hnew j hj (by omega), word_textItem_written hbs,
        textLength_listed fun j hj hlt => hold j hj (by omega)]
    have hlength : min (word m' off) cap = bs.length := by
      rw [← length_read m' (off + 4) (min (word m' off) cap), read_of_text_unpack hret]
    omega

section Combine

variable {α β : Type}

def optional (present : Bool) (c : Codec α) : Codec (Option α) where
  size v := v.elim 0 c.size
  pack v len m off := v.elim (some (m, off)) fun x => c.pack x len m off
  unpack len m off :=
    if present then (c.unpack len m off).map fun r => (some r.1, r.2) else some (none, off)

def optionalItem (f : α → Item) (v : Option α) : Item := v.elim .nil f

theorem describes_optional {c : Codec α} {f : α → Item} (h : ∀ x, Describes (f x) c x)
    (v : Option α) : Describes (optionalItem f v) (optional v.isSome c) v := by
  cases v with
  | none =>
    refine .of_lawful rfl lawful_nil (fun _ _ _ => rfl) ?_ (fun hf => hf.elim)
    intro len m off o
    simp [optional, Access.nil, eq_comm]
  | some x =>
    refine .of_lawful (h x).size_eq (h x).lawful (fun _ _ _ => rfl) ?_ ?_
    · intro len m off o
      simp [optional, Codec.access, Option.map_eq_some_iff]
    · intro len m off hf
      have hnone : c.unpack len m off = none := hf
      simp [optional, hnone]

theorem isSome_of_optional_unpack {present : Bool} {c : Codec α} {len : ℕ} {m : Memory}
    {off o : ℕ} {v : Option α} (h : (optional present c).unpack len m off = some (v, o)) :
    v.isSome = present := by
  cases present with
  | false =>
    have heq : some (none, off) = some (v, o) := h
    obtain ⟨rfl, -⟩ := Prod.mk.inj (Option.some.inj heq)
    rfl
  | true =>
    obtain ⟨r, -, hr⟩ := Option.map_eq_some_iff.mp h
    obtain ⟨rfl, -⟩ := Prod.mk.inj hr
    rfl

def pair (c : Codec α) (d : Codec β) : Codec (α × β) where
  size v := c.size v.1 + d.size v.2
  pack v len m off := (c.pack v.1 len m off).bind fun s => d.pack v.2 len s.1 s.2
  unpack len m off := (c.unpack len m off).bind fun r =>
    (d.unpack len m r.2).map fun r' => ((r.1, r'.1), r'.2)

theorem pair_unpack_eq_some {c : Codec α} {d : Codec β} {len : ℕ} {m : Memory} {off o : ℕ}
    {v : α × β} : (pair c d).unpack len m off = some (v, o) ↔
      ∃ o₁, c.unpack len m off = some (v.1, o₁) ∧ d.unpack len m o₁ = some (v.2, o) := by
  obtain ⟨x, y⟩ := v
  constructor
  · intro h
    obtain ⟨⟨x', o₁⟩, hx, hy⟩ := Option.bind_eq_some_iff.mp h
    obtain ⟨⟨y', o'⟩, hy', heq⟩ := Option.map_eq_some_iff.mp hy
    obtain ⟨hxy, rfl⟩ := Prod.mk.inj heq
    obtain ⟨rfl, rfl⟩ := Prod.mk.inj hxy
    exact ⟨o₁, hx, hy'⟩
  · rintro ⟨o₁, hx, hy⟩
    simp [pair, hx, hy]

theorem describes_pair {c : Codec α} {d : Codec β} {i j : Item} {x : α} {y : β}
    (hc : Describes i c x) (hd : Describes j d y) :
    Describes (i.seq j) (pair c d) (x, y) := by
  refine .of_lawful ?_ (hc.lawful.seq hd.lawful) (fun _ _ _ => rfl) pair_unpack_eq_some ?_
  · rw [Item.size_seq, ← hc.size_eq, ← hd.size_eq]
    rfl
  · rintro len m off (hf | ⟨o₁, hr, hf⟩)
    · have hnone : c.unpack len m off = none := hf
      simp [pair, hnone]
    · have hsome : c.unpack len m off = some (x, o₁) := hr
      have hnone : d.unpack len m o₁ = none := hf
      simp [pair, hsome, hnone]

def unit : Codec Unit where
  size _ := 0
  pack _ _ m off := some (m, off)
  unpack _ _ off := some ((), off)

theorem describes_unit : Describes .nil unit () := by
  refine .of_lawful rfl lawful_nil (fun _ _ _ => rfl) ?_ (fun hf => hf.elim)
  intro len m off o
  simp [unit, Access.nil, eq_comm]

end Combine

section Lists

variable {α : Type}

/-- The elements of a list of `n` elements. -/
def many (c : Codec α) : (n : ℕ) → Codec (List.Vector α n)
  | 0 =>
    { size := fun _ => 0
      pack := fun _ _ m off => some (m, off)
      unpack := fun _ _ off => some (.nil, off) }
  | n + 1 =>
    { size := fun v => (pair c (many c n)).size (v.head, v.tail)
      pack := fun v => (pair c (many c n)).pack (v.head, v.tail)
      unpack := fun len m off => ((pair c (many c n)).unpack len m off).map fun r =>
        (r.1.1 ::ᵥ r.1.2, r.2) }

def manyItem (f : α → Item) : List α → Item
  | [] => .nil
  | x :: xs => (f x).seq (manyItem f xs)

theorem describes_many {c : Codec α} {f : α → Item} (h : ∀ x, Describes (f x) c x) {n : ℕ}
    (v : List.Vector α n) : Describes (manyItem f v.toList) (many c n) v := by
  induction n with
  | zero =>
    obtain rfl : v = .nil := List.Vector.eq_nil v
    refine .of_lawful rfl lawful_nil (fun _ _ _ => rfl) ?_ (fun hf => hf.elim)
    intro len m off o
    simp [many, Access.nil, eq_comm]
  | succ n ih =>
    obtain ⟨x, xs, rfl⟩ := v.exists_eq_cons
    have hpair := describes_pair (h x) (ih xs)
    rw [List.Vector.toList_cons]
    refine .of_lawful hpair.size_eq hpair.lawful (fun _ _ _ => rfl) ?_ ?_
    · intro len m off o
      change ((pair c (many c n)).unpack len m off).map _ = _ ↔
        (pair c (many c n)).unpack len m off = some ((x, xs), o)
      rw [Option.map_eq_some_iff]
      constructor
      · rintro ⟨⟨⟨y, ys⟩, o'⟩, hr, heq⟩
        obtain ⟨hv, rfl⟩ := Prod.mk.inj heq
        have hy : y = x := by simpa using congrArg List.Vector.head hv
        have hys : ys = xs := by simpa using congrArg List.Vector.tail hv
        rw [hr, hy, hys]
      · exact fun hr => ⟨_, hr, rfl⟩
    · intro len m off hf
      have hnone : (pair c (many c n)).unpack len m off = none := hf
      change ((pair c (many c n)).unpack len m off).map _ = none
      rw [hnone, Option.map_none]

theorem many_unpack_iff {c : Codec α} {n : ℕ} {l : List α} (hl : l.length = n) {len : ℕ}
    {m : Memory} {off o : ℕ} : (many c n).unpack len m off = some (⟨l, hl⟩, o) ↔
      (many c l.length).unpack len m off = some (⟨l, rfl⟩, o) := by
  subst hl
  exact Iff.rfl

/-- A list behind its number of elements, an `int32_t`: the memory for a negative number of
elements is not to be had. -/
def counted (strict : Bool) (c : Codec α) : Codec {l : List α // l.length < 2 ^ 31} where
  size v := 4 + (many c v.1.length).size ⟨v.1, rfl⟩
  pack v len m off :=
    if off + 4 ≤ len then
      (many c v.1.length).pack ⟨v.1, rfl⟩ len (write m off (littleEndian 4 v.1.length)) (off + 4)
    else none
  unpack len m off :=
    if fits strict len (off + 4) then
      if h : word m off < 2 ^ 31 then
        ((many c (word m off)).unpack len m (off + 4)).map fun r =>
          (⟨r.1.1, r.1.2.trans_lt h⟩, r.2)
      else none
    else none

def countItem (strict : Bool) (n : ℕ) : Item :=
  .plain (exactly (littleEndian 4 n)) (littleEndian 4 n) strict

def countedItem (strict : Bool) (f : α → Item) (l : List α) : Item :=
  (countItem strict l.length).seq (manyItem f l)

theorem lawful_count (strict : Bool) (n : ℕ) : (countItem strict n).Lawful
    (.plain (exactly (littleEndian 4 n)) (littleEndian 4 n) strict) := by
  refine lawful_plain (length_exactly _).symm (fun m off => shows_write_exactly ..) fun _ => ?_
  rw [length_exactly, length_littleEndian]
  decide

theorem size_count (strict : Bool) (n : ℕ) : (countItem strict n).size = 4 := by
  rw [countItem, Item.size, Item.plain, length_exactly, length_littleEndian]

theorem counted_unpack_eq_some {strict : Bool} {c : Codec α} {len : ℕ} {m : Memory}
    {off o : ℕ} {v : {l : List α // l.length < 2 ^ 31}} :
    (counted strict c).unpack len m off = some (v, o) ↔
      fits strict len (off + 4) = true ∧ word m off = v.1.length ∧
        (many c v.1.length).unpack len m (off + 4) = some (⟨v.1, rfl⟩, o) := by
  obtain ⟨l, hl⟩ := v
  constructor
  · intro h
    simp only [counted] at h
    split at h
    · rename_i hfits
      split at h
      · obtain ⟨⟨⟨l', hl'⟩, o'⟩, hr, heq⟩ := Option.map_eq_some_iff.mp h
        obtain ⟨hv, rfl⟩ := Prod.mk.inj heq
        obtain rfl : l' = l := congrArg Subtype.val hv
        exact ⟨hfits, hl'.symm, (many_unpack_iff hl').mp hr⟩
      · cases h
    · cases h
  · rintro ⟨hfits, hword, hr⟩
    have hlt : word m off < 2 ^ 31 := hword ▸ hl
    simp only [counted, hfits, if_true, hlt, dif_pos, (many_unpack_iff hword.symm).mpr hr,
      Option.map_some]

theorem describes_counted {strict : Bool} {c : Codec α} {f : α → Item}
    (h : ∀ x, Describes (f x) c x) (v : {l : List α // l.length < 2 ^ 31}) :
    Describes (countedItem strict f v.1) (counted strict c) v := by
  have hmany := describes_many h (⟨v.1, rfl⟩ : List.Vector α v.1.length)
  have hlt : v.1.length < 2 ^ 32 := v.2.trans (by decide)
  refine .of_lawful ?_ ((lawful_count strict v.1.length).seq hmany.lawful) ?_ ?_ ?_
  · rw [countedItem, Item.size_seq, size_count]
    exact congrArg (4 + ·) hmany.size_eq
  · intro len m off
    simp only [counted, Access.seq, Access.plain, length_littleEndian, Codec.access]
    split <;> rfl
  · intro len m off o
    rw [counted_unpack_eq_some]
    simp only [Access.seq, Access.plain, length_exactly, length_littleEndian, Codec.access,
      shows_littleEndian_iff hlt]
    constructor
    · rintro ⟨hfits, hword, hr⟩
      exact ⟨_, ⟨hfits, hword, rfl⟩, hr⟩
    · rintro ⟨_, ⟨hfits, hword, rfl⟩, hr⟩
      exact ⟨hfits, hword, hr⟩
  · rintro len m off hf
    simp only [Access.seq, Access.plain, length_exactly, length_littleEndian, Codec.access,
      shows_littleEndian_iff hlt] at hf
    rcases hf with hf | ⟨_, ⟨hfits, hword, rfl⟩, hf⟩
    · simp [counted, hf]
    · have hl : word m off < 2 ^ 31 := hword ▸ v.2
      simp only [counted, hfits, if_true, hl, dif_pos]
      have key : ∀ n, n = v.1.length → (many c n).unpack len m (off + 4) = none := by
        rintro n rfl
        exact hf
      rw [key _ hword, Option.map_none]

end Lists

end Record
