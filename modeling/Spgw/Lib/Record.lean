/-
# Records packed into a buffer

A program packs a record of optional members into a buffer and unpacks it again.
-/

import Spgw.Lib.Octets
import Mathlib.Data.Nat.Bitwise

namespace Record

open Octets

structure Item where
  pattern : Pattern
  /-- What packing makes of a buffer. -/
  written : Memory → ℕ → Memory
  /-- Whether the packed form does not depend on what the buffer held before. -/
  fixed : Bool
  /-- Whether the packed form cannot be read where nothing follows. -/
  endsOpen : Bool

def Item.size (i : Item) : ℕ := i.pattern.length

structure Access where
  pack : ℕ → Memory → ℕ → Option (Memory × ℕ)
  Returns : ℕ → Memory → ℕ → ℕ → Prop
  Fails : ℕ → Memory → ℕ → Prop

structure Item.Lawful (i : Item) (a : Access) : Prop where
  size_pos : i.endsOpen = true → 0 < i.size
  pack_eq {len : ℕ} {m : Memory} {off : ℕ} : off ≤ len → a.pack len m off =
    if off + i.size ≤ len then some (i.written m off, off + i.size) else none
  written_of_out {m : Memory} {off j : ℕ} : j < off ∨ off + i.size ≤ j → i.written m off j = m j
  shows_written {m : Memory} {off : ℕ} :
    (i.fixed = true ∨ ∀ j, off ≤ j → j < off + i.size → m j = 0) →
      Shows (i.written m off) off i.pattern
  returns_inj {len : ℕ} {m : Memory} {off o o' : ℕ} :
    a.Returns len m off o → a.Returns len m off o' → o = o'
  not_fails {len : ℕ} {m : Memory} {off o : ℕ} : a.Returns len m off o → ¬ a.Fails len m off
  returns {len : ℕ} {m : Memory} {off : ℕ} : len < 2 ^ 32 → off + i.size ≤ len →
    Shows m off i.pattern → ¬ (i.endsOpen = true ∧ off + i.size = len) →
      a.Returns len m off (off + i.size)
  fails {len : ℕ} {m : Memory} {off : ℕ} : len < 2 ^ 32 → Shows m off i.pattern →
    i.endsOpen = true → off + i.size = len → a.Fails len m off
  shows_of_returns {len : ℕ} {m : Memory} {off o k : ℕ} : len < 2 ^ 32 → off + i.size ≤ len →
    k ≤ 2 → Shows m off (i.pattern.take (i.size - k)) → a.Returns len m off o →
      Shows m off i.pattern
  not_returns {len : ℕ} {m m' : Memory} {off o : ℕ} : len < 2 ^ 32 → off + i.size ≤ len →
    i.fixed = false → (∀ j, off ≤ j → j < off + i.size → m j = 255) →
      (∀ j, off ≤ j → j < off + i.size → m' j = i.written m off j) → ¬ a.Returns len m' off o

def Access.seq (a b : Access) : Access where
  pack len m off := (a.pack len m off).bind fun s => b.pack len s.1 s.2
  Returns len m off o := ∃ o₁, a.Returns len m off o₁ ∧ b.Returns len m o₁ o
  Fails len m off := a.Fails len m off ∨ ∃ o₁, a.Returns len m off o₁ ∧ b.Fails len m o₁

def Item.seq (i j : Item) : Item where
  pattern := i.pattern ++ j.pattern
  written m off := j.written (i.written m off) (off + i.size)
  fixed := i.fixed && j.fixed
  endsOpen := if j.size = 0 then i.endsOpen else j.endsOpen

section Seq

variable {i j : Item} {a b : Access}

theorem Item.size_seq : (i.seq j).size = i.size + j.size := List.length_append

theorem Item.pattern_seq : (i.seq j).pattern = i.pattern ++ j.pattern := rfl

theorem Item.shows_seq {m : Memory} {off : ℕ} : Shows m off (i.seq j).pattern ↔
    Shows m off i.pattern ∧ Shows m (off + i.size) j.pattern :=
  shows_append

namespace Item.Lawful

theorem seq_size_pos (hi : i.Lawful a) (h : (i.seq j).endsOpen = true) : 0 < (i.seq j).size := by
  rw [size_seq]
  by_cases hzero : j.size = 0
  · have hopen : i.endsOpen = true := by simpa [Item.seq, hzero] using h
    have := hi.size_pos hopen
    omega
  · omega

theorem seq_pack_eq (hi : i.Lawful a) (hj : j.Lawful b) {len : ℕ} {m : Memory} {off : ℕ}
    (hoff : off ≤ len) : (a.seq b).pack len m off =
      if off + (i.seq j).size ≤ len then
        some ((i.seq j).written m off, off + (i.seq j).size)
      else none := by
  rw [size_seq, ← Nat.add_assoc]
  change (a.pack len m off).bind _ = _
  rw [hi.pack_eq hoff]
  by_cases hlen : off + i.size ≤ len
  · rw [if_pos hlen, Option.bind_some, hj.pack_eq hlen]
    rfl
  · have hlen' : ¬ off + i.size + j.size ≤ len := by omega
    rw [if_neg hlen, if_neg hlen', Option.bind_none]

theorem seq_written_of_out (hi : i.Lawful a) (hj : j.Lawful b) {m : Memory} {off n : ℕ}
    (h : n < off ∨ off + (i.seq j).size ≤ n) : (i.seq j).written m off n = m n := by
  rw [size_seq] at h
  change j.written (i.written m off) (off + i.size) n = m n
  rw [hj.written_of_out (by omega), hi.written_of_out (by omega)]

theorem written_first (hj : j.Lawful b) {m : Memory} {off n : ℕ} (h : n < off + i.size) :
    (i.seq j).written m off n = i.written m off n :=
  hj.written_of_out (.inl h)

theorem seq_shows_written (hi : i.Lawful a) (hj : j.Lawful b) {m : Memory} {off : ℕ}
    (h : (i.seq j).fixed = true ∨ ∀ n, off ≤ n → n < off + (i.seq j).size → m n = 0) :
    Shows ((i.seq j).written m off) off (i.seq j).pattern := by
  rw [size_seq] at h
  refine shows_seq.mpr ⟨?_, ?_⟩
  · have hfirst : i.fixed = true ∨ ∀ n, off ≤ n → n < off + i.size → m n = 0 := by
      rcases h with hfixed | hzero
      · exact .inl (Bool.and_eq_true_iff.mp hfixed).1
      · exact .inr fun n hn hlt => hzero n hn (by omega)
    exact shows_congr (fun n _ hlt => hj.written_first hlt) (hi.shows_written hfirst)
  · have hsecond : j.fixed = true ∨
        ∀ n, off + i.size ≤ n → n < off + i.size + j.size → i.written m off n = 0 := by
      rcases h with hfixed | hzero
      · exact .inl (Bool.and_eq_true_iff.mp hfixed).2
      · refine .inr fun n hn hlt => ?_
        rw [hi.written_of_out (.inr hn)]
        exact hzero n (by omega) (by omega)
    exact hj.shows_written hsecond

theorem seq_returns (hi : i.Lawful a) (hj : j.Lawful b) {len : ℕ} {m : Memory} {off : ℕ}
    (hlen : len < 2 ^ 32) (hroom : off + (i.seq j).size ≤ len)
    (h : Shows m off (i.seq j).pattern)
    (hopen : ¬ ((i.seq j).endsOpen = true ∧ off + (i.seq j).size = len)) :
    (a.seq b).Returns len m off (off + (i.seq j).size) := by
  rw [size_seq] at hroom hopen
  rw [size_seq, ← Nat.add_assoc]
  obtain ⟨hfirst, hsecond⟩ := shows_seq.mp h
  refine ⟨_, hi.returns hlen (by omega) hfirst ?_, hj.returns hlen (by omega) hsecond ?_⟩
  · rintro ⟨hiopen, heq⟩
    have hzero : j.size = 0 := by omega
    exact hopen ⟨by simpa [Item.seq, hzero] using hiopen, by omega⟩
  · rintro ⟨hjopen, heq⟩
    have hpos : j.size ≠ 0 := Nat.ne_of_gt (hj.size_pos hjopen)
    exact hopen ⟨by simpa [Item.seq, hpos] using hjopen, by omega⟩

theorem seq_fails (hi : i.Lawful a) (hj : j.Lawful b) {len : ℕ} {m : Memory} {off : ℕ}
    (hlen : len < 2 ^ 32) (h : Shows m off (i.seq j).pattern)
    (hopen : (i.seq j).endsOpen = true) (heq : off + (i.seq j).size = len) :
    (a.seq b).Fails len m off := by
  rw [size_seq] at heq
  obtain ⟨hfirst, hsecond⟩ := shows_seq.mp h
  by_cases hzero : j.size = 0
  · have hiopen : i.endsOpen = true := by simpa [Item.seq, hzero] using hopen
    exact .inl (hi.fails hlen hfirst hiopen (by omega))
  · have hjopen : j.endsOpen = true := by simpa [Item.seq, hzero] using hopen
    refine .inr ⟨_, hi.returns hlen (by omega) hfirst ?_,
      hj.fails hlen hsecond hjopen (by omega)⟩
    omega

theorem returns_second (hi : i.Lawful a) {len : ℕ} {m : Memory} {off o₁ : ℕ}
    (hlen : len < 2 ^ 32) (hroom : off + i.size ≤ len) (h : Shows m off i.pattern)
    (hret : a.Returns len m off o₁) : o₁ = off + i.size := by
  by_cases hopen : i.endsOpen = true ∧ off + i.size = len
  · exact absurd (hi.fails hlen h hopen.1 hopen.2) (hi.not_fails hret)
  · exact hi.returns_inj hret (hi.returns hlen hroom h hopen)

theorem seq_shows_of_returns (hi : i.Lawful a) (hj : j.Lawful b) {len : ℕ} {m : Memory}
    {off o k : ℕ} (hlen : len < 2 ^ 32) (hroom : off + (i.seq j).size ≤ len) (hk : k ≤ 2)
    (h : Shows m off ((i.seq j).pattern.take ((i.seq j).size - k)))
    (hret : (a.seq b).Returns len m off o) : Shows m off (i.seq j).pattern := by
  rw [size_seq] at hroom h
  rw [pattern_seq, List.take_append, shows_append] at h
  obtain ⟨o₁, hret₁, hret₂⟩ := hret
  -- The octets that may have been changed are the last ones of the second value, and of the
  -- first one as many as the second value is too short for.
  have hfirst : Shows m off i.pattern := by
    refine hi.shows_of_returns (k := k - j.size) hlen (by omega) (by omega) ?_ hret₁
    have htake : i.size + j.size - k = i.size - (k - j.size) ∨
        i.size ≤ i.size + j.size - k ∧ k - j.size = 0 := by omega
    rcases htake with heq | ⟨hle, heq⟩
    · rw [← heq]
      exact h.1
    · rw [heq, Nat.sub_zero, Item.size, List.take_length]
      simpa [List.take_of_length_le hle] using h.1
  obtain rfl : o₁ = off + i.size := hi.returns_second hlen (by omega) hfirst hret₁
  refine shows_seq.mpr ⟨hfirst, hj.shows_of_returns (k := k) hlen (by omega) hk ?_ hret₂⟩
  by_cases hle : k ≤ j.size
  · have htake : i.pattern.take (i.size + j.size - k) = i.pattern :=
      List.take_of_length_le (by unfold Item.size at hle ⊢; omega)
    have hsub : i.size + j.size - k - i.pattern.length = j.size - k := by
      unfold Item.size at hle ⊢
      omega
    rw [htake, hsub] at h
    exact h.2
  · have hsub : j.size - k = 0 := by omega
    rw [hsub]
    exact trivial

theorem seq_not_returns (hi : i.Lawful a) (hj : j.Lawful b) {len : ℕ} {m m' : Memory}
    {off o : ℕ} (hlen : len < 2 ^ 32) (hroom : off + (i.seq j).size ≤ len)
    (hfixed : (i.seq j).fixed = false)
    (hold : ∀ n, off ≤ n → n < off + (i.seq j).size → m n = 255)
    (hnew : ∀ n, off ≤ n → n < off + (i.seq j).size → m' n = (i.seq j).written m off n) :
    ¬ (a.seq b).Returns len m' off o := by
  rw [size_seq] at hroom hold hnew
  rintro ⟨o₁, hret₁, hret₂⟩
  have hnew₁ : ∀ n, off ≤ n → n < off + i.size → m' n = i.written m off n := fun n hn hlt =>
    (hnew n hn (by omega)).trans (hj.written_first hlt)
  cases hif : i.fixed with
  | false =>
    exact hi.not_returns hlen (by omega) hif (fun n hn hlt => hold n hn (by omega)) hnew₁ hret₁
  | true =>
    have hfirst : Shows m' off i.pattern :=
      shows_congr (fun n hn hlt => hnew₁ n hn hlt) (hi.shows_written (.inl hif))
    obtain rfl : o₁ = off + i.size := hi.returns_second hlen (by omega) hfirst hret₁
    have hjf : j.fixed = false := by simpa [Item.seq, hif] using hfixed
    refine hj.not_returns (m := i.written m off) hlen (by omega) hjf ?_ ?_ hret₂
    · intro n hn hlt
      rw [hi.written_of_out (.inr hn)]
      exact hold n (by omega) (by omega)
    · exact fun n hn hlt => hnew n (by omega) (by omega)

/-- **Two lawful values one behind the other are lawful.** -/
theorem seq (hi : i.Lawful a) (hj : j.Lawful b) : (i.seq j).Lawful (a.seq b) where
  size_pos := seq_size_pos hi
  pack_eq := seq_pack_eq hi hj
  written_of_out := seq_written_of_out hi hj
  shows_written := seq_shows_written hi hj
  returns_inj := by
    rintro len m off o o' ⟨o₁, h₁, h₂⟩ ⟨o₁', h₁', h₂'⟩
    obtain rfl := hi.returns_inj h₁ h₁'
    exact hj.returns_inj h₂ h₂'
  not_fails := by
    rintro len m off o ⟨o₁, h₁, h₂⟩ (hf | ⟨o₁', h₁', hf⟩)
    · exact hi.not_fails h₁ hf
    · obtain rfl := hi.returns_inj h₁ h₁'
      exact hj.not_fails h₂ hf
  returns := seq_returns hi hj
  fails := seq_fails hi hj
  shows_of_returns := seq_shows_of_returns hi hj
  not_returns := seq_not_returns hi hj

theorem congr (h : i.Lawful a) (hpack : ∀ len m off, b.pack len m off = a.pack len m off)
    (hret : ∀ {len m off o}, b.Returns len m off o ↔ a.Returns len m off o)
    (hfail : ∀ {len m off}, a.Fails len m off → b.Fails len m off)
    (hnot : ∀ {len m off o}, b.Returns len m off o → ¬ b.Fails len m off) : i.Lawful b where
  size_pos := h.size_pos
  pack_eq hoff := (hpack ..).trans (h.pack_eq hoff)
  written_of_out := h.written_of_out
  shows_written := h.shows_written
  returns_inj h₁ h₂ := h.returns_inj (hret.mp h₁) (hret.mp h₂)
  not_fails := hnot
  returns hlen hroom hs hopen := hret.mpr (h.returns hlen hroom hs hopen)
  fails hlen hs hopen heq := hfail (h.fails hlen hs hopen heq)
  shows_of_returns hlen hroom hk hs hr := h.shows_of_returns hlen hroom hk hs (hret.mp hr)
  not_returns hlen hroom hf hold hnew hr := h.not_returns hlen hroom hf hold hnew (hret.mp hr)

end Item.Lawful

end Seq

end Record
