/-
# Whether the elements are decoded where they are

In a well-formed message the elements lie end to end: each has the four octets of its header and as
many as its length says, and together they fill the message, or the element they are in.
-/

import Spgw.Codec.Messages

namespace Spgw.Codec

open Tlv

namespace Gtp

/-- The fields of a known element are read from its own octets and fit where they are copied to; in
a bearer context, the elements inside are visited where they are, and so are their fields. -/
def Own : Decoder Ie Ctxt → Buffer → Prop
  | .skip, _ => True
  | .leaf i, b => i.Own b
  | .group c table, b => ∀ offsets, Nested format 4 b offsets →
    (∃ fuel visits last, loop format table b 4 (format.limit c b) fuel 0 = some (visits, last) ∧
      visits.map Prod.fst = offsets) ∧
    ∀ o ∈ offsets, let e := element b 4 o
      Own (table (format.type e) (format.inst e)) e

/-- An unknown element has any length and a known one a length with which it is decoded; there is no
bearer context whose function leaves out the header. -/
def LengthsOk : Decoder Ie Ctxt → Buffer → Prop
  | .skip, _ => True
  | .leaf i, b => i.LengthOk b
  | .group .withoutHeader _, _ => False
  | .group .withHeader table, b => ∀ offsets, Nested format 4 b offsets → ∀ o ∈ offsets,
    let e := element b 4 o
    LengthsOk (table (format.type e) (format.inst e)) e

/-- What holds of each element: it is decoded from its own octets, and all of them, exactly with the
lengths above, and takes no more than it has in any case. -/
def Exact (d : Decoder Ie Ctxt) (b : Buffer) : Prop :=
  (LengthsOk d b ↔ Own d b ∧ d.Takes format b (4 + format.len b)) ∧
    ∀ n, Own d b → d.Takes format b n → n ≤ 4 + format.len b

section Loop

variable {table : ℕ → ℕ → Decoder Ie Ctxt} {b : Buffer} {shift last : ℕ} {offsets : List ℕ}

theorem lands_eq (h : Filled (fun o => format.len (element b shift o)) last 0 offsets)
    (hlast : last < 65536)
    (hexact : ∀ o ∈ offsets, Exact (decoderAt format table b shift o) (element b shift o))
    (hown : ∀ o ∈ offsets, Own (decoderAt format table b shift o) (element b shift o)) {stop : ℕ}
    (hlands : Lands (Step format table b shift) last 0 offsets stop) :
    stop = last ∧ ∀ o ∈ offsets, Step format table b shift o
      (o + (4 + format.len (element b shift o))) := by
  refine h.eq_of_lands hlast (fun o ho next hstep => ?_) hlands
  obtain ⟨n, htakes, rfl⟩ := hstep
  exact ⟨n, (hexact o ho).2 n (hown o ho) htakes, rfl⟩

/-- **The loop visits the elements where they are, and reads them from their octets, exactly if all
lengths are right.** -/
theorem lengthsOk_iff (h : Filled (fun o => format.len (element b shift o)) last 0 offsets)
    (hlast : last < 65536)
    (hexact : ∀ o ∈ offsets, Exact (decoderAt format table b shift o) (element b shift o)) :
    (∀ o ∈ offsets, LengthsOk (decoderAt format table b shift o) (element b shift o)) ↔
      (∃ stop, Lands (Step format table b shift) last 0 offsets stop) ∧
        ∀ o ∈ offsets, Own (decoderAt format table b shift o) (element b shift o) := by
  constructor
  · intro hok
    have hboth (o : ℕ) (ho : o ∈ offsets) := (hexact o ho).1.mp (hok o ho)
    refine ⟨⟨last, h.lands fun o ho => ?_⟩, fun o ho => (hboth o ho).1⟩
    have hle := (h.le.2 o ho).2
    exact ⟨_, (hboth o ho).2, (Nat.mod_eq_of_lt (by omega)).symm⟩
  · rintro ⟨⟨stop, hlands⟩, hown⟩ o ho
    obtain ⟨n, htakes, heq⟩ := (lands_eq h hlast hexact hown hlands).2 o ho
    have hle := (h.le.2 o ho).2
    have hn := (hexact o ho).2 n (hown o ho) htakes
    rw [Nat.mod_eq_of_lt (by omega)] at heq
    obtain rfl : n = 4 + format.len (element b shift o) := by omega
    exact (hexact o ho).1.mpr ⟨hown o ho, htakes⟩

end Loop

theorem takes_ctxt {c : Ctxt} {table : ℕ → ℕ → Decoder Ie Ctxt} {b : Buffer} {n : ℕ} :
    (Decoder.group c table).Takes format b n ↔
      ∃ offsets last, Lands (Step format table b 4) (format.len b) 0 offsets last ∧
        n = last + (format.group c).extra := by
  cases c <;> exact takes_group

theorem own_ctxt {c : Ctxt} {table : ℕ → ℕ → Decoder Ie Ctxt} {b : Buffer} {offsets : List ℕ}
    (h : Nested format 4 b offsets) :
    Own (.group c table) b ↔
      (∃ stop, Lands (Step format table b 4) (format.len b) 0 offsets stop) ∧
        ∀ o ∈ offsets, Own (decoderAt format table b 4 o) (element b 4 o) := by
  have hlands : (∃ fuel visits last, loop format table b 4 (format.limit c b) fuel 0 =
        some (visits, last) ∧ visits.map Prod.fst = offsets) ↔
      ∃ stop, Lands (Step format table b 4) (format.len b) 0 offsets stop := by
    have hlimit : format.limit c b = format.len b := by cases c <;> rfl
    simp only [← loop_iff, hlimit]
    exact ⟨fun ⟨fuel, visits, last, h⟩ => ⟨last, fuel, visits, h⟩,
      fun ⟨last, fuel, visits, h⟩ => ⟨fuel, visits, last, h⟩⟩
  rw [← hlands]
  constructor
  · exact fun hown => hown offsets h
  · intro hown others hothers
    obtain rfl := h.unique hothers
    exact hown

theorem exact_of_formed {d : Decoder Ie Ctxt} {b : Buffer} (h : d.Formed format 4 b)
    (hlen : 4 + format.len b < 65536) : Exact d b := by
  induction d generalizing b with
  | skip =>
    refine ⟨iff_of_true trivial ⟨trivial, takes_skip.mpr rfl⟩, fun n _ htakes => ?_⟩
    exact (takes_skip.mp htakes).le
  | leaf i =>
    obtain ⟨hiff, hle⟩ := Ie.own_size (i := i) hlen
    refine ⟨hiff.trans (and_congr_right fun _ => ?_), fun n hown htakes => ?_⟩
    · exact eq_comm.trans takes_leaf.symm
    · exact (takes_leaf.mp htakes).trans_le (hle hown)
  | group c table ih =>
    obtain ⟨⟨offsets, hinner⟩, hformed⟩ := h
    have hfilled : Filled (fun o => format.len (element b 4 o)) (format.len b) 0 offsets := by
      simpa only [Nested, Nat.sub_self, Nat.zero_add] using hinner
    have hexact (o : ℕ) (ho : o ∈ offsets) :
        Exact (decoderAt format table b 4 o) (element b 4 o) := by
      have := (hfilled.le.2 o ho).2
      exact ih _ _ (hformed offsets hinner o ho) (by omega)
    -- A context that is read from its own octets takes them, and four more if it has a header.
    have htakes {n : ℕ} (hown : Own (.group c table) b) :
        (Decoder.group c table).Takes format b n ↔ n = format.len b + (format.group c).extra := by
      obtain ⟨⟨stop, hstop⟩, hinside⟩ := (own_ctxt hinner).mp hown
      have hlast := (lands_eq hfilled (by omega) hexact hinside hstop).1
      rw [hlast] at hstop
      rw [takes_ctxt]
      constructor
      · rintro ⟨others, last, hother, rfl⟩
        rw [hother.last_unique hstop Step.unique]
      · exact fun hn => ⟨offsets, _, hstop, hn⟩
    cases c with
    | withoutHeader =>
      refine ⟨iff_of_false id fun ⟨hown, hn⟩ => ?_, fun n hown hn => ?_⟩
      · have := (htakes hown).mp hn
        simp only [format, Ctxt.group] at this
        omega
      · exact ((htakes hown).mp hn).trans_le (Nat.le_add_left _ _)
    | withHeader =>
      refine ⟨?_, fun n hown hn => ?_⟩
      · have hok : LengthsOk (.group .withHeader table) b ↔
            ∀ o ∈ offsets, LengthsOk (decoderAt format table b 4 o) (element b 4 o) := by
          refine ⟨fun h => h offsets hinner, fun h others hothers => ?_⟩
          obtain rfl := Filled.unique hinner hothers
          exact h
        rw [hok, lengthsOk_iff hfilled (by omega) hexact, ← own_ctxt (c := .withHeader) hinner]
        refine ⟨fun hown => ⟨hown, (htakes hown).mpr (Nat.add_comm _ _)⟩, And.left⟩
      · exact ((htakes hown).mp hn).trans_le (Nat.add_comm _ _).le

namespace Message

variable (m : Message) (b : Buffer) (offsets : List ℕ)

/-- The header and the elements at the offsets fill the message, and the elements inside a bearer
context fill it. -/
def WellFormed : Prop :=
  (if teidFlag b then 8 else 4) ≤ messageLen b ∧
    Filled (fun o => format.len (protocol.elementAt b o)) (protocol.limit b) 0 offsets ∧
    ∀ o ∈ offsets, (protocol.decoderAt m.table b o).Formed format 4 (protocol.elementAt b o)

/-- The elements are visited where they are, each once, and decoded from their own octets. -/
def Aligned : Prop :=
  (∃ fuel visits last, protocol.decode m.table b fuel = some (visits, last) ∧
    visits.map Prod.fst = offsets) ∧
    ∀ o ∈ offsets, Own (protocol.decoderAt m.table b o) (protocol.elementAt b o)

variable {m b offsets}

/-- **The elements of a well-formed message are decoded where they are, from their own octets and
without overrunning an array, exactly if each known one, at any depth, has a length its function
expects, and no bearer context has a function that leaves out the header.** -/
theorem aligned_iff (h : m.WellFormed b offsets) : m.Aligned b offsets ↔
    ∀ o ∈ offsets, LengthsOk (protocol.decoderAt m.table b o) (protocol.elementAt b o) := by
  obtain ⟨-, hfilled, hformed⟩ := h
  have hlimit := protocol.limit_lt b
  have hexact (o : ℕ) (ho : o ∈ offsets) :
      Exact (protocol.decoderAt m.table b o) (protocol.elementAt b o) := by
    have := (hfilled.le.2 o ho).2
    exact exact_of_formed (hformed o ho) (by omega)
  refine Iff.trans (and_congr_left fun _ => ?_) (lengthsOk_iff hfilled hlimit hexact).symm
  constructor
  · rintro ⟨fuel, visits, last, hdecode⟩
    exact ⟨last, Protocol.decode_iff.mp ⟨fuel, visits, hdecode⟩⟩
  · rintro ⟨last, hlands⟩
    obtain ⟨fuel, visits, hdecode⟩ := (Protocol.decode_iff (P := protocol)).mpr hlands
    exact ⟨fuel, visits, last, hdecode⟩

end Message

end Gtp

theorem Gtp.Message.aligned_recovery :
    Gtp.Message.createSessReq.WellFormed Demo.recovery [0, 5] ∧
      Gtp.Message.createSessReq.Aligned Demo.recovery [0, 5] := by
  obtain ⟨hfirst, hsecond⟩ := Demo.decoderAt_recovery
  have hwell : Gtp.Message.createSessReq.WellFormed Demo.recovery [0, 5] := by
    refine ⟨by decide +kernel, .cons (.cons .done), ?_⟩
    simp only [List.mem_cons, List.not_mem_nil, or_false, forall_eq_or_imp, forall_eq, hfirst, hsecond]
    exact ⟨trivial, trivial⟩
  refine ⟨hwell, (Gtp.Message.aligned_iff hwell).mpr ?_⟩
  simp only [List.mem_cons, List.not_mem_nil, or_false, forall_eq_or_imp, forall_eq, hfirst, hsecond]
  exact ⟨(by decide +kernel : Demo.recovery.bits 104 16 = 1), trivial⟩

/-- A Create Session Request with a bearer context, in it an EPS bearer identity, and a recovery
counter. -/
def Demo.bearerContext : Buffer :=
  Buffer.ofOctets [0x48, 32, 0, 22, 0, 0, 0, 0, 0, 0, 1, 0, 93, 0, 5, 0, 73, 0, 1, 0, 5, 3, 0, 1, 0, 7]

/-- The loop goes on four octets before the recovery counter. -/
theorem Gtp.Message.not_aligned_bearerContext : ∃ (b : Buffer) (offsets : List ℕ),
    Gtp.Message.createSessReq.WellFormed b offsets ∧
      ¬ Gtp.Message.createSessReq.Aligned b offsets := by
  refine ⟨Demo.bearerContext, [0, 9], ⟨by decide +kernel, .cons (.cons .done), ?_⟩, ?_⟩
  · intro o ho
    rcases List.mem_pair.mp ho with rfl | rfl
    · exact Decoder.formed_group (.cons .done) (List.forall_mem_singleton.mpr trivial)
    · exact trivial
  · rintro ⟨⟨fuel, visits, last, hdecode, hvisits⟩, -⟩
    have hreal : Gtp.protocol.decode Gtp.createSessReq Demo.bearerContext 3 =
        some ([(0, [[93, 5, 0], [73, 1, 0, 0, 5]]), (5, [])], 265) := by decide +kernel
    obtain ⟨rfl, -⟩ := Prod.mk.inj (loop_unique hdecode hreal)
    exact absurd hvisits (by decide)

namespace Pfcp

/-- An element is taken off with four octets and as many as its length says; in one with elements
inside, so are those, each visited where it is. -/
def Consumes : Decoder Ie Loop → Buffer → Prop
  | .group l table, b =>
    (Decoder.group l table).Takes format b (4 + format.len b) ∧
      ∀ offsets, Nested format 0 b offsets →
        (∃ fuel visits last, loop format table b 0 (format.limit l b) fuel (format.group l).start =
          some (visits, last) ∧ visits.map Prod.fst = offsets) ∧
        ∀ o ∈ offsets, let e := element b 0 o
          Consumes (table (format.type e) (format.inst e)) e
  | d, b => d.Takes format b (4 + format.len b)

/-- An unknown element has any length and a known one a length that its function takes off; in one
with elements inside so do those, and the last of them is not empty. There is no element with one of
the functions whose limit is never set. -/
def SizesOk : Decoder Ie Loop → Buffer → Prop
  | .skip, _ => True
  | .leaf i, b => i.Sized b
  | .group .nowhere _, _ => False
  | .group .toLength table, b => ∀ offsets, Nested format 0 b offsets → ∀ o ∈ offsets,
    let e := element b 0 o
    o < format.len b ∧ SizesOk (table (format.type e) (format.inst e)) e

theorem takes_of_consumes {d : Decoder Ie Loop} {b : Buffer} (h : Consumes d b) :
    d.Takes format b (4 + format.len b) := by
  cases d with
  | skip => exact h
  | leaf => exact h
  | group => exact h.1

theorem lands_of_consumes {table : ℕ → ℕ → Decoder Ie Loop} {b : Buffer} {shift first last : ℕ}
    {offsets : List ℕ} (h : Filled (fun o => format.len (element b shift o)) last first offsets)
    (hlast : last < 65536)
    (hconsumes : ∀ o ∈ offsets, Consumes (decoderAt format table b shift o) (element b shift o)) :
    Lands (Step format table b shift) last first offsets last := by
  refine h.lands fun o ho => ?_
  have := (h.le.2 o ho).2
  exact ⟨_, takes_of_consumes (hconsumes o ho), (Nat.mod_eq_of_lt (by omega)).symm⟩

theorem consumes_iff_sizesOk {d : Decoder Ie Loop} {b : Buffer} (h : d.Formed format 0 b)
    (hlen : 4 + format.len b < 65536) : Consumes d b ↔ SizesOk d b := by
  induction d generalizing b with
  | skip => exact iff_of_true (takes_skip.mpr rfl) trivial
  | leaf i => exact takes_leaf.trans (eq_comm.trans Ie.sized_iff.symm)
  | group l table ih =>
    obtain ⟨⟨offsets, hinner⟩, hformed⟩ := h
    have hsizes (o : ℕ) (ho : o ∈ offsets) :
        Consumes (decoderAt format table b 0 o) (element b 0 o) ↔
          SizesOk (decoderAt format table b 0 o) (element b 0 o) := by
      have := (hinner.le.2 o ho).2
      exact ih _ _ (hformed offsets hinner o ho) (by omega)
    cases l with
    | nowhere =>
      refine iff_of_false (fun ⟨htakes, hinside⟩ => ?_) id
      obtain ⟨others, last, hlands, hlast⟩ := takes_group.mp htakes
      obtain ⟨⟨fuel, visits, last', hloop, hvisits⟩, -⟩ := hinside offsets hinner
      have hnone := loop_iff.mp ⟨fuel, visits, hloop, hvisits⟩
      -- The loop is left at once, so there is nothing inside, and the length is zero and not 28.
      have hlast : 4 + format.len b = 32 := by
        cases hlands with
        | next hlt => exact absurd hlt (Nat.not_lt_zero _)
        | stop => exact hlast
      obtain rfl : offsets = [] := by
        cases hnone with
        | next hlt => exact absurd hlt (Nat.not_lt_zero _)
        | stop => rfl
      have hempty : 4 = 4 + format.len b := hinner.eq_of_nil
      omega
    | toLength =>
      constructor
      · rintro ⟨-, hinside⟩ others hothers o ho
        obtain rfl := hinner.unique hothers
        obtain ⟨⟨fuel, visits, last, hloop, hvisits⟩, hconsumes⟩ := hinside offsets hinner
        have hlands := loop_iff.mp ⟨fuel, visits, hloop, hvisits⟩
        exact ⟨hlands.lt_limit o ho, (hsizes o ho).mp (hconsumes o ho)⟩
      · intro hok
        have hconsumes (o : ℕ) (ho : o ∈ offsets) := (hsizes o ho).mpr (hok offsets hinner o ho).2
        have hlands : Lands (Step format table b 0) (format.len b) 4 offsets (4 + format.len b) :=
          (lands_of_consumes hinner hlen hconsumes).under
            (fun o ho => (hok offsets hinner o ho).1) (Nat.le_add_left _ _)
        refine ⟨takes_group.mpr ⟨offsets, _, hlands, rfl⟩, fun others hothers => ?_⟩
        obtain rfl := hinner.unique hothers
        obtain ⟨fuel, visits, hloop⟩ := loop_iff.mpr hlands
        exact ⟨⟨fuel, visits, _, hloop⟩, hconsumes⟩

namespace Message

variable (m : Message) (b : Buffer) (offsets : List ℕ)

/-- The header and the elements at the offsets fill the message, and the elements inside one fill
it. -/
def WellFormed : Prop :=
  (if seidFlag b then 12 else 4) ≤ messageLen b ∧
    Filled (fun o => format.len (protocol.elementAt b o)) (protocol.limit b) 0 offsets ∧
    ∀ o ∈ offsets, (protocol.decoderAt m.table b o).Formed format 0 (protocol.elementAt b o)

/-- The elements are taken off one after the other, each with its own octets, up to the end. -/
def Consumes : Prop :=
  (∃ fuel visits, protocol.decode m.table b fuel = some (visits, protocol.limit b) ∧
    visits.map Prod.fst = offsets) ∧
    ∀ o ∈ offsets, Pfcp.Consumes (protocol.decoderAt m.table b o) (protocol.elementAt b o)

variable {m b offsets}

/-- **Each element of a well-formed message is taken off with its own octets exactly if each known
one has a length its function takes off, and one with elements inside has a function that sets its
limit and does not end in an empty element.** -/
theorem consumes_iff (h : m.WellFormed b offsets) : m.Consumes b offsets ↔
    ∀ o ∈ offsets, SizesOk (protocol.decoderAt m.table b o) (protocol.elementAt b o) := by
  obtain ⟨-, hfilled, hformed⟩ := h
  have hlimit := protocol.limit_lt b
  have hsizes (o : ℕ) (ho : o ∈ offsets) :
      Pfcp.Consumes (protocol.decoderAt m.table b o) (protocol.elementAt b o) ↔
        SizesOk (protocol.decoderAt m.table b o) (protocol.elementAt b o) := by
    have := (hfilled.le.2 o ho).2
    exact consumes_iff_sizesOk (hformed o ho) (by omega)
  constructor
  · exact fun hconsumes o ho => (hsizes o ho).mp (hconsumes.2 o ho)
  · intro hok
    have hconsumes (o : ℕ) (ho : o ∈ offsets) := (hsizes o ho).mpr (hok o ho)
    exact ⟨Protocol.decode_iff.mpr (lands_of_consumes hfilled hlimit hconsumes), hconsumes⟩

end Message

end Pfcp

/-- A Session Establishment Response with a cause. -/
def Demo.cause : Buffer :=
  Buffer.ofOctets [0x21, 51, 0, 17, 0, 0, 0, 0, 0, 0, 0, 1, 0, 0, 1, 0, 0, 19, 0, 1, 1]

theorem Pfcp.Message.consumes_cause :
    Pfcp.Message.sessEstabRsp.WellFormed Demo.cause [0] ∧
      Pfcp.Message.sessEstabRsp.Consumes Demo.cause [0] := by
  have hcause : Pfcp.protocol.decoderAt (Pfcp.Message.table .sessEstabRsp) Demo.cause 0 =
    .leaf .cause := rfl
  have hwell : Pfcp.Message.sessEstabRsp.WellFormed Demo.cause [0] := by
    refine ⟨by decide +kernel, .cons .done, ?_⟩
    rw [List.forall_mem_singleton, hcause]
    trivial
  refine ⟨hwell, (Pfcp.Message.consumes_iff hwell).mpr ?_⟩
  rw [List.forall_mem_singleton, hcause]
  exact (by decide +kernel : Demo.cause.bits 144 16 = 1)

/-- A Session Establishment Response with load control information, in it a sequence number and a
metric, and a cause. -/
def Demo.loadControl : Buffer :=
  Buffer.ofOctets [0x21, 51, 0, 34, 0, 0, 0, 0, 0, 0, 0, 1, 0, 0, 1, 0, 0, 51, 0, 13, 0, 52, 0, 4, 0,
    0, 0, 1, 0, 53, 0, 1, 10, 0, 19, 0, 1, 1]

/-- The loop takes 32 octets off for the load control information. -/
theorem Pfcp.Message.not_consumes_loadControl : ∃ (b : Buffer) (offsets : List ℕ),
    Pfcp.Message.sessEstabRsp.WellFormed b offsets ∧
      ¬ Pfcp.Message.sessEstabRsp.Consumes b offsets := by
  refine ⟨Demo.loadControl, [0, 17], ⟨by decide +kernel, .cons (.cons .done), ?_⟩, ?_⟩
  · intro o ho
    rcases List.mem_pair.mp ho with rfl | rfl
    · refine Decoder.formed_group (.cons (.cons .done)) fun o ho => ?_
      rcases List.mem_pair.mp ho with rfl | rfl <;> exact trivial
    · exact trivial
  · rintro ⟨⟨fuel, visits, hdecode, hvisits⟩, -⟩
    have hreal : Pfcp.protocol.decode (Pfcp.Message.table .sessEstabRsp) Demo.loadControl 2 =
        some ([(0, [[51, 13, 0]])], 32) := by decide +kernel
    obtain ⟨rfl, -⟩ := Prod.mk.inj (loop_unique hdecode hreal)
    exact absurd hvisits (by decide)

end Spgw.Codec
