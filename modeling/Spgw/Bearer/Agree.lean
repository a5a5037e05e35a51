/-
# Five records of one set of bearers

The bearers of a UE context are in `eps_bearers`, in `bearer_bitmap`, in `eps_bearers` and
`num_bearer` of a PDN connection and in the identifiers of the bearers.
-/

import Spgw.Bearer.Runs
import Spgw.Session.Events

namespace Spgw.Bearer

open Machine Function
open Session (UePtr PdnPtr)
open Rar (BearerQos PccRule maxBearers)
open Spgw.Trans (TransKey)

variable {s s' : State} {c c' : UeContext} {p : PdnPtr} {pdn : Pdn} {u : UePtr}

/-- Bitmap, slots and counts say the same about the bearers. -/
structure UeContext.Agrees (c : UeContext) : Prop where
  bitmap : ∀ i : Fin maxBearers, c.bearerBitmap.getLsbD i = (c.epsBearers i).isSome
  held : ∀ i b, c.epsBearers i = some b → ∃ bearer pdn, c.bearerHeap.get b = some bearer ∧
    bearer.epsBearerId = i + 5 ∧ c.pdnHeap.get bearer.pdn = some pdn ∧ pdn.epsBearers i = some b ∧
    ∀ q pdn' j, c.pdnHeap.get q = some pdn' → pdn'.epsBearers j = some b → q = bearer.pdn ∧ j = i
  numBearer : ∀ p pdn, c.pdnHeap.get p = some pdn → pdn.numBearer = occupied pdn.epsBearers
  overwritten : c.overwritten = []

def State.Agrees (s : State) : Prop := ∀ u c, s.ues.get u = some c → c.Agrees

theorem UeContext.SameBearers.agrees (h : c.SameBearers c') (hc : c.Agrees) : c'.Agrees where
  bitmap i := by rw [h.bearerBitmap, h.epsBearers, hc.bitmap i]
  held i b hb := by
    rw [h.epsBearers] at hb
    obtain ⟨bearer, pdn, hget, hebi, hp, hslot, honly⟩ := hc.held i b hb
    obtain ⟨bearer', hget', hrecord⟩ := h.exists_bearer hget
    obtain ⟨hid, hown⟩ := Prod.mk.inj hrecord
    obtain ⟨pdn', hp', hrecord'⟩ := h.exists_pdn hp
    refine ⟨bearer', pdn', hget', hid.trans hebi, hown ▸ hp', ?_, ?_⟩
    · rwa [Pdn.eq_of_record Pdn.epsBearers (fun _ => rfl) hrecord']
    · intro q pdn₁ j hq hj
      obtain ⟨pdn₂, hq', hrecord''⟩ := h.symm.exists_pdn hq
      rw [← Pdn.eq_of_record Pdn.epsBearers (fun _ => rfl) hrecord''] at hj
      exact hown ▸ honly q pdn₂ j hq' hj
  numBearer p pdn hp := by
    obtain ⟨pdn', hp', hrecord⟩ := h.symm.exists_pdn hp
    rw [← Pdn.eq_of_record Pdn.numBearer (fun _ => rfl) hrecord,
      ← Pdn.eq_of_record Pdn.epsBearers (fun _ => rfl) hrecord]
    exact hc.numBearer p pdn' hp'
  overwritten := h.overwritten.trans hc.overwritten

theorem UeContext.Quiet.agrees (h : c.Quiet c') (hc : c.Agrees) : c'.Agrees := by
  cases h with
  | same h => exact h.agrees hc
  | @named i b bearer hb hget =>
    obtain ⟨bearer', pdn, hget', hebi, -⟩ := hc.held i b hb
    cases hget.symm.trans hget'
    have hrecord : ({ bearer with epsBearerId := i + 5 } : EpsBearer).record = bearer.record :=
      Prod.ext hebi.symm rfl
    exact (sameBearers_setBearer hget hrecord).agrees hc
  | @cleared p pdn bearers queue h hlt =>
    have hnum := hc.numBearer p pdn h.get
    rw [h.slots] at hnum
    omega

theorem UeContext.Unnamed.not_agrees (h : c.Unnamed) : ¬ c.Agrees := by
  intro hc
  obtain ⟨i, b, bearer, hb, hget, hebi⟩ := h
  obtain ⟨bearer', pdn, hget', hebi', -⟩ := hc.held i b hb
  cases hget.symm.trans hget'
  omega

theorem occupied_single (i : Fin maxBearers) (b : BearerPtr) :
    occupied (update (fun _ => none) i (some b) : Slots BearerPtr) = 1 := by
  have hcount : (fun j => (update (fun _ => none) i (some b) j : Option BearerPtr).isSome) =
      fun j => j == i := by
    funext j
    by_cases hj : j = i <;> simp [hj]
  rw [occupied, hcount]
  exact List.count_eq_one_of_mem (List.nodup_finRange maxBearers) (List.mem_finRange i)

theorem getLsbD_one_shiftLeft (i j : Fin maxBearers) :
    (1#16 <<< (i : ℕ)).getLsbD j = decide (j = i) := by
  revert i j
  decide

theorem UeContext.New.agrees (h : c.New) : c.Agrees := by
  rcases h with ⟨hslots, hbitmap, hover, hpdns⟩ | ⟨i, pdn, bearer, h⟩
  · refine ⟨fun i => ?_, fun i b hb => ?_, fun p pdn hp => ?_, hover⟩
    · rw [hbitmap, hslots]
      exact BitVec.getLsbD_zero
    · rw [hslots] at hb
      cases hb
    · rw [hpdns] at hp
      cases hp
  · have htied := h.tied
    refine ⟨fun j => ?_, fun j b hj => ?_, fun p pdn' hp => ?_, h.overwritten⟩
    · rw [h.bearerBitmap, h.epsBearers, getLsbD_one_shiftLeft, update_apply]
      by_cases hji : j = i <;> simp [hji]
    · have hj' := hj
      rw [h.epsBearers, update_apply] at hj'
      split_ifs at hj' with hji
      cases hj'
      refine ⟨bearer, pdn, by rw [h.bearerHeap]; rfl, hji ▸ h.ebi, h.pdn ▸ htied.get,
        htied.slots ▸ hj, ?_⟩
      intro q pdn' k hq hk
      obtain rfl := htied.only q pdn' hq
      cases htied.get.symm.trans hq
      rw [htied.slots] at hk
      exact ⟨h.pdn.symm, htied.inj k j 0 hk hj⟩
    · obtain rfl := htied.only p pdn' hp
      cases htied.get.symm.trans hp
      rw [h.numBearer, h.slots, h.epsBearers, occupied_single]

theorem State.Calm.agrees (h : s.Calm s') (hs : s.Agrees) : s'.Agrees := by
  refine h.2.invariant (I := fun (ues : Heap UeContext) => ∀ u c, ues.get u = some c → c.Agrees) hs ?_
  intro ues a hues ha v d hd
  cases a with
  | write u c' =>
    obtain ⟨c, hc, hquiet⟩ := ha
    rw [UeAction.act, Heap.get_set hc] at hd
    split_ifs at hd
    · exact Option.some.inj hd ▸ hquiet.agrees (hues u c hc)
    · exact hues v d hd
  | free u =>
    rw [UeAction.act, Heap.get_free] at hd
    split_ifs at hd
    exact hues v d hd
  | alloc c =>
    rw [UeAction.act, Heap.get_alloc] at hd
    split_ifs at hd
    · exact Option.some.inj hd ▸ ha.agrees
    · exact hues v d hd

/-- **The records of the bearers agree as long as no event creates a bearer** -/
theorem agrees_trace (gx : Bool) (es : List Event) :
    (Guarded next (fun s e => ¬ Creates s e) (initial gx) es →
      ∀ s ∈ trace next (initial gx) es, s.Agrees) ∧
    ((final next (initial gx) es).isSome → (∀ s ∈ trace next (initial gx) es, s.Agrees) →
      Guarded next (fun s e => ¬ Creates s e) (initial gx) es) := by
  constructor
  · intro hg s hs
    refine (linked_and_of_guarded ?_ (fun _ _ h => nomatch h) hg s hs).2
    intro s e s' hlinked hagrees hno hstep
    obtain ⟨-, ⟨-, hcalm⟩ | ⟨hcreates, -⟩⟩ := effect_of_next hlinked hstep
    · exact hcalm.agrees hagrees
    · exact absurd hcreates hno
  · refine guarded_of_trace ?_ (linked_initial gx)
    intro s e s' hlinked hstep hagrees
    obtain ⟨hlinked', ⟨hno, -⟩ | ⟨-, u, c, hc, hunnamed⟩⟩ := effect_of_next hlinked hstep
    · exact ⟨hno, hlinked'⟩
    · exact absurd (hagrees u c hc) hunnamed.not_agrees

namespace Demo

def defaultQos : BearerQos := ⟨9, 1, 1, 0⟩

/-- A Create Session Request whose default bearer has the identifier `ebi`. -/
def attach (ebi : ℕ) : Event :=
  .createSessionRequest { upf := 1, qos := defaultQos } ⟨1, ⟨0x0A000001, 2123⟩⟩
    { Session.Demo.request 1 8 0 with ebi }

def rule (action : Rar.RuleAction) (name : Char) (qos : BearerQos) : PccRule :=
  { action, dynRule := { ruleName := [name], qos } }

def session (ebi : ℕ) : List Event :=
  [attach ebi, .policy 0 0 { rules := [rule .add 'd' defaultQos], named := some ['d'] },
    .sessionEstablishment 0 0 true]

def dedicatedBearer : List Event :=
  session 6 ++ [.config false, .reAuthRequest 0 0 false true
        [rule .add 'a' ⟨5, 2, 1, 0⟩, rule .modify 'm' ⟨6, 3, 1, 0⟩, rule .delete 'd' defaultQos]]

end Demo

/-- A session that is established and released under Gx. -/
theorem agrees_trace_session :
    Guarded next (fun s e => ¬ Creates s e) (initial true) (Demo.session 5 ++ [.release 0 0]) ∧
      (final next (initial true) (Demo.session 5 ++ [.release 0 0])).isSome ∧
      ∀ s ∈ trace next (initial true) (Demo.session 5 ++ [.release 0 0]), s.Agrees :=
  ⟨by decide +kernel, by decide +kernel, (agrees_trace true _).1 (by decide +kernel)⟩

/-- **The new bearer takes the slot of the default bearer** -/
theorem not_agrees_dedicatedBearer :
    ∃ s ∈ trace next (initial true) Demo.dedicatedBearer, ¬ s.Agrees := by
  have hrun : ((final next (initial true) Demo.dedicatedBearer).bind fun s =>
      (s.ues.get 0).map (·.overwritten)) = some [0] := by decide +kernel
  obtain ⟨s, hs, hover⟩ := Option.bind_eq_some_iff.mp hrun
  obtain ⟨c, hc, hlost⟩ := Option.map_eq_some_iff.mp hover
  refine ⟨s, mem_trace_of_final hs, fun hagrees => ?_⟩
  rw [(hagrees 0 c hc).overwritten] at hlost
  cases hlost

end Spgw.Bearer
