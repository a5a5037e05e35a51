/-
# Session identifiers

The SEID of a PFCP session is made of the TEID of the UE context and the identifier of the default
bearer (`SESS_ID`, `vepc_cp_dp_api.h`), and taken apart again by `UE_SESS_ID` and `UE_BEAR_ID`.
-/

import Spgw.Bearer.Agree
import Spgw.Session.Consistent

namespace Spgw.Bearer

open Machine
open Session (UePtr PdnPtr CreateSessReq deref deref_some sat_deref_bind imsiKey sessId ueSessId
  ueSessId_sessId)
open Rar (PccRule maxBearers)
open Spgw.Trans (TransKey)

variable {s s' : State} {c c' c'' : UeContext} {p : PdnPtr} {pdn : Pdn} {u : UePtr} {m n : ℕ}

def ueBearId (seid : ℕ) : ℕ := seid % 16

/-- The TEID of the UE context that was created after `k` others. -/
def teidOf (k : ℕ) : ℕ := (0xC0FFEE + k) % 2 ^ 32

theorem ueBearId_sessId {ebi : ℕ} (h : ebi ≤ 15) (teid : ℕ) : ueBearId (sessId teid ebi) = ebi := by
  unfold ueBearId sessId
  omega

theorem ueSessId_sessId_iff {teid : ℕ} (ebi : ℕ) :
    ueSessId (sessId teid ebi) = teid ↔ teid < 2 ^ 28 := by
  refine ⟨fun h => ?_, fun h => ueSessId_sessId h ebi⟩
  unfold ueSessId at h
  omega

theorem sessId_inj {teid teid' ebi ebi' : ℕ} (ht : teid < 2 ^ 32) (ht' : teid' < 2 ^ 32)
    (hebi : ebi ≤ 15) (hebi' : ebi' ≤ 15) (h : sessId teid ebi = sessId teid' ebi') :
    teid = teid' ∧ ebi = ebi' := by
  unfold sessId at h
  omega

theorem teidOf_lt (k : ℕ) : teidOf k < 2 ^ 32 := Nat.mod_lt _ (by decide)

/-- The identifiers of a UE context: its TEID is one of the first `n`, and the SEIDs of its PDN
connections are made from it. -/
def UeContext.Addressed (n : ℕ) (c : UeContext) : Prop :=
  (∃ k < n, c.s11SgwGtpcTeid = teidOf k) ∧ ∀ p pdn, c.pdnHeap.get p = some pdn →
      ∃ ebi, pdn.seid = sessId c.s11SgwGtpcTeid ebi

def UeContext.SameSeids (c c' : UeContext) : Prop :=
  c'.s11SgwGtpcTeid = c.s11SgwGtpcTeid ∧ ∀ p pdn', c'.pdnHeap.get p = some pdn' →
      ∃ pdn, c.pdnHeap.get p = some pdn ∧ pdn'.seid = pdn.seid

namespace UeContext

theorem SameSeids.refl (c : UeContext) : c.SameSeids c := ⟨rfl, fun _ pdn hp => ⟨pdn, hp, rfl⟩⟩

theorem Keeps.sameSeids (h : c.Keeps c') (hwf : c.WellFormed) (hp : c.pdnHeap.get p = some pdn) :
    c.SameSeids c' := by
  refine ⟨h.teid, fun q pdn' hq => ?_⟩
  obtain ⟨pdn₁, hp₁, hseid, -, -⟩ := h.pdn p pdn hp
  obtain rfl := ((h.wellFormed hwf).tied hp₁).only q pdn' hq
  cases hp₁.symm.trans hq
  exact ⟨pdn, hp, hseid⟩

theorem sameSeids_set {pdn' : Pdn} (hheap : c'.pdnHeap = c.pdnHeap.set p pdn')
    (hp : c.pdnHeap.get p = some pdn) (hseid : pdn'.seid = pdn.seid)
    (hteid : c'.s11SgwGtpcTeid = c.s11SgwGtpcTeid) : c.SameSeids c' := by
  refine ⟨hteid, fun q pdn₁ hq => ?_⟩
  rw [hheap, Heap.get_set hp] at hq
  split_ifs at hq with hqp
  · cases hq
    exact ⟨pdn, hqp ▸ hp, hseid⟩
  · exact ⟨pdn₁, hq, rfl⟩

theorem Addressed.of_sameSeids (hc : c.Addressed n) (h : c.SameSeids c') : c'.Addressed n := by
  obtain ⟨hteid, hpdns⟩ := hc
  refine ⟨h.1 ▸ hteid, fun p pdn' hp' => ?_⟩
  obtain ⟨pdn, hp, hseid⟩ := h.2 p pdn' hp'
  obtain ⟨ebi, heq⟩ := hpdns p pdn hp
  exact ⟨ebi, by rw [hseid, heq, h.1]⟩

theorem Addressed.mono (hc : c.Addressed m) (h : m ≤ n) : c.Addressed n := by
  obtain ⟨⟨k, hk, hteid⟩, hpdns⟩ := hc
  exact ⟨⟨k, hk.trans_le h, hteid⟩, hpdns⟩

end UeContext

def State.SameSeids (s s' : State) : Prop :=
  s'.teidOffset = s.teidOffset ∧ s.ues.Evolves UeContext.SameSeids s'.ues

theorem State.SameSeids.of_ues (hoffset : s'.teidOffset = s.teidOffset) (hues : s'.ues = s.ues) :
    s.SameSeids s' :=
  ⟨hoffset, hues ▸ Heap.Evolves.refl UeContext.SameSeids.refl⟩

theorem State.SameSeids.of_set (hoffset : s'.teidOffset = s.teidOffset)
    (hues : s'.ues = s.ues.set u c') (hc : s.ues.get u = some c) (h : c.SameSeids c') :
    s.SameSeids s' :=
  ⟨hoffset, hues ▸ Heap.evolves_set UeContext.SameSeids.refl hc h⟩

theorem State.SameSeids.of_free (hoffset : s'.teidOffset = s.teidOffset)
    (hues : s'.ues = s.ues.free u) : s.SameSeids s' :=
  ⟨hoffset, hues ▸ Heap.evolves_free UeContext.SameSeids.refl⟩

theorem sameSeids_storePolicy (update : PolicyUpdate) :
    Sat (storePolicy s u p update) s.SameSeids AnyFault := by
  unfold storePolicy
  refine sat_deref_bind fun c hc => ?_
  refine sat_deref_bind fun pdn hp => ?_
  refine (sat_true _).bind fun i _ => (sat_true _).bind fun b _ => (sat_true _).bind fun bearer _ => ?_
  exact .of_set rfl rfl hc (UeContext.sameSeids_set rfl hp rfl rfl)

theorem sameSeids_processPfcpSessEstRequest (upfFound : Bool) (hs : s.Linked) :
    Sat (processPfcpSessEstRequest s u p upfFound) s.SameSeids AnyFault := by
  unfold processPfcpSessEstRequest
  refine sat_deref_bind fun c hc => ?_
  refine sat_deref_bind fun pdn hp => ?_
  refine (sat_true _).bind fun i _ => (sat_true _).bind fun b _ => ?_
  refine (sat_fillPfcpSessEstReq ..).bind ?_
  rintro ⟨r, c'⟩ ⟨hkeeps, -⟩
  exact .of_set rfl rfl hc (hkeeps.sameSeids (hs.context u c hc) hp)

theorem sameSeids_processRarRequestHandler (release admitted : Bool) (rules : List PccRule)
    (hs : s.Linked) :
    Sat (processRarRequestHandler s u p release admitted rules) s.SameSeids AnyFault := by
  unfold processRarRequestHandler
  refine sat_deref_bind fun c hc => ?_
  refine sat_deref_bind fun pdn hp => ?_
  have hset := (UeContext.rulesOnly_setPending hp (pdn.pendingPccRules ++ rules)).keeps
  split_ifs
  · exact .of_set rfl rfl hc (hset.sameSeids (hs.context u c hc) hp)
  · refine (sat_activateBearers ..).bind ?_
    rintro ⟨r, c'⟩ ⟨hkeeps, -⟩
    refine (sat_true _).bind fun pdn₂ _ => (sat_true _).bind fun found _ => ?_
    cases found with
    | false => trivial
    | true => exact .of_set rfl rfl hc ((hset.trans hkeeps).sameSeids (hs.context u c hc) hp)

theorem sameSeids_processCreateBearerRsp (ebi : ℕ) :
    Sat (processCreateBearerRsp s u ebi) s.SameSeids AnyFault := by
  unfold processCreateBearerRsp
  refine sat_deref_bind fun c hc => (sat_true _).bind fun i _ => ?_
  cases c.epsBearers i with
  | none => exact .of_ues rfl rfl
  | some b =>
    refine (sat_true _).bind fun bearer _ => ?_
    exact .of_set rfl rfl hc ⟨rfl, fun _ pdn hp => ⟨pdn, hp, rfl⟩⟩

theorem sameSeids_releaseSession (hs : s.Linked) :
    Sat (releaseSession s u p) s.SameSeids AnyFault := by
  refine (sat_releaseSession fun c hc => hs.context u c hc).mono ?_
  rintro s' ⟨c, pdn, r, -, -, rfl⟩
  exact .of_free rfl rfl

theorem sameSeids_processErrorOccuredHandlerNew (teid ebi : ℕ) (hs : s.Linked) :
    Sat (processErrorOccuredHandlerNew s teid ebi) s.SameSeids AnyFault := by
  cases hu : s.ueByTeid teid with
  | none =>
    simp only [processErrorOccuredHandlerNew, hu]
    exact State.SameSeids.of_ues rfl rfl
  | some u =>
    refine sat_iff.mpr ⟨fun s' hs' => ?_, fun _ _ => trivial⟩
    obtain ⟨c, p, pdn, hc, hp, htied⟩ := exists_tied_of_processErrorOccuredHandlerNew hs hu hs'
    obtain ⟨bearers, hok⟩ := processErrorOccuredHandlerNew_eq_ok hu hc hp htied
    obtain ⟨-, w, -, ⟨-, -, rfl⟩ | ⟨hlt, rfl⟩⟩ := (hok s').mp hs'
    · exact .of_free rfl rfl
    · have hkeeps := UeContext.keeps_cleared htied bearers []
      refine .of_set ?_ ?_ hc (hkeeps.sameSeids (hs.context u c hc) htied.get)
      · change (s.withoutGx pdn).teidOffset = s.teidOffset
        unfold State.withoutGx
        split_ifs <;> rfl
      · change (s.withoutGx pdn).ues.set u _ = _
        rw [withoutGx_ues]

theorem sameSeids_replaceOldContext (csr : CreateSessReq) (hs : s.Linked) :
    Sat (replaceOldContext s csr) s.SameSeids AnyFault := by
  unfold replaceOldContext
  cases s.ueByImsi csr.imsiDigits with
  | none => exact State.SameSeids.of_ues rfl rfl
  | some u =>
    refine (sat_true _).bind fun c _ => (sat_true _).bind fun p _ => ?_
    exact sameSeids_processErrorOccuredHandlerNew c.s11SgwGtpcTeid csr.ebi hs

def State.Addressed (s : State) : Prop := ∀ u c, s.ues.get u = some c → c.Addressed s.teidOffset

theorem State.Addressed.of_sameSeids (hs : s.Addressed) (h : s.SameSeids s') : s'.Addressed := by
  intro u c' hc'
  obtain ⟨c, hc, hsame⟩ := h.2 u c' hc'
  exact h.1 ▸ (hs u c hc).of_sameSeids hsame

theorem State.Addressed.of_alloc (hs : s.Addressed) (hoffset : s'.teidOffset = s.teidOffset + 1)
    (hues : s'.ues = s.ues.alloc c) (hc : c.Addressed (s.teidOffset + 1)) : s'.Addressed := by
  intro u c' hc'
  rw [hues, Heap.get_alloc] at hc'
  rw [hoffset]
  split_ifs at hc' with hu
  · exact Option.some.inj hc' ▸ hc
  · exact (hs u c' hc').mono (Nat.le_succ _)

theorem addressed_newContext (env : Env) (s : State) (imsi ebi : ℕ) (i : Fin maxBearers) :
    (newContext imsi s.nextTeid ebi i env.upf env.qos).Addressed (s.teidOffset + 1) := by
  refine ⟨⟨s.teidOffset, Nat.lt_succ_self _, rfl⟩, fun p pdn hp => ?_⟩
  change (({} : Heap Pdn).alloc _).get p = some pdn at hp
  rw [Heap.get_alloc] at hp
  split_ifs at hp with hp0
  · cases hp
    exact ⟨ebi, rfl⟩
  · cases hp

theorem addressed_startGx (env : Env) (hs : s.Addressed) :
    Sat (startGx env s u) State.Addressed AnyFault := by
  unfold startGx
  split_ifs
  · exact hs
  · refine sat_deref_bind fun c hc => ?_
    refine sat_deref_bind fun pdn hp => ?_
    obtain ⟨gxSessId, hues⟩ := genCcrRequest_ues env s u c pdn
    have hoffset : (genCcrRequest env s u c pdn).teidOffset = s.teidOffset := by
      simp only [genCcrRequest]
      split_ifs <;> rfl
    exact hs.of_sameSeids (.of_set hoffset hues hc (UeContext.sameSeids_set rfl hp rfl rfl))

theorem addressed_startAttach (env : Env) (key : TransKey) (csr : CreateSessReq)
    (hs : s.Addressed) : Sat (startAttach env s key csr) State.Addressed AnyFault := by
  unfold startAttach
  simp only
  split_ifs with hoi
  · exact hs
  · refine (sat_processCreateSessReq env s csr).bind ?_
    rintro _ (rfl | ⟨imsi, -, rfl | ⟨i, -, rfl⟩⟩)
    · exact hs
    · refine hs.of_alloc rfl rfl ⟨⟨s.teidOffset, Nat.lt_succ_self _, rfl⟩, fun p pdn hp => ?_⟩
      cases hp
    · have hopen : (s.openContext env imsi csr.ebi i).Addressed :=
        hs.of_alloc rfl rfl (addressed_newContext env s imsi csr.ebi i)
      refine sat_deref_bind fun c hc => ?_
      refine addressed_startGx env (hopen.of_sameSeids (.of_set rfl rfl hc ?_))
      exact ⟨rfl, fun _ pdn hp => ⟨pdn, hp, rfl⟩⟩

theorem addressed_step (e : Event) (hlinked : s.Linked) (hs : s.Addressed) :
    Sat (step s e) State.Addressed AnyFault := by
  have hsame {e : Event} (h : Sat (step s e) s.SameSeids AnyFault) :
      Sat (step s e) State.Addressed AnyFault := h.mono fun _ => hs.of_sameSeids
  cases e with
  | config gxEnabled => exact hs
  | procedures w => exact hs
  | queue u queue =>
    refine hsame (sat_deref_bind fun c hc => ?_)
    exact .of_set rfl rfl hc ⟨rfl, fun _ pdn hp => ⟨pdn, hp, rfl⟩⟩
  | createSessionRequest env key csr =>
    refine ((sat_replaceOldContext csr hlinked).and (sameSeids_replaceOldContext csr hlinked)).bind
      fun s₁ h₁ => ?_
    exact addressed_startAttach env key csr (hs.of_sameSeids h₁.2)
  | policy u p update => exact hsame (sameSeids_storePolicy update)
  | sessionEstablishment u p upfFound =>
    exact hsame (sameSeids_processPfcpSessEstRequest upfFound hlinked)
  | reAuthRequest u p release admitted rules =>
    exact hsame (sameSeids_processRarRequestHandler release admitted rules hlinked)
  | createBearerResponse u ebi => exact hsame (sameSeids_processCreateBearerRsp ebi)
  | release u p => exact hsame (sameSeids_releaseSession hlinked)

theorem addressed_of_run {gxEnabled : Bool} {es : List Event}
    (h : final next (initial gxEnabled) es = some s) : s.Addressed := by
  have hboth : s.Linked ∧ s.Addressed := by
    refine final_invariant (I := fun s => s.Linked ∧ s.Addressed) ?_
      ⟨linked_initial gxEnabled, fun u c hc => ?_⟩ h
    · rintro s e t ⟨hlinked, hs⟩ ht
      exact ⟨(effect_of_next hlinked ht).1, of_next (addressed_step e hlinked hs) ht⟩
    · cases hc
  exact hboth.2

/-- The TEIDs given out so far come back from their SEIDs, with every identifier of a bearer; no
two pairs have one SEID; and the assertion of `cleanup_pdn_context` holds for every PDN
connection. -/
structure State.SeidsSound (s : State) : Prop where
  roundTrip : ∀ k < s.teidOffset, ∀ ebi, 5 ≤ ebi → ebi ≤ 15 →
    ueSessId (sessId (teidOf k) ebi) = teidOf k ∧ ueBearId (sessId (teidOf k) ebi) = ebi
  distinct : ∀ j < s.teidOffset, ∀ k < s.teidOffset, ∀ ebi ebi', 5 ≤ ebi → ebi ≤ 15 → 5 ≤ ebi' →
    ebi' ≤ 15 → sessId (teidOf j) ebi = sessId (teidOf k) ebi' → teidOf j = teidOf k ∧ ebi = ebi'
  assertion : ∀ u c p pdn, s.ues.get u = some c → c.pdnHeap.get p = some pdn →
    c.s11SgwGtpcTeid = ueSessId pdn.seid

theorem teidOf_lt_of_le {k : ℕ} (hk : k < n) (hn : n ≤ 2 ^ 28 - 0xC0FFEE) : teidOf k < 2 ^ 28 := by
  unfold teidOf
  omega

/-- **The session identifiers of a run can be taken apart exactly as long as at most
`2 ^ 28 - 0xC0FFEE` UE contexts have been created.** -/
theorem seidsSound_iff {gxEnabled : Bool} {es : List Event} {s : State}
    (h : final next (initial gxEnabled) es = some s) :
    s.SeidsSound ↔ s.teidOffset ≤ 2 ^ 28 - 0xC0FFEE := by
  constructor
  · intro hs
    by_contra hlt
    have hback := (hs.roundTrip (2 ^ 28 - 0xC0FFEE) (by omega) 5 le_rfl (by omega)).1
    exact absurd ((ueSessId_sessId_iff 5).mp hback) (by decide)
  · intro hle
    refine ⟨?_, ?_, ?_⟩
    · intro k hk ebi _ hhi
      exact ⟨ueSessId_sessId (teidOf_lt_of_le hk hle) ebi, ueBearId_sessId hhi _⟩
    · intro j _ k _ ebi ebi' _ hhi _ hhi' heq
      exact sessId_inj (teidOf_lt j) (teidOf_lt k) hhi hhi' heq
    · intro u c p pdn hc hp
      obtain ⟨⟨k, hk, hteid⟩, hpdns⟩ := addressed_of_run h u c hc
      obtain ⟨ebi, hseid⟩ := hpdns p pdn hp
      rw [hseid, ueSessId_sessId (hteid ▸ teidOf_lt_of_le hk hle)]

theorem seidsSound_session :
    ∃ s, final next (initial true) (Demo.session 5) = some s ∧ s.SeidsSound := by
  have hrun : ∃ s, final next (initial true) (Demo.session 5) = some s ∧ s.teidOffset = 1 :=
    ⟨_, rfl, rfl⟩
  obtain ⟨s, hs, hoffset⟩ := hrun
  exact ⟨s, hs, (seidsSound_iff hs).mpr (by rw [hoffset]; decide)⟩

def Demo.request (k : ℕ) : CreateSessReq := { Session.Demo.request k 8 0 with imsiDigits := k }

/-- The attach of the subscriber with the IMSI `k`, without Gx. -/
def Demo.subscriber (k : ℕ) : Event :=
  .createSessionRequest { upf := 1 } ⟨k, ⟨0x0A000001, 2123⟩⟩ (request k)

/-- Where `n` subscribers have attached. -/
structure State.Attached (s : State) (n : ℕ) : Prop where
  gxEnabled : s.gxEnabled = false
  offset : s.teidOffset = n
  next : s.ues.next = n
  fresh : ∀ imsi, n ≤ imsi → s.ueByImsi imsi = none

def Demo.context (n : ℕ) (q : ProcId) : UeContext :=
  { newContext n (teidOf n) 5 ⟨0, Rar.zero_lt_maxBearers⟩ 1 {} with pendingSubProcs := [q] }

theorem State.Attached.next_subscriber (hs : s.Attached n) (hn : n < 2 ^ 64) :
    ∃ s' q, Bearer.next s (Demo.subscriber n) = some s' ∧ s'.Attached (n + 1) ∧
      s'.ues = s.ues.alloc (Demo.context n q) ∧ s'.rules = s.rules := by
  have himsi : imsiKey (Demo.request n) = .ok n := by
    change Except.ok (n % 256 ^ 8 + (256 ^ 8 - 256 ^ 8)) = Except.ok n
    rw [Nat.sub_self, Nat.add_zero, Nat.mod_eq_of_lt (by omega)]
  have hnone : s.ueByImsi n = none := hs.fresh n le_rfl
  have hreplace : replaceOldContext s (Demo.request n) = .ok s := by
    have hlookup : s.ueByImsi (Demo.request n).imsiDigits = none := hnone
    simp only [replaceOldContext, hlookup]
    rfl
  have hcreate : processCreateSessReq { upf := 1 } s (Demo.request n) =
        .ok (s.openContext { upf := 1 } n 5 ⟨0, by decide⟩, some s.ues.next) := by
    simp only [processCreateSessReq, himsi]
    change (if (s.ueByImsi n).isSome ∨ true = false then _ else _) = _
    rw [hnone]
    rfl
  have hget : (s.openContext { upf := 1 } n 5 ⟨0, by decide⟩).ues.get s.ues.next =
      some (newContext n s.nextTeid 5 ⟨0, by decide⟩ 1 {}) := by
    change (s.ues.alloc _).get s.ues.next = _
    rw [Heap.get_alloc, if_pos rfl]
  obtain ⟨s', hattach, hgx, hoffset, hues, hbyImsi, hrules⟩ : ∃ s', startAttach { upf := 1 } s
      ⟨n, ⟨0x0A000001, 2123⟩⟩ (Demo.request n) = .ok s' ∧
      s'.gxEnabled = s.gxEnabled ∧ s'.teidOffset = s.teidOffset + 1 ∧
      s'.ues = (s.ues.alloc (newContext n s.nextTeid 5 ⟨0, by decide⟩ 1 {})).set s.ues.next
        { newContext n s.nextTeid 5 ⟨0, by decide⟩ 1 {} with
          pendingSubProcs := [s.procedures.procs.next] } ∧
      s'.ueByImsi = s.ueByImsi.insert n s.ues.next ∧ s'.rules = s.rules := by
    simp only [startAttach, hcreate]
    simp only [Demo.request, Session.Demo.request, Bool.false_eq_true, if_false]
    change ∃ s', (deref ((s.openContext { upf := 1 } n 5 ⟨0, by decide⟩).ues.get s.ues.next) >>= _) =
      Except.ok s' ∧ _
    rw [hget, deref_some, pure_bind, startGx]
    change ∃ s', (if s.gxEnabled = false then _ else _) = Except.ok s' ∧ _
    rw [if_pos hs.gxEnabled]
    exact ⟨_, rfl, rfl, rfl, rfl, rfl, rfl⟩
  refine ⟨s', s.procedures.procs.next, ?_, ⟨?_, ?_, ?_, ?_⟩, ?_, hrules⟩
  · change (replaceOldContext s (Demo.request n) >>= fun s =>
      startAttach { upf := 1 } s ⟨n, ⟨0x0A000001, 2123⟩⟩ (Demo.request n)).toOption = some s'
    rw [hreplace]
    change (startAttach { upf := 1 } s ⟨n, ⟨0x0A000001, 2123⟩⟩ (Demo.request n)).toOption = some s'
    rw [hattach]
    rfl
  · rw [hgx, hs.gxEnabled]
  · rw [hoffset, hs.offset]
  · rw [hues, Heap.next_set, Heap.next_alloc, hs.next]
  · intro imsi hle
    rw [hbyImsi, Session.Table.insert, hnone]
    change Function.update s.ueByImsi n (some s.ues.next) imsi = none
    rw [Function.update_of_ne (by omega), hs.fresh imsi (by omega)]
  · rw [hues, Heap.set_alloc, State.nextTeid, hs.offset]
    rfl

theorem attached_subscribers (hn : n ≤ 2 ^ 64) :
    ∃ s, final next (initial false) ((List.range n).map Demo.subscriber) = some s ∧
      s.Attached n := by
  induction n with
  | zero => exact ⟨initial false, rfl, rfl, rfl, rfl, fun _ _ => rfl⟩
  | succ n ih =>
    obtain ⟨s, hs, hatt⟩ := ih (by omega)
    obtain ⟨s', q, hstep, hatt', -⟩ := hatt.next_subscriber (by omega)
    refine ⟨s', ?_, hatt'⟩
    rw [List.range_succ, List.map_append, final_append, hs, Option.bind_some]
    change (next s (Demo.subscriber n)).bind _ = _
    rw [hstep]
    rfl

/-- **The session of the subscriber whose TEID needs 29 bits cannot be released.** -/
theorem assertion_fails_after_attaches : ∃ s, final next (initial false)
        ((List.range (2 ^ 28 - 0xC0FFEE)).map Demo.subscriber ++
          [Demo.subscriber (2 ^ 28 - 0xC0FFEE)]) = some s ∧
      ¬ s.SeidsSound ∧ step s (.release (2 ^ 28 - 0xC0FFEE) 0) = .error .assertion := by
  have hn : 2 ^ 28 - 0xC0FFEE ≤ 2 ^ 64 := by decide
  have hteid : teidOf (2 ^ 28 - 0xC0FFEE) = 2 ^ 28 := by decide
  generalize 2 ^ 28 - 0xC0FFEE = n at hn hteid
  obtain ⟨s, hs, hatt⟩ := attached_subscribers hn
  have hlt : n < 2 ^ 64 := by
    refine lt_of_le_of_ne hn fun h => ?_
    rw [h] at hteid
    exact absurd hteid (by decide)
  obtain ⟨s', q, hstep, hatt', hues, -⟩ := hatt.next_subscriber hlt
  have hget : s'.ues.get n = some (Demo.context n q) := by
    rw [hues, Heap.get_alloc, if_pos hatt.next.symm]
  obtain ⟨pdn, hpdn, hseid⟩ : ∃ pdn, (Demo.context n q).pdnHeap.get 0 = some pdn ∧
      pdn.seid = sessId (teidOf n) 5 := ⟨_, rfl, rfl⟩
  -- The SEID keeps only the low bits of this TEID.
  have hne : (Demo.context n q).s11SgwGtpcTeid ≠ ueSessId pdn.seid := by
    change teidOf n ≠ ueSessId pdn.seid
    rw [hseid, hteid]
    decide
  refine ⟨s', ?_, fun hsound => hne (hsound.assertion n _ 0 pdn hget hpdn), ?_⟩
  · rw [final_append, hs, Option.bind_some]
    change (next s (Demo.subscriber n)).bind _ = _
    rw [hstep]
    rfl
  · change (cleanupPdnContext s' n 0 >>= _) = _
    have hcleanup : cleanupPdnContext s' n 0 = .error .assertion := by
      rw [cleanupPdnContext, hget, deref_some, pure_bind, hpdn, deref_some, pure_bind,
        Session.assert, if_neg hne]
      rfl
    rw [hcleanup]
    rfl

end Spgw.Bearer
