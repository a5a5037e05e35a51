/-
# What an event can do

The invariant `Linked` holds along every run, without a condition on the events
(`linked_of_run`).
-/

import Spgw.Bearer.Linked

namespace Spgw.Bearer

open Machine Function
open Session (UePtr PdnPtr Service CreateSessReq deref_some sat_deref_bind deref_bind_eq_ok sessId)
open Rar (BearerQos PccRule maxBearers)
open Spgw.Trans (TransKey)

variable {s s' : State} {c c' : UeContext} {p : PdnPtr} {pdn : Pdn} {u : UePtr}

theorem slotIndex_eq_ok {ebi : ℕ} {i : Fin maxBearers} (h : slotIndex ebi = .ok i) : ebi = i + 5 := by
  unfold slotIndex at h
  split_ifs at h with hebi
  · cases h
    simp only
    omega

/-- A context with one bearer, in the slot `i`. -/
structure UeContext.Single (c : UeContext) (i : Fin maxBearers) (pdn : Pdn) (bearer : EpsBearer) :
    Prop where
  epsBearers : c.epsBearers = update (fun _ => none) i (some 0)
  numPdns : c.numPdns = 1
  bearerBitmap : c.bearerBitmap = 1#16 <<< (i : ℕ)
  overwritten : c.overwritten = []
  pdnHeap : c.pdnHeap = ({} : Heap Pdn).alloc pdn
  bearerHeap : c.bearerHeap = ({} : Heap EpsBearer).alloc bearer
  slots : pdn.epsBearers = c.epsBearers
  numBearer : pdn.numBearer = 1
  ebi : bearer.epsBearerId = i + 5
  pdn : bearer.pdn = 0

def UeContext.New (c : UeContext) : Prop :=
  (c.epsBearers = (fun _ => none) ∧ c.bearerBitmap = 0 ∧ c.overwritten = [] ∧ c.pdnHeap = {}) ∨
    ∃ i pdn bearer, c.Single i pdn bearer

theorem single_newContext {ebi : ℕ} {i : Fin maxBearers} (hebi : slotIndex ebi = .ok i)
    (imsi teid : ℕ) (upf : Service) (qos : BearerQos) (queue : List ProcId) :
    ({ newContext imsi teid ebi i upf qos with pendingSubProcs := queue } : UeContext).Single i
      { defaultBearerId := ebi
        numBearer := 1
        epsBearers := update (fun _ => none) i (some 0)
        seid := sessId teid ebi } { epsBearerId := ebi, qos, pdn := 0 } where
  epsBearers := rfl
  numPdns := rfl
  bearerBitmap := BitVec.zero_or
  overwritten := rfl
  pdnHeap := rfl
  bearerHeap := rfl
  slots := rfl
  numBearer := rfl
  ebi := slotIndex_eq_ok hebi
  pdn := rfl

theorem UeContext.Single.tied {i : Fin maxBearers} {bearer : EpsBearer} (h : c.Single i pdn bearer) :
    c.Tied 0 pdn where
  get := by rw [h.pdnHeap]; rfl
  only q pdn' hq := by
    rw [h.pdnHeap, Heap.get_alloc] at hq
    split_ifs at hq with hq0
    · exact hq0
    · cases hq
  numPdns := h.numPdns
  slots := h.slots
  bearers j b hj := by
    rw [h.epsBearers, update_apply] at hj
    split_ifs at hj with hji
    cases hj
    exact ⟨bearer, by rw [h.bearerHeap]; rfl, h.pdn, .inr (hji ▸ h.ebi)⟩
  inj j k b hj hk := by
    rw [h.epsBearers, update_apply] at hj hk
    split_ifs at hj hk with hj' hk'
    rw [hj', hk']

theorem UeContext.New.wellFormed (h : c.New) : c.WellFormed := by
  rcases h with ⟨hslots, -, -, hpdns⟩ | ⟨i, pdn, bearer, h⟩
  · exact .inl ⟨fun p => by rw [hpdns]; rfl, fun i => by rw [hslots]⟩
  · exact .inr ⟨0, pdn, h.tied⟩

inductive UeAction
  | write (u : UePtr) (c : UeContext)
  | free (u : UePtr)
  | alloc (c : UeContext)

def UeAction.act (ues : Heap UeContext) : UeAction → Heap UeContext
  | .write u c => ues.set u c
  | .free u => ues.free u
  | .alloc c => ues.alloc c

inductive UeContext.Quiet (c : UeContext) : UeContext → Prop
  | same {c' : UeContext} : c.SameBearers c' → c.Quiet c'
  | named {i : Fin maxBearers} {b : BearerPtr} {bearer : EpsBearer} : c.epsBearers i = some b →
      c.bearerHeap.get b = some bearer →
      c.Quiet { c with bearerHeap := c.bearerHeap.set b { bearer with epsBearerId := i + 5 } }
  | cleared {p : PdnPtr} {pdn : Pdn} {bearers : Heap EpsBearer} {queue : List ProcId} :
      c.Tied p pdn → occupied c.epsBearers < pdn.numBearer →
      c.Quiet { c.cleared p pdn bearers with pendingSubProcs := queue }

theorem UeContext.Quiet.keeps (h : c.Quiet c') : c.Keeps c' := by
  cases h with
  | same h => exact h.keeps
  | named hb hget => exact keeps_setEbi hb hget
  | cleared h _ => exact keeps_cleared h _ _

/-- Quiet writes, new contexts, and their end. -/
def Allowed (ues : Heap UeContext) : UeAction → Prop
  | .write u c' => ∃ c, ues.get u = some c ∧ c.Quiet c'
  | .free _ => True
  | .alloc c => c.New

section Path

variable {ues : Heap UeContext}

theorem path_write (hc : ues.get u = some c) (h : c.Quiet c') :
    Path UeAction.act Allowed ues (ues.set u c') :=
  Path.single (a := UeAction.write u c') ⟨c, hc, h⟩

theorem path_free : Path UeAction.act Allowed ues (ues.free u) :=
  Path.single (a := UeAction.free u) trivial

theorem path_alloc (h : c.New) : Path UeAction.act Allowed ues (ues.alloc c) :=
  Path.single (a := UeAction.alloc c) h

end Path

/-- The tables are in order in `s'`, and the UE contexts have changed without a new bearer. -/
def State.Calm (s s' : State) : Prop := s'.Linked ∧ Path UeAction.act Allowed s.ues s'.ues

theorem State.Calm.trans {s₁ s₂ : State} (h₁ : s.Calm s₁) (h₂ : s₁.Calm s₂) : s.Calm s₂ :=
  ⟨h₂.1, h₁.2.trans h₂.2⟩

theorem State.Calm.of_ues (h : s'.Linked) (hues : s'.ues = s.ues) : s.Calm s' := ⟨h, hues ▸ .refl⟩

theorem State.Linked.calm_setUe (hs : s.Linked) (hc : s.ues.get u = some c) (h : c.Quiet c') :
    s.Calm (s.setUe u c') :=
  ⟨hs.setUe hc h.keeps, path_write hc h⟩

theorem linked_genCcrRequest (env : Env) (hs : s.Linked) (hc : s.ues.get u = some c)
    (h : c.Tied 0 pdn) (hcall : ∀ k a, s.pdnByCallId k = some a → a.1 ≠ u)
    (hgx : ∀ k v, s.ueByGxSessId k = some v → v ≠ u) : (genCcrRequest env s u c pdn).Linked := by
  have hset (pdn' : Pdn) (hslots : pdn'.epsBearers = pdn.epsBearers) (hseid : pdn'.seid = pdn.seid) :
      (s.setUe u { c with pdnHeap := c.pdnHeap.set 0 pdn' }).Linked := by
    refine hs.update hc rfl rfl ?_ (hs.seid.set hc ?_) (hs.gxSessId.set_of_unlisted hc hgx)
      (hs.callId.set_of_unlisted hc hcall)
    · refine .inr ⟨0, pdn', ?_, ?_, h.numPdns, hslots.trans h.slots, h.bearers, h.inj⟩
      · rw [Heap.get_set h.get, if_pos rfl]
      · intro q pdn₁ hq
        rw [Heap.get_set h.get] at hq
        split_ifs at hq with hq0
        · exact hq0
        · exact h.only q pdn₁ hq
    · intro k hk
      refine ⟨0, pdn', ?_, hseid.trans (h.names_iff.mp hk)⟩
      rw [Heap.get_set h.get, if_pos rfl]
  have hget (c' : UeContext) : (s.ues.set u c').get u = some c' := by
    rw [Heap.get_set hc, if_pos rfl]
  have hpdn (pdn' : Pdn) : (c.pdnHeap.set 0 pdn').get 0 = some pdn' := by
    rw [Heap.get_set h.get, if_pos rfl]
  unfold genCcrRequest
  set pdn' : Pdn := { pdn with
    callId := (s.callIdOffset + 1) % 2 ^ 32
    gxSessId := env.timestamp ++ Nat.toDigits 10 ((s.callIdOffset + 1) % 2 ^ 32) }
  have hlinked := hset pdn' rfl rfl
  have hcallId := hlinked.callId.insert (a := (u, 0)) (hget _) ⟨0, pdn', hpdn pdn', rfl⟩
  simp only
  split_ifs
  · exact { hlinked with
      gxSessId := hlinked.gxSessId.insert (a := u) (hget _) ⟨0, pdn', hpdn pdn', rfl⟩
      callId := hcallId }
  · exact { hlinked with callId := hcallId }

theorem genCcrRequest_ues (env : Env) (s : State) (u : UePtr) (c : UeContext) (pdn : Pdn) :
    ∃ gxSessId, (genCcrRequest env s u c pdn).ues = s.ues.set u { c with
        pdnHeap := c.pdnHeap.set 0 { pdn with
          callId := (s.callIdOffset + 1) % 2 ^ 32
          gxSessId } } := by
  refine ⟨env.timestamp ++ Nat.toDigits 10 ((s.callIdOffset + 1) % 2 ^ 32), ?_⟩
  simp only [genCcrRequest]
  split_ifs <;> rfl

theorem genCcrRequest_rules (env : Env) (s : State) (u : UePtr) (c : UeContext) (pdn : Pdn) :
    (genCcrRequest env s u c pdn).rules = s.rules := by
  simp only [genCcrRequest]
  split_ifs <;> rfl

theorem sat_startGx {t : State} {i : Fin maxBearers} {bearer : EpsBearer} (env : Env)
    (hs : s.Linked) (ht : t.Linked) (hues : t.ues = s.ues.alloc c) (hc : c.Single i pdn bearer)
    (hcall : t.pdnByCallId = s.pdnByCallId) (hgx : t.ueByGxSessId = s.ueByGxSessId) :
    Sat (startGx env t s.ues.next) s.Calm AnyFault := by
  have hget : t.ues.get s.ues.next = some c := by rw [hues, Heap.get_alloc, if_pos rfl]
  unfold startGx
  split_ifs
  · refine ⟨ht, ?_⟩
    rw [hues]
    exact path_alloc (.inr ⟨i, pdn, bearer, hc⟩)
  · simp only [hget, hc.tied.get, deref_some, pure_bind]
    obtain ⟨gxSessId, hset⟩ := genCcrRequest_ues env t s.ues.next c pdn
    generalize (t.callIdOffset + 1) % 2 ^ 32 = callId at hset
    have hsingle : ({ c with pdnHeap := c.pdnHeap.set 0 { pdn with callId, gxSessId } } :
        UeContext).Single i { pdn with callId, gxSessId } bearer :=
      { epsBearers := hc.epsBearers
        numPdns := hc.numPdns
        bearerBitmap := hc.bearerBitmap
        overwritten := hc.overwritten
        pdnHeap := by rw [hc.pdnHeap]; rfl
        bearerHeap := hc.bearerHeap
        slots := hc.slots
        numBearer := hc.numBearer
        ebi := hc.ebi
        pdn := hc.pdn }
    refine ⟨linked_genCcrRequest env ht hget hc.tied ?_ ?_, ?_⟩
    · rw [hcall]
      exact fun _ _ h => hs.callId.owner_ne_next h
    · rw [hgx]
      exact fun _ _ h => hs.gxSessId.owner_ne_next h
    · rw [hset, hues, Heap.set_alloc]
      exact path_alloc (.inr ⟨i, _, bearer, hsingle⟩)

theorem sat_processCreateSessReq (env : Env) (s : State) (csr : CreateSessReq) :
    Sat (processCreateSessReq env s csr) (fun r => r = (s, none) ∨ ∃ imsi, s.ueByImsi imsi = none ∧
        (r = (s.addUe { imsi, s11SgwGtpcTeid := s.nextTeid }, none) ∨
          ∃ i, slotIndex csr.ebi = .ok i ∧ r = (s.openContext env imsi csr.ebi i, some s.ues.next)))
      AnyFault := by
  unfold processCreateSessReq
  split_ifs with hselected
  · exact .inl rfl
  all_goals
    refine (sat_true _).bind fun imsi _ => ?_
    split_ifs with himsi
    · exact .inl rfl
    have hnone : s.ueByImsi imsi = none := by
      simpa using (not_or.mp himsi).1
    cases slotIndex csr.ebi with
    | error f => trivial
    | ok i => ?_
  · exact .inr ⟨imsi, hnone, .inl rfl⟩
  · exact .inr ⟨imsi, hnone, .inr ⟨i, rfl, rfl⟩⟩

theorem sat_startAttach (env : Env) (key : TransKey) (csr : CreateSessReq) (hs : s.Linked) :
    Sat (startAttach env s key csr) s.Calm AnyFault := by
  unfold startAttach
  simp only
  split_ifs with hoi
  · exact .of_ues { hs with } rfl
  · refine (sat_processCreateSessReq env s csr).bind ?_
    rintro _ (rfl | ⟨imsi, himsi, rfl | ⟨i, hi, rfl⟩⟩)
    · exact .of_ues { hs with } rfl
    · have hnew : ({ imsi, s11SgwGtpcTeid := s.nextTeid } : UeContext).New :=
        .inl ⟨rfl, rfl, rfl, rfl⟩
      exact ⟨{ hs.addUe hnew.wellFormed himsi with }, path_alloc hnew⟩
    · have hsingle := single_newContext hi imsi s.nextTeid env.upf env.qos [s.procedures.procs.next]
      have hwf : (newContext imsi s.nextTeid csr.ebi i env.upf env.qos).WellFormed :=
        UeContext.WellFormed.congr (.inr ⟨0, _, hsingle.tied⟩) rfl rfl rfl rfl
      have hget : (s.openContext env imsi csr.ebi i).ues.get s.ues.next =
          some (newContext imsi s.nextTeid csr.ebi i env.upf env.qos) := by
        change (s.ues.alloc _).get s.ues.next = _
        rw [Heap.get_alloc, if_pos rfl]
      have hadd := hs.addUe hwf himsi
      have hopen : (s.openContext env imsi csr.ebi i).Linked :=
        { hadd with pdnTeid := hadd.pdnTeid.insert (a := (s.ues.next, 0)) hget rfl }
      simp only [hget, deref_some, pure_bind]
      refine sat_startGx env hs ?_ ?_ hsingle rfl rfl
      · refine { hopen.setUe hget (UeContext.SameBearers.keeps ?_) with }
        exact ⟨rfl, rfl, rfl, rfl, rfl, rfl, fun _ => rfl, fun _ => rfl⟩
      · change (s.ues.alloc _).set s.ues.next _ = _
        rw [Heap.set_alloc]

theorem exists_tied_of_processErrorOccuredHandlerNew {teid ebi : ℕ} (hs : s.Linked)
    (hu : s.ueByTeid teid = some u) (h : processErrorOccuredHandlerNew s teid ebi = .ok s') :
    ∃ c p pdn, s.ues.get u = some c ∧ c.getPdn ebi = .ok p ∧ c.Tied p pdn := by
  simp only [processErrorOccuredHandlerNew, hu, deref_bind_eq_ok] at h
  obtain ⟨c, hc, h⟩ := h
  obtain ⟨p, hp, h⟩ := bind_eq_ok.mp h
  obtain ⟨pdn, hpdn, -⟩ := deref_bind_eq_ok.mp h
  exact ⟨c, p, pdn, hc, hp, (hs.context u c hc).tied hpdn⟩

theorem sat_processErrorOccuredHandlerNew (teid ebi : ℕ) (hs : s.Linked) :
    Sat (processErrorOccuredHandlerNew s teid ebi) s.Calm AnyFault := by
  cases hu : s.ueByTeid teid with
  | none =>
    simp only [processErrorOccuredHandlerNew, hu]
    exact State.Calm.of_ues hs rfl
  | some u =>
    refine sat_iff.mpr ⟨fun s' hs' => ?_, fun _ _ => trivial⟩
    obtain ⟨c, p, pdn, hc, hp, htied⟩ := exists_tied_of_processErrorOccuredHandlerNew hs hu hs'
    obtain ⟨bearers, hok⟩ := processErrorOccuredHandlerNew_eq_ok hu hc hp htied
    obtain ⟨-, w, -, ⟨-, -, rfl⟩ | ⟨hlt, rfl⟩⟩ := (hok s').mp hs'
    · exact ⟨{ hs.forget hc htied with }, path_free⟩
    · have hwithout : (s.withoutGx pdn).ues.get u = some c := by rwa [withoutGx_ues]
      have hquiet : c.Quiet { c.cleared p pdn bearers with pendingSubProcs := [] } :=
        .cleared htied hlt
      refine ⟨{ hs.withoutGx.setUe hwithout hquiet.keeps with }, ?_⟩
      change Path UeAction.act Allowed s.ues ((s.withoutGx pdn).ues.set u _)
      rw [withoutGx_ues]
      exact path_write hc hquiet

theorem sat_replaceOldContext (csr : CreateSessReq) (hs : s.Linked) :
    Sat (replaceOldContext s csr) s.Calm AnyFault := by
  unfold replaceOldContext
  cases s.ueByImsi csr.imsiDigits with
  | none => exact State.Calm.of_ues hs rfl
  | some u =>
    refine (sat_true _).bind fun c _ => (sat_true _).bind fun p _ => ?_
    exact sat_processErrorOccuredHandlerNew c.s11SgwGtpcTeid csr.ebi hs

theorem sat_handleCreateSessionRequest (env : Env) (key : TransKey) (csr : CreateSessReq)
    (hs : s.Linked) : Sat (handleCreateSessionRequest env s key csr) s.Calm AnyFault :=
  (sat_replaceOldContext csr hs).bind fun _ h₁ =>
    (sat_startAttach env key csr h₁.1).mono fun _ h₂ => h₁.trans h₂

theorem calm_releaseSession (hs : s.Linked) : Sat (releaseSession s u p) s.Calm AnyFault := by
  refine (sat_releaseSession fun c hc => hs.context u c hc).mono ?_
  rintro s' ⟨c, pdn, r, hc, htied, rfl⟩
  exact ⟨{ hs.forget hc htied with }, path_free⟩

/-- The event creates a bearer. -/
def Creates (s : State) : Event → Prop
  | .sessionEstablishment u p upfFound =>
    s.gxEnabled = false ∧ upfFound = true ∧ ∃ c, s.ues.get u = some c ∧ c.LacksPending p
  | .reAuthRequest u p release _ rules =>
    s.gxEnabled = false ∧ release = false ∧ ∃ c, s.ues.get u = some c ∧
      ∃ pdn, c.pdnHeap.get p = some pdn ∧
        (c.policy { pdn with pendingPccRules := pdn.pendingPccRules ++ rules }).needsBearer = true
  | _ => False

instance (s : State) : DecidablePred (Creates s)
  | .sessionEstablishment .. => inferInstanceAs (Decidable (_ ∧ _ ∧ _))
  | .reAuthRequest .. => inferInstanceAs (Decidable (_ ∧ _ ∧ _))
  | .config _ | .procedures _ | .queue .. | .createSessionRequest .. | .policy .. |
    .createBearerResponse .. | .release .. => instDecidableFalse

def State.Unnamed (s : State) : Prop := ∃ u c, s.ues.get u = some c ∧ c.Unnamed

def Effect (s : State) (e : Event) (s' : State) : Prop :=
  s'.Linked ∧ ((¬ Creates s e ∧ s.Calm s') ∨ (Creates s e ∧ s'.Unnamed))

theorem sat_storePolicy (update : PolicyUpdate) (hs : s.Linked) :
    Sat (storePolicy s u p update) s.Calm AnyFault := by
  unfold storePolicy
  refine sat_deref_bind fun c hc => ?_
  refine sat_deref_bind fun pdn hp => ?_
  refine (sat_true _).bind fun i _ => (sat_true _).bind fun b _ => ?_
  refine sat_deref_bind fun bearer hb => ?_
  have hbearer := UeContext.sameBearers_setBearer hb
    (show ({ bearer with qos := update.bearerQos.getD bearer.qos } : EpsBearer).record =
      bearer.record from rfl)
  have hboth := hbearer.trans (UeContext.sameBearers_setPdn hp (show ({ pdn with
        defaultBearerQos := update.policyQos.getD pdn.defaultBearerQos
        pendingPccRules := pdn.pendingPccRules ++ update.rules } : Pdn).record = pdn.record from rfl))
  have hcalm := hs.calm_setUe hc (.same hboth)
  exact ⟨{ hcalm.1 with }, hcalm.2⟩

theorem sat_processPfcpSessEstRequest (upfFound : Bool) (hs : s.Linked) :
    Sat (processPfcpSessEstRequest s u p upfFound)
      (Effect s (.sessionEstablishment u p upfFound)) AnyFault := by
  unfold processPfcpSessEstRequest
  refine sat_deref_bind fun c hc => ?_
  refine sat_deref_bind fun pdn hp => ?_
  refine (sat_true _).bind fun i _ => (sat_true _).bind fun b _ => ?_
  refine (sat_fillPfcpSessEstReq ..).bind ?_
  rintro ⟨r, c'⟩ ⟨hkeeps, heffect⟩
  have hlinked := hs.setUe hc hkeeps
  have hget : (s.ues.set u c').get u = some c' := by rw [Heap.get_set hc, if_pos rfl]
  obtain ⟨pdn', hp', hseid, -, -⟩ := hkeeps.pdn p pdn hp
  have hlinked' : ({ s.setUe u c' with
      rules := r, ueBySeid := s.ueBySeid.insert pdn.seid u } : State).Linked :=
    { hlinked with seid := hlinked.seid.insert (a := u) hget ⟨p, pdn', hp', hseid⟩ }
  rcases heffect with ⟨hno, hrules⟩ | ⟨⟨hupf, hlacks⟩, hgx, hunnamed⟩
  · refine ⟨hlinked', .inl ⟨?_, hlinked', path_write hc (.same hrules.toSameBearers)⟩⟩
    rintro ⟨-, hupf, c₁, hc₁, hlacks⟩
    cases hc.symm.trans hc₁
    exact hno ⟨hupf, hlacks⟩
  · exact ⟨hlinked', .inr ⟨⟨hgx, hupf, c, hc, hlacks⟩, u, c', hget, hunnamed⟩⟩

theorem sat_processRarRequestHandler (release admitted : Bool) (rules : List PccRule)
    (hs : s.Linked) :
    Sat (processRarRequestHandler s u p release admitted rules)
      (Effect s (.reAuthRequest u p release admitted rules)) AnyFault := by
  unfold processRarRequestHandler
  refine sat_deref_bind fun c hc => ?_
  refine sat_deref_bind fun pdn hp => ?_
  have hset := UeContext.rulesOnly_setPending hp (pdn.pendingPccRules ++ rules)
  split_ifs with hrelease
  · have hcalm := hs.calm_setUe hc (.same hset.toSameBearers)
    refine ⟨hcalm.1, .inl ⟨?_, hcalm⟩⟩
    rintro ⟨-, hno, -⟩
    rw [hrelease] at hno
    cases hno
  · refine (sat_activateBearers ..).bind ?_
    rintro ⟨r, c'⟩ ⟨hkeeps, pdn₁, hp₁, heffect⟩
    refine (sat_true _).bind fun pdn₂ _ => (sat_true _).bind fun found _ => ?_
    cases found with
    | false => trivial
    | true =>
      have hlinked := hs.setUe hc (hset.keeps.trans hkeeps)
      have hlinked' : ({ s.setUe u c' with rules := r } : State).Linked := { hlinked with }
      have hget : (s.ues.set u c').get u = some c' := by rw [Heap.get_set hc, if_pos rfl]
      change (c.pdnHeap.set p _).get p = _ at hp₁
      rw [Heap.get_set hp, if_pos rfl] at hp₁
      cases hp₁
      rcases heffect with ⟨hno, hsame⟩ | ⟨hneeds, hgx, hunnamed⟩
      · refine ⟨hlinked', .inl ⟨?_, hlinked', path_write hc (.same ?_)⟩⟩
        · rintro ⟨-, -, c₁, hc₁, pdn₁, hp₁, hneeds⟩
          cases hc.symm.trans hc₁
          cases hp.symm.trans hp₁
          exact absurd hneeds (Bool.eq_false_iff.mp hno)
        · simp only at hsame
          rw [hsame]
          exact hset.toSameBearers
      · refine ⟨hlinked', .inr ⟨⟨hgx, ?_, c, hc, pdn, hp, hneeds⟩, u, c', hget, hunnamed⟩⟩
        exact Bool.eq_false_of_not_eq_true hrelease

theorem sat_processCreateBearerRsp (ebi : ℕ) (hs : s.Linked) :
    Sat (processCreateBearerRsp s u ebi) s.Calm AnyFault := by
  unfold processCreateBearerRsp
  refine sat_deref_bind fun c hc => ?_
  cases hi : slotIndex ebi with
  | error f => trivial
  | ok i =>
    rw [show (Except.ok i : Except Fault _) = pure i from rfl, pure_bind]
    cases hb : c.epsBearers i with
    | none => exact .of_ues hs rfl
    | some b =>
      refine sat_deref_bind fun bearer hget => ?_
      rw [slotIndex_eq_ok hi]
      exact hs.calm_setUe hc (.named hb hget)

theorem sat_step (e : Event) (hs : s.Linked) : Sat (step s e) (Effect s e) AnyFault := by
  have hcalm {e : Event} (he : ¬ Creates s e) (h : Sat (step s e) s.Calm AnyFault) :
      Sat (step s e) (Effect s e) AnyFault := h.mono fun s' hs' => ⟨hs'.1, .inl ⟨he, hs'⟩⟩
  cases e with
  | config gx => exact hcalm id (State.Calm.of_ues { hs with } rfl)
  | procedures w => exact hcalm id (State.Calm.of_ues { hs with } rfl)
  | queue u queue =>
    refine hcalm id (sat_deref_bind fun c hc => ?_)
    exact hs.calm_setUe hc (.same ⟨rfl, rfl, rfl, rfl, rfl, rfl, fun _ => rfl, fun _ => rfl⟩)
  | createSessionRequest env key csr => exact hcalm id (sat_handleCreateSessionRequest env key csr hs)
  | policy u p update => exact hcalm id (sat_storePolicy update hs)
  | sessionEstablishment u p upfFound => exact sat_processPfcpSessEstRequest upfFound hs
  | reAuthRequest u p release admitted rules =>
    exact sat_processRarRequestHandler release admitted rules hs
  | createBearerResponse u ebi => exact hcalm id (sat_processCreateBearerRsp ebi hs)
  | release u p => exact hcalm id (calm_releaseSession hs)

theorem of_next {e : Event} {P : State → Prop} {E : Fault → Prop} (h : Sat (step s e) P E)
    (hnext : next s e = some s') : P s' := by
  unfold next at hnext
  cases hse : step s e with
  | error f =>
    rw [hse] at hnext
    cases hnext
  | ok t =>
    rw [hse] at hnext h
    exact Option.some.inj hnext ▸ h

theorem effect_of_next {e : Event} (hs : s.Linked) (h : next s e = some s') : Effect s e s' :=
  of_next (sat_step e hs) h

/-- **The tables are in order in every state of every run.** -/
theorem linked_of_run {gx : Bool} {es : List Event}
    (h : final next (initial gx) es = some s) : s.Linked :=
  final_invariant (fun _ _ _ ht hstep => (effect_of_next ht hstep).1) (linked_initial gx) h

/-- What every event that is allowed keeps in a linked state holds all along a guarded run. -/
theorem linked_and_of_guarded {I : State → Prop} {G : State → Event → Prop} {gx : Bool}
    {es : List Event} (hstep : ∀ s e t, s.Linked → I s → G s e → next s e = some t → I t)
    (hinit : I (initial gx)) (h : Guarded next G (initial gx) es) :
    ∀ s ∈ trace next (initial gx) es, s.Linked ∧ I s := by
  refine trace_invariant (I := fun s => s.Linked ∧ I s) ?_ ⟨linked_initial gx, hinit⟩ h
  rintro s e t ⟨hlinked, hs⟩ he ht
  exact ⟨(effect_of_next hlinked ht).1, hstep s e t hlinked hs he ht⟩

end Spgw.Bearer
