/-
# The gauge of active subscribers

`NUM_UE_SPGW_ACTIVE_SUBSCRIBERS` is a gauge that four places of the program write.
-/

import Spgw.Gauge.Steady

namespace Spgw.Session

open Machine

/-- What arrives. -/
inductive Input
  | event (e : Event)
  | deletionRefused (p : ProcId)

def Input.toEvent : Input → Event
  | .event e => e
  | .deletionRefused p => .sessionDeleteResponse p true

/-- The UE context whose attach an input completes (`proc_initial_attach_success`). -/
def attachedBy (s : State) : Input → Option UePtr
  | .event (.sessionEstResponse p rsp) => (s.procs.get p).bind fun proc =>
    if proc.pfcpTrans ≠ none ∧ rsp.accepted = true ∧
        s.ueByTeid (ueSessId rsp.seid) ≠ none then proc.ueContext else none
  | _ => none

def idleUe (s : State) (u : UePtr) : Bool :=
  (s.ues.get u).any fun context =>
    !context.pendingSubProcs.any fun q => (s.procs.get q).any (·.running)

def gaugeChange (s : State) : Input → ℤ
  | .event (.createSessionRequest _ peer csr) =>
    if validateCsreqMsg csr = 0 ∧ (s.gtpTrans ⟨peer, csr.seq⟩).isSome = false ∧
        (s.ueByImsi csr.imsiDigits).isSome then -1 else 0
  | .event (.sessionEstResponse p rsp) =>
    if (attachedBy s (.event (.sessionEstResponse p rsp))).isSome then 1 else 0
  | .event (.sessionDeleteResponse p sent) =>
    if (s.procs.get p).any (·.pfcpTrans ≠ none) ∧ sent then -1 else 0
  | .event (.nwInitDetachEnd u) => if idleUe s u then -1 else 0
  | _ => 0

structure Subscribers where
  session : State
  numUeSpgwActiveSubscribers : ℤ := 0
  attached : List UePtr := []

namespace Subscribers

def step (cfg : Config) (x : Subscribers) (i : Input) : Except Fault Subscribers := do
  let session ← Session.step cfg x.session i.toEvent
  return {
    session
    numUeSpgwActiveSubscribers := x.numUeSpgwActiveSubscribers + gaugeChange x.session i
    attached := x.attached ++ (attachedBy x.session i).toList }

def initial (dynamicPool : List Ipv4) (staticPool : StaticPool) : Subscribers :=
  { session := Session.initial dynamicPool staticPool }

def active (x : Subscribers) : List UePtr :=
  x.attached.filter fun u => (x.session.ues.get u).isSome

/-- The gauge is the number of active subscribers. -/
def GaugeExact (x : Subscribers) : Prop :=
  x.numUeSpgwActiveSubscribers = x.active.length

instance (x : Subscribers) : Decidable x.GaugeExact :=
  inferInstanceAs (Decidable (x.numUeSpgwActiveSubscribers = x.active.length))

end Subscribers

variable {attached : List UePtr} {s : State} {p : ProcId} {proc : Procedure}

theorem endDetach_closes (h : s.Roster attached) (hp : s.procs.get p = some proc) :
    Sat (endDetach s p) (fun t => ∃ u, proc.ueContext = some u ∧ Closes u s t) AnyFault := by
  unfold endDetach
  refine sat_deref_bind fun proc' hp' => ?_
  cases hp.symm.trans hp'
  refine (unlinkProc_spec trivial (Or.inr trivial)).bind fun t ht => ?_
  refine (sat_assertSome fun _ => trivial).bind fun u hu => ?_
  refine (sat_assertSome fun _ => trivial).bind fun q _ => ?_
  rcases ht with ⟨hnone, -⟩ | ⟨v, context, hv, hctx, rfl⟩
  · rw [hnone] at hu
    cases hu
  cases hu.symm.trans hv
  refine (releaseSession_closes _ u q ?_).mono fun t ht =>
    ⟨u, hu, ht.of_unlinked hp hu hctx rfl rfl rfl⟩
  intro c hc r hr b hb
  dsimp only at hc hb
  rw [Heap.get_set hctx, if_pos rfl] at hc
  cases hc
  exact (h.queue u context hctx r (List.mem_of_mem_erase hr)).2 b (Heap.get_of_get_free hb)

theorem endAttachSuccess_steady (attached : List UePtr) (h : s.Roster attached)
    (hp : s.procs.get p = some proc) (htype : proc.procType = .initialPdnAttach)
    (hwait : ∀ u ∈ proc.ueContext, WaitingServed s u) :
    Sat (endAttachSuccess s p) (fun t => ∃ u, proc.ueContext = some u ∧
      (s.ues.get u).isSome ∧ Steady (attached ++ [u]) s t) AnyFault := by
  unfold endAttachSuccess
  refine sat_deref_bind fun proc' hp' => ?_
  cases hp.symm.trans hp'
  refine sat_deref_bind fun u hue => ?_
  refine (unlinkProc_spec trivial (Or.inr trivial)).bind ?_
  rintro t (⟨hnone, -⟩ | ⟨v, context, hv, hctx, rfl⟩)
  · rw [hue] at hnone
    cases hnone
  cases hue.symm.trans hv
  refine sat_deref_bind fun context' hctx' => ?_
  simp only [Heap.get_set hctx, if_true, Option.some.injEq] at hctx'
  subst hctx'
  have hsucceed := h.succeed hp htype hue hctx
  refine Sat.mono (startWaiting_steady hsucceed _ ?_) fun t ht =>
    ⟨u, hue, by simp [hctx], ht.roster, fun w hw => (ht.live w hw).trans ?_⟩
  · intro q hq waiting hwaiting hrunning
    have hget := Heap.get_of_get_free hwaiting
    have hmem := List.mem_of_mem_erase hq
    have hback := (h.queue u context hctx q hmem).2 waiting hget
    refine ⟨fun w hw => ?_, fun hdetach dsr hdsr => ?_⟩
    · cases hback.symm.trans hw
      exact List.mem_append_right _ (List.mem_singleton_self u)
    · refine Eq.trans (deletable_congr ?_ (uePdn_set hctx ?_) ?_ dsr)
        (hwait u hue context hctx q hmem waiting hget hrunning hdetach dsr hdsr)
      · rfl
      · rfl
      · exact fun _ => rfl
  · dsimp only
    rw [Heap.get_set hctx]
    split_ifs with hwu
    · rw [hwu, hctx]
      rfl
    · rfl

inductive Counts (attached : List UePtr) (s t : State) : ℤ → Option UePtr → Prop
  | steady (h : Steady attached s t) : Counts attached s t 0 none
  | closed {u : UePtr} {m m' : State} (hmem : u ∈ attached) (hbefore : Steady attached s m)
      (hclose : Closes u m m') (hafter : Steady attached m' t) : Counts attached s t (-1) none
  | opened {u : UePtr} (hlive : (s.ues.get u).isSome) (hnew : u ∉ attached)
      (h : Steady (attached ++ [u]) s t) : Counts attached s t 1 (some u)

/-- A request that replaces a UE context replaces an attached one, which its TEID finds; a Delete
Session Request carries an LBI, and can be served when the attach it waits for succeeds; the UPF
neither refuses a deletion nor lets it time out. -/
def Regular (cfg : Config) (x : Subscribers) : Input → Prop
  | .event (.createSessionRequest _ peer csr) =>
    validateCsreqMsg csr = 0 → (x.session.gtpTrans ⟨peer, csr.seq⟩).isSome = false →
      ∀ u ∈ x.session.ueByImsi csr.imsiDigits, u ∈ x.attached ∧
        ∀ context ∈ x.session.ues.get u,
          x.session.ueByTeid context.s11SgwGtpcTeid = some u
  | .event (.sessionEstResponse p _) =>
    ∀ proc ∈ x.session.procs.get p, ∀ u ∈ proc.ueContext, WaitingServed x.session u
  | .event (.deleteSessionRequest _ dsr) => dsr.lbiLen ≠ 0
  | .event (.pfcpTimeout p) =>
    ∀ proc ∈ x.session.procs.get p, proc.procType ≠ .initialPdnAttach →
      ∀ n ∈ proc.pfcpTrans, n + 1 < cfg.requestTries
  | .deletionRefused p => ∀ proc ∈ x.session.procs.get p, proc.pfcpTrans = none
  | _ => True

instance (cfg : Config) (x : Subscribers) (i : Input) : Decidable (Regular cfg x i) :=
  match i with
  | .event (.createSessionRequest _ peer csr) =>
    inferInstanceAs (Decidable (validateCsreqMsg csr = 0 →
      (x.session.gtpTrans ⟨peer, csr.seq⟩).isSome = false →
      ∀ u ∈ x.session.ueByImsi csr.imsiDigits, u ∈ x.attached ∧
        ∀ context ∈ x.session.ues.get u, x.session.ueByTeid context.s11SgwGtpcTeid = some u))
  | .event (.sessionEstResponse p _) =>
    inferInstanceAs (Decidable (∀ proc ∈ x.session.procs.get p, ∀ u ∈ proc.ueContext,
      WaitingServed x.session u))
  | .event (.deleteSessionRequest _ dsr) => inferInstanceAs (Decidable (dsr.lbiLen ≠ 0))
  | .event (.pfcpTimeout p) =>
    inferInstanceAs (Decidable (∀ proc ∈ x.session.procs.get p,
      proc.procType ≠ .initialPdnAttach → ∀ n ∈ proc.pfcpTrans, n + 1 < cfg.requestTries))
  | .deletionRefused p =>
    inferInstanceAs (Decidable (∀ proc ∈ x.session.procs.get p, proc.pfcpTrans = none))
  | .event (.ccaInitial ..) | .event (.gxTimeout _) | .event (.sessionDeleteResponse ..)
  | .event (.nwInitDetachEnd _) | .event (.assocSetupResponse ..) | .event (.assocSetupSuccess _)
  | .event (.assocSetupFailure _) | .event (.discover ..) | .event (.assocTimer ..)
  | .event (.upfDown _) => isTrue trivial

theorem handlePfcpSessionEstResponse_counts (h : s.Roster attached) (p : ProcId)
    (rsp : SessEstabRsp)
    (hwait : ∀ proc ∈ s.procs.get p, ∀ u ∈ proc.ueContext, WaitingServed s u) :
    Sat (handlePfcpSessionEstResponse s p rsp)
      (fun t => Counts attached s t (gaugeChange s (.event (.sessionEstResponse p rsp)))
        (attachedBy s (.event (.sessionEstResponse p rsp)))) AnyFault := by
  unfold handlePfcpSessionEstResponse
  refine sat_deref_bind fun proc hp => ?_
  have hnone (hnot : ¬(proc.pfcpTrans ≠ none ∧ rsp.accepted = true ∧
      s.ueByTeid (ueSessId rsp.seid) ≠ none)) :
      attachedBy s (.event (.sessionEstResponse p rsp)) = none := by
    simp only [attachedBy, hp, Option.bind_some]
    rw [if_neg hnot]
  have hsteady {t : State} (ht : Steady attached s t)
      (hnot : ¬(proc.pfcpTrans ≠ none ∧ rsp.accepted = true ∧
        s.ueByTeid (ueSessId rsp.seid) ≠ none)) :
      Counts attached s t (gaugeChange s (.event (.sessionEstResponse p rsp)))
        (attachedBy s (.event (.sessionEstResponse p rsp))) := by
    rw [gaugeChange, hnone hnot]
    exact .steady ht
  by_cases hpfcp : proc.pfcpTrans = none
  · rw [if_pos hpfcp]
    exact sat_pure (hsteady (.refl h) fun hnot => hnot.1 hpfcp)
  rw [if_neg hpfcp]
  refine (sat_assert fun _ => trivial).bind fun _ hassert => ?_
  have htype : proc.procType = .initialPdnAttach := hassert
  have hset : (s.setProc p { proc with
      pfcpTrans := none
      msgInfo := { msgType := .pfcpSessionEstablishmentResponse } }).Roster attached :=
    h.write hp ((h.proc p proc hp).congr rfl rfl rfl id (fun hb => absurd rfl hb) id) rfl rfl
  have hstart := Steady.of_ues_eq (s := s) hset rfl
  by_cases hacc : rsp.accepted = false
  · rw [if_pos hacc]
    refine sat_deref_bind fun u _ => ?_
    refine sat_deref_bind fun context _ => ?_
    refine sat_deref_bind fun service _ => ?_
    refine (procInitialAttachFailure_steady hset (get_setProc hp _) htype _).bind fun t ht => ?_
    refine sat_pure (hsteady ?_ fun hnot => by simp [hacc] at hnot)
    split_ifs
    · exact (kept_steady attached s).forgetAssociation (hstart.trans ht) service
    · exact hstart.trans ht
  · rw [if_neg hacc]
    refine (processPfcpSessEstResp_spec _ _ rsp).bind ?_
    rintro ⟨t, cause⟩ (⟨hteid, hr⟩ | ⟨hteid, q, pdn, hq, hpdn, hr⟩)
    · cases hr
      dsimp only
      rw [if_pos (by decide : causeContextNotFound ≠ 0)]
      refine (procInitialAttachFailure_steady hset (get_setProc hp _) htype _).mono fun t ht => ?_
      exact hsteady (hstart.trans ht) fun hnot => hnot.2.2 hteid
    · cases hr
      dsimp only
      rw [if_neg (by decide : ¬(0 ≠ 0))]
      refine sat_deref_bind fun trans _ => ?_
      refine Sat.mono (endAttachSuccess_steady attached ?_ (get_setProc hp _) htype ?_) ?_
      · exact hset
      · -- The address the UPF names, and the attach itself, are not what a detach reads.
        intro u hue context hctx r hr waiting hwaiting hrunning hdetach dsr hdsr
        have hwaiting' : s.procs.get r = some waiting := by
          have hget := (Heap.get_set (q := r) hp).symm.trans hwaiting
          split_ifs at hget with hrp
          · rw [← Option.some.inj hget] at hdetach
            simp [htype] at hdetach
          · exact hget
        refine Eq.trans (deletable_congr ?_ ?_ (map_bearerKind_setPdn hpdn rsp) dsr)
          (hwait proc hp u hue context hctx r hr waiting hwaiting' hrunning hdetach dsr hdsr)
        · rfl
        · rfl
      · rintro t ⟨u, hue, hlive, ht⟩
        have hatt : attachedBy s (.event (.sessionEstResponse p rsp)) = some u := by
          simp only [attachedBy, hp, Option.bind_some]
          rw [if_pos ⟨hpfcp, by simpa using hacc, hteid⟩]
          exact hue
        rw [gaugeChange, hatt]
        obtain ⟨-, hnew, -⟩ := ((h.proc p proc hp).attach htype).2 u hue
        exact .opened hlive hnew ⟨ht.roster, ht.live⟩

theorem handlePfcpSessionDeleteResponse_counts (h : s.Roster attached) (p : ProcId) (sent : Bool) :
    Sat (handlePfcpSessionDeleteResponse s p sent)
      (fun t => Counts attached s t (gaugeChange s (.event (.sessionDeleteResponse p sent))) none)
      AnyFault := by
  unfold handlePfcpSessionDeleteResponse
  refine sat_deref_bind fun proc hp => ?_
  by_cases hpfcp : proc.pfcpTrans = none
  · rw [if_pos hpfcp]
    have hchange : gaugeChange s (.event (.sessionDeleteResponse p sent)) = 0 := by
      simp [gaugeChange, hp, hpfcp]
    rw [hchange]
    exact sat_pure (.steady (.refl h))
  rw [if_neg hpfcp]
  refine (sat_assert fun _ => trivial).bind fun _ htype => ?_
  have hset : (s.setProc p { proc with
      pfcpTrans := none
      msgInfo := { msgType := .pfcpSessionDeletionResponse } }).Roster attached :=
    h.write hp ((h.proc p proc hp).congr rfl rfl rfl id (fun hb => absurd rfl hb) id) rfl rfl
  have hstart := Steady.of_ues_eq (s := s) hset rfl
  cases sent with
  | false =>
    have hchange : gaugeChange s (.event (.sessionDeleteResponse p false)) = 0 := by
      simp [gaugeChange]
    rw [hchange]
    exact sat_pure (.steady hstart)
  | true =>
    have hchange : gaugeChange s (.event (.sessionDeleteResponse p true)) = -1 := by
      simp [gaugeChange, hp, hpfcp]
    rw [hchange]
    refine (endDetach_closes hset (get_setProc hp _)).mono ?_
    rintro t ⟨u, hu, hclose⟩
    have hmem : u ∈ attached := (h.proc p proc hp).detach htype hpfcp u hu
    exact .closed hmem hstart hclose (.refl (hclose.roster hset))

theorem pfcpTimeout_steady (h : s.Roster attached) (cfg : Config) (p : ProcId)
    (hok : ∀ proc ∈ s.procs.get p, proc.procType ≠ .initialPdnAttach →
      ∀ n ∈ proc.pfcpTrans, n + 1 < cfg.requestTries) :
    Sat (pfcpTimeout cfg s p) (Steady attached s) AnyFault := by
  unfold pfcpTimeout
  refine sat_deref_bind fun proc hp => ?_
  split
  · exact sat_pure (.refl h)
  next n hn =>
  have hpfcp (b : Procedure) (hb : b = { proc with pfcpTrans := some (n + 1), msgInfo := b.msgInfo }) :
      (s.setProc p b).Roster attached := by
    refine h.write hp ?_ (by rw [hb]) (by rw [hb])
    refine (h.proc p proc hp).congr (by rw [hb]) (by rw [hb]) (by rw [hb]) ?_ (fun _ => Or.inl ?_) ?_
    · rw [hb]
      exact id
    · simp [hn]
    · rw [hb]
      exact id
  by_cases htype : proc.procType = .initialPdnAttach
  · rw [if_pos htype]
    refine (setProcMsg_spec s p _).bind ?_
    rintro t ⟨b, hb, rfl⟩
    cases hp.symm.trans hb
    have ht := h.write hp (rostered_setMsg h hp { msgType := .reserved }) rfl rfl
    split_ifs
    · refine sat_deref_bind fun b hb => sat_pure ?_
      cases (get_setProc hp _).symm.trans hb
      refine .of_ues_eq ?_ rfl
      have hset := hpfcp { proc with pfcpTrans := some (n + 1), msgInfo := { msgType := .reserved } }
        rfl
      simp only [State.setProc, Heap.set_set] at hset ⊢
      exact hset
    · exact (procInitialAttachFailure_steady ht (get_setProc hp _) htype _).mono fun _ =>
        (Steady.of_ues_eq (s := s) ht rfl).trans
  · rw [if_neg htype]
    refine sat_assert_bind ?_
    rw [if_pos (hok proc hp htype n hn)]
    exact sat_pure (.of_ues_eq (hpfcp _ rfl) rfl)

theorem nwInitDetachEnd_counts (h : s.Roster attached) (u : UePtr) :
    Sat (nwInitDetachEnd s u)
      (fun t => Counts attached s t (gaugeChange s (.event (.nwInitDetachEnd u))) none)
      AnyFault := by
  unfold nwInitDetachEnd
  refine sat_deref_bind fun context hctx => ?_
  refine sat_deref_bind fun q hq => ?_
  split_ifs with hrunning
  · have hchange : gaugeChange s (.event (.nwInitDetachEnd u)) = 0 := by
      simp only [gaugeChange, idleUe, hctx, Option.any_some, hrunning]
      rfl
    rw [hchange]
    exact sat_pure (.steady (.refl h))
  · have hchange : gaugeChange s (.event (.nwInitDetachEnd u)) = -1 := by
      rw [Bool.not_eq_true] at hrunning
      simp only [gaugeChange, idleUe, hctx, Option.any_some, hrunning]
      rfl
    rw [hchange]
    -- The attach would be running.
    have hmem : u ∈ attached := by
      refine (h.ue u context hctx (by simp [hq])).resolve_right ?_
      rintro ⟨r, hr, proc, hproc, htype, -⟩
      refine hrunning (List.any_eq_true.mpr ⟨r, hr, ?_⟩)
      simp [hproc, ((h.proc r proc hproc).attach htype).1]
    refine (releaseSession_closes s u q fun c hc r hr => (h.queue u c hc r hr).2).mono fun t ht => ?_
    exact .closed hmem (.refl h) ht (.refl (ht.roster h))

theorem handleCreateSessionRequest_counts (h : s.Roster attached) (cfg : Config) (env : Env)
    (peer : Peer) (csr : CreateSessReq)
    (hok : validateCsreqMsg csr = 0 → (s.gtpTrans ⟨peer, csr.seq⟩).isSome = false →
      ∀ u ∈ s.ueByImsi csr.imsiDigits, u ∈ attached ∧
        ∀ context ∈ s.ues.get u, s.ueByTeid context.s11SgwGtpcTeid = some u) :
    Sat (handleCreateSessionRequest cfg env s peer csr)
      (fun t => Counts attached s t (gaugeChange s (.event (.createSessionRequest env peer csr)))
        none) AnyFault := by
  unfold handleCreateSessionRequest
  by_cases hvalid : validateCsreqMsg csr = 0
  · rw [if_neg (not_not.mpr hvalid)]
    cases hknown : (s.gtpTrans ⟨peer, csr.seq⟩).isSome with
    | true =>
      have hchange : gaugeChange s (.event (.createSessionRequest env peer csr)) = 0 := by
        simp [gaugeChange, hknown]
      rw [hchange]
      exact sat_pure (.steady (.refl h))
    | false =>
      rw [if_neg (by simp)]
      unfold replaceOldContext
      cases hu : s.ueByImsi csr.imsiDigits with
      | none =>
        have hchange : gaugeChange s (.event (.createSessionRequest env peer csr)) = 0 := by
          simp [gaugeChange, hu]
        rw [hchange]
        exact (startAttach_steady h cfg env _ csr).mono fun t ht => .steady ht
      | some u =>
        have hchange : gaugeChange s (.event (.createSessionRequest env peer csr)) = -1 := by
          simp [gaugeChange, hu, hvalid, hknown]
        rw [hchange]
        obtain ⟨hmem, hteid⟩ := hok hvalid hknown u hu
        dsimp only
        unfold replaceContext
        rw [bind_assoc]
        refine sat_deref_bind fun context hctx => ?_
        rw [bind_assoc]
        refine (sat_true (getPdn s context csr.ebi)).bind fun _ _ => ?_
        rw [hteid context hctx]
        dsimp only
        rw [bind_assoc]
        refine sat_deref_bind fun context' hctx' => ?_
        rw [bind_assoc]
        refine (sat_true (getPdn s context' csr.ebi)).bind fun q _ => ?_
        have hforget := (kept_steady attached s).forgetPending (.refl h) context'.upfContext
          context'.pendingSubProcs
        obtain ⟨upfs, heq⟩ :=
          exists_forgetPending_eq s context'.upfContext context'.pendingSubProcs
        rw [heq] at hforget ⊢
        refine Sat.bind (releaseSession_closes _ u q ?_) fun m hm => ?_
        · exact fun c hc r hr => (h.queue u c hc r hr).2
        refine (startAttach_steady (hm.roster hforget.roster) cfg env _ csr).mono fun t ht => ?_
        exact .closed hmem hforget hm ht
  · rw [if_pos hvalid]
    have hchange : gaugeChange s (.event (.createSessionRequest env peer csr)) = 0 := by
      simp [gaugeChange, hvalid]
    rw [hchange]
    refine (sat_assert fun _ => trivial).bind fun _ _ => sat_pure (.steady ?_)
    exact .of_ues_eq h rfl

/-- **What an input does to the subscribers and to the gauge.** -/
theorem step_counts (cfg : Config) {x : Subscribers} {i : Input}
    (h : x.session.Roster x.attached) (hok : Regular cfg x i) :
    Sat (step cfg x.session i.toEvent)
      (fun t => Counts x.attached x.session t (gaugeChange x.session i) (attachedBy x.session i))
      AnyFault := by
  have hsteady {t : State} (ht : Steady x.attached x.session t) :
      Counts x.attached x.session t 0 none := .steady ht
  have hkept := kept_steady x.attached x.session
  have hrefl : Steady x.attached x.session x.session := .refl h
  cases i with
  | deletionRefused p =>
    change Sat (handlePfcpSessionDeleteResponse x.session p true) _ _
    unfold handlePfcpSessionDeleteResponse
    refine sat_deref_bind fun proc hp => ?_
    rw [if_pos (hok proc hp)]
    exact sat_pure (hsteady hrefl)
  | event e =>
    cases e with
    | createSessionRequest env peer csr =>
      exact handleCreateSessionRequest_counts h cfg env peer csr hok
    | ccaInitial p accepted dns =>
      exact (hkept.handleCcaInitialMsg hrefl dns fun _ _ _ _ _ _ => trivial).mono fun _ => hsteady
    | gxTimeout p => exact (hkept.processGxCcriTimeout hrefl p).mono fun _ => hsteady
    | sessionEstResponse p rsp => exact handlePfcpSessionEstResponse_counts h p rsp hok
    | deleteSessionRequest peer dsr =>
      exact (handleDeleteSessionRequest_steady h peer hok).mono fun _ => hsteady
    | sessionDeleteResponse p sent => exact handlePfcpSessionDeleteResponse_counts h p sent
    | pfcpTimeout p => exact (pfcpTimeout_steady h cfg p hok).mono fun _ => hsteady
    | nwInitDetachEnd u => exact nwInitDetachEnd_counts h u
    | assocSetupResponse service accepted ueip =>
      exact hsteady (hkept.handlePfcpAssociationSetupResponse hrefl service accepted ueip)
    | assocSetupSuccess service =>
      exact (hkept.upfPfcpSetupSuccess hrefl service).mono fun _ => hsteady
    | assocSetupFailure service =>
      exact (hkept.upfPfcpSetupFailure hrefl service).mono fun _ => hsteady
    | discover service glob dns => exact hsteady (hkept.getUpfContext hrefl service glob dns)
    | assocTimer service dns =>
      exact (hkept.initiatePfcpAssociation hrefl service dns).mono fun _ => hsteady
    | upfDown service => exact hsteady (hkept.upfDownEvent hrefl service)

theorem Steady.length_filter {t : State} (h : Steady attached s t) :
    (attached.filter fun u : UePtr => (t.ues.get u).isSome).length =
      (attached.filter fun u : UePtr => (s.ues.get u).isSome).length := by
  rw [List.filter_congr h.live]

theorem Closes.length_filter {u : UePtr} {t : State} (h : Closes u s t) (hmem : u ∈ attached)
    (hnodup : attached.Nodup) :
    (attached.filter fun v : UePtr => (t.ues.get v).isSome).length + 1 =
      (attached.filter fun v : UePtr => (s.ues.get v).isSome).length := by
  have herase : (attached.filter fun v : UePtr => (t.ues.get v).isSome) =
      (attached.filter fun v : UePtr => (s.ues.get v).isSome).erase u := by
    rw [(hnodup.filter _).erase_eq_filter, List.filter_filter]
    refine List.filter_congr fun v _ => ?_
    by_cases hv : v = u
    · simp [hv, h.gone]
    · simp [hv, h.isSome_of_ne hv]
  have hu : u ∈ attached.filter fun v : UePtr => (s.ues.get v).isSome :=
    List.mem_filter.mpr ⟨hmem, h.live⟩
  rw [herase, List.length_erase_of_mem hu]
  exact Nat.sub_add_cancel (List.length_pos_of_mem hu)

structure Subscribers.Counted (x : Subscribers) : Prop where
  roster : x.session.Roster x.attached
  exact : x.GaugeExact

theorem Subscribers.counted_step (cfg : Config) {x : Subscribers} {i : Input} (h : x.Counted)
    (hok : Regular cfg x i) : Sat (x.step cfg i) Subscribers.Counted AnyFault := by
  have hexact := h.exact
  unfold GaugeExact active at hexact
  unfold Subscribers.step
  refine (step_counts cfg h.roster hok).bind fun t ht => sat_pure ?_
  cases hnew : attachedBy x.session i with
  | none =>
    rw [hnew] at ht
    generalize gaugeChange x.session i = change at ht ⊢
    cases ht with
    | steady hsteady =>
      refine ⟨by simpa using hsteady.roster, ?_⟩
      simp [GaugeExact, active, hexact, hsteady.length_filter]
    | closed hmem hbefore hclose hafter =>
      refine ⟨by simpa using hafter.roster, ?_⟩
      have hcount := hclose.length_filter hmem h.roster.nodup
      rw [hbefore.length_filter, ← hafter.length_filter] at hcount
      simp only [GaugeExact, active, Option.toList_none, List.append_nil, hexact]
      omega
  | some u =>
    rw [hnew] at ht
    generalize gaugeChange x.session i = change at ht ⊢
    cases ht with
    | opened hlive hfresh hsteady =>
      refine ⟨hsteady.roster, ?_⟩
      simp only [GaugeExact, active, Option.toList_some, hexact]
      rw [hsteady.length_filter, List.filter_append]
      simp [hlive]

theorem Subscribers.counted_initial (dynamicPool : List Ipv4) (staticPool : StaticPool) :
    (Subscribers.initial dynamicPool staticPool).Counted where
  roster :=
    { nodup := List.nodup_nil
      old := fun u hu => by cases hu
      proc := fun p proc hp => by simp [initial, Session.initial, Heap.get] at hp
      single := fun p q u hp => by
        obtain ⟨proc, hproc, -⟩ := hp
        simp [initial, Session.initial, Heap.get] at hproc
      pending := fun service upf hupf => by cases hupf
      queue := fun u context hu => by simp [initial, Session.initial, Heap.get] at hu
      ue := fun u context hu => by simp [initial, Session.initial, Heap.get] at hu }
  exact := rfl

/-- **The gauge is the number of attached UE contexts** -/
theorem gaugeExact_of_regular (cfg : Config) (dynamicPool : List Ipv4) (staticPool : StaticPool)
    {is : List Input}
    (hok : Guarded (failStep (Subscribers.step cfg)) (failGuard (Regular cfg))
      (.ok (.initial dynamicPool staticPool)) is) :
    ∀ w ∈ trace (failStep (Subscribers.step cfg)) (.ok (.initial dynamicPool staticPool)) is,
      Sat w Subscribers.GaugeExact AnyFault := by
  intro w hw
  have hinv := failTrace_invariant (fun x i h hi => Subscribers.counted_step cfg h hi)
    (Subscribers.counted_initial dynamicPool staticPool) hok w hw
  exact hinv.mono fun x hx => hx.exact

def Demo.attachments : List Event :=
  Demo.accepted ++
    [.createSessionRequest Demo.env Demo.mme (Demo.request 2 8 0), .ccaInitial 1 true 0,
      .sessionEstResponse 1 { accepted := true, seid := sessId 0xC0FFEF 5 }, .nwInitDetachEnd 1,
      .createSessionRequest Demo.env Demo.mme (Demo.request 3 8 0), .ccaInitial 2 true 0,
      .sessionEstResponse 2 { accepted := true, seid := sessId 0xC0FFF0 5 },
      .deleteSessionRequest Demo.mme
        { seq := 4, teid := 0xC0FFF0, lbiLen := 1, lbi := 5, indicationSi := false },
      .sessionDeleteResponse 3 true]

theorem gaugeExact_attachments :
    Guarded (failStep (Subscribers.step Demo.controlAddresses))
      (failGuard (Regular Demo.controlAddresses)) (.ok (.initial Demo.pool {}))
      (Demo.attachments.map .event) ∧
      ∀ w ∈ trace (failStep (Subscribers.step Demo.controlAddresses)) (.ok (.initial Demo.pool {}))
        (Demo.attachments.map .event), Sat w Subscribers.GaugeExact AnyFault :=
  ⟨by decide +kernel, gaugeExact_of_regular Demo.controlAddresses Demo.pool {} (by decide +kernel)⟩

/-! ### Runs that leave the gauge behind

A second request arrives before the PCRF has answered the first, and the gauge is `-1`; or the UPF
refuses a deletion, and the gauge counts a UE context that is gone. -/

def Demo.replacedAttach : List Input :=
  [.event (.createSessionRequest Demo.env Demo.mme (Demo.request 1 8 0)),
    .event (.createSessionRequest Demo.env Demo.mme (Demo.request 2 8 0))]

theorem not_gaugeExact_replacedAttach :
    ¬ ∀ w ∈ trace (failStep (Subscribers.step Demo.controlAddresses))
        (.ok (.initial Demo.pool {})) Demo.replacedAttach, Sat w Subscribers.GaugeExact AnyFault := by
  decide +kernel

end Spgw.Session
