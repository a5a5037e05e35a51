/-
# Handlers that leave the subscribers alone

Most events neither complete an attach nor delete an attached UE context: the failure of an attach,
the messages of Gx and of the UPF association, the start of a detach.
-/

import Spgw.Gauge.Roster

namespace Spgw.Session

open Machine

variable {attached : List UePtr} {s : State} {p : ProcId} {proc : Procedure}

/-- The roster holds in `t`, and of the UE contexts on it the same ones are there. -/
structure Steady (attached : List UePtr) (s t : State) : Prop where
  roster : t.Roster attached
  live : ∀ u ∈ attached, (t.ues.get u).isSome = (s.ues.get u).isSome

namespace Steady

theorem refl (h : s.Roster attached) : Steady attached s s := ⟨h, fun _ _ => rfl⟩

theorem trans {t u : State} (h₁ : Steady attached s t) (h₂ : Steady attached t u) :
    Steady attached s u :=
  ⟨h₂.roster, fun v hv => (h₂.live v hv).trans (h₁.live v hv)⟩

theorem of_ues_eq {t : State} (h : t.Roster attached) (hues : t.ues = s.ues) :
    Steady attached s t :=
  ⟨h, fun _ _ => by rw [hues]⟩

theorem of_closes {t : State} {u : UePtr} (h : Closes u s t) (hs : s.Roster attached)
    (hu : u ∉ attached) : Steady attached s t := by
  refine ⟨h.roster hs, fun v hv => h.isSome_of_ne ?_⟩
  rintro rfl
  exact hu hv

theorem of_alloc {t : State} {context : UeContext} (hs : s.Roster attached)
    (h : t.Roster attached) (hues : t.ues = s.ues.alloc context) : Steady attached s t := by
  refine ⟨h, fun v hv => ?_⟩
  rw [hues, Heap.get_alloc, if_neg (Nat.ne_of_lt (hs.old v hv))]

end Steady

theorem Roster.write (h : s.Roster attached) (hp : s.procs.get p = some proc) {b : Procedure}
    (hb : b.Rostered attached s.ues.next) (htype : b.procType = proc.procType)
    (hue : b.ueContext = proc.ueContext) : (s.setProc p b).Roster attached :=
  h.setProc hp htype hue hb

theorem rostered_setMsg (h : s.Roster attached) (hp : s.procs.get p = some proc) (msg : MsgInfo) :
    ({ proc with msgInfo := msg } : Procedure).Rostered attached s.ues.next :=
  (h.proc p proc hp).congr rfl rfl rfl id Or.inl id

theorem endAttachFailure_steady (h : s.Roster attached) (hp : s.procs.get p = some proc)
    (htype : proc.procType = .initialPdnAttach) :
    Sat (endAttachFailure s p) (Steady attached s) AnyFault := by
  unfold endAttachFailure
  refine sat_deref_bind fun proc' hp' => ?_
  cases hp.symm.trans hp'
  refine (unlinkProc_spec trivial (Or.inr trivial)).bind ?_
  rintro t (⟨hnone, rfl⟩ | ⟨u, context, hue, hu, rfl⟩)
  · rw [hnone]
    exact sat_pure (.of_ues_eq (h.freeProc hp hnone) rfl)
  · obtain ⟨-, hnot, hpdn⟩ := ((h.proc p proc hp).attach htype).2 u hue
    obtain ⟨q, hq⟩ := Option.ne_none_iff_exists'.mp hpdn
    rw [hue, hq]
    refine (releaseSession_closes _ u q ?_).mono fun t ht =>
      .of_closes (ht.of_unlinked hp hue hu rfl rfl rfl) h hnot
    -- What is left of the queue still belongs to the context.
    intro c hc r hr b hb
    dsimp only at hc hb
    rw [Heap.get_set hu, if_pos rfl] at hc
    cases hc
    exact (h.queue u context hu r (List.mem_of_mem_erase hr)).2 b (Heap.get_of_get_free hb)

theorem csErrorResponse_roster (h : s.Roster attached) (hp : s.procs.get p = some proc)
    (cause : ℕ) : Sat (csErrorResponse s p proc cause) (fun t => t.Roster attached ∧
      t.ues = s.ues ∧ ∃ b, t.procs.get p = some b ∧ b.procType = proc.procType) AnyFault := by
  unfold csErrorResponse
  refine (sat_true (getErrorCsrspInfo s proc)).bind fun ⟨peer, seq⟩ _ => ?_
  refine sat_assert_bind ?_
  dsimp only
  split
  · exact sat_pure ⟨h, rfl, proc, hp, rfl⟩
  · refine (sat_assert fun _ => trivial).bind fun _ _ => sat_pure ?_
    have hb : ({ proc with gtpcTrans := none } : Procedure).Rostered attached s.ues.next :=
      (h.proc p proc hp).congr rfl rfl rfl id Or.inl id
    exact ⟨h.write hp hb rfl rfl, rfl, _, get_setProc hp _, rfl⟩

/-- **An attach that fails closes its own session at most.** -/
theorem procInitialAttachFailure_steady (h : s.Roster attached) (hp : s.procs.get p = some proc)
    (htype : proc.procType = .initialPdnAttach) (cause : ℕ) :
    Sat (procInitialAttachFailure s p cause) (Steady attached s) AnyFault := by
  unfold procInitialAttachFailure
  refine sat_deref_bind fun proc' hp' => ?_
  cases hp.symm.trans hp'
  refine (csErrorResponse_roster h hp cause).bind ?_
  rintro t ⟨ht, hues, b, hb, hbtype⟩
  exact (endAttachFailure_steady ht hb (hbtype.trans htype)).mono fun _ =>
    (Steady.of_ues_eq ht hues).trans

theorem steady_linkedSession (h : s.Roster attached) {b : Procedure} {imsi : ℕ}
    {csr : CreateSessReq} {addr : AddrChoice} {service : Service} {context : UeContext}
    (hp : s.procs.get p = some proc) (hnone : proc.ueContext = none)
    (hctx : (openSession s imsi csr addr service).ues.get s.ues.next = some context)
    (htype : b.procType = .initialPdnAttach) (hrunning : b.running = true)
    (hue : b.ueContext = some s.ues.next) (hpdn : b.pdnContext = some s.pdns.next) :
    Steady attached s (linkedSession s p b context imsi csr addr service) := by
  have hqueue : context.pendingSubProcs = [] := by
    have hget := (Heap.get_alloc.trans (if_pos rfl)).symm.trans hctx
    rw [← Option.some.inj hget]
  have hues : (openSession s imsi csr addr service).ues.set s.ues.next
      { context with pendingSubProcs := context.pendingSubProcs ++ [p] } =
      s.ues.alloc { context with pendingSubProcs := context.pendingSubProcs ++ [p] } :=
    Heap.set_alloc
  refine .of_alloc h ?_ hues
  change Roster attached (Heap.set _ _ _) _ _
  rw [hues]
  exact h.link hp hnone htype hrunning hue (by simp [hpdn]) (by simp [hqueue])

/-- **The handlers of an attach leave the subscribers alone.** -/
theorem kept_steady (attached : List UePtr) (s : State) :
    Kept AnyFault (fun _ => True) (fun _ => True) (Steady attached s) where
  pointer := trivial
  endless := trivial
  slot _ _ := trivial
  gx h hp := (h.roster.proc _ _ hp).gx
  pending h hupf := h.roster.pending _ _ hupf
  setUpf h hpending := h.trans (.of_ues_eq (h.roster.setUpf hpending) rfl)
  setProc h hp htype hgx _ := by
    refine h.trans (.of_ues_eq (h.roster.write hp ?_ rfl rfl) rfl)
    exact (h.roster.proc _ _ hp).congr rfl rfl rfl id (fun _ => Or.inr htype) hgx
  pools h := h.trans (.of_ues_eq h.roster rfl)
  setPdn h _ _ _ _ := h.trans (.of_ues_eq h.roster rfl)
  fail cause h hp htype _ :=
    (procInitialAttachFailure_steady h.roster hp htype cause).mono fun _ => h.trans
  addUe imsi h _ := h.trans (.of_alloc h.roster (h.roster.addUe rfl rfl) rfl)
  link gxTrans h _ hp hoi hctx := h.trans (steady_linkedSession h.roster hp rfl hctx
    (by simp [csreqProc, hoi]) rfl rfl rfl)

theorem startAttach_steady (h : s.Roster attached) (cfg : Config) (env : Env) (key : TransKey)
    (csr : CreateSessReq) : Sat (startAttach cfg env s key csr) (Steady attached s) AnyFault := by
  have hproc : (csreqProc key csr).Rostered attached s.ues.next := by
    by_cases hoi : csr.indicationOi = true
    · exact Procedure.rostered_of_idle (by simp [csreqProc, hoi]) rfl rfl
    · exact Procedure.rostered_of_attach (by simp [csreqProc, hoi]) rfl rfl
  have hadd := h.addProc hproc (Or.inl rfl)
  unfold startAttach
  dsimp only
  split_ifs with hoi
  · exact sat_pure (.of_ues_eq hadd rfl)
  · refine ((kept_steady attached _).handleCsreqMsg (.refl hadd) cfg env
      (Heap.get_alloc.trans (if_pos rfl)) (by simpa using hoi) trivial
      fun _ _ _ _ _ => trivial).mono fun t ht => ⟨ht.roster, ht.live⟩

def RxMsg.dsr? : RxMsg → Option DelSessReq
  | .dsr request => some request
  | _ => none

/-- `delete_context` finds the UE context of the request and its default bearer. -/
def deletable (s : State) (dsr : DelSessReq) : Bool :=
  dsr.lbiLen != 0 && ((s.ueByTeid dsr.teid).bind (uePdn s.ues)).any fun q =>
    (s.pdns.get q).any (·.defaultBearerId = dsr.lbi)

theorem deletable_congr {t : State} (hteid : t.ueByTeid = s.ueByTeid)
    (hues : uePdn t.ues = uePdn s.ues)
    (hpdns : ∀ q, (t.pdns.get q).map Pdn.bearerKind = (s.pdns.get q).map Pdn.bearerKind)
    (dsr : DelSessReq) : deletable t dsr = deletable s dsr := by
  have hany (o : Option Pdn) : o.any (·.defaultBearerId = dsr.lbi) =
      (o.map Pdn.bearerKind).any (·.1 = dsr.lbi) := by
    cases o <;> rfl
  simp only [deletable, hteid, hues, hany, hpdns]

theorem deleteContext_deletable {dsr : DelSessReq} (hdsr : deletable s dsr = true) :
    Sat (deleteContext s dsr) (fun r => ∃ u, r.2 = .inr u) AnyFault := by
  unfold deletable at hdsr
  rw [Bool.and_eq_true, bne_iff_ne] at hdsr
  obtain ⟨hlbi, hfound⟩ := hdsr
  unfold deleteContext
  cases hu : s.ueByTeid dsr.teid with
  | none => simp [hu] at hfound
  | some u =>
    refine sat_deref_bind fun context hctx => ?_
    rw [if_neg hlbi]
    cases hq : context.pdn with
    | none => simp [hu, uePdn, hctx, hq] at hfound
    | some q =>
      refine sat_deref_bind fun pdn hpdn => ?_
      have hebi : pdn.defaultBearerId = dsr.lbi := by
        simpa [hu, uePdn, hctx, hq, hpdn] using hfound
      rw [if_neg (not_not.mpr hebi)]
      exact sat_pure ⟨u, rfl⟩

/-- **A detach of an attached subscriber starts and asks the UPF** -/
theorem startDetach_steady (h : s.Roster attached) (hp : s.procs.get p = some proc)
    (hue : ∀ u ∈ proc.ueContext, u ∈ attached) (htype : proc.procType ≠ .initialPdnAttach)
    (hdsr : ∀ dsr ∈ proc.msgInfo.rxMsg.dsr?, deletable s dsr = true) :
    Sat (startDetach s p) (Steady attached s) AnyFault := by
  unfold startDetach
  refine sat_deref_bind fun proc' hp' => ?_
  cases hp.symm.trans hp'
  split
  · next dsr hmsg =>
    refine ((deleteContext_deletable (hdsr dsr (by rw [hmsg]; rfl))).and
      (deleteContext_spec s dsr)).bind ?_
    rintro ⟨t, outcome⟩ ⟨⟨u, hout⟩, ⟨staticPool, rfl⟩, -⟩
    obtain rfl : outcome = .inr u := hout
    refine sat_assert_bind ?_
    refine (sat_assert fun _ => trivial).bind fun _ _ => sat_pure ?_
    have hb : ({ proc with pfcpTrans := some 0 } : Procedure).Rostered attached s.ues.next :=
      ⟨fun hattach => absurd hattach htype, fun _ _ => hue, (h.proc p proc hp).gx⟩
    exact .of_ues_eq (h.write hp hb rfl rfl) rfl
  · exact sat_throw trivial

theorem startProcedureDirect_steady (h : s.Roster attached) (hp : s.procs.get p = some proc)
    (hue : ∀ u ∈ proc.ueContext, u ∈ attached)
    (hdsr : proc.procType = .detach → ∀ dsr ∈ proc.msgInfo.rxMsg.dsr?, deletable s dsr = true) :
    Sat (startProcedureDirect s p) (Steady attached s) AnyFault := by
  unfold startProcedureDirect
  refine sat_deref_bind fun proc' hp' => ?_
  cases hp.symm.trans hp'
  have hset : (s.setProc p { proc with running := true }).Roster attached :=
    h.write hp ((h.proc p proc hp).congr rfl rfl rfl (fun _ => rfl) Or.inl id) rfl rfl
  dsimp only
  split_ifs with htype
  · refine (startDetach_steady hset (get_setProc hp _) hue (by simp [htype]) ?_).mono fun t ht =>
      ⟨ht.roster, ht.live⟩
    exact hdsr htype
  · exact sat_pure (.of_ues_eq hset rfl)

/-- A detach that waits can be served when its turn comes. -/
def WaitingServed (s : State) (u : UePtr) : Prop :=
  ∀ context ∈ s.ues.get u, ∀ q ∈ context.pendingSubProcs, ∀ waiting ∈ s.procs.get q,
    waiting.running = false → waiting.procType = .detach →
      ∀ dsr ∈ waiting.msgInfo.rxMsg.dsr?, deletable s dsr = true

instance (s : State) (u : UePtr) : Decidable (WaitingServed s u) :=
  inferInstanceAs (Decidable (∀ context ∈ s.ues.get u, ∀ q ∈ context.pendingSubProcs,
    ∀ waiting ∈ s.procs.get q, _))

theorem startWaiting_steady (h : s.Roster attached) (queue : List ProcId)
    (hqueue : ∀ q ∈ queue, ∀ waiting, s.procs.get q = some waiting → waiting.running = false →
      (∀ u ∈ waiting.ueContext, u ∈ attached) ∧ (waiting.procType = .detach →
        ∀ dsr ∈ waiting.msgInfo.rxMsg.dsr?, deletable s dsr = true)) :
    Sat (startWaiting s queue) (Steady attached s) AnyFault := by
  induction queue with
  | nil => exact sat_pure (.refl h)
  | cons p queue ih =>
    unfold startWaiting
    refine sat_deref_bind fun proc hp => ?_
    split_ifs with hrunning
    · exact ih fun q hq => hqueue q (List.mem_cons_of_mem p hq)
    · obtain ⟨hue, hdsr⟩ := hqueue p List.mem_cons_self proc hp (by simpa using hrunning)
      exact startProcedureDirect_steady h hp hue hdsr

theorem handleDeleteSessionRequest_steady (h : s.Roster attached) (peer : Peer) {dsr : DelSessReq}
    (hlbi : dsr.lbiLen ≠ 0) :
    Sat (handleDeleteSessionRequest s peer dsr) (Steady attached s) AnyFault := by
  unfold handleDeleteSessionRequest
  dsimp only
  by_cases hknown : (s.gtpTrans ⟨peer, dsr.seq⟩).isSome
  · rw [if_pos hknown]
    exact sat_pure (.refl h)
  rw [if_neg hknown]
  split
  · exact sat_pure (.refl h)
  next u hu =>
  refine sat_deref_bind fun context hctx => ?_
  split
  · exact sat_pure (.refl h)
  next q hq =>
  refine sat_deref_bind fun pdn hpdn => ?_
  by_cases hebi : pdn.defaultBearerId ≠ dsr.lbi
  · rw [if_pos hebi]
    exact sat_pure (.refl h)
  rw [if_neg hebi]
  have hnot : (dsreqProc ⟨peer, dsr.seq⟩ dsr u q).procType ≠ .initialPdnAttach := by
    unfold dsreqProc
    split_ifs <;> simp
  have hget : (s.procs.alloc (dsreqProc ⟨peer, dsr.seq⟩ dsr u q)).get s.procs.next =
      some (dsreqProc ⟨peer, dsr.seq⟩ dsr u q) := Heap.get_alloc.trans (if_pos rfl)
  have hadd := (h.addProc (Procedure.rostered_of_idle hnot rfl rfl) (Or.inr hnot)).enqueue
    hctx hget rfl
  have hlive (v : UePtr) : ((s.ues.set u
      { context with pendingSubProcs := context.pendingSubProcs ++ [s.procs.next] }).get v).isSome =
      (s.ues.get v).isSome := by
    rw [Heap.get_set hctx]
    split_ifs with hv
    · rw [hv, hctx]
      rfl
    · rfl
  split_ifs with hempty
  · -- Nothing is in the queue, so the attach has succeeded.
    have hmem : u ∈ attached := by
      refine (h.ue u context hctx (by simp [hq])).resolve_right ?_
      rintro ⟨r, hr, -⟩
      rw [List.isEmpty_iff.mp hempty] at hr
      cases hr
    refine Sat.mono (startProcedureDirect_steady hadd hget ?_ ?_) fun t ht =>
      ⟨ht.roster, fun v hv => (ht.live v hv).trans (hlive v)⟩
    · intro v hv
      rwa [← Option.some.inj hv]
    · intro _ dsr' hdsr'
      cases hdsr'
      have hpdnEq : uePdn (s.ues.set u { context with
          pendingSubProcs := context.pendingSubProcs ++ [s.procs.next] }) = uePdn s.ues :=
        uePdn_set hctx rfl
      have hserved : deletable s dsr = true := by
        rw [not_not] at hebi
        simp [deletable, hlbi, hu, uePdn, hctx, hq, hpdn, hebi]
      refine Eq.trans (deletable_congr ?_ hpdnEq ?_ dsr) hserved
      · rfl
      · exact fun _ => rfl
  · exact sat_pure ⟨hadd, fun v _ => hlive v⟩

end Spgw.Session
