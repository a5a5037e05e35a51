/-
# Ending a procedure

A failing attach is answered with what `get_error_csrsp_info` finds in the message that last reached
it, and then ends; one that succeeds is answered from its transaction.
-/

import Spgw.Session.Consistent

namespace Spgw.Session

open Machine

abbrev NoAssert (f : Fault) : Prop := f ≠ .assertion

theorem noAssert_badPointer : NoAssert .badPointer := by decide

theorem noAssert_deref_bind {α β : Type} {o : Option α} {f : α → Except Fault β} {Q : β → Prop}
    (h : ∀ a, o = some a → Sat (f a) Q NoAssert) : Sat (deref o >>= f) Q NoAssert :=
  (sat_deref fun _ => noAssert_badPointer).bind h

theorem ProcOk.ownsTrans {k : Core} {p : ProcId} {proc : Procedure} (h : ProcOk k p proc) :
    OwnsTrans k.gtpTrans p proc.gtpcTrans := by
  intro key hkey q hq
  rw [h.sound.trans, Option.mem_def, Option.some.injEq] at hkey
  subst hkey
  exact Option.some.inj (hq.symm.trans h.table)

theorem ProcOk.linked_of_ne {k : Core} {p : ProcId} {proc : Procedure} (h : ProcOk k p proc)
    (hue : proc.ueContext ≠ none) : Linked k p proc :=
  h.linked.resolve_left fun hnone => hue hnone.1

theorem releaseSession_consistent {s : State} (h : Consistent s.core) {u : UePtr}
    {context : UeContext} {q : PdnPtr} (hu : s.ues.get u = some context)
    (hq : context.pdn = some q) :
    Sat (releaseSession s u q) (fun t => Consistent t.core) NoAssert := by
  have hue : UeOk s.core u context := h.ue u context hu
  obtain ⟨pdn, hpdn, hback, hseid⟩ := hue.pdn q hq
  unfold releaseSession
  refine (cleanupPdnContext_spec noAssert_badPointer (Or.inl ?_)).bind ?_
  · intro pdn' hpdn' u' hu' context' hctx'
    cases hpdn.symm.trans hpdn'
    cases hback.symm.trans hu'
    cases hu.symm.trans hctx'
    rw [hseid, ueSessId_sessId hue.small]
  · rintro t ⟨pdn', u', context', hpdn', hu', hctx', rfl⟩
    cases hpdn.symm.trans hpdn'
    cases hback.symm.trans hu'
    cases hu.symm.trans hctx'
    obtain ⟨dynamicPool, staticPool, heq⟩ := exists_releaseAddress_eq s pdn
    rw [heq]
    have hget : (s.ues.set u { context with pdn := none }).get u =
        some { context with pdn := none } := by
      rw [Heap.get_set hu, if_pos rfl]
    refine (cleanupUeContext_spec noAssert_badPointer (Or.inl ?_)).mono ?_
    · intro c _ p _ proc hproc
      exact (h.proc p proc hproc).ownsTrans
    · rintro t ⟨context', procs, gtpTrans, hctx', hdropped, rfl⟩
      obtain rfl : { context with pdn := none } = context' :=
        Option.some.inj (hget.symm.trans hctx')
      have hues (v : UePtr) : ((s.ues.set u { context with pdn := none }).free u).get v =
          if v = u then none else s.ues.get v := by
        rw [Heap.get_free]
        split_ifs with hv
        · rfl
        · rw [Heap.get_set hu, if_neg hv]
      have hreleased := h.release hu hq hues hdropped
      exact hreleased

theorem endDetach_consistent {s : State} (h : Consistent s.core) {p : ProcId} {proc : Procedure}
    (hp : s.procs.get p = some proc) (hue : proc.ueContext ≠ none) :
    Sat (endDetach s p) (fun t => Consistent t.core) NoAssert := by
  have hproc : ProcOk s.core p proc := h.proc p proc hp
  obtain ⟨u, context, q, hu, hctx, hmem, hq, hcq⟩ := hproc.linked_of_ne hue
  unfold endDetach
  refine noAssert_deref_bind fun proc' hp' => ?_
  cases hp.symm.trans hp'
  refine (unlinkProc_spec noAssert_badPointer (Or.inl hproc.ownsTrans)).bind ?_
  rintro t (⟨hnone, -⟩ | ⟨u', context', hu', hctx', rfl⟩)
  · exact absurd hnone hue
  cases hu.symm.trans hu'
  cases hctx.symm.trans hctx'
  rw [hu, hq, hproc.sound.trans]
  have hunlinked := h.unlink hp hu hctx
  refine releaseSession_consistent ?_ ((Heap.get_set hctx).trans (if_pos rfl)) hcq
  exact hunlinked

structure SlotOk (proc : Procedure) : Prop where
  noAnswer : proc.msgInfo.msgType ≠ .gxCca
  own : proc.msgInfo.msgType = .createSessionReq → proc.msgInfo.peerAddr = proc.request.peer ∧
    ∀ csr, proc.msgInfo.rxMsg = .csr csr → csr.seq = proc.request.seq

theorem getErrorCsrspInfo_spec {s : State} {proc : Procedure} (hslot : SlotOk proc)
    (htrans : proc.gtpcTrans = some proc.request) :
    Sat (getErrorCsrspInfo s proc) (· = (proc.request.peer, proc.request.seq)) NoAssert := by
  unfold getErrorCsrspInfo
  rw [htrans]
  split
  · next hmsg =>
    obtain ⟨hpeer, hseq⟩ := hslot.own hmsg
    split
    · next csr hcsr =>
      rw [hpeer, hseq csr hcsr]
      rfl
    · exact noAssert_badPointer
  · next hmsg => exact absurd hmsg hslot.noAnswer
  · refine noAssert_deref_bind fun q _ => ?_
    refine noAssert_deref_bind fun pdn _ => ?_
    refine noAssert_deref_bind fun u _ => ?_
    exact noAssert_deref_bind fun _ _ => rfl
  · refine noAssert_deref_bind fun u _ => ?_
    refine noAssert_deref_bind fun _ _ => ?_
    refine noAssert_deref_bind fun q _ => ?_
    exact noAssert_deref_bind fun _ _ => rfl

def rejection (p : ProcId) (proc : Procedure) (cause : ℕ) : CsRsp :=
  { proc := some p, peer := proc.request.peer, seq := proc.request.seq, cause }

theorem csErrorResponse_spec {s : State} (h : Consistent s.core) {p : ProcId} {proc : Procedure}
    (cause : ℕ) (hp : s.procs.get p = some proc) (htype : proc.procType = .initialPdnAttach)
    (hslot : SlotOk proc) :
    Sat (csErrorResponse s p proc cause) (· = { s with
      csRsps := s.csRsps ++ [rejection p proc cause]
      gtpTrans := s.gtpTrans.erase proc.request
      procs := s.procs.set p { proc with gtpcTrans := none } }) NoAssert := by
  have hproc : ProcOk s.core p proc := h.proc p proc hp
  unfold csErrorResponse
  refine (getErrorCsrspInfo_spec hslot hproc.sound.trans).bind ?_
  rintro _ rfl
  refine (sat_assert fun hport => absurd (hproc.sound.attach htype).2 hport).bind fun _ _ => ?_
  have htable : s.gtpTrans proc.request = some p := hproc.table
  dsimp only
  rw [htable]
  exact (sat_assert fun hne => absurd rfl hne).bind fun _ _ => sat_pure rfl

theorem procInitialAttachFailure_consistent {s : State} (h : Consistent s.core) {p : ProcId}
    {proc : Procedure} (cause : ℕ) (hp : s.procs.get p = some proc)
    (htype : proc.procType = .initialPdnAttach) (hslot : SlotOk proc) :
    Sat (procInitialAttachFailure s p cause) (fun t => Consistent t.core) NoAssert := by
  have hproc : ProcOk s.core p proc := h.proc p proc hp
  have hlt : p < (s.procs.free p).next := by
    rw [Heap.next_free]
    exact Heap.lt_next_of_get hp
  unfold procInitialAttachFailure
  refine noAssert_deref_bind fun proc' hp' => ?_
  cases hp.symm.trans hp'
  refine (csErrorResponse_spec h cause hp htype hslot).bind ?_
  rintro t rfl
  unfold endAttachFailure
  refine noAssert_deref_bind fun proc' hp' => ?_
  obtain rfl : { proc with gtpcTrans := none } = proc' := by
    rw [Heap.get_set hp, if_pos rfl] at hp'
    exact Option.some.inj hp'
  refine (unlinkProc_spec noAssert_badPointer (Or.inl fun key hkey => by cases hkey)).bind ?_
  rintro t (⟨hnone, rfl⟩ | ⟨u, context, hu, hctx, rfl⟩)
  · -- No contexts: nothing is released.
    have hnone' : proc.ueContext = none := hnone
    have hfreed := h.freeUnlinked hp hnone'
    have hanswered := hfreed.answer proc.request (r := rejection p proc cause) hlt (by simp [Heap.get_free]) hproc.unanswered rfl rfl rfl
    dsimp only
    rw [hnone']
    refine sat_pure ?_
    simpa only [State.core, dropKey, Option.elim, Heap.free_set] using hanswered
  · obtain ⟨u', context', q, hu', hctx', -, hq, hcq⟩ := hproc.linked_of_ne (by simp_all)
    cases hu.symm.trans hu'
    cases hctx.symm.trans hctx'
    have hfreed := h.unlink hp hu' hctx'
    have hanswered := hfreed.answer proc.request (r := rejection p proc cause) hlt (by simp [Heap.get_free]) hproc.unanswered rfl rfl rfl
    dsimp only
    rw [hu', hq]
    refine releaseSession_consistent ?_ ((Heap.get_set hctx).trans (if_pos rfl)) hcq
    simpa only [State.core, dropKey, Option.elim, Heap.free_set] using hanswered

theorem deleteContext_spec (s : State) (dsr : DelSessReq) :
    Sat (deleteContext s dsr) (fun r => (∃ staticPool, r.1 = { s with staticPool }) ∧
      ∀ u, r.2 = .inr u → s.ueByTeid dsr.teid = some u) NoAssert := by
  unfold deleteContext
  split
  · exact ⟨⟨s.staticPool, rfl⟩, fun u hu => by cases hu⟩
  · next u hu =>
    refine noAssert_deref_bind fun context _ => ?_
    split_ifs
    · exact sat_pure ⟨⟨s.staticPool, rfl⟩, fun u hu => by cases hu⟩
    · cases context.pdn with
      | none => exact ⟨⟨s.staticPool, rfl⟩, fun u hu => by cases hu⟩
      | some q =>
        refine noAssert_deref_bind fun pdn _ => ?_
        by_cases hebi : pdn.defaultBearerId ≠ dsr.lbi
        · rw [if_pos hebi]
          exact sat_pure ⟨⟨s.staticPool, rfl⟩, fun u hu => by cases hu⟩
        · rw [if_neg hebi]
          refine sat_pure ⟨?_, fun v hv => Sum.inr.inj hv ▸ hu⟩
          split_ifs
          · exact ⟨_, rfl⟩
          · exact ⟨s.staticPool, rfl⟩

theorem startDetach_consistent {s : State} (h : Consistent s.core) {p : ProcId} {proc : Procedure}
    (hp : s.procs.get p = some proc) (htype : proc.procType = .detach)
    (hrunning : proc.running = true) (hue : proc.ueContext ≠ none)
    (hmsg : ∀ dsr, proc.msgInfo.rxMsg = .dsr dsr → ∀ u ∈ proc.ueContext,
      s.ueByTeid dsr.teid = some u) :
    Sat (startDetach s p) (fun t => Consistent t.core) NoAssert := by
  have htrans : proc.gtpcTrans = some proc.request := (h.proc p proc hp).sound.trans
  unfold startDetach
  refine noAssert_deref_bind fun proc' hp' => ?_
  cases hp.symm.trans hp'
  split
  · next dsr hdsr =>
    refine (deleteContext_spec s dsr).bind fun r hr => ?_
    obtain ⟨t, outcome⟩ := r
    obtain ⟨⟨staticPool, rfl⟩, hfound⟩ := hr
    cases outcome with
    | inl cause => exact endDetach_consistent (s := { s with staticPool }) h hp hue
    | inr u =>
      obtain ⟨v, hv⟩ := Option.ne_none_iff_exists'.mp hue
      have hteid := hmsg dsr hdsr v hv
      cases (hfound u rfl).symm.trans hteid
      refine (sat_assert fun hne => absurd hv hne).bind fun _ _ => ?_
      refine (sat_assert fun hne => absurd htrans ?_).bind fun _ _ => sat_pure ?_
      · rw [not_not.mp hne]
        simp
      · refine h.setProc hp ⟨htrans, ?_, fun _ => ⟨hrunning, Or.inr htype⟩, ?_⟩ rfl rfl rfl rfl
          (fun hnone => absurd hnone hue) fun hrun => ?_
        · exact (h.proc p proc hp).sound.attach
        · exact (h.proc p proc hp).sound.gx
        · exact absurd (hrunning.symm.trans hrun) (by simp)
  · exact sat_throw noAssert_badPointer

theorem startProcedureDirect_consistent {s : State} (h : Consistent s.core) {p : ProcId}
    {proc : Procedure} (hp : s.procs.get p = some proc) (hidle : proc.running = false)
    (hue : proc.ueContext ≠ none) :
    Sat (startProcedureDirect s p) (fun t => Consistent t.core) NoAssert := by
  obtain ⟨htrans, hattach, hpfcp, hgx⟩ := (h.proc p proc hp).sound
  have hnot : proc.procType ≠ .initialPdnAttach := by
    intro htype
    rw [(hattach htype).1] at hidle
    cases hidle
  have hsound : ({ proc with running := true } : Procedure).Sound :=
    ⟨htrans, fun htype => absurd htype hnot, fun h => ⟨rfl, (hpfcp h).2⟩, hgx⟩
  have hset : Consistent (s.setProc p { proc with running := true }).core :=
    h.setProc hp hsound rfl rfl rfl rfl (fun _ => rfl) fun hrun => by cases hrun
  unfold startProcedureDirect
  refine noAssert_deref_bind fun proc' hp' => ?_
  cases hp.symm.trans hp'
  dsimp only
  split_ifs with htype
  · refine startDetach_consistent hset ((Heap.get_set hp).trans (if_pos rfl)) htype rfl hue ?_
    obtain ⟨dsr, hdsr, hteid⟩ := (h.proc p proc hp).waiting hidle
    intro dsr' hdsr' u hu
    obtain rfl : dsr = dsr' := RxMsg.dsr.inj (hdsr.symm.trans hdsr')
    exact hteid u hu
  · exact sat_pure hset

theorem startWaiting_consistent {s : State} (h : Consistent s.core) (queue : List ProcId)
    (hqueue : ∀ p ∈ queue, ∀ proc ∈ s.procs.get p, proc.ueContext ≠ none) :
    Sat (startWaiting s queue) (fun t => Consistent t.core) NoAssert := by
  induction queue with
  | nil => exact sat_pure h
  | cons p queue ih =>
    unfold startWaiting
    refine noAssert_deref_bind fun proc hp => ?_
    split_ifs with hrunning
    · exact ih fun q hq => hqueue q (List.mem_cons_of_mem p hq)
    · exact startProcedureDirect_consistent h hp (by simpa using hrunning)
        (hqueue p List.mem_cons_self proc hp)

def acceptance (p : ProcId) (proc : Procedure) : CsRsp :=
  { proc := some p, peer := proc.request.peer, seq := proc.request.seq,
    cause := causeRequestAccepted }

theorem endAttachSuccess_consistent {s : State} (h : Consistent s.core) {p : ProcId}
    {proc : Procedure} (hp : s.procs.get p = some proc) :
    Sat (endAttachSuccess { s with csRsps := s.csRsps ++ [acceptance p proc] } p)
      (fun t => Consistent t.core) NoAssert := by
  have hproc : ProcOk s.core p proc := h.proc p proc hp
  have hlt : p < (s.procs.free p).next := by
    rw [Heap.next_free]
    exact Heap.lt_next_of_get hp
  unfold endAttachSuccess
  refine noAssert_deref_bind fun proc' hp' => ?_
  cases hp.symm.trans hp'
  refine noAssert_deref_bind fun u hu => ?_
  refine (unlinkProc_spec noAssert_badPointer (Or.inl ?_)).bind ?_
  · exact hproc.ownsTrans
  rintro t (⟨hnone, -⟩ | ⟨u', context, hu', hctx, rfl⟩)
  · rw [hu] at hnone
    cases hnone
  cases hu.symm.trans hu'
  have hanswered := (h.unlink hp hu hctx).answer proc.request (r := acceptance p proc) hlt
    (by simp [Heap.get_free]) hproc.unanswered rfl rfl rfl
  refine noAssert_deref_bind fun context' hctx' => ?_
  have hget := (Heap.get_set (b := { context with
    pendingSubProcs := context.pendingSubProcs.erase p }) (q := u) hctx).symm.trans hctx'
  rw [if_pos rfl, Option.some.injEq] at hget
  subst hget
  refine startWaiting_consistent ?_ _ ?_
  · rw [hproc.sound.trans]
    exact hanswered
  · intro q hq proc' hproc'
    obtain ⟨hne, hmem⟩ := (h.ue u context hctx).nodup.mem_erase_iff.mp hq
    obtain ⟨proc'', hproc'', hback⟩ := (h.ue u context hctx).queue q hmem
    have hget : (s.procs.free p).get q = some proc'' := by rwa [Heap.get_free, if_neg hne]
    cases hget.symm.trans hproc'
    simp [hback]

end Spgw.Session
