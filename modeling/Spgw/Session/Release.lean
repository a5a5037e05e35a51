/-
# Releasing a session

`cleanup_pdn_context` (`cp/pdn.c`) takes the PDN out of its table, gives its address back by the
flags it has at that time, and frees it; `cleanup_ue_context` (`cp/ue.c`) does the same with the UE
context and drops the procedures that still wait in its queue.
-/

import Spgw.Session.Create

namespace Spgw.Session

def releaseAddress (s : State) (pdn : Pdn) : State :=
  if pdn.staticAddr then { s with staticPool := (s.staticPool.releaseIpNode pdn.ipv4).2 }
  else if pdn.allocControl then { s with dynamicPool := releaseIp s.dynamicPool pdn.ipv4 }
  else s

def cleanupPdnContext (s : State) (p : PdnPtr) : Result := do
  let pdn ← deref (s.pdns.get p)
  let ue ← deref pdn.context
  let context ← deref (s.ues.get ue)
  assert (context.s11SgwGtpcTeid = ueSessId pdn.seid)
  let s := { s with pdnByTeid := s.pdnByTeid.erase context.s11SgwGtpcTeid }
  let s := releaseAddress s pdn
  return { s with pdns := s.pdns.free p, ues := s.ues.set ue { context with pdn := none } }

def cleanupGtpcTrans (s : State) (p : ProcId) (key : TransKey) : Result := do
  assert ((s.gtpTrans key).getD p = p)
  return { s with gtpTrans := s.gtpTrans.erase key }

def dropTrans (s : State) (p : ProcId) (proc : Procedure) : Result :=
  match proc.gtpcTrans with
  | some key => cleanupGtpcTrans s p key
  | none => pure s

def dropProc (s : State) (p : ProcId) : Result := do
  let proc ← deref (s.procs.get p)
  let s ← dropTrans s p proc
  return { s with procs := s.procs.free p }

def cleanupUeContext (s : State) (u : UePtr) : Result := do
  let context ← deref (s.ues.get u)
  let s := { s with
    ueByImsi := s.ueByImsi.erase context.imsi
    ueByTeid := s.ueByTeid.erase context.s11SgwGtpcTeid }
  let s ← context.pendingSubProcs.foldlM dropProc s
  return { s with ues := s.ues.free u }

def releaseSession (s : State) (u : UePtr) (p : PdnPtr) : Result := do
  let s ← cleanupPdnContext s p
  cleanupUeContext s u

/-- `end_procedure` up to its `switch`: the transaction goes, and the procedure
leaves the queue of its UE context. -/
def unlinkProc (s : State) (p : ProcId) (proc : Procedure) : Result := do
  let s ← dropTrans s p proc
  match proc.ueContext with
  | none => pure s
  | some u =>
    let context ← deref (s.ues.get u)
    pure (s.setUe u { context with pendingSubProcs := context.pendingSubProcs.erase p })

/-- `end_procedure` for a detach, whatever its result. -/
def endDetach (s : State) (p : ProcId) : Result := do
  let proc ← deref (s.procs.get p)
  let s ← unlinkProc s p proc
  let u ← assertSome proc.ueContext
  let pdn ← assertSome proc.pdnContext
  let s := { s with procs := s.procs.free p }
  releaseSession s u pdn

def deleteContext (s : State) (dsr : DelSessReq) : Except Fault (State × (ℕ ⊕ UePtr)) :=
  match s.ueByTeid dsr.teid with
  | none => .ok (s, .inl causeContextNotFound)
  | some u => do
    let context ← deref (s.ues.get u)
    if dsr.lbiLen = 0 then
      return (s, .inl causeInvalidMessageFormat)
    -- The bitmap has the default bearer of the PDN, and nothing else.
    match context.pdn with
    | none => .ok (s, .inl causeInvalidMessageFormat)
    | some p =>
      let pdn ← deref (s.pdns.get p)
      if pdn.defaultBearerId ≠ dsr.lbi then
        return (s, .inl causeInvalidMessageFormat)
      let s := if pdn.staticAddr then
          { s with staticPool := (s.staticPool.releaseIpNode pdn.ipv4).2 }
        else s
      return (s, .inr u)

/-- `process_ds_req_handler` and `process_pfcp_sess_del_request`. -/
def startDetach (s : State) (p : ProcId) : Result := do
  let proc ← deref (s.procs.get p)
  match proc.msgInfo.rxMsg with
  | .dsr dsr =>
    match ← deleteContext s dsr with
    | (s, .inl _) => endDetach s p
    | (s, .inr u) =>
      assert (proc.ueContext = some u)
      assert (proc.gtpcTrans ≠ none)
      return s.setProc p { proc with pfcpTrans := some 0 }
  | _ => throw .badPointer

/-- `start_procedure_direct` for the procedures of this model. -/
def startProcedureDirect (s : State) (p : ProcId) : Result := do
  let proc ← deref (s.procs.get p)
  let s := s.setProc p { proc with running := true }
  if proc.procType = .detach then startDetach s p else pure s

/-- The scan at the end of `end_procedure`: the first procedure in the queue that
is not running is started. -/
def startWaiting (s : State) : List ProcId → Result
  | [] => pure s
  | p :: queue => do
    let proc ← deref (s.procs.get p)
    if proc.running then startWaiting s queue else startProcedureDirect s p

/-- `end_procedure` for an attach with `PROC_RESULT_SUCCESS`. -/
def endAttachSuccess (s : State) (p : ProcId) : Result := do
  let proc ← deref (s.procs.get p)
  let u ← deref proc.ueContext
  let s ← unlinkProc s p proc
  let context ← deref (s.ues.get u)
  let s := { s with procs := s.procs.free p, ended := s.ended ++ [(p, proc.request)] }
  startWaiting s context.pendingSubProcs

/-- `end_procedure` for an attach with `PROC_RESULT_FAILURE`. -/
def endAttachFailure (s : State) (p : ProcId) : Result := do
  let proc ← deref (s.procs.get p)
  let s ← unlinkProc s p proc
  let s := { s with procs := s.procs.free p, ended := s.ended ++ [(p, proc.request)] }
  match proc.ueContext, proc.pdnContext with
  | some u, some pdn => releaseSession s u pdn
  | _, _ => pure s

/-! ### What they can do

`E` are the faults that may happen; each assertion is an obligation. -/

section Spec

open Machine

variable {E : Fault → Prop} {s : State}

def dropKey (gtpTrans : Table TransKey ProcId) (trans : Option TransKey) : Table TransKey ProcId :=
  trans.elim gtpTrans gtpTrans.erase

def OwnsTrans (gtpTrans : Table TransKey ProcId) (p : ProcId) (trans : Option TransKey) : Prop :=
  ∀ key ∈ trans, ∀ q ∈ gtpTrans key, q = p

theorem OwnsTrans.erase {gtpTrans : Table TransKey ProcId} {p : ProcId} {trans : Option TransKey}
    (h : OwnsTrans gtpTrans p trans) (other : Option TransKey) :
    OwnsTrans (dropKey gtpTrans other) p trans := by
  intro key hkey q hq
  cases other with
  | none => exact h key hkey q hq
  | some k =>
    simp only [dropKey, Option.elim, Table.erase, Function.update_apply] at hq
    split_ifs at hq
    · cases hq
    · exact h key hkey q hq

theorem dropTrans_spec {p : ProcId} {proc : Procedure}
    (hown : OwnsTrans s.gtpTrans p proc.gtpcTrans ∨ E .assertion) :
    Sat (dropTrans s p proc) (· = { s with gtpTrans := dropKey s.gtpTrans proc.gtpcTrans }) E := by
  unfold dropTrans
  cases htrans : proc.gtpcTrans with
  | none => exact sat_pure rfl
  | some key =>
    refine (sat_assert fun hne => ?_).bind fun _ _ => sat_pure rfl
    rcases hown with hown | hE
    · refine absurd ?_ hne
      cases hentry : s.gtpTrans key with
      | none => rfl
      | some q => exact hown key htrans q hentry
    · exact hE

theorem dropProc_spec (hbad : E .badPointer) {p : ProcId}
    (hown : (∀ proc ∈ s.procs.get p, OwnsTrans s.gtpTrans p proc.gtpcTrans) ∨ E .assertion) :
    Sat (dropProc s p) (fun t => ∃ proc, s.procs.get p = some proc ∧ t = { s with
        gtpTrans := dropKey s.gtpTrans proc.gtpcTrans
        procs := s.procs.free p }) E := by
  unfold dropProc
  refine (sat_deref fun _ => hbad).bind fun proc hproc => ?_
  refine (dropTrans_spec (hown.imp_left fun h => h proc hproc)).bind fun t ht => sat_pure ?_
  exact ⟨proc, hproc, by rw [ht]⟩

structure Dropped (procs : Heap Procedure) (gtpTrans : Table TransKey ProcId)
    (queue : List ProcId) (procs' : Heap Procedure) (gtpTrans' : Table TransKey ProcId) : Prop where
  get : ∀ p, procs'.get p = if p ∈ queue then none else procs.get p
  next : procs'.next = procs.next
  trans : ∀ key, gtpTrans' key = gtpTrans key ∨
    gtpTrans' key = none ∧ ∃ p ∈ queue, ∃ proc ∈ procs.get p, proc.gtpcTrans = some key

section Dropped

variable {procs procs' : Heap Procedure} {gtpTrans gtpTrans' : Table TransKey ProcId}
  {queue : List ProcId}

theorem Dropped.evolves (h : Dropped procs gtpTrans queue procs' gtpTrans') :
    procs.Evolves Eq procs' := by
  intro p proc hproc
  rw [h.get] at hproc
  split_ifs at hproc
  exact ⟨proc, hproc, rfl⟩

theorem Dropped.cons {p : ProcId} {proc : Procedure} (hproc : procs.get p = some proc)
    (h : Dropped (procs.free p) (dropKey gtpTrans proc.gtpcTrans) queue procs' gtpTrans') :
    Dropped procs gtpTrans (p :: queue) procs' gtpTrans' where
  get q := by
    rw [h.get, Heap.get_free]
    by_cases hq : q = p <;> simp [hq]
  next := h.next.trans Heap.next_free
  trans key := by
    rcases h.trans key with heq | ⟨hnone, q, hq, proc', hproc', htrans⟩
    · cases hown : proc.gtpcTrans with
      | none => exact Or.inl (by simpa [hown, dropKey] using heq)
      | some k =>
        by_cases hk : key = k
        · refine Or.inr ⟨heq.trans ?_, p, List.mem_cons_self, proc, hproc, by rw [hown, hk]⟩
          simp [hown, dropKey, Table.erase, hk]
        · refine Or.inl (heq.trans ?_)
          simp [hown, dropKey, Table.erase, Function.update_of_ne hk]
    · rw [Heap.get_free] at hproc'
      split_ifs at hproc'
      · cases hproc'
      · exact Or.inr ⟨hnone, q, List.mem_cons_of_mem p hq, proc', hproc', htrans⟩

end Dropped

theorem dropProcs_spec (hbad : E .badPointer) (queue : List ProcId)
    (hown : (∀ p ∈ queue, ∀ proc ∈ s.procs.get p, OwnsTrans s.gtpTrans p proc.gtpcTrans) ∨
      E .assertion) :
    Sat (queue.foldlM dropProc s) (fun t => ∃ procs gtpTrans,
      t = { s with procs, gtpTrans } ∧ Dropped s.procs s.gtpTrans queue procs gtpTrans) E := by
  induction queue generalizing s with
  | nil => exact ⟨s.procs, s.gtpTrans, rfl, ⟨fun _ => by simp, rfl, fun _ => Or.inl rfl⟩⟩
  | cons p queue ih =>
    rw [List.foldlM_cons]
    refine (dropProc_spec hbad (hown.imp_left fun h => h p List.mem_cons_self)).bind ?_
    rintro t ⟨proc, hproc, rfl⟩
    refine (ih (hown.imp_left fun h q hq proc' hproc' => ?_)).mono ?_
    · rw [Heap.get_free] at hproc'
      split_ifs at hproc'
      · cases hproc'
      · exact (h q (List.mem_cons_of_mem p hq) proc' hproc').erase _
    · rintro u ⟨procs, gtpTrans, rfl, hdropped⟩
      exact ⟨procs, gtpTrans, rfl, hdropped.cons hproc⟩

theorem cleanupUeContext_spec (hbad : E .badPointer) {u : UePtr}
    (hown : (∀ context ∈ s.ues.get u, ∀ p ∈ context.pendingSubProcs, ∀ proc ∈ s.procs.get p,
      OwnsTrans s.gtpTrans p proc.gtpcTrans) ∨ E .assertion) :
    Sat (cleanupUeContext s u) (fun t => ∃ context procs gtpTrans, s.ues.get u = some context ∧
      Dropped s.procs s.gtpTrans context.pendingSubProcs procs gtpTrans ∧
      t = { s with
        ueByImsi := s.ueByImsi.erase context.imsi
        ueByTeid := s.ueByTeid.erase context.s11SgwGtpcTeid
        procs, gtpTrans
        ues := s.ues.free u }) E := by
  unfold cleanupUeContext
  refine (sat_deref fun _ => hbad).bind fun context hctx => ?_
  refine (dropProcs_spec hbad _ (hown.imp_left fun h => h context hctx)).bind ?_
  rintro t ⟨procs, gtpTrans, rfl, hdropped⟩
  exact sat_pure ⟨context, procs, gtpTrans, hctx, hdropped, rfl⟩

theorem exists_releaseAddress_eq (s : State) (pdn : Pdn) : ∃ dynamicPool staticPool,
    releaseAddress s pdn = { s with dynamicPool, staticPool } := by
  unfold releaseAddress
  split_ifs <;> exact ⟨_, _, rfl⟩

theorem cleanupPdnContext_spec (hbad : E .badPointer) {p : PdnPtr}
    (hteid : (∀ pdn ∈ s.pdns.get p, ∀ u ∈ pdn.context, ∀ context ∈ s.ues.get u,
      context.s11SgwGtpcTeid = ueSessId pdn.seid) ∨ E .assertion) :
    Sat (cleanupPdnContext s p) (fun t => ∃ pdn u context, s.pdns.get p = some pdn ∧
      pdn.context = some u ∧ s.ues.get u = some context ∧
      t = { releaseAddress s pdn with
        pdnByTeid := s.pdnByTeid.erase context.s11SgwGtpcTeid
        pdns := s.pdns.free p
        ues := s.ues.set u { context with pdn := none } }) E := by
  unfold cleanupPdnContext
  refine (sat_deref fun _ => hbad).bind fun pdn hpdn => ?_
  refine (sat_deref fun _ => hbad).bind fun u hu => ?_
  refine (sat_deref fun _ => hbad).bind fun context hctx => ?_
  refine (sat_assert fun hne => ?_).bind fun _ _ => sat_pure ⟨pdn, u, context, hpdn, hu, hctx, ?_⟩
  · exact hteid.resolve_left fun h => hne (h pdn hpdn u hu context hctx)
  · unfold releaseAddress
    split_ifs <;> rfl

theorem unlinkProc_spec (hbad : E .badPointer) {p : ProcId} {proc : Procedure}
    (hown : OwnsTrans s.gtpTrans p proc.gtpcTrans ∨ E .assertion) :
    Sat (unlinkProc s p proc) (fun t =>
      (proc.ueContext = none ∧ t = { s with gtpTrans := dropKey s.gtpTrans proc.gtpcTrans }) ∨
      ∃ u context, proc.ueContext = some u ∧ s.ues.get u = some context ∧ t = { s with
          gtpTrans := dropKey s.gtpTrans proc.gtpcTrans
          ues := s.ues.set u
            { context with pendingSubProcs := context.pendingSubProcs.erase p } }) E := by
  unfold unlinkProc
  refine (dropTrans_spec hown).bind ?_
  rintro t rfl
  cases hu : proc.ueContext with
  | none => exact sat_pure (Or.inl ⟨rfl, rfl⟩)
  | some u =>
    refine (sat_deref fun _ => hbad).bind fun context hctx => sat_pure (Or.inr ?_)
    exact ⟨u, context, rfl, hctx, rfl⟩

end Spec

end Spgw.Session
