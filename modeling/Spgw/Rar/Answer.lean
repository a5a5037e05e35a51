/-
# The answer to a Re-Auth-Request

Once `process_rar_request_handler` has returned, the request waits for its children.
-/

import Spgw.Rar.Terminates

namespace Spgw.Rar

open Function

open Session (deref)

/-- `eps_bearers[i] = NULL`. -/
def clearSlot (bearers : Bearers) (i : ℤ) : Bearers := fun j => if (j : ℤ) = i then none else bearers j

def cleanupBearerContext (callId : ℕ) (bearers : Bearers) (table : RuleTable)
    (bearer : EpsBearer) : Except Fault (Bearers × RuleTable) := do
  let table := bearer.dynamicRules.foldl
    (fun table rule => table.delRuleNameEntry (ruleKey callId rule.ruleName)) table
  let _ ← deref (← bearerAt bearers ((bearer.epsBearerId : ℤ) - 5))
  return (clearSlot bearers ((bearer.epsBearerId : ℤ) - 5), table)

def cleanupPdnContext (pdn : Pdn) (table : RuleTable) : Except Fault RuleTable := do
  let (_, table) ← (List.finRange maxBearers).foldlM (fun (bearers, table) i =>
    match bearers i with
    | some bearer => cleanupBearerContext pdn.callId bearers table bearer
    | none => pure (bearers, table)) (pdn.epsBearers, table)
  return table

/-- The fields of a Re-Auth-Answer: `result_code`, or the vendor and the code of
`experimental_result`, and the sequence number it is sent with. -/
structure Raa where
  seqNum : ℕ
  resultCode : Option ℕ := none
  experimentalResult : Option (ℕ × ℕ) := none

def sendRaa (rar : Proc) : Raa :=
  if rar.result = .success then
    { seqNum := rar.rarSeqNum, resultCode := some 2001 }
  else
    { seqNum := rar.rarSeqNum, experimentalResult := some (10415, 5001) }

/-- A Re-Auth-Request that waits for its children. -/
structure Waiting where
  pdn : Option Pdn
  table : RuleTable
  rar : Option Proc
  children : List Proc

def Handling.waiting (s : Handling) : Waiting where
  pdn := some s.pdn
  table := s.table
  rar := some s.rar
  children := s.children

structure ChildEnd where
  id : ProcId
  succeeded : Bool

/-- `proc_bearer_create_failed` stores the failure, `proc_nw_init_detach_failure` does
not. -/
def endResult (child : Proc) (succeeded : Bool) : ProcResult :=
  if child.procType = .dedBerActivation ∧ succeeded = false then .failure else child.result

/-- The child as it goes into `end_procedure`. -/
def ended (child : Proc) (succeeded : Bool) : Proc :=
  { child with result := endResult child succeeded }

@[simp] theorem ended_id (child : Proc) (succeeded : Bool) : (ended child succeeded).id = child.id :=
  rfl

@[simp] theorem ended_procType (child : Proc) (succeeded : Bool) :
    (ended child succeeded).procType = child.procType := rfl

@[simp] theorem ended_result (child : Proc) (succeeded : Bool) :
    (ended child succeeded).result = endResult child succeeded := rfl

/-- The rest of `end_procedure` for a child: a detach releases the PDN. -/
def Waiting.afterEnd (s : Waiting) (child : Proc) : Except Fault Waiting :=
  if child.procType = .nwInitDetach then do
    let table ← cleanupPdnContext (← deref s.pdn) s.table
    return { s with pdn := none, table }
  else
    pure s

theorem Waiting.afterEnd_eq_ok {s t : Waiting} {child : Proc} : s.afterEnd child = .ok t ↔
      if child.procType = .nwInitDetach then
        ∃ pdn table, s.pdn = some pdn ∧ cleanupPdnContext pdn s.table = .ok table ∧
          t = { s with pdn := none, table }
      else t = s := by
  unfold Waiting.afterEnd
  by_cases htype : child.procType = .nwInitDetach
  · rw [if_pos htype, if_pos htype]
    cases hpdn : s.pdn with
    | none =>
      simp only [reduceCtorEq, false_and, exists_false, iff_false]
      intro h
      cases h
    | some pdn =>
      simp only [Session.deref_some, pure_bind, Option.some.injEq, exists_and_left, exists_eq_left']
      cases cleanupPdnContext pdn s.table with
      | error f =>
        simp only [reduceCtorEq, false_and, exists_false, iff_false]
        intro h
        cases h
      | ok table => exact ⟨fun h => ⟨table, rfl, (Except.ok.inj h).symm⟩, by
          rintro ⟨_, hok, rfl⟩
          rw [Except.ok.inj hok]
          rfl⟩
  · rw [if_neg htype, if_neg htype]
    exact ⟨fun h => (Except.ok.inj h).symm, fun h => congrArg Except.ok h.symm⟩

/-- `end_procedure` on a child, with the answers it sends. -/
def Waiting.endProcedure (s : Waiting) (e : ChildEnd) : List Raa × Except Fault Waiting :=
  match s.children.find? (·.id = e.id), s.rar with
  | some child, some rar =>
    let child := ended child e.succeeded
    let children := s.children.filter (·.id ≠ e.id)
    let parent := rar.doneRarChildProc child
    if rar.childrenDone child then
      match s.pdn with
      | some _ => ([sendRaa parent], { s with children, rar := none }.afterEnd child)
      -- `send_raa` copies the session identifier of the PDN.
      | none => ([], .error .badPointer)
    else
      ([], { s with children, rar := some parent }.afterEnd child)
  | _, _ => ([], .error .badPointer)

def Waiting.finish : Waiting → List ChildEnd → List Raa × Except Fault Waiting
  | s, [] => ([], .ok s)
  | s, e :: es =>
    match s.endProcedure e with
    | (answers, .ok s) => (answers ++ (s.finish es).1, (s.finish es).2)
    | (answers, .error f) => (answers, .error f)

theorem childSlot_eq_some {rar : Proc} {child : ProcId} {i : Fin maxChildProc}
    (hi : rar.childProcs i = some child)
    (honly : ∀ j, rar.childProcs j = some child → j = i) : rar.childSlot child = some i := by
  unfold Proc.childSlot
  cases hfind : (List.finRange maxChildProc).find? fun j => rar.childProcs j == some child with
  | none =>
    have := List.find?_eq_none.mp hfind i (List.mem_finRange i)
    simp [hi] at this
  | some j =>
    have hj : rar.childProcs j = some child := by simpa using List.find?_some hfind
    rw [honly j hj]

/-- The child table holds the children `ids`, each in one slot, and nothing else. -/
structure Children (rar : Proc) (ids : List ProcId) : Prop where
  cnt : rar.childProcsCnt = ids.length
  nodup : ids.Nodup
  slot : ∀ child ∈ ids, ∃ i, rar.childProcs i = some child
  unique : ∀ child i j, rar.childProcs i = some child → rar.childProcs j = some child → i = j
  held : ∀ i child, rar.childProcs i = some child → child ∈ ids

def Packed (rar : Proc) (ids : List ProcId) : Prop :=
  ∀ (i : Fin maxChildProc) child, rar.childProcs i = some child → (i : ℕ) < ids.length

theorem children_allocRarProc (id seq : ℕ) :
    Children (allocRarProc id seq) [] ∧ Packed (allocRarProc id seq) [] := by
  refine ⟨⟨rfl, List.nodup_nil, ?_, ?_, ?_⟩, ?_⟩ <;> simp [allocRarProc, Packed]

/-- **Adding a child** -/
theorem Children.add {rar rar' : Proc} {ids : List ProcId} {child : ProcId}
    (h : Children rar ids) (hpacked : Packed rar ids) (hnew : child ∉ ids)
    (hadd : rar.addRarChildProc child = some rar') :
    Children rar' (ids ++ [child]) ∧ Packed rar' (ids ++ [child]) ∧
      rar'.rarSeqNum = rar.rarSeqNum := by
  unfold Proc.addRarChildProc at hadd
  split at hadd
  swap
  · cases hadd
  next hroom =>
    cases hadd
    have hcnt := h.cnt
    have hroom' : rar.childProcsCnt < 8 := hroom
    set slot : Fin maxChildProc := ⟨rar.childProcsCnt, hroom⟩ with hslot
    have hfree (c : ProcId) : rar.childProcs slot ≠ some c := by
      intro hc
      have := hpacked slot c hc
      simp only [hslot, hcnt] at this
      omega
    have hread (i : Fin maxChildProc) (c : ProcId) :
        update rar.childProcs slot (some child) i = some c ↔
          (i = slot ∧ c = child) ∨ (i ≠ slot ∧ rar.childProcs i = some c) := by
      by_cases hi : i = slot
      · subst hi
        simp [eq_comm]
      · simp [hi]
    refine ⟨⟨?_, ?_, ?_, ?_, ?_⟩, ?_, rfl⟩
    · simp only [List.length_append, List.length_singleton, hcnt]
      omega
    · exact List.nodup_append.mpr ⟨h.nodup, List.nodup_singleton _, by
        rintro c hc d hd rfl
        exact hnew (List.mem_singleton.mp hd ▸ hc)⟩
    · intro c hc
      rcases List.mem_append.mp hc with hc | hc
      · obtain ⟨i, hi⟩ := h.slot c hc
        exact ⟨i, (hread i c).mpr (.inr ⟨fun his => hfree c (his ▸ hi), hi⟩)⟩
      · exact ⟨slot, (hread slot c).mpr (.inl ⟨rfl, List.mem_singleton.mp hc⟩)⟩
    · intro c i j hi hj
      rcases (hread i c).mp hi with ⟨rfl, rfl⟩ | ⟨_, hi⟩ <;>
        rcases (hread j _).mp hj with ⟨rfl, hc⟩ | ⟨_, hj⟩
      · rfl
      · exact (hnew (h.held j _ hj)).elim
      · exact (hnew (hc ▸ h.held i _ hi)).elim
      · exact h.unique c i j hi hj
    · intro i c hc
      rcases (hread i c).mp hc with ⟨_, rfl⟩ | ⟨_, hi⟩
      · simp
      · exact List.mem_append_left _ (h.held i c hi)
    · intro i c hc
      simp only [List.length_append, List.length_singleton]
      rcases (hread i c).mp hc with ⟨rfl, _⟩ | ⟨_, hi⟩
      · simp only [hslot, hcnt]
        omega
      · have := hpacked i c hi
        omega

/-- **Clearing a child** -/
theorem Children.clear {rar : Proc} {ids : List ProcId} {child : ProcId} (h : Children rar ids)
    (hlen : ids.length ≤ maxChildProc) (hchild : child ∈ ids) :
    Children (rar.clearChild child) (ids.erase child) ∧
      (rar.clearChild child).rarSeqNum = rar.rarSeqNum := by
  obtain ⟨slot, hslot⟩ := h.slot child hchild
  have hclear : rar.clearChild child = { rar with
      childProcs := update rar.childProcs slot none
      childProcsCnt := (rar.childProcsCnt + 255) % 256 } := by
    rw [Proc.clearChild, childSlot_eq_some hslot fun j hj => h.unique child j slot hj hslot]
  have hread (i : Fin maxChildProc) (c : ProcId) : update rar.childProcs slot none i = some c ↔
        i ≠ slot ∧ rar.childProcs i = some c := by
    by_cases hi : i = slot
    · subst hi
      simp
    · simp [hi]
  have hlen' : ids.length ≤ 8 := hlen
  have hpos : 0 < ids.length := List.length_pos_of_mem hchild
  rw [hclear]
  refine ⟨⟨?_, h.nodup.erase _, ?_, ?_, ?_⟩, rfl⟩
  · simp only [h.cnt, List.length_erase_of_mem hchild]
    omega
  · intro c hc
    obtain ⟨hne, hc⟩ := h.nodup.mem_erase_iff.mp hc
    obtain ⟨i, hi⟩ := h.slot c hc
    refine ⟨i, (hread i c).mpr ⟨?_, hi⟩⟩
    rintro rfl
    rw [hslot] at hi
    exact hne (Option.some.inj hi).symm
  · intro c i j hi hj
    exact h.unique c i j ((hread i c).mp hi).2 ((hread j c).mp hj).2
  · intro i c hc
    obtain ⟨hne, hi⟩ := (hread i c).mp hc
    refine h.nodup.mem_erase_iff.mpr ⟨?_, h.held i c hi⟩
    rintro rfl
    exact hne (h.unique c i slot hi hslot)

/-- A Re-Auth-Request with the sequence number `seq` waits for the procedures `kids`. -/
structure Awaits (s : Waiting) (kids : List Proc) (seq : ℕ) : Prop where
  children : s.children = kids
  rar : ∃ rar, s.rar = some rar ∧ Children rar (kids.map Proc.id) ∧ rar.rarSeqNum = seq
  le : kids.length ≤ maxChildProc

theorem map_id_filter {kids : List Proc} (hnodup : (kids.map Proc.id).Nodup) (id : ProcId) :
    (kids.filter (·.id ≠ id)).map Proc.id = (kids.map Proc.id).erase id := by
  rw [hnodup.erase_eq_filter, List.filter_map]
  congr 1
  exact List.filter_congr fun p _ => by simp [bne, beq_eq_decide]

def answer (seq : ℕ) (result : ProcResult) : Raa :=
  if result = .success then { seqNum := seq, resultCode := some 2001 }
  else { seqNum := seq, experimentalResult := some (10415, 5001) }

section Awaits

variable {s : Waiting} {kids : List Proc} {seq : ℕ} {e : ChildEnd} {child : Proc}

theorem Awaits.find (h : Awaits s kids seq) (hchild : child ∈ kids) (hid : child.id = e.id) :
    s.children.find? (·.id = e.id) = some child := by
  obtain ⟨rar, -, hkids, -⟩ := h.rar
  rw [h.children]
  cases hfind : kids.find? (·.id = e.id) with
  | none =>
    have := List.find?_eq_none.mp hfind child hchild
    simp [hid] at this
  | some p =>
    have hp : p.id = e.id := by simpa using List.find?_some hfind
    rw [List.inj_on_of_nodup_map hkids.nodup (List.mem_of_find?_eq_some hfind) hchild
      (hp.trans hid.symm)]

theorem Awaits.endProcedure_last (h : Awaits s [child] seq) (hid : child.id = e.id) :
    s.endProcedure e =
      match s.pdn with
      | some _ => ([answer seq (endResult child e.succeeded)],
          { s with children := [], rar := none }.afterEnd (ended child e.succeeded))
      | none => ([], .error .badPointer) := by
  have hfind := h.find (List.mem_singleton_self child) hid
  obtain ⟨rar, hrar, hkids, hseq⟩ := h.rar
  obtain ⟨hclear, hseq'⟩ := hkids.clear (by simp [maxChildProc]) (List.mem_singleton_self child.id)
  have hcnt : (rar.clearChild child.id).childProcsCnt = 0 := by simpa using hclear.cnt
  have hdone (q : Proc) (hq : q.id = child.id) : rar.childrenDone q = true := by
    simp [Proc.childrenDone, hq, hcnt]
  have hanswer (q : Proc) (hq : q.id = child.id) :
      sendRaa (rar.doneRarChildProc q) = answer seq q.result := by
    simp [Proc.doneRarChildProc, hq, hcnt, sendRaa, answer, hseq', hseq]
  simp only [Waiting.endProcedure, hfind, hrar]
  rw [if_pos (hdone _ (ended_id _ _)), hanswer _ (ended_id _ _), h.children]
  simp [hid]

theorem Awaits.endProcedure_of_more (h : Awaits s kids seq) (hchild : child ∈ kids)
    (hid : child.id = e.id) (hmore : kids.filter (·.id ≠ e.id) ≠ []) :
    ∃ rar, Awaits { s with children := kids.filter (·.id ≠ e.id), rar := some rar }
        (kids.filter (·.id ≠ e.id)) seq ∧
      s.endProcedure e =
        ([], { s with children := kids.filter (·.id ≠ e.id), rar := some rar }.afterEnd
          (ended child e.succeeded)) := by
  have hfind := h.find hchild hid
  obtain ⟨rar, hrar, hkids, hseq⟩ := h.rar
  have hlen : (kids.map Proc.id).length ≤ maxChildProc := by simpa using h.le
  obtain ⟨hclear, hseq'⟩ := hkids.clear hlen (List.mem_map_of_mem hchild)
  rw [hid] at hclear hseq'
  have hcnt : (rar.clearChild e.id).childProcsCnt ≠ 0 := by
    rw [hclear.cnt, ← map_id_filter hkids.nodup, List.length_map]
    exact fun h => hmore (List.length_eq_zero_iff.mp h)
  refine ⟨rar.clearChild e.id, ⟨rfl, ⟨_, rfl, ?_, hseq'.trans hseq⟩, ?_⟩, ?_⟩
  · rw [map_id_filter hkids.nodup]
    exact hclear
  · exact (List.length_filter_le _ _).trans h.le
  · have hdone (q : Proc) (hq : q.id = e.id) : rar.childrenDone q = false := by
      simp [Proc.childrenDone, hq, hcnt]
    have hparent (q : Proc) (hq : q.id = e.id) : rar.doneRarChildProc q = rar.clearChild e.id := by
      simp [Proc.doneRarChildProc, hq, hcnt]
    simp only [Waiting.endProcedure, hfind, hrar]
    rw [if_neg (by rw [hdone _ ((ended_id _ _).trans hid)]; simp),
      hparent _ ((ended_id _ _).trans hid), h.children]

theorem Awaits.endProcedure_of_not_mem (h : Awaits s kids seq) (hnot : e.id ∉ kids.map Proc.id) :
    s.endProcedure e = ([], .error .badPointer) := by
  have hfind : s.children.find? (·.id = e.id) = none := by
    rw [h.children, List.find?_eq_none]
    intro p hp
    have : p.id ≠ e.id := fun hpe => hnot (hpe ▸ List.mem_map_of_mem hp)
    simpa using this
  simp [Waiting.endProcedure, hfind]

end Awaits

structure Family (s : Handling) (seq : ℕ) : Prop where
  children : Children s.rar (s.children.map Proc.id)
  packed : Packed s.rar (s.children.map Proc.id)
  seqNum : s.rar.rarSeqNum = seq
  fresh : ∀ c ∈ s.children, c.id < s.nextId

theorem Arrival.family_parsed (a : Arrival) : Family a.parsed a.seq where
  children := (children_allocRarProc a.id a.seq).1
  packed := (children_allocRarProc a.id a.seq).2
  seqNum := rfl
  fresh := by simp [Arrival.parsed]

def created (child : Proc) (running : Bool) : Proc := { child with running }

theorem Family.addChild {s t : Handling} {seq : ℕ} (h : Family s seq) {child : Proc}
    {start : Pdn → RuleTable → Except Fault (Pdn × RuleTable)} (hid : child.id = s.nextId)
    (hadd : s.addChild child start = .ok t) :
    Family t seq ∧ t.nextId = s.nextId + 1 ∧
      ∃ running, t.children = s.children ++ [created child running] := by
  obtain ⟨rar, hrar, hcase⟩ := Handling.addChild_eq_ok.mp hadd
  obtain ⟨running, hchildren, ht, hnext⟩ : ∃ running,
      t.children = s.children ++ [created child running] ∧ t.rar = rar ∧
        t.nextId = s.nextId + 1 := by
    obtain ⟨_, _, _, _, rfl⟩ | ⟨_, rfl⟩ := hcase
    · exact ⟨true, rfl, rfl, rfl⟩
    · exact ⟨child.running, rfl, rfl, rfl⟩
  have hnew : child.id ∉ s.children.map Proc.id := by
    intro hmem
    obtain ⟨c, hc, hcid⟩ := List.mem_map.mp hmem
    exact lt_irrefl _ (hid ▸ hcid ▸ h.fresh c hc)
  obtain ⟨hkids, hpacked, hseq⟩ := h.children.add h.packed hnew hrar
  have hids : t.children.map Proc.id = s.children.map Proc.id ++ [child.id] := by
    simp [hchildren, created]
  refine ⟨⟨?_, ?_, ?_, ?_⟩, hnext, running, hchildren⟩
  · rw [ht, hids]
    exact hkids
  · rw [ht, hids]
    exact hpacked
  · rw [ht, hseq, h.seqNum]
  · intro c hc
    rw [hchildren] at hc
    rw [hnext]
    rcases List.mem_append.mp hc with hc | hc
    · exact Nat.lt_succ_of_lt (h.fresh c hc)
    · rw [List.mem_singleton.mp hc]
      exact hid ▸ Nat.lt_succ_self _

def Arrival.onlyDetach (a : Arrival) : Bool := a.msg.sessionReleaseCause || !a.policy.needsBearer

def Arrival.childIds (a : Arrival) : List ProcId :=
  if a.onlyDetach then [a.id + 1] else [a.id + 1, a.id + 2]

theorem Family.awaits {s : Handling} {seq : ℕ} (h : Family s seq)
    (hlen : s.children.length ≤ maxChildProc) : Awaits s.waiting s.children seq :=
  ⟨rfl, ⟨s.rar, rfl, h.children, h.seqNum⟩, hlen⟩

theorem Arrival.returns_cases {a : Arrival} {t : Handling} (h : a.Returns t) :
    (a.onlyDetach = true ∧ ∃ n,
        Awaits t.waiting [created (rarChild (a.id + 1) a.id .nwInitDetach) n] a.seq) ∨
      (a.onlyDetach = false ∧ ∃ d n,
        Awaits t.waiting [created (rarChild (a.id + 1) a.id .dedBerActivation) d,
          created (rarChild (a.id + 2) a.id .nwInitDetach) n] a.seq) := by
  have hdetach (ht : a.parsed.nwInitDetach = .ok t) : ∃ n,
      Awaits t.waiting [created (rarChild (a.id + 1) a.id .nwInitDetach) n] a.seq := by
    obtain ⟨hfamily, _, n, hchildren⟩ := a.family_parsed.addChild rfl ht
    have hkids : t.children = [created (rarChild (a.id + 1) a.id .nwInitDetach) n] := hchildren
    exact ⟨n, hkids ▸ hfamily.awaits (by simp [hkids, maxChildProc])⟩
  have hreturns := Arrival.returns_iff.mp h
  cases hrelease : a.msg.sessionReleaseCause with
  | true =>
    simp only [hrelease, if_true] at hreturns
    exact .inl ⟨by simp [Arrival.onlyDetach, hrelease], hdetach hreturns⟩
  | false =>
    simp only [hrelease, Bool.false_eq_true, if_false] at hreturns
    obtain ⟨s, ⟨hneeds, rfl⟩ | ⟨hneeds, hs, _⟩, _, ht⟩ := hreturns
    · exact .inl ⟨by simp [Arrival.onlyDetach, hneeds], hdetach ht⟩
    · refine .inr ⟨by simp [Arrival.onlyDetach, hrelease, hneeds], ?_⟩
      obtain ⟨hfamily, hnext, d, hded⟩ := a.family_parsed.addChild rfl hs
      have hid : s.rar.id = a.id := by
        obtain ⟨rar, hrar, hcase⟩ := Handling.addChild_eq_ok.mp hs
        have hsame := (Proc.sameProc_of_addRarChildProc hrar).id
        obtain ⟨_, _, _, _, rfl⟩ | ⟨_, rfl⟩ := hcase
        · exact hsame
        · exact hsame
      obtain ⟨hfamily, _, n, hnwd⟩ := hfamily.addChild rfl ht
      have hkids : t.children = [created (rarChild (a.id + 1) a.id .dedBerActivation) d,
          created (rarChild (a.id + 2) a.id .nwInitDetach) n] := by
        rw [hnwd, hded, hnext, hid]
        rfl
      exact ⟨d, n, hkids ▸ hfamily.awaits (by simp [hkids, maxChildProc])⟩

/-- One answer is sent, for this request, and with success exactly if every child succeeded. -/
def Arrival.AnswersRight (a : Arrival) (es : List ChildEnd) : Prop :=
  ∃ t, a.Returns t ∧ ∃ raa, (t.waiting.finish es).1 = [raa] ∧ raa.seqNum = a.seq ∧
    (raa.resultCode = some 2001 ↔ ∀ e ∈ es, e.succeeded = true)

section Finish

variable {s : Waiting} {seq : ℕ} {child first : Proc} {d e : ChildEnd}

theorem Waiting.finish_singleton : (s.finish [e]).1 = (s.endProcedure e).1 := by
  rcases hend : s.endProcedure e with ⟨answers, r⟩
  cases r <;> simp [Waiting.finish, hend]

theorem Waiting.finish_cons_of_ok {es : List ChildEnd} {t : Waiting}
    (hend : s.endProcedure e = ([], .ok t)) : (s.finish (e :: es)).1 = (t.finish es).1 := by
  simp [Waiting.finish, hend]

theorem Waiting.finish_cons_of_error {es : List ChildEnd} {f : Fault}
    (hend : s.endProcedure e = ([], .error f)) : (s.finish (e :: es)).1 = [] := by
  simp [Waiting.finish, hend]

theorem Awaits.finish_detach (h : Awaits s [child] seq) (htype : child.procType = .nwInitDetach)
    (hresult : child.result = .success) (hid : child.id = e.id) (hpdn : s.pdn.isSome) :
    (s.finish [e]).1 = [{ seqNum := seq, resultCode := some 2001 }] := by
  obtain ⟨pdn, hpdn⟩ := Option.isSome_iff_exists.mp hpdn
  have hanswer : answer seq (endResult child e.succeeded) =
      { seqNum := seq, resultCode := some 2001 } := by
    simp [answer, endResult, htype, hresult]
  rw [Waiting.finish_singleton, h.endProcedure_last hid]
  simp only [hpdn, hanswer]

theorem Awaits.finish_activation_detach (h : Awaits s [first, child] seq)
    (hfirst : first.procType = .dedBerActivation) (htype : child.procType = .nwInitDetach)
    (hresult : child.result = .success) (hne : first.id ≠ child.id) (hd : first.id = d.id)
    (he : child.id = e.id) (hpdn : s.pdn.isSome) :
    (s.finish [d, e]).1 = [{ seqNum := seq, resultCode := some 2001 }] := by
  have hrest : [first, child].filter (·.id ≠ d.id) = [child] := by simp [← hd, hne.symm]
  obtain ⟨rar, hawaits, hend⟩ :=
    h.endProcedure_of_more (List.mem_cons_self ..) hd (by rw [hrest]; exact List.cons_ne_nil _ _)
  rw [hrest] at hawaits hend
  have hafter : ({ s with children := [child], rar := some rar } : Waiting).afterEnd
      (ended first d.succeeded) = .ok { s with children := [child], rar := some rar } := by
    simp [Waiting.afterEnd, hfirst, pure, Except.pure]
  rw [Waiting.finish_cons_of_ok (hend.trans (by rw [hafter]))]
  exact hawaits.finish_detach htype hresult he hpdn

theorem Awaits.finish_detach_activation (h : Awaits s [first, child] seq)
    (htype : child.procType = .nwInitDetach) (hne : first.id ≠ child.id) (hd : first.id = d.id)
    (he : child.id = e.id) : (s.finish [e, d]).1 = [] := by
  have hrest : [first, child].filter (·.id ≠ e.id) = [first] := by simp [← he, hne]
  obtain ⟨rar, hawaits, hend⟩ :=
    h.endProcedure_of_more (List.mem_cons_of_mem _ (List.mem_singleton_self child)) he
      (by rw [hrest]; exact List.cons_ne_nil _ _)
  rw [hrest] at hawaits hend
  set waiting : Waiting := { s with children := [first], rar := some rar }
  cases hafter : waiting.afterEnd (ended child e.succeeded) with
  | error f => exact Waiting.finish_cons_of_error (hend.trans (by rw [hafter]))
  | ok t =>
    rw [hafter] at hend
    rw [Waiting.afterEnd_eq_ok, if_pos (by simp [htype])] at hafter
    obtain ⟨_, table, _, _, rfl⟩ := hafter
    have hgone : Awaits { waiting with pdn := none, table } [first] seq :=
      ⟨hawaits.children, hawaits.rar, hawaits.le⟩
    rw [Waiting.finish_cons_of_ok hend, Waiting.finish_singleton, hgone.endProcedure_last hd]

end Finish

theorem Arrival.Returns.finish {a : Arrival} {t : Handling} (h : a.Returns t)
    {es : List ChildEnd} (hes : (es.map ChildEnd.id).Perm a.childIds) :
    (t.waiting.finish es).1 =
      if es.map ChildEnd.id = a.childIds then [{ seqNum := a.seq, resultCode := some 2001 }]
      else [] := by
  obtain ⟨honly, n, hawaits⟩ | ⟨honly, d, n, hawaits⟩ := Arrival.returns_cases h
  · have hids : a.childIds = [a.id + 1] := by simp [Arrival.childIds, honly]
    rw [hids] at hes ⊢
    have hes := List.perm_singleton.mp hes
    obtain ⟨e, rfl, he⟩ := List.map_eq_singleton_iff.mp hes
    rw [if_pos hes, hawaits.finish_detach rfl rfl he.symm rfl]
  · have hids : a.childIds = [a.id + 1, a.id + 2] := by simp [Arrival.childIds, honly]
    rw [hids] at hes ⊢
    obtain ⟨x, y, rfl⟩ : ∃ x y, es = [x, y] := by
      have := hes.length_eq
      match es, this with
      | [x, y], _ => exact ⟨x, y, rfl⟩
    have hne : (created (rarChild (a.id + 1) a.id .dedBerActivation) d).id ≠
        (created (rarChild (a.id + 2) a.id .nwInitDetach) n).id := by
      simp [created, rarChild]
    by_cases hx : x.id = a.id + 1
    · have hy : y.id = a.id + 2 := by
        rw [List.map_cons, List.map_singleton, hx] at hes
        exact List.singleton_perm_singleton.mp ((List.perm_cons _).mp hes)
      rw [if_pos (by simp [hx, hy]), hawaits.finish_activation_detach rfl rfl rfl hne hx.symm hy.symm rfl]
    · have hswap : [y.id, x.id].Perm [a.id + 1, a.id + 2] := (List.Perm.swap _ _ _).trans hes
      have hy : y.id = a.id + 1 := by
        have := hes.mem_iff.mpr (List.mem_cons_self (a := a.id + 1) (l := [a.id + 2]))
        simpa [Ne.symm hx, eq_comm] using this
      have hx' : x.id = a.id + 2 := by
        rw [hy] at hswap
        exact List.singleton_perm_singleton.mp ((List.perm_cons _).mp hswap)
      rw [if_neg (by simp [hx]), hawaits.finish_detach_activation rfl hne hy.symm hx'.symm]

/-- **A Re-Auth-Request is answered as it should be exactly if its handler returns and its children
succeed in the order in which they were created.** -/
theorem Arrival.answersRight_iff (a : Arrival) (es : List ChildEnd)
    (hes : (es.map ChildEnd.id).Perm a.childIds) :
    a.AnswersRight es ↔
      a.ReturnsWhen ∧ es.map ChildEnd.id = a.childIds ∧ ∀ e ∈ es, e.succeeded = true := by
  rw [← Arrival.exists_returns_iff]
  constructor
  · rintro ⟨t, ht, raa, hfinish, -, hall⟩
    rw [ht.finish hes] at hfinish
    by_cases horder : es.map ChildEnd.id = a.childIds
    · rw [if_pos horder] at hfinish
      obtain rfl := List.singleton_injective hfinish
      exact ⟨⟨t, ht⟩, horder, hall.mp rfl⟩
    · rw [if_neg horder] at hfinish
      cases hfinish
  · rintro ⟨⟨t, ht⟩, horder, hall⟩
    refine ⟨t, ht, { seqNum := a.seq, resultCode := some 2001 }, ?_, rfl, ?_⟩
    · rw [ht.finish hes, if_pos horder]
    · exact ⟨fun _ => hall, fun _ => rfl⟩

namespace Demo

def release : Arrival :=
  { msg := { sessionReleaseCause := true }
    seq := 7
    pdn
    table := [] }

/-- A rule `n` that needs a bearer, a rule `m` to modify that has none, and a rule `d` to remove. -/
def mixed : Arrival :=
  { msg :=
      { chargingRuleInstall := [[
          { chargingRuleName := some ['n'], qosInformation := some { qos with qosClassIdentifier := 8 } },
          { chargingRuleName := some ['m'], qosInformation := some { qos with qosClassIdentifier := 7 } }]]
        chargingRuleRemove := [some (['d'], [])] }
    gxEnabled := false
    seq := 7
    pdn
    table := [(['m', '1'], 0), (['d', '1'], 0)] }

end Demo

/-- An activation and a detach that succeed are answered with success. -/
theorem answersRight_mixed : Demo.mixed.AnswersRight [⟨1, true⟩, ⟨2, true⟩] :=
  (Demo.mixed.answersRight_iff [⟨1, true⟩, ⟨2, true⟩] (by decide)).mpr
    ⟨Demo.mixed.exists_returns_iff.mp ⟨_, 4, rfl⟩, by decide, by decide⟩

/-- **A detach that fails is answered with success.** -/
theorem not_answersRight_detachFails : (∃ t, Demo.release.Returns t ∧
      (t.waiting.finish [⟨1, false⟩]).1 = [{ seqNum := 7, resultCode := some 2001 }]) ∧
    ¬ Demo.release.AnswersRight [⟨1, false⟩] := by
  obtain ⟨t, ht⟩ : ∃ t, Demo.release.Returns t := Demo.release.exists_returns_iff.mpr (.inl rfl)
  have hes : ([⟨1, false⟩] : List ChildEnd).map ChildEnd.id = Demo.release.childIds := by decide
  refine ⟨⟨t, ht, by rw [ht.finish (.of_eq hes), if_pos hes]; rfl⟩, ?_⟩
  rintro ⟨u, hu, raa, hfinish, -, hall⟩
  rw [hu.finish (.of_eq hes), if_pos hes] at hfinish
  obtain rfl := List.singleton_injective hfinish
  have := hall.mp rfl ⟨1, false⟩ (List.mem_singleton_self _)
  cases this

end Spgw.Rar
