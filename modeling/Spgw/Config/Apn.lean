/-
# APN names

The names of APNs stand in the configuration as text, labels separated by dots, and in a request as
labels after their lengths.
-/

import Spgw.Config.Store

namespace Spgw.Config

open Octets Labels Machine

structure ApnName where
  labels : List (List UInt8)
  ne_nil : labels ≠ []
  label : ∀ l ∈ labels, Label dot l
  length_le : ∀ l ∈ labels, l.length ≤ 63

namespace ApnName

variable (n : ApnName)

theorem zero_notMem_text {ls : List (List UInt8)} (h : ∀ l ∈ ls, Label dot l) :
    0 ∉ [dot].intercalate ls := by
  induction ls with
  | nil => exact List.not_mem_nil
  | cons l ls ih =>
    have hl : 0 ∉ l := (h l List.mem_cons_self).noNul
    cases ls with
    | nil => rwa [List.intercalate_singleton]
    | cons l' ls =>
      have hdot : (0 : UInt8) ∉ [dot] := by decide
      rw [List.intercalate_cons_cons, List.mem_append, List.mem_append, not_or, not_or]
      exact ⟨⟨hl, hdot⟩, ih fun x hx => h x (List.mem_cons_of_mem l hx)⟩

def text : Str := ⟨[dot].intercalate n.labels, zero_notMem_text n.label⟩

def encoding : List UInt8 := wire n.labels

theorem splitOn_text : n.text.bytes.splitOn dot = n.labels :=
  List.splitOn_intercalate dot (fun l hl => (n.label l hl).noSep) n.ne_nil

theorem length_encoding : n.encoding.length = n.text.strlen + 1 := length_wire n.labels n.ne_nil

theorem zero_notMem_encoding : 0 ∉ n.encoding := zero_notMem_wire n.label

theorem encoding_ne_nil : n.encoding ≠ [] := List.ne_nil_of_length_eq_add_one n.length_encoding

end ApnName

def Holds (m : Memory) (bs : List UInt8) : Prop :=
  Octets.strlen 64 m = some bs.length ∧ read m 0 bs.length = bs

theorem holds_padded {bs : List UInt8} (h0 : 0 ∉ bs) (hlt : bs.length < 64) :
    Holds (padded bs) bs :=
  ⟨strlen_write h0 rfl hlt, read_write _ 0 bs⟩

/-- **Text behind one free octet is rewritten to its wire form** -/
theorem inPlace_text {s : Str} {m : Memory} (hread : read m 1 s.strlen = s.bytes)
    (hout : ∀ j, j = 0 ∨ s.strlen < j → m j = 0) :
    inPlace dot m s.strlen = padded (wire (s.bytes.splitOn dot)) := by
  have hlen : (wire (s.bytes.splitOn dot)).length = s.strlen + 1 := length_wire_splitOn s.bytes
  have hin : inPlace dot m s.strlen = write m 0 (wire (s.bytes.splitOn dot)) :=
    inPlace_eq (hout 0 (Or.inl rfl)) hread
  rw [hin, padded]
  funext j
  rw [write_zero_apply, write_zero_apply]
  rcases Nat.lt_or_ge j (s.strlen + 1) with hj | hj
  · have hj' : j < (wire (s.bytes.splitOn dot)).length := hlen ▸ hj
    rw [List.getD_eq_getElem _ _ hj', List.getD_eq_getElem _ _ hj']
  · rw [hout j (Or.inr hj)]

theorem inPlace_apnName (s : Str) :
    inPlace dot (write (fun _ => 0) 1 s.bytes) s.strlen = padded (wire (s.bytes.splitOn dot)) := by
  refine inPlace_text (read_write _ 1 s.bytes) fun j hj => ?_
  refine write_of_out _ s.bytes ?_
  rw [← Str.strlen]
  omega

theorem inPlace_requestedApn (s : Str) :
    inPlace dot (write (fun _ => 0) 1 (s.bytes ++ [0])) s.strlen =
      padded (wire (s.bytes.splitOn dot)) := by
  have hzero : write (write (fun _ => 0) 1 s.bytes) (1 + s.bytes.length) [0] =
      write (fun _ => 0) 1 s.bytes := by
    have hend : write (fun _ => 0) 1 s.bytes (1 + s.bytes.length) = 0 :=
      write_of_out _ s.bytes (Or.inr (Nat.le_refl _))
    rw [write, write]
    exact Function.update_eq_self_iff.mpr hend.symm
  rw [write_append, hzero, inPlace_apnName]

theorem encodeRequestedApn_eq (s : Str) : encodeRequestedApn s =
      if s.strlen ≤ 62 then .ok (padded (wire (s.bytes.splitOn dot))) else .error .badPointer := by
  rw [encodeRequestedApn, inPlace_requestedApn]

/-- **The name of a profile is rewritten if it has at most 62 characters** -/
theorem encodeApnName_text (n : ApnName) : encodeApnName n.text =
      if n.text.strlen ≤ 62 then .ok (padded n.encoding, .ofNat n.encoding.length)
      else .error .badPointer := by
  have hlen := n.length_encoding
  rw [encodeApnName, inPlace_apnName, n.splitOn_text, ← ApnName.encoding]
  by_cases h62 : n.text.strlen ≤ 62
  · have hstrlen : Octets.strlen 64 (padded n.encoding) = some n.encoding.length :=
      strlen_write n.zero_notMem_encoding rfl (by omega)
    rw [if_pos (by omega), if_pos h62]
    simp only [hstrlen]
  · rw [if_neg h62]
    split_ifs with h63
    · have hstrlen : Octets.strlen 64 (padded n.encoding) = none :=
        strlen_write_eq_none n.zero_notMem_encoding (by omega)
      simp only [hstrlen]
    · rfl

/-- The names that the sections of the document give. -/
def profileNames (doc : Document) : List Str := (apnSections doc).filterMap fun q => q.2.apnName

@[inherit_doc profileNames]
def ruleNames (doc : Document) : List Str :=
  doc.rules.filterMap fun sec => sec.keys.bind KeySection.requestedApn

/-- The C string in `apn_name`. -/
def cname (sec : ApnSection) : List UInt8 :=
  match sec.apnName with
  | none => []
  | some s => wire (s.bytes.splitOn dot)

structure Fits (key : Str) (sec : ApnSection) : Prop where
  name : ∀ s, sec.apnName = some s → s.strlen ≤ 62
  profileName : key.strlen < 64
  network : (sec.network.getD .empty).strlen < 64

/-- What `parse_json_doc` makes of a profile that fits. -/
def profileOf (key : Str) (sec : ApnSection) : ApnProfile where
  apnProfileName := key
  apnName := padded (cname sec)
  apnNameLength := .ofNat (cname sec).length
  apnUsageType := sec.usage.getD 0
  apnNetCap := sec.network.getD .empty
  gxEnabled := sec.gxEnabled.getD false
  dnsPrimary := sec.dnsPrimary.getD 0
  dnsSecondary := sec.dnsSecondary.getD 0
  mtu := (sec.mtu.map fun n => UInt16.ofInt n.toInt).getD 0

section Profile

variable {key : Str} {sec : ApnSection}

def ValidName (sec : ApnSection) : Prop := ∀ s, sec.apnName = some s → ∃ n : ApnName, n.text = s

theorem cname_text {n : ApnName} (h : sec.apnName = some n.text) : cname sec = n.encoding := by
  rw [cname, h]
  exact congrArg wire n.splitOn_text

theorem parseApnName_eq (hvalid : ValidName sec) (hfits : ∀ s, sec.apnName = some s → s.strlen ≤ 62) :
    parseApnName sec.apnName = .ok (padded (cname sec), .ofNat (cname sec).length) := by
  cases hname : sec.apnName with
  | none =>
    rw [cname, hname]
    rfl
  | some s =>
    obtain ⟨n, rfl⟩ := hvalid s hname
    rw [parseApnName, encodeApnName_text, if_pos (hfits _ hname), cname_text hname]

theorem parseApnProfile_eq (hvalid : ValidName sec) (h : Fits key sec) :
    parseApnProfile key sec = .ok (profileOf key sec) := by
  rw [parseApnProfile, parseApnName_eq hvalid h.name, strcpy, if_pos h.profileName, strcpy,
    if_pos h.network]
  rfl

theorem fits_of_parseApnProfile {p : ApnProfile} (hvalid : ValidName sec)
    (h : parseApnProfile key sec = .ok p) : Fits key sec := by
  rw [parseApnProfile, bind_eq_ok] at h
  obtain ⟨name, hname, h⟩ := h
  obtain ⟨apnName, hapnName, h⟩ := bind_eq_ok.mp h
  obtain ⟨netCap, hnetCap, -⟩ := bind_eq_ok.mp h
  refine ⟨fun s hs => ?_, (strcpy_eq_ok_iff.mp hname).1, (strcpy_eq_ok_iff.mp hnetCap).1⟩
  obtain ⟨n, rfl⟩ := hvalid s hs
  rw [hs, parseApnName, encodeApnName_text] at hapnName
  split_ifs at hapnName with h62
  exact h62

theorem holds_cname (hvalid : ValidName sec) (h : Fits key sec) :
    0 ∉ cname sec ∧ (cname sec).length < 64 := by
  cases hname : sec.apnName with
  | none =>
    rw [cname, hname]
    exact ⟨List.not_mem_nil, by decide⟩
  | some s =>
    obtain ⟨n, rfl⟩ := hvalid s hname
    have h62 := h.name _ hname
    have hlen := n.length_encoding
    rw [cname_text hname]
    exact ⟨n.zero_notMem_encoding, by omega⟩

end Profile

/-- **The lookup finds the first profile whose name is the request.** -/
theorem matchApnProfile_eq {secs : List (Str × ApnSection)} (name : List UInt8)
    (h : ∀ q ∈ secs, 0 ∉ cname q.2 ∧ (cname q.2).length < 64) :
    matchApnProfile (secs.map fun q => profileOf q.1 q.2) name =
      .ok ((secs.find? fun q => cname q.2 = name).map fun q => profileOf q.1 q.2) := by
  induction secs with
  | nil => rfl
  | cons q secs ih =>
    obtain ⟨h0, hlt⟩ := h q List.mem_cons_self
    obtain ⟨hstrlen, hread⟩ := holds_padded h0 hlt
    have hrec := ih fun q' hq' => h q' (List.mem_cons_of_mem q hq')
    rw [List.map_cons, matchApnProfile, List.find?_cons]
    change (Session.deref (Octets.strlen 64 (padded (cname q.2))) >>= fun n =>
      if n ≠ name.length then _ else if read (padded (cname q.2)) 0 n ≠ name then _ else _) = _
    rw [hstrlen, Session.deref_some, pure_bind, hread]
    by_cases hname : cname q.2 = name
    · rw [if_neg (not_not.mpr (congrArg List.length hname)), if_neg (not_not.mpr hname),
        decide_eq_true hname]
      rfl
    · rw [if_pos hname, ite_self, decide_eq_false hname]
      exact hrec

/-- The names are encoded as labels, and a name finds a profile exactly if a section has it. -/
def NamesFound (doc : Document) (name : List UInt8) : Prop :=
  (∀ n : ApnName, n.text ∈ ruleNames doc →
    ∃ m, encodeRequestedApn n.text = .ok m ∧ Holds m n.encoding) ∧
  ∃ profiles, parseApnProfiles doc = .ok profiles ∧
    List.Forall₂ (fun (q : Str × ApnSection) p => ∀ n : ApnName, q.2.apnName = some n.text →
      Holds p.apnName n.encoding) (apnSections doc) profiles ∧
    ∃ found, matchApnProfile profiles name = .ok found ∧
      (∀ p ∈ found, p ∈ profiles ∧ Holds p.apnName name) ∧
      (found.isSome ↔ ∃ n : ApnName, n.text ∈ profileNames doc ∧ n.encoding = name)

/-- No name is too long for its array, and with an empty name every section has one. -/
structure NamesFit (doc : Document) (name : List UInt8) : Prop where
  rules : ∀ s ∈ ruleNames doc, s.strlen ≤ 62
  profiles : ∀ q ∈ apnSections doc, Fits q.1 q.2
  named : name = [] → ∀ q ∈ apnSections doc, q.2.apnName ≠ none

theorem mem_profileNames {doc : Document} {s : Str} :
    s ∈ profileNames doc ↔ ∃ q ∈ apnSections doc, q.2.apnName = some s := by
  rw [profileNames, List.mem_filterMap]

section Document

variable {doc : Document} {name : List UInt8}

theorem holds_requestedApn {n : ApnName} (h : n.text.strlen ≤ 62) :
    ∃ m, encodeRequestedApn n.text = .ok m ∧ Holds m n.encoding := by
  have hlen := n.length_encoding
  refine ⟨padded n.encoding, ?_, holds_padded n.zero_notMem_encoding (by omega)⟩
  rw [encodeRequestedApn_eq, if_pos h, n.splitOn_text]
  rfl

theorem exists_cname_iff (hvalid : ∀ q ∈ apnSections doc, ValidName q.2)
    (hnamed : name = [] → ∀ q ∈ apnSections doc, q.2.apnName ≠ none) :
    (∃ q ∈ apnSections doc, cname q.2 = name) ↔
      ∃ n : ApnName, n.text ∈ profileNames doc ∧ n.encoding = name := by
  simp only [mem_profileNames]
  constructor
  · rintro ⟨q, hq, hcname⟩
    cases hname : q.2.apnName with
    | none =>
      rw [cname, hname] at hcname
      exact absurd hname (hnamed hcname.symm q hq)
    | some s =>
      obtain ⟨n, rfl⟩ := hvalid q hq s hname
      exact ⟨n, ⟨q, hq, hname⟩, (cname_text hname).symm.trans hcname⟩
  · rintro ⟨n, ⟨q, hq, hname⟩, hencoding⟩
    exact ⟨q, hq, (cname_text hname).trans hencoding⟩

theorem parseApnProfiles_eq (hvalid : ∀ q ∈ apnSections doc, ValidName q.2)
    (hfits : ∀ q ∈ apnSections doc, Fits q.1 q.2) :
    parseApnProfiles doc = .ok ((apnSections doc).map fun q => profileOf q.1 q.2) := by
  rw [parseApnProfiles, mapM_eq_ok_iff, List.forall₂_map_right_iff, List.forall₂_same]
  exact fun q hq => parseApnProfile_eq (hvalid q hq) (hfits q hq)

theorem fits_of_parseApnProfiles {profiles : List ApnProfile}
    (hvalid : ∀ q ∈ apnSections doc, ValidName q.2) (h : parseApnProfiles doc = .ok profiles) :
    ∀ q ∈ apnSections doc, Fits q.1 q.2 := by
  intro q hq
  obtain ⟨p, -, hp⟩ := exists_ok_of_mapM h hq
  exact fits_of_parseApnProfile (hvalid q hq) hp

/-- **The names of a configuration are rewritten and found if they fit** -/
theorem namesFound_iff (hrules : ∀ s ∈ ruleNames doc, ∃ n : ApnName, n.text = s)
    (hprofiles : ∀ s ∈ profileNames doc, ∃ n : ApnName, n.text = s) :
    NamesFound doc name ↔ NamesFit doc name := by
  have hvalid : ∀ q ∈ apnSections doc, ValidName q.2 := fun q hq s hs =>
    hprofiles s (mem_profileNames.mpr ⟨q, hq, hs⟩)
  constructor
  · rintro ⟨hrule, profiles, hparse, -, found, hmatch, -, hfound⟩
    have hfits := fits_of_parseApnProfiles hvalid hparse
    refine ⟨fun s hs => ?_, hfits, fun hnil q hq hnone => ?_⟩
    · obtain ⟨n, rfl⟩ := hrules s hs
      obtain ⟨m, hm, -⟩ := hrule n hs
      rw [encodeRequestedApn_eq] at hm
      split_ifs at hm with h62
      exact h62
    · -- a profile without a name is found by the empty request, which is no wire form
      rw [parseApnProfiles_eq hvalid hfits] at hparse
      cases hparse
      rw [matchApnProfile_eq name fun q hq => holds_cname (hvalid q hq) (hfits q hq)] at hmatch
      cases hmatch
      have hcname : cname q.2 = name := by
        rw [cname, hnone, hnil]
      have hsome : (((apnSections doc).find? fun q => cname q.2 = name).map
          fun q => profileOf q.1 q.2).isSome := by
        rw [Option.isSome_map, List.find?_isSome]
        exact ⟨q, hq, decide_eq_true hcname⟩
      obtain ⟨n, -, hencoding⟩ := hfound.mp hsome
      exact n.encoding_ne_nil (hencoding.trans hnil)
  · intro hfit
    refine ⟨fun n hn => holds_requestedApn (hfit.rules _ hn), _,
      parseApnProfiles_eq hvalid hfit.profiles, ?_, _,
      matchApnProfile_eq name fun q hq => holds_cname (hvalid q hq) (hfit.profiles q hq), ?_, ?_⟩
    · rw [List.forall₂_map_right_iff, List.forall₂_same]
      intro q hq n hname
      obtain ⟨h0, hlt⟩ := holds_cname (hvalid q hq) (hfit.profiles q hq)
      rw [← cname_text hname]
      exact holds_padded h0 hlt
    · intro p hp
      obtain ⟨q, hq, rfl⟩ := Option.map_eq_some_iff.mp hp
      have hmem : q ∈ apnSections doc := List.mem_of_find?_eq_some hq
      have hcname : cname q.2 = name := by
        simpa using List.find?_some hq
      obtain ⟨h0, hlt⟩ := holds_cname (hvalid q hmem) (hfit.profiles q hmem)
      refine ⟨List.mem_map_of_mem hmem, ?_⟩
      rw [← hcname]
      exact holds_padded h0 hlt
    · rw [Option.isSome_map, List.find?_isSome, ← exists_cname_iff hvalid hfit.named]
      simp only [decide_eq_true_eq]

end Document

theorem label_replicate {k : ℕ} (h : 0 < k ∧ k ≤ 63) : Label dot (List.replicate k 97) where
  ne_nil := List.ne_nil_of_length_pos (by rw [List.length_replicate]; exact h.1)
  length_lt := by rw [List.length_replicate]; omega
  noNul := fun hmem => absurd (List.eq_of_mem_replicate hmem) (by decide)
  noSep := fun hmem => absurd (List.eq_of_mem_replicate hmem) (by decide)

/-- `k` times the letter `a`. -/
def letters (k : ℕ) (h : 0 < k ∧ k ≤ 63) : ApnName where
  labels := [List.replicate k 97]
  ne_nil := List.cons_ne_nil _ _
  label := List.forall_mem_singleton.mpr (label_replicate h)
  length_le := List.forall_mem_singleton.mpr ((List.length_replicate ..).trans_le h.2)

theorem strlen_letters {k : ℕ} (h : 0 < k ∧ k ≤ 63) : (letters k h).text.strlen = k := by
  change ([dot].intercalate [List.replicate k 97]).length = k
  rw [List.intercalate_singleton, List.length_replicate]

def oneApn (n : ApnName) : Document where
  apnProfiles := [(.empty, some { apnName := some n.text })]

theorem namesFound_letters :
    NamesFound (oneApn (letters 62 (by decide))) (letters 62 (by decide)).encoding := by
  have hrules : ∀ s, s ∉ ruleNames (oneApn (letters 62 (by decide))) := fun _ => List.not_mem_nil
  refine (namesFound_iff (fun s hs => absurd hs (hrules s)) fun s hs =>
    ⟨_, (List.mem_singleton.mp hs).symm⟩).mpr ⟨fun s hs => absurd hs (hrules s), fun q hq => ?_,
      fun hnil => absurd hnil (ApnName.encoding_ne_nil _)⟩
  obtain rfl := List.mem_singleton.mp hq
  exact ⟨fun s hs => Option.some.inj hs ▸ (strlen_letters _).le, by decide, by decide⟩

/-- **The program goes wrong on a name of 63 characters.** -/
theorem not_namesFound_letters :
    parseApnProfiles (oneApn (letters 63 (by decide))) = .error .badPointer ∧
      ¬NamesFound (oneApn (letters 63 (by decide))) (letters 63 (by decide)).encoding := by
  have hparse : parseApnProfiles (oneApn (letters 63 (by decide))) = .error .badPointer := by
    have henc := encodeApnName_text (letters 63 (by decide))
    rw [strlen_letters, if_neg (by decide)] at henc
    change ((parseApnProfile .empty { apnName := some _ }) >>= _) = _
    rw [parseApnProfile, parseApnName, henc]
    rfl
  refine ⟨hparse, ?_⟩
  rintro ⟨-, profiles, hok, -⟩
  cases hparse.symm.trans hok

end Spgw.Config
