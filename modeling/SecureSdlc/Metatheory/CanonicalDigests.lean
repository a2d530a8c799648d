import SecureSdlc.Core.JsonCanonical
import SecureSdlc.Metatheory.CapabilityBinding
import SecureSdlc.Metatheory.EvidenceRecovery
import SecureSdlc.Metatheory.ReleaseGate
import SecureSdlc.Tools.Builtin

/-!
What the canonical digests commit to: the bundle digest of a candidate, the input digest
of a policy decision and the digest of a stored artifact. SHA-256 is a function without
collisions. Values with floats are left out.
-/

namespace SecureSdlc.DeployVerify

open Core Policy Artifacts Contracts Tools

/-- A value that has one text: no float, and no key twice, as in a `dict`. -/
structure Exact (v : Json) : Prop where
  distinct : v.distinctKeys = true
  floatFree : JsonText.FloatFree v

theorem Exact.item {items : List Json} (h : Exact (.arr items)) {v : Json} (hv : v ∈ items) :
    Exact v :=
  ⟨Json.distinctKeys_of_item h.distinct hv,
    (JsonText.allScalarsItems_iff items).mp h.floatFree v hv⟩

theorem Exact.member {fields : Mapping} (h : Exact (.obj fields)) {key : PyStr} {v : Json}
    (hv : Assoc.get fields key = some v) : Exact v :=
  ⟨(Json.distinctKeys_of_field h.distinct).2 _ (Assoc.mem_of_get hv),
    ((JsonText.allScalarsFields_iff fields).mp h.floatFree _ (Assoc.mem_of_get hv)).2⟩

section Digest

variable {rt : Runtime} {a b : Json} {digest : PyStr}

theorem sha256OfText_injective (hfree : Function.Injective rt.sha256) {s t : PyStr}
    (hs : sha256OfText rt s = .ok digest) (ht : sha256OfText rt t = .ok digest) : s = t := by
  rw [sha256OfText] at hs ht
  cases hdata : PyStr.encodeUtf8 s with
  | none =>
      rw [hdata] at hs
      cases hs
  | some data =>
      cases hdata' : PyStr.encodeUtf8 t with
      | none =>
          rw [hdata'] at ht
          cases ht
      | some data' =>
          rw [hdata] at hs
          rw [hdata'] at ht
          have hhex := Except.ok.inj (hs.trans ht.symm)
          obtain rfl : data = data' := hfree (hexOfBytes_injective hhex)
          exact PyStr.encodeUtf8_injective hdata hdata'

theorem sha256Digest_of_agree (ha : Exact a) (hb : Exact b) (hagree : Json.Agree a b)
    (h : sha256Digest rt a = .ok digest) : sha256Digest rt b = .ok digest := by
  obtain ⟨text, htext, h⟩ := exists_ok_of_bind h
  have htext' : canonicalJson rt b = .ok text :=
    (JsonText.dumps_canonical_iff ha.distinct hb.distinct ha.floatFree hb.floatFree htext).mpr
      hagree
  rw [sha256Digest, htext']
  exact h

theorem agree_of_sha256Digest (hfree : Function.Injective rt.sha256) (ha : Exact a) (hb : Exact b)
    (h : sha256Digest rt a = .ok digest) (h' : sha256Digest rt b = .ok digest) :
    Json.Agree a b := by
  obtain ⟨text, htext, h⟩ := exists_ok_of_bind h
  obtain ⟨text', htext', h'⟩ := exists_ok_of_bind h'
  obtain rfl := sha256OfText_injective hfree h h'
  exact (JsonText.dumps_canonical_iff ha.distinct hb.distinct ha.floatFree hb.floatFree htext).mp
    htext'

/-- Digests of two values that have one. -/
theorem sha256Digest_eq_iff (hfree : Function.Injective rt.sha256) (ha : Exact a) (hb : Exact b)
    {digest' : PyStr} (h : sha256Digest rt a = .ok digest) (h' : sha256Digest rt b = .ok digest') :
    digest = digest' ↔ Json.Agree a b := by
  constructor
  · rintro rfl
    exact agree_of_sha256Digest hfree ha hb h h'
  · intro hagree
    exact Except.ok.inj ((sha256Digest_of_agree ha hb hagree h).symm.trans h')

end Digest

section Members

variable {fields fields' : Mapping} {key : PyStr}

theorem get_of_agree (h : Json.Agree (.obj fields) (.obj fields')) {v : Json}
    (hv : Assoc.get fields key = some v) :
    ∃ v', Assoc.get fields' key = some v' ∧ Json.Agree v v' := by
  rw [Json.Agree, Json.agreeFields_iff] at h
  exact h.2 (key, v) (Assoc.mem_of_get hv)

theorem str_of_agree (h : Json.Agree (.obj fields) (.obj fields')) {s : PyStr}
    (hs : Assoc.get fields key = some (.str s)) : Assoc.get fields' key = some (.str s) := by
  obtain ⟨v, hv, hagree⟩ := get_of_agree h hs
  cases v with
  | str t =>
      rw [Json.Agree] at hagree
      rw [hv, hagree]
  | _ => cases hagree

theorem obj_of_agree (h : Json.Agree (.obj fields) (.obj fields')) {part : Mapping}
    (hpart : Assoc.get fields key = some (.obj part)) :
    ∃ part', Assoc.get fields' key = some (.obj part') ∧ Json.Agree (.obj part) (.obj part') := by
  obtain ⟨v, hv, hagree⟩ := get_of_agree h hpart
  cases v with
  | obj part' => exact ⟨part', hv, hagree⟩
  | _ => cases hagree

theorem arr_of_agree (h : Json.Agree (.obj fields) (.obj fields')) {items : List Json}
    (hitems : Assoc.get fields key = some (.arr items)) :
    ∃ items', Assoc.get fields' key = some (.arr items') ∧
      List.Forall₂ Json.Agree items items' := by
  obtain ⟨v, hv, hagree⟩ := get_of_agree h hitems
  cases v with
  | arr items' => exact ⟨items', hv, Json.agreeItems_iff.mp hagree⟩
  | _ => cases hagree

end Members

/-- What returns for the elements of one list returns the same for those of the other. -/
theorem mapM_of_forall₂ {α β γ : Type} {f : α → Except PyError γ} {g : β → Except PyError γ}
    {as : List α} {bs : List β} {results : List γ}
    (h : List.Forall₂ (fun a b => ∀ r, f a = .ok r → g b = .ok r) as bs)
    (hf : as.mapM f = .ok results) : bs.mapM g = .ok results := by
  induction h generalizing results with
  | nil => exact hf
  | cons hhead _ ih =>
      rw [List.mapM_cons] at hf ⊢
      obtain ⟨r, hr, hf⟩ := exists_ok_of_bind hf
      obtain ⟨rest, hrest, hf⟩ := exists_ok_of_bind hf
      rw [hhead r hr, ih hrest]
      exact hf

section Bundle

variable {rt : Runtime}

/-- The items of a bundle: three texts. -/
def IsItem (item : Json) : Prop :=
  ∃ kind ref digest, item =
    .obj [(py "kind", .str kind), (py "ref", .str ref), (py "digest", .str digest)]

theorem evidenceItem_isItem {kind ref : PyStr} {value : Mapping} {item : Json}
    (h : evidenceItem rt kind ref value = .ok item) : IsItem item := by
  obtain ⟨digest, -, h⟩ := exists_ok_of_bind h
  cases h
  exact ⟨kind, ref, digest, rfl⟩

theorem evidenceItem_of_agree {kind ref : PyStr} {value value' : Mapping} {item : Json}
    (hv : Exact (.obj value)) (hv' : Exact (.obj value'))
    (hagree : Json.Agree (.obj value) (.obj value'))
    (h : evidenceItem rt kind ref value = .ok item) :
    evidenceItem rt kind ref value' = .ok item := by
  obtain ⟨digest, hdigest, h⟩ := exists_ok_of_bind h
  rw [evidenceItem, sha256Digest_of_agree hv hv' hagree hdigest]
  exact h

theorem objectItem_isItem {candidate : Mapping} {kind : PyStr} {items : List Json}
    (h : objectItem rt candidate kind = .ok items) : ∀ item ∈ items, IsItem item := by
  rw [objectItem] at h
  split at h
  · obtain ⟨item, hitem, h⟩ := exists_ok_of_bind h
    cases h
    rw [List.forall_mem_singleton]
    exact evidenceItem_isItem hitem
  · cases h
    exact List.forall_mem_nil _

theorem decisionItem_isItem {v : Json} {items : List Json} (h : decisionItem rt v = .ok items) :
    ∀ item ∈ items, IsItem item := by
  rw [decisionItem.eq_def] at h
  split at h
  · obtain ⟨point, -, h⟩ := exists_ok_of_bind h
    obtain ⟨item, hitem, h⟩ := exists_ok_of_bind h
    cases h
    rw [List.forall_mem_singleton]
    exact evidenceItem_isItem hitem
  · cases h
    exact List.forall_mem_nil _

theorem approvalItem_isItem {v : Json} {items : List Json} (h : approvalItem rt v = .ok items) :
    ∀ item ∈ items, IsItem item := by
  rw [approvalItem.eq_def] at h
  split at h
  · obtain ⟨actorId, -, h⟩ := exists_ok_of_bind h
    obtain ⟨role, -, h⟩ := exists_ok_of_bind h
    obtain ⟨item, hitem, h⟩ := exists_ok_of_bind h
    cases h
    rw [List.forall_mem_singleton]
    exact evidenceItem_isItem hitem
  · cases h
    exact List.forall_mem_nil _

theorem flatten_isItem {α : Type} {f : α → Except PyError (List Json)}
    (hf : ∀ x items, f x = .ok items → ∀ item ∈ items, IsItem item) {xs : List α}
    {lists : List (List Json)} (h : xs.mapM f = .ok lists) :
    ∀ item ∈ lists.flatten, IsItem item := by
  intro item hitem
  obtain ⟨list, hlist, hmem⟩ := List.mem_flatten.mp hitem
  obtain ⟨x, -, hx⟩ := (mem_of_mapM_ok h).2 list hlist
  exact hf x list hx item hmem

theorem collectItems_isItem {candidate : Mapping} {items : List Json}
    (h : collectItems rt candidate = .ok items) : ∀ item ∈ items, IsItem item := by
  obtain ⟨objects, hobjects, h⟩ := exists_ok_of_bind h
  obtain ⟨entries, -, h⟩ := exists_ok_of_bind h
  obtain ⟨decisions, hdecisions, h⟩ := exists_ok_of_bind h
  obtain ⟨entries', -, h⟩ := exists_ok_of_bind h
  obtain ⟨approvals, happrovals, h⟩ := exists_ok_of_bind h
  cases h
  intro item hitem
  rw [List.mem_append, List.mem_append] at hitem
  rcases hitem with (hitem | hitem) | hitem
  · exact flatten_isItem (fun _ _ => objectItem_isItem) hobjects item hitem
  · exact flatten_isItem (fun _ _ => decisionItem_isItem) hdecisions item hitem
  · exact flatten_isItem (fun _ _ => approvalItem_isItem) happrovals item hitem

theorem objectItem_of_agree {candidate candidate' : Mapping} {kind : PyStr} {items : List Json}
    (hc : Exact (.obj candidate)) (hc' : Exact (.obj candidate'))
    (hagree : Json.Agree (.obj candidate) (.obj candidate'))
    (hpart : ∃ part, Assoc.get candidate kind = some (.obj part))
    (h : objectItem rt candidate kind = .ok items) : objectItem rt candidate' kind = .ok items := by
  obtain ⟨part, hpart⟩ := hpart
  obtain ⟨part', hpart', hparts⟩ := obj_of_agree hagree hpart
  rw [objectItem, hpart] at h
  rw [objectItem, hpart']
  obtain ⟨item, hitem, h⟩ := exists_ok_of_bind h
  simp only [evidenceItem_of_agree (hc.member hpart) (hc'.member hpart') hparts hitem]
  exact h

theorem decisionItem_of_agree {v v' : Json} {items : List Json} (hv : Exact v) (hv' : Exact v')
    (hagree : Json.Agree v v')
    (hentry : ∃ entry point, v = .obj entry ∧ Assoc.get entry (py "point") = some (.str point))
    (h : decisionItem rt v = .ok items) : decisionItem rt v' = .ok items := by
  obtain ⟨entry, point, rfl, hpoint⟩ := hentry
  cases v' with
  | obj entry' =>
      simp only [decisionItem, hpoint, str_of_agree hagree hpoint, Option.getD_some,
        Json.text_str] at h ⊢
      obtain ⟨text, htext, h⟩ := exists_ok_of_bind h
      cases htext
      obtain ⟨item, hitem, h⟩ := exists_ok_of_bind h
      simp only [evidenceItem_of_agree hv hv' hagree hitem, bind, Except.bind]
      exact h
  | _ => cases hagree

theorem approvalItem_of_agree {v v' : Json} {items : List Json} (hv : Exact v) (hv' : Exact v')
    (hagree : Json.Agree v v')
    (hentry : ∃ entry role actor id, v = .obj entry ∧
      Assoc.get entry (py "role") = some (.str role) ∧
      Assoc.get entry (py "actor") = some (.obj actor) ∧
      Assoc.get actor (py "id") = some (.str id))
    (h : approvalItem rt v = .ok items) : approvalItem rt v' = .ok items := by
  obtain ⟨entry, role, actor, id, rfl, hrole, hactor, hid⟩ := hentry
  cases v' with
  | obj entry' =>
      obtain ⟨actor', hactor', hactors⟩ := obj_of_agree hagree hactor
      simp only [approvalItem, approverId, hrole, str_of_agree hagree hrole, hactor, hactor', hid,
        str_of_agree hactors hid, Option.getD_some, Json.text_str] at h ⊢
      obtain ⟨actorId, hactorId, h⟩ := exists_ok_of_bind h
      cases hactorId
      obtain ⟨text, htext, h⟩ := exists_ok_of_bind h
      cases htext
      obtain ⟨item, hitem, h⟩ := exists_ok_of_bind h
      simp only [evidenceItem_of_agree hv hv' hagree hitem, bind, Except.bind]
      exact h
  | _ => cases hagree

/-- Elements of lists that agree, with what is known of those of the first. -/
theorem forall₂_with {P : Json → Prop} {f : Json → Except PyError (List Json)}
    (hf : ∀ v v' items, Exact v → Exact v' → Json.Agree v v' → P v → f v = .ok items →
      f v' = .ok items) {as bs : List Json} (has : ∀ a ∈ as, Exact a ∧ P a)
    (hbs : ∀ b ∈ bs, Exact b) (h : List.Forall₂ Json.Agree as bs) :
    List.Forall₂ (fun a b => ∀ items, f a = .ok items → f b = .ok items) as bs := by
  induction h with
  | nil => exact .nil
  | cons hhead _ ih =>
      rw [List.forall_mem_cons] at has hbs
      exact .cons (fun items => hf _ _ items has.1.1 hbs.1 hhead has.1.2) (ih has.2 hbs.2)

theorem collectItems_of_agree {candidate candidate' : Mapping} {items : List Json}
    (he : Evidence candidate) (hc : Exact (.obj candidate)) (hc' : Exact (.obj candidate'))
    (hagree : Json.Agree (.obj candidate) (.obj candidate'))
    (h : collectItems rt candidate = .ok items) : collectItems rt candidate' = .ok items := by
  obtain ⟨entries, hentries, hpoints⟩ := he.decisions
  obtain ⟨entries', hentries', hdecisions⟩ := arr_of_agree hagree hentries
  obtain ⟨approvals, happrovals, hmembers⟩ := he.approvals
  obtain ⟨approvals', happrovals', hsame⟩ := arr_of_agree hagree happrovals
  have hparts : ∀ kind ∈ objectItems, ∃ part, Assoc.get candidate kind = some (.obj part) := by
    obtain ⟨signature, -, hsignature, -⟩ := he.signature
    obtain ⟨sbom, -, hsbom, -⟩ := he.sbom
    obtain ⟨provenance, -, hprovenance, -⟩ := he.provenance
    simp only [objectItems, List.forall_mem_cons, List.not_mem_nil, false_implies, implies_true,
      and_true]
    exact ⟨⟨signature, hsignature⟩, ⟨sbom, hsbom⟩, provenance, hprovenance⟩
  have hobjects : List.Forall₂ (fun kind kind' => ∀ items,
      objectItem rt candidate kind = .ok items → objectItem rt candidate' kind' = .ok items)
      objectItems objectItems := by
    rw [List.forall₂_same]
    exact fun kind hkind items => objectItem_of_agree hc hc' hagree (hparts kind hkind)
  have hpointed : ∀ v ∈ entries.map Json.obj, Exact v ∧
      ∃ entry point, v = .obj entry ∧ Assoc.get entry (py "point") = some (.str point) := by
    intro v hv
    refine ⟨(hc.member hentries).item hv, ?_⟩
    obtain ⟨entry, hentry, rfl⟩ := List.mem_map.mp hv
    obtain ⟨point, hpoint⟩ := hpoints entry hentry
    exact ⟨entry, point, rfl, hpoint⟩
  have happroved : ∀ v ∈ approvals.map Json.obj, Exact v ∧
      ∃ entry role actor id, v = .obj entry ∧ Assoc.get entry (py "role") = some (.str role) ∧
        Assoc.get entry (py "actor") = some (.obj actor) ∧
        Assoc.get actor (py "id") = some (.str id) := by
    intro v hv
    refine ⟨(hc.member happrovals).item hv, ?_⟩
    obtain ⟨entry, hentry, rfl⟩ := List.mem_map.mp hv
    obtain ⟨role, actor, id, hentry⟩ := hmembers entry hentry
    exact ⟨entry, role, actor, id, rfl, hentry⟩
  have hdecided := forall₂_with (f := decisionItem rt) (fun _ _ _ => decisionItem_of_agree)
    hpointed (fun _ => (hc'.member hentries').item) hdecisions
  have happroved := forall₂_with (f := approvalItem rt) (fun _ _ _ => approvalItem_of_agree)
    happroved (fun _ => (hc'.member happrovals').item) hsame
  simp only [collectItems, iterateMember, hentries, hentries', happrovals, happrovals',
    Json.iterate] at h ⊢
  obtain ⟨objectLists, hobjectLists, h⟩ := exists_ok_of_bind h
  obtain ⟨given, hgiven, h⟩ := exists_ok_of_bind h
  cases hgiven
  obtain ⟨decisionLists, hdecisionLists, h⟩ := exists_ok_of_bind h
  obtain ⟨given', hgiven', h⟩ := exists_ok_of_bind h
  cases hgiven'
  obtain ⟨approvalLists, happrovalLists, h⟩ := exists_ok_of_bind h
  simp only [mapM_of_forall₂ hobjects hobjectLists, mapM_of_forall₂ hdecided hdecisionLists,
    mapM_of_forall₂ happroved happrovalLists, bind, Except.bind]
  exact h

end Bundle

section Commitments

variable (rt : Runtime)

/-- Some bundle of the candidate has this `bundle_digest`. -/
def Bundled (candidate : Mapping) (digest : PyStr) : Prop :=
  ∃ artifactId createdAt actor runId links bundle,
    buildEvidenceBundle rt artifactId createdAt actor runId candidate links = .ok bundle ∧
    Assoc.get bundle (py "bundle_digest") = some (.str digest)

/-- Some policy decision on the input has this `input_digest`. -/
def Decided (payload : Json) (digest : PyStr) : Prop :=
  ∃ (client : PolicyClient) (point : PyStr) (result : PolicyResult) (artifactId createdAt : PyStr)
    (actor : Mapping) (runId : PyStr) (links : List Mapping),
    client.evaluate rt point payload = .ok result ∧
    Assoc.get (buildPolicyDecision result artifactId createdAt actor runId point links)
      (py "input_digest") = some (.str digest)

/-- Some `ArtifactStore.write` of the document returned this digest. -/
def Stored (document : Mapping) (digest : PyStr) : Prop :=
  ∃ root disk disk', ArtifactStore.write rt root document disk = (.ok digest, disk')

variable {rt}

theorem ValidCandidate.toExact (candidate : ValidCandidate) : Exact (.obj candidate.fields) :=
  ⟨candidate.distinct, candidate.toPlain.floatFree⟩

theorem exact_manifest {image candidateDigest : PyStr} {items : List Json}
    (h : ∀ item ∈ items, IsItem item) :
    Exact (.obj [(py "image", .str image), (py "candidate_digest", .str candidateDigest),
      (py "items", .arr items)]) := by
  have hitems : ∀ item ∈ items, Exact item := by
    intro item hitem
    obtain ⟨kind, ref, digest, rfl⟩ := h item hitem
    exact ⟨rfl, rfl⟩
  have hdistinct : Json.distinctKeysItems items = true := by
    clear h
    induction items with
    | nil => rfl
    | cons item items ih =>
        rw [List.forall_mem_cons] at hitems
        rw [Json.distinctKeysItems, hitems.1.distinct, ih hitems.2]
        rfl
  refine ⟨?_, ?_⟩
  · have hkeys : (List.map Prod.fst [(py "image", Json.str image),
        (py "candidate_digest", .str candidateDigest), (py "items", .arr items)]).Nodup := by
      simp only [List.map_cons, List.map_nil]
      decide
    simp only [Json.distinctKeys, Json.distinctKeysFields, hdistinct, hkeys, decide_true,
      Bool.and_self]
  · apply (JsonText.allScalarsFields_iff _).mpr
    simp only [List.forall_mem_cons, List.not_mem_nil, false_implies, implies_true, and_true]
    exact ⟨⟨trivial, rfl⟩, ⟨trivial, rfl⟩, trivial,
      (JsonText.allScalarsItems_iff items).mpr fun item hitem => (hitems item hitem).floatFree⟩

/-- What a bundle's digest is computed from. -/
theorem bundled_parts {candidate : Mapping} {digest : PyStr} (h : Bundled rt candidate digest) :
    ∃ image candidateDigest items,
      ((Assoc.get candidate (py "image")).getD (.str [])).text rt = .ok image ∧
      sha256Digest rt (.obj candidate) = .ok candidateDigest ∧
      collectItems rt candidate = .ok items ∧
      bundleDigest rt image candidateDigest items = .ok digest := by
  obtain ⟨artifactId, createdAt, actor, runId, links, bundle, h, hdigest⟩ := h
  obtain ⟨image, himage, h⟩ := exists_ok_of_bind h
  obtain ⟨candidateDigest, hcandidate, h⟩ := exists_ok_of_bind h
  obtain ⟨items, hitems, h⟩ := exists_ok_of_bind h
  obtain ⟨whole, hwhole, h⟩ := exists_ok_of_bind h
  cases h
  refine ⟨image, candidateDigest, items, himage, hcandidate, hitems, ?_⟩
  rw [hwhole]
  cases hdigest
  rfl

theorem bundled_eq_iff (hfree : Function.Injective rt.sha256)
    (candidate candidate' : ValidCandidate) {digest digest' : PyStr}
    (h : Bundled rt candidate.fields digest)
    (h' : Bundled rt candidate'.fields digest') :
    digest = digest' ↔ Json.Agree (.obj candidate.fields) (.obj candidate'.fields) := by
  obtain ⟨image, candidateDigest, items, himage, hcandidate, hitems, hdigest⟩ := bundled_parts h
  obtain ⟨image', candidateDigest', items', himage', hcandidate', hitems', hdigest'⟩ :=
    bundled_parts h'
  have hmanifest := sha256Digest_eq_iff hfree (exact_manifest (collectItems_isItem hitems))
    (exact_manifest (collectItems_isItem hitems')) hdigest hdigest'
  have hcandidates := sha256Digest_eq_iff hfree candidate.toExact candidate'.toExact hcandidate
    hcandidate'
  constructor
  · intro hsame
    rw [← hcandidates]
    have hheld : Assoc.get [(py "image", Json.str image),
        (py "candidate_digest", .str candidateDigest), (py "items", .arr items)]
        (py "candidate_digest") = some (.str candidateDigest) := rfl
    have hagree := str_of_agree (hmanifest.mp hsame) hheld
    cases hagree
    rfl
  · intro hagree
    obtain ⟨s, hs, -⟩ := candidate.toEvidence.image
    rw [hs, Option.getD_some, Json.text_str] at himage
    rw [str_of_agree hagree hs, Option.getD_some, Json.text_str] at himage'
    cases himage
    cases himage'
    have hcollected := collectItems_of_agree candidate.toEvidence candidate.toExact
      candidate'.toExact hagree hitems
    obtain rfl := Except.ok.inj (hcollected.symm.trans hitems')
    obtain rfl := hcandidates.mpr hagree
    exact Except.ok.inj (hdigest.symm.trans hdigest')

theorem decided_digest {payload : Json} {digest : PyStr} (h : Decided rt payload digest) :
    sha256Digest rt payload = .ok digest := by
  obtain ⟨client, point, result, artifactId, createdAt, actor, runId, links, h, hdigest⟩ := h
  cases hdigest
  exact client.evaluate_inputDigest rt h

theorem stored_digest {document : Mapping} {digest : PyStr} (h : Stored rt document digest) :
    sha256Digest rt (.obj document) = .ok digest := by
  obtain ⟨root, disk, disk', h⟩ := h
  rw [ArtifactStore.write] at h
  split at h
  · split at h
    · cases h
    · split at h
      · cases h
      · rename_i canonical hcanonical
        have hdigest : sha256OfText rt canonical = .ok digest := by
          rw [ArtifactStore.persist] at h
          rw [sha256OfText]
          split at h
          · cases h
          · dsimp only at h
            split at h
            · cases h
            · rename_i data hdata
              rw [hdata]
              split at h
              · cases h
              · split at h
                · cases h
                · cases h
                  rfl
        have htext : canonicalJson rt (.obj document) = .ok canonical := hcanonical
        rw [sha256Digest, htext]
        exact hdigest
  · cases h

/-- Canonical texts are equal for values that agree and no others, and so are the digests
of bundles, policy inputs and stored artifacts. -/
theorem canonical_digests_commit (rt : Runtime) (hfree : Function.Injective rt.sha256) :
    (∀ a b text, Exact a → Exact b → canonicalJson rt a = .ok text →
      (canonicalJson rt b = .ok text ↔ Json.Agree a b)) ∧
    (∀ (candidate candidate' : ValidCandidate) (digest digest' : PyStr),
      Bundled rt candidate.fields digest → Bundled rt candidate'.fields digest' →
      (digest = digest' ↔ Json.Agree (.obj candidate.fields) (.obj candidate'.fields))) ∧
    (∀ payload payload' digest digest', Exact payload → Exact payload' →
      Decided rt payload digest → Decided rt payload' digest' →
      (digest = digest' ↔ Json.Agree payload payload')) ∧
    ∀ document document' digest digest', Exact (.obj document) → Exact (.obj document') →
      Stored rt document digest → Stored rt document' digest' →
      (digest = digest' ↔ Json.Agree (.obj document) (.obj document')) := by
  refine ⟨?_, ?_, ?_, ?_⟩
  · intro a b text ha hb
    exact JsonText.dumps_canonical_iff ha.distinct hb.distinct ha.floatFree hb.floatFree
  · intro candidate candidate' digest digest'
    exact bundled_eq_iff hfree candidate candidate'
  · intro payload payload' digest digest' hp hp' h h'
    exact sha256Digest_eq_iff hfree hp hp' (decided_digest h) (decided_digest h')
  · intro document document' digest digest' hd hd' h h'
    exact sha256Digest_eq_iff hfree hd hd' (stored_digest h) (stored_digest h')

/-- A runtime that knows the digest of one text, and has longer ones for all others. -/
def hashRuntime (known : Bytes) (digest : Vector UInt8 32) : Runtime where
  __ := Runtime.ascii
  sha256 := fun data =>
    if data = known then digest.toList else data ++ List.replicate 33 0

theorem hashRuntime_injective (known : Bytes) (digest : Vector UInt8 32) :
    Function.Injective (hashRuntime known digest).sha256 := by
  have hlong : ∀ data : Bytes, digest.toList ≠ data ++ List.replicate 33 0 := by
    intro data heq
    have hlength := congrArg List.length heq
    rw [Vector.length_toList, List.length_append, List.length_replicate] at hlength
    omega
  intro a b h
  simp only [hashRuntime] at h
  split at h
  · rename_i ha
    split at h
    · rename_i hb
      rw [ha, hb]
    · exact absurd h (hlong b)
  · split at h
    · exact absurd h.symm (hlong a)
    · exact List.append_cancel_right h

def inputText : PyStr :=
  py "\x7b\"actor\":\x7b\"id\":\"implementer\",\"role\":\"implementer\",\"type\":\"agent\"\x7d" ++
    py ",\"path\":\"\",\"scope\":\"workspace\",\"tool\":\"read_artifact\"\x7d"

def inputRuntime : Runtime :=
  hashRuntime (inputText.flatMap PyStr.utf8Bytes)
    #v[236, 90, 88, 135, 184, 122, 59, 206, 234, 127, 148, 109, 114, 16, 51, 178,
      229, 96, 127, 52, 139, 168, 167, 84, 125, 227, 181, 58, 117, 251, 81, 244]

def sampleInput : Mapping :=
  [(py "tool", .str (py "read_artifact")), (py "path", .str []),
    (py "scope", .str (py "workspace")),
    (py "actor", .obj (Skills.sampleActor "implementer" "implementer"))]

/-- An input decided twice, its members in another order the second time. -/
theorem sampleInput_committed :
    ∃ digest, Decided inputRuntime (.obj sampleInput) digest ∧
      Decided inputRuntime (.obj sampleInput.reverse) digest ∧
      Json.Agree (.obj sampleInput) (.obj sampleInput.reverse) := by
  have hdecided : ∀ payload ∈ [Json.obj sampleInput, Json.obj sampleInput.reverse],
      ((({ urlopen := fun _ _ => .unreachable } : PolicyClient).evaluate inputRuntime
        (py "pre-tool-call") payload).toOption.map (·.inputDigest)) =
          some (inputRuntime.hexdigest (inputText.flatMap PyStr.utf8Bytes)) := by
    decide +kernel
  have hdigest : ∀ payload ∈ [Json.obj sampleInput, Json.obj sampleInput.reverse],
      Decided inputRuntime payload
        (inputRuntime.hexdigest (inputText.flatMap PyStr.utf8Bytes)) := by
    intro payload hpayload
    obtain ⟨result, hresult, hinput⟩ := Option.map_eq_some_iff.mp (hdecided payload hpayload)
    refine ⟨_, _, result, [], [], [], [], [], ok_of_toOption hresult, ?_⟩
    rw [← hinput]
    rfl
  obtain ⟨-, -, hinputs, -⟩ := canonical_digests_commit inputRuntime (hashRuntime_injective _ _)
  have hfirst := hdigest _ List.mem_cons_self
  have hsecond := hdigest _ (List.mem_cons_of_mem _ List.mem_cons_self)
  have hexact : Exact (.obj sampleInput) := ⟨by decide, rfl⟩
  have hexact' : Exact (.obj sampleInput.reverse) := ⟨by decide, rfl⟩
  exact ⟨_, hfirst, hsecond, (hinputs _ _ _ _ hexact hexact' hfirst hsecond).mp rfl⟩

end Commitments

end SecureSdlc.DeployVerify
