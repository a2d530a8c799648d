import SecureSdlc.Core.JsonCanonical
import SecureSdlc.Metatheory.TraceSelection

/-!
A trace as a function of the documents and their links alone: the loop ends whatever the
links are, and the orders in which the index and the sets are gone through show in the
order of the nodes only.
-/

namespace SecureSdlc.Traceability

open Core

variable {rt : Runtime} {root : Path} {catalog : Catalog} {featureId : PyStr}

/-- The runs of the loop, with no bound on its turns. -/
inductive Search.Loops (rt : Runtime) (index : Index) (hrefs : List (PyStr × Path))
    (edges : List (Path × List Path)) : Search → Search → Prop
  | done {search : Search} (h : search.frontier = []) : Loops rt index hrefs edges search search
  | turn {search next last : Search} {current : Path}
      (hcurrent : search.frontier.getLast? = some current)
      (hvisit : Search.visit rt index hrefs edges
        { search with frontier := search.frontier.dropLast } current = .ok next)
      (hrest : Loops rt index hrefs edges next last) : Loops rt index hrefs edges search last

/-- A bounded run that ends with nothing left to visit is one of the loop. -/
theorem loops_of_exhaust {index : Index} {hrefs : List (PyStr × Path)}
    {edges : List (Path × List Path)} {fuel : Nat} {search last : Search}
    (h : Search.exhaust rt index hrefs edges fuel search = .ok last) (hdone : last.frontier = []) :
    Search.Loops rt index hrefs edges search last := by
  induction fuel generalizing search with
  | zero =>
      cases h
      exact .done hdone
  | succ fuel ih =>
      rw [Search.exhaust] at h
      split at h
      · cases h
        exact .done hdone
      · rename_i current hcurrent
        obtain ⟨next, hvisit, hrest⟩ := exists_ok_of_bind h
        exact .turn hcurrent hvisit (ih hrest)

/-- The document at `p` has a link to a file that is not in the index. -/
def Misses (rt : Runtime) (root : Path) (catalog : Catalog) (p : Path) (href : PyStr) : Prop :=
  href ∈ targetsOf rt (documentAt catalog p) ∧
    ¬ ∃ q document, (q, document) ∈ catalog.entries ∧ posixOf root q = href

theorem mem_danglingAt_iff (hbelow : ∀ entry ∈ catalog.entries, root <+: entry.1) {p : Path}
    {href : PyStr} : href ∈ danglingAt rt root catalog p ↔ Misses rt root catalog p href := by
  rw [danglingAt, List.mem_filter, Misses]
  refine and_congr_right fun _ => ?_
  rw [Option.isNone_iff_eq_none, ← not_iff_not, not_not, ← ne_eq, Option.ne_none_iff_exists']
  refine exists_congr fun q => ?_
  rw [hrefTable, get_hrefs hbelow, exists_and_right]

/-- What a trace comes to: one node for each connected document, the sorted links of these
that miss, and the lifecycle types parted by presence. -/
structure Exact (rt : Runtime) (root : Path) (catalog : Catalog) (featureId : PyStr)
    (report : Report) : Prop where
  nodes : ∃ selected nodes, selected.Nodup ∧
    (∀ p, p ∈ selected ↔ Connected rt root catalog featureId p) ∧
    List.Forall₂ (fun p node => traceNode rt root catalog.entries p = .ok node) selected nodes ∧
    report.nodes.Perm nodes
  dangling : ∀ href, href ∈ report.dangling ↔
    ∃ p, Connected rt root catalog featureId p ∧ Misses rt root catalog p href
  sorted : report.dangling.Pairwise fun a b => PyStr.le a b = true ∧ a ≠ b
  ordered : report.orderedTypes =
    chainOrder.filter fun kind => decide (kind ∈ report.nodes.map TraceNode.artifactType)
  missing : report.missingTypes =
    chainOrder.filter fun kind => decide (kind ∉ report.nodes.map TraceNode.artifactType)

/-- Lists without repetition in one strict order are equal when their members are. -/
theorem eq_of_sorted {a b : List PyStr}
    (ha : a.Pairwise fun a b => PyStr.le a b = true ∧ a ≠ b)
    (hb : b.Pairwise fun a b => PyStr.le a b = true ∧ a ≠ b) (h : ∀ s, s ∈ a ↔ s ∈ b) : a = b := by
  have hnodup : ∀ {l : List PyStr}, (l.Pairwise fun a b => PyStr.le a b = true ∧ a ≠ b) → l.Nodup :=
    fun hl => hl.imp And.right
  refine ((List.perm_ext_iff_of_nodup (hnodup ha) (hnodup hb)).mpr h).eq_of_pairwise ?_ ha hb
  intro s t _ _ hst hts
  exact PyStr.le_antisymm hst.1 hts.1

theorem traceFeatureIn_sorted {order : SetOrder} {report : Report}
    (h : traceFeatureIn order rt root featureId catalog.entries = .ok report) :
    report.dangling.Pairwise fun a b => PyStr.le a b = true ∧ a ≠ b := by
  obtain ⟨hrefs, -, hlater⟩ := exists_ok_of_bind h
  obtain ⟨edges, -, hselected⟩ := exists_ok_of_bind hlater
  obtain ⟨search, -, hrest⟩ := exists_ok_of_bind hselected
  obtain ⟨nodes, -, hreport⟩ := exists_ok_of_bind hrest
  rw [← Except.ok.inj hreport]
  exact PyStr.strict_insertionSort (List.nodup_dedup search.dangling)

theorem exact_of_traceFeatureIn {order : SetOrder} {report : Report}
    (h : traceFeatureIn order rt root featureId catalog.entries = .ok report) :
    Exact rt root catalog featureId report := by
  obtain ⟨selected, nodes, traced⟩ := traceFeatureIn_traced h
  refine ⟨⟨selected, nodes, traced.nodup, traced.connected, forall₂_of_mapM_ok traced.read,
    traced.nodes⟩, ?_, traceFeatureIn_sorted h, traced.ordered, traced.missing⟩
  intro href
  rw [traced.dangling]
  exact exists_congr fun p => and_congr_right fun _ => mem_danglingAt_iff traced.readable.below

section Same

/-! Catalogs of the same documents, in any order. -/

variable {catalog' : Catalog} (h : catalog.entries.Perm catalog'.entries)

include h

theorem get_of_same (p : Path) : Assoc.get catalog.entries p = Assoc.get catalog'.entries p := by
  apply Option.ext
  intro document
  rw [Assoc.get_iff_mem catalog.unique, Assoc.get_iff_mem catalog'.unique]
  exact h.mem_iff

theorem linked_of_same : Linked rt root catalog = Linked rt root catalog' := by
  funext p q
  rw [Linked, Linked, documentAt, documentAt, get_of_same h]
  simp only [h.mem_iff]

theorem connected_of_same (p : Path) :
    Connected rt root catalog featureId p ↔ Connected rt root catalog' featureId p := by
  rw [Connected, Connected, linked_of_same h]
  simp only [h.mem_iff]

theorem misses_of_same (p : Path) (href : PyStr) :
    Misses rt root catalog p href ↔ Misses rt root catalog' p href := by
  rw [Misses, Misses, documentAt, documentAt, get_of_same h]
  simp only [h.mem_iff]

theorem traceNode_of_same (p : Path) :
    traceNode rt root catalog.entries p = traceNode rt root catalog'.entries p := by
  simp only [traceNode, get_of_same h]

theorem readable_of_same : Readable rt root catalog ↔ Readable rt root catalog' := by
  constructor
  · intro hread
    exact ⟨fun entry hentry => hread.below entry (h.mem_iff.mpr hentry),
      fun entry hentry => hread.links entry (h.mem_iff.mpr hentry)⟩
  · intro hread
    exact ⟨fun entry hentry => hread.below entry (h.mem_iff.mp hentry),
      fun entry hentry => hread.links entry (h.mem_iff.mp hentry)⟩

end Same

/-- The trace returns exactly when the index is below the root, the links can be read, and
the ids and types of what is connected have a text. -/
theorem traceFeatureIn_ok_iff (order : SetOrder) :
    (∃ report, traceFeatureIn order rt root featureId catalog.entries = .ok report) ↔
      Readable rt root catalog ∧ ∀ p, Connected rt root catalog featureId p →
        ∃ node, traceNode rt root catalog.entries p = .ok node := by
  constructor
  · rintro ⟨report, h⟩
    obtain ⟨selected, nodes, traced⟩ := traceFeatureIn_traced h
    refine ⟨traced.readable, fun p hp => ?_⟩
    obtain ⟨node, -, hnode⟩ := (mem_of_mapM_ok traced.read).1 p ((traced.connected p).mpr hp)
    exact ⟨node, hnode⟩
  · rintro ⟨hreadable, hnodes⟩
    exact traceFeatureIn_ok order hreadable hnodes

theorem exact_of_same {catalog' : Catalog} (h : catalog.entries.Perm catalog'.entries)
    {report : Report} (hexact : Exact rt root catalog' featureId report) :
    Exact rt root catalog featureId report := by
  obtain ⟨selected, nodes, hnodup, hselected, hnodes, hperm⟩ := hexact.nodes
  refine ⟨⟨selected, nodes, hnodup, fun p => (hselected p).trans (connected_of_same h p).symm,
    ?_, hperm⟩, fun href => ?_, hexact.sorted, hexact.ordered, hexact.missing⟩
  · simp only [traceNode_of_same h]
    exact hnodes
  · rw [hexact.dangling]
    simp only [connected_of_same h, misses_of_same h]

/-- Two exact reports of one catalog differ at most in the order of their nodes. -/
structure Agrees (report report' : Report) : Prop where
  nodes : report.nodes.Perm report'.nodes
  dangling : report.dangling = report'.dangling
  ordered : report.orderedTypes = report'.orderedTypes
  missing : report.missingTypes = report'.missingTypes

theorem agrees_of_exact {report report' : Report} (h : Exact rt root catalog featureId report)
    (h' : Exact rt root catalog featureId report') : Agrees report report' := by
  obtain ⟨selected, nodes, hnodup, hselected, hnodes, hperm⟩ := h.nodes
  obtain ⟨selected', nodes', hnodup', hselected', hnodes', hperm'⟩ := h'.nodes
  have hpaths : selected.Perm selected' := (List.perm_ext_iff_of_nodup hnodup hnodup').mpr
    fun p => (hselected p).trans (hselected' p).symm
  have hall : report.nodes.Perm report'.nodes :=
    hperm.trans ((perm_of_forall₂_ok hpaths hnodes hnodes').trans hperm'.symm)
  have htypes : ∀ kind, kind ∈ report.nodes.map TraceNode.artifactType ↔
      kind ∈ report'.nodes.map TraceNode.artifactType := fun kind => (hall.map _).mem_iff
  refine ⟨hall, ?_, ?_, ?_⟩
  · exact eq_of_sorted h.sorted h'.sorted fun href =>
      (h.dangling href).trans (h'.dangling href).symm
  · simp only [h.ordered, h'.ordered, htypes]
  · simp only [h.missing, h'.missing, htypes]

/-- The loop ends by itself on every readable index, whatever its links; a trace that
returns is exact, and any order of the documents and of the sets gives one that agrees. -/
theorem trace_exact (rt : Runtime) (root : Path) (catalog : Catalog) (featureId : PyStr)
    (order : SetOrder) :
    (Readable rt root catalog → ∃ search,
      Search.Loops rt catalog.entries (hrefTable root catalog) (edgeTable rt root catalog)
        (beginSearch catalog featureId (order.first (tagged catalog featureId))) search) ∧
    ((∃ report, traceFeatureIn order rt root featureId catalog.entries = .ok report) ↔
      Readable rt root catalog ∧ ∀ p, Connected rt root catalog featureId p →
        ∃ node, traceNode rt root catalog.entries p = .ok node) ∧
    ∀ report, traceFeatureIn order rt root featureId catalog.entries = .ok report →
      Exact rt root catalog featureId report ∧
      ∀ (catalog' : Catalog) (order' : SetOrder), catalog.entries.Perm catalog'.entries →
        ∃ report', traceFeatureIn order' rt root featureId catalog'.entries = .ok report' ∧
          Agrees report report' := by
  refine ⟨?_, traceFeatureIn_ok_iff order, ?_⟩
  · intro hreadable
    obtain ⟨search, hsearch, -, hdone⟩ :=
      exhaust_selects hreadable (order.first_perm (tagged catalog featureId))
    exact ⟨search, loops_of_exhaust hsearch hdone⟩
  · intro report h
    have hexact := exact_of_traceFeatureIn h
    refine ⟨hexact, fun catalog' order' hsame => ?_⟩
    obtain ⟨hreadable, hnodes⟩ := (traceFeatureIn_ok_iff order).mp ⟨report, h⟩
    have hreturns : ∃ report', traceFeatureIn order' rt root featureId catalog'.entries =
        .ok report' := by
      rw [traceFeatureIn_ok_iff]
      refine ⟨(readable_of_same hsame).mp hreadable, fun p hp => ?_⟩
      rw [← traceNode_of_same hsame]
      exact hnodes p ((connected_of_same hsame p).mpr hp)
    obtain ⟨report', h'⟩ := hreturns
    exact ⟨report', h', agrees_of_exact hexact (exact_of_same hsame (exact_of_traceFeatureIn h'))⟩

end SecureSdlc.Traceability
