import Mathlib.Data.List.Dedup
import SecureSdlc.Core.Worklist
import SecureSdlc.Traceability

/-!
What the trace of a feature selects: the artifacts that links connect, in either
direction, with one that carries the feature's id. Which feature the others belong to
plays no part, so a trace may be complete on another feature's artifacts.
-/

namespace SecureSdlc.Traceability

open Core

/-- No path string would split a component, or drop it. -/
def RealPath (p : Path) : Prop := ∀ c ∈ p, Path.slash ∉ c ∧ Path.skipped c = false

/-- An index as `pathlib` can key it: no path twice, and real paths only. -/
structure Catalog where
  entries : Index
  unique : Assoc.Unique entries
  real : ∀ entry ∈ entries, RealPath entry.1

variable (rt : Runtime) (root : Path) (catalog : Catalog)

def documentAt (p : Path) : Mapping := (Assoc.get catalog.entries p).getD []

def posixOf (p : Path) : PyStr := (relativePosix root p).toOption.getD default

def targetsOf (document : Mapping) : List PyStr :=
  (localLinkTargets rt document).toOption.getD default

/-- The artifact at `p` has a link whose target is the artifact at `q`. -/
def Linked (p q : Path) : Prop :=
  (∃ document, (q, document) ∈ catalog.entries) ∧
    posixOf root q ∈ targetsOf rt (documentAt catalog p)

def Tagged (featureId : PyStr) (document : Mapping) : Prop :=
  Assoc.get document (py "feature_id") = some (.str featureId)

/-- Links connect the artifact at `p`, in either direction, with one of the feature. -/
def Connected (featureId : PyStr) (p : Path) : Prop :=
  ∃ origin document, (origin, document) ∈ catalog.entries ∧ Tagged featureId document ∧
    Relation.ReflTransGen (fun a b => Linked rt root catalog a b ∨ Linked rt root catalog b a)
      origin p

/-- The paths are below the root and the links can be read. -/
structure Readable : Prop where
  below : ∀ entry ∈ catalog.entries, root <+: entry.1
  links : ∀ entry ∈ catalog.entries, ∃ targets, localLinkTargets rt entry.2 = .ok targets

theorem relativePosix_ok_iff {p : Path} {href : PyStr} :
    relativePosix root p = .ok href ↔ root <+: p ∧ href = posixOf root p := by
  rw [posixOf, relativePosix]
  split
  · split <;> simp_all [Except.toOption, eq_comm]
  · simp_all

section Index

variable {rt root catalog}

theorem posixOf_self : posixOf root root = py "." := by
  simp only [posixOf, relativePosix, List.prefix_rfl, if_true, Except.toOption, Option.getD_some]

theorem posixOf_append {rest : List PyStr} (hne : rest ≠ []) :
    posixOf root (root ++ rest) = PyStr.join (py "/") rest := by
  simp only [posixOf, relativePosix, List.prefix_append, if_true, List.append_right_eq_self, hne,
    if_false, List.drop_left, Except.toOption, Option.getD_some]

/-- The string of a real path splits into its names again. -/
theorem split_posixOf {rest : List PyStr} (hreal : RealPath (root ++ rest)) :
    PyStr.split (posixOf root (root ++ rest)) Path.slash =
      if rest = [] then [py "."] else rest := by
  split
  · rename_i hnil
    rw [hnil, List.append_nil, posixOf_self]
    decide
  · rename_i hne
    rw [posixOf_append hne]
    exact List.splitOn_intercalate _ (fun c hc => (hreal c (List.mem_append_right _ hc)).1) hne

theorem posixOf_inj {p q : Path} (hp : RealPath p) (hq : RealPath q) (hbelow : root <+: p)
    (hbelow' : root <+: q) (h : posixOf root p = posixOf root q) : p = q := by
  obtain ⟨rest, rfl⟩ := hbelow
  obtain ⟨rest', rfl⟩ := hbelow'
  have hsplit := congrArg (PyStr.split · Path.slash) h
  simp only [split_posixOf hp, split_posixOf hq] at hsplit
  have hdot : ∀ rest : List PyStr, RealPath (root ++ rest) → rest ≠ [py "."] := by
    rintro _ hreal rfl
    exact absurd (hreal (py ".") (by simp)).2 (by decide)
  split at hsplit
  · rename_i hnil
    split at hsplit
    · rename_i hnil'
      rw [hnil, hnil']
    · exact absurd hsplit.symm (hdot rest' hq)
  · split at hsplit
    · exact absurd hsplit (hdot rest hp)
    · rw [hsplit]

theorem unique_hrefs (hbelow : ∀ entry ∈ catalog.entries, root <+: entry.1) :
    Assoc.Unique (catalog.entries.map fun entry => (posixOf root entry.1, entry.1)) := by
  have hkeys : (catalog.entries.map Prod.fst).Nodup := catalog.unique
  rw [Assoc.Unique, List.map_map]
  apply (List.Nodup.of_map _ hkeys).map_on
  intro entry hentry entry' hentry' heq
  exact List.inj_on_of_nodup_map hkeys hentry hentry'
    (posixOf_inj (catalog.real entry hentry) (catalog.real entry' hentry') (hbelow entry hentry)
      (hbelow entry' hentry') heq)

theorem byHref_ok_iff {hrefs : List (PyStr × Path)} :
    byHref root catalog.entries = .ok hrefs ↔
      (∀ entry ∈ catalog.entries, root <+: entry.1) ∧
        hrefs = catalog.entries.map fun entry => (posixOf root entry.1, entry.1) := by
  rw [byHref, foldlM_ok_iff]
  have hbelow : (∀ entry ∈ catalog.entries, ∃ href, relativePosix root entry.1 = .ok href) ↔
      ∀ entry ∈ catalog.entries, root <+: entry.1 := by
    simp only [relativePosix_ok_iff, exists_and_left, exists_eq, and_true]
  rw [hbelow]
  refine and_congr_right fun hall => ?_
  have hfold := Assoc.foldl_set_of_unique (m := []) (unique_hrefs hall)
  rw [List.foldl_map, List.nil_append] at hfold
  rw [← hfold]
  rfl

theorem get_hrefs (hbelow : ∀ entry ∈ catalog.entries, root <+: entry.1) {href : PyStr}
    {q : Path} : Assoc.get (catalog.entries.map fun entry => (posixOf root entry.1, entry.1)) href =
      some q ↔ (∃ document, (q, document) ∈ catalog.entries) ∧ posixOf root q = href := by
  rw [Assoc.get_iff_mem (unique_hrefs hbelow), List.mem_map]
  constructor
  · rintro ⟨⟨p, document⟩, hmem, heq⟩
    cases heq
    exact ⟨⟨document, hmem⟩, rfl⟩
  · rintro ⟨⟨document, hmem⟩, rfl⟩
    exact ⟨(q, document), hmem, rfl⟩

/-- The sources that a table of edges gives a target. -/
def sources (edges : List (Path × List Path)) (target : Path) : List Path :=
  (Assoc.get edges target).getD []

def addEdge (source : Path) (edges : List (Path × List Path)) (target : Path) :
    List (Path × List Path) :=
  Assoc.set edges target ((Assoc.get edges target).getD [] ++ [source])

theorem mem_sources_addEdge {edges : List (Path × List Path)} {source target p q : Path} :
    q ∈ sources (addEdge source edges target) p ↔
      q ∈ sources edges p ∨ q = source ∧ p = target := by
  rw [sources, addEdge, Assoc.get_set]
  by_cases h : target = p
  · subst h
    simp [sources]
  · simp [sources, h, Ne.symm h]

theorem mem_sources_addEdges {edges : List (Path × List Path)} {source p q : Path}
    {targets : List Path} : q ∈ sources (targets.foldl (addEdge source) edges) p ↔
      q ∈ sources edges p ∨ q = source ∧ p ∈ targets := by
  induction targets generalizing edges with
  | nil => simp
  | cons target targets ih =>
      rw [List.foldl_cons, ih, mem_sources_addEdge, List.mem_cons]
      tauto

theorem incoming_ok_iff {hrefs : List (PyStr × Path)} {edges : List (Path × List Path)} :
    incoming rt hrefs catalog.entries = .ok edges ↔
      (∀ entry ∈ catalog.entries, ∃ targets, localLinkTargets rt entry.2 = .ok targets) ∧
        edges = catalog.entries.foldl (fun edges entry =>
          ((targetsOf rt entry.2).filterMap (Assoc.get hrefs)).foldl (addEdge entry.1)
            edges) [] := by
  rw [incoming, foldlM_ok_iff]
  rfl

theorem mem_sources_entries {hrefs : List (PyStr × Path)} {entries : Index} {p q : Path}
    {edges : List (Path × List Path)} :
    q ∈ sources (entries.foldl (fun edges entry =>
        ((targetsOf rt entry.2).filterMap (Assoc.get hrefs)).foldl (addEdge entry.1) edges)
          edges) p ↔
      q ∈ sources edges p ∨
        ∃ document, (q, document) ∈ entries ∧
          p ∈ (targetsOf rt document).filterMap (Assoc.get hrefs) := by
  induction entries generalizing edges with
  | nil => simp
  | cons entry entries ih =>
      obtain ⟨path, document⟩ := entry
      rw [List.foldl_cons, ih, mem_sources_addEdges, or_assoc]
      refine or_congr_right ?_
      constructor
      · rintro (⟨rfl, hp⟩ | ⟨document', hmem, hp⟩)
        · exact ⟨document, List.mem_cons_self, hp⟩
        · exact ⟨document', List.mem_cons_of_mem _ hmem, hp⟩
      · rintro ⟨document', hmem, hp⟩
        rcases List.mem_cons.mp hmem with heq | hmem
        · cases heq
          exact Or.inl ⟨rfl, hp⟩
        · exact Or.inr ⟨document', hmem, hp⟩

end Index

section Selection

def hrefTable : List (PyStr × Path) :=
  catalog.entries.map fun entry => (posixOf root entry.1, entry.1)

def edgeTable : List (Path × List Path) :=
  catalog.entries.foldl (fun edges entry =>
    ((targetsOf rt entry.2).filterMap (Assoc.get (hrefTable root catalog))).foldl
      (addEdge entry.1) edges) []

/-- The neighbours of a path, in the order in which the search goes through them. -/
def neighbours (p : Path) : List Path :=
  (targetsOf rt (documentAt catalog p)).filterMap (Assoc.get (hrefTable root catalog)) ++
    sources (edgeTable rt root catalog) p

def danglingAt (p : Path) : List PyStr :=
  (targetsOf rt (documentAt catalog p)).filter fun href =>
    (Assoc.get (hrefTable root catalog) href).isNone

variable {rt root catalog}

theorem documentAt_of_mem {p : Path} {document : Mapping}
    (h : (p, document) ∈ catalog.entries) : documentAt catalog p = document := by
  rw [documentAt, Assoc.get_of_mem catalog.unique h]
  rfl

/-- A path outside of the index has no links. -/
theorem mem_entries_of_target {p : Path} {href : PyStr}
    (h : href ∈ targetsOf rt (documentAt catalog p)) :
    (p, documentAt catalog p) ∈ catalog.entries := by
  cases hget : Assoc.get catalog.entries p with
  | none =>
      rw [documentAt, hget] at h
      exact nomatch h
  | some document =>
      rw [documentAt, hget]
      exact Assoc.mem_of_get hget

theorem mem_neighbours_iff (hbelow : ∀ entry ∈ catalog.entries, root <+: entry.1) {p q : Path} :
    q ∈ neighbours rt root catalog p ↔
      Linked rt root catalog p q ∨ Linked rt root catalog q p := by
  have hresolve : ∀ {a b : Path}, b ∈ (targetsOf rt (documentAt catalog a)).filterMap
      (Assoc.get (hrefTable root catalog)) ↔ Linked rt root catalog a b := by
    intro a b
    simp only [List.mem_filterMap, hrefTable, get_hrefs hbelow, Linked]
    constructor
    · rintro ⟨href, hhref, hmem, rfl⟩
      exact ⟨hmem, hhref⟩
    · rintro ⟨hmem, hhref⟩
      exact ⟨_, hhref, hmem, rfl⟩
  rw [neighbours, List.mem_append, hresolve, edgeTable, mem_sources_entries]
  refine or_congr_right ?_
  rw [← hresolve]
  constructor
  · rintro (hnone | ⟨document, hmem, hp⟩)
    · exact nomatch hnone
    · rw [documentAt_of_mem hmem]
      exact hp
  · intro hp
    obtain ⟨href, hhref, -⟩ := List.mem_filterMap.mp hp
    exact Or.inr ⟨_, mem_entries_of_target hhref, hp⟩

/-- The search of the code is at the same place as a worklist search. -/
structure Follows (rt : Runtime) (root : Path) (catalog : Catalog) (search : Search)
    (w : Worklist Path) : Prop where
  selected : search.selected = w.met
  frontier : search.frontier = w.frontier
  dangling : search.dangling = w.visited.flatMap (danglingAt rt root catalog)

theorem follows_meet {search : Search} {w : Worklist Path} (h : Follows rt root catalog search w)
    (p : Path) : Follows rt root catalog (search.meet p) (w.meet p) := by
  rw [Search.meet, Worklist.meet, h.selected]
  split
  · exact h
  · exact ⟨rfl, congrArg (· ++ [p]) h.frontier, h.dangling⟩

theorem follows_meets {search : Search} {w : Worklist Path}
    (h : Follows rt root catalog search w) (ps : List Path) :
    Follows rt root catalog (ps.foldl Search.meet search) (ps.foldl Worklist.meet w) := by
  induction ps generalizing search w with
  | nil => exact h
  | cons p ps ih => exact ih (follows_meet h p)

theorem links_at (hlinks : ∀ entry ∈ catalog.entries, ∃ targets,
    localLinkTargets rt entry.2 = .ok targets) (p : Path) :
    localLinkTargets rt (documentAt catalog p) = .ok (targetsOf rt (documentAt catalog p)) := by
  cases hget : Assoc.get catalog.entries p with
  | none =>
      rw [documentAt, hget]
      rfl
  | some document =>
      obtain ⟨targets, htargets⟩ := hlinks _ (Assoc.mem_of_get hget)
      rw [documentAt, hget, Option.getD_some, targetsOf, htargets]
      rfl

theorem follows_visit (hlinks : ∀ entry ∈ catalog.entries, ∃ targets,
    localLinkTargets rt entry.2 = .ok targets) {search : Search} {w : Worklist Path}
    (h : Follows rt root catalog search w) (p : Path) :
    ∃ search', Search.visit rt catalog.entries (hrefTable root catalog)
        (edgeTable rt root catalog) { search with frontier := search.frontier.dropLast } p =
          .ok search' ∧
      Follows rt root catalog search' (w.visit (neighbours rt root catalog) p) := by
  have hp := links_at hlinks p
  rw [documentAt] at hp
  simp only [Search.visit, hp]
  refine ⟨_, rfl, ?_⟩
  apply follows_meets
  refine ⟨h.selected, congrArg List.dropLast h.frontier, ?_⟩
  rw [List.flatMap_append, ← h.dangling, List.flatMap_singleton]
  rfl

theorem follows_exhaust (hlinks : ∀ entry ∈ catalog.entries, ∃ targets,
    localLinkTargets rt entry.2 = .ok targets) (fuel : Nat) {search : Search}
    {w : Worklist Path} (h : Follows rt root catalog search w) :
    ∃ search', Search.exhaust rt catalog.entries (hrefTable root catalog)
        (edgeTable rt root catalog) fuel search = .ok search' ∧
      Follows rt root catalog search' (w.explore (neighbours rt root catalog) fuel) := by
  induction fuel generalizing search w with
  | zero => exact ⟨search, rfl, h⟩
  | succ fuel ih =>
      rw [Search.exhaust, Worklist.explore, h.frontier]
      cases hlast : w.frontier.getLast? with
      | none => exact ⟨search, rfl, h⟩
      | some p =>
          obtain ⟨search', hvisit, hfollows⟩ := follows_visit hlinks h p
          rw [h.frontier] at hvisit
          simp only [hvisit, bind, Except.bind]
          exact ih hfollows

/-- What the search ends with: the connected paths, and the links of them that lead
nowhere. -/
structure Selects (rt : Runtime) (root : Path) (catalog : Catalog) (featureId : PyStr)
    (search : Search) : Prop where
  nodup : search.selected.Nodup
  connected : ∀ p, p ∈ search.selected ↔ Connected rt root catalog featureId p
  dangling : ∀ href, href ∈ search.dangling ↔
    ∃ p, Connected rt root catalog featureId p ∧ href ∈ danglingAt rt root catalog p

/-- The paths of the artifacts that carry the feature's id. -/
def tagged (catalog : Catalog) (featureId : PyStr) : List Path :=
  (catalog.entries.filter fun entry =>
    decide ((Assoc.get entry.2 (py "feature_id")).bind Json.str? = some featureId)).map Prod.fst

theorem mem_tagged {featureId : PyStr} {p : Path} : p ∈ tagged catalog featureId ↔
    ∃ document, (p, document) ∈ catalog.entries ∧ Tagged featureId document := by
  have htag : ∀ document : Mapping,
      (Assoc.get document (py "feature_id")).bind Json.str? = some featureId ↔
        Tagged featureId document := by
    intro document
    rw [Tagged, Option.bind_eq_some_iff]
    constructor
    · rintro ⟨value, hvalue, htext⟩
      cases value with
      | str s =>
          cases htext
          exact hvalue
      | _ => cases htext
    · intro h
      exact ⟨_, h, rfl⟩
  rw [tagged, List.mem_map]
  constructor
  · rintro ⟨⟨q, document⟩, hmem, rfl⟩
    obtain ⟨hmem, htagged⟩ := List.mem_filter.mp hmem
    exact ⟨document, hmem, (htag document).mp (of_decide_eq_true htagged)⟩
  · rintro ⟨document, hmem, htagged⟩
    exact ⟨(p, document), List.mem_filter.mpr ⟨hmem, decide_eq_true ((htag document).mpr htagged)⟩,
      rfl⟩

/-- The search for a feature, its first paths in some order. -/
def beginSearch (catalog : Catalog) (featureId : PyStr) (order : List Path) : Search :=
  { selected := tagged catalog featureId, frontier := order }

theorem exhaust_selects (hreadable : Readable rt root catalog) {featureId : PyStr}
    {order : List Path} (horder : order.Perm (tagged catalog featureId)) :
    ∃ search, Search.exhaust rt catalog.entries (hrefTable root catalog)
        (edgeTable rt root catalog) (catalog.entries.length + 1)
        (beginSearch catalog featureId order) = .ok search ∧
      Selects rt root catalog featureId search ∧ search.frontier = [] := by
  have hkeys : (catalog.entries.map Prod.fst).Nodup := catalog.unique
  have hbegin : Follows rt root catalog (beginSearch catalog featureId order)
      { Worklist.begin (tagged catalog featureId) with frontier := order } := ⟨rfl, rfl, rfl⟩
  obtain ⟨search, hsearch, hfollows⟩ :=
    follows_exhaust hreadable.links (catalog.entries.length + 1) hbegin
  have hstart : tagged catalog featureId ⊆ catalog.entries.map Prod.fst := by
    intro p hp
    obtain ⟨document, hmem, -⟩ := mem_tagged.mp hp
    exact List.mem_map_of_mem hmem
  have hnext : ∀ p ∈ catalog.entries.map Prod.fst,
      neighbours rt root catalog p ⊆ catalog.entries.map Prod.fst := by
    intro p _ q hq
    rcases (mem_neighbours_iff hreadable.below).mp hq with ⟨⟨document, hmem⟩, -⟩ | ⟨-, hlink⟩
    · exact List.mem_map_of_mem hmem
    · exact List.mem_map_of_mem (mem_entries_of_target hlink)
  have htagged : (tagged catalog featureId).Nodup := hkeys.sublist (List.filter_sublist.map _)
  obtain ⟨hsound, hdone⟩ := Worklist.sound_explore hstart hnext (catalog.entries.length + 1)
    (Worklist.sound_of_perm htagged horder.symm)
    (by rw [List.length_map]; omega)
  obtain ⟨hnodup, hperm, hmet⟩ := hsound.finished hdone
  have hleads : Worklist.Leads (neighbours rt root catalog) = fun a b =>
      Linked rt root catalog a b ∨ Linked rt root catalog b a := by
    funext a b
    exact propext (mem_neighbours_iff hreadable.below)
  have hconnected : ∀ p, p ∈ search.selected ↔ Connected rt root catalog featureId p := by
    intro p
    rw [hfollows.selected, hmet, hleads, Connected]
    constructor
    · rintro ⟨origin, horigin, hreach⟩
      obtain ⟨document, hmem, htagged⟩ := mem_tagged.mp horigin
      exact ⟨origin, document, hmem, htagged, hreach⟩
    · rintro ⟨origin, document, hmem, htagged, hreach⟩
      exact ⟨origin, mem_tagged.mpr ⟨document, hmem, htagged⟩, hreach⟩
  refine ⟨search, hsearch, ⟨hfollows.selected ▸ hnodup, hconnected, ?_⟩,
    hfollows.frontier.trans hdone⟩
  intro href
  rw [hfollows.dangling, List.mem_flatMap]
  refine exists_congr fun p => and_congr_left fun _ => ?_
  rw [← hconnected, hfollows.selected, hperm.mem_iff]

/-- What a report says. -/
structure Traced (rt : Runtime) (root : Path) (catalog : Catalog) (featureId : PyStr)
    (report : Report) (selected : List Path) (nodes : List TraceNode) : Prop where
  readable : Readable rt root catalog
  nodup : selected.Nodup
  connected : ∀ p, p ∈ selected ↔ Connected rt root catalog featureId p
  read : selected.mapM (traceNode rt root catalog.entries) = .ok nodes
  nodes : report.nodes.Perm nodes
  ordered : report.orderedTypes =
    chainOrder.filter fun kind => decide (kind ∈ report.nodes.map TraceNode.artifactType)
  missing : report.missingTypes =
    chainOrder.filter fun kind => decide (kind ∉ report.nodes.map TraceNode.artifactType)
  dangling : ∀ href, href ∈ report.dangling ↔
    ∃ p, Connected rt root catalog featureId p ∧ href ∈ danglingAt rt root catalog p

theorem traceFeatureIn_traced {order : SetOrder} {featureId : PyStr} {report : Report}
    (h : traceFeatureIn order rt root featureId catalog.entries = .ok report) :
    ∃ selected nodes, Traced rt root catalog featureId report selected nodes := by
  obtain ⟨hrefs, hhrefs, hlater⟩ := exists_ok_of_bind h
  obtain ⟨edges, hedges, hselected⟩ := exists_ok_of_bind hlater
  obtain ⟨search, hsearch, hrest⟩ := exists_ok_of_bind hselected
  obtain ⟨nodes, hnodes, hreport⟩ := exists_ok_of_bind hrest
  obtain ⟨hbelow, rfl⟩ := byHref_ok_iff.mp hhrefs
  obtain ⟨hlinks, rfl⟩ := incoming_ok_iff.mp hedges
  have hreadable : Readable rt root catalog := ⟨hbelow, hlinks⟩
  obtain ⟨search', hexhaust, hselects, -⟩ :=
    exhaust_selects hreadable (order.first_perm (tagged catalog featureId))
  obtain rfl : search = search' := Except.ok.inj (hsearch.symm.trans hexhaust)
  have hperm := order.last_perm search.selected
  cases hreport
  refine ⟨order.last search.selected, nodes, hreadable, hperm.nodup_iff.mpr hselects.nodup,
    fun p => hperm.mem_iff.trans (hselects.connected p), hnodes, List.perm_insertionSort _ _, rfl,
    rfl, ?_⟩
  intro href
  rw [List.mem_insertionSort, List.mem_dedup]
  exact hselects.dangling href

theorem traceFeature_traced {featureId : PyStr} {report : Report}
    (h : traceFeature rt root featureId catalog.entries = .ok report) :
    ∃ selected nodes, Traced rt root catalog featureId report selected nodes :=
  traceFeatureIn_traced h

/-- The trace returns when the index can be read, and the ids and types of what is
connected are texts. -/
theorem traceFeatureIn_ok (order : SetOrder) {featureId : PyStr}
    (hreadable : Readable rt root catalog)
    (hnodes : ∀ p, Connected rt root catalog featureId p →
      ∃ node, traceNode rt root catalog.entries p = .ok node) :
    ∃ report, traceFeatureIn order rt root featureId catalog.entries = .ok report := by
  obtain ⟨search, hsearch, hselects, -⟩ :=
    exhaust_selects hreadable (order.first_perm (tagged catalog featureId))
  have hperm := order.last_perm search.selected
  obtain ⟨nodes, hread⟩ := exists_mapM_ok fun p hp =>
    hnodes p ((hselects.connected p).mp (hperm.mem_iff.mp hp))
  have hhrefs := byHref_ok_iff.mpr ⟨hreadable.below, rfl⟩
  have hedges : incoming rt (hrefTable root catalog) catalog.entries = .ok _ :=
    incoming_ok_iff.mpr ⟨hreadable.links, rfl⟩
  rw [hrefTable] at hedges hsearch
  simp only [edgeTable, hrefTable] at hsearch
  rw [traceFeatureIn, hhrefs]
  simp only [bind, Except.bind]
  rw [hedges]
  simp only
  rw [← tagged, ← beginSearch, hsearch]
  simp only [hread]
  exact ⟨_, rfl⟩

theorem traceFeature_ok {featureId : PyStr} (hreadable : Readable rt root catalog)
    (hnodes : ∀ p, Connected rt root catalog featureId p →
      ∃ node, traceNode rt root catalog.entries p = .ok node) :
    ∃ report, traceFeature rt root featureId catalog.entries = .ok report :=
  traceFeatureIn_ok .insertion hreadable hnodes

/-- `str(doc.get(key, ""))`. -/
def textAt (rt : Runtime) (document : Mapping) (key : PyStr) : Except PyError PyStr :=
  ((Assoc.get document key).getD (.str [])).text rt

theorem traceNode_ok {p : Path} {id kind : PyStr} (hbelow : root <+: p)
    (hid : textAt rt (documentAt catalog p) (py "id") = .ok id)
    (hkind : textAt rt (documentAt catalog p) (py "artifact_type") = .ok kind) :
    traceNode rt root catalog.entries p = .ok ⟨id, kind, posixOf root p,
      (Assoc.get (documentAt catalog p) (py "feature_id")).getD .null⟩ := by
  have hposix := (relativePosix_ok_iff root (p := p)).mpr ⟨hbelow, rfl⟩
  rw [textAt, documentAt] at hid hkind
  simp only [traceNode, hid, hkind, hposix, bind, Except.bind]
  rfl

theorem traceNode_texts {p : Path} {node : TraceNode}
    (h : traceNode rt root catalog.entries p = .ok node) :
    textAt rt (documentAt catalog p) (py "id") = .ok node.artifactId ∧
      textAt rt (documentAt catalog p) (py "artifact_type") = .ok node.artifactType := by
  obtain ⟨id, hid, hlater⟩ := exists_ok_of_bind h
  obtain ⟨kind, hkind, hrest⟩ := exists_ok_of_bind hlater
  obtain ⟨href, -, hnode⟩ := exists_ok_of_bind hrest
  cases hnode
  exact ⟨hid, hkind⟩

/-- Whosever they are, the connected artifacts form a whole chain: every lifecycle type
is among them, and each of their links leads to an artifact. -/
structure ConnectedChain (rt : Runtime) (root : Path) (catalog : Catalog) (featureId : PyStr) :
    Prop where
  readable : Readable rt root catalog
  named : ∀ p, Connected rt root catalog featureId p →
    (∃ id, textAt rt (documentAt catalog p) (py "id") = .ok id) ∧
      ∃ kind, textAt rt (documentAt catalog p) (py "artifact_type") = .ok kind
  types : ∀ kind ∈ chainOrder, ∃ p, Connected rt root catalog featureId p ∧
    textAt rt (documentAt catalog p) (py "artifact_type") = .ok kind
  resolved : ∀ p, Connected rt root catalog featureId p →
    ∀ href ∈ targetsOf rt (documentAt catalog p),
      ∃ q document, (q, document) ∈ catalog.entries ∧ posixOf root q = href

theorem danglingAt_eq_nil_iff (hbelow : ∀ entry ∈ catalog.entries, root <+: entry.1) {p : Path} :
    danglingAt rt root catalog p = [] ↔ ∀ href ∈ targetsOf rt (documentAt catalog p),
      ∃ q document, (q, document) ∈ catalog.entries ∧ posixOf root q = href := by
  rw [danglingAt, List.filter_eq_nil_iff]
  refine forall₂_congr fun href _ => ?_
  rw [Option.isNone_iff_eq_none, ← ne_eq, Option.ne_none_iff_exists']
  refine exists_congr fun q => ?_
  rw [hrefTable, get_hrefs hbelow, exists_and_right]

/-- Links lead to artifacts of the index only. -/
theorem mem_of_connected {featureId : PyStr} {p : Path}
    (h : Connected rt root catalog featureId p) : ∃ document, (p, document) ∈ catalog.entries := by
  obtain ⟨origin, document, horigin, -, hreach⟩ := h
  induction hreach with
  | refl => exact ⟨document, horigin⟩
  | tail _ hstep _ =>
      rcases hstep with ⟨hmem, -⟩ | ⟨-, hlink⟩
      · exact hmem
      · exact ⟨_, mem_entries_of_target hlink⟩

theorem connected_below (hreadable : Readable rt root catalog) {featureId : PyStr} {p : Path}
    (h : Connected rt root catalog featureId p) : root <+: p := by
  obtain ⟨document, hmem⟩ := mem_of_connected h
  exact hreadable.below _ hmem

/-- A trace is complete exactly when the connected artifacts form a whole chain. -/
theorem complete_iff_chain (featureId : PyStr) :
    (∃ report, traceFeature rt root featureId catalog.entries = .ok report ∧
        report.complete = true) ↔ ConnectedChain rt root catalog featureId := by
  constructor
  · rintro ⟨report, hreport, hcomplete⟩
    obtain ⟨selected, nodes, traced⟩ := traceFeature_traced hreport
    obtain ⟨heach, honly⟩ := mem_of_mapM_ok traced.read
    rw [Report.complete, Bool.and_eq_true, List.isEmpty_iff, List.isEmpty_iff] at hcomplete
    obtain ⟨hmissing, hdangling⟩ := hcomplete
    refine ⟨traced.readable, ?_, ?_, ?_⟩
    · intro p hp
      obtain ⟨node, -, hnode⟩ := heach p ((traced.connected p).mpr hp)
      exact ⟨⟨_, (traceNode_texts hnode).1⟩, ⟨_, (traceNode_texts hnode).2⟩⟩
    · intro kind hkind
      rw [traced.missing, List.filter_eq_nil_iff] at hmissing
      have hpresent := hmissing kind hkind
      simp only [decide_eq_true_eq, not_not, List.mem_map] at hpresent
      obtain ⟨node, hnode, rfl⟩ := hpresent
      obtain ⟨p, hp, hok⟩ := honly node (traced.nodes.mem_iff.mp hnode)
      exact ⟨p, (traced.connected p).mp hp, (traceNode_texts hok).2⟩
    · intro p hp
      apply (danglingAt_eq_nil_iff traced.readable.below).mp
      apply List.eq_nil_iff_forall_not_mem.mpr
      intro href hhref
      have hmem := (traced.dangling href).mpr ⟨p, hp, hhref⟩
      rw [hdangling] at hmem
      exact nomatch hmem
  · intro chain
    obtain ⟨report, hreport⟩ := traceFeature_ok chain.readable fun p hp => by
      obtain ⟨⟨id, hid⟩, ⟨kind, hkind⟩⟩ := chain.named p hp
      exact ⟨_, traceNode_ok (connected_below chain.readable hp) hid hkind⟩
    obtain ⟨selected, nodes, traced⟩ := traceFeature_traced hreport
    obtain ⟨heach, -⟩ := mem_of_mapM_ok traced.read
    refine ⟨report, hreport, ?_⟩
    rw [Report.complete, Bool.and_eq_true, List.isEmpty_iff, List.isEmpty_iff]
    refine ⟨?_, ?_⟩
    · rw [traced.missing, List.filter_eq_nil_iff]
      intro kind hkind
      obtain ⟨p, hp, htype⟩ := chain.types kind hkind
      obtain ⟨node, hnode, hok⟩ := heach p ((traced.connected p).mpr hp)
      have hname : node.artifactType = kind :=
        Except.ok.inj ((traceNode_texts hok).2.symm.trans htype)
      simp only [decide_eq_true_eq, not_not]
      exact List.mem_map.mpr ⟨node, traced.nodes.mem_iff.mpr hnode, hname⟩
    · apply List.eq_nil_iff_forall_not_mem.mpr
      intro href hhref
      obtain ⟨p, hp, hdangles⟩ := (traced.dangling href).mp hhref
      rw [(danglingAt_eq_nil_iff chain.readable.below).mpr (chain.resolved p hp)] at hdangles
      exact nomatch hdangles

end Selection

/-- The lifecycle types whose artifacts carry a feature's id. -/
def featureTypes : List PyStr :=
  [py "specification", py "threat-model", py "plan", py "task", py "security-review"]

/-- The feature has an artifact of its own for each of these types. -/
def OwnsEveryType (catalog : Catalog) (featureId : PyStr) : Prop :=
  ∀ kind ∈ featureTypes, ∃ p document, (p, document) ∈ catalog.entries ∧
    Tagged featureId document ∧ Assoc.get document (py "artifact_type") = some (.str kind)

/-- Complete traces are those of features with artifacts of their own exactly where no
whole chain is connected with a feature that lacks some. -/
theorem complete_owns_iff (rt : Runtime) (root : Path) (catalog : Catalog) (featureId : PyStr) :
    (∀ report, traceFeature rt root featureId catalog.entries = .ok report →
      report.complete = true → OwnsEveryType catalog featureId) ↔
    (ConnectedChain rt root catalog featureId → OwnsEveryType catalog featureId) := by
  rw [← complete_iff_chain]
  constructor
  · rintro h ⟨report, hreport, hcomplete⟩
    exact h report hreport hcomplete
  · intro h report hreport hcomplete
    exact h ⟨report, hreport, hcomplete⟩

def sampleArtifact (kind id : String) (feature : Option String) (link : Option String) :
    Path × Mapping :=
  ([py "specs", py id ++ py ".json"],
    [(py "artifact_type", .str (py kind)), (py "id", .str (py id))] ++
      (feature.map fun f => (py "feature_id", .str (py f))).toList ++
      (link.map fun target => (py "links", .arr [.obj [(py "rel", .str (py "requirement")),
        (py "href", .str (py "specs/" ++ py target ++ py ".json"))]])).toList)

/-- Two features come from one idea; only the second one has got beyond its
specification. -/
def sharedIdea : Catalog where
  entries := [sampleArtifact "idea" "IDEA-0001" none none,
    sampleArtifact "specification" "SPEC-0001" (some "FEAT-0001") (some "IDEA-0001"),
    sampleArtifact "specification" "SPEC-0002" (some "FEAT-0002") (some "IDEA-0001"),
    sampleArtifact "threat-model" "TM-0001" (some "FEAT-0002") (some "SPEC-0002"),
    sampleArtifact "plan" "PLAN-0001" (some "FEAT-0002") (some "TM-0001"),
    sampleArtifact "task" "TASK-0001" (some "FEAT-0002") (some "PLAN-0001"),
    sampleArtifact "security-review" "SECREV-0001" (some "FEAT-0002") (some "TM-0001"),
    sampleArtifact "review" "REV-0001" none (some "TASK-0001")]
  unique := by
    rw [Assoc.Unique]
    decide
  real := by
    intro entry hentry
    rw [RealPath]
    revert entry
    decide

theorem sharedIdea_hides_missing_stages :
    (∃ report, traceFeature Runtime.ascii [] (py "FEAT-0001") sharedIdea.entries = .ok report ∧
      report.complete = true) ∧ ¬ OwnsEveryType sharedIdea (py "FEAT-0001") := by
  refine ⟨?_, ?_⟩
  · have hcomplete : (traceFeature Runtime.ascii [] (py "FEAT-0001")
        sharedIdea.entries).toOption.map Report.complete = some true := by decide +kernel
    obtain ⟨report, hreport, hcomplete⟩ := Option.map_eq_some_iff.mp hcomplete
    exact ⟨report, ok_of_toOption hreport, hcomplete⟩
  · intro h
    obtain ⟨p, document, hmem, htagged, htype⟩ := h (py "threat-model") (by decide)
    have hnone : ∀ entry ∈ sharedIdea.entries,
        (Assoc.get entry.2 (py "feature_id")).bind Json.str? = some (py "FEAT-0001") →
          (Assoc.get entry.2 (py "artifact_type")).bind Json.str? ≠ some (py "threat-model") := by
      decide
    refine hnone _ hmem ?_ ?_
    · rw [htagged]
      rfl
    · rw [htype]
      rfl

end SecureSdlc.Traceability
