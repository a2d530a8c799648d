import Mathlib.Data.List.Sort
import SecureSdlc.Core.Path
import SecureSdlc.Core.Python

/-!
Traceability of a feature, `traceability.py`, over an index of artifacts by absolute
path. Sets are gone through in the order of insertion; nodes of one type and id are
the only ones whose order in a report depends on it.
-/

namespace SecureSdlc

open Core

namespace Traceability

def chainOrder : List PyStr :=
  [py "idea", py "specification", py "threat-model", py "plan", py "task", py "review",
    py "security-review"]

structure TraceNode where
  artifactId : PyStr
  artifactType : PyStr
  path : PyStr
  featureId : Json

structure Report where
  featureId : PyStr
  nodes : List TraceNode
  orderedTypes : List PyStr
  missingTypes : List PyStr
  dangling : List PyStr

def Report.complete (report : Report) : Bool :=
  report.missingTypes.isEmpty && report.dangling.isEmpty

abbrev Index := List (Path × Mapping)

variable (rt : Runtime)

/-- `_local_link_targets`. -/
def localLinkTargets (document : Mapping) : Except PyError (List PyStr) := do
  let links ← iterateMember document (py "links")
  let hrefs ← links.mapM fun link => do
    let href ← link.getMember (py "href")
    (href.getD (.str [])).text rt
  pure (hrefs.filter fun href => PyStr.endsWith href (py ".json"))

/-- `path.relative_to(root).as_posix()`. -/
def relativePosix (root path : Path) : Except PyError PyStr :=
  if root <+: path then
    if path = root then .ok (py ".")
    else .ok (PyStr.join (py "/") (path.drop root.length))
  else .error { kind := .valueError }

def byHref (root : Path) (index : Index) : Except PyError (List (PyStr × Path)) :=
  index.foldlM (fun hrefs entry => do
    let href ← relativePosix root entry.1
    pure (Assoc.set hrefs href entry.1)) []

/-- The links into each artifact, by their sources. -/
def incoming (hrefs : List (PyStr × Path)) (index : Index) :
    Except PyError (List (Path × List Path)) :=
  index.foldlM (fun edges entry => do
    let targets ← localLinkTargets rt entry.2
    pure ((targets.filterMap (Assoc.get hrefs)).foldl (fun edges target =>
      Assoc.set edges target ((Assoc.get edges target).getD [] ++ [entry.1])) edges)) []

structure Search where
  selected : List Path
  frontier : List Path
  dangling : List PyStr := []

/-- A neighbour that was not met before joins the selection and the frontier. -/
def Search.meet (search : Search) (neighbor : Path) : Search :=
  if neighbor ∈ search.selected then search
  else { search with
    selected := search.selected ++ [neighbor]
    frontier := search.frontier ++ [neighbor] }

/-- One turn of the loop, for the path taken from the end of the frontier; only paths of
the index get there. -/
def Search.visit (index : Index) (hrefs : List (PyStr × Path)) (edges : List (Path × List Path))
    (search : Search) (current : Path) : Except PyError Search := do
  let document := (Assoc.get index current).getD []
  let targets ← localLinkTargets rt document
  let neighbors := targets.filterMap (Assoc.get hrefs) ++ (Assoc.get edges current).getD []
  let dangling := targets.filter fun href => (Assoc.get hrefs href).isNone
  pure (neighbors.foldl Search.meet { search with dangling := search.dangling ++ dangling })

/-- The loop; no path enters the frontier twice, so `fuel` above their number is enough. -/
def Search.exhaust (index : Index) (hrefs : List (PyStr × Path))
    (edges : List (Path × List Path)) : Nat → Search → Except PyError Search
  | 0, search => .ok search
  | fuel + 1, search =>
      match search.frontier.getLast? with
      | none => .ok search
      | some current => do
          let search ← Search.visit rt index hrefs edges
            { search with frontier := search.frontier.dropLast } current
          Search.exhaust index hrefs edges fuel search

def traceNode (root : Path) (index : Index) (path : Path) : Except PyError TraceNode := do
  let document := (Assoc.get index path).getD []
  let artifactId ← ((Assoc.get document (py "id")).getD (.str [])).text rt
  let artifactType ← ((Assoc.get document (py "artifact_type")).getD (.str [])).text rt
  let href ← relativePosix root path
  pure ⟨artifactId, artifactType, href, (Assoc.get document (py "feature_id")).getD .null⟩

/-- `_node_sort_key`, as an order. -/
def nodeLe (a b : TraceNode) : Bool :=
  let rank (node : TraceNode) := chainOrder.idxOf node.artifactType
  decide (rank a < rank b) || decide (rank a = rank b) && PyStr.le a.artifactId b.artifactId

/-- The orders in which Python goes through the two sets of paths. -/
structure SetOrder where
  first : List Path → List Path
  last : List Path → List Path
  first_perm : ∀ paths, (first paths).Perm paths
  last_perm : ∀ paths, (last paths).Perm paths

/-- `trace_feature` in the order that Python takes. -/
def traceFeatureIn (order : SetOrder) (rt : Runtime) (root : Path) (featureId : PyStr)
    (index : Index) : Except PyError Report := do
  let hrefs ← byHref root index
  let edges ← incoming rt hrefs index
  let selected := (index.filter fun entry =>
    decide ((Assoc.get entry.2 (py "feature_id")).bind Json.str? = some featureId)).map Prod.fst
  let search ← Search.exhaust rt index hrefs edges (index.length + 1)
    { selected, frontier := order.first selected }
  let nodes ← (order.last search.selected).mapM (traceNode rt root index)
  let nodes := nodes.insertionSort fun a b => nodeLe a b
  let present := nodes.map TraceNode.artifactType
  pure {
    featureId
    nodes
    orderedTypes := chainOrder.filter fun kind => decide (kind ∈ present)
    missingTypes := chainOrder.filter fun kind => decide (kind ∉ present)
    dangling := search.dangling.dedup.insertionSort fun a b => PyStr.le a b }

def SetOrder.insertion : SetOrder :=
  ⟨id, id, List.Perm.refl, List.Perm.refl⟩

/-- `trace_feature`, with the paths of a set in the order in which they got there. -/
def traceFeature (rt : Runtime) (root : Path) (featureId : PyStr) (index : Index) :
    Except PyError Report :=
  traceFeatureIn .insertion rt root featureId index

end Traceability

end SecureSdlc
