import Mathlib.Logic.Function.Basic
import SecureSdlc.Core.Path

/-!
A file system as a map from paths to contents, and the names in its directories: what a write
and the making of directories change of either.
-/

namespace SecureSdlc.Core.FileSystem

/-- The content of a file. -/
def content (fs : FileSystem) (p : Path) : Option Bytes :=
  match fs.node p with
  | some (.file data) => some data
  | _ => none

theorem content_mkdirs {fs fs' : FileSystem} {p : Path} {cs : List PyStr}
    (h : fs.mkdirs p cs = some fs') : fs'.content = fs.content := by
  induction cs generalizing fs p with
  | nil =>
      cases h
      rfl
  | cons c rest ih =>
      rw [mkdirs] at h
      split at h
      · split at h
        · exact ih h
        · cases h
        · rename_i hnode
          rw [ih h]
          funext q
          simp only [content, node_put]
          by_cases hq : p ++ [c] = q
          · simp only [← hq, if_true, hnode]
          · rw [if_neg hq]
      · cases h

theorem content_writeBytes {fs fs' : FileSystem} {p : Path} {data : Bytes}
    (h : fs.writeBytes p data = some fs') :
    fs'.content = Function.update fs.content p (some data) := by
  rw [writeBytes] at h
  split at h
  · cases h
  · rename_i name hname
    obtain ⟨front, rfl⟩ := List.getLast?_eq_some_iff.mp hname
    split at h
    · cases h
      funext q
      simp only [content, node_put, List.dropLast_concat, Function.update_apply]
      by_cases hq : q = front ++ [name]
      · simp [hq]
      · rw [if_neg (Ne.symm hq), if_neg hq]
    · cases h

variable {fs fs' : FileSystem} {p q : Path} {name : PyStr}

/-- The name of a path directly below a directory. -/
def childOf (p q : Path) : Option PyStr :=
  match q.getLast? with
  | some name => if q.dropLast = p then some name else none
  | none => none

theorem childOf_eq_some : childOf p q = some name ↔ q = p ++ [name] := by
  rw [childOf]
  constructor
  · intro h
    split at h
    · rename_i last hlast
      obtain ⟨front, rfl⟩ := List.getLast?_eq_some_iff.mp hlast
      rw [List.dropLast_concat] at h
      split at h
      · rename_i hfront
        rw [hfront, Option.some.inj h]
      · cases h
    · cases h
  · rintro rfl
    simp

theorem children_eq (fs : FileSystem) (p : Path) :
    fs.children p = (fs.entries.map Prod.fst).filterMap (childOf p) := by
  rw [children, List.filterMap_map]
  rfl

theorem mem_keys_iff : q ∈ fs.entries.map Prod.fst ↔ fs.node q ≠ none := by
  constructor
  · intro h hnone
    obtain ⟨entry, hentry, rfl⟩ := List.mem_map.mp h
    exact Assoc.ne_of_get_none hnone entry hentry rfl
  · intro h
    by_contra hnot
    exact h (Assoc.get_of_not_mem hnot)

theorem mem_children : name ∈ fs.children p ↔ fs.node (p ++ [name]) ≠ none := by
  rw [children_eq, List.mem_filterMap, ← mem_keys_iff]
  constructor
  · rintro ⟨q, hq, hchild⟩
    exact childOf_eq_some.mp hchild ▸ hq
  · exact fun h => ⟨p ++ [name], h, childOf_eq_some.mpr rfl⟩

theorem children_put {n : Node} (parent : fs.node q = some .dir)
    (free : fs.node (q ++ [name]) = some .dir → n = .dir) :
    (fs.put q name n parent free).children p =
      if p = q ∧ fs.node (q ++ [name]) = none then fs.children p ++ [name] else fs.children p := by
  rw [children_eq, children_eq]
  change ((Assoc.set fs.entries (q ++ [name]) n).map Prod.fst).filterMap (childOf p) = _
  rw [Assoc.keys_set]
  by_cases hnode : fs.node (q ++ [name]) = none
  · rw [if_neg fun h => mem_keys_iff.mp h hnode, List.filterMap_append]
    by_cases hpq : p = q
    · subst hpq
      rw [if_pos ⟨rfl, hnode⟩, List.filterMap_cons, childOf_eq_some.mpr rfl]
      rfl
    · have hother : childOf p (q ++ [name]) = none := by
        rw [Option.eq_none_iff_forall_ne_some]
        intro other hchild
        exact hpq (List.append_inj_left' (childOf_eq_some.mp hchild) rfl).symm
      rw [if_neg (fun h => hpq h.1), List.filterMap_cons, hother]
      exact List.append_nil _
  · rw [if_pos (mem_keys_iff.mpr hnode), if_neg (fun h => hnode h.2)]

/-- A directory's own directories are there. -/
theorem node_of_append {cs : List PyStr} (h : fs.node (p ++ cs) = some .dir) :
    fs.node p = some .dir := by
  induction cs using List.reverseRecOn with
  | nil => rwa [List.append_nil] at h
  | append_singleton cs c ih =>
      refine ih (fs.closed (p ++ cs) c ?_)
      rw [List.append_assoc]
      exact Option.isSome_iff_exists.mpr ⟨_, h⟩

theorem mkdirs_of_dir {cs : List PyStr} (h : fs.node (p ++ cs) = some .dir) :
    fs.mkdirs p cs = some fs := by
  induction cs generalizing p with
  | nil => rfl
  | cons c rest ih =>
      have hnext : fs.node (p ++ [c] ++ rest) = some .dir := by rwa [List.append_assoc]
      have hdir := node_of_append hnext
      rw [mkdirs, dif_pos (node_of_append hdir)]
      split
      · exact ih hnext
      · rename_i heq
        rw [hdir] at heq
        cases heq
      · rename_i heq
        rw [hdir] at heq
        cases heq

/-- Making a directory leaves what is in it. -/
theorem mkdirs_spec {cs : List PyStr} (h : fs.mkdirs p cs = some fs')
    (hp : fs.node p = some .dir) :
    fs'.node (p ++ cs) = some .dir ∧ fs'.children (p ++ cs) = fs.children (p ++ cs) ∧
      ∀ name, fs'.node (p ++ cs ++ [name]) = fs.node (p ++ cs ++ [name]) := by
  induction cs generalizing fs p with
  | nil =>
      cases h
      rw [List.append_nil]
      exact ⟨hp, rfl, fun _ => rfl⟩
  | cons c rest ih =>
      rw [mkdirs, dif_pos hp] at h
      rw [List.append_cons]
      split at h
      · rename_i hnode
        exact ih h hnode
      · cases h
      · rename_i hnode
        obtain ⟨hdir, hchildren, hnodes⟩ := ih h (by rw [node_put, if_pos rfl])
        refine ⟨hdir, hchildren.trans ?_, fun name => (hnodes name).trans ?_⟩
        · rw [children_put, if_neg]
          rintro ⟨heq, -⟩
          have hlength := congrArg List.length heq
          simp at hlength
        · rw [node_put, if_neg]
          intro heq
          have hlength := congrArg List.length heq
          simp at hlength

/-- Making directories replaces nothing. -/
theorem mkdirs_keeps {cs : List PyStr} {n : Node} (h : fs.mkdirs p cs = some fs')
    (hq : fs.node q = some n) : fs'.node q = some n := by
  induction cs generalizing fs p with
  | nil =>
      cases h
      exact hq
  | cons c rest ih =>
      rw [mkdirs] at h
      split at h
      · split at h
        · exact ih h hq
        · cases h
        · rename_i hnode
          refine ih h ?_
          rw [node_put, if_neg]
          · exact hq
          · rintro rfl
            rw [hnode] at hq
            cases hq
      · cases h

end SecureSdlc.Core.FileSystem
