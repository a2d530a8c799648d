import Mathlib.Data.List.Infix
import SecureSdlc.Core.Assoc
import SecureSdlc.Core.PyText

/-!
POSIX paths without symbolic links, and a file system over them. A path is the list
of names from the root directory; `parts` reads a string as `pathlib` does, empty
and `.` components dropped. Permissions and length limits are left out.
-/

namespace SecureSdlc.Core

abbrev Path := List PyStr

namespace Path

def slash : CodePoint := cp '/'

/-- A component that `pathlib` and `git` drop. -/
def skipped (c : PyStr) : Bool := decide (c = [] ∨ c = py ".")

def up : PyStr := py ".."

/-- The components of a path string below its anchor. -/
def parts (s : PyStr) : List PyStr := (PyStr.split s slash).filter fun c => !skipped c

def isAbsolute (s : PyStr) : Bool := PyStr.startsWith s [slash]

/-- Follow components from a directory: `..` goes up, and stays in the root. -/
def resolve : Path → List PyStr → Path
  | p, [] => p
  | p, c :: rest => resolve (if c = up then p.dropLast else p ++ [c]) rest

/-- `(base / s).resolve()`: an absolute right operand replaces the base. -/
def join (base : Path) (s : PyStr) : Path :=
  resolve (if isAbsolute s then [] else base) (parts s)

/-- No surrogate but those that stand for undecodable bytes. -/
def fsEncodable (s : PyStr) : Bool :=
  s.all fun c => !PyStr.isSurrogate c || decide (0xDC80 ≤ c.val ∧ c.val ≤ 0xDCFF)

/-- The operating system takes every name in the string. -/
def osAccepts (s : PyStr) : Bool :=
  fsEncodable s && s.all fun c => decide (c.val ≠ 0)

theorem resolve_of_no_up {base : Path} {cs : List PyStr} (h : up ∉ cs) :
    resolve base cs = base ++ cs := by
  induction cs generalizing base with
  | nil => simp [resolve]
  | cons c rest ih =>
      have hc : c ≠ up := fun heq => h (heq ▸ List.mem_cons_self)
      have hrest : up ∉ rest := fun hmem => h (List.mem_cons_of_mem _ hmem)
      simp only [resolve, hc, if_false, ih hrest, List.append_assoc, List.singleton_append]

/-- A last component that is a name ends the path. -/
theorem resolve_concat (base : Path) (cs : List PyStr) {c : PyStr} (h : c ≠ up) :
    resolve base (cs ++ [c]) = resolve base cs ++ [c] := by
  induction cs generalizing base with
  | nil => simp [resolve, h]
  | cons d rest ih => simp only [List.cons_append, resolve, ih]

theorem osAccepts_of_subset {s t : PyStr} (hsub : t ⊆ s) (h : osAccepts s = true) :
    osAccepts t = true := by
  simp only [osAccepts, fsEncodable, Bool.and_eq_true, List.all_eq_true] at h ⊢
  exact ⟨fun c hc => h.1 c (hsub hc), fun c hc => h.2 c (hsub hc)⟩

theorem slash_not_mem_parts {s c : PyStr} (h : c ∈ parts s) : slash ∉ c :=
  PyStr.sep_not_mem_of_mem_split (List.mem_filter.mp h).1

theorem parts_mem {s c : PyStr} (h : c ∈ parts s) : c ≠ [] ∧ c ≠ py "." := by
  simpa [parts, skipped] using (List.mem_filter.mp h).2

end Path

inductive Node where
  | dir
  | file (content : Bytes)
deriving DecidableEq

structure FileSystem where
  entries : List (Path × Node)
  rooted : Assoc.get entries [] = some .dir
  closed : ∀ p name, (Assoc.get entries (p ++ [name])).isSome = true →
    Assoc.get entries p = some .dir

namespace FileSystem

def node (fs : FileSystem) (p : Path) : Option Node := Assoc.get fs.entries p

def isDir (fs : FileSystem) (p : Path) : Bool := decide (fs.node p = some .dir)

def isFile (fs : FileSystem) (p : Path) : Bool :=
  match fs.node p with
  | some (.file _) => true
  | _ => false

/-- The names directly below a directory. -/
def children (fs : FileSystem) (p : Path) : List PyStr :=
  fs.entries.filterMap fun entry =>
    match entry.1.getLast? with
    | some name => if entry.1.dropLast = p then some name else none
    | none => none

/-- The file or directory a path leads to from a directory: every directory on the
way has to be there. -/
def walk (fs : FileSystem) : Path → List PyStr → Option Path
  | p, [] => some p
  | p, c :: rest =>
      if fs.isDir p then fs.walk (if c = Path.up then p.dropLast else p ++ [c]) rest else none

theorem walk_eq_resolve {fs : FileSystem} {p q : Path} {cs : List PyStr}
    (h : fs.walk p cs = some q) : q = Path.resolve p cs := by
  induction cs generalizing p with
  | nil => exact (Option.some.inj h).symm
  | cons c rest ih =>
      simp only [walk] at h
      split at h
      · exact ih h
      · cases h

/-- Replace what stands at a path below an existing directory. -/
def put (fs : FileSystem) (p : Path) (name : PyStr) (n : Node)
    (parent : fs.node p = some .dir)
    (free : fs.node (p ++ [name]) = some .dir → n = .dir) : FileSystem where
  entries := Assoc.set fs.entries (p ++ [name]) n
  rooted := by
    rw [Assoc.get_set_of_ne _ _ (by simp), fs.rooted]
  closed := by
    intro q m hq
    rw [Assoc.get_set] at hq ⊢
    by_cases hqm : p ++ [name] = q ++ [m]
    · obtain ⟨rfl, -⟩ := List.append_inj' hqm rfl
      have hne : p ++ [name] ≠ p := by simp
      rw [if_neg hne]
      exact parent
    · simp only [hqm, if_false] at hq
      have hold := fs.closed q m hq
      split
      · rename_i hqp
        rw [free (hqp ▸ hold)]
      · exact hold

theorem node_put (fs : FileSystem) (p : Path) (name : PyStr) (n : Node)
    (parent : fs.node p = some .dir) (free : fs.node (p ++ [name]) = some .dir → n = .dir)
    (q : Path) :
    (fs.put p name n parent free).node q = if p ++ [name] = q then some n else fs.node q :=
  Assoc.get_set _ _ _ _

/-- `path.mkdir(parents=True, exist_ok=True)` from a directory on; `none` is an
`OSError`. -/
def mkdirs (fs : FileSystem) : Path → List PyStr → Option FileSystem
  | _, [] => some fs
  | p, c :: rest =>
      if hdir : fs.node p = some .dir then
        match hnode : fs.node (p ++ [c]) with
        | some .dir => fs.mkdirs (p ++ [c]) rest
        | some (.file _) => none
        | none => (fs.put p c .dir hdir (by simp [hnode])).mkdirs (p ++ [c]) rest
      else none

/-- `path.write_bytes(content)`; `none` is an `OSError`. -/
def writeBytes (fs : FileSystem) (p : Path) (content : Bytes) : Option FileSystem :=
  match p.getLast? with
  | none => none
  | some name =>
      if h : fs.node p.dropLast = some .dir ∧ fs.node (p.dropLast ++ [name]) ≠ some .dir then
        some (fs.put p.dropLast name (.file content) h.1 fun hdir => absurd hdir h.2)
      else none

/-- Only the directories down to `root`. -/
def bare (root : Path) : FileSystem where
  entries := root.inits.map fun p => (p, .dir)
  rooted := by
    rw [Assoc.get_map_const]
    simp
  closed := by
    intro p name h
    rw [Assoc.get_map_const] at h ⊢
    by_cases hp : (p ++ [name]) ∈ root.inits
    · have hpre := (List.prefix_append p [name]).trans ((List.mem_inits _ _).mp hp)
      simp [(List.mem_inits _ _).mpr hpre]
    · simp [hp] at h

theorem node_bare (root p : Path) :
    (bare root).node p = if p <+: root then some .dir else none := by
  simp only [node, bare, Assoc.get_map_const, List.mem_inits]

/-- Where there are no files, directories can be made, and only those asked for are. -/
theorem mkdirs_of_no_file (fs : FileSystem) (p : Path) (cs : List PyStr)
    (nofile : ∀ q content, fs.node q ≠ some (.file content)) (hp : fs.node p = some .dir) :
    ∃ fs', fs.mkdirs p cs = some fs' ∧ fs'.node (p ++ cs) = some .dir ∧
      ∀ q, fs'.node q = some .dir → fs.node q = some .dir ∨ q <+: p ++ cs := by
  induction cs generalizing fs p with
  | nil => exact ⟨fs, rfl, by simpa using hp, fun q hq => Or.inl hq⟩
  | cons c rest ih =>
      simp only [mkdirs, hp, dif_pos]
      split
      · rename_i hnode
        obtain ⟨fs', hmk, hdir, honly⟩ := ih fs (p ++ [c]) nofile hnode
        exact ⟨fs', hmk, by simpa using hdir, by simpa using honly⟩
      · rename_i content hnode
        exact absurd hnode (nofile _ content)
      · rename_i hnode
        have hnew := node_put fs p c .dir hp (by simp [hnode])
        have hfiles : ∀ q content,
            (fs.put p c .dir hp (by simp [hnode])).node q ≠ some (.file content) := by
          intro q content
          rw [hnew]
          split
          · simp
          · exact nofile q content
        obtain ⟨fs', hmk, hdir, honly⟩ := ih _ (p ++ [c]) hfiles (by rw [hnew]; simp)
        refine ⟨fs', hmk, by simpa using hdir, ?_⟩
        intro q hq
        rcases honly q hq with hold | hpre
        · rw [hnew] at hold
          split at hold
          · rename_i heq
            exact Or.inr (heq ▸ ⟨rest, by simp⟩)
          · exact Or.inl hold
        · exact Or.inr (by simpa using hpre)

end FileSystem

end SecureSdlc.Core
