import SecureSdlc.Contracts.Schemas
import SecureSdlc.Core.Path
import SecureSdlc.Tools.Registry

/-!
Artifact validation, `artifacts/registry.py`. The schema file is found by a path
built from the artifact's type. Files of `contracts/schemas` have the content of
the repository; any other file that a type leads to is a parameter.
-/

namespace SecureSdlc.Artifacts

open Core Tools

def schemaSuffix : PyStr := py ".schema.json"

/-- `contracts/schemas` of the repository, and what is read from other files. -/
structure SchemaSource where
  dir : Path
  elsewhere : Path → Validator

def schemaOf (s : Schema) : Validator := fun v => .ok (s.valid v)

/-- The schema in a file. -/
def SchemaSource.schemaAt (source : SchemaSource) (p : Path) : Validator :=
  match Contracts.schemaFiles.find? fun entry =>
      decide (p = source.dir ++ [entry.1 ++ schemaSuffix]) with
  | some entry => schemaOf entry.2
  | none => source.elsewhere p

theorem schemaAt_cases (source : SchemaSource) (p : Path) :
    (∃ entry ∈ Contracts.schemaFiles, p = source.dir ++ [entry.1 ++ schemaSuffix] ∧
        source.schemaAt p = schemaOf entry.2) ∨
      ((∀ entry ∈ Contracts.schemaFiles, p ≠ source.dir ++ [entry.1 ++ schemaSuffix]) ∧
        source.schemaAt p = source.elsewhere p) := by
  simp only [SchemaSource.schemaAt]
  split
  · rename_i entry hfind
    have hp := List.find?_some hfind
    exact Or.inl ⟨entry, List.mem_of_find?_eq_some hfind, by simpa using hp, rfl⟩
  · rename_i hfind
    refine Or.inr ⟨?_, rfl⟩
    intro entry hentry
    simpa using List.find?_eq_none.mp hfind entry hentry

/-- A schema file of the repository is read as it stands. -/
theorem schemaAt_of_mem (source : SchemaSource) {entry : PyStr × Schema}
    (hentry : entry ∈ Contracts.schemaFiles) :
    source.schemaAt (source.dir ++ [entry.1 ++ schemaSuffix]) = schemaOf entry.2 := by
  have hunique : Assoc.Unique Contracts.schemaFiles := by
    rw [Assoc.Unique]
    decide
  rcases schemaAt_cases source (source.dir ++ [entry.1 ++ schemaSuffix]) with
    ⟨found, hfound, hname, hat⟩ | ⟨hother, -⟩
  · have hname : entry.1 = found.1 := by simpa using hname
    have hget := Assoc.get_of_mem hunique hfound
    rw [← hname, Assoc.get_of_mem hunique hentry] at hget
    rw [hat, Option.some.inj hget]
  · exact absurd rfl (hother entry hentry)

/-- Where `base / name` leads, when every directory on the way is there. -/
def locate (fs : FileSystem) (base : Path) (name : PyStr) : Option Path :=
  if Path.osAccepts name then
    fs.walk (if Path.isAbsolute name then [] else base) (Path.parts name)
  else none

/-- What the interpreter raises for a path that `locate` does not find. -/
def pathError (name : PyStr) : ErrorKind :=
  if Path.osAccepts name then .osError
  else if Path.fsEncodable name then .valueError
  else .unicodeEncodeError

def loadSchema (source : SchemaSource) (fs : FileSystem) (name : PyStr) :
    Except PyError Validator :=
  match locate fs source.dir name with
  | some p => if fs.isFile p then .ok (source.schemaAt p) else .error { kind := .osError }
  | none => .error { kind := pathError name }

def artifactSchemaName (document : Mapping) : Except PyError PyStr :=
  match Assoc.get document (py "artifact_type") with
  | some (.str artifactType) =>
      if artifactType = [] then
        .error { kind := .valueError,
                 message := py "artifact is missing a string 'artifact_type' field" }
      else .ok (artifactType ++ schemaSuffix)
  | _ => .error { kind := .valueError,
                  message := py "artifact is missing a string 'artifact_type' field" }

/-- `validate_document` finds no error, with the schemas and files of one repository. -/
def documentValidator (source : SchemaSource) (fs : FileSystem) (schemaName : PyStr)
    (document : Json) : Except PyError Bool := do
  let validator ← loadSchema source fs schemaName
  validator document

/-- `validate_document` of an object. -/
def validateDocument (source : SchemaSource) (fs : FileSystem) (document : Mapping)
    (schemaName : PyStr) : Except PyError Bool :=
  documentValidator source fs schemaName (.obj document)

/-- `validate_artifact` finds no error. -/
def validateArtifact (source : SchemaSource) (fs : FileSystem) (document : Mapping) :
    Except PyError Bool := do
  let name ← artifactSchemaName document
  validateDocument source fs document name

end SecureSdlc.Artifacts
