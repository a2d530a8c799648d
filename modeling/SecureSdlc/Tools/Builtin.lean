import SecureSdlc.Artifacts.Registry
import SecureSdlc.Core.JsonText

/-!
The built-in tools, `tools/builtin.py`. The disk keeps, next to the file system, the
files that were read and written; schema files read by the validator are not among
them. Roots are absolute and without symbolic links.
-/

namespace SecureSdlc.Tools

open Core Artifacts

structure Disk where
  fs : FileSystem
  reads : List Path := []
  writes : List Path := []

def readSchema : Schema :=
  .object true [py "artifact_id"] [(py "artifact_id", .string .free)]

def readResult : Schema :=
  .object false [py "artifact_id", py "document"]
    [(py "artifact_id", .string .free), (py "document", .object false [] [])]

def writeSchema : Schema :=
  .object true [py "document"] [(py "document", .object false [] [])]

def writeResult : Schema :=
  .object false [py "artifact_id", py "digest"]
    [(py "artifact_id", .string .free), (py "digest", .string .free)]

def listSchema : Schema := .object true [] []

def listResult : Schema :=
  .object false [py "artifact_ids"] [(py "artifact_ids", .array 0 (.string .free))]

def fileWriteSchema : Schema :=
  .object true [py "path", py "content"]
    [(py "path", .string .free), (py "content", .string .free)]

def fileWriteResult : Schema :=
  .object false [py "path", py "digest", py "bytes"]
    [(py "path", .string .free), (py "digest", .string .free), (py "bytes", .integer none)]

def raised {α : Type} (kind : ErrorKind) (message : PyStr := []) : Except PyError α :=
  .error { kind, message }

namespace ArtifactStore

variable (rt : Runtime) (root : Path)

def fileName (artifactId : PyStr) : PyStr := artifactId ++ py ".json"

/-- `read`: the text of the file is read before anything is checked about it. -/
def read (artifactId : PyStr) (disk : Disk) : Except PyError Mapping × Disk :=
  match locate disk.fs root (fileName artifactId) with
  | none => (raised .keyError artifactId, disk)
  | some path =>
      match disk.fs.node path with
      | some (.file content) =>
          let disk := { disk with reads := disk.reads ++ [path] }
          match Utf8.decodeStrict content with
          | none => (raised .valueError, disk)
          | some text =>
              match JsonText.loads rt (PyStr.universalNewlines text) with
              | .error e => (.error e, disk)
              | .ok (.obj fields) => (.ok fields, disk)
              | .ok _ => (raised .typeError
                  (py "artifact " ++ artifactId ++ py " is not a JSON object"), disk)
      | _ => (raised .keyError artifactId, disk)

/-- The last step of `write`: the directory, the bytes and the file. -/
def persist (artifactId canonical : PyStr) (disk : Disk) : Except PyError PyStr × Disk :=
  match disk.fs.mkdirs [] root with
  | none => (raised .osError, disk)
  | some fs =>
      let disk := { disk with fs }
      match PyStr.encodeUtf8 canonical with
      | none => (raised .unicodeEncodeError, disk)
      | some data =>
          match locate fs root (fileName artifactId) with
          | none => (raised (pathError (fileName artifactId)), disk)
          | some path =>
              match fs.writeBytes path data with
              | none => (raised .osError, disk)
              | some fs =>
                  (.ok (rt.hexdigest data), { disk with fs, writes := disk.writes ++ [path] })

def write (document : Mapping) (disk : Disk) : Except PyError PyStr × Disk :=
  match Assoc.get document (py "id") with
  | some (.str artifactId) =>
      if artifactId = [] then
        (raised .valueError (py "document is missing a string 'id'"), disk)
      else
        match JsonText.dumps rt JsonText.canonical (.obj document) with
        | .error e => (.error e, disk)
        | .ok canonical => persist rt root artifactId canonical disk
  | _ => (raised .valueError (py "document is missing a string 'id'"), disk)

/-- `path.stem` of a file name. -/
def stem (name : PyStr) : PyStr :=
  match PyStr.rfind name (cp '.') with
  | some i => if 0 < i ∧ i + 1 < name.length then name.take i else name
  | none => name

def listIds (disk : Disk) : List PyStr :=
  (((disk.fs.children root).filter fun name => PyStr.endsWith name (py ".json")).map
    stem).insertionSort fun a b => PyStr.le a b

end ArtifactStore

variable (rt : Runtime) (source : SchemaSource) (root : Path)

/-- `_read_handler`. -/
def readHandler (args : Mapping) (disk : Disk) : Except PyError Mapping × Disk :=
  match Assoc.get args (py "artifact_id") with
  | none => (raised .keyError, disk)
  | some value =>
      match value.text rt with
      | .error e => (.error e, disk)
      | .ok artifactId =>
          match ArtifactStore.read rt root artifactId disk with
          | (.ok document, disk) =>
              (.ok [(py "artifact_id", .str artifactId), (py "document", .obj document)], disk)
          | (.error e, disk) => (.error e, disk)

/-- `_write_handler`. -/
def writeHandler (args : Mapping) (disk : Disk) : Except PyError Mapping × Disk :=
  match Assoc.get args (py "document") with
  | none => (raised .keyError, disk)
  | some (.obj document) =>
      match validateArtifact source disk.fs document with
      | .error e => (.error e, disk)
      | .ok false => (raised .valueError, disk)
      | .ok true =>
          match ArtifactStore.write rt root document disk with
          | (.error e, disk) => (.error e, disk)
          | (.ok digest, disk) =>
              match Assoc.get document (py "id") with
              | none => (raised .keyError, disk)
              | some id =>
                  match id.text rt with
                  | .error e => (.error e, disk)
                  | .ok artifactId =>
                      (.ok [(py "artifact_id", .str artifactId), (py "digest", .str digest)], disk)
  | some _ => (raised .typeError, disk)

/-- `_list_handler`. -/
def listHandler (_ : Mapping) (disk : Disk) : Except PyError Mapping × Disk :=
  (.ok [(py "artifact_ids", .arr ((ArtifactStore.listIds root disk).map .str))], disk)

def readArtifactTool : ToolSpec Disk where
  name := py "read_artifact"
  scope := py "workspace"
  description := py "Read a canonical workflow artifact by id"
  argsSchema := schemaOf readSchema
  resultSchema := schemaOf readResult
  handler := readHandler rt root

def writeArtifactTool : ToolSpec Disk where
  name := py "write_artifact"
  scope := py "workspace"
  description := py "Validate and persist a canonical workflow artifact"
  argsSchema := schemaOf writeSchema
  resultSchema := schemaOf writeResult
  handler := writeHandler rt source root

def listArtifactsTool : ToolSpec Disk where
  name := py "list_artifacts"
  scope := py "workspace"
  description := py "List stored artifact ids"
  argsSchema := schemaOf listSchema
  resultSchema := schemaOf listResult
  handler := listHandler root

namespace WorkspaceWriter

/-- The string begins as an absolute path, in either spelling of the separator. -/
def startsAbsolute (s : PyStr) : Bool :=
  PyStr.startsWith s (py "/") || PyStr.startsWith s (py "\\")

/-- The checks on a path: the resolved target, or why it is refused. -/
def target (relativePath : PyStr) : Except PyError Path :=
  if relativePath = [] ∨ startsAbsolute relativePath then
    raised .valueError (py "path must be relative to the workspace root")
  else if Path.up ∈ Path.parts relativePath then
    raised .valueError (py "path must not contain '..'")
  else if Path.osAccepts relativePath then
    let target := Path.join root relativePath
    if root <+: target then .ok target
    else raised .valueError (py "path escapes the workspace root")
  else raised (pathError relativePath)

def write (relativePath content : PyStr) (disk : Disk) : Except PyError Mapping × Disk :=
  match target root relativePath with
  | .error e => (.error e, disk)
  | .ok target =>
      match disk.fs.mkdirs [] target.dropLast with
      | none => (raised .osError, disk)
      | some fs =>
          let disk := { disk with fs }
          match PyStr.encodeUtf8 content with
          | none => (raised .unicodeEncodeError, disk)
          | some data =>
              match fs.writeBytes target data with
              | none => (raised .osError, disk)
              | some fs =>
                  (.ok [(py "path", .str (PyStr.replaceChar relativePath (cp '\\') (cp '/'))),
                    (py "digest", .str (rt.hexdigest data)), (py "bytes", .int data.length)],
                    { disk with fs, writes := disk.writes ++ [target] })

end WorkspaceWriter

/-- `_write_file_handler`. -/
def writeFileHandler (args : Mapping) (disk : Disk) : Except PyError Mapping × Disk :=
  match Assoc.get args (py "path"), Assoc.get args (py "content") with
  | some path, some content =>
      match path.text rt, content.text rt with
      | .ok path, .ok content => WorkspaceWriter.write rt root path content disk
      | .error e, _ => (.error e, disk)
      | _, .error e => (.error e, disk)
  | _, _ => (raised .keyError, disk)

def writeFileTool : ToolSpec Disk where
  name := py "write_file"
  scope := py "workspace"
  description := py "Write a UTF-8 text file confined to the workspace root"
  argsSchema := schemaOf fileWriteSchema
  resultSchema := schemaOf fileWriteResult
  handler := writeFileHandler rt root

end SecureSdlc.Tools
