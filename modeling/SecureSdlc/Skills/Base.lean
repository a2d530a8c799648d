import SecureSdlc.Core.JsonText
import SecureSdlc.Evidence.Pipeline

/-!
Role skills, `skills/base.py` and `skills/registry.py`: the links of an artifact,
the context built from classified inputs and the extraction of a JSON object from
model text.
-/

namespace SecureSdlc.Skills

open Core Evidence

structure ContextInput where
  name : PyStr
  document : Mapping
  source : PyStr := py "approved_artifact"

structure Skill where
  name : PyStr
  role : PyStr
  toolName : PyStr
  outputSchema : PyStr
  systemPrompt : PyStr
  contextKeys : List PyStr
  assemble : Mapping → Mapping → Except PyError Mapping

structure SkillRegistry where
  skills : List (PyStr × Skill) := []

def SkillRegistry.register (registry : SkillRegistry) (skill : Skill) :
    Except PyError SkillRegistry :=
  if (Assoc.get registry.skills skill.name).isSome then
    .error { kind := .valueError, message := py "skill already registered: " ++ skill.name }
  else .ok { registry with skills := Assoc.set registry.skills skill.name skill }

def SkillRegistry.get (registry : SkillRegistry) (name : PyStr) : Except PyError Skill :=
  match Assoc.get registry.skills name with
  | some skill => .ok skill
  | none => .error { kind := .unknownSkillError, message := name }

variable (rt : Runtime)

/-- A link as the pipeline attaches it. -/
structure Link where
  rel : PyStr
  href : PyStr

def Link.entry (link : Link) : Json :=
  .obj [(py "rel", .str link.rel), (py "href", .str link.href)]

/-- The links whose target was not seen before. -/
def unseenLinks (seen : List PyStr) : List Link → List Link
  | [] => []
  | link :: rest =>
      if link.href ∈ seen then unseenLinks seen rest
      else link :: unseenLinks (link.href :: seen) rest

def addLinks (document : Mapping) (links : List Link) : Except PyError Mapping := do
  let items ← iterateMember document (py "links")
  let existing ← items.mapM Json.toDict
  let seen ← existing.mapM fun link => ((Assoc.get link (py "href")).getD (.str [])).text rt
  pure (Assoc.set document (py "links")
    (.arr (existing.map .obj ++ (unseenLinks seen links).map Link.entry)))

/-- The loop of `build_context`. -/
def buildContextFrom (context : Mapping) : List ContextInput → Except PyError Mapping
  | [] => .ok context
  | item :: rest =>
      if classifySource item.source = .sensitive then
        .error { kind := .sensitiveContentError,
                 message := py "input " ++ reprStr rt item.name ++
                   py " is sensitive and must not enter the model context" }
      else buildContextFrom (Assoc.set context item.name (.obj item.document)) rest

def buildContext (inputs : List ContextInput) : Except PyError Mapping :=
  buildContextFrom rt [] inputs

def fence : PyStr := py "```"

/-- The text without a surrounding code fence. -/
def unfence (text : PyStr) : PyStr :=
  let stripped := PyStr.strip text
  if PyStr.startsWith stripped fence then
    let lines := (PyStr.splitlines stripped).drop 1
    let lines := match lines.getLast? with
      | some last => if PyStr.startsWith (PyStr.strip last) fence then lines.dropLast else lines
      | none => lines
    PyStr.strip (PyStr.join (py "\n") lines)
  else stripped

/-- The text itself, and the part from its first to its last brace. -/
def candidates (stripped : PyStr) : List PyStr :=
  match PyStr.find stripped (cp '\x7b'), PyStr.rfind stripped (cp '\x7d') with
  | some first, some last =>
      if first < last then [stripped, (stripped.take (last + 1)).drop first] else [stripped]
  | _, _ => [stripped]

/-- The first candidate that is a JSON object; only `JSONDecodeError` is caught. -/
def firstObject : List PyStr → Except PyError Mapping
  | [] => .error { kind := .skillError, message := py "LLM output is not a JSON object" }
  | candidate :: rest =>
      match JsonText.loads rt candidate with
      | .ok (.obj fields) => .ok fields
      | .ok _ => firstObject rest
      | .error e => if e.kind = .jsonDecodeError then firstObject rest else .error e

def extractJson (text : PyStr) : Except PyError Mapping :=
  firstObject rt (candidates (unfence text))

end SecureSdlc.Skills
