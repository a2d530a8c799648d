import SecureSdlc.Core.JsonSurrogates
import SecureSdlc.Mcp.Stdio
import SecureSdlc.Metatheory.AuditTrail
import SecureSdlc.Metatheory.TokenRoundTrip

/-!
What the stdio bridge answers. Every line that is not blank gets one response; an
exception anywhere in its handling is answered without the id of its request. The results
below say for which lines the response carries the id, as it is read from the stream that it
was written to. The spelling of floats is the runtime's, and there is room to write four
levels of nesting.
-/

namespace SecureSdlc.Mcp

open Core JsonText Runner Tools

universe u

variable {rt : Runtime} {σ : Type u}

theorem wireStyle_readable : wireStyle.Readable :=
  ⟨⟨[cp ' '], rfl, fun _ hc => List.mem_singleton.mp hc ▸ rfl⟩,
    ⟨[cp ' '], rfl, fun _ hc => List.mem_singleton.mp hc ▸ rfl⟩⟩

theorem defaultStyle_readable : ({} : Style).Readable :=
  ⟨⟨[cp ' '], rfl, fun _ hc => List.mem_singleton.mp hc ▸ rfl⟩,
    ⟨[cp ' '], rfl, fun _ hc => List.mem_singleton.mp hc ▸ rfl⟩⟩

/-- The response is the text of a JSON-RPC response with this id. -/
def AnswersTo (rt : Runtime) (response : PyStr) (requestId : Json) : Prop :=
  (∃ payload, dumps rt wireStyle (.obj (result requestId payload)) = .ok response) ∨
    ∃ code text, dumps rt wireStyle (.obj (error requestId code text)) = .ok response

theorem AnswersTo.envelope {response : PyStr} {requestId : Json}
    (h : AnswersTo rt response requestId) :
    ∃ key value, dumps rt wireStyle (.obj (envelope requestId key value)) = .ok response := by
  rcases h with ⟨payload, h⟩ | ⟨code, text, h⟩
  · exact ⟨_, _, h⟩
  · exact ⟨_, _, h⟩

/-- The text of a response before its id. -/
def opening : PyStr := py "\x7b\"jsonrpc\": \"2.0\", \"id\": "

/-- The text of a response up to its id, which a comma follows. -/
theorem envelope_text {requestId : Json} {key response : PyStr} {value : Json}
    (h : dumps rt wireStyle (.obj (envelope requestId key value)) = .ok response) :
    ∃ room rest, Writes wireStyle room requestId ∧ rt.dumpsRoom = room + 1 ∧
      response = opening ++ (textOf wireStyle room requestId ++ cp ',' :: rest) := by
  obtain ⟨room, hroom, hwrites, rfl⟩ := write_obj h
  refine ⟨room, cp ' ' :: (member wireStyle room (key, value) ++ [cp '\x7d']),
    hwrites (py "id", requestId) (by simp [envelope]), hroom, ?_⟩
  have horder : inOrder wireStyle (envelope requestId key value) = envelope requestId key value :=
    rfl
  rw [horder, envelope]
  simp only [List.map_cons, List.map_nil, join_cons_cons, join_singleton, List.append_assoc]
  rfl

theorem answersTo_unique {response : PyStr} {requestId other : Json}
    (hid : FloatsRead rt requestId) (hother : FloatsRead rt other)
    (hkeys : requestId.distinctKeys = true) (hkeys' : other.distinctKeys = true)
    (h : AnswersTo rt response requestId) (h' : AnswersTo rt response other) :
    requestId = other := by
  obtain ⟨key, value, htext⟩ := h.envelope
  obtain ⟨key', value', htext'⟩ := h'.envelope
  obtain ⟨room, rest, hwrites, hroom, rfl⟩ := envelope_text htext
  obtain ⟨room', rest', hwrites', hroom', heq⟩ := envelope_text htext'
  have htail := List.append_cancel_left heq
  have hends : ∀ rest, Ends (cp ',' :: rest) := fun rest => ends_delimiter (.inl rfl) rest
  let fuel := 2 * (textOf wireStyle room requestId).length +
    2 * (textOf wireStyle room' other).length
  have hread := hid.rereads wireStyle_readable room _ hwrites fuel
    (max requestId.depth other.depth) (cp ',' :: rest) (Nat.le_add_right _ _)
    (Nat.le_max_left _ _) (hends rest)
  have hread' := hother.rereads wireStyle_readable room' _ hwrites' fuel
    (max requestId.depth other.depth) (cp ',' :: rest') (Nat.le_add_left _ _)
    (Nat.le_max_right _ _) (hends rest')
  rw [htail, hread', reread_raw rfl rfl _ hkeys, reread_raw rfl rfl _ hkeys'] at hread
  exact (congrArg Prod.fst (Except.ok.inj hread)).symm

section Streams

variable {requestId : Json}

/-- What the stream shows of a text that was written to it. -/
def Stream.shown : Stream → PyStr → PyStr
  | .utf8, s => s.map Utf8.substitute
  | .text, s => s

theorem Stream.read_write (stream : Stream) (s : PyStr) :
    (stream.write s).read = stream.shown s := by
  cases stream with
  | utf8 => exact Utf8.decodeReplace_encodeReplace s
  | text => rfl

/-- The line of a response shows the response and ends there. -/
theorem Stream.read_response (stream : Stream) (response : PyStr) :
    (stream.write (response ++ py "\n")).read = stream.shown response ++ py "\n" := by
  rw [stream.read_write]
  cases stream with
  | utf8 => exact List.map_append
  | text => rfl

theorem Stream.shown_plain (stream : Stream) {s : PyStr} (h : s.all isPlain = true) :
    (stream.shown s).all isPlain = true := by
  cases stream with
  | text => exact h
  | utf8 =>
      rw [List.all_eq_true] at h
      rw [Stream.shown, List.all_map, List.all_eq_true]
      intro c hc
      rw [Function.comp_apply, Utf8.substitute]
      split
      · rfl
      · exact h c hc

theorem wireStyle_raw : wireStyle.Raw := ⟨rfl, rfl, by decide, by decide⟩

/-- Texts that the stream shows as they are. -/
def Stream.Keeps (stream : Stream) (v : Json) : Prop := stream = .utf8 → SurrogateFree v

/-- An id that is shown as it is stays that of the response. -/
theorem AnswersTo.shown {response : PyStr} {stream : Stream} (h : AnswersTo rt response requestId)
    (hkept : stream.Keeps requestId) : AnswersTo rt (stream.shown response) requestId := by
  cases stream with
  | text => exact h
  | utf8 =>
      have hid := substituted_of_free requestId (hkept rfl)
      have hwritten : ∀ {body : Mapping}, dumps rt wireStyle (.obj body) = .ok response →
          dumps rt wireStyle (.obj (substitutedFields body)) =
            .ok (response.map Utf8.substitute) := by
        intro body hbody
        have hmap := write_substituted wireStyle_raw rt.dumpsRoom (.obj body)
        rw [dumps] at hbody
        rwa [hbody] at hmap
      have hname : ∀ text : String, Printable (py text) → (py text).map Utf8.substitute = py text :=
        fun _ hprintable => substituted_printable hprintable
      rcases h with ⟨payload, hpayload⟩ | ⟨code, text, herror⟩
      · refine .inl ⟨substitutedFields payload, ?_⟩
        have hbody := hwritten hpayload
        simp only [result, Mcp.envelope, substitutedFields, substituted, hid, jsonrpcVersion,
          hname "jsonrpc" (by decide), hname "2.0" (by decide), hname "id" (by decide),
          hname "result" (by decide)] at hbody
        exact hbody
      · refine .inr ⟨code, text.map Utf8.substitute, ?_⟩
        have hbody := hwritten herror
        simp only [error, Mcp.envelope, substitutedFields, substituted, hid, jsonrpcVersion,
          hname "jsonrpc" (by decide), hname "2.0" (by decide), hname "id" (by decide),
          hname "error" (by decide), hname "code" (by decide), hname "message" (by decide)]
          at hbody
        exact hbody

/-- What a stream over bytes shows carries no id with a surrogate. -/
theorem keeps_of_shown {response : PyStr} {stream : Stream}
    (h : AnswersTo rt (stream.shown response) requestId) : stream.Keeps requestId := by
  rintro rfl
  obtain ⟨key, value, htext⟩ := h.envelope
  have hencodable := encodable_write rfl (by decide) (by decide) htext
  rw [Stream.shown, Utf8.encodable_substituted] at hencodable
  have hfields := (allScalarsFields_iff _).mp hencodable.symm
  exact (hfields (py "id", requestId) (by simp [envelope])).2

end Streams

section Responses

variable {requestId : Json}

theorem writable_envelope {room : Nat} {key : PyStr} {value : Json} :
    Writable (room + 1) (.obj (envelope requestId key value)) ↔
      Writable room requestId ∧ Writable room value := by
  rw [writable_obj, envelope]
  simp only [List.forall_mem_cons, List.not_mem_nil, false_implies, implies_true, and_true,
    writable_str, true_and]

/-- A response can be dumped when its id and its content can. -/
theorem exists_dumps_envelope_iff (hroom : 4 ≤ rt.dumpsRoom) {key : PyStr} {value : Json} :
    (∃ text, dumps rt wireStyle (.obj (envelope requestId key value)) = .ok text) ↔
      Writable (rt.dumpsRoom - 1) requestId ∧ Writable (rt.dumpsRoom - 1) value := by
  obtain ⟨room, heq⟩ : ∃ room, rt.dumpsRoom = room + 1 := ⟨rt.dumpsRoom - 1, by omega⟩
  rw [dumps, exists_write_iff, heq, writable_envelope, Nat.add_sub_cancel]

theorem writable_errorBody {code : Int}
    (h : code ∈ [invalidRequest, methodNotFound, invalidParams, parseError, internalError])
    (text : PyStr) :
    Writable 3 (.obj [(py "code", .int code), (py "message", .str text)]) := by
  have hshort : ∀ code ∈ [invalidRequest, methodNotFound, invalidParams, parseError,
      internalError], shortInt code = true := by
    decide
  have hcode : Writable 2 (.int code) := ⟨Nat.zero_le _, hshort code h⟩
  rw [writable_obj]
  simp only [List.forall_mem_cons, List.not_mem_nil, false_implies, implies_true, and_true,
    writable_str, hcode]

theorem writable_fixed : ∀ payload ∈ [initializePayload, []], Writable 3 (.obj payload) := by
  intro payload h
  simp only [List.mem_cons, List.not_mem_nil, or_false] at h
  rcases h with rfl | rfl
  · exact ⟨by decide, by decide⟩
  · exact ⟨by decide, rfl⟩

/-- What the executor returns can be shown. -/
theorem callPayload_of_exit (hroom : 4 ≤ rt.dumpsRoom) {call : Invocation}
    {actor decision : Mapping} {store stored : Evidence.EvidenceStore} {result : ExecutionResult}
    (h : Exit rt call actor decision store result stored) :
    ∃ payload, callPayload rt result = .ok payload ∧
      Writable (rt.dumpsRoom - 1) (.obj payload) := by
  obtain ⟨room, heq⟩ : ∃ room, rt.dumpsRoom = room + 4 := ⟨rt.dumpsRoom - 4, by omega⟩
  have hcontent : ∀ text : PyStr, Writable (room + 2)
      (.arr [.obj [(py "type", .str (py "text")), (py "text", .str text)]]) := by
    intro text
    rw [writable_arr, List.forall_mem_singleton, writable_obj]
    simp only [List.forall_mem_cons, List.not_mem_nil, false_implies, implies_true, and_true,
      writable_str]
  have hflag : ∀ b, Writable (room + 2) (.bool b) := fun _ => ⟨Nat.zero_le _, rfl⟩
  cases h with
  | refused reason recorded =>
      refine ⟨_, rfl, ?_⟩
      have hreason : Writable (room + 2) (.obj [(py "reason", .str reason)]) := by
        rw [writable_obj, List.forall_mem_singleton]
        exact writable_str reason
      rw [heq]
      exact writable_obj.mpr (by
        simp only [List.forall_mem_cons, List.not_mem_nil, false_implies, implies_true, and_true,
          hcontent, hflag, hreason])
  | executed output recorded =>
      obtain ⟨-, hstorable⟩ := storable_of_record recorded
      have hdepth : (Json.obj output).depth ≤ room + 2 := by
        have hlt := hstorable.depth
        rw [heq, Json.depth, Json.depthFields, Json.depthFields, Nat.max_zero] at hlt
        omega
      have hints := ((allScalarsFields_iff _).mp hstorable.ints _ List.mem_cons_self).2
      have houtput : Writable (room + 2) (.obj output) := ⟨hdepth, hints⟩
      obtain ⟨text, htext⟩ : ∃ text, dumps rt wireStyle (.obj output) = .ok text := by
        rw [dumps, exists_write_iff, heq]
        exact houtput.mono (by omega)
      refine ⟨[(py "content", .arr [.obj [(py "type", .str (py "text")), (py "text", .str text)]]),
        (py "isError", .bool false), (py "structuredContent", .obj output)], ?_, ?_⟩
      · rw [callPayload, if_pos rfl]
        change (dumps rt wireStyle (.obj output) >>= _) = _
        rw [htext]
        rfl
      · rw [heq]
        exact writable_obj.mpr (by
          simp only [List.forall_mem_cons, List.not_mem_nil, false_implies, implies_true, and_true,
            hcontent, hflag, houtput])

variable {server : MCPServer σ}

theorem mem_names_iff {registry : ToolRegistry σ} {name : PyStr} :
    name ∈ registry.names ↔ ∃ spec, registry.get name = .ok spec := by
  rw [ToolRegistry.names, List.mem_insertionSort, ToolRegistry.get]
  cases hget : Assoc.get registry.tools name with
  | some spec =>
      exact iff_of_true (List.mem_map.mpr ⟨(name, spec), Assoc.mem_of_get hget, rfl⟩) ⟨spec, rfl⟩
  | none =>
      refine iff_of_false ?_ (by simp)
      intro hmem
      obtain ⟨entry, hentry, hname⟩ := List.mem_map.mp hmem
      exact Assoc.ne_of_get_none hget entry hentry hname

/-- What `tools/list` shows of a name. -/
def shownEntry (server : MCPServer σ) (name : PyStr) : Except PyError Json :=
  match server.tools.get name with
  | .ok spec => .ok (server.listEntry spec)
  | .error e => .error e

/-- `tools/list` never raises; its entries are those of the registered tools. -/
theorem exists_listTools (server : MCPServer σ) :
    ∃ entries, server.listTools = .ok [(py "tools", .arr entries)] ∧
      ∀ entry, entry ∈ entries ↔
        ∃ name spec, server.tools.get name = .ok spec ∧ entry = server.listEntry spec := by
  have hentry : ∀ {name : PyStr} {spec : ToolSpec σ}, server.tools.get name = .ok spec →
      shownEntry server name = .ok (server.listEntry spec) := by
    intro name spec hspec
    simp only [shownEntry, hspec]
  have hshown : ∀ name ∈ server.tools.names, ∃ entry, shownEntry server name = .ok entry := by
    intro name hname
    obtain ⟨spec, hspec⟩ := mem_names_iff.mp hname
    exact ⟨server.listEntry spec, hentry hspec⟩
  obtain ⟨entries, hentries⟩ := exists_mapM_ok hshown
  obtain ⟨hleft, hright⟩ := mem_of_mapM_ok hentries
  refine ⟨entries, ?_, ?_⟩
  · change (server.tools.names.mapM (shownEntry server) >>= _) = _
    rw [hentries]
    rfl
  · intro entry
    constructor
    · intro hmem
      obtain ⟨name, hname, heq⟩ := hright entry hmem
      obtain ⟨spec, hspec⟩ := mem_names_iff.mp hname
      rw [hentry hspec] at heq
      exact ⟨name, spec, hspec, (Except.ok.inj heq).symm⟩
    · rintro ⟨name, spec, hspec, rfl⟩
      obtain ⟨entry, hmem, heq⟩ := hleft name (mem_names_iff.mpr ⟨spec, hspec⟩)
      rw [hentry hspec] at heq
      exact Except.ok.inj heq ▸ hmem

/-- The list of tools can be dumped when the schemas of all tools can. -/
theorem writable_listTools_iff (hroom : 4 ≤ rt.dumpsRoom) {entries : List Json}
    (hentries : ∀ entry, entry ∈ entries ↔
      ∃ name spec, server.tools.get name = .ok spec ∧ entry = server.listEntry spec) :
    Writable (rt.dumpsRoom - 1) (.obj [(py "tools", .arr entries)]) ↔
      ∀ name spec, server.tools.get name = .ok spec →
        Writable (rt.dumpsRoom - 4) (.obj (server.argsSchema spec)) := by
  obtain ⟨room, heq⟩ : ∃ room, rt.dumpsRoom = room + 4 := ⟨rt.dumpsRoom - 4, by omega⟩
  have hentry : ∀ spec, Writable (room + 1) (server.listEntry spec) ↔
      Writable room (.obj (server.argsSchema spec)) := by
    intro spec
    rw [MCPServer.listEntry, writable_obj]
    simp only [List.forall_mem_cons, List.not_mem_nil, false_implies, implies_true, and_true,
      writable_str, true_and]
  rw [heq]
  change Writable (room + 2 + 1) _ ↔ ∀ name spec, _ → Writable room _
  rw [writable_obj, List.forall_mem_singleton, writable_arr]
  constructor
  · intro h name spec hspec
    exact (hentry spec).mp (h _ ((hentries _).mpr ⟨name, spec, hspec, rfl⟩))
  · intro h entry hmem
    obtain ⟨name, spec, hspec, rfl⟩ := (hentries entry).mp hmem
    exact (hentry spec).mpr (h name spec hspec)

end Responses

section Handling

variable {server : MCPServer σ} {message : Mapping} {clock : Clock} {session : Session σ}

/-- The response line to a message. -/
def answerOf (rt : Runtime) (server : MCPServer σ) (message : Mapping) (clock : Clock)
    (session : Session σ) : Except PyError PyStr :=
  (server.handle rt message clock session).1 >>= fun response =>
    dumps rt wireStyle (.obj response)

/-- What the answer to a message needs: room for the id, schemas that can be shown when they
are asked for, and, for a call, a registered run, a policy that answers and a call that can
be audited. -/
structure Handled (rt : Runtime) (server : MCPServer σ) (session : Session σ) (clock : Clock)
    (message : Mapping) : Prop where
  room : (MCPServer.idOf message).depth < rt.dumpsRoom
  listed : MCPServer.AsksList message → ∀ name spec, server.tools.get name = .ok spec →
    Writable (rt.dumpsRoom - 4) (.obj (server.argsSchema spec))
  executed : ∀ call, MCPServer.callOf rt message = some call →
    ∃ run verdict, server.executor.capabilities.get call.runId = some run ∧
      Answers rt server.executor (session.invocation call clock) run verdict ∧
      Auditable rt server.executor (session.invocation call clock) clock.now run
        session.host.world

theorem callOf_of_asksList (h : MCPServer.AsksList message) :
    MCPServer.callOf rt message = none := by
  rw [MCPServer.callOf, if_neg]
  rintro ⟨-, hcall⟩
  rw [h.2, Option.some.injEq, Json.str.injEq] at hcall
  revert hcall
  decide

/-- The answer that dumps one response. -/
theorem exists_answer_iff (hroom : 4 ≤ rt.dumpsRoom) {key : PyStr} {value : Json}
    (hints : (MCPServer.idOf message).allScalars (fun _ => true) (fun _ => true) shortInt = true)
    (h : (server.handle rt message clock session).1 =
      .ok (envelope (MCPServer.idOf message) key value)) :
    (∃ response, answerOf rt server message clock session = .ok response) ↔
      (MCPServer.idOf message).depth < rt.dumpsRoom ∧ Writable (rt.dumpsRoom - 1) value := by
  have hid : Writable (rt.dumpsRoom - 1) (MCPServer.idOf message) ↔
      (MCPServer.idOf message).depth < rt.dumpsRoom := by
    constructor
    · intro hwritable
      have := hwritable.depth
      omega
    · exact fun hlt => ⟨by omega, hints⟩
  rw [answerOf, h, ← hid]
  exact exists_dumps_envelope_iff hroom

theorem answerOf_iff (hroom : 4 ≤ rt.dumpsRoom)
    (hints : (MCPServer.idOf message).allScalars (fun _ => true) (fun _ => true) shortInt = true) :
    (∃ response, answerOf rt server message clock session = .ok response) ↔
      Handled rt server session clock message := by
  cases hcall : MCPServer.callOf rt message with
  | some call =>
      have hlist : ¬ MCPServer.AsksList message := by
        intro hasks
        rw [callOf_of_asksList hasks] at hcall
        cases hcall
      have hhandle := congrArg Prod.fst (server.handle_of_call hcall clock session)
      have hreturns : (∃ result, (server.dispatch rt call clock session).1 = .ok result) ↔ _ :=
        execute_returns_iff
      cases houtcome : (server.dispatch rt call clock session).1 with
      | error e =>
          rw [houtcome] at hhandle
          refine iff_of_false ?_ ?_
          · rintro ⟨response, hanswer⟩
            rw [answerOf, hhandle] at hanswer
            cases hanswer
          · intro h
            obtain ⟨result, hresult⟩ := hreturns.mpr (h.executed call hcall)
            rw [houtcome] at hresult
            cases hresult
      | ok returned =>
          obtain ⟨run, verdict, -, -, hexit⟩ := execute_exit houtcome
          obtain ⟨payload, hpayload, hwritable⟩ := callPayload_of_exit hroom hexit
          rw [houtcome] at hhandle
          change _ = (callPayload rt returned >>= _) at hhandle
          rw [hpayload] at hhandle
          rw [exists_answer_iff hroom hints hhandle, and_iff_left hwritable]
          constructor
          · intro hdepth
            refine ⟨hdepth, fun hasks => absurd hasks hlist, ?_⟩
            intro other hother
            rw [hcall] at hother
            cases hother
            exact hreturns.mp ⟨returned, houtcome⟩
          · exact fun h => h.room
  | none =>
      by_cases hlist : MCPServer.AsksList message
      · obtain ⟨entries, htools, hentries⟩ := exists_listTools server
        have hhandle : (server.handle rt message clock session).1 =
            .ok (result (MCPServer.idOf message) [(py "tools", .arr entries)]) := by
          rw [server.handle_list hlist, htools]
          rfl
        rw [exists_answer_iff hroom hints hhandle, writable_listTools_iff hroom hentries]
        constructor
        · rintro ⟨hdepth, hschemas⟩
          exact ⟨hdepth, fun _ => hschemas, fun call hasks => by rw [hcall] at hasks; cases hasks⟩
        · intro h
          exact ⟨h.room, h.listed hlist⟩
      · have hother : (∃ response, answerOf rt server message clock session = .ok response) ↔
            (MCPServer.idOf message).depth < rt.dumpsRoom := by
          rcases server.handle_other hcall hlist clock session with
            ⟨code, hcode, text, hhandle⟩ | ⟨payload, hpayload, hhandle⟩
          · rw [exists_answer_iff hroom hints (congrArg Prod.fst hhandle), and_iff_left]
            refine (writable_errorBody ?_ text).mono (by omega)
            exact List.mem_append_left [parseError, internalError] hcode
          · rw [exists_answer_iff hroom hints (congrArg Prod.fst hhandle), and_iff_left]
            exact (writable_fixed payload hpayload).mono (by omega)
        rw [hother]
        constructor
        · intro hdepth
          exact ⟨hdepth, fun hasks => absurd hasks hlist,
            fun call hasks => by rw [hcall] at hasks; cases hasks⟩
        · exact fun h => h.room

theorem answersTo_of_answer {response : PyStr}
    (h : answerOf rt server message clock session = .ok response) :
    AnswersTo rt response (MCPServer.idOf message) := by
  obtain ⟨body, hbody, hdumps⟩ := exists_ok_of_bind h
  cases hcall : MCPServer.callOf rt message with
  | some call =>
      rw [server.handle_of_call hcall] at hbody
      obtain ⟨returned, -, hbody⟩ := exists_ok_of_bind hbody
      obtain ⟨payload, -, heq⟩ := exists_ok_of_bind hbody
      cases heq
      exact .inl ⟨payload, hdumps⟩
  | none =>
      by_cases hlist : MCPServer.AsksList message
      · rw [server.handle_list hlist] at hbody
        cases htools : server.listTools with
        | error e =>
            rw [htools] at hbody
            cases hbody
        | ok payload =>
            rw [htools] at hbody
            cases hbody
            exact .inl ⟨payload, hdumps⟩
      · rcases server.handle_other hcall hlist clock session with
          ⟨code, -, text, heq⟩ | ⟨payload, -, heq⟩
        · rw [heq] at hbody
          cases hbody
          exact .inr ⟨code, text, hdumps⟩
        · rw [heq] at hbody
          cases hbody
          exact .inl ⟨payload, hdumps⟩

end Handling

section Minting

theorem depthFields_set {fields : Mapping} {key : PyStr} {v w : Json}
    (h : Assoc.get fields key = some w) (hdepth : v.depth = w.depth) :
    Json.depthFields (Assoc.set fields key v) = Json.depthFields fields := by
  induction fields with
  | nil => cases h
  | cons field rest ih =>
      obtain ⟨k, u⟩ := field
      by_cases hk : k = key
      · rw [Assoc.get, if_pos hk, Option.some.injEq] at h
        rw [Assoc.set, if_pos hk, Json.depthFields, Json.depthFields, h, hdepth]
      · rw [Assoc.get, if_neg hk] at h
        rw [Assoc.set, if_neg hk, Json.depthFields, Json.depthFields, ih h]

theorem depthFields_setDefault (fields : Mapping) (key text : PyStr) :
    Json.depthFields (setDefault fields key (.str text)) = Json.depthFields fields := by
  rw [setDefault]
  split
  · rfl
  · rename_i hnone
    rw [Option.not_isSome_iff_eq_none] at hnone
    rw [Assoc.set_of_get_none _ hnone]
    induction fields with
    | nil => rfl
    | cons field rest ih =>
        obtain ⟨k, u⟩ := field
        by_cases hk : k = key
        · simp [Assoc.get, hk] at hnone
        · rw [Assoc.get, if_neg hk] at hnone
          rw [List.cons_append, Json.depthFields, Json.depthFields, ih hnone]

theorem forall_set {P : Json → Prop} {fields : Mapping} (h : ∀ field ∈ fields, P field.2)
    (key : PyStr) {v : Json} (hv : P v) : ∀ field ∈ Assoc.set fields key v, P field.2 := by
  intro field hfield
  rcases Assoc.mem_set hfield with rfl | hold
  · exact hv
  · exact h field hold

theorem forall_setDefault {P : Json → Prop} {fields : Mapping} (h : ∀ field ∈ fields, P field.2)
    (key : PyStr) {v : Json} (hv : P v) : ∀ field ∈ setDefault fields key v, P field.2 := by
  rw [setDefault]
  split
  · exact h
  · exact forall_set h key hv

theorem issueToken_returns_iff {secret : Bytes} {capability : Capability} :
    (∃ token, issueToken rt secret capability = .ok token) ↔
      Writable rt.dumpsRoom capability.payload := by
  rw [← exists_write_iff payloadStyle]
  constructor
  · rintro ⟨token, h⟩
    obtain ⟨text, hissued⟩ := issued_of_issueToken h
    exact ⟨text, hissued.dumped⟩
  · rintro ⟨text, htext⟩
    have hprintable : Printable text :=
      printable_write rfl (by decide) (by decide) (floatFree_payload capability) htext
    have hdumps : dumps rt payloadStyle capability.payload = .ok text := htext
    rw [issueToken, hdumps]
    simp only [bind, Except.bind, hprintable.encodeUtf8, sign_encode]
    exact ⟨_, rfl⟩

/-- A token can be issued for a registered run that is not finished. -/
theorem issue_returns_iff (hroom : 0 < rt.dumpsRoom) {registry : RunRegistry}
    {runId tool scope : PyStr} {ttl now : Int} :
    (∃ token, registry.issue rt runId tool scope ttl now = .ok token) ↔
      (∃ run, registry.get runId = some run ∧ run.finished = false) ∧
        shortInt (now + ttl) = true := by
  have hpayload : Writable rt.dumpsRoom
      (Capability.payload ⟨runId, tool, scope, now + ttl⟩) ↔ shortInt (now + ttl) = true := by
    obtain ⟨room, heq⟩ : ∃ room, rt.dumpsRoom = room + 1 := ⟨rt.dumpsRoom - 1, by omega⟩
    have hint : Writable room (.int (now + ttl)) ↔ shortInt (now + ttl) = true :=
      ⟨fun h => h.ints, fun h => ⟨Nat.zero_le _, h⟩⟩
    rw [heq, Capability.payload, writable_obj, ← hint]
    simp only [List.forall_mem_cons, List.not_mem_nil, false_implies, implies_true, and_true,
      writable_str, true_and]
  rw [← hpayload, ← issueToken_returns_iff, RunRegistry.issue]
  cases hrun : registry.get runId with
  | none =>
      refine iff_of_false ?_ ?_
      · rintro ⟨token, h⟩
        cases h
      · rintro ⟨⟨run, h, -⟩, -⟩
        cases h
  | some run =>
      cases hfinished : run.finished with
      | true =>
          refine iff_of_false ?_ ?_
          · rintro ⟨token, h⟩
            simp only [hfinished, if_true] at h
            cases h
          · rintro ⟨⟨other, h, hopen⟩, -⟩
            cases h
            rw [hfinished] at hopen
            cases hopen
      | false =>
          simp only [hfinished, Bool.false_eq_true, if_false]
          exact (and_iff_right ⟨run, rfl, hfinished⟩).symm

variable {bridge : Bridge σ} {message params fields : Mapping}
  {name runId scope token line : PyStr} {issued : Int} {spec : ToolSpec σ}

theorem params_of_mintTarget {tools : ToolRegistry σ}
    (h : mintTarget tools message = some (params, name, spec)) :
    Assoc.get message (py "params") = some (.obj params) := by
  rw [mintTarget] at h
  split at h
  · cases h
  split at h
  · rename_i held hheld
    split at h
    · cases h
    split at h
    · split at h
      · cases h
        exact hheld
      · cases h
    · cases h
  · cases h

theorem depth_withCapability (h : Assoc.get message (py "params") = some (.obj params)) :
    (Json.obj (withCapability message params runId scope token)).depth =
      (Json.obj message).depth := by
  have hparams : (Json.obj (setDefault (setDefault (setDefault params (py "run_id") (.str runId))
      (py "scope") (.str scope)) (py "token") (.str token))).depth = (Json.obj params).depth := by
    simp only [Json.depth, depthFields_setDefault]
  rw [withCapability, Json.depth, depthFields_set h hparams, Json.depth]

/-- The filled in fields are strings. -/
theorem allScalars_withCapability {floats : PyStr → Bool} {ints : Int → Bool}
    (hparams : Assoc.get message (py "params") = some (.obj params))
    (h : (Json.obj message).allScalars (fun _ => true) floats ints = true) :
    (Json.obj (withCapability message params runId scope token)).allScalars (fun _ => true)
      floats ints = true := by
  let P : Json → Prop := fun v => v.allScalars (fun _ => true) floats ints = true
  have hobj : ∀ fields : Mapping, P (.obj fields) ↔ ∀ field ∈ fields, P field.2 := by
    intro fields
    refine (allScalarsFields_iff fields).trans ?_
    exact forall_congr' fun field => imp_congr_right fun _ => and_iff_right rfl
  have hmessage := (hobj message).mp h
  have hfields := (hobj params).mp (hmessage _ (Assoc.mem_of_get hparams))
  refine (hobj _).mpr (forall_set hmessage _ ((hobj _).mpr ?_))
  refine forall_setDefault (forall_setDefault (forall_setDefault hfields _ ?_) _ ?_) _ ?_
  · rfl
  · rfl
  · rfl

/-- The message that the server reads from a line. -/
def Bridge.seen (rt : Runtime) (bridge : Bridge σ) (line : PyStr) (issued : Int) :
    Except PyError (Option Mapping) :=
  injectCapability rt bridge.capabilities bridge.tools bridge.runId line issued >>= parseLine rt

theorem loads_of_parseLine (h : parseLine rt line = .ok (some fields)) :
    loads rt line = .ok (.obj fields) := by
  rw [parseLine] at h
  split at h
  · rename_i hline
    cases h
    exact hline
  · cases h
  · split at h
    · cases h
    · cases h

theorem parseLine_of_loads (h : loads rt line = .ok (.obj fields)) :
    parseLine rt line = .ok (some fields) := by
  rw [parseLine, h]

theorem loads_of_seen (h : bridge.seen rt line issued = .ok (some fields)) :
    ∃ text, loads rt text = .ok (.obj fields) := by
  obtain ⟨bridged, -, hparse⟩ := exists_ok_of_bind h
  exact ⟨bridged, loads_of_parseLine hparse⟩

section Injecting

variable {capabilities : RunRegistry} {tools : ToolRegistry σ} {fields : Mapping}

theorem inject_passed (hline : loads rt line = .ok (.obj message))
    (h : mintTarget tools message = none) :
    injectCapability rt capabilities tools runId line issued = .ok line := by
  rw [injectCapability, hline]
  simp only [h]

/-- A call that a token is minted for is written with it when it can be written again. -/
theorem inject_minted (hfloats : FloatsReadBack rt) (hline : loads rt line = .ok (.obj message))
    (h : mintTarget tools message = some (params, name, spec))
    (htoken : capabilities.issue rt runId name spec.scope defaultTtlSeconds issued = .ok token)
    (hroom : (Json.obj message).depth ≤ rt.dumpsRoom) :
    ∃ text, injectCapability rt capabilities tools runId line issued = .ok text ∧
      loads rt text =
        .ok (reread {} (.obj (withCapability message params runId spec.scope token))) := by
  have hparams := params_of_mintTarget h
  let full := withCapability message params runId spec.scope token
  have hdepth : (Json.obj full).depth = (Json.obj message).depth := depth_withCapability hparams
  have hwritable : Writable rt.dumpsRoom (.obj full) :=
    ⟨hdepth.le.trans hroom, allScalars_withCapability hparams (loads_shortInts hline)⟩
  have hread : FloatsRead rt (.obj full) :=
    allScalars_withCapability hparams (loads_floatsRead hfloats hline)
  obtain ⟨text, htext⟩ : ∃ text, dumps rt {} (.obj full) = .ok text :=
    (exists_write_iff _ _ _).mpr hwritable
  refine ⟨text, ?_, hread.loads_dumps defaultStyle_readable (hdepth.le.trans (loads_depth hline))
    htext⟩
  rw [injectCapability, hline]
  simp only [h, htoken]
  exact htext

/-- Any other call with a token minted for it is not written. -/
theorem token_of_injected (hline : loads rt line = .ok (.obj message))
    (h : mintTarget tools message = some (params, name, spec)) {text : PyStr}
    (hinject : injectCapability rt capabilities tools runId line issued = .ok text) :
    (Json.obj message).depth ≤ rt.dumpsRoom ∧ ∃ token,
      capabilities.issue rt runId name spec.scope defaultTtlSeconds issued = .ok token := by
  rw [injectCapability, hline] at hinject
  simp only [h] at hinject
  obtain ⟨token, htoken, hdumps⟩ := exists_ok_of_bind hinject
  refine ⟨?_, token, htoken⟩
  have hdepth := ((exists_write_iff {} rt.dumpsRoom _).mp ⟨text, hdumps⟩).depth
  rw [depth_withCapability (params_of_mintTarget h)] at hdepth
  exact hdepth

end Injecting

theorem seen_passed (hline : loads rt line = .ok (.obj message))
    (h : mintTarget bridge.tools message = none) :
    bridge.seen rt line issued = .ok (some message) := by
  rw [Bridge.seen, inject_passed hline h]
  exact parseLine_of_loads hline

/-- The message of a call that a token is minted for, when it reaches the server. -/
def refilled (message params : Mapping) (runId scope token : PyStr) : Mapping :=
  assignAll [] ((withCapability message params runId scope token).map fun field =>
    (rereadText true field.1, reread {} field.2))

theorem reread_withCapability :
    reread {} (.obj (withCapability message params runId scope token)) =
      .obj (refilled message params runId scope token) := by
  rw [reread, inOrder, if_neg Bool.false_ne_true, rereadFields_eq_map, List.map_map]
  rfl

/-- A call that a token is minted for reaches the server when it can be written again. -/
theorem seen_minted (hfloats : FloatsReadBack rt) (hline : loads rt line = .ok (.obj message))
    (h : mintTarget bridge.tools message = some (params, name, spec))
    (htoken : bridge.capabilities.issue rt bridge.runId name spec.scope defaultTtlSeconds issued =
      .ok token) (hroom : (Json.obj message).depth ≤ rt.dumpsRoom) :
    bridge.seen rt line issued =
      .ok (some (refilled message params bridge.runId spec.scope token)) := by
  obtain ⟨text, hinject, hloads⟩ := inject_minted hfloats hline h htoken hroom
  rw [Bridge.seen, hinject]
  exact parseLine_of_loads (hloads.trans (congrArg Except.ok reread_withCapability))

/-- Any other call with a token minted for it never reaches the server. -/
theorem token_of_seen (hline : loads rt line = .ok (.obj message))
    (h : mintTarget bridge.tools message = some (params, name, spec)) {seen : Option Mapping}
    (hseen : bridge.seen rt line issued = .ok seen) :
    (Json.obj message).depth ≤ rt.dumpsRoom ∧ ∃ token,
      bridge.capabilities.issue rt bridge.runId name spec.scope defaultTtlSeconds issued =
        .ok token := by
  obtain ⟨bridged, hinject, -⟩ := exists_ok_of_bind hseen
  exact token_of_injected hline h hinject

theorem low_id : ∀ c ∈ py "id", c.val < 0xD800 := by
  have hid : py "id" = [cp 'i', cp 'd'] := rfl
  rw [hid, List.forall_mem_cons, List.forall_mem_singleton]
  exact ⟨by decide, by decide⟩

theorem get_refilled (hunique : Assoc.Unique message) {key : PyStr}
    (hkey : ∀ c ∈ key, c.val < 0xD800) (hne : key ≠ py "params") :
    Assoc.get (refilled message params runId scope token) key =
      (Assoc.get message key).map (reread {}) := by
  have hfull : Assoc.Unique (withCapability message params runId scope token) :=
    Assoc.unique_set hunique _ _
  rw [get_reread rfl hfull reread_withCapability hkey, withCapability,
    Assoc.get_set_of_ne _ _ hne.symm]

end Minting

section Responding

variable {bridge : Bridge σ} {stripped : PyStr} {input : Input} {session : Session σ}

/-- A response without an id is the same text in both styles. -/
theorem dumps_nullError (hroom : 4 ≤ rt.dumpsRoom) {code : Int} {text : PyStr}
    (h : (code, text) ∈ [(parseError, py "invalid JSON"), (internalError, py "internal error")]) :
    ∃ response, dumps rt {} (.obj (error .null code text)) = .ok response ∧
      AnswersTo rt response .null := by
  obtain ⟨room, heq⟩ : ∃ room, rt.dumpsRoom = room + 4 := ⟨rt.dumpsRoom - 4, by omega⟩
  have hsame : dumps rt {} (.obj (error .null code text)) =
      dumps rt wireStyle (.obj (error .null code text)) := by
    simp only [List.mem_cons, List.not_mem_nil, or_false, Prod.mk.injEq] at h
    rw [dumps, dumps, heq]
    rcases h with ⟨rfl, rfl⟩ | ⟨rfl, rfl⟩
    · rfl
    · rfl
  have hcode : code ∈ [invalidRequest, methodNotFound, invalidParams, parseError,
      internalError] := by
    simp only [List.mem_cons, List.not_mem_nil, or_false, Prod.mk.injEq] at h ⊢
    rcases h with ⟨rfl, -⟩ | ⟨rfl, -⟩
    · simp
    · simp
  have hbody : Writable (rt.dumpsRoom - 1)
      (.obj [(py "code", .int code), (py "message", .str text)]) :=
    (writable_errorBody hcode text).mono (by omega)
  have hnull : Writable (rt.dumpsRoom - 1) .null := ⟨Nat.zero_le _, rfl⟩
  obtain ⟨response, hresponse⟩ := (exists_dumps_envelope_iff hroom).mpr ⟨hnull, hbody⟩
  exact ⟨response, hsame.trans hresponse, .inr ⟨code, text, hresponse⟩⟩

/-- The attempt at a line in terms of the message that the server reads. -/
theorem attempt_eq (rt : Runtime) (bridge : Bridge σ) (stripped : PyStr) (input : Input)
    (session : Session σ) : bridge.attempt rt stripped input session =
    match bridge.seen rt stripped input.issued with
    | .error e => (.error e, session)
    | .ok none =>
        (dumps rt {} (.obj (error .null parseError (py "invalid JSON"))), session)
    | .ok (some message) => (answerOf rt bridge.server message input.clock session,
        (bridge.server.handle rt message input.clock session).2) := by
  rw [Bridge.attempt, Bridge.seen]
  cases injectCapability rt bridge.capabilities bridge.tools bridge.runId stripped input.issued with
  | error e => rfl
  | ok bridged =>
      change bridge.server.handleLine rt bridged input.clock session =
        match parseLine rt bridged with
        | .error e => _
        | .ok none => _
        | .ok (some message) => _
      rw [MCPServer.handleLine]
      cases parseLine rt bridged with
      | error e => rfl
      | ok seen =>
          cases seen with
          | none => rfl
          | some message => rfl

/-- What a line that is not blank is answered with. -/
inductive Responds (rt : Runtime) (bridge : Bridge σ) (stripped : PyStr) (input : Input)
    (session : Session σ) (response : PyStr) : Prop
  | answered {message : Mapping} :
      bridge.seen rt stripped input.issued = .ok (some message) →
      Handled rt bridge.server session input.clock message →
      AnswersTo rt response (MCPServer.idOf message) → Responds rt bridge stripped input session
        response
  | failed :
      (∀ message, bridge.seen rt stripped input.issued = .ok (some message) →
        ¬ Handled rt bridge.server session input.clock message) →
      AnswersTo rt response .null → Responds rt bridge stripped input session response

theorem responds (hroom : 4 ≤ rt.dumpsRoom) : ∃ response after,
    bridge.respond rt stripped input session = (.ok response, after) ∧
      Responds rt bridge stripped input session response := by
  obtain ⟨fallback, hfallback, hnull⟩ :=
    dumps_nullError hroom (List.mem_cons_of_mem _ List.mem_cons_self)
  have hfallback : internalErrorResponse rt = .ok fallback := hfallback
  have hattempt := attempt_eq rt bridge stripped input session
  rw [Bridge.respond]
  cases hseen : bridge.seen rt stripped input.issued with
  | error e =>
      rw [hseen] at hattempt
      refine ⟨fallback, session, ?_, .failed ?_ hnull⟩
      · rw [hattempt, hfallback]
      · intro message h
        rw [hseen] at h
        cases h
  | ok seen =>
      rw [hseen] at hattempt
      cases seen with
      | none =>
          obtain ⟨response, hresponse, hnull⟩ := dumps_nullError hroom List.mem_cons_self
          refine ⟨response, session, ?_, .failed ?_ hnull⟩
          · rw [hattempt, hresponse]
          · intro message h
            rw [hseen] at h
            cases h
      | some message =>
          obtain ⟨text, hloaded⟩ := loads_of_seen hseen
          have hints : (MCPServer.idOf message).allScalars (fun _ => true) (fun _ => true)
              shortInt = true := by
            rw [MCPServer.idOf]
            cases hid : Assoc.get message (py "id") with
            | none => rfl
            | some id =>
                exact ((allScalarsFields_iff _).mp (loads_shortInts hloaded) _
                  (Assoc.mem_of_get hid)).2
          have hiff : (∃ response,
              answerOf rt bridge.server message input.clock session = .ok response) ↔
                Handled rt bridge.server session input.clock message :=
            answerOf_iff hroom hints
          cases hanswer : answerOf rt bridge.server message input.clock session with
          | ok response =>
              refine ⟨response, (bridge.server.handle rt message input.clock session).2, ?_,
                .answered hseen (hiff.mp ⟨response, hanswer⟩) (answersTo_of_answer hanswer)⟩
              rw [hattempt]
              simp only [hanswer]
          | error e =>
              refine ⟨fallback, (bridge.server.handle rt message input.clock session).2, ?_,
                .failed ?_ hnull⟩
              · rw [hattempt]
                simp only [hanswer, hfallback]
              · intro other hother hhandled
                rw [hseen] at hother
                cases hother
                obtain ⟨response, hresponse⟩ := hiff.mpr hhandled
                rw [hanswer] at hresponse
                cases hresponse

variable {message : Mapping} {requestId : Json} {response : PyStr}

theorem member_of_loads (hfloats : FloatsReadBack rt) {text key : PyStr} {fields : Mapping}
    {v : Json} (hline : loads rt text = .ok (.obj fields))
    (hget : Assoc.get fields key = some v) : FloatsRead rt v ∧ v.distinctKeys = true :=
  ⟨floatsRead_obj.mp (loads_floatsRead hfloats hline) _ (Assoc.mem_of_get hget),
    (Json.distinctKeys_of_field (loads_distinctKeys hline)).2 _ (Assoc.mem_of_get hget)⟩

/-- The bridge can issue the token of a call and write the call again. -/
structure Mintable (rt : Runtime) (bridge : Bridge σ) (issued : Int) (message : Mapping) :
    Prop where
  registered : ∃ run, bridge.capabilities.get bridge.runId = some run ∧ run.finished = false
  expiry : shortInt (issued + defaultTtlSeconds) = true
  room : (Json.obj message).depth ≤ rt.dumpsRoom

/-- When a message with this id gets an answer of its own: it, or for a call without a
capability the call with one, is handled. Writing and reading the call leaves its id. -/
inductive Answered (rt : Runtime) (bridge : Bridge σ) (input : Input) (session : Session σ)
    (message : Mapping) (requestId : Json) : Prop
  | passed (unminted : mintTarget bridge.tools message = none)
      (handled : Handled rt bridge.server session input.clock message)
  | minted {params : Mapping} {name token : PyStr} {spec : ToolSpec σ}
      (target : mintTarget bridge.tools message = some (params, name, spec))
      (mintable : Mintable rt bridge input.issued message)
      (kept : reread {} requestId = requestId)
      (issue : bridge.capabilities.issue rt bridge.runId name spec.scope defaultTtlSeconds
        input.issued = .ok token)
      (handled : Handled rt bridge.server session input.clock
        (refilled message params bridge.runId spec.scope token))

theorem mintable_iff (hroom : 4 ≤ rt.dumpsRoom) {issued : Int} {name scope : PyStr} :
    Mintable rt bridge issued message ↔ (Json.obj message).depth ≤ rt.dumpsRoom ∧ ∃ token,
      bridge.capabilities.issue rt bridge.runId name scope defaultTtlSeconds issued =
        .ok token := by
  rw [issue_returns_iff (by omega)]
  constructor
  · exact fun h => ⟨h.room, h.registered, h.expiry⟩
  · exact fun h => ⟨h.2.1, h.2.2, h.1⟩

/-- The id that the server reads is that of the line, or what it was written and read as. -/
theorem idOf_seen (hfloats : FloatsReadBack rt) (hline : loads rt stripped = .ok (.obj message))
    (hid : Assoc.get message (py "id") = some requestId) {seen : Mapping}
    (hseen : bridge.seen rt stripped input.issued = .ok (some seen)) :
    MCPServer.idOf seen = requestId ∨ MCPServer.idOf seen = reread {} requestId := by
  cases htarget : mintTarget bridge.tools message with
  | none =>
      rw [seen_passed hline htarget] at hseen
      cases hseen
      rw [MCPServer.idOf, hid, Option.getD_some]
      exact .inl rfl
  | some target =>
      obtain ⟨params, name, spec⟩ := target
      obtain ⟨hdepth, token, htoken⟩ := token_of_seen hline htarget hseen
      rw [seen_minted hfloats hline htarget htoken hdepth] at hseen
      cases hseen
      have hunique : Assoc.Unique message :=
        (Json.distinctKeys_of_field (loads_distinctKeys hline)).1
      rw [MCPServer.idOf, get_refilled hunique low_id (by decide), hid, Option.map_some,
        Option.getD_some]
      exact .inr rfl

theorem answersTo_iff (hroom : 4 ≤ rt.dumpsRoom) (hfloats : FloatsReadBack rt)
    (hline : loads rt stripped = .ok (.obj message))
    (hid : Assoc.get message (py "id") = some requestId)
    (hresponds : Responds rt bridge stripped input session response) :
    AnswersTo rt response requestId ↔
      requestId = .null ∨ Answered rt bridge input session message requestId := by
  obtain ⟨hidread, hidkeys⟩ := member_of_loads hfloats hline hid
  cases hresponds with
  | failed hfail hnull =>
      constructor
      · intro h
        exact .inl (answersTo_unique hidread rfl hidkeys rfl h hnull)
      · rintro (rfl | hanswered)
        · exact hnull
        · exfalso
          cases hanswered with
          | passed hnone hhandled => exact hfail message (seen_passed hline hnone) hhandled
          | minted htarget hmintable hkept htoken hhandled =>
              exact hfail _ (seen_minted hfloats hline htarget htoken hmintable.room) hhandled
  | answered hseen hhandled hto =>
      cases htarget : mintTarget bridge.tools message with
      | none =>
          rw [seen_passed hline htarget] at hseen
          cases hseen
          rw [MCPServer.idOf, hid, Option.getD_some] at hto
          exact iff_of_true hto (.inr (.passed htarget hhandled))
      | some target =>
          obtain ⟨params, name, spec⟩ := target
          obtain ⟨hdepth, token, htoken⟩ := token_of_seen hline htarget hseen
          obtain ⟨text, hloaded⟩ := loads_of_seen hseen
          rw [seen_minted hfloats hline htarget htoken hdepth] at hseen
          cases hseen
          have hunique : Assoc.Unique message :=
            (Json.distinctKeys_of_field (loads_distinctKeys hline)).1
          have hseenid : Assoc.get (refilled message params bridge.runId spec.scope token)
              (py "id") = some (reread {} requestId) := by
            rw [get_refilled hunique low_id (by decide), hid, Option.map_some]
          obtain ⟨hreadid, hreadkeys⟩ := member_of_loads hfloats hloaded hseenid
          rw [MCPServer.idOf, hseenid, Option.getD_some] at hto
          constructor
          · intro h
            have hkept := answersTo_unique hreadid hidread hreadkeys hidkeys hto h
            exact .inr (.minted htarget ((mintable_iff hroom).mpr ⟨hdepth, token, htoken⟩) hkept
              htoken hhandled)
          · rintro (rfl | hanswered)
            · exact hto
            · cases hanswered with
              | passed hnone =>
                  rw [htarget] at hnone
                  cases hnone
              | minted _ _ hkept => exact hkept ▸ hto

/-- What is shown carries the id exactly when the response does and the stream keeps it. -/
theorem shown_iff (hfloats : FloatsReadBack rt) (hline : loads rt stripped = .ok (.obj message))
    (hid : Assoc.get message (py "id") = some requestId)
    (hresponds : Responds rt bridge stripped input session response) :
    AnswersTo rt (bridge.stdout.shown response) requestId ↔
      AnswersTo rt response requestId ∧ bridge.stdout.Keeps requestId := by
  obtain ⟨hidread, hidkeys⟩ := member_of_loads hfloats hline hid
  refine ⟨fun h => ⟨?_, keeps_of_shown h⟩, fun h => h.1.shown h.2⟩
  cases hstream : bridge.stdout with
  | text =>
      rw [hstream] at h
      exact h
  | utf8 =>
      have hfree := keeps_of_shown h hstream
      cases hresponds with
      | failed _ hnull =>
          have hshown := hnull.shown fun _ : bridge.stdout = .utf8 => rfl
          have hsame : requestId = .null := answersTo_unique hidread rfl hidkeys rfl h hshown
          rw [hsame]
          exact hnull
      | answered hseen _ hto =>
          rcases idOf_seen hfloats hline hid hseen with hsame | hreread
          · exact hsame ▸ hto
          · rw [hreread, reread_of_unpaired hidkeys (unpaired_of_free hfree)] at hto
            exact hto

end Responding

section Serving

variable (rt : Runtime) (bridge : Bridge σ)

/-- The line is answered with one line more, which a blank line is not; the loop goes on. -/
def OneResponse (state : Stdio σ) (input : Input) : Prop :=
  (bridge.serveLine rt state input).died = none ∧
    if PyStr.strip input.line.read = [] then
      (bridge.serveLine rt state input).written = state.written
    else
      ∃ line body response,
        (bridge.serveLine rt state input).written = state.written ++ [line] ∧
          line = bridge.stdout.write (response ++ py "\n") ∧
          dumps rt wireStyle (.obj body) = .ok response ∧
          (FloatsAmong (fun repr => (floatText repr).all isPlain) (.obj body) →
            ∃ text, line.read = text ++ py "\n" ∧ text.all isPlain = true)

/-- The response to a message with an id carries the id, for whoever reads it. -/
def CarriesId (state : Stdio σ) (input : Input) : Prop :=
  ∀ message requestId, loads rt (PyStr.strip input.line.read) = .ok (.obj message) →
    Assoc.get message (py "id") = some requestId →
      ∃ line response, (bridge.serveLine rt state input).written = state.written ++ [line] ∧
        line.read = response ++ py "\n" ∧ AnswersTo rt response requestId

/-- A message with an id that is not null gets an answer of its own, and the stream that the
answer is written to keeps the id. -/
def Answerable (state : Stdio σ) (input : Input) : Prop :=
  ∀ message requestId, loads rt (PyStr.strip input.line.read) = .ok (.obj message) →
    Assoc.get message (py "id") = some requestId →
      (requestId = .null ∨ Answered rt bridge input state.session message requestId) ∧
        bridge.stdout.Keeps requestId

variable {rt bridge} {state : Stdio σ} {input : Input}

theorem serveLine_blank (hblank : PyStr.strip input.line.read = []) :
    bridge.serveLine rt state input = state := by
  rw [Bridge.serveLine]
  split
  · rfl
  · simp only [hblank, if_true]

theorem serveLine_line (hroom : 4 ≤ rt.dumpsRoom) (hlive : state.died = none)
    (hline : PyStr.strip input.line.read ≠ []) :
    ∃ response after,
      bridge.serveLine rt state input =
        { state with
          session := after
          written := state.written ++ [bridge.stdout.write (response ++ py "\n")] } ∧
      Responds rt bridge (PyStr.strip input.line.read) input state.session response := by
  obtain ⟨response, after, hrespond, hresponds⟩ := responds hroom
  refine ⟨response, after, ?_, hresponds⟩
  simp only [Bridge.serveLine, hlive, Option.isSome_none, Bool.false_eq_true, if_false, hline,
    hrespond]

theorem Responds.answersTo {stripped response : PyStr} {session : Session σ}
    (h : Responds rt bridge stripped input session response) :
    ∃ requestId, AnswersTo rt response requestId := by
  cases h with
  | answered _ _ hto => exact ⟨_, hto⟩
  | failed _ hnull => exact ⟨_, hnull⟩

theorem oneResponse (hroom : 4 ≤ rt.dumpsRoom) (hlive : state.died = none) :
    OneResponse rt bridge state input := by
  by_cases hblank : PyStr.strip input.line.read = []
  · rw [OneResponse, serveLine_blank hblank, if_pos hblank]
    exact ⟨hlive, rfl⟩
  · obtain ⟨response, after, hserve, hresponds⟩ := serveLine_line hroom hlive hblank
    obtain ⟨requestId, hto⟩ := hresponds.answersTo
    obtain ⟨key, value, htext⟩ := hto.envelope
    rw [OneResponse, hserve, if_neg hblank]
    refine ⟨hlive, _, envelope requestId key value, response, rfl, rfl, htext, ?_⟩
    intro hfloats
    exact ⟨_, bridge.stdout.read_response response,
      bridge.stdout.shown_plain (isPlain_write (by decide) (by decide) hfloats htext)⟩

theorem carriesId_iff (hroom : 4 ≤ rt.dumpsRoom) (hfloats : FloatsReadBack rt)
    (hlive : state.died = none) :
    CarriesId rt bridge state input ↔ Answerable rt bridge state input := by
  refine forall_congr' fun message => forall_congr' fun requestId => imp_congr_right fun hline =>
    imp_congr_right fun hid => ?_
  have hne : PyStr.strip input.line.read ≠ [] := by
    intro hblank
    rw [hblank] at hline
    cases hline
  obtain ⟨response, after, hserve, hresponds⟩ := serveLine_line hroom hlive hne
  rw [hserve, ← answersTo_iff hroom hfloats hline hid hresponds,
    ← shown_iff hfloats hline hid hresponds]
  have hread := bridge.stdout.read_response response
  constructor
  · rintro ⟨line, other, hwritten, hother, hto⟩
    have hsame := List.append_cancel_left hwritten
    rw [List.cons.injEq] at hsame
    rw [← hsame.1, hread] at hother
    exact List.append_cancel_right hother ▸ hto
  · exact fun hto => ⟨_, _, rfl, hread, hto⟩

/-- The bridge answers every line of every input; it answers every request under its id
exactly when all of them get an answer of their own. -/
theorem serveStdio_answers (hroom : 4 ≤ rt.dumpsRoom) (hfloats : FloatsReadBack rt)
    (bridge : Bridge σ) (host : Host σ) (inputs : List Input) :
    (bridge.serveStdio rt host inputs).died = none ∧
      AllSteps (bridge.serveLine rt) (OneResponse rt bridge) { session := { host } } inputs ∧
      (AllSteps (bridge.serveLine rt) (CarriesId rt bridge) { session := { host } } inputs ↔
        AllSteps (bridge.serveLine rt) (Answerable rt bridge) { session := { host } } inputs) := by
  let live : Stdio σ → Prop := fun state => state.died = none
  have hkeeps : ∀ state input, live state → live (bridge.serveLine rt state input) :=
    fun _ _ hlive => (oneResponse hroom hlive).1
  refine ⟨?_, ?_, ?_⟩
  · exact run_keeps _ live hkeeps _ inputs rfl
  · exact allSteps_of_invariant _ _ live (fun _ _ hlive => oneResponse hroom hlive) hkeeps _
      inputs rfl
  · exact allSteps_congr _ _ _ live (fun _ _ hlive => carriesId_iff hroom hfloats hlive)
      (fun state input hlive _ => hkeeps state input hlive) _ inputs rfl

end Serving

/-- A runtime that reads every float as zero. -/
def zeroFloats : Runtime where
  __ := Runtime.ascii
  floatRepr := fun _ => py "0.0"

theorem floatText_zero (rt : Runtime) (hrepr : ∀ literal, rt.floatRepr literal = py "0.0") :
    FloatText rt (py "0.0") := by
  refine ⟨⟨cp '0', py ".0", rfl, by decide, by decide⟩,
    ⟨cp '0', py ".0", rfl, by decide, by decide, by decide⟩, ?_⟩
  intro rest hends
  have hrest : rest.takeWhile isDigit = [] ∧ rest.dropWhile isDigit = rest := by
    cases rest with
    | nil => exact ⟨rfl, rfl⟩
    | cons c after => simp [(hends c after rfl).1]
  have hzero : isDigit (cp '0') = true := rfl
  have hfraction : fraction (cp '.' :: cp '0' :: rest) = ([cp '.', cp '0'], rest) := by
    simp [fraction, hzero, hrest]
  have hnumber : readNumber rt false (cp '0' :: cp '.' :: cp '0' :: rest) =
      .ok (.float (py "0.0"), rest) := by
    simp [readNumber, hzero, hfraction, exponent_of_ends hends, hrepr]
  have hnone : ∀ (literal : String) (d : CodePoint) (more : PyStr), py literal = d :: more →
      d ≠ cp '0' → literal? literal (cp '0' :: cp '.' :: cp '0' :: rest) = none :=
    fun literal d more h hne => literal?_of_ne literal h hne _
  change readScalar rt (cp '0' :: cp '.' :: cp '0' :: rest) = _
  simp only [readScalar, hnone "null" _ _ rfl (by decide), hnone "true" _ _ rfl (by decide),
    hnone "false" _ _ rfl (by decide), hnone "NaN" _ _ rfl (by decide),
    hnone "Infinity" _ _ rfl (by decide), hnone "-Infinity" _ _ rfl (by decide)]
  rw [if_neg (by decide)]
  exact hnumber

theorem zeroFloats_readBack : FloatsReadBack zeroFloats :=
  floatsReadBack_of fun _ => floatText_zero zeroFloats fun _ => rfl

/-- A bridge whose server knows no runs and no tools. -/
def sampleBridge : Bridge Unit where
  server := {
    executor := {
      policy := fun _ _ => .error { kind := .typeError }
      capabilities := ⟨[], []⟩
      tools := {} }
    tools := {}
    argsSchema := fun _ => [] }
  capabilities := ⟨[], []⟩
  tools := {}
  runId := py "RUN-aaaaaa"
  stdout := .utf8

/-- The line as it comes over bytes. -/
def sampleInput (line : PyStr) : Input :=
  ⟨.bytes (Utf8.encodeReplace line), 1000, ⟨py "2026-09-24T00:00:00Z", 1000⟩⟩

theorem sampleInput_read {line : PyStr} (h : PyStr.encodable line = true) :
    (sampleInput line).line.read = line :=
  (Utf8.decodeReplace_encodeReplace line).trans (Utf8.substituted_of_encodable h)

def pingLine : PyStr :=
  py "\x7b\"jsonrpc\": \"2.0\", \"id\": 7, \"method\": \"ping\"\x7d\n"

def pingMessage : Mapping :=
  [(py "jsonrpc", .str (py "2.0")), (py "id", .int 7), (py "method", .str (py "ping"))]

theorem loads_pingLine :
    loads zeroFloats (PyStr.strip pingLine) = .ok (.obj pingMessage) :=
  ok_of_toOption (by decide +kernel)

/-- A call that carries the capability of a run that was never registered. -/
def unknownRunLine : PyStr :=
  py "\x7b\"jsonrpc\": \"2.0\", \"id\": 7, \"method\": \"tools/call\", \"params\": \x7b" ++
    py "\"name\": \"read_artifact\", \"run_id\": \"RUN-unknown\", \"token\": \"token\", " ++
    py "\"scope\": \"workspace\"\x7d\x7d\n"

def unknownRunMessage : Mapping :=
  [(py "jsonrpc", .str (py "2.0")), (py "id", .int 7), (py "method", .str (py "tools/call")),
    (py "params", .obj [(py "name", .str (py "read_artifact")),
      (py "run_id", .str (py "RUN-unknown")), (py "token", .str (py "token")),
      (py "scope", .str (py "workspace"))])]

theorem loads_unknownRunLine :
    loads zeroFloats (PyStr.strip unknownRunLine) = .ok (.obj unknownRunMessage) :=
  ok_of_toOption (by decide +kernel)

theorem mintTarget_noTools (message : Mapping) :
    mintTarget sampleBridge.tools message = none := by
  rw [mintTarget]
  split
  · rfl
  split
  · split
    · rfl
    split
    · rfl
    · rfl
  · rfl

theorem zeroFloats_room : 4 ≤ zeroFloats.dumpsRoom := by decide

theorem answerable_pingLine (state : Stdio Unit) :
    Answerable zeroFloats sampleBridge state (sampleInput pingLine) := by
  intro message requestId hline hid
  rw [sampleInput_read (by decide)] at hline
  cases hline.symm.trans loads_pingLine
  have hseven : Assoc.get pingMessage (py "id") = some (.int 7) := by decide +kernel
  cases hid.symm.trans hseven
  refine ⟨.inr (.passed (mintTarget_noTools _) ⟨?_, ?_, ?_⟩), fun _ => rfl⟩
  · decide
  · intro _ name spec hspec
    cases hspec
  · intro call hcall
    rw [MCPServer.callOf, if_neg (by decide)] at hcall
    cases hcall

theorem pingLine_answered :
    AllSteps (sampleBridge.serveLine zeroFloats) (CarriesId zeroFloats sampleBridge)
      { session := { host := { world := () } } }
      [sampleInput (py " \n"), sampleInput pingLine] := by
  refine (serveStdio_answers zeroFloats_room zeroFloats_readBack sampleBridge { world := () }
    [sampleInput (py " \n"), sampleInput pingLine]).2.2.mpr ⟨?_, answerable_pingLine _, trivial⟩
  intro message requestId hline
  have hblank : (loads zeroFloats (PyStr.strip (py " \n"))).toOption = none := by decide +kernel
  rw [sampleInput_read (by decide)] at hline
  rw [hline] at hblank
  cases hblank

/-- The failure of a call for an unknown run is not answered under the id of the call. -/
theorem unknownRun_unanswered :
    ¬ AllSteps (sampleBridge.serveLine zeroFloats) (CarriesId zeroFloats sampleBridge)
      { session := { host := { world := () } } } [sampleInput unknownRunLine] := by
  rintro ⟨hcarries, -⟩
  have hanswerable := (carriesId_iff zeroFloats_room zeroFloats_readBack rfl).mp hcarries
  have hid : Assoc.get unknownRunMessage (py "id") = some (.int 7) := by decide +kernel
  have hread : loads zeroFloats (PyStr.strip (sampleInput unknownRunLine).line.read) =
      .ok (.obj unknownRunMessage) := by
    rw [sampleInput_read (by decide +kernel), loads_unknownRunLine]
  rcases (hanswerable _ _ hread hid).1 with hnull | hanswered
  · cases hnull
  · cases hanswered with
    | passed _ hhandled =>
        obtain ⟨run, verdict, hrun, -⟩ := hhandled.executed
          ⟨py "read_artifact", [], py "RUN-unknown", py "token", py "workspace"⟩ rfl
        cases hrun
    | minted htarget =>
        rw [mintTarget_noTools] at htarget
        cases htarget

end SecureSdlc.Mcp
