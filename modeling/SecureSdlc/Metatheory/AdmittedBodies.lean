import SecureSdlc.Metatheory.GatewayContract

/-!
The requests that the contract admits. A body that is valid for its operation is decoded to
the texts of its members, and the gateway makes its call of them. A title of blanks is the one
thing that the contract admits and the gateway refuses.
-/

namespace SecureSdlc.Gateway

open Core GoText GoJson Domain Contracts

/-- A body that is one document which the schema admits, with no member twice. -/
structure Admitted (schema : Schema) (body : Bytes) (members : List (PyStr × Json)) : Prop where
  size : body.length ≤ maxBodyBytes
  parsed : parse (runes body) = some (.obj members)
  unique : Assoc.Unique members
  valid : schema.valid (.obj members) = true

/-- The text of a member, empty where there is none. -/
def memberText (members : List (PyStr × Json)) (name : String) : String :=
  ((Assoc.get members (py name)).map textOf).getD ""

section Bodies

variable {schema : Schema} {body : Bytes} {members : List (PyStr × Json)}

/-- The members of an admitted body are among those of the schema, which each meets its part of. -/
theorem Admitted.member {required optional : List (String × Schema)}
    (h : Admitted (closed required optional) body members) {m : PyStr × Json} (hm : m ∈ members) :
    ∃ s, Assoc.get (Contracts.members (required ++ optional)) m.1 = some s ∧
      s.valid m.2 = true := by
  obtain ⟨_, heq, -, hprops, hclosed⟩ := Schema.valid_object h.valid
  cases heq
  obtain ⟨s, hs⟩ := Option.isSome_iff_exists.mp (hclosed rfl m hm)
  exact ⟨s, hs, Schema.validProperties_get hprops hs (Assoc.get_of_mem h.unique hm)⟩

theorem boundedText_spec {least most : Nat} {v : Json}
    (h : (boundedText least most).valid v = true) :
    (∃ s, v = .str s) ∧ (textOf v).toList.length ≤ most := by
  obtain ⟨s, rfl, hs⟩ := (Schema.valid_string_iff _ _).mp h
  refine ⟨⟨s, rfl⟩, ?_⟩
  simp only [StringRule.admits, Bool.and_eq_true, decide_eq_true_eq] at hs
  exact (length_goString s).trans_le hs.2

/-- What a member of a body is stored as. -/
def putCreate (payload : CreateRequestPayload) (m : PyStr × Json) : CreateRequestPayload :=
  if m.1 = py "title" then { payload with title := textOf m.2 }
  else { payload with description := textOf m.2 }

theorem admitted_create_member (h : Admitted createRequestSchema body members)
    {m : PyStr × Json} (hm : m ∈ members) :
    (m.1 = py "title" ∧ (boundedText 1 200).valid m.2 = true) ∨
      (m.1 = py "description" ∧ (boundedText 0 4000).valid m.2 = true) := by
  obtain ⟨s, hs, hvalid⟩ := h.member hm
  simp only [Contracts.members, List.singleton_append, List.map_cons, List.map_nil,
    Assoc.get] at hs
  split at hs
  · cases hs
    exact .inl ⟨Eq.symm ‹_›, hvalid⟩
  split at hs
  · cases hs
    exact .inr ⟨Eq.symm ‹_›, hvalid⟩
  · cases hs

theorem storeKnown_create (h : Admitted createRequestSchema body members) :
    ∀ m ∈ members, ∀ x, storeKnown createRequestFields x m = some (putCreate x m) := by
  intro m hm x
  obtain ⟨key, v⟩ := m
  have htitle : fieldIndex (createRequestFields.map Prod.fst) (py "title") = some 0 := by
    decide +kernel
  have hdescription :
      fieldIndex (createRequestFields.map Prod.fst) (py "description") = some 1 := by
    decide +kernel
  have hne : py "description" ≠ py "title" := by decide
  cases admitted_create_member h hm with
  | inl hmember =>
      obtain ⟨rfl, hvalid⟩ := hmember
      rw [storeKnown_text htitle rfl (boundedText_spec hvalid).1, putCreate, if_pos rfl]
  | inr hmember =>
      obtain ⟨rfl, hvalid⟩ := hmember
      rw [storeKnown_text hdescription rfl (boundedText_spec hvalid).1, putCreate, if_neg hne]

theorem foldl_putCreate (h : Admitted createRequestSchema body members) :
    members.foldl putCreate ⟨"", ""⟩ =
      ⟨memberText members "title", memberText members "description"⟩ := by
  have hne : py "description" ≠ py "title" := by decide
  have htitle : (members.foldl putCreate ⟨"", ""⟩).title = memberText members "title" := by
    refine Assoc.foldl_of_unique h.unique (fun m _ x => ?_) _
    rw [putCreate]
    split
    · rfl
    · rfl
  have hdescription :
      (members.foldl putCreate ⟨"", ""⟩).description = memberText members "description" := by
    refine Assoc.foldl_of_unique h.unique (fun m hm x => ?_) _
    cases admitted_create_member h hm with
    | inl hmember => rw [putCreate, if_pos hmember.1, if_neg (hmember.1 ▸ hne.symm)]
    | inr hmember => rw [putCreate, if_neg (hmember.1 ▸ hne), if_pos hmember.1]
  rw [← htitle, ← hdescription]

theorem decodeCreate_admitted (h : Admitted createRequestSchema body members) :
    decodeCreate body = some ⟨memberText members "title", memberText members "description"⟩ := by
  rw [decodeCreate, decodeWithin_of_parse _ _ h.size h.parsed,
    storeClosed_of_known (storeKnown_create h), foldl_putCreate h]

theorem runeCount_memberText {name : String} {least most : Nat}
    (h : ∀ v, Assoc.get members (py name) = some v → (boundedText least most).valid v = true) :
    runeCount (memberText members name) ≤ most := by
  cases hget : Assoc.get members (py name) with
  | none =>
      rw [memberText, hget]
      exact Nat.zero_le _
  | some v =>
      rw [memberText, hget]
      exact (boundedText_spec (h v hget)).2

/-- Of an admitted payload, only a title of blanks is a problem. -/
theorem validatePayload_admitted (h : Admitted createRequestSchema body members) :
    validatePayload ⟨memberText members "title", memberText members "description"⟩ =
      if trimSpace (memberText members "title") = "" then "title is required" else "" := by
  have htitle : runeCount (memberText members "title") ≤ 200 :=
    runeCount_memberText fun v hget =>
      Schema.valid_present (k := py "title") (s := boundedText 1 200) h.valid rfl hget
  have hdescription : runeCount (memberText members "description") ≤ 4000 :=
    runeCount_memberText fun v hget =>
      Schema.valid_present (k := py "description") (s := boundedText 0 4000) h.valid rfl hget
  split
  · rename_i hblank
    rw [validatePayload, if_pos hblank]
  · rename_i hblank
    exact validatePayload_eq.mpr ⟨hblank, htitle, hdescription⟩

theorem admitted_update_member (h : Admitted updateRequestStatusSchema body members)
    {m : PyStr × Json} (hm : m ∈ members) :
    m.1 = py "status" ∧ requestStatus.valid m.2 = true := by
  obtain ⟨s, hs, hvalid⟩ := h.member hm
  simp only [Contracts.members, List.append_nil, List.map_cons, List.map_nil, Assoc.get] at hs
  split at hs
  · cases hs
    exact ⟨Eq.symm ‹_›, hvalid⟩
  · cases hs

theorem requestStatus_text {v : Json} (h : requestStatus.valid v = true) : ∃ s, v = .str s :=
  ((Schema.valid_string_iff _ _).mp h).imp fun _ hs => hs.1

theorem decodeUpdate_admitted (h : Admitted updateRequestStatusSchema body members) :
    decodeUpdate body = some (memberText members "status") := by
  have hindex : fieldIndex (updateStatusFields.map Prod.fst) (py "status") = some 0 := by
    decide +kernel
  have hknown : ∀ m ∈ members, ∀ x : String,
      storeKnown updateStatusFields x m = some (textOf m.2) := by
    intro m hm x
    obtain ⟨key, v⟩ := m
    obtain ⟨rfl, hvalid⟩ := admitted_update_member h hm
    exact storeKnown_text hindex rfl (requestStatus_text hvalid)
  have hfold : id (members.foldl (fun _ m => textOf m.2) "") = memberText members "status" := by
    refine Assoc.foldl_of_unique h.unique (fun m hm x => ?_) _
    rw [if_pos (admitted_update_member h hm).1]
    rfl
  rw [decodeUpdate, decodeWithin_of_parse _ _ h.size h.parsed, storeClosed_of_known hknown,
    ← hfold, id]

/-- The status of an admitted body is one of the lifecycle, which no blanks surround. -/
theorem trimSpace_status (h : Admitted updateRequestStatusSchema body members) :
    memberText members "status" ≠ "" ∧
      trimSpace (memberText members "status") = memberText members "status" := by
  obtain ⟨v, hget, hvalid⟩ := Schema.valid_member h.valid (List.mem_singleton_self _)
    (rfl : _ = some requestStatus)
  obtain ⟨s, rfl, hs⟩ := (Schema.valid_string_iff _ _).mp hvalid
  have htext : memberText members "status" = goString s := by
    simp only [memberText, hget]
    rfl
  rw [htext]
  have hall : ∀ s ∈ ["created", "triaged", "in_progress", "resolved", "closed", "cancelled"].map py,
      goString s ≠ "" ∧ trimSpace (goString s) = goString s := by decide +kernel
  exact hall s (of_decide_eq_true hs)

end Bodies

section Limits

/-- The limits that the contract admits. -/
theorem listLimit_admitted {query : List (String × String)} {n : Nat} (hleast : 1 ≤ n)
    (hmost : n ≤ 200) (hquery : queryGet query "limit" = toString n) :
    listLimit query = some (n : Int) := by
  have hall : ∀ n : Fin 201, 1 ≤ n.val → listLimit [("limit", toString n.val)] =
      some (n.val : Int) := by
    decide +kernel
  have hread : queryGet [("limit", toString n)] "limit" = toString n := rfl
  have hsame : listLimit query = listLimit [("limit", toString n)] := by
    rw [listLimit, listLimit, hquery, hread]
  rw [hsame]
  exact hall ⟨n, Nat.lt_succ_of_le hmost⟩ hleast

end Limits

/-- The call that an admitted request of a caller stands for. -/
inductive Admits (request : HttpRequest) (draws : Draws) (caller : Identity) :
    Endpoint → Operation → Prop where
  | listAll (hlimit : queryGet request.query "limit" = "") :
      Admits request draws caller .listRequests (.listRequests
        ⟨trimSpace (queryGet request.query "status"), trimSpace (queryGet request.query "subject"),
          0, caller.subject, roleOf caller⟩)
  | list {n : Nat} (hleast : 1 ≤ n) (hmost : n ≤ 200)
      (hlimit : queryGet request.query "limit" = toString n) :
      Admits request draws caller .listRequests (.listRequests
        ⟨trimSpace (queryGet request.query "status"), trimSpace (queryGet request.query "subject"),
          n, caller.subject, roleOf caller⟩)
  | create {members : List (PyStr × Json)}
      (hbody : Admitted createRequestSchema request.body members) :
      Admits request draws caller .createRequest (.createRequest
        ⟨memberText members "title", memberText members "description", caller.subject⟩
        draws.now draws.requestID draws.eventID)
  | get {id : String} :
      Admits request draws caller (.getRequest id)
        (.getRequest ⟨id, caller.subject, roleOf caller⟩)
  | update {id : String} {members : List (PyStr × Json)} (hrole : roleOf caller = roleOperator)
      (hbody : Admitted updateRequestStatusSchema request.body members) :
      Admits request draws caller (.updateStatus id) (.updateRequestStatus
        ⟨id, memberText members "status", caller.subject, roleOf caller⟩ draws.now draws.eventID)

def titleRequired : Reply := .one (writeError 400 "invalid_input" "title is required")

/-- Whether the call has a title without anything but blanks. -/
def BlankTitle : Operation → Prop
  | .createRequest input _ _ _ => trimSpace input.title = ""
  | _ => False

instance : DecidablePred BlankTitle
  | .createRequest input _ _ _ => inferInstanceAs (Decidable (trimSpace input.title = ""))
  | .updateRequestStatus _ _ _ | .getRequest _ | .listRequests _ =>
      inferInstanceAs (Decidable False)

theorem call_admitted {verify : String → Except String Identity} {request : HttpRequest}
    {draws : Draws} {caller : Identity} {endpoint : Endpoint} {op : Operation}
    (hcaller : bearerIdentity verify request.authorization = .ok caller)
    (h : Admits request draws caller endpoint op) :
    call verify request draws endpoint =
      if BlankTitle op then .error titleRequired else .ok op := by
  cases h with
  | listAll hlimit =>
      have hnone : listLimit request.query = some 0 := by
        rw [listLimit, hlimit]
        rfl
      simp only [call, hcaller, hnone]
      exact (if_neg not_false).symm
  | list hleast hmost hlimit =>
      simp only [call, hcaller, listLimit_admitted hleast hmost hlimit]
      exact (if_neg not_false).symm
  | @create members hbody =>
      simp only [call, hcaller, decodeCreate_admitted hbody, validatePayload_admitted hbody]
      by_cases hblank : trimSpace (memberText members "title") = ""
      · rw [if_pos hblank, if_pos (by decide)]
        exact (if_pos hblank).symm
      · rw [if_neg hblank, if_neg (by decide)]
        exact (if_neg hblank).symm
  | get =>
      simp only [call, hcaller]
      exact (if_neg not_false).symm
  | update hrole hbody =>
      obtain ⟨hne, htrim⟩ := trimSpace_status hbody
      simp only [call, hcaller, hrole, decodeUpdate_admitted hbody, htrim, hne, if_false, ne_eq,
        not_true_eq_false]
      exact (if_neg not_false).symm

/-- What the contract admits the service answers: over every store and in every state, a
request of a known caller becomes the call that its parameters and its body stand for, but for
a title of blanks. -/
theorem admitted_served {σ : Type} (S : RequestStore σ)
    (verify : String → Except String Identity) (s : σ) (request : HttpRequest) (draws : Draws)
    (caller : Identity) (endpoint : Endpoint) (op : Operation)
    (hroute : routes request.method request.path = .ok endpoint)
    (hcaller : bearerIdentity verify request.authorization = .ok caller)
    (h : Admits request draws caller endpoint op) :
    serveHTTP S verify s request draws =
      if BlankTitle op then (titleRequired, s)
      else (answer endpoint (serve S s op).1, (serve S s op).2) := by
  simp only [serveHTTP, hroute]
  rw [handle_eq, call_admitted hcaller h]
  by_cases hblank : BlankTitle op
  · simp only [hblank, if_true]
  · simp only [hblank, if_false]

/-- Alice's request and the call that it becomes. -/
theorem aliceCreates_served :
    serveHTTP MemoryStore.requestStore subjectToken MemoryStore.empty aliceCreates.1
        aliceCreates.2 =
      (answer .createRequest (serve MemoryStore.requestStore MemoryStore.empty
          (.createRequest ⟨"Reset VPN", "please", "alice"⟩ noon (evenId 1) (evenId 2))).1,
        (serve MemoryStore.requestStore MemoryStore.empty
          (.createRequest ⟨"Reset VPN", "please", "alice"⟩ noon (evenId 1) (evenId 2))).2) := by
  have hbody : Admitted createRequestSchema aliceCreates.1.body
      [(py "title", .str (py "Reset VPN")), (py "description", .str (py "please"))] :=
    ⟨by decide +kernel, by decide +kernel,
      (by decide : [py "title", py "description"].Nodup), by decide +kernel⟩
  have htitle : memberText [(py "title", .str (py "Reset VPN")),
      (py "description", .str (py "please"))] "title" = "Reset VPN" := by decide +kernel
  have hdescription : memberText [(py "title", .str (py "Reset VPN")),
      (py "description", .str (py "please"))] "description" = "please" := by decide +kernel
  have hadmits : Admits aliceCreates.1 aliceCreates.2 ⟨"alice", []⟩ .createRequest _ :=
    .create hbody
  rw [htitle, hdescription] at hadmits
  have hblank : ¬ BlankTitle (.createRequest ⟨"Reset VPN", "please", "alice"⟩ noon (evenId 1)
      (evenId 2)) := by decide +kernel
  rw [admitted_served MemoryStore.requestStore subjectToken MemoryStore.empty aliceCreates.1
    aliceCreates.2 ⟨"alice", []⟩ .createRequest _ rfl (by decide +kernel) hadmits]
  exact if_neg hblank

end SecureSdlc.Gateway
