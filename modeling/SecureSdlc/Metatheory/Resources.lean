import SecureSdlc.Metatheory.GatewayContract
import SecureSdlc.Metatheory.UnknownRequests

/-!
The requests as resources of the REST interface. What clients were shown of their writes, in
order, says everything about the store: a read gives the latest write of its resource to the
caller who created it and to operators, a listing gives only such resources, and the outbox
has one event for each write.
-/

namespace SecureSdlc.Gateway

open Core GoText Domain

/-- A write as the client saw it: who asked for it, and the resource in the reply. -/
structure Write where
  subject : String
  shown : RequestResponse
  deriving DecidableEq, Repr

/-- The one resource that a reply shows. -/
def Reply.resource : Reply → Option RequestResponse
  | .one ⟨_, .request r⟩ => some r
  | _ => none

def Endpoint.writes : Endpoint → Bool
  | .createRequest | .updateStatus _ => true
  | _ => false

/-- The write in an exchange, if its reply shows one. -/
def shownWrite (verify : String → Except String Identity) (x : Exchange) (reply : Reply) :
    Option Write := do
  let endpoint ← (routes x.1.method x.1.path).toOption
  let caller ← (bearerIdentity verify x.1.authorization).toOption
  let r ← reply.resource
  if endpoint.writes then some ⟨caller.subject, r⟩ else none

/-- The writes that the replies of a session show. -/
def writes (verify : String → Except String Identity) (xs : List Exchange) (shown : List Reply) :
    List Write :=
  (xs.zip shown).filterMap fun exchange => shownWrite verify exchange.1 exchange.2

/-- The writes to one resource. -/
def writesTo (ws : List Write) (id : String) : List Write := ws.filter fun w => w.shown.id = id

def latest (ws : List Write) (id : String) : Option RequestResponse :=
  (writesTo ws id).getLast?.map Write.shown

def creator (ws : List Write) (id : String) : Option String :=
  (writesTo ws id).head?.map Write.subject

/-- What a read of a resource is answered after the writes. -/
def expectedRead (ws : List Write) (caller : Identity) (id : String) : HttpResponse :=
  match latest ws id with
  | some r =>
      if roleOf caller = roleOperator ∨ creator ws id = some (trimSpace caller.subject) then
        ⟨200, .request r⟩
      else writeError 404 "not_found" "request not found"
  | none => writeError 404 "not_found" "request not found"

section Tables

variable {σ : Type} {S : RequestStore σ} (V : TableView S.toStore)

/-- Ids and times are kept as the service writes them, and what is not there is missed. -/
structure ReadsBack : Prop where
  id : ∀ {id k}, Canonical id → V.key id = some k → V.text k = id
  time : ∀ {t : UtcTime} {st}, t.onCalendar = true → V.stamp (formatRFC3339 t) = some st →
    V.stampText st = formatRFC3339 t
  missing : ∀ {s id k}, V.Up s → V.key id = some k → V.record s k = none →
    S.getRequest s id = .error .requestNotFound

/-- A record as the API shows it. -/
def shownRecord (k : V.Key) (rec : Record V.Stamp) : RequestResponse :=
  ⟨V.text k, rec.title, rec.status, V.stampText rec.createdAt⟩

/-- The store is what the writes made it. -/
structure Mirrors (s : σ) (ws : List Write) : Prop where
  inv : V.Inv s
  up : V.Up s
  absent : ∀ {k}, V.record s k = none → writesTo ws (V.text k) = []
  present : ∀ {k rec}, V.record s k = some rec →
    latest ws (V.text k) = some (shownRecord V k rec) ∧
      creator ws (V.text k) = some rec.subject
  log : V.log s = ws.map fun w =>
    ⟨V.key w.shown.id, w.shown.status == statusCreated, w.shown.status⟩

variable {V}

theorem writesTo_append_self {ws : List Write} {w : Write} {id : String} (h : w.shown.id = id) :
    writesTo (ws ++ [w]) id = writesTo ws id ++ [w] := by
  rw [writesTo, List.filter_append, List.filter_singleton, decide_eq_true h, cond_true, writesTo]

theorem writesTo_append_other {ws : List Write} {w : Write} {id : String} (h : w.shown.id ≠ id) :
    writesTo (ws ++ [w]) id = writesTo ws id := by
  rw [writesTo, List.filter_append, List.filter_singleton, decide_eq_false h, cond_false,
    List.append_nil, writesTo]

/-- A resource keeps its creator. -/
theorem creator_append {ws : List Write} {id owner : String} (h : creator ws id = some owner)
    (w : Write) : creator (ws ++ [w]) id = some owner := by
  rw [creator, Option.map_eq_some_iff] at h
  obtain ⟨first, hfirst, rfl⟩ := h
  rw [creator, writesTo, List.filter_append, List.head?_append, ← writesTo, hfirst]
  rfl

/-- A write that is put in the table and shown to the client. -/
theorem Mirrors.put {s s' : σ} {ws : List Write} (h : Mirrors V s ws) {k : V.Key}
    {rec : Record V.Stamp} {created : Bool} (hputs : Puts V s s' k rec created) {w : Write}
    (hshown : w.shown = shownRecord V k rec) (hcreated : created = (rec.status == statusCreated))
    (hcreator : creator (ws ++ [w]) (V.text k) = some rec.subject) :
    Mirrors V s' (ws ++ [w]) := by
  have hid : w.shown.id = V.text k := by rw [hshown]; rfl
  have hother : ∀ {k'}, k' ≠ k → writesTo (ws ++ [w]) (V.text k') = writesTo ws (V.text k') := by
    intro k' hne
    refine writesTo_append_other fun heq => hne (V.text_injective ?_)
    rw [← heq, hid]
  refine ⟨hputs.inv, hputs.up h.up, ?_, ?_, ?_⟩
  · intro k' hrecord
    have hne : k' ≠ k := by
      rintro rfl
      rw [hputs.record] at hrecord
      cases hrecord
    rw [hother hne]
    rw [hputs.others k' hne] at hrecord
    exact h.absent hrecord
  · intro k' rec' hrecord
    by_cases hk : k' = k
    · subst hk
      rw [hputs.record, Option.some.injEq] at hrecord
      subst hrecord
      refine ⟨?_, hcreator⟩
      rw [latest, writesTo_append_self hid, List.getLast?_concat, Option.map_some, hshown]
    · rw [hputs.others k' hk] at hrecord
      rw [latest, creator, hother hk]
      exact h.present hrecord
  · rw [hputs.log, h.log, List.map_append, List.map_singleton, hid, V.key_text, hshown, hcreated]
    rfl

/-- The subject that a request is created for. -/
def createsFor (subject : String) : Operation → Prop
  | .createRequest input _ _ _ => input.subject = subject
  | _ => True

theorem canTransition_created (source : String) : canTransition source statusCreated = false := by
  rw [Bool.eq_false_iff]
  intro h
  rcases canTransition_cases h with ⟨-, h | h⟩ | ⟨-, h | h⟩ | ⟨-, h | h⟩ | ⟨-, h⟩ <;>
    exact absurd h (by decide)

/-- What a call does is what its response shows. -/
theorem Mirrors.serve (hV : ReadsBack V) {s : σ} {ws : List Write} (h : Mirrors V s ws)
    {op : Operation} (ht : op.Timely) {subject : String} (hsubject : createsFor subject op) :
    Mirrors V (after S s op) (ws ++ ((written op (serve S s op).1).map fun proto =>
      (⟨subject, toRequestResponse proto⟩ : Write)).toList) := by
  have heffect := serve_effect V h.inv op
  generalize after S s op = s', (Domain.serve S s op).1 = response at heffect ⊢
  cases heffect with
  | unchanged hquiet =>
      rw [hquiet, Option.map_none, Option.toList_none, List.append_nil]
      exact h
  | @created input now requestID eventID s' k st hkey hstamp hfree hputs =>
      have hid := hV.id ht.2.1 hkey
      have htime := hV.time ht.1 hstamp
      refine h.put hputs ?_ (by simp) ?_
      · simp only [toRequestResponse, shownRecord, hid, htime]
      · rw [creator, writesTo_append_self hid.symm, h.absent hfree, ← hsubject]
        rfl
  | @changed input now eventID s' k rec newStatus hcheck hkey hrecord hedge hputs =>
      have hne : newStatus ≠ statusCreated := by
        rintro rfl
        rw [canTransition_created] at hedge
        cases hedge
      refine h.put hputs rfl (by simpa using hne) ?_
      exact creator_append (h.present hrecord).2 _

end Tables

section Exchanges

variable {σ : Type} {S : RequestStore σ} {verify : String → Except String Identity} {x : Exchange}

theorem shownWrite_of_no_resource {reply : Reply} (h : reply.resource = none) :
    shownWrite verify x reply = none := by
  simp [shownWrite, h]

/-- What the gateway replies by itself shows no resource. -/
theorem resource_of_call_error {request : HttpRequest} {draws : Draws} {endpoint : Endpoint}
    {reply : Reply} (h : call verify request draws endpoint = .error reply) :
    reply.resource = none := by
  cases refuses_of_call h <;> rfl

theorem resource_of_routes_error {method : String} {path : List String} {reply : Reply}
    (h : routes method path = .error reply) : reply.resource = none := by
  have hunrouted : ∀ status text, Except.error (Reply.unrouted status text) =
      (.error reply : Except Reply Endpoint) → reply.resource = none := by
    intro status text heq
    cases heq
    rfl
  simp only [routes] at h
  split at h
  · split at h
    · cases h
    · exact hunrouted _ _ h
  · split at h
    · cases h
    split at h
    · cases h
    · exact hunrouted _ _ h
  · split at h
    · exact hunrouted _ _ h
    split at h
    · cases h
    · exact hunrouted _ _ h
  · split at h
    · exact hunrouted _ _ h
    split at h
    · cases h
    · exact hunrouted _ _ h
  · exact hunrouted _ _ h

theorem resource_of_forward_error {reply : Reply} (h : forward verify x = .error reply) :
    reply.resource = none := by
  rw [forward] at h
  cases hroute : routes x.1.method x.1.path with
  | error own =>
      rw [hroute] at h
      cases h
      exact resource_of_routes_error hroute
  | ok endpoint =>
      rw [hroute] at h
      dsimp only at h
      cases hcall : call verify x.1 x.2 endpoint with
      | error own =>
          rw [hcall] at h
          cases h
          exact resource_of_call_error hcall
      | ok op =>
          rw [hcall] at h
          cases h

/-- The write that a call's reply shows is the one in its response. -/
theorem shownWrite_answer {endpoint : Endpoint} {op : Operation}
    (h : forward verify x = .ok (endpoint, op)) (s : σ) : ∃ subject, createsFor subject op ∧
      shownWrite verify x (answer endpoint (serve S s op).1) =
        (written op (serve S s op).1).map fun proto => ⟨subject, toRequestResponse proto⟩ := by
  obtain ⟨hroute, hcall⟩ := forward_eq_ok.mp h
  cases forwards_of_call hcall with
  | @list caller limit hcaller hlimit =>
      refine ⟨caller.subject, trivial, ?_⟩
      simp [shownWrite, hroute, Except.toOption, Endpoint.writes, written]
  | @create caller payload hcaller hpayload hvalid =>
      refine ⟨caller.subject, rfl, ?_⟩
      simp only [serve]
      generalize Service.createRequest S.toStore s _ _ _ _ = outcome
      obtain ⟨result, s'⟩ := outcome
      cases result <;>
        simp [shownWrite, hroute, hcaller, Except.toOption, Endpoint.writes, written, answer,
          Reply.resource, writeError]
  | @get caller id hcaller =>
      refine ⟨caller.subject, trivial, ?_⟩
      simp [shownWrite, hroute, Except.toOption, Endpoint.writes, written]
  | @update caller id status hcaller hrole hstatus hne =>
      refine ⟨caller.subject, trivial, ?_⟩
      simp only [serve]
      generalize Service.updateRequestStatus S.toStore s _ _ _ = outcome
      obtain ⟨result, s'⟩ := outcome
      cases result with
      | error e =>
          have herror : (answer (.updateStatus id) (.request (.error e))).resource = none := by
            simp only [answer, reduceCtorEq, if_false, writeDomainError]
            cases e.code <;> rfl
          rw [shownWrite_of_no_resource herror]
          rfl
      | ok proto =>
          simp [shownWrite, hroute, hcaller, Except.toOption, Endpoint.writes, written, answer,
            Reply.resource]

theorem writes_cons (xs : List Exchange) (reply : Reply) (shown : List Reply) :
    writes verify (x :: xs) (reply :: shown) =
      (shownWrite verify x reply).toList ++ writes verify xs shown := by
  rw [writes, List.zip_cons_cons, List.filterMap_cons, writes]
  cases shownWrite verify x reply <;> rfl

variable {V : TableView S.toStore}

theorem Mirrors.exchange (hV : ReadsBack V) {s : σ} {ws : List Write} (h : Mirrors V s ws)
    (ht : x.2.Timely) : Mirrors V (stepHTTP S verify s x)
      (ws ++ (shownWrite verify x (serveHTTP S verify s x.1 x.2).1).toList) := by
  rw [stepHTTP]
  cases hforward : forward verify x with
  | error reply =>
      rw [serveHTTP_of_error hforward]
      rw [shownWrite_of_no_resource (resource_of_forward_error hforward), Option.toList_none,
        List.append_nil]
      exact h
  | ok pair =>
      obtain ⟨endpoint, op⟩ := pair
      obtain ⟨subject, hsubject, hshown⟩ := shownWrite_answer (S := S) hforward s
      rw [serveHTTP_of_ok hforward, hshown]
      exact h.serve hV (timely_of_call ht (forward_eq_ok.mp hforward).2) hsubject

/-- Along a session the store stays what the writes shown to clients made it. -/
theorem Mirrors.session (hV : ReadsBack V) {s : σ} {ws : List Write} (h : Mirrors V s ws)
    (xs : List Exchange) (hxs : ∀ x ∈ xs, x.2.Timely) :
    Mirrors V (run (stepHTTP S verify) s xs) (ws ++ writes verify xs (replies S verify s xs)) := by
  induction xs generalizing s ws with
  | nil =>
      rw [replies, writes, List.zip_nil_left, List.filterMap_nil, List.append_nil]
      exact h
  | cons x xs ih =>
      rw [List.forall_mem_cons] at hxs
      have hnext : Mirrors V (stepHTTP S verify s x)
          (ws ++ (shownWrite verify x (serveHTTP S verify s x.1 x.2).1).toList) :=
        h.exchange hV hxs.1
      have hrest := ih hnext hxs.2
      rw [List.append_assoc] at hrest
      rw [replies, writes_cons]
      exact hrest

end Exchanges

section Reads

variable {σ : Type} {S : RequestStore σ} {verify : String → Except String Identity}

theorem trimSpace_roleOf (caller : Identity) : trimSpace (roleOf caller) = roleOf caller := by
  rw [roleOf]
  split
  · exact trimSpace_of_all (by decide)
  · exact trimSpace_of_all (by decide)

theorem Mirrors.read {V : TableView S.toStore} (hV : ReadsBack V) {s : σ} {ws : List Write}
    (h : Mirrors V s ws) {header id : String} {caller : Identity} {k : V.Key}
    (hcaller : bearerIdentity verify header = .ok caller) (hactor : trimSpace caller.subject ≠ "")
    (hid : trimSpace id ≠ "") (hkey : V.key (trimSpace id) = some k) :
    handleGetRequest S.toStore verify s header id = expectedRead ws caller (V.text k) := by
  have hmissing : writeDomainError ⟨.notFound, "request not found"⟩ =
      writeError 404 "not_found" "request not found" := rfl
  have hcase := getRequest_outcome S s ⟨id, caller.subject, roleOf caller⟩
  simp only [handleGetRequest, hcaller, expectedRead]
  generalize Service.getRequest S.toStore s ⟨id, caller.subject, roleOf caller⟩ = outcome at hcase ⊢
  cases hrecord : V.record s k with
  | none =>
      have hstore := hV.missing h.up hkey hrecord
      have hlatest : latest ws (V.text k) = none := by
        rw [latest, h.absent hrecord]
        rfl
      rw [hlatest]
      cases hcase with
      | blank hblank => exact absurd hblank (not_or.mpr ⟨hid, hactor⟩)
      | missing => exact hmissing
      | failed _ _ hfound | hidden _ _ hfound | done _ _ hfound =>
          rw [hstore] at hfound
          cases hfound
  | some rec =>
      obtain ⟨hlatest, hcreator⟩ := h.present hrecord
      obtain ⟨r, hstore⟩ := V.get_found h.up hkey hrecord
      obtain ⟨k', rec', hkey', hrecord', rfl⟩ := V.get_spec h.inv hstore
      rw [hkey, Option.some.injEq] at hkey'
      subst hkey'
      rw [hrecord, Option.some.injEq] at hrecord'
      subst hrecord'
      rw [hlatest, hcreator]
      dsimp only
      cases hcase with
      | blank hblank => exact absurd hblank (not_or.mpr ⟨hid, hactor⟩)
      | failed _ _ hfound | missing _ _ hfound =>
          rw [hstore] at hfound
          cases hfound
      | hidden _ _ hfound hrole hother =>
          rw [hstore, Except.ok.injEq] at hfound
          subst hfound
          rw [trimSpace_roleOf] at hrole
          rw [if_neg (not_or.mpr ⟨hrole, fun heq => hother (Option.some.inj heq)⟩)]
          exact hmissing
      | done _ _ hfound hallowed =>
          rw [hstore, Except.ok.injEq] at hfound
          subst hfound
          rw [trimSpace_roleOf] at hallowed
          rw [if_pos (hallowed.imp_right fun heq => congrArg some heq)]
          rfl

theorem Mirrors.listed (L : ListedTable S) {s : σ} {ws : List Write} (h : Mirrors L.table s ws)
    {header : String} {query : List (String × String)} {rs : List RequestResponse}
    (hlist : handleListRequests S verify s header query = .requests rs) :
    ∃ caller, bearerIdentity verify header = .ok caller ∧ ∀ r ∈ rs, latest ws r.id = some r ∧
      (roleOf caller = roleOperator ∨ creator ws r.id = some (trimSpace caller.subject)) := by
  simp only [handleListRequests] at hlist
  split at hlist
  · cases hlist
  rename_i caller hcaller
  split at hlist
  · cases hlist
  rename_i limit hlimit
  split at hlist
  · cases hlist
  · rename_i protos hprotos
    cases hlist
    obtain ⟨filter, found, hfilter, hstore, rfl⟩ := Service.listRequests_ok hprotos
    refine ⟨caller, hcaller, ?_⟩
    intro r hr
    obtain ⟨proto, hproto, rfl⟩ := List.mem_map.mp hr
    obtain ⟨request, hrequest, rfl⟩ := List.mem_map.mp hproto
    obtain ⟨k, rec, hrecord, hadmits, rfl⟩ := L.list_spec h.inv hstore request hrequest
    obtain ⟨hlatest, hcreator⟩ := h.present hrecord
    refine ⟨hlatest, ?_⟩
    by_cases hrole : roleOf caller = roleOperator
    · exact .inl hrole
    · obtain ⟨hsubject, hne⟩ := Service.listFilter_subject _
        (by rw [trimSpace_roleOf]; exact hrole) hfilter
      have howner := ListFilter.subject_of_admits hne hadmits
      refine .inr (hcreator.trans (congrArg some ?_))
      exact howner.trans hsubject

end Reads

end SecureSdlc.Gateway
