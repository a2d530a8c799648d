import SecureSdlc.Metatheory.BridgeAnswers
import SecureSdlc.Metatheory.TokenMeaning

/-!
What the capability bootstrap does to a line. The bridge parses a call, fills in the fields
that it lacks and dumps it again, with its texts escaped, so the call is the caller's own
exactly when none of its texts holds the halves of a surrogate pair next to each other. No
text does that was read from a line without surrogates, as every line over bytes is.
-/

namespace SecureSdlc.Mcp

open Core JsonText Runner Tools

universe u

variable {rt : Runtime} {σ : Type u} {capabilities : RunRegistry} {tools : ToolRegistry σ}
  {message params : Mapping} {name runId scope token line : PyStr} {issued : Int}
  {spec : ToolSpec σ}

/-- The message is a call of a registered tool. -/
structure Calls (tools : ToolRegistry σ) (message params : Mapping) (name : PyStr)
    (spec : ToolSpec σ) : Prop where
  asked : Assoc.get message (py "method") = some (.str (py "tools/call"))
  carried : Assoc.get message (py "params") = some (.obj params)
  named : Assoc.get params (py "name") = some (.str name)
  registered : tools.get name = .ok spec

/-- The caller supplied none of the three fields. -/
def Bare (params : Mapping) : Prop := ∀ field ∈ capabilityFields, Assoc.get params field = none

theorem mintTarget_iff : mintTarget tools message = some (params, name, spec) ↔
    Calls tools message params name spec ∧ capabilityFields.all (holdsText params) = false := by
  constructor
  · intro h
    rw [mintTarget] at h
    split at h
    · cases h
    rename_i hasked
    split at h
    · rename_i held hheld
      split at h
      · cases h
      rename_i hlacks
      split at h
      · rename_i text htext
        split at h
        · rename_i found hfound
          cases h
          exact ⟨⟨not_not.mp hasked, hheld, htext, hfound⟩, by simpa using hlacks⟩
        · cases h
      · cases h
    · cases h
  · rintro ⟨h, hlacks⟩
    simp only [mintTarget, h.asked, ne_eq, not_true_eq_false, if_false, h.carried, hlacks,
      Bool.false_eq_true, h.named, h.registered]

/-- The defaults, in the order they are set in. -/
def defaults (runId scope token : PyStr) : Mapping :=
  [(py "run_id", .str runId), (py "scope", .str scope), (py "token", .str token)]

/-- The defaults that the parameters lack. -/
def added (params : Mapping) (runId scope token : PyStr) : Mapping :=
  (defaults runId scope token).filter fun field => (Assoc.get params field.1).isNone

theorem foldl_setDefault {entries : Mapping} (hunique : Assoc.Unique entries)
    (params : Mapping) :
    entries.foldl (fun params field => setDefault params field.1 field.2) params =
      params ++ entries.filter fun field => (Assoc.get params field.1).isNone := by
  induction entries generalizing params with
  | nil => simp
  | cons field rest ih =>
      rw [Assoc.Unique, List.map_cons, List.nodup_cons] at hunique
      rw [List.foldl_cons, ih hunique.2, setDefault]
      cases hget : Assoc.get params field.1 with
      | some v => simp [hget]
      | none =>
          have hrest : ∀ other ∈ rest, Assoc.get (params ++ [(field.1, field.2)]) other.1 =
              Assoc.get params other.1 := by
            intro other hother
            have hne : field.1 ≠ other.1 := by
              intro heq
              exact hunique.1 (List.mem_map.mpr ⟨other, hother, heq.symm⟩)
            rw [Assoc.get_append, Assoc.get, if_neg hne, Assoc.get, Option.or_none]
          have hsame : rest.filter (fun other =>
              (Assoc.get (params ++ [(field.1, field.2)]) other.1).isNone) =
              rest.filter fun other => (Assoc.get params other.1).isNone :=
            List.filter_congr fun other hother => by rw [hrest other hother]
          rw [Option.isSome_none, if_neg Bool.false_ne_true, Assoc.set_of_get_none _ hget, hsame,
            List.filter_cons, hget, Option.isNone_none, if_pos rfl, List.append_assoc]
          rfl

theorem withCapability_eq : withCapability message params runId scope token =
    Assoc.set message (py "params") (.obj (params ++ added params runId scope token)) := by
  have hunique : Assoc.Unique (defaults runId scope token) := by
    change [py "run_id", py "scope", py "token"].Nodup
    decide
  rw [added, ← foldl_setDefault hunique params]
  rfl

theorem unique_append_added (h : Assoc.Unique params) :
    Assoc.Unique (params ++ added params runId scope token) := by
  rw [Assoc.Unique, List.map_append, List.nodup_append]
  refine ⟨h, ?_, ?_⟩
  · refine List.Nodup.sublist (List.filter_sublist.map _) ?_
    change [py "run_id", py "scope", py "token"].Nodup
    decide
  · intro a ha b hb hab
    obtain ⟨field, hfield, rfl⟩ := List.mem_map.mp ha
    obtain ⟨other, hother, rfl⟩ := List.mem_map.mp hb
    have hnone := (List.mem_filter.mp hother).2
    rw [← hab, Assoc.get_of_mem h hfield] at hnone
    cases hnone

theorem unpaired_capabilityFields : ∀ field ∈ capabilityFields, Unpaired field := by
  intro field h
  simp only [capabilityFields, List.mem_cons, List.not_mem_nil, or_false] at h
  rcases h with rfl | rfl | rfl
  · decide
  · decide
  · decide

theorem mem_added {field : PyStr × Json} (h : field ∈ added params runId scope token) :
    field.1 ∈ capabilityFields ∧ Assoc.get params field.1 = none := by
  obtain ⟨hmem, hnone⟩ := List.mem_filter.mp h
  refine ⟨?_, Option.isNone_iff_eq_none.mp hnone⟩
  simp only [defaults, List.mem_cons, List.not_mem_nil, or_false] at hmem
  rcases hmem with rfl | rfl | rfl
  · simp [capabilityFields]
  · simp [capabilityFields]
  · simp [capabilityFields]

theorem rename_added : Assoc.rename (fun _ => reread {}) id (added params runId scope token) =
    added params (joinSurrogates runId) (joinSurrogates scope) (joinSurrogates token) := by
  have hdefaults : (defaults runId scope token).map (fun field => (field.1, reread {} field.2)) =
      defaults (joinSurrogates runId) (joinSurrogates scope) (joinSurrogates token) := rfl
  rw [added, added, ← hdefaults, List.filter_map]
  rfl

/-- What a call without paired texts is read back as. -/
theorem reread_withCapability_of_unpaired (hkeys : (Json.obj message).distinctKeys = true)
    (hunpaired : AllUnpaired (.obj message))
    (hparams : Assoc.get message (py "params") = some (.obj params)) :
    reread {} (.obj (withCapability message params runId scope token)) =
      .obj (withCapability message params (joinSurrogates runId) (joinSurrogates scope)
        (joinSurrogates token)) := by
  have hmember := Assoc.mem_of_get hparams
  have hparamKeys := (Json.distinctKeys_of_field hkeys).2 _ hmember
  have hparamTexts := (allUnpaired_obj.mp hunpaired _ hmember).2
  have hfilled : reread {} (.obj (params ++ added params runId scope token)) =
      .obj (params ++ added params (joinSurrogates runId) (joinSurrogates scope)
        (joinSurrogates token)) := by
    rw [reread_members (unique_append_added (Json.distinctKeys_of_field hparamKeys).1),
      Assoc.rename, List.map_append]
    · exact congrArg Json.obj (congrArg₂ (· ++ ·) (rename_of_unpaired hparamKeys hparamTexts)
        rename_added)
    · intro field hfield
      rcases List.mem_append.mp hfield with hold | hnew
      · exact (allUnpaired_obj.mp hparamTexts field hold).1
      · exact unpaired_capabilityFields _ (mem_added hnew).1
  rw [withCapability_eq, withCapability_eq,
    reread_members (Assoc.unique_set (Json.distinctKeys_of_field hkeys).1 _ _),
    ← Assoc.set_rename (f := id) Function.injective_id, rename_of_unpaired hkeys hunpaired, hfilled]
  · rfl
  · intro field hfield
    rcases Assoc.mem_set hfield with rfl | hold
    · exact (allUnpaired_obj.mp hunpaired _ hmember).1
    · exact (allUnpaired_obj.mp hunpaired field hold).1

/-- The members are the capability fields that the parameters lack, each of them once. -/
structure Supplements (params extra : Mapping) : Prop where
  unique : Assoc.Unique extra
  keys : ∀ field, field ∈ extra.map Prod.fst ↔
    field ∈ capabilityFields ∧ Assoc.get params field = none

/-- The line itself, or a line with the same JSON but for fields that the call lacks. -/
inductive Conservative (rt : Runtime) (line out : PyStr) : Prop
  | unchanged : out = line → Conservative rt line out
  | extended {message params extra : Mapping} :
      loads rt line = .ok (.obj message) →
      Assoc.get message (py "params") = some (.obj params) → Supplements params extra →
      loads rt out = .ok (.obj (Assoc.set message (py "params") (.obj (params ++ extra)))) →
      Conservative rt line out

/-- The line is a call whose token passes the check, for the scope of the tool, while the
token lives. -/
def Accepted (rt : Runtime) (capabilities : RunRegistry) (tools : ToolRegistry σ) (issued : Int)
    (out : PyStr) : Prop :=
  ∃ message params name spec runId token,
    loads rt out = .ok (.obj message) ∧ Calls tools message params name spec ∧
      Assoc.get params (py "run_id") = some (.str runId) ∧
      Assoc.get params (py "token") = some (.str token) ∧
      Assoc.get params (py "scope") = some (.str spec.scope) ∧
      ∀ now, issued ≤ now → now ≤ issued + defaultTtlSeconds →
        ∃ check, capabilities.check rt token name spec.scope now = .ok check ∧ check.valid = true

/-- What the bootstrap makes of a line keeps what the caller supplied, leaves other messages
alone, is done once, and suffices where the caller supplied nothing. -/
structure Injects (rt : Runtime) (capabilities : RunRegistry) (tools : ToolRegistry σ)
    (runId line : PyStr) (issued : Int) (out : PyStr) : Prop where
  conservative : Conservative rt line out
  passed : (∀ message params name spec, loads rt line = .ok (.obj message) →
    ¬ Calls tools message params name spec) → out = line
  once : ∀ later, shortInt (later + defaultTtlSeconds) = true →
    ∃ again, injectCapability rt capabilities tools runId out later = .ok again ∧
      loads rt again = loads rt out
  sufficient : ∀ message params name spec, loads rt line = .ok (.obj message) →
    Calls tools message params name spec → Bare params → Accepted rt capabilities tools issued out

def Live (capabilities : RunRegistry) (runId : PyStr) : Prop :=
  ∃ run, capabilities.get runId = some run ∧ run.finished = false

/-- The call can be written with a token and is read back as it was; where the caller supplied
nothing, the names of the run and of the scope are read back as names that count. -/
structure Rewritable (rt : Runtime) (capabilities : RunRegistry) (runId : PyStr) (issued : Int)
    (message params : Mapping) (spec : ToolSpec σ) : Prop where
  expiry : shortInt (issued + defaultTtlSeconds) = true
  room : (Json.obj message).depth ≤ rt.dumpsRoom
  unpaired : AllUnpaired (.obj message)
  named : Bare params → Live capabilities (joinSurrogates runId) ∧ Unpaired spec.scope

theorem supplements_added (params : Mapping) (runId scope token : PyStr) :
    Supplements params (added params runId scope token) := by
  refine ⟨?_, fun field => ⟨?_, ?_⟩⟩
  · refine List.Nodup.sublist (List.filter_sublist.map _) ?_
    change [py "run_id", py "scope", py "token"].Nodup
    decide
  · intro h
    obtain ⟨entry, hentry, rfl⟩ := List.mem_map.mp h
    exact mem_added hentry
  · rintro ⟨hfield, hnone⟩
    have hdefault : ∃ entry ∈ defaults runId scope token, entry.1 = field := by
      simp only [capabilityFields, List.mem_cons, List.not_mem_nil, or_false] at hfield
      rcases hfield with rfl | rfl | rfl
      · exact ⟨(py "run_id", .str runId), by simp [defaults], rfl⟩
      · exact ⟨(py "token", .str token), by simp [defaults], rfl⟩
      · exact ⟨(py "scope", .str scope), by simp [defaults], rfl⟩
    obtain ⟨entry, hentry, rfl⟩ := hdefault
    exact List.mem_map.mpr ⟨entry, List.mem_filter.mpr ⟨hentry, by rw [hnone]; rfl⟩, rfl⟩

theorem get_append_added {field : PyStr} (hfield : field ∈ capabilityFields) :
    Assoc.get (params ++ added params runId scope token) field ≠ none := by
  intro hnone
  rw [Assoc.get_append, Option.or_eq_none_iff] at hnone
  obtain ⟨entry, hentry, rfl⟩ := List.mem_map.mp
    (((supplements_added params runId scope token).keys field).mpr ⟨hfield, hnone.1⟩)
  exact Assoc.ne_of_get_none hnone.2 entry hentry rfl

theorem added_of_present (h : ∀ field ∈ capabilityFields, Assoc.get params field ≠ none) :
    added params runId scope token = [] := by
  refine List.eq_nil_iff_forall_not_mem.mpr fun field hfield => ?_
  obtain ⟨hmem, hnone⟩ := mem_added hfield
  exact h _ hmem hnone

theorem get_withCapability :
    Assoc.get (withCapability message params runId scope token) (py "params") =
      some (.obj (params ++ added params runId scope token)) := by
  rw [withCapability_eq, Assoc.get_set_self]

theorem calls_withCapability (h : Calls tools message params name spec) :
    Calls tools (withCapability message params runId scope token)
      (params ++ added params runId scope token) name spec := by
  refine ⟨?_, get_withCapability, ?_, h.registered⟩
  · rw [withCapability_eq, Assoc.get_set_of_ne _ _ (by decide), h.asked]
  · rw [Assoc.get_append, h.named, Option.some_or]

/-- A call that lacks no field is written as it is. -/
theorem withCapability_of_present (hparams : Assoc.get message (py "params") = some (.obj params))
    (h : ∀ field ∈ capabilityFields, Assoc.get params field ≠ none) :
    withCapability message params runId scope token = message := by
  rw [withCapability_eq, added_of_present h, List.append_nil, Assoc.set_of_get hparams]

/-- A call with the fields is passed, or written as it is. -/
theorem inject_again (hfloats : FloatsReadBack rt) (hlive : Live capabilities runId)
    {run scope' token' out : PyStr} {later : Int}
    (hout : loads rt out = .ok (.obj (withCapability message params run scope' token')))
    (hroom : (Json.obj (withCapability message params run scope' token')).depth ≤ rt.dumpsRoom)
    (hunpaired : AllUnpaired (.obj (withCapability message params run scope' token')))
    (hexpiry : shortInt (later + defaultTtlSeconds) = true) :
    ∃ again, injectCapability rt capabilities tools runId out later = .ok again ∧
      loads rt again = loads rt out := by
  cases htarget : mintTarget tools (withCapability message params run scope' token') with
  | none => exact ⟨out, inject_passed hout htarget, rfl⟩
  | some target =>
      obtain ⟨held, name, spec⟩ := target
      have hheld := params_of_mintTarget htarget
      have hsame := Json.obj.inj (Option.some.inj (hheld.symm.trans get_withCapability))
      have hpresent : ∀ field ∈ capabilityFields, Assoc.get held field ≠ none :=
        fun field hfield => hsame ▸ get_append_added hfield
      have hpositive : 0 < rt.dumpsRoom := lt_of_lt_of_le (Nat.succ_pos _) hroom
      obtain ⟨token, htoken⟩ : ∃ token, capabilities.issue rt runId name spec.scope
          defaultTtlSeconds later = .ok token := (issue_returns_iff hpositive).mpr ⟨hlive, hexpiry⟩
      obtain ⟨again, hagain, hloads⟩ := inject_minted hfloats hout htarget htoken hroom
      refine ⟨again, hagain, ?_⟩
      rw [hloads, withCapability_of_present hheld hpresent,
        reread_of_unpaired (loads_distinctKeys hout) hunpaired, hout]

theorem unpaired_token {secret : Bytes} {capability : Capability}
    (h : issueToken rt secret capability = .ok token) : Unpaired token := by
  obtain ⟨text, hissued⟩ := issued_of_issueToken h
  have hencoded : ∀ data, ∀ c ∈ Base64.encode data, c.val < 0xD800 := by
    intro data c hc
    have hascii := List.all_eq_true.mp (Base64.isAscii_encode data) c hc
    exact (of_decide_eq_true hascii).trans (by decide)
  have hversion : tokenVersion = [cp 'v', cp '1'] := rfl
  refine unpaired_of_low ?_
  rw [hissued.framed, hversion]
  simp only [List.forall_mem_append, List.forall_mem_cons, List.not_mem_nil, false_implies,
    implies_true, and_true]
  exact ⟨⟨by decide, by decide⟩, by decide, hencoded _, by decide, hencoded _⟩

/-- What the parameters of a bare call become. -/
theorem added_of_bare (h : Bare params) :
    added params runId scope token = defaults runId scope token := by
  refine List.filter_eq_self.mpr fun field hfield => ?_
  have hmem : field.1 ∈ capabilityFields := by
    simp only [defaults, List.mem_cons, List.not_mem_nil, or_false] at hfield
    rcases hfield with rfl | rfl | rfl
    · simp [capabilityFields]
    · simp [capabilityFields]
    · simp [capabilityFields]
  rw [h _ hmem]
  rfl

theorem get_bare (h : Bare params) {field : PyStr} (hfield : field ∈ capabilityFields) :
    Assoc.get (params ++ added params runId scope token) field =
      Assoc.get (defaults runId scope token) field := by
  rw [Assoc.get_append, h field hfield, Option.none_or, added_of_bare h]

/-- When the fields that a bare call is read back with let it pass. -/
theorem accepted_iff (hmac : ∀ key data, (rt.hmacSha256 key data).length = 32)
    (hroom : 0 < rt.loadsRoom) {out : PyStr}
    (hcalls : Calls tools message params name spec) (hname : Unpaired name) (hbare : Bare params)
    (htoken : capabilities.issue rt runId name spec.scope defaultTtlSeconds issued = .ok token)
    (hout : loads rt out = .ok (.obj (withCapability message params (joinSurrogates runId)
      (joinSurrogates spec.scope) (joinSurrogates token)))) :
    Accepted rt capabilities tools issued out ↔
      Live capabilities (joinSurrogates runId) ∧ Unpaired spec.scope := by
  have hsame : joinSurrogates token = token :=
    (joinSurrogates_eq_iff token).mpr (unpaired_token (issueToken_of_issue htoken))
  have hcheck : ∀ tool scope now, capabilities.check rt token tool scope now =
      .ok (capabilities.checkCapability ⟨joinSurrogates runId, joinSurrogates name,
        joinSurrogates spec.scope, issued + defaultTtlSeconds⟩ tool scope now) :=
    check_of_decoded (decodeToken_of_issue hmac hroom htoken)
  have hread : Calls tools (withCapability message params (joinSurrogates runId)
      (joinSurrogates spec.scope) (joinSurrogates token)) (params ++ added params
        (joinSurrogates runId) (joinSurrogates spec.scope) (joinSurrogates token)) name spec :=
    calls_withCapability hcalls
  constructor
  · rintro ⟨message', params', name', spec', runId', token', hloads, hcalls', -, htoken', hscope',
      hvalid⟩
    rw [hout] at hloads
    cases hloads
    have hparams := Json.obj.inj (Option.some.inj (hcalls'.carried.symm.trans hread.carried))
    subst hparams
    have hnames := Json.str.inj (Option.some.inj (hcalls'.named.symm.trans hread.named))
    subst hnames
    have hspec := Except.ok.inj (hcalls'.registered.symm.trans hcalls.registered)
    subst hspec
    rw [get_bare hbare (by simp [capabilityFields])] at htoken' hscope'
    have htokens : joinSurrogates token = token' := Json.str.inj (Option.some.inj htoken')
    have hscopes : joinSurrogates spec'.scope = spec'.scope :=
      Json.str.inj (Option.some.inj hscope')
    obtain ⟨check, hchecked, hok⟩ := hvalid issued le_rfl (Int.le_add_of_nonneg_right (by decide))
    rw [← htokens, hsame, hcheck] at hchecked
    cases hchecked
    obtain ⟨holder, hholder, hopen, -⟩ := (checkCapability_valid_iff _ _ _ _ _).mp hok
    exact ⟨⟨holder, hholder, hopen⟩, (joinSurrogates_eq_iff _).mp hscopes⟩
  · rintro ⟨⟨holder, hholder, hopen⟩, hscope⟩
    have hscopes := (joinSurrogates_eq_iff _).mpr hscope
    have hnames := (joinSurrogates_eq_iff _).mpr hname
    refine ⟨_, _, name, spec, joinSurrogates runId, token, hout, hread, ?_, ?_, ?_, ?_⟩
    · rw [get_bare hbare (by simp [capabilityFields])]
      rfl
    · rw [get_bare hbare (by simp [capabilityFields]), hsame]
      rfl
    · rw [get_bare hbare (by simp [capabilityFields]), hscopes]
      rfl
    · intro now _ hlater
      refine ⟨_, hcheck _ _ _, ?_⟩
      rw [checkCapability_valid_iff]
      exact ⟨holder, hholder, hopen, hlater, hnames, hscopes⟩

theorem lacks_of_bare (h : Bare params) : capabilityFields.all (holdsText params) = false := by
  have hrun : Assoc.get params (py "run_id") = none := h _ (by simp [capabilityFields])
  simp [capabilityFields, holdsText, hrun]

theorem injects_of_unchanged
    (h : ∀ now, injectCapability rt capabilities tools runId line now = .ok line)
    (hbare : ∀ message params name spec, loads rt line = .ok (.obj message) →
      Calls tools message params name spec → ¬ Bare params) :
    Injects rt capabilities tools runId line issued line where
  conservative := .unchanged rfl
  passed := fun _ => rfl
  once := fun later _ => ⟨line, h later, rfl⟩
  sufficient := fun message params name spec hline hcalls hnone =>
    absurd hnone (hbare message params name spec hline hcalls)

theorem injects_of_rewritable (hfloats : FloatsReadBack rt)
    (hmac : ∀ key data, (rt.hmacSha256 key data).length = 32) (hlive : Live capabilities runId)
    (hline : loads rt line = .ok (.obj message))
    (htarget : mintTarget tools message = some (params, name, spec))
    (h : Rewritable rt capabilities runId issued message params spec) :
    ∃ out, injectCapability rt capabilities tools runId line issued = .ok out ∧
      Injects rt capabilities tools runId line issued out := by
  obtain ⟨hcalls, hlacks⟩ := mintTarget_iff.mp htarget
  have hpositive : 0 < rt.dumpsRoom := lt_of_lt_of_le (Nat.succ_pos _) h.room
  have hkeys := loads_distinctKeys hline
  obtain ⟨token, htoken⟩ : ∃ token, capabilities.issue rt runId name spec.scope
      defaultTtlSeconds issued = .ok token := (issue_returns_iff hpositive).mpr ⟨hlive, h.expiry⟩
  obtain ⟨out, hinject, hout⟩ := inject_minted hfloats hline htarget htoken h.room
  have hunpaired := allUnpaired_reread
    (.obj (withCapability message params runId spec.scope token))
  rw [reread_withCapability_of_unpaired hkeys h.unpaired hcalls.carried] at hout hunpaired
  have hparams := (allUnpaired_obj.mp h.unpaired _ (Assoc.mem_of_get hcalls.carried)).2
  refine ⟨out, hinject, ?_, ?_, ?_, ?_⟩
  · have hfilled := hout
    rw [withCapability_eq] at hfilled
    exact .extended hline hcalls.carried (supplements_added _ _ _ _) hfilled
  · intro hnone
    exact absurd hcalls (hnone message params name spec hline)
  · intro later hlater
    refine inject_again hfloats hlive hout ?_ hunpaired hlater
    rw [depth_withCapability hcalls.carried]
    exact h.room
  · intro message' params' name' spec' hline' hcalls' hbare
    cases hline.symm.trans hline'
    cases Json.obj.inj (Option.some.inj (hcalls.carried.symm.trans hcalls'.carried))
    cases Json.str.inj (Option.some.inj (hcalls.named.symm.trans hcalls'.named))
    have hname : AllUnpaired (.str name) :=
      (allUnpaired_obj.mp hparams _ (Assoc.mem_of_get hcalls.named)).2
    exact (accepted_iff hmac (lt_of_lt_of_le (Nat.succ_pos _) (loads_depth hline)) hcalls
      (of_decide_eq_true hname) hbare htoken hout).mpr (h.named hbare)

theorem rewritable_of_injects (hfloats : FloatsReadBack rt)
    (hmac : ∀ key data, (rt.hmacSha256 key data).length = 32)
    (hline : loads rt line = .ok (.obj message))
    (htarget : mintTarget tools message = some (params, name, spec)) {out : PyStr}
    (hinject : injectCapability rt capabilities tools runId line issued = .ok out)
    (h : Injects rt capabilities tools runId line issued out) :
    Rewritable rt capabilities runId issued message params spec := by
  obtain ⟨hcalls, hlacks⟩ := mintTarget_iff.mp htarget
  obtain ⟨hroom, token, htoken⟩ := token_of_injected hline htarget hinject
  have hpositive : 0 < rt.dumpsRoom := lt_of_lt_of_le (Nat.succ_pos _) hroom
  obtain ⟨text, htext, hout⟩ := inject_minted hfloats hline htarget htoken hroom
  cases hinject.symm.trans htext
  have hread := allUnpaired_reread (.obj (withCapability message params runId spec.scope token))
  have hunpaired : AllUnpaired (.obj message) := by
    cases h.conservative with
    | unchanged hsame =>
        rw [← hsame, hout] at hline
        exact Except.ok.inj hline ▸ hread
    | extended hline' hparams hextra hout' =>
        cases hline.symm.trans hline'
        cases Json.obj.inj (Option.some.inj (hcalls.carried.symm.trans hparams))
        rw [Except.ok.inj (hout.symm.trans hout')] at hread
        have hmembers := allUnpaired_obj.mp hread
        have hfilled := hmembers _ (Assoc.mem_of_get (Assoc.get_set_self _ _ _))
        refine allUnpaired_obj.mpr fun field hfield => ?_
        by_cases hkey : field.1 = py "params"
        · have hget := Assoc.get_of_mem (Json.distinctKeys_of_field (loads_distinctKeys hline)).1
            (k := field.1) (v := field.2) hfield
          rw [hkey, hcalls.carried, Option.some.injEq] at hget
          rw [hkey, ← hget]
          exact ⟨hfilled.1, allUnpaired_obj.mpr fun member hmember =>
            allUnpaired_obj.mp hfilled.2 member (List.mem_append_left _ hmember)⟩
        · refine hmembers field (Assoc.mem_of_get (k := field.1) ?_)
          rw [Assoc.get_set_of_ne _ _ (Ne.symm hkey)]
          exact Assoc.get_of_mem (Json.distinctKeys_of_field (loads_distinctKeys hline)).1 hfield
  have hparams := (allUnpaired_obj.mp hunpaired _ (Assoc.mem_of_get hcalls.carried)).2
  have hname : AllUnpaired (.str name) :=
    (allUnpaired_obj.mp hparams _ (Assoc.mem_of_get hcalls.named)).2
  refine ⟨((issue_returns_iff hpositive).mp ⟨token, htoken⟩).2, hroom, hunpaired, ?_⟩
  intro hbare
  rw [reread_withCapability_of_unpaired (loads_distinctKeys hline) hunpaired hcalls.carried] at hout
  exact (accepted_iff hmac (lt_of_lt_of_le (Nat.succ_pos _) (loads_depth hline)) hcalls
    (of_decide_eq_true hname) hbare htoken hout).mp (h.sufficient _ _ _ _ hline hcalls hbare)

/-- For every live run and every line that is parsed or no JSON: the bootstrap keeps what the
caller supplied and suffices exactly when the call that it fills in is written and read back
as it was. -/
theorem injectCapability_rewritable_iff (hfloats : FloatsReadBack rt)
    (hmac : ∀ key data, (rt.hmacSha256 key data).length = 32) (hlive : Live capabilities runId)
    (hparsed : ∀ e, loads rt line = .error e → e.kind = .jsonDecodeError) :
    (∃ out, injectCapability rt capabilities tools runId line issued = .ok out ∧
      Injects rt capabilities tools runId line issued out) ↔
      ∀ message params name spec, loads rt line = .ok (.obj message) →
        Calls tools message params name spec → capabilityFields.all (holdsText params) = false →
          Rewritable rt capabilities runId issued message params spec := by
  constructor
  · rintro ⟨out, hinject, h⟩ message params name spec hline hcalls hlacks
    exact rewritable_of_injects hfloats hmac hline (mintTarget_iff.mpr ⟨hcalls, hlacks⟩) hinject h
  · intro h
    cases hline : loads rt line with
    | error e =>
        refine ⟨line, ?_, injects_of_unchanged (fun now => ?_) ?_⟩
        · rw [injectCapability, hline]
          simp only [hparsed e hline, if_true]
        · rw [injectCapability, hline]
          simp only [hparsed e hline, if_true]
        · intro message _ _ _ hobject
          rw [hline] at hobject
          cases hobject
    | ok v =>
        cases v with
        | obj message =>
            cases htarget : mintTarget tools message with
            | none =>
                refine ⟨line, inject_passed hline htarget,
                  injects_of_unchanged (fun now => inject_passed hline htarget) ?_⟩
                intro other params name spec hother hcalls hbare
                cases hline.symm.trans hother
                rw [mintTarget_iff.mpr ⟨hcalls, lacks_of_bare hbare⟩] at htarget
                cases htarget
            | some target =>
                obtain ⟨params, name, spec⟩ := target
                obtain ⟨hcalls, hlacks⟩ := mintTarget_iff.mp htarget
                exact injects_of_rewritable hfloats hmac hlive hline htarget
                  (h message params name spec hline hcalls hlacks)
        | _ =>
            refine ⟨line, by rw [injectCapability, hline], injects_of_unchanged (fun now => by
              rw [injectCapability, hline]) ?_⟩
            intro message _ _ _ hobject
            rw [hline] at hobject
            cases hobject

/-- A runtime that knows the signature of one token and reads every float as zero. -/
def bridgeRuntime : Runtime where
  __ := macRuntime Skills.issuedPart readMac
  floatRepr := fun _ => py "0.0"

def bareLine : PyStr :=
  py "\x7b\"method\": \"tools/call\", " ++
    py "\"params\": \x7b\"name\": \"read_artifact\"\x7d\x7d"

def bareParams : Mapping := [(py "name", .str (py "read_artifact"))]

def bareMessage : Mapping :=
  [(py "method", .str (py "tools/call")), (py "params", .obj bareParams)]

theorem loads_bareLine :
    loads bridgeRuntime (PyStr.strip bareLine) = .ok (.obj bareMessage) :=
  ok_of_toOption (by decide +kernel)

theorem sampleExecutor_tool {name : PyStr} {spec : ToolSpec Unit}
    (h : Skills.sampleExecutor.tools.get name = .ok spec) : spec = Skills.readTool := by
  have hmem : (name, spec) ∈ [(py "read_artifact", Skills.readTool)] := by
    rw [ToolRegistry.get] at h
    split at h
    · rename_i found hfound
      cases h
      exact Assoc.mem_of_get hfound
    · cases h
  exact (Prod.mk.inj (List.mem_singleton.mp hmem)).2

theorem bridgeRuntime_readBack : FloatsReadBack bridgeRuntime :=
  floatsReadBack_of fun _ => floatText_zero bridgeRuntime fun _ => rfl

theorem bridgeRuntime_mac (key data : Bytes) : (bridgeRuntime.hmacSha256 key data).length = 32 := by
  change (if _ then _ else _ : Bytes).length = 32
  split
  · exact Vector.length_toList
  · exact List.length_replicate

theorem firstRun_live :
    Live (RunRegistry.replay Skills.sampleSecret Skills.twoRuns) (py "RUN-aaaaaa") :=
  ⟨⟨py "RUN-aaaaaa", Skills.sampleActor "implementer" "implementer", 1000, false⟩, rfl, rfl⟩

/-- For every live run and every line without surrogates that is parsed or no JSON: the
bootstrap keeps what the caller supplied and suffices, where the tools name scopes and the
run a name without paired surrogates, the clock can be printed, and `json.dumps` follows
whatever nesting `json.loads` did. -/
theorem injectCapability_conservative (hfloats : FloatsReadBack rt)
    (hmac : ∀ key data, (rt.hmacSha256 key data).length = 32)
    (hroom : rt.loadsRoom ≤ rt.dumpsRoom) (hlive : Live capabilities runId)
    (hrun : Unpaired runId)
    (hscopes : ∀ name spec, tools.get name = .ok spec → Unpaired spec.scope)
    (hclock : shortInt (issued + defaultTtlSeconds) = true)
    (hencodable : PyStr.encodable line = true)
    (hparsed : ∀ e, loads rt line = .error e → e.kind = .jsonDecodeError) :
    ∃ out, injectCapability rt capabilities tools runId line issued = .ok out ∧
      Injects rt capabilities tools runId line issued out := by
  refine (injectCapability_rewritable_iff hfloats hmac hlive hparsed).mpr ?_
  intro message params name spec hline hcalls _
  refine ⟨hclock, (loads_depth hline).trans hroom, loads_unpaired hencodable hline, ?_⟩
  intro _
  rw [(joinSurrogates_eq_iff runId).mpr hrun]
  exact ⟨hlive, hscopes name spec hcalls.registered⟩

/-- What the bridge takes from a line over bytes holds no surrogate. -/
theorem encodable_stripped (data : Bytes) :
    PyStr.encodable (PyStr.strip (Line.bytes data).read) = true := by
  have hread := Utf8.encodable_decodeReplace data
  rw [PyStr.encodable, List.all_eq_true] at hread ⊢
  intro c hc
  have hfront := (List.dropWhile_sublist _).mem (List.mem_reverse.mp hc)
  exact hread c ((List.dropWhile_sublist _).mem (List.mem_reverse.mp hfront))

theorem bareLine_injected :
    ∃ out, injectCapability bridgeRuntime (RunRegistry.replay Skills.sampleSecret Skills.twoRuns)
        Skills.sampleExecutor.tools (py "RUN-aaaaaa")
        (PyStr.strip (sampleInput bareLine).line.read) 1000 = .ok out ∧
      Injects bridgeRuntime (RunRegistry.replay Skills.sampleSecret Skills.twoRuns)
        Skills.sampleExecutor.tools (py "RUN-aaaaaa")
        (PyStr.strip (sampleInput bareLine).line.read) 1000 out := by
  refine injectCapability_conservative bridgeRuntime_readBack bridgeRuntime_mac (by decide)
    firstRun_live (by decide) ?_ (by decide) (encodable_stripped _) ?_
  · intro name spec hspec
    rw [sampleExecutor_tool hspec]
    decide
  · intro e h
    rw [sampleInput_read (by decide +kernel), loads_bareLine] at h
    cases h

end SecureSdlc.Mcp
