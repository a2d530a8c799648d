import SecureSdlc.Core.JsonSpelling
import SecureSdlc.Core.Lexicographic

/-!
When two values have one canonical text. Sorting the members forgets their order and
nothing else: the text is read back, so values with the same text agree. UTF-8 tells the
texts apart. Values with floats are left out where a text is read.
-/

namespace SecureSdlc.Core

namespace Json

mutual

/-- Equal up to the order of the members of objects. -/
def Agree : Json → Json → Prop
  | .null, .null => True
  | .bool a, .bool b => a = b
  | .int a, .int b => a = b
  | .float a, .float b => a = b
  | .str a, .str b => a = b
  | .arr as, .arr bs => AgreeItems as bs
  | .obj as, .obj bs => as.length = bs.length ∧ AgreeFields as bs
  | _, _ => False

def AgreeItems : List Json → List Json → Prop
  | [], [] => True
  | a :: as, b :: bs => Agree a b ∧ AgreeItems as bs
  | _, _ => False

/-- Every member of the first has its counterpart in the second. -/
def AgreeFields : List (PyStr × Json) → List (PyStr × Json) → Prop
  | [], _ => True
  | (k, a) :: as, bs => (∃ b, Assoc.get bs k = some b ∧ Agree a b) ∧ AgreeFields as bs

end

theorem agreeItems_iff {as bs : List Json} : AgreeItems as bs ↔ List.Forall₂ Agree as bs := by
  induction as generalizing bs with
  | nil =>
      cases bs with
      | nil => simp [AgreeItems]
      | cons b bs => simp [AgreeItems]
  | cons a as ih =>
      cases bs with
      | nil => simp [AgreeItems]
      | cons b bs => rw [AgreeItems, ih, List.forall₂_cons]

theorem agreeFields_iff {as bs : List (PyStr × Json)} :
    AgreeFields as bs ↔ ∀ field ∈ as, ∃ b, Assoc.get bs field.1 = some b ∧ Agree field.2 b := by
  induction as with
  | nil => simp [AgreeFields]
  | cons field as ih => rw [AgreeFields, ih, List.forall_mem_cons]

/-- The members of objects that agree, matched with one another. -/
theorem perm_of_agree {α : Type} {as bs : List (PyStr × Json)} {f : Json → α}
    (has : Assoc.Unique as) (hlength : as.length = bs.length)
    (h : ∀ field ∈ as, ∃ b, Assoc.get bs field.1 = some b ∧ f field.2 = f b) :
    (as.map fun field => (field.1, f field.2)).Perm (bs.map fun field => (field.1, f field.2)) := by
  have hnodup : (as.map fun field => (field.1, f field.2)).Nodup := by
    apply List.Nodup.of_map Prod.fst
    rw [List.map_map]
    exact has
  apply List.Subperm.perm_of_length_le
  · apply List.subperm_of_subset hnodup
    intro entry hentry
    obtain ⟨field, hfield, rfl⟩ := List.mem_map.mp hentry
    obtain ⟨b, hget, hsame⟩ := h field hfield
    exact List.mem_map.mpr ⟨(field.1, b), Assoc.mem_of_get hget, by rw [hsame]⟩
  · rw [List.length_map, List.length_map, hlength]

end Json

theorem PyStr.le_total (s t : PyStr) : PyStr.le s t = true ∨ PyStr.le t s = true := by
  induction s generalizing t with
  | nil => exact .inl rfl
  | cons a s ih =>
      cases t with
      | nil => exact .inr rfl
      | cons b t =>
          simp only [PyStr.le, Bool.or_eq_true, Bool.and_eq_true, decide_eq_true_eq]
          have hrest := ih t
          grind

theorem PyStr.le_trans {s t u : PyStr} (h : PyStr.le s t = true) (h' : PyStr.le t u = true) :
    PyStr.le s u = true := by
  induction s generalizing t u with
  | nil => rfl
  | cons a s ih =>
      cases t with
      | nil => cases h
      | cons b t =>
          cases u with
          | nil => cases h'
          | cons c u =>
              simp only [PyStr.le, Bool.or_eq_true, Bool.and_eq_true, decide_eq_true_eq] at h h' ⊢
              have hrest := @ih t u
              grind

theorem PyStr.le_antisymm {s t : PyStr} (h : PyStr.le s t = true) (h' : PyStr.le t s = true) :
    s = t := by
  induction s generalizing t with
  | nil =>
      cases t with
      | nil => rfl
      | cons b t => cases h'
  | cons a s ih =>
      cases t with
      | nil => cases h
      | cons b t =>
          simp only [PyStr.le, Bool.or_eq_true, Bool.and_eq_true, decide_eq_true_eq] at h h'
          obtain ⟨heq, hst⟩ := h.resolve_left (by omega)
          obtain ⟨-, hts⟩ := h'.resolve_left (by omega)
          rw [Fin.ext heq, ih hst hts]

instance PyStr.total_le : Std.Total fun a b : PyStr => PyStr.le a b = true where
  total := PyStr.le_total

instance PyStr.trans_le : IsTrans PyStr fun a b => PyStr.le a b = true where
  trans _ _ _ := PyStr.le_trans

/-- Texts that differ are sorted into a strict order. -/
theorem PyStr.strict_insertionSort {texts : List PyStr} (h : texts.Nodup) :
    (texts.insertionSort fun a b => PyStr.le a b).Pairwise
      fun a b => PyStr.le a b = true ∧ a ≠ b := by
  have hnodup : (texts.insertionSort fun a b => PyStr.le a b).Nodup :=
    (List.perm_insertionSort _ _).nodup_iff.mpr h
  exact (List.pairwise_insertionSort (fun a b => PyStr.le a b) _).and hnodup

namespace JsonText

/-- Members in the order of their keys. -/
def byKey {α : Type} (a b : PyStr × α) : Prop := PyStr.le a.1 b.1 = true

instance {α : Type} : DecidableRel (@byKey α) :=
  fun a b => inferInstanceAs (Decidable (PyStr.le a.1 b.1 = true))

instance {α : Type} : Std.Total (@byKey α) where
  total a b := PyStr.le_total a.1 b.1

instance {α : Type} : IsTrans (PyStr × α) byKey where
  trans _ _ _ := PyStr.le_trans

/-- Sorted members depend on the members only, where no key comes twice. -/
theorem inOrder_eq_of_perm {α : Type} {style : Style} (hsort : style.sortKeys = true)
    {as bs : List (PyStr × α)} (has : Assoc.Unique as) (h : as.Perm bs) :
    inOrder style as = inOrder style bs := by
  rw [inOrder, inOrder, if_pos hsort, if_pos hsort]
  refine Lexicographic.insertionSort_eq_of_perm (r := byKey) h ?_
  rintro ⟨k, a⟩ ha ⟨l, b⟩ hb hab hba
  obtain rfl : k = l := PyStr.le_antisymm hab hba
  have hget := Assoc.get_of_mem has ha
  rw [Assoc.get_of_mem has hb] at hget
  rw [Option.some.inj hget]

theorem inOrder_perm {α : Type} (style : Style) (fields : List (PyStr × α)) :
    (inOrder style fields).Perm fields := by
  rw [inOrder]
  split
  · exact List.perm_insertionSort _ fields
  · exact List.Perm.refl fields

theorem writeFields_of_writes {style : Style} {room : Nat} {fields : List (PyStr × Json)}
    (h : ∀ field ∈ fields, Writes style room field.2) :
    writeFields style room fields =
      .ok (fields.map fun field => (field.1, textOf style room field.2)) := by
  induction fields with
  | nil => rfl
  | cons field fields ih =>
      obtain ⟨k, v⟩ := field
      obtain ⟨hhead, hrest⟩ := List.forall_mem_cons.mp h
      rw [Writes] at hhead
      rw [writeFields, hhead, ih hrest]
      rfl

/-- Values that agree are written alike. -/
def WritesAlike (style : Style) (a : Json) : Prop :=
  ∀ room text b, a.distinctKeys = true → b.distinctKeys = true → Json.Agree a b →
    write style room a = .ok text → write style room b = .ok text

/-- A value without parts agrees with itself only. -/
theorem writesAlike_scalar {style : Style} {a : Json} (h : a.depth = 0) : WritesAlike style a := by
  intro room text b _ _ hagree hwrite
  cases a with
  | arr items => cases h
  | obj fields => cases h
  | null =>
      cases b with
      | null => exact hwrite
      | _ => cases hagree
  | bool x | int x | float x | str x =>
      cases b <;> cases hagree
      exact hwrite

theorem writeItems_alike {style : Style} {room : Nat} {as bs : List Json} {parts : List PyStr}
    (ih : ∀ a ∈ as, WritesAlike style a) (has : ∀ a ∈ as, a.distinctKeys = true)
    (hbs : ∀ b ∈ bs, b.distinctKeys = true) (hagree : List.Forall₂ Json.Agree as bs)
    (h : writeItems style room as = .ok parts) : writeItems style room bs = .ok parts := by
  induction hagree generalizing parts with
  | nil => exact h
  | cons hhead hrest ihrest =>
      rw [List.forall_mem_cons] at ih has hbs
      rw [writeItems] at h ⊢
      obtain ⟨text, htext, h⟩ := exists_ok_of_bind h
      obtain ⟨texts, htexts, h⟩ := exists_ok_of_bind h
      rw [ih.1 room text _ has.1 hbs.1 hhead htext, ihrest ih.2 has.2 hbs.2 htexts]
      exact h

theorem writesAlike_arr {style : Style} {as : List Json} (ih : ∀ a ∈ as, WritesAlike style a) :
    WritesAlike style (.arr as) := by
  intro room text b has hb hagree h
  cases b with
  | arr bs =>
      rw [Json.Agree, Json.agreeItems_iff] at hagree
      cases room with
      | zero => cases h
      | succ inner =>
          rw [write] at h ⊢
          obtain ⟨parts, hparts, h⟩ := exists_ok_of_bind h
          rw [writeItems_alike ih (fun _ ha => Json.distinctKeys_of_item has ha)
            (fun _ hmem => Json.distinctKeys_of_item hb hmem) hagree hparts]
          exact h
  | _ => cases hagree

/-- The members of an object that agrees with one that is written are written alike. -/
theorem writeFields_alike {style : Style} {room : Nat} {as bs : List (PyStr × Json)}
    (ih : ∀ field ∈ as, WritesAlike style field.2) (has : (Json.obj as).distinctKeys = true)
    (hbs : (Json.obj bs).distinctKeys = true) (hagree : Json.Agree (.obj as) (.obj bs))
    (h : ∀ field ∈ as, Writes style room field.2) :
    (as.map fun field => (field.1, textOf style room field.2)).Perm
        (bs.map fun field => (field.1, textOf style room field.2)) ∧
      ∀ field ∈ bs, Writes style room field.2 := by
  rw [Json.Agree, Json.agreeFields_iff] at hagree
  obtain ⟨hlength, hfields⟩ := hagree
  obtain ⟨hunique, hvalues⟩ := Json.distinctKeys_of_field has
  obtain ⟨hunique', hvalues'⟩ := Json.distinctKeys_of_field hbs
  have hwritten : ∀ field ∈ as, ∃ b, Assoc.get bs field.1 = some b ∧
      write style room b = .ok (textOf style room field.2) := by
    intro field hfield
    obtain ⟨b, hget, hagree⟩ := hfields field hfield
    exact ⟨b, hget, ih field hfield room _ b (hvalues field hfield)
      (hvalues' _ (Assoc.mem_of_get hget)) hagree (h field hfield)⟩
  have hperm := Json.perm_of_agree hunique hlength (f := textOf style room) fun field hfield => by
    obtain ⟨b, hget, hb⟩ := hwritten field hfield
    exact ⟨b, hget, (write_textOf hb).symm⟩
  refine ⟨hperm, ?_⟩
  rintro ⟨k, b⟩ hb
  have hmem : (k, textOf style room b) ∈ as.map fun field => (field.1, textOf style room field.2) :=
    hperm.mem_iff.mpr (List.mem_map.mpr ⟨(k, b), hb, rfl⟩)
  obtain ⟨⟨l, a⟩, ha, heq⟩ := List.mem_map.mp hmem
  obtain ⟨rfl, -⟩ := Prod.mk.inj heq
  obtain ⟨c, hget, hc⟩ := hwritten _ ha
  obtain rfl : b = c := Option.some.inj ((Assoc.get_of_mem hunique' hb).symm.trans hget)
  rw [Writes, hc, write_textOf hc]

theorem writesAlike_obj {style : Style} (hsort : style.sortKeys = true)
    {as : List (PyStr × Json)} (ih : ∀ field ∈ as, WritesAlike style field.2) :
    WritesAlike style (.obj as) := by
  intro room text b has hb hagree h
  cases b with
  | obj bs =>
      obtain ⟨inner, rfl, hwrites, -⟩ := write_obj h
      obtain ⟨hperm, hwrites'⟩ := writeFields_alike ih has hb hagree hwrites
      have hunique : Assoc.Unique
          (as.map fun field => (field.1, textOf style inner field.2)) := by
        rw [Assoc.Unique, List.map_map]
        exact (Json.distinctKeys_of_field has).1
      have horder := inOrder_eq_of_perm hsort hunique hperm
      rw [← h]
      simp only [inOrder, hsort, if_true] at horder
      rw [write, write, writeFields_of_writes hwrites, writeFields_of_writes hwrites']
      simp only [bind, Except.bind, hsort, if_true, horder]
  | _ => cases hagree

mutual

theorem writesAlike {style : Style} (hsort : style.sortKeys = true) :
    (a : Json) → WritesAlike style a
  | .null => writesAlike_scalar rfl
  | .bool _ => writesAlike_scalar rfl
  | .int _ => writesAlike_scalar rfl
  | .float _ => writesAlike_scalar rfl
  | .str _ => writesAlike_scalar rfl
  | .arr items => writesAlike_arr (writesAlike_items hsort items)
  | .obj fields => writesAlike_obj hsort (writesAlike_fields hsort fields)

theorem writesAlike_items {style : Style} (hsort : style.sortKeys = true) :
    (items : List Json) → ∀ a ∈ items, WritesAlike style a
  | [] => by simp
  | a :: rest => by
      rw [List.forall_mem_cons]
      exact ⟨writesAlike hsort a, writesAlike_items hsort rest⟩

theorem writesAlike_fields {style : Style} (hsort : style.sortKeys = true) :
    (fields : List (PyStr × Json)) → ∀ field ∈ fields, WritesAlike style field.2
  | [] => by simp
  | (_, a) :: rest => by
      rw [List.forall_mem_cons]
      exact ⟨writesAlike hsort a, writesAlike_fields hsort rest⟩

end

/-- Strings kept as they are, an object comes back with its members sorted. -/
theorem reread_obj {style : Style} (hraw : style.ensureAscii = false)
    {fields : List (PyStr × Json)} (h : Assoc.Unique fields) :
    reread style (.obj fields) =
      .obj (inOrder style (fields.map fun field => (field.1, reread style field.2))) := by
  have hkeep : ∀ members : List (PyStr × Json),
      (members.map fun field => (rereadText style.ensureAscii field.1, field.2)) = members := by
    intro members
    rw [hraw]
    exact List.map_id members
  have hunique : Assoc.Unique
      ([] ++ inOrder style (fields.map fun field => (field.1, reread style field.2))) := by
    rw [List.nil_append, Assoc.Unique, ((inOrder_perm style _).map Prod.fst).nodup_iff,
      List.map_map]
    exact h
  rw [reread, rereadFields_eq_map, hkeep, assignAll, Assoc.foldl_set_of_unique hunique,
    List.nil_append]

/-- Values that are read alike agree. -/
def ReadsAlike (style : Style) (a : Json) : Prop :=
  ∀ b, a.distinctKeys = true → b.distinctKeys = true → reread style a = reread style b →
    Json.Agree a b

theorem readsAlike_scalar {style : Style} (hraw : style.ensureAscii = false) {a : Json}
    (h : a.depth = 0) : ReadsAlike style a := by
  intro b _ _ hsame
  cases a with
  | arr items => cases h
  | obj fields => cases h
  | null => cases b <;> simp_all [reread, Json.Agree]
  | bool x => cases b <;> simp_all [reread, Json.Agree]
  | int x => cases b <;> simp_all [reread, Json.Agree]
  | float x => cases b <;> simp_all [reread, Json.Agree]
  | str x => cases b <;> simp_all [reread, rereadText, Json.Agree]

theorem readItems_alike {style : Style} {as bs : List Json} (ih : ∀ a ∈ as, ReadsAlike style a)
    (has : ∀ a ∈ as, a.distinctKeys = true) (hbs : ∀ b ∈ bs, b.distinctKeys = true)
    (h : as.map (reread style) = bs.map (reread style)) : List.Forall₂ Json.Agree as bs := by
  induction as generalizing bs with
  | nil =>
      cases bs with
      | nil => exact .nil
      | cons b bs => cases h
  | cons a as ihrest =>
      cases bs with
      | nil => cases h
      | cons b bs =>
          rw [List.forall_mem_cons] at ih has hbs
          rw [List.map_cons, List.map_cons, List.cons.injEq] at h
          exact .cons (ih.1 b has.1 hbs.1 h.1) (ihrest ih.2 has.2 hbs.2 h.2)

theorem readsAlike_arr {style : Style} {as : List Json} (ih : ∀ a ∈ as, ReadsAlike style a) :
    ReadsAlike style (.arr as) := by
  intro b has hb hsame
  cases b with
  | arr bs =>
      rw [reread, reread, rereadItems_eq_map, rereadItems_eq_map, Json.arr.injEq] at hsame
      rw [Json.Agree, Json.agreeItems_iff]
      exact readItems_alike ih (fun _ ha => Json.distinctKeys_of_item has ha)
        (fun _ hmem => Json.distinctKeys_of_item hb hmem) hsame
  | _ => simp [reread] at hsame

theorem readsAlike_obj {style : Style} (hraw : style.ensureAscii = false)
    {as : List (PyStr × Json)} (ih : ∀ field ∈ as, ReadsAlike style field.2) :
    ReadsAlike style (.obj as) := by
  intro b has hb hsame
  cases b with
  | obj bs =>
      obtain ⟨hunique, hvalues⟩ := Json.distinctKeys_of_field has
      obtain ⟨hunique', hvalues'⟩ := Json.distinctKeys_of_field hb
      rw [reread_obj hraw hunique, reread_obj hraw hunique', Json.obj.injEq] at hsame
      have hperm : (as.map fun field => (field.1, reread style field.2)).Perm
          (bs.map fun field => (field.1, reread style field.2)) := by
        refine (inOrder_perm style _).symm.trans ?_
        rw [hsame]
        exact inOrder_perm style _
      rw [Json.Agree, Json.agreeFields_iff]
      refine ⟨by simpa using hperm.length_eq, ?_⟩
      rintro ⟨k, a⟩ ha
      have hmem : (k, reread style a) ∈ bs.map fun field => (field.1, reread style field.2) :=
        hperm.mem_iff.mp (List.mem_map.mpr ⟨(k, a), ha, rfl⟩)
      obtain ⟨⟨l, b⟩, hfield, heq⟩ := List.mem_map.mp hmem
      obtain ⟨rfl, hread⟩ := Prod.mk.inj heq
      exact ⟨b, Assoc.get_of_mem hunique' hfield, ih _ ha b (hvalues _ ha) (hvalues' _ hfield)
        hread.symm⟩
  | _ =>
      rw [reread_obj hraw (Json.distinctKeys_of_field has).1] at hsame
      simp [reread] at hsame

mutual

theorem readsAlike {style : Style} (hraw : style.ensureAscii = false) :
    (a : Json) → ReadsAlike style a
  | .null => readsAlike_scalar hraw rfl
  | .bool _ => readsAlike_scalar hraw rfl
  | .int _ => readsAlike_scalar hraw rfl
  | .float _ => readsAlike_scalar hraw rfl
  | .str _ => readsAlike_scalar hraw rfl
  | .arr items => readsAlike_arr (readsAlike_items hraw items)
  | .obj fields => readsAlike_obj hraw (readsAlike_fields hraw fields)

theorem readsAlike_items {style : Style} (hraw : style.ensureAscii = false) :
    (items : List Json) → ∀ a ∈ items, ReadsAlike style a
  | [] => by simp
  | a :: rest => by
      rw [List.forall_mem_cons]
      exact ⟨readsAlike hraw a, readsAlike_items hraw rest⟩

theorem readsAlike_fields {style : Style} (hraw : style.ensureAscii = false) :
    (fields : List (PyStr × Json)) → ∀ field ∈ fields, ReadsAlike style field.2
  | [] => by simp
  | (_, a) :: rest => by
      rw [List.forall_mem_cons]
      exact ⟨readsAlike hraw a, readsAlike_fields hraw rest⟩

end

theorem agree_rereadObj {style : Style} (hraw : style.ensureAscii = false)
    {fields : List (PyStr × Json)} (hunique : Assoc.Unique fields)
    (ih : ∀ field ∈ fields, Json.Agree field.2 (reread style field.2)) :
    Json.Agree (.obj fields) (reread style (.obj fields)) := by
  have hperm := inOrder_perm style (fields.map fun field => (field.1, reread style field.2))
  rw [reread_obj hraw hunique, Json.Agree, Json.agreeFields_iff, hperm.length_eq, List.length_map]
  refine ⟨rfl, fun field hfield => ⟨reread style field.2, ?_, ih field hfield⟩⟩
  refine Assoc.get_of_mem ?_ (hperm.mem_iff.mpr (List.mem_map.mpr ⟨field, hfield, rfl⟩))
  rw [Assoc.Unique, (hperm.map Prod.fst).nodup_iff, List.map_map]
  exact hunique

mutual

/-- A value and what it is read back as agree. -/
theorem agree_reread {style : Style} (hraw : style.ensureAscii = false) :
    (v : Json) → v.distinctKeys = true → Json.Agree v (reread style v)
  | .null, _ => trivial
  | .bool _, _ => rfl
  | .int _, _ => rfl
  | .float _, _ => rfl
  | .str s, _ => by rw [reread, rereadText, hraw, if_neg Bool.false_ne_true, Json.Agree]
  | .arr items, h => by
      rw [Json.distinctKeys] at h
      rw [reread, Json.Agree]
      exact agree_rereadItems hraw items h
  | .obj fields, h => by
      rw [Json.distinctKeys, Bool.and_eq_true, decide_eq_true_eq] at h
      exact agree_rereadObj hraw h.1 (agree_rereadFields hraw fields h.2)

theorem agree_rereadItems {style : Style} (hraw : style.ensureAscii = false) :
    (items : List Json) → Json.distinctKeysItems items = true →
      Json.AgreeItems items (rereadItems style items)
  | [], _ => trivial
  | v :: rest, h => by
      rw [Json.distinctKeysItems, Bool.and_eq_true] at h
      exact ⟨agree_reread hraw v h.1, agree_rereadItems hraw rest h.2⟩

theorem agree_rereadFields {style : Style} (hraw : style.ensureAscii = false) :
    (fields : List (PyStr × Json)) → Json.distinctKeysFields fields = true →
      ∀ field ∈ fields, Json.Agree field.2 (reread style field.2)
  | [], _ => fun _ h => nomatch h
  | (_, v) :: rest, h => by
      rw [Json.distinctKeysFields, Bool.and_eq_true] at h
      rw [List.forall_mem_cons]
      exact ⟨agree_reread hraw v h.1, agree_rereadFields hraw rest h.2⟩

end

theorem readable_canonical : canonical.Readable :=
  ⟨⟨[], rfl, fun _ h => nomatch h⟩, ⟨[], rfl, fun _ h => nomatch h⟩⟩

/-- The canonical text of a value is that of the values that agree with it. -/
theorem dumps_canonical_iff {rt : Runtime} {a b : Json} (ha : a.distinctKeys = true)
    (hb : b.distinctKeys = true) (hfloat : FloatFree a) (hfloat' : FloatFree b) {text : PyStr}
    (h : dumps rt canonical a = .ok text) :
    dumps rt canonical b = .ok text ↔ Json.Agree a b := by
  constructor
  · intro h'
    have hread : loads { rt with loadsRoom := max a.depth b.depth } text =
        .ok (reread canonical a) :=
      loads_dumps readable_canonical hfloat (Nat.le_max_left _ _) h
    have hread' : loads { rt with loadsRoom := max a.depth b.depth } text =
        .ok (reread canonical b) :=
      loads_dumps readable_canonical hfloat' (Nat.le_max_right _ _) h'
    exact readsAlike rfl a b ha hb (Except.ok.inj (hread.symm.trans hread'))
  · intro hagree
    exact writesAlike rfl a rt.dumpsRoom text b ha hb hagree h

end JsonText

theorem PyStr.utf8Bytes_ne_nil (c : CodePoint) : PyStr.utf8Bytes c ≠ [] := by
  simp only [PyStr.utf8Bytes]
  split_ifs
  all_goals exact List.cons_ne_nil _ _

/-- A character's bytes, at the head of a text, tell it from every other. -/
theorem PyStr.utf8Bytes_append {c d : CodePoint} {rest rest' : Bytes}
    (h : PyStr.utf8Bytes c ++ rest = PyStr.utf8Bytes d ++ rest') : c = d ∧ rest = rest' := by
  have hc := c.isLt
  have hd := d.isLt
  have hbyte : ∀ m n, UInt8.ofNat m = UInt8.ofNat n → m % 256 = n % 256 := by
    intro m n heq
    simpa using congrArg UInt8.toNat heq
  simp only [PyStr.utf8Bytes] at h
  split_ifs at h
  all_goals simp only [List.cons_append, List.nil_append, List.cons.injEq] at h
  all_goals have hfirst := hbyte _ _ h.1
  all_goals try (exfalso; omega)
  · exact ⟨Fin.ext (by omega), h.2⟩
  · have hsecond := hbyte _ _ h.2.1
    exact ⟨Fin.ext (by omega), h.2.2⟩
  · have hsecond := hbyte _ _ h.2.1
    have hthird := hbyte _ _ h.2.2.1
    exact ⟨Fin.ext (by omega), h.2.2.2⟩
  · have hsecond := hbyte _ _ h.2.1
    have hthird := hbyte _ _ h.2.2.1
    have hfourth := hbyte _ _ h.2.2.2.1
    exact ⟨Fin.ext (by omega), h.2.2.2.2⟩

theorem PyStr.encodeUtf8_injective {s t : PyStr} {data : Bytes}
    (hs : PyStr.encodeUtf8 s = some data) (ht : PyStr.encodeUtf8 t = some data) : s = t := by
  have hbytes : ∀ {u : PyStr}, PyStr.encodeUtf8 u = some data →
      u.flatMap PyStr.utf8Bytes = data := by
    intro u hu
    rw [PyStr.encodeUtf8] at hu
    split at hu
    · exact Option.some.inj hu
    · cases hu
  have hsame := (hbytes hs).trans (hbytes ht).symm
  clear hs ht hbytes
  induction s generalizing t with
  | nil =>
      cases t with
      | nil => rfl
      | cons d t => exact absurd hsame (by simp [PyStr.utf8Bytes_ne_nil])
  | cons c s ih =>
      cases t with
      | nil => exact absurd hsame (by simp [PyStr.utf8Bytes_ne_nil])
      | cons d t =>
          rw [List.flatMap_cons, List.flatMap_cons] at hsame
          obtain ⟨rfl, hrest⟩ := PyStr.utf8Bytes_append hsame
          rw [ih hrest]

end SecureSdlc.Core
