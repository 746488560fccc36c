import RoleQuery.Proofs.Filter.Correctness
import RoleQuery.Proofs.Paging.Reading
import RoleQuery.Proofs.Tables.Images

/-!
# What an answer discloses

An item of an answer shows values of a row, of the documents inside it and of the related
rows. At every level whose owner the catalog knows, each value belongs to a member that the
role may read, and so does each value of a cursor, with two exceptions. A member that is
selected without children is shown whole, with whatever the documents inside it hold, and a
cursor holds the primary key of the last row.
-/
namespace RoleQuery

/-! ## What is shown of a document -/

namespace Catalog

variable (catalog : Catalog) (role : String) (whole : List (Entity × String))

mutual

/-- What a role may be shown of a value whose documents belong to `owner`: of a document
the members that it may read, of a list the same of every item, and a scalar as it is.
Values whose owner the catalog does not know are not restricted, and the members in
`whole` are shown whole. -/
inductive Discloses : Option Entity → Json → Json → Prop where
  | same {owner : Option Entity} {value : Json}
      (h : owner = none ∨ (Value.ofJson? value).isSome) : Discloses owner value value
  | list {owner : Option Entity} {items : List Json} {shown : Json → Json}
      (h : ∀ item ∈ items, Discloses owner item (shown item)) :
      Discloses owner (.list items) (.list (items.map shown))
  | document {owner : Option Entity} {value : Json} {ms : Members}
      (h : ∀ m ∈ ms, DisclosesMember owner value m.2) : Discloses owner value (.object ms)

/-- A value that a role may be shown of a document that belongs to `owner`: what is shown of
one of its columns, which holds a member that the role may read. -/
inductive DisclosesMember : Option Entity → Json → Json → Prop where
  | unknown {value shown : Json} {column : String}
      (h : Discloses none ((value.get? column).getD .null) shown) : DisclosesMember none value shown
  | member {e : Entity} {value shown : Json} {name column : String}
      (permits : catalog.Permits role e name column) (keeps : e.Keeps column name)
      (h : Discloses (catalog.nestedEntity? e name) ((value.get? column).getD .null) shown) :
      DisclosesMember (some e) value shown
  | whole {e : Entity} {value : Json} {name column : String}
      (permits : catalog.Permits role e name column) (keeps : e.Keeps column name)
      (h : (e, name) ∈ whole) :
      DisclosesMember (some e) value ((value.get? column).getD .null)

end

end Catalog

section

variable {catalog : Catalog} {role : String} {whole : List (Entity × String)}

namespace Catalog

/-- A scalar is shown of the same scalar only. -/
theorem Discloses.eq_of_scalar {owner : Option Entity} {value shown : Json}
    (h : catalog.Discloses role whole owner value shown) (hscalar : (Value.ofJson? shown).isSome) :
    value = shown := by
  cases h with
  | same => rfl
  | list => cases hscalar
  | document => cases hscalar

/-- The values that are shown in a document of an entity are shown of
members of the entity. -/
theorem Discloses.member {e : Entity} {value : Json} {ms : Members}
    (h : catalog.Discloses role whole (some e) value (.object ms)) :
    ∀ m ∈ ms, catalog.DisclosesMember role whole (some e) value m.2 := by
  cases h with
  | same h => rcases h with h | h <;> cases h
  | document h => exact h

/-- Where nothing is shown whole, a value that is shown of a document is shown
of one of its columns. -/
theorem DisclosesMember.exists_column {e : Entity} {value shown : Json}
    (h : catalog.DisclosesMember role [] (some e) value shown) :
    ∃ name column, catalog.Permits role e name column ∧ e.Keeps column name ∧
      catalog.Discloses role [] (catalog.nestedEntity? e name) ((value.get? column).getD .null)
        shown := by
  cases h with
  | member permits keeps h => exact ⟨_, _, permits, keeps, h⟩
  | whole _ _ h => cases h

/-- What is shown of a scalar whose owner is not known holds no scalars other than null. -/
theorem DisclosesMember.eq_null {value shown : Json} (hvalue : (Value.ofJson? value).isSome)
    (hshown : (Value.ofJson? shown).isSome)
    (h : catalog.DisclosesMember role whole none value shown) : shown = .null := by
  cases h with
  | @unknown _ _ column h =>
    rw [← h.eq_of_scalar hshown]
    cases value with
    | list items => cases hvalue
    | object ms => cases hvalue
    | null => rfl
    | bool b => rfl
    | int n => rfl
    | float x => rfl
    | str s => rfl

end Catalog

namespace FieldMask

open MaskedField (Granted GrantedAll)

/-- The values that are shown of a row are those of the fields. -/
theorem mem_shapeFieldsInto {fields : List MaskedField} {shown : Members} {row : Json}
    {m : String × Json} (h : m ∈ shapeFieldsInto shown fields row) :
    m ∈ shown ∨ ∃ field ∈ fields,
      m.2 = shapeValue field ((row.get? field.column).getD .null) := by
  induction fields generalizing shown with
  | nil =>
    rw [shapeFieldsInto] at h
    exact .inl h
  | cons field rest ih =>
    rw [shapeFieldsInto] at h
    rcases ih h with h | ⟨other, hother, hvalue⟩
    · rcases Members.mem_insert h with h | h
      · exact .inl h
      · exact .inr ⟨field, List.mem_cons_self, h⟩
    · exact .inr ⟨other, List.mem_cons_of_mem field hother, hvalue⟩

/-- What fields show of a document, if each shows what the role may be shown. -/
theorem discloses_shapeFields {owner : Option Entity} {fields : List MaskedField} {value : Json}
    (h : ∀ field ∈ fields, catalog.DisclosesMember role whole owner value
      (shapeValue field ((value.get? field.column).getD .null))) :
    catalog.Discloses role whole owner value (.object (shapeFieldsInto [] fields value)) := by
  refine .document fun m hm => ?_
  rcases mem_shapeFieldsInto hm with hm | ⟨field, hfield, hvalue⟩
  · cases hm
  · rw [hvalue]
    exact h field hfield

/-- What a nested field shows of its value, if the fields below it show what
the role may be shown. -/
theorem discloses_shapeNested {owner : Option Entity} {fields : List MaskedField}
    (h : ∀ value : Json, ∀ field ∈ fields, catalog.DisclosesMember role whole owner value
      (shapeValue field ((value.get? field.column).getD .null)))
    (name output column : String) (relationship : Option Relationship)
    (entity object : Option String) (value : Json) :
    catalog.Discloses role whole owner value
      (shapeValue (.nested name output column relationship entity object fields) value) := by
  cases value with
  | list items => exact .list fun item _ => discloses_shapeFields (h item)
  | object ms => exact discloses_shapeFields (h (.object ms))
  | null => exact .same (.inr rfl)
  | bool b => exact .same (.inr rfl)
  | int n => exact .same (.inr rfl)
  | float x => exact .same (.inr rfl)
  | str s => exact .same (.inr rfl)

mutual

/-- A granted field shows what the role may be shown. -/
theorem disclosesMember_of_granted (hcolumns : catalog.ColumnsApart)
    (hnames : catalog.NamesApart) :
    (field : MaskedField) → (owner : Option Entity) → (∀ e ∈ owner, e ∈ catalog.entities) →
      Granted catalog role owner field → field.wholes catalog owner ⊆ whole →
      ∀ value : Json, catalog.DisclosesMember role whole owner value
        (shapeValue field ((value.get? field.column).getD .null))
  | .plain name output column relationship, none, _, _, _ => fun value =>
      .unknown (.same (.inl rfl))
  | .plain name output column relationship, some e, howner, hgranted, hwhole => by
    intro value
    rw [Granted] at hgranted
    obtain ⟨hpermits, -⟩ := hgranted e rfl
    have hkeeps := Catalog.keeps_of_columnOf hcolumns hnames (howner e rfl) hpermits.column
    cases hinner : catalog.nestedEntity? e name with
    | none => exact .member hpermits hkeeps (.same (.inl hinner))
    | some inner =>
      refine .whole hpermits hkeeps (hwhole ?_)
      simp [MaskedField.wholes, hinner]
  | .nested name output column relationship entity object fields, none, _, _, hwhole => by
    intro value
    refine .unknown (discloses_shapeNested ?_ _ _ _ _ _ _ _)
    exact fun inner field hfield => disclosesMember_of_grantedAll hcolumns hnames fields none
      (by simp) (MaskedField.grantedAll_none fields) hwhole field hfield inner
  | .nested name output column relationship entity object fields, some e, howner, hgranted,
      hwhole => by
    intro value
    rw [Granted] at hgranted
    obtain ⟨hpermits, -, hint, -, hfields⟩ := hgranted e rfl
    have hkeeps := Catalog.keeps_of_columnOf hcolumns hnames (howner e rfl) hpermits.column
    have hinner : GrantedAll catalog role (catalog.nestedEntity? e name) fields := by
      cases hinner : catalog.nestedEntity? e name with
      | none => exact MaskedField.grantedAll_none fields
      | some inner => rwa [Catalog.nestedEntity?_hint hinner hint] at hfields
    have hentities : ∀ i ∈ catalog.nestedEntity? e name, i ∈ catalog.entities := fun i hi =>
      Catalog.mem_entities_of_nestedEntity? hi
    refine .member hpermits hkeeps (discloses_shapeNested ?_ _ _ _ _ _ _ _)
    exact fun inner field hfield => disclosesMember_of_grantedAll hcolumns hnames fields _
      hentities hinner hwhole field hfield inner
termination_by structural field => field

/-- Granted fields show what the role may be shown. -/
theorem disclosesMember_of_grantedAll (hcolumns : catalog.ColumnsApart)
    (hnames : catalog.NamesApart) :
    (fields : List MaskedField) → (owner : Option Entity) → (∀ e ∈ owner, e ∈ catalog.entities) →
      GrantedAll catalog role owner fields → MaskedField.wholesAll catalog owner fields ⊆ whole →
      ∀ field ∈ fields, ∀ value : Json, catalog.DisclosesMember role whole owner value
        (shapeValue field ((value.get? field.column).getD .null))
  | [], _, _, _, _ => by simp
  | first :: rest, owner, howner, hgranted, hwhole => by
    rw [MaskedField.wholesAll, List.append_subset] at hwhole
    exact List.forall_mem_cons.2
      ⟨disclosesMember_of_granted hcolumns hnames first owner howner hgranted.1 hwhole.1,
        disclosesMember_of_grantedAll hcolumns hnames rest owner howner hgranted.2 hwhole.2⟩
termination_by structural fields => fields

end

/-- A granted mask shows of a document what the role may be shown, and the
members that it shows whole. -/
theorem discloses_shape (hcolumns : catalog.ColumnsApart) (hnames : catalog.NamesApart)
    {e : Entity} (he : e ∈ catalog.entities) {mask : FieldMask}
    (h : GrantedAll catalog role (some e) mask.fields) (value : Json) :
    catalog.Discloses role (MaskedField.wholesAll catalog (some e) mask.fields) (some e) value
      (mask.shape value) := by
  have howner : ∀ i ∈ some e, i ∈ catalog.entities := by
    rintro _ ⟨⟩
    exact he
  exact discloses_shapeFields fun field hfield =>
    disclosesMember_of_grantedAll hcolumns hnames mask.fields (some e) howner h
      (List.Subset.refl _) field hfield value

end FieldMask

end

/-! ## What an answer discloses -/

/-- What a role may be told of rows of an entity by a cursor: the position of one of them,
each value of which belongs to a field that the role may read or that is part of the primary
key; or a number of rows. -/
inductive CursorPayload.Discloses (catalog : Catalog) (role : String) (e : Entity)
    (rows : List Json) : CursorPayload → Prop where
  | position {fields : List CursorField} {row : Json} (hrow : row ∈ rows)
      (h : ∀ c ∈ fields, ∃ f ∈ e.fields, c.field = f.name ∧
        (f.isKey ∨ catalog.allows role .read e f.name) ∧
        Value.ofJson? ((row.get? f.column).getD .null) = some c.value) :
      Discloses catalog role e rows (.keyset fields)
  | offset (n : Nat) : Discloses catalog role e rows (.continuation (toString n))

namespace Catalog

/-- The related rows that granted fields show are not fetched under the name of a column. -/
theorem column_ne_of_grantedAll {catalog : Catalog} {role : String} (hnames : catalog.NamesApart)
    {e : Entity} (he : e ∈ catalog.entities) {fields : List MaskedField}
    (h : MaskedField.GrantedAll catalog role (some e) fields) {f : Field} (hf : f ∈ e.fields) :
    ∀ field ∈ fields, field.relationship?.isSome → field.column ≠ f.column := by
  intro field hfield hr hcolumn
  obtain ⟨hpermits, hrelationship⟩ := (MaskedField.grantedAll_iff.1 h field hfield).permits
  rw [hrelationship] at hr
  have hname := hpermits.column
  rw [FieldMask.columnOf, if_pos hr, Except.ok.injEq] at hname
  rw [hname, hcolumn, hnames e he f hf] at hr
  cases hr

/-- The fields of the ordering of a read are those that the role may read and
those of the primary key. -/
theorem exists_field_of_order {catalog : Catalog} {role : String} {e : Entity}
    {orderBy : List OrderBy} {order : List OrderKey}
    (h : Pagination.resolveOrder e orderBy = .ok order)
    (hcheck : Access.checkOrder catalog role .read e (orderBy.map (·.field)) = .ok ())
    {key : OrderKey} (hkey : key ∈ order) :
    ∃ f ∈ e.fields, (f.isKey ∨ catalog.allows role .read e f.name) ∧
      key.field = f.name ∧ key.column = f.column := by
  obtain ⟨f, hf, hstems, hfield, hcolumn⟩ := Pagination.exists_field_of_resolveOrder h hkey
  exact ⟨f, hf, hstems.imp_right (allows_of_checkOrder hcheck f.name), hfield, hcolumn⟩

/-- An answer discloses what the role may read. Each item shows of a row that is asked for, at
every level, what the role may be shown, and besides that the members that are selected whole.
The cursor tells the position of such a row, or a number of rows. -/
theorem discloses_of_answer {config : Config} {catalog : Catalog}
    (hconfig : ofConfig config = .ok catalog) (hnames : catalog.NamesApart)
    {request : ReadRequest} {caller : Caller} {q : CompiledRead}
    (hcompile : catalog.compileRead request caller = .ok q) {t : Tables} {body : Json}
    (hanswer : q.answer t = .ok body) :
    ∃ e, catalog.entity? request.entity = some e ∧
      (∀ item ∈ itemsOf body, ∃ row ∈ t.matching q.plan, ∃ document,
        catalog.Image t e row document ∧
        catalog.Discloses caller.role
          (MaskedField.wholesAll catalog (some e) q.plan.mask.fields) (some e) document item) ∧
      ∀ cursor, body.get? "endCursor" = some (.str cursor) → ∃ payload : CursorPayload,
        cursor = payload.encode ∧ (payload.fits → CursorPayload.decode cursor = .ok payload) ∧
        payload.Discloses catalog caller.role e (t.matching q.plan) := by
  rw [compileRead] at hcompile
  obtain ⟨plan, hplan, hcompile⟩ := Except.bind_eq_ok_iff.1 hcompile
  obtain ⟨statement, -, hcompile⟩ := Except.bind_eq_ok_iff.1 hcompile
  cases hcompile
  obtain ⟨e, filter, authorized, predicate, pagination, hentity, -, hauthorized, -, hpagination,
    rfl⟩ := planRead_eq_ok_iff.1 hplan
  have he : e ∈ catalog.entities := List.mem_of_find?_eq_some hentity
  obtain ⟨hmask, hselected, horder⟩ := authorizeRead_spec hauthorized
  have hgranted := grantedAll_of_checkSelections (some e) authorized.selection hselected _ hmask
  obtain ⟨fetched, page, hfetched, hpage, rfl⟩ := CompiledRead.of_answer hanswer
  obtain ⟨hrows, htokens⟩ := Tables.of_query hfetched
  obtain ⟨hitems, hcursors⟩ := Page.of_assemble hpage
  refine ⟨e, hentity, fun item hitem => ?_, fun cursor hcursor => ?_⟩
  · rw [Service.itemsOf_body] at hitem
    obtain ⟨document, hdocument, rfl⟩ := List.mem_map.1 hitem
    obtain ⟨row, hrow, rfl⟩ := hrows document (hitems document hdocument)
    exact ⟨row, hrow, _, Tables.image_fetchRow hgranted row,
      FieldMask.discloses_shape (columnsApart_of_ofConfig hconfig) hnames he hgranted _⟩
  · rw [Service.endCursor_body] at hcursor
    have hend : page.endCursor = some cursor := by
      cases hend : page.endCursor <;> simp_all [Json.ofText?]
    rcases hcursors cursor hend with ⟨last, hlast, fields, hfields, rfl⟩ | ⟨token, htoken, rfl⟩
    · obtain ⟨row, hrow, rfl⟩ := hrows last hlast
      refine ⟨_, rfl, CursorPayload.decode_encode, .position hrow fun c hc => ?_⟩
      obtain ⟨key, hkey, hname, hvalue⟩ := Pagination.exists_key_of_positionOf hfields hc
      obtain ⟨f, hf, hallowed, hfield, hcolumn⟩ :=
        exists_field_of_order (Pagination.order_of_resolve hpagination) horder hkey
      rw [Tables.get?_fetchRow t hkey
        (hcolumn ▸ column_ne_of_grantedAll hnames he hgranted hf), hcolumn] at hvalue
      exact ⟨f, hf, hname.trans hfield, hallowed, hvalue⟩
    · obtain ⟨n, rfl⟩ := htokens token htoken
      exact ⟨_, rfl, CursorPayload.decode_encode, .offset n⟩

open Examples

/-- Berths with a fee that not everyone may know. -/
def berth : Entity :=
  .ofFields "Berth" "berths" .relational
    [⟨"id", "id", true, .scalar⟩, ⟨"pier", "pier", false, .scalar⟩, ⟨"fee", "fee", false, .scalar⟩]

/-- Ships and berths, of which anyone may read everything but the fee of a berth. -/
def portConfig : Config where
  settings := .default
  entities :=
    [("Berth", {
        object := "berths"
        backend := .relational
        displayNames := none
        fields := [⟨"id", none, true, .scalar, none⟩, ⟨"pier", none, false, .scalar, none⟩,
          ⟨"fee", none, false, .scalar, none⟩]
        relationships := []
        permissions := [⟨anonymousRole, [⟨"read", some ⟨none, ["fee"]⟩, none⟩]⟩]
        cache := none }),
      ("Ship", {
        object := "ships"
        backend := .relational
        displayNames := none
        fields := [⟨"id", none, true, .scalar, none⟩, ⟨"home", none, false, .object, some "Berth"⟩]
        relationships := []
        permissions := [⟨anonymousRole, [⟨"read", none, none⟩]⟩]
        cache := none })]

def port : Catalog :=
  (((Catalog.empty .default).addEntity berth).addEntity mooredShip).withPermissions
    ((PermissionTable.empty.grant "Berth" anonymousRole .read ⟨.all, .ofList ["fee"], none⟩).grant
      "Ship" anonymousRole .read ⟨.all, .empty, none⟩)

/-- A ship at its berth, and one that lies at none. -/
def moorings : Tables :=
  Tables.empty.put "ships"
    [.object [("id", .int 1),
        ("home", .object [("id", .int 5), ("pier", .int 2), ("fee", .int 900)])],
      .object [("id", .int 2)]]

/-- The piers of the ships, one on a page. -/
def shipPiers : ReadRequest where
  entity := "Ship"
  selection := [⟨"home", none, none, [.leaf "pier"]⟩]
  paging := { first := some 1 }

def shipBerths : ReadRequest where
  entity := "Ship"
  selection := [.leaf "home"]

/-- The piers of the ships are disclosed as they may be: nothing is shown whole. -/
theorem discloses_shipPiers :
    ∃ q body, port.compileRead shipPiers .anonymous = .ok q ∧ q.answer moorings = .ok body ∧
      itemsOf body = [.object [("home", .object [("pier", .int 2)])]] ∧
      (∀ item ∈ itemsOf body, ∃ row ∈ moorings.matching q.plan, ∃ document,
        port.Image moorings mooredShip row document ∧
        port.Discloses anonymousRole [] (some mooredShip) document item) ∧
      ∃ cursor, body.get? "endCursor" = some (.str cursor) ∧
        ∃ payload : CursorPayload, cursor = payload.encode ∧
          payload.Discloses port anonymousRole mooredShip (moorings.matching q.plan) := by
  have hconfig : ofConfig portConfig = .ok port := rfl
  have hnames : port.NamesApart := by
    unfold NamesApart
    decide
  refine ⟨_, _, rfl, rfl, rfl, ?_⟩
  obtain ⟨e, hentity, hitems, hcursor⟩ := discloses_of_answer hconfig hnames
    (show port.compileRead shipPiers .anonymous = .ok _ from rfl)
    (show CompiledRead.answer moorings _ = .ok _ from rfl)
  obtain rfl : mooredShip = e := Option.some.inj hentity
  refine ⟨hitems, _, rfl, ?_⟩
  obtain ⟨payload, hencode, -, hdiscloses⟩ := hcursor _ rfl
  exact ⟨payload, hencode, hdiscloses⟩

/-- What is fetched of a ship is held by its columns alone: ships have no relationships. -/
theorem get?_of_image_mooredShip {row document : Json}
    (h : port.Image moorings mooredShip row document) (column : String) :
    (document.get? column).getD .null = .null ∨
      (document.get? column).getD .null = (row.get? column).getD .null := by
  cases h with
  | @document _ _ ms held =>
    cases hvalue : Json.get? (.object ms) column with
    | none => exact .inl rfl
    | some value =>
      cases held column value hvalue with
      | column => exact .inr rfl
      | related hr => cases hr
      | relatedOne hr => cases hr
      | unrelated hr => cases hr

/-- Nothing that may be shown of a berth is the number 900, if only the fee is that number. -/
theorem not_disclosesMember_fee {value : Json}
    (hvalue : ∀ column, (value.get? column).getD .null = .int 900 → column = "fee") :
    ¬ port.DisclosesMember anonymousRole [] (some berth) value (.int 900) := by
  intro h
  obtain ⟨name, column, permits, keeps, h⟩ := h.exists_column
  have hcolumn := hvalue column (h.eq_of_scalar rfl)
  have hname : "fee" = name := keeps.field ⟨"fee", "fee", false, .scalar⟩ (by decide) hcolumn.symm
  have hdenied : port.allows anonymousRole .read berth "fee" = false := by decide
  have hallowed := permits.allowed
  rw [← hname, hdenied] at hallowed
  cases hallowed

/-- The members of a ship are its fields. -/
theorem name_of_permits_mooredShip {name column : String}
    (h : port.Permits anonymousRole mooredShip name column) :
    name = "id" ∧ column = "id" ∨ name = "home" ∧ column = "home" := by
  have hcolumn := h.column
  rw [FieldMask.columnOf, if_neg (by simp [mooredShip, Entity.ofFields, Entity.relationship?])]
    at hcolumn
  cases hf : mooredShip.field? name with
  | none => rw [hf] at hcolumn; cases hcolumn
  | some f =>
    rw [hf] at hcolumn
    cases hcolumn
    have hmem := Entity.mem_fields_of_field? hf
    rw [← Entity.name_of_field? hf]
    simp only [mooredShip, Entity.ofFields, List.mem_cons, List.not_mem_nil, or_false] at hmem
    rcases hmem with rfl | rfl
    · exact .inl ⟨rfl, rfl⟩
    · exact .inr ⟨rfl, rfl⟩

/-- Whoever reads the berths of the ships is shown the fee of a berth, which anyone is denied:
it stands among the values of the berth, and belongs to no other field. -/
theorem not_discloses_shipBerths :
    ofConfig portConfig = .ok port ∧ ∃ q body, port.compileRead shipBerths .anonymous = .ok q ∧
      q.answer moorings = .ok body ∧ ∃ item ∈ itemsOf body, ∀ row ∈ moorings.rows "ships",
        ∀ document, port.Image moorings mooredShip row document →
          ¬ port.Discloses anonymousRole [] (some mooredShip) document item := by
  refine ⟨rfl, _, _, rfl, rfl, .object [("home", .object [("id", .int 5), ("pier", .int 2),
    ("fee", .int 900)])], List.mem_cons_self, ?_⟩
  intro row hrow document himage hitem
  have hrows : row = .object [("id", .int 1),
      ("home", .object [("id", .int 5), ("pier", .int 2), ("fee", .int 900)])] ∨
      row = .object [("id", .int 2)] := by simpa [moorings] using hrow
  obtain ⟨name, column, permits, keeps, hhome⟩ := (hitem.member _ List.mem_cons_self).exists_column
  have hheld := get?_of_image_mooredShip himage column
  generalize (document.get? column).getD .null = value at hhome hheld
  rcases name_of_permits_mooredShip permits with ⟨rfl, rfl⟩ | ⟨rfl, rfl⟩
  · -- the key of a ship has no members to show
    have hscalar : (Value.ofJson? value).isSome := by
      rcases hheld with rfl | rfl
      · rfl
      · rcases hrows with rfl | rfl <;> rfl
    cases hhome with
    | same => cases hscalar
    | document h =>
      have hnull := (h ("id", .int 5) List.mem_cons_self).eq_null hscalar rfl
      cases hnull
  · refine not_disclosesMember_fee (fun c hc => ?_) (hhome.member ("fee", .int 900) (by simp))
    rcases hheld with rfl | rfl
    · cases hc
    · rcases hrows with rfl | rfl
      · change (Members.get? [("id", .int 5), ("pier", .int 2), ("fee", .int 900)] c).getD .null =
          .int 900 at hc
        simp only [Members.get?] at hc
        split_ifs at hc <;> simp_all
      · cases hc

end Catalog

end RoleQuery
