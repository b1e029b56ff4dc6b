import SchemaPackage.Proofs.AttributeOrder
import SchemaPackage.Proofs.Markup.Reordering
import SchemaPackage.Proofs.Table.IndexColumns

/-!
Described tables whose attributes come in another order. The attributes of a table and of a column
set fields apart from each other, so that their order makes no difference. Those of an index may be
several for one field, as a name may also be called an old name and the case of keys does not count.
Then the last of them counts, and its order makes a difference.
-/
namespace SchemaPackage

open Outcome Markup

/-- Outside all namespaces, an attribute is found by its name alone. -/
theorem Markup.Element.attribute?_eq_firstValue? {e : Element}
    (hplain : ∀ a ∈ e.attributes, a.space = none) (name : Text) :
    e.attribute? name = firstValue? name e.attributeValues := by
  unfold Element.attribute? Element.attributeValues firstValue?
  generalize e.attributes = attributes at hplain ⊢
  induction attributes with
  | nil => rfl
  | cons a rest ih =>
    have ih := ih fun b hb => hplain b (List.mem_cons_of_mem _ hb)
    have hspace : a.space = none := hplain a List.mem_cons_self
    rw [List.find?_cons, List.map_cons, List.lookup_cons, hspace]
    by_cases hname : a.name = name
    · have hsame : (a.name == name) = true := beq_iff_eq.mpr hname
      have hsame' : (name == a.name) = true := beq_iff_eq.mpr hname.symm
      rw [hsame, hsame']
      rfl
    · have hother : (a.name == name) = false := beq_false_of_ne hname
      have hother' : (name == a.name) = false := beq_false_of_ne (Ne.symm hname)
      rw [hother, hother']
      exact ih

namespace Markup.Element.Reordered

variable {e e' : Element} (h : e.Reordered e')

include h

theorem attributeValues_perm : e.attributeValues.Perm e'.attributeValues :=
  h.attributes.perm.map _

theorem nodup_keys : (e.attributeValues.map Prod.fst).Nodup := by
  rw [attributeValues, List.map_map]
  exact h.attributes.distinct

theorem elements : List.Forall₂ Element.Reordered e.elements e'.elements :=
  List.rel_filterMap (fun _ _ hnode => rel_element? hnode) h.children

theorem named (tag : Text) : List.Forall₂ Element.Reordered (e.named tag) (e'.named tag) := by
  refine List.rel_filter (fun f f' hf => ?_) h.elements
  dsimp only
  rw [hf.tag]

theorem members (group tag : Text) : List.Forall₂ Element.Reordered
    (Description.members group tag e) (Description.members group tag e') :=
  List.rel_flatMap (h.named group) fun _ _ hf => hf.named tag

theorem text? : e.text? = e'.text? := by
  have hchildren := h.children
  unfold Element.text?
  generalize e.children = children at hchildren ⊢
  generalize e'.children = children' at hchildren ⊢
  cases hchildren with
  | nil => rfl
  | cons hnode _ => cases hnode <;> rfl

theorem attribute? (name : Text) : e.attribute? name = e'.attribute? name := by
  have hplain' : ∀ a ∈ e'.attributes, a.space = none := fun a ha =>
    h.attributes.plain a (h.attributes.perm.mem_iff.mpr ha)
  rw [attribute?_eq_firstValue? h.attributes.plain, attribute?_eq_firstValue? hplain',
    firstValue?_congr h.attributeValues_perm h.nodup_keys]

end Markup.Element.Reordered

namespace Description

/-- What is the same for elements one by one is the same for all of them. -/
theorem map_eq_of_reordered {β : Type} {f : Element → β} {l l' : List Element}
    (h : List.Forall₂ Element.Reordered l l') (hf : ∀ e e', e.Reordered e' → f e = f e') :
    l.map f = l'.map f := by
  induction h with
  | nil => rfl
  | cons he _ ih => rw [List.map_cons, List.map_cons, hf _ _ he, ih]

theorem documentation?_eq {e e' : Element} (h : e.Reordered e') :
    documentation? e = documentation? e' := by
  have hnamed := h.named "documentation"
  unfold documentation?
  generalize e.named "documentation" = l at hnamed ⊢
  generalize e'.named "documentation" = l' at hnamed ⊢
  cases hnamed with
  | nil => rfl
  | cons hfirst _ => exact hfirst.text?

theorem indexColumns_eq {e e' : Element} (h : e.Reordered e') :
    indexColumns e = indexColumns e' := by
  have hnames : (members "columns" "column" e).map (·.attribute? "name") =
      (members "columns" "column" e').map (·.attribute? "name") :=
    map_eq_of_reordered (h.members "columns" "column") fun _ _ hcolumn => hcolumn.attribute? "name"
  have hlisted : ∀ l : List Element, l.filterMap (·.attribute? "name") =
      (l.map (·.attribute? "name")).filterMap id := by
    intro l
    rw [List.filterMap_map]
    rfl
  rw [indexColumns, indexColumns, hlisted, hlisted, hnames]

theorem toOption_ofAttributes_eq {e e' : Element} (h : e.Reordered e') (order : Nat) :
    (Column.ofAttributes (columnAttributes e) order).toOption =
      (Column.ofAttributes (columnAttributes e') order).toOption := by
  have hchildren := map_eq_of_reordered (f := fun child => (child.tag, child.text?.getD []))
    h.elements fun _ _ hchild => by rw [hchild.tag, hchild.text?]
  rw [columnAttributes, columnAttributes, hchildren]
  exact Column.toOption_ofAttributes_congr h.attributeValues_perm h.nodup_keys _ order

theorem sameButFault_addColumns {elements elements' : List Element}
    (h : List.Forall₂ Element.Reordered elements elements') (t : Table) (ctx : Context) :
    SameButFault (fun _ => True) (addColumns t elements ctx) (addColumns t elements' ctx) := by
  induction h generalizing t ctx with
  | nil => exact .refl _
  | @cons e e' _ _ he _ ih =>
    have hcolumn : SameButFault (fun _ => True) (Column.createFrom (columnAttributes e) ctx)
        (Column.createFrom (columnAttributes e') ctx) :=
      ⟨.of_toOption_eq (toOption_ofAttributes_eq he ctx.nextOrder), rfl⟩
    exact hcolumn.bind fun c next _ => ih (t.addColumn c) next

/-- The index with the columns of its description, not yet in a table. -/
def placed (columns : Text) (i : Index) : Index :=
  { i with tableName := none, declaredColumns := some columns, tracked := false }

/-- Whether a field says where an index stands, which a description sets itself. -/
def isPlacing : Index.Field → Bool
  | .tableName => true
  | .columns => true
  | _ => false

/-- The same value comes last for each field that a description does not set itself. -/
def SettlesAlike (attributes attributes' : Attributes) : Prop :=
  ∀ field, isPlacing field = false → Index.Settles field attributes attributes'

/-- An element of an index in two orders of its attributes, with what is made of each. The indexes
agree wherever the same value comes last. -/
structure Twin where
  attributes : Attributes
  attributes' : Attributes
  columns : Text
  made : Index
  made' : Index
  ofAttributes : Index.ofAttributes attributes = .ok made
  ofAttributes' : Index.ofAttributes attributes' = .ok made'
  agree : ∀ field, Index.Settles field attributes attributes' → Index.Agree field made made'

namespace Twin

def index (w : Twin) : Index := placed w.columns w.made

def index' (w : Twin) : Index := placed w.columns w.made'

theorem index_eq (w : Twin) (h : SettlesAlike w.attributes w.attributes') :
    w.index = w.index' := by
  have hname : w.made.name = w.made'.name := w.agree .name (h .name rfl)
  have hkind : w.made.kind = w.made'.kind := w.agree .kind (h .kind rfl)
  have hstory : w.made.story = w.made'.story := w.agree .story (h .story rfl)
  have hrelease : w.made.release = w.made'.release := w.agree .release (h .release rfl)
  rw [index, index', placed, placed, hname, hkind, hstory, hrelease]

end Twin

/-- Only an element that lists columns describes an index. -/
def describesIndex (e : Element) : Bool := !(indexColumns e).isEmpty

def describedIndexes (elements : List Element) : List Attributes :=
  (elements.filter describesIndex).map Element.attributeValues

/-- The attributes of each index that a text describes. -/
def indexAttributes (text : Text) : List Attributes :=
  (document? text).elim [] fun root => describedIndexes (members "indexes" "index" root)

/-- A table gives an index its own name as that of its table. -/
theorem addIndex_placed (t : Table) (columns : Text) (i : Index) :
    t.addIndex (placed columns i) = t.addIndex { i with declaredColumns := some columns } := by
  unfold Table.addIndex Table.namedIndex placed Index.setTableName
  cases hname : i.name with
  | some name => cases requireValue "Index table name" t.name <;> rfl
  | none =>
    unfold Index.autoName Index.setName
    dsimp only
    cases normalizeName "Index" (Index.madeUpName i.kind t.name t.indexes.length) <;>
      cases requireValue "Index table name" t.name <;> rfl

theorem addIndexElement_eq {e : Element} (h : describesIndex e = true) (t : Table) :
    addIndexElement t e = (do
      let i ← Index.ofAttributes e.attributeValues
      requireValue "Index columns" (indexColumns e)
      t.addIndex (placed (indexColumns e) i)) := by
  have hcolumns : (indexColumns e).isEmpty = false := Bool.not_eq_eq_eq_not.mp h
  rw [addIndexElement, hcolumns, if_neg Bool.false_ne_true]
  simp only [addIndex_placed, Index.setColumns]
  cases requireValue "Index columns" (indexColumns e) <;> rfl

theorem describesIndex_eq {e e' : Element} (h : e.Reordered e') :
    describesIndex e = describesIndex e' := by
  rw [describesIndex, describesIndex, indexColumns_eq h]

/-- Both orders are refused, or the table is given an index by either. -/
theorem twin_of_reordered {e e' : Element} (h : e.Reordered e') (hindex : describesIndex e = true) :
    (∀ t, (addIndexElement t e).toOption = none ∧ (addIndexElement t e').toOption = none) ∨
      ∃ w : Twin, w.attributes = e.attributeValues ∧ w.attributes' = e'.attributeValues ∧
        ∀ t, addIndexElement t e = t.addIndex w.index ∧
          addIndexElement t e' = t.addIndex w.index' := by
  have haccepted := Index.isSome_ofAttributes_congr h.attributeValues_perm
  have hindex' : describesIndex e' = true := (describesIndex_eq h).symm.trans hindex
  simp only [addIndexElement_eq hindex, addIndexElement_eq hindex', ← indexColumns_eq h]
  rcases except_cases_of_isSome_eq haccepted with ⟨fault, fault', hi, hj⟩ | ⟨i, j, hi, hj⟩
  · rw [hi, hj]
    exact Or.inl fun t => ⟨rfl, rfl⟩
  · rw [hi, hj]
    cases requireValue "Index columns" (indexColumns e) with
    | error fault => exact Or.inl fun t => ⟨rfl, rfl⟩
    | ok _ =>
      exact Or.inr ⟨⟨e.attributeValues, e'.attributeValues, indexColumns e, i, j, hi, hj,
        fun field hsettles => Index.agree_of_settles h.attributeValues_perm hsettles hi hj⟩,
        rfl, rfl, fun t => ⟨rfl, rfl⟩⟩

/-- The table with further indexes, one after another. -/
def addAll (t : Table) (indexes : List Index) : Except Fault Table :=
  indexes.foldlM (fun t i => t.addIndex i) t

theorem addIndexes_of_not_describesIndex {e : Element} (h : describesIndex e = false) (t : Table)
    (rest : List Element) : addIndexes t (e :: rest) = addIndexes t rest := by
  have helement : addIndexElement t e = .ok t := if_pos (Bool.not_eq_eq_eq_not.mp h)
  rw [addIndexes_cons, helement]
  rfl

/-- Both orders are refused, or the table is given the same indexes but for their fields. -/
theorem twins_of_reordered {elements elements' : List Element}
    (h : List.Forall₂ Element.Reordered elements elements') :
    (∀ t, (addIndexes t elements).toOption = none ∧ (addIndexes t elements').toOption = none) ∨
      ∃ twins : List Twin, twins.map Twin.attributes = describedIndexes elements ∧
        twins.map Twin.attributes' = describedIndexes elements' ∧
        ∀ t, addIndexes t elements = addAll t (twins.map Twin.index) ∧
          addIndexes t elements' = addAll t (twins.map Twin.index') := by
  induction h with
  | nil => exact Or.inr ⟨[], rfl, rfl, fun t => ⟨rfl, rfl⟩⟩
  | @cons e e' rest rest' he _ ih =>
    cases hindex : describesIndex e with
    | false =>
      have hindex' : describesIndex e' = false := (describesIndex_eq he).symm.trans hindex
      rw [describedIndexes, describedIndexes, List.filter_cons_of_neg (Bool.eq_false_iff.mp hindex),
        List.filter_cons_of_neg (Bool.eq_false_iff.mp hindex')]
      simp only [addIndexes_of_not_describesIndex hindex, addIndexes_of_not_describesIndex hindex']
      exact ih
    | true =>
      have hindex' : describesIndex e' = true := (describesIndex_eq he).symm.trans hindex
      rw [describedIndexes, describedIndexes, List.filter_cons_of_pos hindex,
        List.filter_cons_of_pos hindex']
      simp only [addIndexes_cons, except_toOption_bind]
      rcases twin_of_reordered he hindex with hnone | ⟨w, hattributes, hattributes', hadd⟩
      · refine Or.inl fun t => ?_
        rw [(hnone t).1, (hnone t).2]
        exact ⟨rfl, rfl⟩
      · rcases ih with hnone | ⟨twins, htwins, htwins', haddAll⟩
        · refine Or.inl fun t => ?_
          simp only [hnone]
          exact ⟨Option.bind_fun_none _, Option.bind_fun_none _⟩
        · refine Or.inr ⟨w :: twins, ?_, ?_, fun t => ?_⟩
          · rw [List.map_cons, List.map_cons, hattributes, htwins, describedIndexes]
          · rw [List.map_cons, List.map_cons, hattributes', htwins', describedIndexes]
          · simp only [(hadd t).1, (hadd t).2, haddAll]
            exact ⟨rfl, rfl⟩

/-- The indexes are added in turn, whichever elements describe them. -/
theorem addAll_eq_ok {t u : Table} {indexes : List Index} (h : addAll t indexes = .ok u) :
    ∃ indexes', u = { t with indexes := indexes' } := by
  induction indexes generalizing t with
  | nil =>
    cases h
    exact ⟨_, rfl⟩
  | cons i rest ih =>
    obtain ⟨next, hnext, hrest⟩ := except_bind_eq_ok_iff.mp h
    obtain ⟨_, _, _, _, rfl⟩ := Table.addIndex_eq_ok hnext
    obtain ⟨indexes', rfl⟩ := ih hrest
    exact ⟨indexes', rfl⟩

/-- A table without its indexes. -/
def filledOf (tracked : Bool) (e : Element) : Build Table := do
  let t ← Table.createFrom e.attributeValues tracked
  addColumns (withDocumentation t e) (members "columns" "column" e)

theorem tableOf_eq (tracked : Bool) (e : Element) : tableOf tracked e = (do
    let t ← filledOf tracked e
    (addIndexes t (members "indexes" "index" e) : Except Fault Table)) := by
  rw [filledOf, tableOf, bind_assoc]

theorem indexes_of_filledOf {tracked : Bool} {e : Element} {t : Table} {ctx ctx' : Context}
    (h : filledOf tracked e ctx = (.ok t, ctx')) : t.indexes = [] := by
  obtain ⟨created, next, hcreate, hfill⟩ := bind_eq_ok_iff.mp h
  obtain ⟨name, first, hfirst, hassigned⟩ := Table.createFrom_eq_ok hcreate
  obtain ⟨proper, _, hnew, _⟩ := Table.create_eq_ok hfirst
  have hsame := Table.sameContents_assignAll first e.attributeValues
  rw [indexes_of_addColumns hfill, indexes_withDocumentation, ← whole_eq_ok hassigned,
    hsame.indexes, hnew]

theorem sameButFault_filledOf {e e' : Element} (h : e.Reordered e') (tracked : Bool)
    (ctx : Context) :
    SameButFault (fun _ => True) (filledOf tracked e ctx) (filledOf tracked e' ctx) := by
  have hcreate := Table.sameButFault_createFrom h.attributeValues_perm h.nodup_keys tracked ctx
  refine hcreate.bind fun created next _ => ?_
  rw [withDocumentation, withDocumentation, documentation?_eq h]
  exact sameButFault_addColumns (h.members "columns" "column") _ next

/-- What two orders of attributes come to, with those of each index: faults, no table, or a table
that is the same until it is given its indexes. -/
inductive Parallel (l l' : List Attributes) :
    Except Fault (Option Table) → Except Fault (Option Table) → Prop
  | fault (fault fault' : Fault) : Parallel l l' (.error fault) (.error fault')
  | nothing : Parallel l l' (.ok none) (.ok none)
  | table (bare : Table) (twins : List Twin) (hbare : bare.indexes = [])
    (hattributes : twins.map Twin.attributes = l)
    (hattributes' : twins.map Twin.attributes' = l') :
    Parallel l l' ((addAll bare (twins.map Twin.index)).map some)
      ((addAll bare (twins.map Twin.index')).map some)

namespace Parallel

variable {l l' : List Attributes} {x y : Except Fault (Option Table)} (h : Parallel l l' x y)

include h

theorem toOption_eq (hsettles : List.Forall₂ SettlesAlike l l') : x.toOption = y.toOption := by
  cases h with
  | fault fault fault' => rfl
  | nothing => rfl
  | table bare twins _ hattributes hattributes' =>
    rw [← hattributes, ← hattributes', List.forall₂_map_left_iff, List.forall₂_map_right_iff,
      List.forall₂_same] at hsettles
    have hindexes : twins.map Twin.index = twins.map Twin.index' :=
      List.map_congr_left fun w hw => w.index_eq (hsettles w hw)
    rw [hindexes]

/-- Whatever becomes of the indexes, the rest of the table is the same. -/
theorem withoutIndexes_eq {t t' : Table} (hx : x = .ok (some t)) (hy : y = .ok (some t')) :
    { t with indexes := [] } = { t' with indexes := [] } := by
  cases h with
  | fault fault fault' => cases hx
  | nothing => cases hx
  | table bare twins _ _ _ =>
    obtain ⟨u, hu, hsome⟩ := except_map_eq_ok_iff.mp hx
    obtain ⟨u', hu', hsome'⟩ := except_map_eq_ok_iff.mp hy
    cases hsome
    cases hsome'
    obtain ⟨indexes, rfl⟩ := addAll_eq_ok hu
    obtain ⟨indexes', rfl⟩ := addAll_eq_ok hu'
    rfl

end Parallel

theorem parallel_addIndexes {elements elements' : List Element}
    (h : List.Forall₂ Element.Reordered elements elements') {t : Table} (ht : t.indexes = []) :
    Parallel (describedIndexes elements) (describedIndexes elements')
      ((addIndexes t elements).map some) ((addIndexes t elements').map some) := by
  rcases twins_of_reordered h with hnone | ⟨twins, hattributes, hattributes', hadd⟩
  · obtain ⟨hx, hy⟩ := hnone t
    have hboth := congrArg Option.isSome (hx.trans hy.symm)
    rcases except_cases_of_isSome_eq hboth with ⟨fault, fault', hx', hy'⟩ | ⟨u, _, hu, _⟩
    · rw [hx', hy']
      exact .fault fault fault'
    · rw [hu] at hx
      cases hx
  · rw [(hadd t).1, (hadd t).2]
    exact .table t twins ht hattributes hattributes'

theorem fst_tableOf (tracked : Bool) (e : Element) (ctx : Context) :
    (tableOf tracked e ctx).1 =
      (filledOf tracked e ctx).1 >>= fun t => addIndexes t (members "indexes" "index" e) := by
  rw [tableOf_eq, fst_bind_lift]

theorem snd_tableOf (tracked : Bool) (e : Element) (ctx : Context) :
    (tableOf tracked e ctx).2 = (filledOf tracked e ctx).2 := by
  rw [tableOf_eq, snd_bind_lift]

theorem parallel_tableOf {e e' : Element} (h : e.Reordered e') (tracked : Bool) (ctx : Context) :
    Parallel (describedIndexes (members "indexes" "index" e))
      (describedIndexes (members "indexes" "index" e'))
      ((tableOf tracked e ctx).1.map some) ((tableOf tracked e' ctx).1.map some) := by
  have hfilled := (sameButFault_filledOf h tracked ctx).outcome.toOption_eq
  rw [fst_tableOf, fst_tableOf]
  rcases except_cases_of_isSome_eq (congrArg Option.isSome hfilled) with
    ⟨fault, fault', hx, hy⟩ | ⟨t, t', hx, hy⟩
  · rw [hx, hy]
    exact .fault fault fault'
  · rw [hx, hy] at hfilled ⊢
    cases hfilled
    exact parallel_addIndexes (h.members "indexes" "index") (indexes_of_filledOf (Prod.ext hx rfl))

/-- A table with one column and one index, given their attributes. -/
def tableText (forTable forColumn forIndex : Attributes) : Text :=
  "<table" ++ written forTable ++ "><columns><column" ++ written forColumn ++
    "/></columns><indexes><index" ++ written forIndex ++
    "><columns><column name='A'/></columns></index></indexes></table>"
where
  written (attributes : Attributes) : Text :=
    attributes.flatMap fun p => " " ++ p.1 ++ "='" ++ p.2 ++ "'"

/-- The tokens that such a table is written with. -/
def tableTokens (forTable forColumn forIndex : Attributes) : List Token :=
  [opening "table" forTable false, opening "columns" [] false, opening "column" forColumn true,
   closing "columns", opening "indexes" [] false, opening "index" forIndex false,
   opening "columns" [] false, opening "column" [("name", "A")] true, closing "columns",
   closing "index", closing "indexes", closing "table"]
where
  opening (tag : Text) (attributes : Attributes) (selfClosed : Bool) : Token :=
    .opening ⟨[], tag⟩ (attributes.map fun p => ⟨⟨[], p.1⟩, p.2⟩) selfClosed
  closing (tag : Text) : Token := .closing ⟨[], tag⟩

theorem reordered_opening (tag : Text) {attributes attributes' : Attributes} (selfClosed : Bool)
    (hperm : attributes.Perm attributes') :
    Token.Reordered (tableTokens.opening tag attributes selfClosed)
      (tableTokens.opening tag attributes' selfClosed) := by
  refine .opening rfl (fun a ha => ?_) (hperm.map _)
  obtain ⟨p, _, rfl⟩ := List.mem_map.mp ha
  rfl

variable {forTable forTable' forColumn forColumn' forIndex forIndex' : Attributes}

theorem reordered_tableText
    (htokens : tokens? (tableText forTable forColumn forIndex) =
      some (tableTokens forTable forColumn forIndex))
    (htokens' : tokens? (tableText forTable' forColumn' forIndex') =
      some (tableTokens forTable' forColumn' forIndex'))
    (htable : forTable.Perm forTable') (hcolumn : forColumn.Perm forColumn')
    (hindex : forIndex.Perm forIndex') :
    Markup.Reordered (tableText forTable forColumn forIndex)
      (tableText forTable' forColumn' forIndex') := by
  refine ⟨_, _, htokens, htokens', ?_⟩
  exact .cons (reordered_opening _ _ htable) <| .cons (reordered_opening _ _ (.refl _)) <|
    .cons (reordered_opening _ _ hcolumn) <| .cons (.closing _) <|
    .cons (reordered_opening _ _ (.refl _)) <| .cons (reordered_opening _ _ hindex) <|
    .cons (reordered_opening _ _ (.refl _)) <| .cons (reordered_opening _ _ (.refl _)) <|
    .cons (.closing _) <| .cons (.closing _) <| .cons (.closing _) <| .cons (.closing _) .nil

/-- A table whose index has a name and, behind it, an old name. -/
def renamedText : Text :=
  tableText [("name", "T"), ("story", "s")] [("name", "A"), ("data_type", "NUMBER")]
    [("name", "X"), ("old_name", "Y"), ("type", "UNIQUE")]

/-- The attributes in another order, the old name of the index still behind its name. -/
def shuffledText : Text :=
  tableText [("story", "s"), ("name", "T")] [("data_type", "NUMBER"), ("name", "A")]
    [("type", "UNIQUE"), ("name", "X"), ("old_name", "Y")]

/-- The name of the index behind its old name. -/
def restoredText : Text :=
  tableText [("name", "T"), ("story", "s")] [("name", "A"), ("data_type", "NUMBER")]
    [("old_name", "Y"), ("name", "X"), ("type", "UNIQUE")]

theorem reordered_shuffledText : Markup.Reordered renamedText shuffledText :=
  reordered_tableText (by decide +kernel) (by decide +kernel) (by decide +kernel)
    (by decide +kernel) (by decide +kernel)

theorem reordered_restoredText : Markup.Reordered renamedText restoredText :=
  reordered_tableText (by decide +kernel) (by decide +kernel) (by decide +kernel)
    (by decide +kernel) (by decide +kernel)

/-- What the table that a text describes looks like can be told by reading it. -/
theorem exists_table_of_map {text : Text} {names : List (Option Text)}
    (h : (parseTable (Path.ofText "T.XML") text false {}).1.map
      (fun t? => t?.map fun t => t.indexes.map Index.name) = .ok (some names)) :
    ∃ t, (parseTable (Path.ofText "T.XML") text false {}).1 = .ok (some t) ∧
      t.indexes.map Index.name = names := by
  obtain ⟨t?, ht, hnames⟩ := except_map_eq_ok_iff.mp h
  obtain ⟨t, rfl, rfl⟩ := Option.map_eq_some_iff.mp hnames
  exact ⟨t, ht, rfl⟩

theorem exists_renamed : ∃ t,
    (parseTable (Path.ofText "T.XML") renamedText false {}).1 = .ok (some t) ∧
      t.indexes.map Index.name = ([some "Y"] : List (Option Text)) :=
  exists_table_of_map (by decide +kernel)

theorem exists_restored : ∃ t,
    (parseTable (Path.ofText "T.XML") restoredText false {}).1 = .ok (some t) ∧
      t.indexes.map Index.name = ([some "X"] : List (Option Text)) :=
  exists_table_of_map (by decide +kernel)

/-- Attributes in another order, in whatever tags, take the same orders of columns and describe the
same table, unless there is an index with several values for one field and another of them comes
last. Even then two tables that are described differ at most in their indexes. These are added in
turn from the same elements, which agree wherever the same value comes last. -/
theorem parseTable_of_reordered {text text' : Text} (h : Markup.Reordered text text') (path : Path)
    (tracked : Bool) (ctx : Context) :
    (parseTable path text tracked ctx).2 = (parseTable path text' tracked ctx).2 ∧
      (List.Forall₂ SettlesAlike (indexAttributes text) (indexAttributes text') →
        (parseTable path text tracked ctx).1.toOption =
          (parseTable path text' tracked ctx).1.toOption) ∧
      (∀ t t', (parseTable path text tracked ctx).1 = .ok (some t) →
        (parseTable path text' tracked ctx).1 = .ok (some t') →
        { t with indexes := [] } = { t' with indexes := [] }) ∧
      Parallel (indexAttributes text) (indexAttributes text')
        (parseTable path text tracked ctx).1 (parseTable path text' tracked ctx).1 := by
  suffices hparallel : (parseTable path text tracked ctx).2 = (parseTable path text' tracked ctx).2 ∧
      Parallel (indexAttributes text) (indexAttributes text')
        (parseTable path text tracked ctx).1 (parseTable path text' tracked ctx).1 from
    ⟨hparallel.1, hparallel.2.toOption_eq, fun _ _ => hparallel.2.withoutIndexes_eq, hparallel.2⟩
  unfold parseTable indexAttributes
  rcases rel_cases (rel_document? h) with ⟨hnone, hnone'⟩ | ⟨root, root', hroot, hroot', hsame⟩
  · rw [hnone, hnone']
    exact ⟨rfl, .fault _ _⟩
  · rw [hroot, hroot']
    dsimp only [Option.elim]
    rw [tableOf?, tableOf?, describesTable, describesTable, hsame.tag]
    split
    · rw [fst_map, fst_map, snd_map, snd_map, snd_tableOf, snd_tableOf]
      exact ⟨(sameButFault_filledOf hsame tracked ctx).state, parallel_tableOf hsame tracked ctx⟩
    · exact ⟨rfl, .nothing⟩

theorem parseTable_of_reordered_shuffledText :
    (parseTable (Path.ofText "T.XML") renamedText false {}).1.toOption =
        (parseTable (Path.ofText "T.XML") shuffledText false {}).1.toOption ∧
      ∃ t t', (parseTable (Path.ofText "T.XML") renamedText false {}).1 = .ok (some t) ∧
        (parseTable (Path.ofText "T.XML") restoredText false {}).1 = .ok (some t') ∧
        { t with indexes := [] } = { t' with indexes := [] } := by
  have hsettles : List.Forall₂ SettlesAlike (indexAttributes renamedText)
      (indexAttributes shuffledText) := by
    have hattributes : indexAttributes renamedText =
        ([[("name", "X"), ("old_name", "Y"), ("type", "UNIQUE")]] : List Attributes) := by
      decide +kernel
    have hattributes' : indexAttributes shuffledText =
        ([[("type", "UNIQUE"), ("name", "X"), ("old_name", "Y")]] : List Attributes) := by
      decide +kernel
    rw [hattributes, hattributes']
    refine .cons (fun field _ => Or.inr ?_) .nil
    cases field <;> decide +kernel
  obtain ⟨t, ht, _⟩ := exists_renamed
  obtain ⟨t', ht', _⟩ := exists_restored
  have hshuffled := parseTable_of_reordered reordered_shuffledText (Path.ofText "T.XML") false {}
  have hrestored := parseTable_of_reordered reordered_restoredText (Path.ofText "T.XML") false {}
  exact ⟨hshuffled.2.1 hsettles, t, t', ht, ht', hrestored.2.2.1 t t' ht ht'⟩

/-- The last of the two names is that of the index. -/
theorem parseTable_apart : Markup.Reordered renamedText restoredText ∧
    ∃ t t', (parseTable (Path.ofText "T.XML") renamedText false {}).1 = .ok (some t) ∧
      (parseTable (Path.ofText "T.XML") restoredText false {}).1 = .ok (some t') ∧
      t.indexes.map Index.name = ([some "Y"] : List (Option Text)) ∧
      t'.indexes.map Index.name = ([some "X"] : List (Option Text)) := by
  obtain ⟨t, ht, hnames⟩ := exists_renamed
  obtain ⟨t', ht', hnames'⟩ := exists_restored
  exact ⟨reordered_restoredText, t, t', ht, ht', hnames, hnames'⟩

end Description

end SchemaPackage
