import SchemaPackage.Proofs.Dictionary.Reading
import SchemaPackage.Proofs.Text.Edges
import SchemaPackage.Proofs.Text.Literals

/-!
Defaults in records. A column's default is written as in a statement, so a text stands there as a
literal: between single quotes, and with its own single quotes doubled. A record gives the default
without the single quotes at its ends, however many there are and whether they are a pair or not,
and with all others. So a literal is recorded as the text that it denotes exactly if that text has
no single quote, and an expression is recorded as it is exactly if it has none at its ends.
-/
namespace SchemaPackage

namespace Text

/-- The text stands between two single quotes. -/
def IsEnclosed (t : Text) : Prop := ∃ inner, t = '\'' :: (inner ++ ['\''])

end Text

namespace Encoder

open Text

/-- A default stays as it is if it has no single quote at its ends. -/
theorem unquoted_eq_self_iff {t : Text} :
    unquoted t = t ↔ t.head? ≠ some '\'' ∧ t.getLast? ≠ some '\'' := by
  have hend : ∀ o : Option Char, (∀ c ∈ o, (c == '\'') = false) ↔ o ≠ some '\'' := by
    intro o
    cases o <;> simp
  rw [unquoted, trimEnds_eq_self_iff, hend, hend]

/-- A literal comes out as the text that it denotes if that has no single quote. -/
theorem unquoted_literal_iff {t : Text} : unquoted (literal t) = t ↔ '\'' ∉ t := by
  have hbody : unquoted (literal t) = unquoted (doubled t) := trimEnds_enclosed (by decide) _
  rw [hbody]
  constructor
  · intro h
    -- What comes out has no quote at its ends, so neither has the doubled text.
    have hends : t.head? ≠ some '\'' ∧ t.getLast? ≠ some '\'' := by
      apply unquoted_eq_self_iff.mp
      rw [← h]
      exact trimEnds_of_ends (head?_trimEnds _ _) (getLast?_trimEnds _ _)
    have hkept : unquoted (doubled t) = doubled t := by
      apply unquoted_eq_self_iff.mpr
      rw [head?_doubled, getLast?_doubled]
      exact hends
    apply doubled_eq_self_iff.mp
    rw [← hkept]
    exact h
  · intro h
    rw [doubled_eq_self_iff.mpr h]
    apply unquoted_eq_self_iff.mpr
    constructor
    · intro hhead
      exact h (List.mem_of_head? hhead)
    · intro hlast
      exact h (List.mem_of_getLast? hlast)

/-- The record of a dictionary table, read back, in a column that nothing is given for and that has
its field for itself. A default that is a literal is given as the text that it denotes exactly if
that text has no single quote, and a default is given as it is written exactly if it has no single
quote at its ends. -/
theorem decode?_default (order : ColumnOrder) (calls : List Call) {k : Dictionary} {t : Table}
    (ht : (run { order } calls).table? k = some t) {n : Nat} {c : Column}
    (hc : t.sortedColumns[n]? = some c) (hown : OwnsField t c) {fields : Attributes}
    (hleft : fields.lookup (Text.lower c.name) = none) :
    ∃ record values value, (run { order } calls).render k fields = .ok record ∧
      Reader.decode? record = some [values] ∧ values.length = t.sortedColumns.length ∧
      values[n]? = some value ∧
      (∀ x, c.defaultValue = literal x → (value = x ↔ '\'' ∉ x)) ∧
      (value = c.defaultValue ↔
        c.defaultValue.head? ≠ some '\'' ∧ c.defaultValue.getLast? ≠ some '\'') := by
  have hvalid : (run { order } calls).Valid := (valid_empty order).run calls
  have hname : isDictionaryObject t.name = true := by
    rw [hvalid k t ht]
    exact k.isDictionaryObject_tableName
  have hmem : c ∈ t.sortedColumns := List.mem_of_getElem? hc
  have hdefault : valueIn (order.columns t) fields (Text.lower c.name) =
      unquoted c.defaultValue := by
    rw [valueIn, List.lookup_append, hleft, Option.none_or,
      lookup_defaults_of_ownsField hown (Table.mem_columns_of_mem_sortedColumns hname hmem)]
    rfl
  have hne : (Layout.ofTable t).fields.map (valueIn (order.columns t) fields) ≠ [] := by
    have hcolumns : t.sortedColumns ≠ [] := List.ne_nil_of_mem hmem
    simpa [Layout.ofTable] using hcolumns
  have hrecord := render_eq_ok hvalid ht fields
  rw [order_run] at hrecord
  have hread := Reader.decode?_flatMap
    [(Layout.ofTable t).fields.map (valueIn (order.columns t) fields)] (by simpa using hne)
  rw [List.flatMap_singleton] at hread
  refine ⟨_, _, unquoted c.defaultValue, hrecord, hread, ?_, ?_, ?_, ?_⟩
  · simp [Layout.ofTable]
  · simp [Layout.ofTable, hc, hdefault]
  · intro x hx
    rw [hx]
    exact unquoted_literal_iff
  · exact unquoted_eq_self_iff

theorem decode?_default_flag :
    ∃ record values, (run {} [.register .objects quotedDefaultTable]).render .objects
        [("table_name", "FOO")] = .ok record ∧
      Reader.decode? record = some [values] ∧ values[1]? = some ("N" : Text) := by
  have hown : OwnsField quotedDefaultTable
      { Column.blank 1 with name := "LOGGING", defaultValue := "'N'" } := by
    apply ownsField_of_nodup
    · decide
    · decide
  have hleft : ([("table_name", "FOO")] : Attributes).lookup (Text.lower "LOGGING") = none := by
    decide
  obtain ⟨record, values, value, hrecord, hread, _, hvalue, hliteral, _⟩ :=
    decode?_default .creation [.register .objects quotedDefaultTable] (k := .objects) rfl (n := 1)
      rfl hown hleft
  have hflag : value = ("N" : Text) := (hliteral "N" (by decide)).mpr (by decide)
  exact ⟨record, values, hrecord, hread, hflag ▸ hvalue⟩

/-- A dictionary table whose defaults have single quotes in other places than around a text. -/
def apostropheTable : Table where
  name := "DB_OBJECTS"
  columns := ⟨[{ Column.blank 0 with name := "MARK", defaultValue := "''''" },
    { Column.blank 1 with name := "TERM", defaultValue := "'it''s'" },
    { Column.blank 2 with name := "OWNER", defaultValue := "USER||'x'" }]⟩

/-- The first two defaults are literals, and the third stands between no quotes. None of them is
recorded as what it denotes. -/
theorem defaults_apart :
    apostropheTable.sortedColumns.map Column.defaultValue =
        [literal "'", literal "it's", "USER||'x'".toList] ∧
      ¬ IsEnclosed "USER||'x'" ∧
      ∃ record, (run {} [.register .objects apostropheTable]).render .objects [] = .ok record ∧
        Reader.decode? record = some ([["", "it''s", "USER||'x"]] : List (List Text)) := by
  refine ⟨by decide, ?_, _, rfl, by decide +kernel⟩
  rintro ⟨inner, hinner⟩
  cases hinner

end Encoder

end SchemaPackage
