import SchemaPackage.Table

/-!
What the dictionary records about a table and about each of its indexes.
-/
namespace SchemaPackage.Table

def recordFields (t : Table) : Attributes :=
  [("table_name", t.name), ("table_type", t.category), ("object_type", "TABLE"),
   ("standard_custom", t.origin.letter), ("description", t.documentation),
   ("release", t.release), ("relevant_for", t.products), ("story_id", t.story),
   ("init_on_install", flagLetter t.loadOnInstall),
   ("init_on_upgrade", flagLetter t.loadOnUpgrade),
   ("init_on_demand", flagLetter t.loadOnDemand),
   ("ini_trans", Text.decimal t.transactions), ("logging", flagLetter t.logging)]

def indexFields (t : Table) (i : Index) : Attributes :=
  [("table_name", i.name.getD []), ("table_type", i.kind.name), ("hist_table_name", t.name),
   ("parameter", i.columns.getD []), ("object_type", "INDEX"),
   ("standard_custom", t.origin.letter), ("release", i.release),
   ("relevant_for", t.products), ("story_id", i.story)]

def indexRecords (t : Table) : List Attributes := t.indexes.map t.indexFields

end SchemaPackage.Table
