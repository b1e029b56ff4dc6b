import SchemaPackage.Proofs.Package.Installation
import SchemaPackage.Proofs.Package.Mirroring

/-!
Program units that are described in the folder of another kind. The record of a unit has the kind
that the description names, but its source files are taken over as those of the folder that the
description is in. So what is packaged for the recorded kind is what other descriptions, tables or
an earlier run have brought there, unless the two kinds are the same.
-/
namespace SchemaPackage.Compile

open Job Outcome Text Package Disk

variable {home : Location} {db staging : Path} {d d' : Disk} {tables : List Table}
  {kind : UnitKind} {folder file base ext : Text}

theorem unitKind_name_inj {kind kind' : UnitKind} (h : kind.name = kind'.name) : kind = kind' := by
  have hall : ∀ kind ∈ UnitKind.all, ∀ kind' ∈ UnitKind.all, kind.name = kind'.name →
      kind = kind' := by
    decide
  exact hall kind (UnitKind.mem_all kind) kind' (UnitKind.mem_all kind') h

/-- A source file comes from descriptions that are called like it. -/
theorem isSource_filePlace_iff (hext : ext ∈ kind.extensions) :
    IsSource home db staging d (filePlace home db kind.name (base ++ "." ++ ext)) ↔
      HasSources d staging kind base := by
  constructor
  · rintro ⟨kind', base', ext', hhas, hext', hplace⟩
    obtain ⟨hkind, hfile⟩ := filePlace_inj hplace
    obtain rfl := unitKind_name_inj hkind
    obtain ⟨hbase, _⟩ := List.append_inj' hfile
      ((length_of_mem_extensions hext).1.trans (length_of_mem_extensions hext').1.symm)
    rwa [List.append_cancel_right hbase]
  · intro hhas
    exact ⟨kind, base, ext, hhas, hext, rfl⟩

/-- A filled package has a file beside the records just if a description, a table or what was there
before has one for its place. -/
theorem Stocked.hasFile_iff (h : Stocked home db staging tables d d') (hhome : d'.home = home)
    (hd : d.Sound) (hfolder : folder ≠ "INIT_TABLE") :
    HasFile home db d' folder file ↔
      IsSource home db staging d (filePlace home db folder file) ∨
        (∃ t ∈ tables, ∃ text, (filePlace home db folder file, text) ∈ tableFiles home db t) ∨
          HasFile home db d folder file := by
  refine ⟨h.origin hfolder, ?_⟩
  rintro (hsource | ⟨t, ht, text, hmem⟩ | ⟨c, hc⟩)
  · exact h.hasFile_of_isSource hhome hd hsource
  · exact h.hasFile_of_mem hhome hd ht hmem
  · by_cases hsource : IsSource home db staging d (filePlace home db folder file)
    · exact h.hasFile_of_isSource hhome hd hsource
    · rw [HasFile, h.fileAt?_filePlace hfolder hsource, hc]
      cases lastAt? (filePlace home db folder file) (tables.flatMap (tableFiles home db)) with
      | none => exact ⟨c, rfl⟩
      | some text => exact ⟨.text text, rfl⟩

/-- What can bring a source file of a kind into the package: descriptions that are called like it in
the folder for that kind, a table whose name leads to it, or what was there before. -/
def HasOrigin (home : Location) (db staging : Path) (tables : List Table) (staged : Disk)
    (kind : UnitKind) (base ext : Text) : Prop :=
  HasSources staged staging kind base ∨
    (∃ t ∈ tables, ∃ text,
      (filePlace home db kind.name (base ++ "." ++ ext), text) ∈ tableFiles home db t) ∨
    HasFile home db staged kind.name (base ++ "." ++ ext)

/-- After a successful compilation the package has, for every staged description of a program unit,
the source files of the kind that the folder of the description is for. The record has the kind that
is described, and the package has source files of that kind and name just if they have an origin
there. So it has them if the two kinds are the same. -/
theorem unitSources_of_run {made : Moment} {settings : Settings} {package : Path}
    (htarget : settings.target.WellFormed) (hd : d.Sound)
    (h : run made settings d = (.ok package, d')) :
    ∃ tables,
      TablesIn (stagedDisk settings d) ((settings.target.join "DB_STAGING").join "TABLE")
        settings.tracked tables ∧
      ∀ (kind : UnitKind) (name : Text) (u : ProgramUnit),
        name ∈ (stagedDisk settings d).descriptions
          ((settings.target.join "DB_STAGING").join kind.name) →
        DescribesUnit (stagedDisk settings d)
          ((settings.target.join "DB_STAGING").join kind.name) name (some u) →
        ∃ base last, extension? name = some (base, last) ∧
          u.recordFields.lookup ("object_type" : Text) = some u.kind.name ∧
          (base ≠ "." → ∀ ext ∈ kind.extensions,
            HasFile d.home (settings.target.join "DB") d' kind.name (base ++ "." ++ ext)) ∧
          ∀ ext ∈ u.kind.extensions,
            (HasFile d.home (settings.target.join "DB") d' u.kind.name (base ++ "." ++ ext) ↔
              HasOrigin d.home (settings.target.join "DB") (settings.target.join "DB_STAGING")
                tables (stagedDisk settings d) u.kind base ext) := by
  obtain ⟨tables, hin, hstocked, _⟩ := Stocked.of_run htarget hd h
  obtain ⟨hstaged, hhome, _⟩ := filledDisk_of_run htarget hd h
  have hfolders (kind : UnitKind) : kind.name ≠ "TOOLS" ∧ kind.name ≠ "INIT_TABLE" := by
    cases kind <;> decide
  -- What is packaged for a kind is what the package was filled with.
  have hpackaged {kind : UnitKind} {base ext : Text} (hext : ext ∈ kind.extensions) :
      HasFile d.home (settings.target.join "DB") d' kind.name (base ++ "." ++ ext) ↔
        HasOrigin d.home (settings.target.join "DB") (settings.target.join "DB_STAGING") tables
          (stagedDisk settings d) kind base ext := by
    rw [hasFile_iff_of_run htarget hd (hfolders kind).1 h,
      hstocked.hasFile_iff hhome hstaged (hfolders kind).2, isSource_filePlace_iff hext, HasOrigin]
  refine ⟨tables, hin, fun kind name u hname hdescribes => ?_⟩
  obtain ⟨base, last, hbase⟩ := exists_extension? (hstaged.of_mem_descriptions hname).2
  refine ⟨base, last, hbase, rfl, fun hdot ext hext => ?_, fun ext hext => hpackaged hext⟩
  exact (hpackaged hext).mpr (Or.inl ⟨name, hname, ⟨last, hbase⟩, hdot, u, hdescribes⟩)

/-- The package among the functions, as it is staged. -/
theorem describesUnit_strayDisk :
    ("P.XML" : Text) ∈ (stagedDisk equipped strayDisk).descriptions
        ((equipped.target.join "DB_STAGING").join UnitKind.function.name) ∧
      ∃ u, DescribesUnit (stagedDisk equipped strayDisk)
          ((equipped.target.join "DB_STAGING").join UnitKind.function.name) "P.XML" (some u) ∧
        u.kind = .package := by
  let source : Path := (equipped.target.join "DB_STAGING").join UnitKind.function.name
  have hstaged : ("P.XML" : Text) ∈ (stagedDisk equipped strayDisk).descriptions source ∧
      ((stagedDisk equipped strayDisk).text? (source.join "P.XML")).map (fun text =>
        (Description.parseUnit (source.join "P.XML") text).map (Option.map ProgramUnit.kind)) =
          some (.ok (some .package)) := by
    decide +kernel
  obtain ⟨text, hread, hparse⟩ := Option.map_eq_some_iff.mp hstaged.2
  obtain ⟨u?, hunit, hkind⟩ := except_map_eq_ok_iff.mp hparse
  obtain ⟨u, rfl, hpackage⟩ := Option.map_eq_some_iff.mp hkind
  exact ⟨hstaged.1, u, ⟨text, hread, hunit⟩, hpackage⟩

theorem unitSources_of_strayDisk :
    ∃ d' u, run ⟨2026, 1, 1, 4, 0, 0, 0⟩ equipped strayDisk =
        (.ok (.ofText "target/DB.zip"), d') ∧
      u.recordFields.lookup ("object_type" : Text) = some UnitKind.package.name ∧
      DescribesUnit (stagedDisk equipped strayDisk)
        ((equipped.target.join "DB_STAGING").join UnitKind.function.name) "P.XML" (some u) ∧
      HasFile strayDisk.home (equipped.target.join "DB") d' "FUNCTION" "P.SQL" := by
  obtain ⟨d', hd', _⟩ := run_strayDisk
  obtain ⟨hname, u, hdescribes, hkind⟩ := describesUnit_strayDisk
  obtain ⟨_, _, hunits⟩ := unitSources_of_run target_equipped sound_strayDisk hd'
  obtain ⟨base, last, hbase, hrecord, hsources, _⟩ := hunits .function "P.XML" u hname hdescribes
  obtain ⟨rfl, rfl⟩ := Prod.mk.inj (Option.some.inj hbase)
  refine ⟨d', u, hd', ?_, hdescribes, hsources (by decide) "SQL" (List.mem_singleton_self _)⟩
  rw [hrecord, hkind]

/-- A package is recorded whose source is not in the folder of the packages. -/
theorem unitSource_apart :
    ∃ d' u, run ⟨2026, 1, 1, 4, 0, 0, 0⟩ equipped strayDisk =
        (.ok (.ofText "target/DB.zip"), d') ∧
      ("P.XML" : Text) ∈ (stagedDisk equipped strayDisk).descriptions
        ((equipped.target.join "DB_STAGING").join UnitKind.function.name) ∧
      DescribesUnit (stagedDisk equipped strayDisk)
        ((equipped.target.join "DB_STAGING").join UnitKind.function.name) "P.XML" (some u) ∧
      u.recordFields.lookup ("object_type" : Text) = some UnitKind.package.name ∧
      ("PKS" : Text) ∈ UnitKind.package.extensions ∧
      ¬ HasFile strayDisk.home (equipped.target.join "DB") d' UnitKind.package.name "P.PKS" := by
  obtain ⟨d', hd', _, _, hsource, _⟩ := run_strayDisk
  obtain ⟨hname, u, hdescribes, hkind⟩ := describesUnit_strayDisk
  have hplace : filePlace strayDisk.home (equipped.target.join "DB") UnitKind.package.name
      "P.PKS" = (["target", "DB", "PACKAGE", "P.PKS"] : Location) := by
    decide +kernel
  refine ⟨d', u, hd', hname, hdescribes,
    congrArg (fun kind => some (UnitKind.name kind)) hkind, List.mem_cons_self, ?_⟩
  rintro ⟨c, hc⟩
  rw [hplace, hsource] at hc
  cases hc

end SchemaPackage.Compile
