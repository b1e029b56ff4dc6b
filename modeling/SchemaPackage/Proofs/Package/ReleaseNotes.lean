import SchemaPackage.Proofs.Package.Loading
import SchemaPackage.Proofs.Text.Literals

/-!
Where a package tells its release: in a note of its own, and in the script, which puts a row for each
product into a table. The note holds the release as it is. The script has it between single quotes,
but does not double those that it has itself, so what its statements say is the text whose quotes, if
doubled, give the release. That is the release exactly if it has none, and often it is no text at all.
-/
namespace SchemaPackage

open Job Outcome Text

namespace Package.InstallScript

/-- What a row of the table says, apart from the day. -/
structure ApplicationRow where
  product : Text
  release : Text
deriving DecidableEq

namespace ApplicationRow

/-- What stands in front of the values. -/
def lead : Text := "insert into application(product, release_date, release_number)values("

/-- The statement that puts the row into the table. -/
def statement (row : ApplicationRow) : Text :=
  lead ++ (literal row.product ++ (", sysdate, " ++ (literal row.release ++ ");")))

/-- The row that the first statement of a text puts into the table, and what follows it. -/
def read? (t : Text) : Option (ApplicationRow × Text) := do
  let values ← after? lead t
  let (product, later) ← literal? values
  let last ← after? ", sysdate, " later
  let (release, ending) ← literal? last
  (after? ");" ending).map fun rest => (⟨product, release⟩, rest)

/-- The product is read back, and the rest depends on what comes in place of the release. -/
theorem read?_append (product later : Text) :
    read? (lead ++ (literal product ++ (", sysdate, " ++ later))) =
      (literal? later).bind fun (release, ending) =>
        (after? ");" ending).map fun rest => (⟨product, release⟩, rest) := by
  have hproduct : literal? (literal product ++ ((", sysdate, " : Text) ++ later)) =
      some (product, (", sysdate, " : Text) ++ later) :=
    literal?_eq_some_iff.mpr ⟨rfl, by simp⟩
  simp only [read?, after?_eq_some.mpr rfl, hproduct, Option.bind_eq_bind, Option.bind_some]

theorem read?_eq_some_iff {t rest : Text} {row : ApplicationRow} :
    read? t = some (row, rest) ↔ t = row.statement ++ rest := by
  obtain ⟨product, release⟩ := row
  constructor
  · intro h
    obtain ⟨values, hlead, h⟩ := Option.bind_eq_some_iff.mp h
    obtain ⟨⟨_, later⟩, hproduct, h⟩ := Option.bind_eq_some_iff.mp h
    obtain ⟨last, hday, h⟩ := Option.bind_eq_some_iff.mp h
    obtain ⟨⟨_, ending⟩, hrelease, h⟩ := Option.bind_eq_some_iff.mp h
    obtain ⟨_, hend, h⟩ := Option.map_eq_some_iff.mp h
    cases h
    rw [after?_eq_some.mp hlead, (literal?_eq_some_iff.mp hproduct).1, after?_eq_some.mp hday,
      (literal?_eq_some_iff.mp hrelease).1, after?_eq_some.mp hend]
    simp only [statement, List.append_assoc]
  · rintro rfl
    have hrelease : literal? (literal release ++ ((");" : Text) ++ rest)) =
        some (release, (");" : Text) ++ rest) :=
      literal?_eq_some_iff.mpr ⟨rfl, by simp⟩
    simp only [statement, List.append_assoc]
    rw [read?_append, hrelease, Option.bind_some]
    show (after? ");" ((");" : Text) ++ rest)).map _ = _
    rw [after?_eq_some.mpr rfl, Option.map_some]

end ApplicationRow

open ApplicationRow

/-- The statement for a product has the release between single quotes, as it is. -/
theorem releaseInsert_eq {product : Text} (hproduct : '\'' ∉ product) (release : Text) :
    releaseInsert release product =
      lead ++ (literal product ++ (", sysdate, " ++ ('\'' :: (release ++ ("');" : Text))))) := by
  have hfront : ("insert into application(product, release_date, release_number)values('" :
      Text) = lead ++ ['\''] := by decide +kernel
  have hday : ("', sysdate, '" : Text) = '\'' :: (", sysdate, " ++ ['\'']) := by decide
  delta releaseInsert
  simp only [hfront, hday, literal, doubled_eq_self_iff.mpr hproduct, List.append_assoc,
    List.cons_append, List.nil_append]

/-- So it puts in a row with the text that the release is the doubling of, if there is one. -/
theorem releaseInsert_eq_statement_iff {release product x : Text} (hproduct : '\'' ∉ product) :
    releaseInsert release product = statement ⟨product, x⟩ ↔ release = doubled x := by
  have hend : ("');" : Text) = '\'' :: (");" : Text) := by decide
  have hstatement : statement ⟨product, x⟩ =
      lead ++ (literal product ++ (", sysdate, " ++ ('\'' :: (doubled x ++ ("');" : Text))))) := by
    simp only [statement, hend, literal, List.append_assoc, List.cons_append, List.nil_append]
  rw [releaseInsert_eq hproduct, hstatement]
  simp only [List.append_cancel_left_eq, List.cons.injEq, List.append_cancel_right_eq, true_and]

theorem read?_releaseInsert_iff {release product x rest : Text} (hproduct : '\'' ∉ product) :
    read? (releaseInsert release product ++ rest) = some (⟨product, x⟩, rest) ↔
      release = doubled x := by
  rw [read?_eq_some_iff, List.append_left_inj, releaseInsert_eq_statement_iff hproduct]

/-- The statements of the release stand together behind the head of their part. -/
theorem render_eq_append_inserts (made : Moment) (release : Text) (files : Text → List Text) :
    ∃ before after, render made release files =
      before ++ (banner "Load application release table" ++ (releaseInsert release "Z" ++ ("\n" ++
        (releaseInsert release "W" ++ ("\ncommit;\n" ++ after))))) := by
  have hinserts : releaseInserts release = releaseInsert release "Z" ++ ("\n" ++
      (releaseInsert release "W" ++ ("\ncommit;\n" : Text))) := by
    have hcommit : ("\ncommit;\n" : Text) = ("\n" : Text) ++ ("commit;\n" : Text) := rfl
    rw [releaseInserts, hcommit]
    simp only [joined, List.append_assoc]
  obtain ⟨front, hrender⟩ : ∃ front, render made release files =
      front ++ banner "Load application release table" ++ releaseInserts release ++
        indexes (files "TABLE") ++ closing := by
    apply Exists.intro
    unfold render
    rfl
  refine ⟨front, indexes (files "TABLE") ++ closing, ?_⟩
  rw [hrender, hinserts]
  simp only [List.append_assoc]

end Package.InstallScript

namespace Compile

open Package Disk InstallScript

variable {d d' : Disk} {db : Path} {settings : Settings} {made : Moment}

/-- The place of the note of the release. -/
def releasePlace (home : Location) (db : Path) : Location :=
  db.place home ++ [("RELEASE.TXT" : Text)]

theorem release_of_writeRelease {release : Text} {u : Unit}
    (h : writeRelease db release d = (.ok u, d')) :
    d'.home = d.home ∧ d'.fileAt? (releasePlace d.home db) = some (.text release) := by
  obtain ⟨_, hne, _, rfl⟩ := write?_eq_some (change_eq_ok h)
  have hname : IsName "RELEASE.TXT" := by decide
  rw [releasePlace, ← Path.place_join hname]
  exact ⟨home_put _ _ _, (fileAt?_put_file hne).trans (if_pos rfl)⟩

/-- The note is what is written last. -/
theorem release_of_finish {u : Unit} (htarget : settings.target.WellFormed) (hd : d.Sound)
    (h : finish made settings (settings.target.join "DB") d = (.ok u, d')) :
    d'.fileAt? (releasePlace d.home (settings.target.join "DB")) =
      some (.text settings.release) := by
  have hnote {d₁ : Disk} {u : Unit}
      (h : writeRelease (settings.target.join "DB") settings.release d₁ = (.ok u, d')) :
      d'.fileAt? (releasePlace d'.home (settings.target.join "DB")) =
        some (.text settings.release) := by
    obtain ⟨hhome, hfile⟩ := release_of_writeRelease h
    rwa [hhome]
  rw [← (sound_of_finish htarget hd h).1]
  obtain ⟨_, _, _, hrest⟩ := bind_eq_ok_iff.mp h
  cases hshared : settings.shared with
  | none =>
    rw [hshared] at hrest
    exact hnote hrest
  | some shared =>
    rw [hshared] at hrest
    obtain ⟨_, _, _, hrest⟩ := bind_eq_ok_iff.mp hrest
    exact hnote hrest

theorem noteOfRelease_of_run {package : Path} (htarget : settings.target.WellFormed)
    (hd : d.Sound) (h : run made settings d = (.ok package, d')) :
    d'.fileAt? (releasePlace d.home (settings.target.join "DB")) =
      some (.text settings.release) := by
  obtain ⟨hhome, hd', finished, hfinish, hstays⟩ := exists_finished_of_run htarget hd h
  rw [hstays (releasePlace d.home _) (List.prefix_append _ _), ← hhome]
  exact release_of_finish htarget hd' hfinish

theorem quote_notMem_product {product : Text} (h : product ∈ (["Z", "W"] : List Text)) :
    '\'' ∉ product := by
  have hall : ∀ product ∈ (["Z", "W"] : List Text), '\'' ∉ product := by decide
  exact hall product h

theorem madeScript_eq_append (made : Moment) (settings : Settings) (d : Disk) :
    ∃ before after, madeScript made settings d =
      before ++ (banner "Load application release table" ++
        (releaseInsert settings.release "Z" ++ ("\n" ++
          (releaseInsert settings.release "W" ++ ("\ncommit;\n" ++ after))))) := by
  rw [madeScript, ofFolder]
  exact render_eq_append_inserts _ _ _

/-- After a successful compilation the note holds the release. The script, unless the shared tools
bring another one, has a statement for each product, and what such a statement puts into the table,
wherever it stands, is the text that the release is the doubling of. So it is the release itself
exactly if that has no single quote. -/
theorem release_of_run {package : Path} (htarget : settings.target.WellFormed) (hd : d.Sound)
    (h : run made settings d = (.ok package, d')) :
    d'.fileAt? (releasePlace d.home (settings.target.join "DB")) =
        some (.text settings.release) ∧
      (NoSharedScript settings (filledDisk settings d) (settings.target.join "DB") →
        d'.fileAt? (scriptPlace d.home (settings.target.join "DB")) =
          some (.text (madeScript made settings d))) ∧
      (∃ before after, madeScript made settings d =
        before ++ (banner "Load application release table" ++
          (releaseInsert settings.release "Z" ++ ("\n" ++
            (releaseInsert settings.release "W" ++ ("\ncommit;\n" ++ after)))))) ∧
      ∀ product ∈ (["Z", "W"] : List Text), ∀ rest,
        (∀ x, ApplicationRow.read? (releaseInsert settings.release product ++ rest) =
          some (⟨product, x⟩, rest) ↔ settings.release = doubled x) ∧
        (ApplicationRow.read? (releaseInsert settings.release product ++ rest) =
          some (⟨product, settings.release⟩, rest) ↔ '\'' ∉ settings.release) := by
  refine ⟨noteOfRelease_of_run htarget hd h,
    fun hshared => madeScript_of_run htarget hd hshared h, madeScript_eq_append _ _ _,
    fun product hmem rest => ?_⟩
  have hproduct := quote_notMem_product hmem
  refine ⟨fun x => read?_releaseInsert_iff hproduct, ?_⟩
  rw [read?_releaseInsert_iff hproduct, eq_comm, doubled_eq_self_iff]

theorem release_of_describedUpgrade :
    ∃ d', run ⟨2026, 1, 1, 4, 0, 0, 0⟩ straight describedUpgrade =
        (.ok (.ofText "target/DB.zip"), d') ∧
      d'.fileAt? (releasePlace describedUpgrade.home (straight.target.join "DB")) =
        some (.text "1") ∧
      d'.fileAt? (scriptPlace describedUpgrade.home (straight.target.join "DB")) =
        some (.text (madeScript ⟨2026, 1, 1, 4, 0, 0, 0⟩ straight describedUpgrade)) ∧
      ApplicationRow.read? (releaseInsert "1" "Z") = some (⟨"Z", "1"⟩, []) := by
  obtain ⟨d', hd', _⟩ := run_describedUpgrade
  obtain ⟨hnote, hscript, _, hreads⟩ :=
    release_of_run (Path.wellFormed_ofText _) sound_describedUpgrade hd'
  obtain ⟨_, hread⟩ := hreads "Z" (by decide) []
  rw [List.append_nil] at hread
  exact ⟨d', hd', hnote, hscript (noSharedScript_of_none rfl), hread.mpr (by decide)⟩

/-- A release with a single quote. -/
def quotedRelease : Settings := { straight with release := "5'1" }

/-- The note has the quote, and the statements of the script are none. -/
theorem release_apart :
    ∃ d' before after, run ⟨2026, 1, 1, 4, 0, 0, 0⟩ quotedRelease describedUpgrade =
        (.ok (.ofText "target/DB.zip"), d') ∧
      d'.fileAt? (releasePlace describedUpgrade.home (quotedRelease.target.join "DB")) =
        some (.text "5'1") ∧
      d'.fileAt? (scriptPlace describedUpgrade.home (quotedRelease.target.join "DB")) =
        some (.text (before ++ (banner "Load application release table" ++
          (releaseInsert "5'1" "Z" ++ ("\n" ++
            (releaseInsert "5'1" "W" ++ ("\ncommit;\n" ++ after))))))) ∧
      ∀ product ∈ (["Z", "W"] : List Text), ∀ rest,
        ApplicationRow.read? (releaseInsert "5'1" product ++ rest) = none := by
  have hrun : (run ⟨2026, 1, 1, 4, 0, 0, 0⟩ quotedRelease describedUpgrade).1 =
      .ok (.ofText "target/DB.zip") := by decide +kernel
  obtain ⟨d', hd'⟩ := exists_of_fst_eq hrun
  have htarget : quotedRelease.target.WellFormed := Path.wellFormed_ofText _
  have hnote := noteOfRelease_of_run htarget sound_describedUpgrade hd'
  have hscript := madeScript_of_run htarget sound_describedUpgrade (noSharedScript_of_none rfl) hd'
  obtain ⟨before, after, hmade⟩ :=
    madeScript_eq_append ⟨2026, 1, 1, 4, 0, 0, 0⟩ quotedRelease describedUpgrade
  refine ⟨d', before, after, hd', hnote, hscript.trans (by rw [hmade]; rfl), ?_⟩
  intro product hmem rest
  rw [releaseInsert_eq (quote_notMem_product hmem)]
  simp only [List.append_assoc, List.cons_append]
  -- The literal ends in front of the 1, where the statement should end.
  rw [ApplicationRow.read?_append]
  rfl

end Compile

end SchemaPackage
