import SchemaPackage.Proofs.Package.Surroundings

/-!
How the data files grow. While tables and program units are compiled, texts are added to the ends
of the two data files. Nothing else that a compilation reads changes in the meantime: the folders
are the same, and the descriptions in them are, whatever else is written next to them.
-/
namespace SchemaPackage

open Job Outcome Text

namespace Text

theorem utf8_append (s t : Text) : (s ++ t).utf8 = s.utf8 ++ t.utf8 := by
  simp only [utf8, String.toUTF8, String.ofList_append, String.toByteArray_append]

end Text

namespace Content

theorem toBytes_ofBytes (bytes : ByteArray) : (ofBytes bytes).toBytes = bytes := by
  unfold ofBytes String.fromUTF8?
  by_cases hvalid : bytes.IsValidUTF8
  · rw [dif_pos hvalid]
    change (String.ofList (String.fromUTF8 bytes hvalid).toList).toUTF8 = bytes
    rw [String.ofList_toList]
    rfl
  · rw [dif_neg hvalid]
    rfl

theorem toBytes_append (c : Content) (more : Text) :
    (c.append more).toBytes = c.toBytes ++ more.utf8 := by
  cases c with
  | text t => exact utf8_append t more
  | archive entries => exact toBytes_ofBytes _
  | raw bytes => exact toBytes_ofBytes _

end Content

namespace Disk

variable {d d' : Disk} {p : Path} {l : Location} {c : Content}

/-- The bytes of the file at a location. Where there is none there are no bytes. -/
def bytesAt (d : Disk) (l : Location) : ByteArray :=
  ((d.fileAt? l).map Content.toBytes).getD .empty

theorem bytesAt_congr (h : d'.fileAt? l = d.fileAt? l) : d'.bytesAt l = d.bytesAt l := by
  rw [bytesAt, h, bytesAt]

end Disk

namespace Package

open Disk

variable {db p : Path} {d d' d'' : Disk} {more more' : Dictionary → Text}

/-- The place of the data file for a dictionary table. -/
def recordsPlace (home : Location) (db : Path) (k : Dictionary) : Location :=
  (dataFile db k.tableName).place home

/-- A text for one of the data files and none for the other. -/
def only (k : Dictionary) (text : Text) (j : Dictionary) : Text := if j = k then text else []

theorem only_nil (k : Dictionary) : only k [] = fun _ => [] := funext fun _ => ite_self []

theorem only_append (k : Dictionary) (s t : Text) :
    (fun j => only k s j ++ only k t j) = only k (s ++ t) := by
  funext j
  unfold only
  split <;> rfl

/-- One disk comes from another by adding texts to the data files. -/
structure Adds (db : Path) (more : Dictionary → Text) (d d' : Disk) : Prop where
  home : d'.home = d.home
  sound : d.Sound → d'.Sound
  folders : ∀ l, d'.isFolderAt l = d.isFolderAt l
  descriptions : ∀ l name, isDescription name = true →
    d'.fileAt? (l ++ [name]) = d.fileAt? (l ++ [name])
  records : ∀ k, d'.bytesAt (recordsPlace d.home db k) =
    d.bytesAt (recordsPlace d.home db k) ++ (more k).utf8

theorem Adds.refl (db : Path) (d : Disk) : Adds db (fun _ => []) d d where
  home := rfl
  sound := id
  folders _ := rfl
  descriptions _ _ _ := rfl
  records _ := ByteArray.append_empty.symm

theorem Adds.trans (h : Adds db more d d') (h' : Adds db more' d' d'') :
    Adds db (fun k => more k ++ more' k) d d'' where
  home := h'.home.trans h.home
  sound hd := h'.sound (h.sound hd)
  folders l := (h'.folders l).trans (h.folders l)
  descriptions l name hname := (h'.descriptions l name hname).trans (h.descriptions l name hname)
  records k := by
    rw [← h.home, h'.records k, h.home, h.records k, utf8_append, ByteArray.append_assoc]

theorem sameUpToCase_ending {name : Text} (h : isDescription name = true) :
    sameUpToCase (ending name) "xml" = true := by
  unfold isDescription at h
  split at h
  · rename_i front ext hext
    have hlast : ending name = ext := by
      unfold extension? at hext
      split at hext
      · rename_i last base more hsplit
        dsimp only at hext
        split at hext
        · cases hext
        · have hpieces := congrArg List.reverse hsplit
          rw [List.reverse_reverse, List.reverse_cons] at hpieces
          rw [ending, hpieces, List.getLastD_concat]
          exact (Prod.mk.inj (Option.some.inj hext)).2
      · cases hext
    rw [hlast]
    exact h
  · cases h

theorem place_dataFile {home : Location} {table : Text} (h : 2 < table.length ∧ '/' ∉ table) :
    (dataFile db table).place home =
      db.place home ++ [("INIT_TABLE" : Text)] ++ [table ++ ".DAT"] := by
  have hfolder : IsName "INIT_TABLE" := isName_of_length (by decide) (by decide)
  have hfile : IsName (table ++ ".DAT") := by
    refine isName_of_length ?_ ?_
    · rw [List.length_append]
      exact Nat.lt_add_right _ h.1
    · exact fun hmem => (List.mem_append.mp hmem).elim h.2 (by decide)
  rw [dataFile, Path.place_join hfile, recordsFolder, Path.place_join hfolder]

theorem recordsPlace_eq (home : Location) (db : Path) (k : Dictionary) :
    recordsPlace home db k =
      db.place home ++ [("INIT_TABLE" : Text)] ++ [k.tableName ++ ".DAT"] :=
  place_dataFile (by cases k <;> decide)

theorem eq_of_concat_eq_recordsPlace {home above : Location} {k : Dictionary} {name : Text}
    (h : above ++ [name] = recordsPlace home db k) : name = k.tableName ++ ".DAT" := by
  rw [recordsPlace_eq] at h
  exact List.singleton_inj.mp (List.append_inj_right' h rfl)

theorem recordsPlace_inj {home : Location} {j k : Dictionary}
    (h : recordsPlace home db j = recordsPlace home db k) : j = k := by
  rw [recordsPlace_eq, recordsPlace_eq] at h
  have hname := List.append_cancel_left h
  cases j <;> cases k <;> first | rfl | exact absurd hname (by decide)

/-- Extensions of files that are neither descriptions nor data files. -/
def IsOther (ext : Text) : Prop :=
  '/' ∉ ext ∧ '.' ∉ ext ∧ 1 < ext.length ∧ sameUpToCase ext "xml" = false ∧ ext ≠ "DAT"
deriving Decidable

/-- A file with an extension of its own is no description and no data file. -/
theorem Adds.write (db : Path) {c : Content} {file front ext : Text} (hp : p.WellFormed)
    (hfile : file = front ++ "." ++ ext) (hext : IsOther ext)
    (h : d.write? (p.join file) c = some d') : Adds db (fun _ => []) d d' := by
  obtain ⟨hslash, hdot, hlength, hxml, hdat⟩ := hext
  obtain ⟨above, last, hplace, rfl⟩ :=
    Path.exists_place_join_ending d.home p hfile ⟨hslash, hdot, hlength⟩
  obtain ⟨_, hne, hfolder, rfl⟩ := write?_eq_some h
  refine ⟨rfl, fun hd => hd.put (hd.isName_of_mem_place (hp.join file)) _,
    isFolderAt_put_file hne hfolder, fun l name hname => ?_, fun k => ?_⟩
  · rw [fileAt?_put_file hne, if_neg]
    intro heq
    rw [hplace] at heq
    have hsame : name = last := List.singleton_inj.mp (List.append_inj_right' heq rfl)
    rw [← hsame, sameUpToCase_ending hname] at hxml
    cases hxml
  · have hother : recordsPlace d.home db k ≠ (p.join file).place d.home := by
      intro heq
      have hname := eq_of_concat_eq_recordsPlace (hplace.symm.trans heq.symm)
      refine hdat ?_
      rw [hname]
      cases k <;> decide
    rw [bytesAt_congr ((fileAt?_put_file hne).trans (if_neg hother))]
    exact ByteArray.append_empty.symm

theorem Adds.copy (db : Path) {q : Path} {file front ext : Text} (hp : p.WellFormed)
    (hfile : file = front ++ "." ++ ext) (hext : IsOther ext)
    (h : d.copy? q (p.join file) = some d') : Adds db (fun _ => []) d d' := by
  obtain ⟨emptied, c, hempty, _, hwrite⟩ := copy?_eq_some h
  exact (Adds.write db hp hfile hext hempty).trans (Adds.write db hp hfile hext hwrite)

theorem wellFormed_dataFile (hdb : db.WellFormed) (table : Text) : (dataFile db table).WellFormed :=
  (hdb.join _).join _

/-- What is recorded goes to the end of one data file. -/
theorem Adds.append {k : Dictionary} {text : Text} (hdb : db.WellFormed)
    (h : d.append? (dataFile db k.tableName) text = some d') :
    Adds db (only k text) d d' := by
  obtain ⟨hlocate, hne, hfolder, rfl⟩ := write?_eq_some h
  refine ⟨rfl, fun hd => hd.put (hd.isName_of_mem_place (wellFormed_dataFile hdb _)) _,
    isFolderAt_put_file hne hfolder, fun l name hname => ?_, fun j => ?_⟩
  · rw [fileAt?_put_file hne, if_neg]
    intro heq
    rw [eq_of_concat_eq_recordsPlace heq] at hname
    cases k <;> exact absurd hname (by decide)
  · by_cases hj : j = k
    · have hcontent :
          d.content? (dataFile db k.tableName) = d.fileAt? (recordsPlace d.home db k) := by
        rw [content?_eq, hlocate]
        rfl
      have hbytes : (((d.fileAt? (recordsPlace d.home db k)).getD .empty).append text).toBytes =
          d.bytesAt (recordsPlace d.home db k) ++ text.utf8 := by
        rw [Content.toBytes_append, bytesAt]
        cases d.fileAt? (recordsPlace d.home db k) <;> rfl
      rw [only, if_pos hj, hj, hcontent, ← hbytes, bytesAt, fileAt?_put_file hne]
      exact congrArg (fun file => (Option.map Content.toBytes file).getD .empty) (if_pos rfl)
    · have hother : recordsPlace d.home db j ≠ (dataFile db k.tableName).place d.home :=
        fun heq => hj (recordsPlace_inj heq)
      rw [only, if_neg hj, bytesAt_congr ((fileAt?_put_file hne).trans (if_neg hother))]
      exact ByteArray.append_empty.symm

/-- Descriptions can be read as before. -/
theorem Adds.text?_eq {folder : Path} {name : Text} (h : Adds db more d d')
    (hname : isDescription name = true) (hproper : IsName name) :
    d'.text? (folder.join name) = d.text? (folder.join name) := by
  rw [text?, content?_eq, locate?_congr h.home h.folders, text?, content?_eq]
  cases hlocate : d.locate? (folder.join name) with
  | none => rfl
  | some l =>
    rw [Option.bind_some, Option.bind_some, locate?_eq_some hlocate, Path.place_join hproper,
      h.descriptions _ name hname]

theorem Adds.descriptions_eq (h : Adds db more d d') (folder : Path) :
    d'.descriptions folder = d.descriptions folder :=
  descriptions_congr h.home h.folders h.descriptions folder

end Package
end SchemaPackage
