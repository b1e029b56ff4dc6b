import SchemaPackage.Disk

/-!
The places that paths lead to. There are no links on a disk, so where a path ends can be told from
its pieces alone, and a file name leads from the place of its folder one step down. Names that are
made up with an extension may lead through other folders first, but they keep the extension.
-/
namespace SchemaPackage

namespace Text

variable {sep : Char} {s t : Text}

theorem split_ne_nil (sep : Char) (t : Text) : split sep t ≠ [] := by
  induction t with
  | nil => exact List.cons_ne_nil _ _
  | cons c rest ih =>
    rw [split]
    split
    · exact List.cons_ne_nil _ _
    · split
      · exact List.cons_ne_nil _ _
      · exact List.cons_ne_nil _ _

theorem split_cons_of_ne {c : Char} {piece : Text} {more : List Text} (hc : c ≠ sep)
    (h : split sep t = piece :: more) : split sep (c :: t) = (c :: piece) :: more := by
  rw [split, if_neg hc, h]

theorem split_of_notMem (h : sep ∉ t) : split sep t = [t] := by
  induction t with
  | nil => rfl
  | cons c rest ih =>
    rw [List.mem_cons, not_or] at h
    exact split_cons_of_ne (Ne.symm h.1) (ih h.2)

/-- The separator stands in no piece. -/
theorem notMem_of_mem_split {piece : Text} (h : piece ∈ split sep t) : sep ∉ piece := by
  induction t generalizing piece with
  | nil =>
    rw [List.mem_singleton.mp h]
    exact List.not_mem_nil
  | cons c rest ih =>
    by_cases hc : c = sep
    · rw [split, if_pos hc] at h
      rcases List.mem_cons.mp h with rfl | h
      · exact List.not_mem_nil
      · exact ih h
    · obtain ⟨first, more, hsplit⟩ := List.exists_cons_of_ne_nil (split_ne_nil sep rest)
      rw [split_cons_of_ne hc hsplit] at h
      rw [hsplit] at ih
      rcases List.mem_cons.mp h with rfl | h
      · intro hmem
        rcases List.mem_cons.mp hmem with rfl | hmem
        · exact hc rfl
        · exact ih List.mem_cons_self hmem
      · exact ih (List.mem_cons_of_mem _ h)

/-- Text without a separator goes to the last piece. -/
theorem split_append_of_notMem (s : Text) (ht : sep ∉ t) :
    ∃ front last, split sep s = front ++ [last] ∧ split sep (s ++ t) = front ++ [last ++ t] := by
  induction s with
  | nil => exact ⟨[], [], rfl, split_of_notMem ht⟩
  | cons c rest ih =>
    obtain ⟨front, last, hrest, hmore⟩ := ih
    by_cases hc : c = sep
    · refine ⟨[] :: front, last, ?_, ?_⟩
      · rw [split, if_pos hc, hrest, List.cons_append]
      · rw [List.cons_append, split, if_pos hc, hmore, List.cons_append]
    · cases front with
      | nil => exact ⟨[], c :: last, split_cons_of_ne hc hrest, split_cons_of_ne hc hmore⟩
      | cons first front =>
        exact ⟨(c :: first) :: front, last, split_cons_of_ne hc hrest, split_cons_of_ne hc hmore⟩

theorem split_append_cons (s t : Text) :
    split sep (s ++ sep :: t) = split sep s ++ split sep t := by
  induction s with
  | nil => exact if_pos rfl
  | cons c rest ih =>
    by_cases hc : c = sep
    · rw [List.cons_append, split, if_pos hc, split, if_pos hc, ih, List.cons_append]
    · obtain ⟨piece, more, hsplit⟩ := List.exists_cons_of_ne_nil (split_ne_nil sep rest)
      rw [hsplit, List.cons_append] at ih
      rw [split_cons_of_ne hc hsplit]
      exact split_cons_of_ne hc ih

/-- Splitting takes apart what joining has put together. -/
theorem split_joined {names : List Text} (hnames : names ≠ []) (h : ∀ name ∈ names, sep ∉ name) :
    split sep (joined [sep] names) = names := by
  match names with
  | [name] => exact split_of_notMem (h name List.mem_cons_self)
  | name :: next :: rest =>
    have ih := split_joined (List.cons_ne_nil next rest)
      fun name hname => h name (List.mem_cons_of_mem _ hname)
    rw [joined, List.append_assoc, List.singleton_append,
      split_append_cons, split_of_notMem (h name List.mem_cons_self), ih, List.singleton_append]
    exact List.cons_ne_nil next rest

/-- What can be the name of a file or folder. -/
structure IsName (t : Text) : Prop where
  ne_nil : t ≠ []
  ne_dot : t ≠ "."
  ne_dots : t ≠ ".."
  no_slash : '/' ∉ t

instance : DecidablePred IsName := fun t =>
  decidable_of_iff (t ≠ [] ∧ t ≠ "." ∧ t ≠ ".." ∧ '/' ∉ t)
    ⟨fun ⟨hnil, hdot, hdots, hslash⟩ => ⟨hnil, hdot, hdots, hslash⟩,
      fun h => ⟨h.ne_nil, h.ne_dot, h.ne_dots, h.no_slash⟩⟩

theorem isName_of_length (hlength : 2 < t.length) (hslash : '/' ∉ t) : IsName t where
  ne_nil h := by simp [h] at hlength
  ne_dot h := by simp [h] at hlength
  ne_dots h := by simp [h] at hlength
  no_slash := hslash

theorem isName_append {ext : Text} (hslash : '/' ∉ t) (hext : 2 < ext.length ∧ '/' ∉ ext) :
    IsName (t ++ ext) := by
  refine isName_of_length ?_ ?_
  · rw [List.length_append]
    omega
  · rw [List.mem_append, not_or]
    exact ⟨hslash, hext.2⟩

/-- What stands behind the last dot of a file name. -/
def ending (t : Text) : Text := (split '.' t).getLastD []

theorem ending_append (s : Text) {ext : Text} (hext : '.' ∉ ext) :
    ending (s ++ "." ++ ext) = ext := by
  have hsplit : split '.' (s ++ "." ++ ext) = split '.' s ++ [ext] := by
    rw [List.append_assoc, ← split_of_notMem hext]
    exact split_append_cons s ext
  rw [ending, hsplit, List.getLastD_concat]

end Text

namespace Path

open Text

variable {p : Path} {home here : Location} {name : Text}

/-- Where the pieces of a path lead from a location, one after another. -/
def walk (here : Location) : List Text → Location
  | [] => here
  | piece :: rest =>
    if piece.isEmpty || piece == "." then walk here rest
    else if piece == ".." then walk here.dropLast rest
    else walk (here ++ [piece]) rest

/-- The place that a path leads to if nothing is missing on the way. -/
def place (home : Location) (p : Path) : Location :=
  walk (if p.isAbsolute then [] else home) p.pieces

/-- Paths that are read from texts have no slash within a piece. -/
def WellFormed (p : Path) : Prop := ∀ piece ∈ p.pieces, '/' ∉ piece

theorem wellFormed_ofText (t : Text) : (ofText t).WellFormed := fun _ => notMem_of_mem_split

theorem WellFormed.join (hp : p.WellFormed) (name : Text) : (p.join name).WellFormed := by
  unfold Path.join
  dsimp only
  split
  · exact wellFormed_ofText name
  · intro piece hpiece
    rcases List.mem_append.mp hpiece with hpiece | hpiece
    · refine hp piece ?_
      unfold stump at hpiece
      split at hpiece
      · exact (List.dropLast_sublist _).subset hpiece
      · exact hpiece
    · exact wellFormed_ofText name piece hpiece

theorem walk_append (here : Location) (front rest : List Text) :
    walk here (front ++ rest) = walk (walk here front) rest := by
  induction front generalizing here with
  | nil => rfl
  | cons piece front ih =>
    rw [List.cons_append, walk, walk]
    split
    · exact ih here
    · split
      · exact ih here.dropLast
      · exact ih (here ++ [piece])

theorem walk_cons_of_isName (hname : IsName name) (here : Location) (rest : List Text) :
    walk here (name :: rest) = walk (here ++ [name]) rest := by
  have hdot : ¬ (name.isEmpty || name == ".") = true := by
    simp only [Bool.or_eq_true, List.isEmpty_iff, beq_iff_eq]
    exact not_or.mpr ⟨hname.ne_nil, hname.ne_dot⟩
  have hdots : ¬ (name == "..") = true := by
    rw [beq_iff_eq]
    exact hname.ne_dots
  rw [walk, if_neg hdot, if_neg hdots]

theorem walk_concat (hname : IsName name) (here : Location) (front : List Text) :
    walk here (front ++ [name]) = walk here front ++ [name] := by
  rw [walk_append, walk_cons_of_isName hname]
  rfl

theorem walk_of_forall_isName {names : List Text} (h : ∀ name ∈ names, IsName name)
    (here : Location) : walk here names = here ++ names := by
  induction names generalizing here with
  | nil => rw [walk, List.append_nil]
  | cons name rest ih =>
    rw [walk_cons_of_isName (h name List.mem_cons_self),
      ih fun name hname => h name (List.mem_cons_of_mem _ hname), List.append_assoc,
      List.singleton_append]

/-- A slash at the end of a path leads no further. -/
theorem walk_stump (p : Path) (here : Location) : walk here p.stump = walk here p.pieces := by
  unfold stump
  split
  · rename_i hlast
    obtain ⟨front, hfront⟩ := List.getLast?_eq_some_iff.mp hlast
    rw [hfront, List.dropLast_concat, walk_append]
    rfl
  · rfl

theorem isAbsolute_stump_append {pieces : List Text} (hpieces : pieces ≠ [])
    (h : (Path.mk pieces).isAbsolute = false) :
    (Path.mk (p.stump ++ pieces)).isAbsolute = p.isAbsolute := by
  obtain ⟨_ | ⟨a, _ | ⟨b, rest⟩⟩⟩ := p
  · exact h
  · cases a with
    | nil => exact h
    | cons c a => rfl
  · obtain ⟨piece, more, rfl⟩ := List.exists_cons_of_ne_nil hpieces
    have hstump : ∃ rest', (Path.mk (a :: b :: rest)).stump = a :: rest' := by
      unfold stump
      split
      · exact ⟨_, rfl⟩
      · exact ⟨_, rfl⟩
    obtain ⟨rest', hrest'⟩ := hstump
    rw [hrest']
    cases rest' <;> cases a <;> rfl

/-- A relative name goes on from the place of the path. -/
theorem place_join_of_relative (h : (ofText name).isAbsolute = false) :
    place home (p.join name) = walk (place home p) (split '/' name) := by
  have habsolute := isAbsolute_stump_append (p := p) (split_ne_nil '/' name) h
  rw [join, if_neg (Bool.eq_false_iff.mp h), place, place, ← walk_stump p, ← walk_append]
  exact congrArg (fun absolute => walk (if absolute = true then [] else home) _) habsolute

/-- The last piece of a joined name is the last step of the path, if it is a name. -/
theorem exists_place_join (home : Location) (p : Path) {front : List Text} {last : Text}
    (hsplit : split '/' name = front ++ [last]) (hlast : IsName last) :
    ∃ above, place home (p.join name) = above ++ [last] := by
  have hwalk (here : Location) : walk here (split '/' name) = walk here front ++ [last] := by
    rw [hsplit, walk_concat hlast]
  cases habsolute : (ofText name).isAbsolute with
  | false => exact ⟨_, (place_join_of_relative habsolute).trans (hwalk _)⟩
  | true =>
    refine ⟨walk [] front, ?_⟩
    rw [join, if_pos habsolute, place, if_pos habsolute]
    exact hwalk []

theorem place_join_joined {names : List Text} (hnames : names ≠ [])
    (h : ∀ name ∈ names, IsName name) :
    place home (p.join (Text.joined "/" names)) = place home p ++ names := by
  have hsplit : split '/' (Text.joined "/" names) = names :=
    split_joined hnames fun name hname => (h name hname).no_slash
  have hrelative : (ofText (Text.joined "/" names)).isAbsolute = false := by
    obtain ⟨first, rest, rfl⟩ := List.exists_cons_of_ne_nil hnames
    have hfirst : first ≠ [] := (h first List.mem_cons_self).ne_nil
    rw [ofText, hsplit]
    cases rest <;> cases first <;> first | rfl | exact absurd rfl hfirst
  rw [place_join_of_relative hrelative, hsplit, walk_of_forall_isName h]

theorem place_join (hname : IsName name) :
    place home (p.join name) = place home p ++ [name] := by
  refine place_join_joined (List.cons_ne_nil name []) fun other hother => ?_
  rw [List.mem_singleton.mp hother]
  exact hname

/-- Whatever a file is called, what is added to its name stays at the end. -/
theorem exists_place_join_append (home : Location) (p : Path) (name : Text) {ext : Text}
    (hext : 2 < ext.length ∧ '/' ∉ ext) :
    ∃ above base, place home (p.join (name ++ ext)) = above ++ [base ++ ext] := by
  obtain ⟨pieces, last, hname, hsplit⟩ := split_append_of_notMem name hext.2
  have hslash : '/' ∉ last := by
    refine notMem_of_mem_split (t := name) ?_
    rw [hname]
    exact List.mem_append_right pieces (List.mem_singleton_self last)
  obtain ⟨above, habove⟩ := exists_place_join home p hsplit (isName_append hslash hext)
  exact ⟨above, last, habove⟩

theorem exists_place_join_ending (home : Location) (p : Path) {file front ext : Text}
    (hfile : file = front ++ "." ++ ext) (hext : '/' ∉ ext ∧ '.' ∉ ext ∧ 1 < ext.length) :
    ∃ above name, place home (p.join file) = above ++ [name] ∧ ending name = ext := by
  obtain ⟨hslash, hdot, hlength⟩ := hext
  have hmore : 2 < (("." : Text) ++ ext).length ∧ '/' ∉ ("." : Text) ++ ext :=
    ⟨Nat.succ_lt_succ hlength, by simpa using hslash⟩
  obtain ⟨above, base, hplace⟩ := exists_place_join_append home p front hmore
  rw [hfile, List.append_assoc]
  exact ⟨above, _, hplace, by rw [← List.append_assoc, ending_append base hdot]⟩

/-- Pieces that are followed from one of two folders next to each other either stay in it, or leave
it for a place that they also lead to from the other. -/
theorem walk_beside (here : Location) (pieces : List Text) (rest : Location) :
    (∃ rest', ∀ a, walk (here ++ a :: rest) pieces = here ++ a :: rest') ∨
      ∃ l, ∀ a, walk (here ++ a :: rest) pieces = l := by
  induction pieces generalizing rest with
  | nil => exact Or.inl ⟨rest, fun _ => rfl⟩
  | cons piece pieces ih =>
    simp only [walk]
    split
    · exact ih rest
    · split
      · rcases List.eq_nil_or_concat rest with rfl | ⟨rest, last, rfl⟩
        · refine Or.inr ⟨walk here pieces, fun a => ?_⟩
          rw [List.dropLast_concat]
        · have hdrop (a : Text) : (here ++ a :: rest.concat last).dropLast = here ++ a :: rest := by
            rw [List.concat_eq_append, ← List.cons_append, ← List.append_assoc,
              List.dropLast_concat]
          simp only [hdrop]
          exact ih rest
      · have hstep (a : Text) : here ++ a :: rest ++ [piece] = here ++ a :: (rest ++ [piece]) :=
          List.append_assoc here (a :: rest) [piece]
        simp only [hstep]
        exact ih (rest ++ [piece])

theorem isAbsolute_concat (front : List Text) (s t : Text) :
    (Path.mk (front ++ [s])).isAbsolute = (Path.mk (front ++ [t])).isAbsolute := by
  rcases front with _ | ⟨a, _ | ⟨b, rest⟩⟩
  · cases s <;> cases t <;> rfl
  · cases a <;> rfl
  · cases a <;> rfl

/-- A name that leads out of a folder leads to the same place from a folder next to it. So it does
with another extension, apart from the extension. -/
theorem place_join_beside {a b folder file ext ext' : Text} (ha : IsName a) (hb : IsName b)
    (hext : 2 < ext.length ∧ '/' ∉ ext) (hext' : 2 < ext'.length ∧ '/' ∉ ext')
    (h : place home ((p.join a).join (name ++ ext)) = place home p ++ [folder, file])
    (hfolder : folder ≠ a) :
    ∃ base, file = base ++ ext ∧
      place home ((p.join b).join (name ++ ext')) = place home p ++ [folder, base ++ ext'] := by
  obtain ⟨front, last, hsplit, hmore⟩ := split_append_of_notMem name hext.2
  obtain ⟨front', last', hsplit', hmore'⟩ := split_append_of_notMem name hext'.2
  obtain ⟨rfl, hlast⟩ := List.append_inj' (hsplit.symm.trans hsplit') rfl
  obtain rfl := List.singleton_inj.mp hlast
  have hslash : '/' ∉ last := by
    refine notMem_of_mem_split (t := name) ?_
    rw [hsplit]
    exact List.mem_append_right front (List.mem_singleton_self last)
  have hproper {ext : Text} (hext : 2 < ext.length ∧ '/' ∉ ext) : IsName (last ++ ext) :=
    isName_append hslash hext
  have hsame : (ofText (name ++ ext')).isAbsolute = (ofText (name ++ ext)).isAbsolute := by
    rw [ofText, ofText, hmore, hmore']
    exact isAbsolute_concat front _ _
  have hout {l : Location} (hl : l ++ [last ++ ext] = place home p ++ [folder, file]) :
      l = place home p ++ [folder] ∧ file = last ++ ext := by
    have hcut : place home p ++ [folder, file] = (place home p ++ [folder]) ++ [file] := by
      rw [List.append_assoc]
      rfl
    obtain ⟨hl, hfile⟩ := List.append_inj' (hl.trans hcut) rfl
    exact ⟨hl, (List.singleton_inj.mp hfile).symm⟩
  cases habsolute : (ofText (name ++ ext)).isAbsolute with
  | true =>
    rw [join, if_pos habsolute, place, if_pos habsolute, ofText, hmore, walk_concat (hproper hext)]
      at h
    obtain ⟨hplace, hfile⟩ := hout h
    refine ⟨last, hfile, ?_⟩
    rw [habsolute] at hsame
    rw [join, if_pos hsame, place, if_pos hsame, ofText, hmore', walk_concat (hproper hext'),
      hplace, List.append_assoc]
    rfl
  | false =>
    rw [place_join_of_relative habsolute, hmore, walk_concat (hproper hext), place_join ha] at h
    obtain ⟨hplace, hfile⟩ := hout h
    refine ⟨last, hfile, ?_⟩
    rw [habsolute] at hsame
    rw [place_join_of_relative hsame, hmore', walk_concat (hproper hext'), place_join hb]
    rcases walk_beside (place home p) front [] with ⟨rest, hrest⟩ | ⟨l, hl⟩
    · rw [hrest a] at hplace
      exact absurd (List.cons.inj (List.append_cancel_left hplace)).1.symm hfolder
    · rw [hl a] at hplace
      rw [hl b, hplace, List.append_assoc]
      rfl

end Path
end SchemaPackage
