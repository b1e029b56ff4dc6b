import SchemaPackage.Proofs.Disk.Folders

/-!
What is where on a disk, files and folders alike. A change reaches the place that its path leads to,
the missing folders on the way there, or what is below it, and every other place stays as it is.
What is below a folder is listed in an order of its own, so the list depends on nothing but what is
where.
-/
namespace SchemaPackage

open Text

namespace Path

variable {p q : Path} {home here l : Location} {name piece : Text} {names rest : List Text}

/-- A walk stays where it is at an empty piece or a dot. -/
theorem walk_skip (h : (piece.isEmpty || piece == ".") = true) :
    walk here (piece :: rest) = walk here rest :=
  if_pos h

theorem walk_up (h : ¬ (piece.isEmpty || piece == ".") = true) (hup : (piece == "..") = true) :
    walk here (piece :: rest) = walk here.dropLast rest :=
  (if_neg h).trans (if_pos hup)

theorem walk_down (h : ¬ (piece.isEmpty || piece == ".") = true) (hup : ¬ (piece == "..") = true) :
    walk here (piece :: rest) = walk (here ++ [piece]) rest :=
  (if_neg h).trans (if_neg hup)

/-- Places that a path goes through, from where it starts to where it leads. -/
def OnWay (home : Location) (p : Path) (l : Location) : Prop :=
  ∃ front, front <+: p.pieces ∧ l = walk (if p.isAbsolute then [] else home) front

theorem join_joined (p : Path) (hnames : names ≠ []) (h : ∀ name ∈ names, IsName name) :
    (p.join (Text.joined "/" names)).pieces = p.stump ++ names ∧
      (p.join (Text.joined "/" names)).isAbsolute = p.isAbsolute := by
  have hsplit : split '/' (Text.joined "/" names) = names :=
    split_joined hnames fun name hname => (h name hname).no_slash
  have hrelative : (Path.mk names).isAbsolute = false := by
    obtain ⟨first, rest, rfl⟩ := List.exists_cons_of_ne_nil hnames
    have hfirst : first ≠ [] := (h first List.mem_cons_self).ne_nil
    cases rest <;> cases first <;> first | rfl | exact absurd rfl hfirst
  have hjoin : p.join (Text.joined "/" names) = ⟨p.stump ++ names⟩ := by
    rw [join, ofText, hsplit, if_neg (Bool.eq_false_iff.mp hrelative)]
  rw [hjoin]
  exact ⟨rfl, isAbsolute_stump_append hnames hrelative⟩

/-- The way to what is below a path leads through the path. -/
theorem onWay_join_joined (hnames : names ≠ []) (h : ∀ name ∈ names, IsName name)
    (hl : (p.join (Text.joined "/" names)).OnWay home l) :
    p.OnWay home l ∨ ∃ front, front ≠ [] ∧ front <+: names ∧ l = p.place home ++ front := by
  obtain ⟨hpieces, habsolute⟩ := join_joined p hnames h
  obtain ⟨front, hfront, rfl⟩ := hl
  rw [hpieces] at hfront
  rw [habsolute]
  rcases List.prefix_or_prefix_of_prefix hfront (List.prefix_append p.stump names) with
    hshort | ⟨rest, rfl⟩
  · refine Or.inl ⟨front, hshort.trans ?_, rfl⟩
    unfold stump
    split
    · exact List.dropLast_prefix _
    · exact List.prefix_refl _
  · have hrest := (List.prefix_append_right_inj p.stump).mp hfront
    have hplace : walk (if p.isAbsolute then [] else home) (p.stump ++ rest) =
        p.place home ++ rest := by
      rw [walk_append, walk_stump,
        walk_of_forall_isName fun name hname => h name (hrest.subset hname), place]
    rw [hplace]
    by_cases hempty : rest = []
    · rw [hempty, List.append_nil]
      exact Or.inl ⟨p.pieces, List.prefix_refl _, rfl⟩
    · exact Or.inr ⟨rest, hempty, hrest, rfl⟩

theorem onWay_join (hname : IsName name) (hl : (p.join name).OnWay home l) :
    p.OnWay home l ∨ l = (p.join name).place home := by
  have hnames : ∀ other ∈ [name], IsName other := by
    intro other hother
    rw [List.mem_singleton.mp hother]
    exact hname
  rcases onWay_join_joined (List.cons_ne_nil name []) hnames hl with hl | ⟨front, hne, hfront, rfl⟩
  · exact Or.inl hl
  · obtain ⟨first, rest, rfl⟩ := List.exists_cons_of_ne_nil hne
    obtain ⟨rfl, hrest⟩ := List.cons_prefix_cons.mp hfront
    rw [List.prefix_nil.mp hrest, place_join hname]
    exact Or.inr rfl

/-- The steps of a path go through the same places as its pieces. -/
theorem exists_walk_eq_of_prefix_filter {pieces front : List Text}
    (h : front <+: pieces.filter fun s => !(s.isEmpty || s == ".")) (here : Location) :
    ∃ front', front' <+: pieces ∧ walk here front = walk here front' := by
  induction pieces generalizing here front with
  | nil => exact ⟨[], List.prefix_refl _, by rw [List.prefix_nil.mp h]⟩
  | cons piece rest ih =>
    by_cases hdot : (piece.isEmpty || piece == ".") = true
    · rw [List.filter_cons_of_neg (by rw [hdot]; exact Bool.false_ne_true)] at h
      obtain ⟨front', hfront', hwalk⟩ := ih h here
      refine ⟨piece :: front', List.cons_prefix_cons.mpr ⟨rfl, hfront'⟩, ?_⟩
      rw [hwalk, walk.eq_2, if_pos hdot]
    · rw [List.filter_cons_of_pos (by rw [Bool.eq_false_iff.mpr hdot]; rfl)] at h
      cases front with
      | nil => exact ⟨[], List.nil_prefix, rfl⟩
      | cons first front =>
        obtain ⟨rfl, hfront⟩ := List.cons_prefix_cons.mp h
        obtain ⟨front', hfront', hwalk⟩ := ih hfront (walk here [first])
        refine ⟨first :: front', List.cons_prefix_cons.mpr ⟨rfl, hfront'⟩, ?_⟩
        have hstep (tail : List Text) : walk here (first :: tail) = walk (walk here [first]) tail :=
          walk_append here [first] tail
        rw [hstep front, hstep front', hwalk]

theorem steps_join (p : Path) (hname : IsName name) : (p.join name).steps = p.steps ++ [name] := by
  have hstump : p.stump.filter (fun s : Text => !(s.isEmpty || s == ".")) = p.steps := by
    unfold stump
    split
    · rename_i hlast
      obtain ⟨front, hfront⟩ := List.getLast?_eq_some_iff.mp hlast
      rw [steps, hfront, List.dropLast_concat, List.filter_append]
      exact (List.append_nil _).symm
    · rfl
  have hstep : [name].filter (fun s : Text => !(s.isEmpty || s == ".")) = [name] := by
    rw [List.filter_singleton, List.isEmpty_eq_false_iff.mpr hname.ne_nil,
      beq_eq_false_iff_ne.mpr hname.ne_dot]
    rfl
  rw [steps, pieces_join p hname, List.filter_append, hstump, hstep]

theorem eq_of_parent?_join (hname : IsName name) (h : (p.join name).parent? = some q) :
    q = ⟨(if p.isAbsolute then [[], []] else []) ++ p.steps⟩ := by
  rw [parent?, steps_join p hname, isAbsolute_join p hname, List.dropLast_concat] at h
  split at h
  · cases h
  · exact (Option.some.inj h).symm

/-- What is above a path starts where the path does. -/
theorem isAbsolute_of_parent?_join (hname : IsName name) (h : (p.join name).parent? = some q) :
    q.isAbsolute = p.isAbsolute := by
  rw [eq_of_parent?_join hname h]
  cases p.isAbsolute with
  | true => rfl
  | false =>
    change (Path.mk p.steps).isAbsolute = false
    unfold isAbsolute
    split
    · rename_i hsteps
      have hmk : p.steps = [] :: _ := hsteps
      have hmem : ([] : Text) ∈ p.steps := by
        rw [hmk]
        exact List.mem_cons_self
      cases (List.mem_filter.mp hmem).2
    · rfl

/-- What is above a joined path is the way to the path itself. -/
theorem onWay_parent?_join (hname : IsName name) (h : (p.join name).parent? = some q)
    (hl : q.OnWay home l) : p.OnWay home l := by
  have hway {tail : List Text} (htail : tail <+: p.steps) :
      p.OnWay home (walk (if p.isAbsolute then [] else home) tail) := by
    obtain ⟨front, hfront, hwalk⟩ := exists_walk_eq_of_prefix_filter htail _
    exact ⟨front, hfront, hwalk⟩
  obtain ⟨front, hfront, rfl⟩ := hl
  rw [isAbsolute_of_parent?_join hname h]
  rw [eq_of_parent?_join hname h] at hfront
  cases habsolute : p.isAbsolute with
  | false =>
    rw [habsolute] at hfront hway
    exact hway hfront
  | true =>
    rw [habsolute] at hfront hway
    change p.OnWay home (walk [] front)
    -- The two slashes in front lead nowhere.
    rcases front with _ | ⟨a, _ | ⟨b, tail⟩⟩
    · exact hway List.nil_prefix
    · rw [(List.cons_prefix_cons.mp hfront).1]
      change p.OnWay home (walk [] [])
      exact hway List.nil_prefix
    · obtain ⟨ha, hfront⟩ := List.cons_prefix_cons.mp hfront
      obtain ⟨hb, htail⟩ := List.cons_prefix_cons.mp hfront
      rw [ha, hb]
      change p.OnWay home (walk [] tail)
      exact hway htail

end Path

namespace Disk

variable {d d' : Disk} {p : Path} {l m here : Location} {c : Content} {piece : Text}
  {pieces rest : List Text}

theorem entryAt?_write? (h : d.write? p c = some d') (m : Location) :
    d'.entryAt? m = if m = p.place d.home then some (.file c) else d.entryAt? m := by
  obtain ⟨_, hne, _, rfl⟩ := write?_eq_some h
  exact entryAt?_put hne _

theorem settings_write? (h : d.write? p c = some d') : d'.home = d.home ∧ d'.closed = d.closed := by
  obtain ⟨_, _, _, rfl⟩ := write?_eq_some h
  exact ⟨rfl, rfl⟩

theorem makeFrom_skip (h : (piece.isEmpty || piece == ".") = true) :
    makeFrom here d (piece :: rest) = makeFrom here d rest :=
  if_pos h

theorem makeFrom_up (h : ¬ (piece.isEmpty || piece == ".") = true) (hup : (piece == "..") = true) :
    makeFrom here d (piece :: rest) = makeFrom here.dropLast d rest :=
  (if_neg h).trans (if_pos hup)

theorem makeFrom_of_folder (h : ¬ (piece.isEmpty || piece == ".") = true)
    (hup : ¬ (piece == "..") = true) (hthere : d.entryAt? (here ++ [piece]) = some .folder) :
    makeFrom here d (piece :: rest) = makeFrom (here ++ [piece]) d rest := by
  rw [makeFrom, if_neg h, if_neg hup]
  dsimp only
  rw [hthere]

theorem makeFrom_of_file (h : ¬ (piece.isEmpty || piece == ".") = true)
    (hup : ¬ (piece == "..") = true) (hthere : d.entryAt? (here ++ [piece]) = some (.file c)) :
    makeFrom here d (piece :: rest) = (d, false) := by
  rw [makeFrom, if_neg h, if_neg hup]
  dsimp only
  rw [hthere]

theorem makeFrom_of_none (h : ¬ (piece.isEmpty || piece == ".") = true)
    (hup : ¬ (piece == "..") = true) (hthere : d.entryAt? (here ++ [piece]) = none) :
    makeFrom here d (piece :: rest) =
      if d.takesNew here piece then makeFrom (here ++ [piece]) (d.put (here ++ [piece]) .folder) rest
      else (d, false) := by
  rw [makeFrom, if_neg h, if_neg hup]
  dsimp only
  rw [hthere]

theorem settings_makeFrom (here : Location) (d : Disk) (pieces : List Text) :
    (makeFrom here d pieces).1.home = d.home ∧ (makeFrom here d pieces).1.closed = d.closed := by
  fun_induction makeFrom here d pieces with
  | case1 | case5 | case7 => exact ⟨rfl, rfl⟩
  | case2 _ _ _ _ _ ih => exact ih
  | case3 _ _ _ _ _ _ ih => exact ih
  | case4 _ _ _ _ _ _ _ _ ih => exact ih
  | case6 _ _ _ _ _ _ _ _ _ ih => exact ih

/-- A way down is made of folders that are put where nothing is. -/
theorem entryAt?_makeFrom (here : Location) (d : Disk) (pieces : List Text) (m : Location) :
    (makeFrom here d pieces).1.entryAt? m = d.entryAt? m ∨
      d.entryAt? m = none ∧ (makeFrom here d pieces).1.entryAt? m = some .folder ∧
        ∃ front, front <+: pieces ∧ m = Path.walk here front := by
  -- The way from the next location is the way from this one without its first piece.
  have hon {d d' : Disk} {here there : Location} {piece : Text} {rest : List Text}
      (hwalk : ∀ front, Path.walk here (piece :: front) = Path.walk there front)
      (h : d'.entryAt? m = d.entryAt? m ∨ d.entryAt? m = none ∧ d'.entryAt? m = some .folder ∧
        ∃ front, front <+: rest ∧ m = Path.walk there front) :
      d'.entryAt? m = d.entryAt? m ∨ d.entryAt? m = none ∧ d'.entryAt? m = some .folder ∧
        ∃ front, front <+: piece :: rest ∧ m = Path.walk here front := by
    rcases h with hsame | ⟨hnone, hfolder, front, hfront, rfl⟩
    · exact Or.inl hsame
    · exact Or.inr ⟨hnone, hfolder, piece :: front,
        List.cons_prefix_cons.mpr ⟨rfl, hfront⟩, (hwalk front).symm⟩
  fun_induction makeFrom here d pieces with
  | case1 | case5 | case7 => exact Or.inl rfl
  | case2 here d piece rest hdot ih => exact hon (fun _ => Path.walk_skip hdot) ih
  | case3 here d piece rest hdot hup ih => exact hon (fun _ => Path.walk_up hdot hup) ih
  | case4 here d piece rest hdot hup there _ ih => exact hon (fun _ => Path.walk_down hdot hup) ih
  | case6 here d piece rest hdot hup there hnone _ ih =>
    have hne : there ≠ [] := List.append_ne_nil_of_right_ne_nil here (List.cons_ne_nil piece [])
    have hwalk (front : List Text) : Path.walk here (piece :: front) = Path.walk there front :=
      Path.walk_down hdot hup
    rcases hon hwalk ih with hsame | ⟨hleft, hmade⟩
    · rw [hsame, entryAt?_put hne]
      by_cases hm : m = there
      · rw [if_pos hm, hm]
        exact Or.inr ⟨hnone, rfl, [piece], List.prefix_append [piece] rest, (hwalk []).symm⟩
      · rw [if_neg hm]
        exact Or.inl rfl
    · rw [entryAt?_put hne] at hleft
      split at hleft
      · cases hleft
      · exact Or.inr ⟨hleft, hmade⟩

/-- Making folders leaves those that are there. -/
theorem isFolderAt_makeFrom (here : Location) (d : Disk) (pieces : List Text)
    (hm : d.isFolderAt m = true) : (makeFrom here d pieces).1.isFolderAt m = true := by
  unfold isFolderAt
  rcases entryAt?_makeFrom here d pieces m with hsame | ⟨_, hfolder, _⟩
  · rw [hsame]
    exact hm
  · rw [hfolder]
    rfl

theorem settings_makeFolders (p : Path) (d : Disk) :
    (d.makeFolders p).1.home = d.home ∧ (d.makeFolders p).1.closed = d.closed := by
  unfold makeFolders
  split
  · exact settings_makeFrom _ d _
  · exact ⟨rfl, rfl⟩

theorem entryAt?_makeFolders (p : Path) (d : Disk) (m : Location) :
    (d.makeFolders p).1.entryAt? m = d.entryAt? m ∨
      d.entryAt? m = none ∧ (d.makeFolders p).1.entryAt? m = some .folder ∧
        p.OnWay d.home m := by
  unfold makeFolders
  split
  · exact entryAt?_makeFrom _ d _ m
  · exact Or.inl rfl

theorem isFolderAt_makeFolders (p : Path) (d : Disk) (hm : d.isFolderAt m = true) :
    (d.makeFolders p).1.isFolderAt m = true := by
  unfold makeFolders
  split
  · exact isFolderAt_makeFrom _ d _ hm
  · exact hm

theorem entryAt?_remove (hm : m ≠ []) (l : Location) :
    (d.remove l).entryAt? m = if m = l then none else d.entryAt? m := by
  rw [entryAt?_of_ne_nil hm, entryAt?_of_ne_nil hm, remove, Std.ExtTreeMap.getElem?_erase]
  simp only [Std.LawfulEqCmp.compare_eq_iff_eq, eq_comm (a := l)]

theorem settings_removeFolder (p : Path) (d : Disk) :
    (d.removeFolder p).1.home = d.home ∧ (d.removeFolder p).1.closed = d.closed := by
  unfold removeFolder
  split
  · exact ⟨rfl, rfl⟩
  · split
    · exact ⟨rfl, rfl⟩
    · dsimp only
      split
      · exact ⟨rfl, rfl⟩
      · split
        · exact ⟨rfl, rfl⟩
        · exact ⟨rfl, rfl⟩

/-- Removing takes away what is below the place of a folder, and nothing else. -/
theorem entryAt?_removeFolder (p : Path) (d : Disk) (m : Location) :
    (d.removeFolder p).1.entryAt? m = d.entryAt? m ∨
      p.place d.home <+: m ∧ (d.removeFolder p).1.entryAt? m = none := by
  by_cases hm : m = []
  · subst m
    exact Or.inl rfl
  have hempty (l : Location) : (d.removeBelow l).entryAt? m = d.entryAt? m ∨
      l <+: m ∧ (d.removeBelow l).entryAt? m = none := by
    rw [entryAt?_removeBelow hm]
    cases hentry : d.entryAt? m with
    | none => exact Or.inl rfl
    | some entry =>
      by_cases hkept : (decide (m = l) || !l.isPrefixOf m) = true
      · exact Or.inl (by rw [Option.filter_some, if_pos hkept])
      · refine Or.inr ⟨?_, by rw [Option.filter_some, if_neg hkept]⟩
        simpa using (not_or.mp (mt Bool.or_eq_true_iff.mpr hkept)).2
  unfold removeFolder
  split
  · exact Or.inl rfl
  · rename_i l hlocate
    rw [← locate?_eq_some hlocate]
    split
    · exact Or.inl rfl
    · dsimp only
      split
      · exact hempty l
      · split
        · exact hempty l
        · rw [entryAt?_remove hm]
          split
          · rename_i hl
            exact Or.inr ⟨by rw [hl], rfl⟩
          · exact hempty l

theorem compare_append_left (l m m' : Location) : compare (l ++ m) (l ++ m') = compare m m' := by
  induction l with
  | nil => rfl
  | cons a l ih =>
    rw [List.cons_append, List.cons_append, List.compare_eq_compareLex, List.compareLex_cons_cons,
      Std.ReflOrd.compare_self, Ordering.eq_then]
    exact ih

/-- Everything below a location is listed in the order of its locations. -/
theorem pairwise_below (d : Disk) (l : Location) :
    (d.below l).Pairwise fun e e' => compare e.1 e'.1 = .lt := by
  rw [below, List.pairwise_filterMap]
  refine Std.ExtTreeMap.ordered_keys_toList.imp fun {e e'} hlt found hfound found' hfound' => ?_
  split at hfound
  · rename_i name rest hafter
    split at hfound'
    · rename_i name' rest' hafter'
      rw [after?_eq_some.mp hafter, after?_eq_some.mp hafter', compare_append_left] at hlt
      rw [← Option.some.inj hfound, ← Option.some.inj hfound']
      exact hlt
    · cases hfound'
  · cases hfound

/-- What is below a location can be told from what is where. -/
theorem below_congr (h : ∀ rest, rest ≠ [] → d'.entryAt? (l ++ rest) = d.entryAt? (l ++ rest)) :
    d'.below l = d.below l := by
  have hnodup (d : Disk) : (d.below l).Nodup := by
    refine (pairwise_below d l).imp fun {e e'} hlt heq => ?_
    rw [heq, Std.ReflOrd.compare_self] at hlt
    cases hlt
  have hasymm (e e' : Location × Entry) (hlt : compare e.1 e'.1 = .lt) :
      compare e'.1 e.1 ≠ .lt :=
    Std.OrientedCmp.not_lt_of_lt hlt
  refine List.Perm.eq_of_pairwise (fun e e' _ _ hlt hgt => absurd hgt (hasymm e e' hlt))
    (pairwise_below d' l) (pairwise_below d l)
    ((List.perm_ext_iff_of_nodup (hnodup d') (hnodup d)).mpr ?_)
  rintro ⟨rest, entry⟩
  rw [mem_below, mem_below]
  exact and_congr_right fun hrest => by rw [h rest hrest]

end Disk
end SchemaPackage
